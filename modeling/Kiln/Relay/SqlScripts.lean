import Kiln.Lib.Utf16

/-!
# SQL scripts

`sqliteQuery` of apps/relay/src/database-browser-sqlite.ts: a script is split into its statements, as the driver prepares
only the first of a text. A script that may write runs in one transaction. What the driver does is a parameter.
-/

namespace Kiln.Relay
open Kiln.Lib

namespace SqlScript

/-! ## Splitting -/

/-- `[\w$]` -/
def isWordUnit (unit : UInt16) : Bool :=
  0x61 ≤ unit.toNat && unit.toNat ≤ 0x7A || 0x41 ≤ unit.toNat && unit.toNat ≤ 0x5A ||
    0x30 ≤ unit.toNat && unit.toNat ≤ 0x39 || unit = 0x5F || unit = 0x24

def upperUnit (unit : UInt16) : UInt16 := if 0x61 ≤ unit.toNat && unit.toNat ≤ 0x7A then unit - 0x20 else unit

/-- `toUpperCase` of a word -/
def upper (word : Utf16) : Utf16 := word.map upperUnit

/-- A text up to the first place where another ends, and what follows. -/
def splitAfter (ending : Utf16) : Utf16 → Utf16 × Utf16
  | [] => ([], [])
  | unit :: rest =>
      if ending.isPrefixOf (unit :: rest) then ((unit :: rest).take ending.length, (unit :: rest).drop ending.length)
      else (unit :: (splitAfter ending rest).1, (splitAfter ending rest).2)

/-- `skipQuoted`, from behind the first quote -/
def skipQuoted (quote : UInt16) : Utf16 → Utf16 × Utf16
  | [] => ([], [])
  | [unit] => ([unit], [])
  | unit :: next :: rest =>
      if unit = quote then
        if next = quote then (unit :: next :: (skipQuoted quote rest).1, (skipQuoted quote rest).2)
        else ([unit], next :: rest)
      else (unit :: (skipQuoted quote (next :: rest)).1, (skipQuoted quote (next :: rest)).2)

/-- What the loop has read since the last statement. -/
structure Scan where
  /-- `sql.slice(start, index)` -/
  piece : Utf16 := []
  words : List Utf16 := []
  word : Utf16 := []

namespace Scan

def flushWord (s : Scan) : Scan :=
  if s.word = [] then s else { s with words := s.words ++ [upper s.word], word := [] }

def take (s : Scan) (text : Utf16) : Scan := { s with piece := s.piece ++ text }

end Scan

/-- `closesTriggerBody`, with the cases that are open -/
def closesTriggerBody : Nat → List Utf16 → Bool
  | _, [] => false
  | openCases, word :: rest =>
      if word = .ofString "CASE" then closesTriggerBody (openCases + 1) rest
      else if word = .ofString "END" ∧ 0 < openCases then closesTriggerBody (openCases - 1) rest
      else if word = .ofString "END" then true
      else closesTriggerBody openCases rest

/-- Words that are taken for a trigger's. -/
def isTrigger (words : List Utf16) : Bool :=
  words.head? = some (.ofString "CREATE") && ((words.drop 1).take 3).contains (Utf16.ofString "TRIGGER")

/-- Whether a semicolon after these words ends the statement. -/
def splitsAfter (words : List Utf16) : Bool := !isTrigger words || closesTriggerBody 0 words

/-- The statement there is, unless it's empty. -/
def Scan.statement (s : Scan) : List Utf16 :=
  if Utf16.trim s.piece ≠ [] ∧ s.words ≠ [] then [Utf16.trim s.piece] else []

theorem splitAfter_le (ending text : Utf16) : (splitAfter ending text).2.length ≤ text.length := by
  induction text with
  | nil => exact Nat.le_refl 0
  | cons unit rest ih =>
    unfold splitAfter
    split
    · simp
    · exact Nat.le_succ_of_le ih

theorem skipQuoted_le (quote : UInt16) (text : Utf16) : (skipQuoted quote text).2.length ≤ text.length := by
  induction text using skipQuoted.induct quote with
  | case1 => exact Nat.le_refl 0
  | case2 unit => exact Nat.zero_le _
  | case3 rest ih =>
    rw [skipQuoted, if_pos rfl, if_pos rfl]
    simp only [List.length_cons]
    omega
  | case4 next rest other =>
    rw [skipQuoted, if_pos rfl, if_neg other]
    exact Nat.le_succ _
  | case5 unit next rest other ih =>
    rw [skipQuoted, if_neg other]
    exact Nat.le_succ_of_le ih

def isQuote (unit : UInt16) : Bool := unit = 0x27 || unit = 0x22 || unit = 0x60

/-- The loop of `splitSqlStatements`: what follows, and what's been read of the statement. -/
def splitFrom (rest : Utf16) (s : Scan) : List Utf16 :=
  match rest with
  | [] => s.flushWord.statement
  | character :: after =>
      if character = 0x2D ∧ after.head? = some 0x2D then
        splitFrom (splitAfter [0x0A] after.tail).2 (s.flushWord.take (character :: 0x2D :: (splitAfter [0x0A] after.tail).1))
      else if character = 0x2F ∧ after.head? = some 0x2A then
        splitFrom (splitAfter [0x2A, 0x2F] after.tail).2
          (s.flushWord.take (character :: 0x2A :: (splitAfter [0x2A, 0x2F] after.tail).1))
      else if isQuote character then
        splitFrom (skipQuoted character after).2 (s.flushWord.take (character :: (skipQuoted character after).1))
      else if character = 0x5B then
        splitFrom (splitAfter [0x5D] after).2 (s.flushWord.take (character :: (splitAfter [0x5D] after).1))
      else if character = 0x3B then
        if splitsAfter s.flushWord.words then s.flushWord.statement ++ splitFrom after {}
        else splitFrom after (s.flushWord.take [character])
      else if isWordUnit character then splitFrom after { s with word := s.word ++ [character], piece := s.piece ++ [character] }
      else splitFrom after (s.flushWord.take [character])
termination_by rest.length
decreasing_by
  · have := splitAfter_le [0x0A] after.tail
    simp at *; omega
  · have := splitAfter_le [0x2A, 0x2F] after.tail
    simp at *; omega
  · have := skipQuoted_le character after
    simp; omega
  · have := splitAfter_le [0x5D] after
    simp; omega
  all_goals simp

def splitSqlStatements (sql : Utf16) : List Utf16 := splitFrom sql {}

/-! ## Transaction control -/

/-- `\w` of an expression that ignores case -/
def isRegexWord (unit : UInt16) : Bool := (isWordUnit unit && unit ≠ 0x24) || unit = 0x17F || unit = 0x212A

/-- The letters of a word, however they are written. -/
def startsWithWord : Utf16 → Utf16 → Bool
  | [], rest => rest.head?.all fun unit => !isRegexWord unit
  | letter :: letters, unit :: rest =>
      (upperUnit unit = letter || letter = 0x4B && unit = 0x212A) && startsWithWord letters rest
  | _ :: _, [] => false

/-- `(?:BEGIN|COMMIT|END|ROLLBACK)\b` -/
def startsWithControl (text : Utf16) : Bool :=
  ["BEGIN", "COMMIT", "END", "ROLLBACK"].any fun keyword => startsWithWord (.ofString keyword) text

inductive SkipMode where
  | between
  | line
  | block

/-- Whether `TRANSACTION_CONTROL` goes on to match, between two of what it skips or inside a comment. -/
def controlFrom : SkipMode → Utf16 → Bool
  | .between, [] => false
  | .between, unit :: rest =>
      startsWithControl (unit :: rest) || (Utf16.isSpace unit && controlFrom .between rest) ||
        match rest with
        | [] => false
        | next :: rest =>
            (unit = 0x2D && next = 0x2D && controlFrom .line rest) || (unit = 0x2F && next = 0x2A && controlFrom .block rest)
  | .line, [] => false
  | .line, unit :: rest => controlFrom .between (unit :: rest) || (unit ≠ 0x0A && controlFrom .line rest)
  | .block, [] => false
  | .block, unit :: rest =>
      (match rest with
        | [] => false
        | next :: rest => unit = 0x2A && next = 0x2F && controlFrom .between rest) || controlFrom .block rest
termination_by mode text => (text.length, match mode with | .line => 1 | _ => 0)

/-- `TRANSACTION_CONTROL` -/
def transactionControl (sql : Utf16) : Bool := controlFrom .between sql

/-! ## Running a script -/

/-- A database, as it's committed and as the open transaction has it. -/
structure Connection (σ : Type) where
  committed : σ
  working : Option σ := none

inductive QueryError where
  | emptyQuery
  | transactionControl
  | failed (message : String)

/-- What a step comes to, and the connection it leaves. -/
abbrev Outcome (σ : Type) := Except String Unit × Connection σ

/-- The driver: the statements of a transaction, and the first statement of a text. -/
structure Driver (σ : Type) where
  beginImmediate : Connection σ → Outcome σ
  commit : Connection σ → Outcome σ
  rollback : Connection σ → Outcome σ
  run : Utf16 → Connection σ → Outcome σ

variable {σ : Type}

/-- The statements in turn, up to one that fails. -/
def runStatements (driver : Driver σ) : List Utf16 → Connection σ → Outcome σ
  | [], connection => (.ok (), connection)
  | sql :: rest, connection =>
      match driver.run sql connection with
      | (.ok _, connection) => runStatements driver rest connection
      | failed => failed

def inTransaction (driver : Driver σ) (claimCommit : Except String Unit) (run : Connection σ → Outcome σ)
    (connection : Connection σ) : Outcome σ :=
  match driver.beginImmediate connection with
  | (.error message, connection) => (.error message, connection)
  | (.ok _, connection) =>
      let outcome := match run connection with
        | (.ok _, connection) =>
            match claimCommit with
            | .ok _ => driver.commit connection
            | .error message => (.error message, connection)
        | failed => failed
      match outcome with
      | (.ok _, connection) => (.ok (), connection)
      | (.error message, connection) =>
          if connection.working.isSome then (.error message, (driver.rollback connection).2) else (.error message, connection)

/-- `sqliteQuery` -/
def sqliteQuery (driver : Driver σ) (claimCommit : Except String Unit) (sql : Utf16) (writable : Bool)
    (connection : Connection σ) : Except QueryError Unit × Connection σ :=
  let statements := splitSqlStatements sql
  if statements = [] then (.error .emptyQuery, connection)
  else if statements.any transactionControl then (.error .transactionControl, connection)
  else
    let outcome := if writable then inTransaction driver claimCommit (runStatements driver statements) connection
      else runStatements driver statements connection
    (outcome.1.mapError .failed, outcome.2)

end SqlScript

end Kiln.Relay
