import Mathlib
import Kiln.Relay.SqlScripts

/-!
# The statements of a script

How SQLite reads a script: comments, quoted text and bracketed names are a chunk each, words are runs of letters, digits,
`_`, `$` and whatever isn't ASCII, and a keyword may be a name. A statement is ended by a semicolon or by the script's
end, but that of a trigger by the END after its body. Variables with a suffix in parentheses are left out.
-/

namespace Kiln.Relay
open Kiln.Lib

namespace SqlScript

/-! ## Chunks -/

inductive SqlChunk where
  | comment (text : Utf16)
  /-- Text in quotes, or a name in brackets. -/
  | quoted (text : Utf16)
  | unit (unit : UInt16)
  | semicolon

def SqlChunk.text : SqlChunk → Utf16
  | .comment text => text
  | .quoted text => text
  | .unit u => [u]
  | .semicolon => [0x3B]

def chunksText (chunks : List SqlChunk) : Utf16 := chunks.flatMap SqlChunk.text

/-- What may stand between quotes, where quotes are doubled. -/
inductive Doubled (quote : UInt16) : Utf16 → Prop
  | nil : Doubled quote []
  | unit {unit : UInt16} {rest : Utf16} (plain : unit ≠ quote) (doubled : Doubled quote rest) : Doubled quote (unit :: rest)
  | pair {rest : Utf16} (doubled : Doubled quote rest) : Doubled quote (quote :: quote :: rest)

/-- The chunks SQLite reads a script as. -/
inductive Reads : Utf16 → List SqlChunk → Prop
  | nil : Reads [] []
  | line {body rest : Utf16} {chunks : List SqlChunk} (inside : 0x0A ∉ body) (reads : Reads rest chunks) :
      Reads (0x2D :: 0x2D :: (body ++ 0x0A :: rest)) (.comment (0x2D :: 0x2D :: (body ++ [0x0A])) :: chunks)
  | lastLine {body : Utf16} (inside : 0x0A ∉ body) : Reads (0x2D :: 0x2D :: body) [.comment (0x2D :: 0x2D :: body)]
  | block {body rest : Utf16} {chunks : List SqlChunk} (inside : ¬ [0x2A, 0x2F] <:+: body ++ [0x2A])
      (reads : Reads rest chunks) :
      Reads (0x2F :: 0x2A :: (body ++ 0x2A :: 0x2F :: rest))
        (.comment (0x2F :: 0x2A :: (body ++ [0x2A, 0x2F])) :: chunks)
  | lastBlock {body : Utf16} (inside : ¬ [0x2A, 0x2F] <:+: body) (some_ : body ≠ []) :
      Reads (0x2F :: 0x2A :: body) [.comment (0x2F :: 0x2A :: body)]
  | quoted {quote : UInt16} {body rest : Utf16} {chunks : List SqlChunk} (is : isQuote quote = true)
      (inside : Doubled quote body) (ends : rest.head? ≠ some quote) (reads : Reads rest chunks) :
      Reads (quote :: (body ++ quote :: rest)) (.quoted (quote :: (body ++ [quote])) :: chunks)
  | bracket {body rest : Utf16} {chunks : List SqlChunk} (inside : 0x5D ∉ body) (reads : Reads rest chunks) :
      Reads (0x5B :: (body ++ 0x5D :: rest)) (.quoted (0x5B :: (body ++ [0x5D])) :: chunks)
  | semicolon {rest : Utf16} {chunks : List SqlChunk} (reads : Reads rest chunks) :
      Reads (0x3B :: rest) (.semicolon :: chunks)
  | unit {unit : UInt16} {rest : Utf16} {chunks : List SqlChunk} (plain : isQuote unit = false ∧ unit ≠ 0x5B ∧ unit ≠ 0x3B)
      (line : ¬ (unit = 0x2D ∧ rest.head? = some 0x2D)) (block : ¬ (unit = 0x2F ∧ rest.head? = some 0x2A))
      (reads : Reads rest chunks) : Reads (unit :: rest) (.unit unit :: chunks)

/-! ## Tokens -/

inductive SqlToken where
  /-- A keyword, a name, a number, or a variable with its mark. -/
  | word (text : Utf16)
  | quoted (text : Utf16)
  | symbol (unit : UInt16)
  deriving DecidableEq

/-- What a name may go on with. -/
def isIdUnit (unit : UInt16) : Bool := isWordUnit unit || 0x80 ≤ unit.toNat

def isSqlSpace (unit : UInt16) : Bool := unit = 0x20 || unit = 0x09 || unit = 0x0A || unit = 0x0C || unit = 0x0D

/-- White space at the start of a token, where a byte order mark is some. -/
def isBlankUnit (unit : UInt16) : Bool := isSqlSpace unit || unit = 0xFEFF

/-- `:`, `@` and `#`, which a variable may start with. -/
def isVariableMark (unit : UInt16) : Bool := unit = 0x3A || unit = 0x40 || unit = 0x23

def wordToken (run : Utf16) : List SqlToken := if run = [] then [] else [.word run]

/-- The tokens of chunks, after a run of a word that's going on. -/
def sqlTokensFrom : Utf16 → List SqlChunk → List SqlToken
  | run, [] => wordToken run
  | run, .unit unit :: rest =>
      if isIdUnit unit ∧ (run ≠ [] ∨ unit ≠ 0xFEFF) then sqlTokensFrom (run ++ [unit]) rest
      else if isBlankUnit unit then wordToken run ++ sqlTokensFrom [] rest
      else if isVariableMark unit then wordToken run ++ sqlTokensFrom [unit] rest
      else wordToken run ++ .symbol unit :: sqlTokensFrom [] rest
  | run, .quoted text :: rest => wordToken run ++ .quoted text :: sqlTokensFrom [] rest
  | run, .comment _ :: rest | run, .semicolon :: rest => wordToken run ++ sqlTokensFrom [] rest

def sqlTokens (chunks : List SqlChunk) : List SqlToken := sqlTokensFrom [] chunks

/-- A keyword's letters. -/
def isLetter (unit : UInt16) : Bool := 0x41 ≤ unit.toNat && unit.toNat ≤ 0x5A || 0x61 ≤ unit.toNat && unit.toNat ≤ 0x7A

/-- The keyword that a token may be. -/
def SqlToken.keyword : SqlToken → Option Utf16
  | .word text => if text ≠ [] ∧ text.all isLetter then some (upper text) else none
  | _ => none

def isKeyword (token : Option SqlToken) (name : String) : Prop := token.bind SqlToken.keyword = some (.ofString name)

instance (token : Option SqlToken) (name : String) : Decidable (isKeyword token name) :=
  inferInstanceAs (Decidable (_ = _))

/-! ## Statements -/

def NoSemicolon (chunks : List SqlChunk) : Prop := ∀ chunk ∈ chunks, chunk ≠ .semicolon

/-- `CREATE [TEMP|TEMPORARY] TRIGGER` -/
def StartsTrigger (tokens : List SqlToken) : Prop :=
  isKeyword tokens[0]? "CREATE" ∧ (isKeyword tokens[1]? "TRIGGER" ∨
    (isKeyword tokens[1]? "TEMP" ∨ isKeyword tokens[1]? "TEMPORARY") ∧ isKeyword tokens[2]? "TRIGGER")

instance (tokens : List SqlToken) : Decidable (StartsTrigger tokens) := inferInstanceAs (Decidable (_ ∧ _))

/-- What's behind `EXPLAIN` or `EXPLAIN QUERY PLAN`. -/
def explained (tokens : List SqlToken) : List SqlToken :=
  if isKeyword tokens[0]? "EXPLAIN" then
    if isKeyword tokens[1]? "QUERY" ∧ isKeyword tokens[2]? "PLAN" then tokens.drop 3 else tokens.drop 1
  else tokens

/-- A statement starts with a keyword, and with none of a trigger's if it isn't one. -/
def StartsPlain (tokens : List SqlToken) : Prop :=
  (tokens[0]?.bind SqlToken.keyword).isSome = true ∧ ¬ StartsTrigger (explained tokens)

instance (tokens : List SqlToken) : Decidable (StartsPlain tokens) := inferInstanceAs (Decidable (_ ∧ _))

/-- What follows a trigger's first command: more commands, each behind a semicolon, and the END that closes the body. -/
inductive TriggerRest : List SqlChunk → Prop
  | closing {chunks : List SqlChunk} (one : NoSemicolon chunks) (only : ∃ token, sqlTokens chunks = [token] ∧ isKeyword token "END") :
      TriggerRest (.semicolon :: chunks)
  | command {chunks rest : List SqlChunk} (one : NoSemicolon chunks)
      (starts : ((sqlTokens chunks)[0]?.bind SqlToken.keyword).isSome = true ∧ ¬ isKeyword (sqlTokens chunks)[0]? "END")
      (more : TriggerRest rest) : TriggerRest (.semicolon :: (chunks ++ rest))

inductive IsStatement : List SqlChunk → Prop
  | plain {chunks : List SqlChunk} (one : NoSemicolon chunks) (starts : StartsPlain (sqlTokens chunks)) : IsStatement chunks
  | trigger {header rest : List SqlChunk} (one : NoSemicolon header) (starts : StartsTrigger (sqlTokens header))
      (body : TriggerRest rest) : IsStatement (header ++ rest)

/-- A statement, and whether a semicolon ends it. -/
structure SqlStatement where
  chunks : List SqlChunk
  ended : Bool

/-- A script that is a sequence of statements, perhaps with empty ones among them. -/
inductive Statements : List SqlChunk → List SqlStatement → Prop
  | end_ {blank : List SqlChunk} (one : NoSemicolon blank) (empty : sqlTokens blank = []) : Statements blank []
  | blank {blank rest : List SqlChunk} {statements : List SqlStatement} (one : NoSemicolon blank)
      (empty : sqlTokens blank = []) (more : Statements rest statements) :
      Statements (blank ++ .semicolon :: rest) statements
  | last {chunks : List SqlChunk} (is : IsStatement chunks) : Statements chunks [⟨chunks, false⟩]
  | next {chunks rest : List SqlChunk} {statements : List SqlStatement} (is : IsStatement chunks)
      (more : Statements rest statements) : Statements (chunks ++ .semicolon :: rest) (⟨chunks, true⟩ :: statements)

/-- A statement's text, without the white space around it. -/
def SqlStatement.text (statement : SqlStatement) : Utf16 :=
  ((chunksText statement.chunks).dropWhile isBlankUnit).rdropWhile isSqlSpace

/-- A statement that commits or ends a transaction, or begins one. -/
def SqlStatement.Controls (statement : SqlStatement) : Prop :=
  ∃ keyword ∈ ["BEGIN", "COMMIT", "END", "ROLLBACK"], isKeyword (sqlTokens statement.chunks)[0]? keyword

/-! ## When a statement is split as SQLite reads it -/

/-- The words of chunks as the splitter reads them, after a run of a word that's going on. -/
def scriptWordsFrom : Utf16 → List SqlChunk → List Utf16
  | run, [] => if run = [] then [] else [upper run]
  | run, .unit unit :: rest =>
      if isWordUnit unit then scriptWordsFrom (run ++ [unit]) rest
      else (if run = [] then [] else [upper run]) ++ scriptWordsFrom [] rest
  | run, .comment _ :: rest | run, .quoted _ :: rest | run, .semicolon :: rest =>
      (if run = [] then [] else [upper run]) ++ scriptWordsFrom [] rest

def scriptWords (chunks : List SqlChunk) : List Utf16 := scriptWordsFrom [] chunks

/-- No semicolon in a trigger's body comes after an END that no CASE takes, a statement that's ended by a semicolon and has
words like a trigger's has such an END, and no statement ends in white space that isn't SQLite's. -/
structure SqlStatement.Splits (statement : SqlStatement) : Prop where
  inner : ∀ before after : List SqlChunk, statement.chunks = before ++ .semicolon :: after →
    closesTriggerBody 0 (scriptWords before) = false
  closing : statement.ended = true → isTrigger (scriptWords statement.chunks) = true →
    closesTriggerBody 0 (scriptWords statement.chunks) = true
  spaces : ∀ unit ∈ statement.text.getLast?, Utf16.isSpace unit = false

end SqlScript

end Kiln.Relay
