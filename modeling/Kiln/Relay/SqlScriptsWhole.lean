import Kiln.Relay.SqlScriptsSplit

/-!
# Scripts that may write run as a whole

A statement that commits or ends a transaction is found however it's commented, so that none is run inside the
transaction around a script. With a script split into its statements, all of them take effect or none does.
-/

namespace Kiln.Relay
open Kiln.Lib Utf16 List

namespace SqlScript

/-! ## Transaction control is found -/

variable {keyword : String}

theorem isLetter_of_keyword (among : keyword ∈ ["BEGIN", "COMMIT", "END", "ROLLBACK"]) :
    ofString keyword ≠ [] ∧ ∀ unit ∈ ofString keyword, 0x41 ≤ unit.toNat ∧ unit.toNat ≤ 0x5A := by
  simp only [mem_cons, not_mem_nil, or_false] at among
  rcases among with rfl | rfl | rfl | rfl
  all_goals refine ⟨by decide, fun unit member => ?_⟩
  all_goals
    simp only [show ofString "BEGIN" = [0x42, 0x45, 0x47, 0x49, 0x4E] from rfl,
      show ofString "COMMIT" = [0x43, 0x4F, 0x4D, 0x4D, 0x49, 0x54] from rfl,
      show ofString "END" = [0x45, 0x4E, 0x44] from rfl,
      show ofString "ROLLBACK" = [0x52, 0x4F, 0x4C, 0x4C, 0x42, 0x41, 0x43, 0x4B] from rfl, mem_cons,
      not_mem_nil, or_false] at member
  · rcases member with rfl | rfl | rfl | rfl | rfl <;> decide
  · rcases member with rfl | rfl | rfl | rfl | rfl | rfl <;> decide
  · rcases member with rfl | rfl | rfl <;> decide
  · rcases member with rfl | rfl | rfl | rfl | rfl | rfl | rfl | rfl <;> decide

variable {unit : UInt16}

theorem isIdUnit_of_isRegexWord (is : isRegexWord unit = true) : isIdUnit unit = true := by
  simp only [isRegexWord, Bool.or_eq_true, Bool.and_eq_true, decide_eq_true_eq] at is
  rcases is with (⟨word, -⟩ | rfl) | rfl
  · rw [isIdUnit, word, Bool.true_or]
  · decide
  · decide

variable {rest : Utf16}

/-- A word is found where it's written, in whatever case, and not gone on with. -/
theorem startsWithWord_append {letters word : Utf16} (same : upper word = letters)
    (ends : ∀ unit ∈ rest.head?, isIdUnit unit = false) : startsWithWord letters (word ++ rest) = true := by
  induction word generalizing letters with
  | nil =>
    obtain rfl : letters = [] := same.symm
    cases rest with
    | nil => rfl
    | cons unit rest =>
      have plain : isRegexWord unit = false := by
        rw [Bool.eq_false_iff]
        intro is
        have other := ends unit rfl
        rw [isIdUnit_of_isRegexWord is] at other
        cases other
      rw [nil_append, startsWithWord, List.head?_cons, Option.all_some, plain]
      rfl
  | cons unit word ih =>
    cases letters with
    | nil => cases same
    | cons letter letters =>
      obtain ⟨first, rest_⟩ := List.cons.inj same
      rw [cons_append, startsWithWord, ih rest_, decide_eq_true first]
      rfl

theorem startsWithWord_concat {letters text : Utf16} (space : isSqlSpace unit = true)
    (capital : ∀ letter ∈ letters, 0x41 ≤ letter.toNat ∧ letter.toNat ≤ 0x5A)
    (found : startsWithWord letters (text ++ [unit]) = true) : startsWithWord letters text = true := by
  induction letters generalizing text with
  | nil =>
    cases text with
    | nil => rfl
    | cons first text => exact found
  | cons letter letters ih =>
    cases text with
    | nil =>
      have range := capital letter mem_cons_self
      simp only [isSqlSpace, Bool.or_eq_true, decide_eq_true_eq] at space
      rw [nil_append, startsWithWord, Bool.and_eq_true, Bool.or_eq_true, decide_eq_true_eq, Bool.and_eq_true,
        decide_eq_true_eq] at found
      exfalso
      rcases found.1 with same | ⟨-, other⟩
      · rw [← same] at range
        rcases space with (((rfl | rfl) | rfl) | rfl) | rfl <;> exact absurd range (by decide)
      · rw [of_decide_eq_true other] at space
        exact absurd space (by decide)
    | cons first text =>
      rw [cons_append, startsWithWord, Bool.and_eq_true] at found
      rw [startsWithWord, Bool.and_eq_true]
      exact ⟨found.1, ih (fun letter member => capital letter (mem_cons_of_mem _ member)) found.2⟩

theorem startsWithControl_concat {text : Utf16} (space : isSqlSpace unit = true)
    (found : startsWithControl (text ++ [unit]) = true) : startsWithControl text = true := by
  obtain ⟨keyword, among, is⟩ := any_eq_true.mp found
  exact any_eq_true.mpr ⟨keyword, among, startsWithWord_concat space (isLetter_of_keyword among).2 is⟩

/-- What starts a comment, and matches behind it. -/
def opensComment : Utf16 → Bool
  | first :: next :: rest =>
      (first = 0x2D && next = 0x2D && controlFrom .line rest) || (first = 0x2F && next = 0x2A && controlFrom .block rest)
  | _ => false

theorem controlFrom_between_cons (unit : UInt16) (rest : Utf16) : controlFrom .between (unit :: rest) =
    (startsWithControl (unit :: rest) || (isSpace unit && controlFrom .between rest) || opensComment (unit :: rest)) := by
  cases rest <;> rw [controlFrom.eq_def] <;> rfl

theorem controlFrom_line_cons (unit : UInt16) (rest : Utf16) : controlFrom .line (unit :: rest) =
    (controlFrom .between (unit :: rest) || (unit ≠ 0x0A && controlFrom .line rest)) := by
  rw [controlFrom.eq_def]

/-- What ends a comment, and matches behind it. -/
def closesComment : Utf16 → Bool
  | first :: next :: rest => first = 0x2A && next = 0x2F && controlFrom .between rest
  | _ => false

theorem controlFrom_block_cons (unit : UInt16) (rest : Utf16) : controlFrom .block (unit :: rest) =
    (closesComment (unit :: rest) || controlFrom .block rest) := by
  cases rest <;> rw [controlFrom.eq_def] <;> rfl

/-- White space at the end isn't needed to match. -/
theorem controlFrom_concat {mode : SkipMode} {text : Utf16} (space : isSqlSpace unit = true)
    (found : controlFrom mode (text ++ [unit]) = true) : controlFrom mode text = true := by
  have alone : ∀ mode, controlFrom mode [unit] = false := by
    intro mode
    simp only [isSqlSpace, Bool.or_eq_true, decide_eq_true_eq] at space
    cases mode <;> rcases space with (((rfl | rfl) | rfl) | rfl) | rfl <;>
      simp [controlFrom, startsWithControl] <;> decide
  induction mode, text using controlFrom.induct with
  | case1 => exact absurd found (by rw [nil_append, alone]; exact Bool.false_ne_true)
  | case3 => exact absurd found (by rw [nil_append, alone]; exact Bool.false_ne_true)
  | case5 => exact absurd found (by rw [nil_append, alone]; exact Bool.false_ne_true)
  | case2 first rest between inside =>
    rw [cons_append, controlFrom_between_cons, Bool.or_eq_true, Bool.or_eq_true, Bool.and_eq_true] at found
    rw [controlFrom_between_cons, Bool.or_eq_true, Bool.or_eq_true, Bool.and_eq_true]
    rcases found with (starts | ⟨skipped, goes⟩) | comment
    · exact .inl (.inl (startsWithControl_concat space starts))
    · exact .inl (.inr ⟨skipped, between goes⟩)
    cases rest with
    | nil =>
      simp only [nil_append, opensComment, Bool.or_eq_true, Bool.and_eq_true] at comment
      rcases comment with ⟨-, goes⟩ | ⟨-, goes⟩
      · exact absurd goes (by rw [controlFrom]; exact Bool.false_ne_true)
      · exact absurd goes (by rw [controlFrom]; exact Bool.false_ne_true)
    | cons next rest =>
      simp only [cons_append, opensComment, Bool.or_eq_true, Bool.and_eq_true] at comment
      simp only [opensComment, Bool.or_eq_true, Bool.and_eq_true]
      rcases comment with ⟨dashes, goes⟩ | ⟨opens, goes⟩
      · exact .inr (.inl ⟨dashes, inside.1 goes⟩)
      · exact .inr (.inr ⟨opens, inside.2 goes⟩)
  | case4 first rest between line =>
    rw [cons_append, controlFrom_line_cons, Bool.or_eq_true, Bool.and_eq_true] at found
    rw [controlFrom_line_cons, Bool.or_eq_true, Bool.and_eq_true]
    rcases found with ends | ⟨plain, goes⟩
    · exact .inl (between ends)
    · exact .inr ⟨plain, line goes⟩
  | case6 first rest ends block =>
    rw [cons_append, controlFrom_block_cons, Bool.or_eq_true] at found
    rw [controlFrom_block_cons, Bool.or_eq_true]
    rcases found with closed | goes
    · cases rest with
      | nil =>
        simp only [nil_append, closesComment, Bool.and_eq_true] at closed
        exact absurd closed.2 (by rw [controlFrom]; exact Bool.false_ne_true)
      | cons next rest =>
        simp only [cons_append, closesComment, Bool.and_eq_true] at closed
        simp only [closesComment, Bool.and_eq_true]
        exact .inl ⟨closed.1, ends closed.2⟩
    · exact .inr (block goes)

theorem controlFrom_rdropWhile {text : Utf16} (found : controlFrom .between text = true) :
    controlFrom .between (text.rdropWhile isSqlSpace) = true := by
  induction text using reverseRecOn with
  | nil => exact found
  | append_singleton text unit ih =>
    by_cases space : isSqlSpace unit = true
    · rw [rdropWhile_concat_pos _ _ _ space]
      exact ih (controlFrom_concat space found)
    · rw [rdropWhile_concat_neg _ _ _ space]
      exact found

/-- White space in front is skipped only as such. -/
theorem controlFrom_dropWhile {text : Utf16} (found : controlFrom .between text = true) :
    controlFrom .between (text.dropWhile isBlankUnit) = true := by
  induction text with
  | nil => exact found
  | cons unit text ih =>
    by_cases blank : isBlankUnit unit = true
    · rw [dropWhile_cons_of_pos blank]
      refine ih ?_
      have word : startsWithControl (unit :: text) = false := by
        simp only [isBlankUnit, isSqlSpace, Bool.or_eq_true, decide_eq_true_eq] at blank
        rcases blank with ((((rfl | rfl) | rfl) | rfl) | rfl) | rfl <;> rfl
      have comment : unit ≠ 0x2D ∧ unit ≠ 0x2F := by
        simp only [isBlankUnit, isSqlSpace, Bool.or_eq_true, decide_eq_true_eq] at blank
        rcases blank with ((((rfl | rfl) | rfl) | rfl) | rfl) | rfl <;> decide
      rw [controlFrom_between_cons, word, Bool.false_or, Bool.or_eq_true, Bool.and_eq_true] at found
      rcases found with ⟨-, goes⟩ | opens
      · exact goes
      · cases text with
        | nil => cases opens
        | cons next text => simp [opensComment, comment.1, comment.2] at opens
    · rw [dropWhile_cons_of_neg blank]
      exact found

theorem controlFrom_line {body : Utf16} (inside : 0x0A ∉ body) (found : controlFrom .between rest = true) :
    controlFrom .line (body ++ 0x0A :: rest) = true := by
  induction body with
  | nil =>
    have skipped : controlFrom .between (0x0A :: rest) = true := by
      rw [controlFrom_between_cons, found, show isSpace 0x0A = true from rfl, Bool.true_and, Bool.or_true, Bool.true_or]
    rw [nil_append, controlFrom_line_cons, skipped, Bool.true_or]
  | cons unit body ih =>
    rw [mem_cons, not_or] at inside
    rw [cons_append, controlFrom_line_cons, ih inside.2, decide_eq_true (Ne.symm inside.1), Bool.true_and, Bool.or_true]

theorem controlFrom_block {body rest : Utf16} (found : controlFrom .between rest = true) :
    controlFrom .block (body ++ 0x2A :: 0x2F :: rest) = true := by
  induction body with
  | nil =>
    rw [nil_append, controlFrom_block_cons]
    simp only [closesComment, found, decide_true, Bool.and_self, Bool.true_or]
  | cons unit body ih => rw [cons_append, controlFrom_block_cons, ih, Bool.or_true]

/-- A comment with its end. -/
inductive Closed : Utf16 → Prop
  | line {body : Utf16} (inside : 0x0A ∉ body) : Closed (0x2D :: 0x2D :: (body ++ [0x0A]))
  | block (body : Utf16) : Closed (0x2F :: 0x2A :: (body ++ [0x2A, 0x2F]))

theorem Closed.controlFrom {comment : Utf16} (closed : Closed comment) (found : controlFrom .between rest = true) :
    controlFrom .between (comment ++ rest) = true := by
  cases closed with
  | @line body inside =>
    have goes := controlFrom_line inside found
    rw [cons_append, cons_append, append_assoc, controlFrom_between_cons]
    simp only [opensComment, singleton_append, goes, decide_true, Bool.and_self, Bool.true_or, Bool.or_true]
  | block body =>
    have goes := @controlFrom_block body rest found
    rw [cons_append, cons_append, append_assoc, controlFrom_between_cons]
    simp only [opensComment, cons_append, nil_append, goes, decide_true, Bool.and_self, Bool.or_true]

/-- Only the last chunk may be a comment without its end. -/
def CommentsClosed (chunks : List SqlChunk) : Prop :=
  ∀ (before after : List SqlChunk) (text : Utf16), chunks = before ++ .comment text :: after → Closed text ∨ after = []

theorem commentsClosed_nil : CommentsClosed [] := by
  intro before after text same
  cases before <;> cases same

variable {chunks : List SqlChunk} {chunk : SqlChunk}

theorem commentsClosed_cons (first : ∀ text, chunk = .comment text → Closed text ∨ chunks = [])
    (rest : CommentsClosed chunks) :
    CommentsClosed (chunk :: chunks) := by
  intro before after text same
  cases before with
  | nil =>
    obtain ⟨is, rfl⟩ := List.cons.inj same
    exact first text is
  | cons _ before => exact rest before after text (List.cons.inj same).2

theorem CommentsClosed.tail (closed : CommentsClosed (chunk :: chunks)) :
    CommentsClosed chunks := by
  intro before after text same
  exact closed (chunk :: before) after text (by rw [same]; rfl)

variable {script : Utf16}

theorem Reads.commentsClosed (reads : Reads script chunks) :
    CommentsClosed chunks := by
  induction reads with
  | nil => exact commentsClosed_nil
  | line inside _ ih => exact commentsClosed_cons (fun text same => .inl (SqlChunk.comment.inj same ▸ .line inside)) ih
  | lastLine _ => exact commentsClosed_cons (fun _ _ => .inr rfl) commentsClosed_nil
  | block _ _ ih => exact commentsClosed_cons (fun text same => .inl (SqlChunk.comment.inj same ▸ .block _)) ih
  | lastBlock _ _ => exact commentsClosed_cons (fun _ _ => .inr rfl) commentsClosed_nil
  | quoted _ _ _ _ ih => exact commentsClosed_cons nofun ih
  | bracket _ _ ih => exact commentsClosed_cons nofun ih
  | semicolon _ ih => exact commentsClosed_cons nofun ih
  | unit _ _ _ _ ih => exact commentsClosed_cons nofun ih

/-- A chunk that doesn't go on with a word doesn't start like one. -/
theorem SqlChunk.WellFormed.head (formed : chunk.WellFormed)
    (other : ∀ unit, chunk = .unit unit → isIdUnit unit = false) (rest : Utf16) :
    ∀ unit ∈ (chunk.text ++ rest).head?, isIdUnit unit = false := by
  intro unit first
  cases chunk with
  | comment text =>
    cases text with
    | nil => rcases formed with none_ | none_ <;> cases none_
    | cons start text =>
      cases first
      rcases formed with same | same
      · cases same
        rfl
      · cases same
        rfl
  | quoted text =>
    obtain ⟨start, head, is⟩ := formed
    cases text with
    | nil => cases head
    | cons start' text =>
      cases first
      cases head
      simp only [isQuote, Bool.or_eq_true, decide_eq_true_eq] at is
      rcases is with ((rfl | rfl) | rfl) | rfl <;> rfl
  | unit u =>
    obtain rfl : u = unit := Option.some.inj first
    exact other u rfl
  | semicolon =>
    cases first
    rfl

/-- A keyword's run is found by its letters. -/
theorem startsWithWord_run {run : Utf16} (some_ : run ≠ []) (formed : ∀ chunk ∈ chunks, chunk.WellFormed)
    {token : SqlToken} {tokens : List SqlToken} {name : Utf16}
    (are : sqlTokensFrom run chunks = token :: tokens) (is : token.keyword = some name) :
    startsWithWord name (run ++ chunksText chunks) = true := by
  -- Where the run ends, the token is the run.
  have ended : ∀ {run rest : Utf16} {more : List SqlToken}, run ≠ [] → wordToken run ++ more = token :: tokens →
      (∀ unit ∈ rest.head?, isIdUnit unit = false) → startsWithWord name (run ++ rest) = true := by
    intro run rest more some_ same ends
    rw [wordToken, if_neg some_] at same
    obtain ⟨text, word, -, -, named⟩ := keyword_eq_some is
    have first : SqlToken.word run = token := (List.cons.inj same).1
    rw [word] at first
    cases first
    exact startsWithWord_append named ends
  induction chunks generalizing run with
  | nil =>
    rw [sqlTokensFrom, ← append_nil (wordToken run)] at are
    exact ended some_ are (by rintro _ ⟨⟩)
  | cons chunk chunks ih =>
    have formed' : ∀ chunk ∈ chunks, chunk.WellFormed := fun chunk member => formed chunk (mem_cons_of_mem _ member)
    by_cases more : ∃ unit, chunk = .unit unit ∧ isIdUnit unit = true
    · obtain ⟨unit, rfl, id⟩ := more
      rw [sqlTokensFrom, if_pos ⟨id, .inl some_⟩] at are
      rw [show run ++ chunksText (.unit unit :: chunks) = (run ++ [unit]) ++ chunksText chunks by
        rw [append_assoc]; rfl]
      exact ih (by simp) formed' are
    · have other : ∀ unit, chunk = .unit unit → isIdUnit unit = false := by
        intro unit same
        rw [Bool.eq_false_iff]
        exact fun id => more ⟨unit, same, id⟩
      rw [sqlTokensFrom_stop (fun unit same both => by rw [other unit same] at both; exact absurd both.1 Bool.false_ne_true)]
        at are
      exact ended some_ are ((formed chunk mem_cons_self).head other _)

/-- Whatever comments and white space are in front, a control keyword is found. -/
theorem controlFrom_keyword (one : NoSemicolon chunks) (formed : ∀ chunk ∈ chunks, chunk.WellFormed)
    (closed : CommentsClosed chunks) (among : keyword ∈ ["BEGIN", "COMMIT", "END", "ROLLBACK"])
    (is : isKeyword (sqlTokens chunks)[0]? keyword) : controlFrom .between (chunksText chunks) = true := by
  induction chunks with
  | nil => cases is
  | cons chunk chunks ih =>
    have one' : NoSemicolon chunks := fun chunk member => one chunk (mem_cons_of_mem _ member)
    have formed' : ∀ chunk ∈ chunks, chunk.WellFormed := fun chunk member => formed chunk (mem_cons_of_mem _ member)
    have later := ih one' formed' closed.tail
    cases chunk with
    | comment text =>
      rw [sqlTokens, sqlTokensFrom] at is
      rcases closed [] chunks text rfl with ended | rfl
      · exact ended.controlFrom (later is)
      · cases is
    | quoted text => cases is
    | semicolon => exact absurd rfl (one _ mem_cons_self)
    | unit unit =>
      rw [show chunksText (.unit unit :: chunks) = unit :: chunksText chunks from rfl, controlFrom_between_cons]
      rw [sqlTokens, sqlTokensFrom] at is
      by_cases id : isIdUnit unit = true ∧ (([] : Utf16) ≠ [] ∨ unit ≠ 0xFEFF)
      · rw [if_pos id] at is
        obtain ⟨token, first, named⟩ := Option.bind_eq_some_iff.mp is
        obtain ⟨tokens, are⟩ : ∃ tokens, sqlTokensFrom ([] ++ [unit]) chunks = token :: tokens := by
          cases are : sqlTokensFrom ([] ++ [unit]) chunks with
          | nil => rw [are] at first; cases first
          | cons token' tokens => rw [are] at first; exact ⟨tokens, by rw [Option.some.inj first]⟩
        have found := startsWithWord_run (by simp) formed' are named
        have control : startsWithControl (unit :: chunksText chunks) = true := any_eq_true.mpr ⟨keyword, among, found⟩
        rw [control, Bool.true_or, Bool.true_or]
      · rw [if_neg id] at is
        by_cases blank : isBlankUnit unit = true
        · rw [if_pos blank, wordToken, if_pos rfl, nil_append] at is
          rw [isSpace_of_sqlSpace blank, later is, Bool.true_and, Bool.or_true, Bool.true_or]
        rw [if_neg blank] at is
        by_cases mark : isVariableMark unit = true
        · exfalso
          rw [if_pos mark, wordToken, if_pos rfl, nil_append] at is
          obtain ⟨more, tokens, are⟩ := sqlTokensFrom_run (cons_ne_nil unit []) chunks
          rw [are] at is
          obtain ⟨token, first, named⟩ := Option.bind_eq_some_iff.mp is
          cases first
          obtain ⟨text, word, -, letters, -⟩ := keyword_eq_some named
          rw [← SqlToken.word.inj word] at letters
          have letter := all_eq_true.mp letters unit mem_cons_self
          exact not_isWordUnit_of_blank (.inr mark) (isWordUnit_of_isLetter letter)
        · rw [if_neg mark] at is
          cases is

/-! ## Statements of a script -/

theorem Reads.text (reads : Reads script chunks) : chunksText chunks = script := by
  have cons : ∀ (chunk : SqlChunk) (chunks : List SqlChunk), chunksText (chunk :: chunks) = chunk.text ++ chunksText chunks :=
    fun _ _ => rfl
  induction reads with
  | nil => rfl
  | line _ _ ih => rw [cons, ih]; simp [SqlChunk.text]
  | lastLine _ => rw [cons]; simp [SqlChunk.text, chunksText]
  | block _ _ ih => rw [cons, ih]; simp [SqlChunk.text]
  | lastBlock _ _ => rw [cons]; simp [SqlChunk.text, chunksText]
  | quoted _ _ _ _ ih => rw [cons, ih]; simp [SqlChunk.text]
  | bracket _ _ ih => rw [cons, ih]; simp [SqlChunk.text]
  | semicolon _ ih => rw [cons, ih]; rfl
  | unit _ _ _ _ ih => rw [cons, ih]; rfl

/-- What's in front of a semicolon is read as it is within the script, and so is what's behind it. -/
theorem Reads.split {before after : List SqlChunk} (reads : Reads script chunks)
    (same : chunks = before ++ .semicolon :: after) :
    Reads (chunksText before) before ∧ Reads (chunksText after) after := by
  have step : ∀ {chunk : SqlChunk} {chunks before : List SqlChunk}, chunk :: chunks = before ++ .semicolon :: after →
      before = [] ∧ chunk = .semicolon ∧ chunks = after ∨
        ∃ before', before = chunk :: before' ∧ chunks = before' ++ .semicolon :: after := by
    intro chunk chunks before same
    cases before with
    | nil => exact .inl ⟨rfl, (List.cons.inj same).1, (List.cons.inj same).2⟩
    | cons first before =>
      obtain ⟨rfl, rest⟩ := List.cons.inj same
      exact .inr ⟨before, rfl, rest⟩
  -- The script goes on with the text in front of the semicolon.
  have head : ∀ {rest : Utf16} {chunks before : List SqlChunk} {unit : UInt16}, Reads rest chunks →
      chunks = before ++ .semicolon :: after → (chunksText before).head? = some unit → rest.head? = some unit := by
    intro rest chunks before unit reads same first
    rw [← reads.text, same, chunksText_append]
    cases before' : chunksText before with
    | nil => rw [before'] at first; cases first
    | cons start text => rw [before'] at first; exact first
  induction reads generalizing before with
  | nil => exact absurd same (by simp)
  | @line body rest chunks inside reads ih =>
    obtain ⟨-, none_, -⟩ | ⟨before, rfl, rest_⟩ := step same
    · cases none_
    · have read := Reads.line inside (ih rest_).1
      refine ⟨?_, (ih rest_).2⟩
      rw [show chunksText (.comment (0x2D :: 0x2D :: (body ++ [0x0A])) :: before) =
        0x2D :: 0x2D :: (body ++ 0x0A :: chunksText before) by simp [chunksText, SqlChunk.text]]
      exact read
  | lastLine _ =>
    obtain ⟨-, none_, -⟩ | ⟨before, -, none_⟩ := step same
    · cases none_
    · exact absurd none_ (by simp)
  | @block body rest chunks inside reads ih =>
    obtain ⟨-, none_, -⟩ | ⟨before, rfl, rest_⟩ := step same
    · cases none_
    · have read := Reads.block inside (ih rest_).1
      refine ⟨?_, (ih rest_).2⟩
      rw [show chunksText (.comment (0x2F :: 0x2A :: (body ++ [0x2A, 0x2F])) :: before) =
        0x2F :: 0x2A :: (body ++ 0x2A :: 0x2F :: chunksText before) by simp [chunksText, SqlChunk.text]]
      exact read
  | lastBlock _ _ =>
    obtain ⟨-, none_, -⟩ | ⟨before, -, none_⟩ := step same
    · cases none_
    · exact absurd none_ (by simp)
  | @quoted quote body rest chunks is inside ends reads ih =>
    obtain ⟨-, none_, -⟩ | ⟨before, rfl, rest_⟩ := step same
    · cases none_
    · have read := Reads.quoted is inside (fun first => ends (head reads rest_ first)) (ih rest_).1
      refine ⟨?_, (ih rest_).2⟩
      rw [show chunksText (.quoted (quote :: (body ++ [quote])) :: before) = quote :: (body ++ quote :: chunksText before) by
        simp [chunksText, SqlChunk.text]]
      exact read
  | @bracket body rest chunks inside reads ih =>
    obtain ⟨-, none_, -⟩ | ⟨before, rfl, rest_⟩ := step same
    · cases none_
    · have read := Reads.bracket inside (ih rest_).1
      refine ⟨?_, (ih rest_).2⟩
      rw [show chunksText (.quoted (0x5B :: (body ++ [0x5D])) :: before) = 0x5B :: (body ++ 0x5D :: chunksText before) by
        simp [chunksText, SqlChunk.text]]
      exact read
  | semicolon reads ih =>
    obtain ⟨rfl, -, rfl⟩ | ⟨before, rfl, rest_⟩ := step same
    · exact ⟨.nil, reads.text ▸ reads⟩
    · exact ⟨.semicolon (ih rest_).1, (ih rest_).2⟩
  | unit plain line block reads ih =>
    obtain ⟨-, none_, -⟩ | ⟨before, rfl, rest_⟩ := step same
    · cases none_
    · exact ⟨.unit plain (fun both => line ⟨both.1, head reads rest_ both.2⟩)
        (fun both => block ⟨both.1, head reads rest_ both.2⟩) (ih rest_).1, (ih rest_).2⟩

/-- Each of a script's statements is one, and is read as it is within the script. -/
theorem Statements.each {statements : List SqlStatement} (are : Statements chunks statements)
    (reads : Reads (chunksText chunks) chunks) :
    ∀ statement ∈ statements, IsStatement statement.chunks ∧ Reads (chunksText statement.chunks) statement.chunks := by
  induction are with
  | end_ _ _ => exact fun _ none_ => absurd none_ not_mem_nil
  | blank _ _ _ ih => exact ih (reads.split rfl).2
  | last is => exact forall_mem_singleton.mpr ⟨is, reads⟩
  | next is _ ih => exact forall_mem_cons.mpr ⟨⟨is, (reads.split rfl).1⟩, ih (reads.split rfl).2⟩

/-- What begins with a control keyword isn't a trigger. -/
theorem IsStatement.noSemicolon (is : IsStatement chunks) (among : keyword ∈ ["BEGIN", "COMMIT", "END", "ROLLBACK"])
    (first : isKeyword (sqlTokens chunks)[0]? keyword) :
    NoSemicolon chunks := by
  cases is with
  | plain one starts => exact one
  | @trigger header rest one starts body =>
    exfalso
    obtain ⟨more, rfl⟩ := body.semicolon
    have create := starts.1
    rw [sqlTokens, sqlTokensFrom_append] at first
    rw [sqlTokens] at create
    cases tokens : sqlTokensFrom [] header with
    | nil =>
      rw [tokens] at create
      cases create
    | cons token tokens' =>
      rw [tokens] at first create
      have same : some (ofString "CREATE") = some (.ofString keyword) := create.symm.trans first
      simp only [mem_cons, not_mem_nil, or_false] at among
      rcases among with rfl | rfl | rfl | rfl <;> exact absurd same (by decide)

/-- A statement that commits or ends a transaction is refused. -/
theorem transactionControl_of_controls {statement : SqlStatement} (is : IsStatement statement.chunks)
    (reads : Reads (chunksText statement.chunks) statement.chunks) (controls : statement.Controls) :
    transactionControl statement.text = true := by
  obtain ⟨keyword, among, first⟩ := controls
  have found := controlFrom_keyword (is.noSemicolon among first) reads.wellFormed reads.commentsClosed among first
  exact controlFrom_rdropWhile (controlFrom_dropWhile found)

/-! ## All or nothing -/

/-- `sqliteQuery` goes on to run a script. -/
def Accepts (script : Utf16) : Prop :=
  splitSqlStatements script ≠ [] ∧ ∀ sql ∈ splitSqlStatements script, transactionControl sql = false

variable {σ : Type}

/-- What SQLite's documented to do. A statement that isn't one of control leaves a transaction open unless it fails. -/
structure Driver.Lawful (driver : Driver σ) : Prop where
  begins : ∀ committed, (driver.beginImmediate ⟨committed, none⟩).2.committed = committed ∧
    ((driver.beginImmediate ⟨committed, none⟩).1 = .ok () →
      (driver.beginImmediate ⟨committed, none⟩).2.working = some committed)
  runs : ∀ statement : SqlStatement, IsStatement statement.chunks →
    Reads (chunksText statement.chunks) statement.chunks → ¬ statement.Controls → ∀ committed working,
    (driver.run statement.text ⟨committed, some working⟩).2.committed = committed ∧
      ((driver.run statement.text ⟨committed, some working⟩).1 = .ok () →
        (driver.run statement.text ⟨committed, some working⟩).2.working.isSome = true)
  commits : ∀ committed working, (driver.commit ⟨committed, some working⟩).2.committed =
    match (driver.commit ⟨committed, some working⟩).1 with
    | .ok _ => working
    | .error _ => committed
  rollbacks : ∀ committed working, (driver.rollback ⟨committed, some working⟩).2.committed = committed

/-- A script's run commits what all of its statements come to, in turn, or leaves what was committed. -/
def RunsWhole (driver : Driver σ) (claimCommit : Except String Unit) (script : Utf16) (statements : List SqlStatement)
    (committed : σ) : Prop :=
  match sqliteQuery driver claimCommit script true ⟨committed, none⟩ with
  | (.ok _, after) => ∃ working, runStatements driver (statements.map (·.text)) ⟨committed, some committed⟩ =
      (.ok (), ⟨committed, some working⟩) ∧ after.committed = working
  | (.error _, after) => after.committed = committed

section Run

variable {driver : Driver σ} (lawful : driver.Lawful)
include lawful

/-- Statements that aren't of control change nothing that's committed. -/
theorem runStatements_keeps {statements : List SqlStatement}
    (are : ∀ statement ∈ statements, (IsStatement statement.chunks ∧ Reads (chunksText statement.chunks) statement.chunks) ∧
      ¬ statement.Controls) (committed working : σ) :
    (runStatements driver (statements.map (·.text)) ⟨committed, some working⟩).2.committed = committed ∧
      ((runStatements driver (statements.map (·.text)) ⟨committed, some working⟩).1 = .ok () →
        (runStatements driver (statements.map (·.text)) ⟨committed, some working⟩).2.working.isSome = true) := by
  induction statements generalizing working with
  | nil => exact ⟨rfl, fun _ => rfl⟩
  | cons statement statements ih =>
    obtain ⟨⟨is, reads⟩, plain⟩ := are statement mem_cons_self
    have one := lawful.runs statement is reads plain committed working
    have more := ih (fun statement member => are statement (mem_cons_of_mem _ member))
    rw [map_cons, runStatements]
    rcases result : driver.run statement.text ⟨committed, some working⟩ with ⟨outcome, ⟨committed', working'⟩⟩
    rw [result] at one
    obtain rfl : committed' = committed := one.1
    cases outcome with
    | error message => exact ⟨rfl, nofun⟩
    | ok _ =>
      obtain ⟨working'', rfl⟩ := Option.isSome_iff_exists.mp (one.2 rfl)
      exact more working''

/-- A transaction around statements that keep what's committed commits what they come to, or nothing. -/
theorem inTransaction_whole {run : Connection σ → Outcome σ} {committed : σ}
    (keeps : (run ⟨committed, some committed⟩).2.committed = committed ∧
      ((run ⟨committed, some committed⟩).1 = .ok () → (run ⟨committed, some committed⟩).2.working.isSome = true))
    (claimCommit : Except String Unit) :
    match inTransaction driver claimCommit run ⟨committed, none⟩ with
    | (.ok _, after) => ∃ working, run ⟨committed, some committed⟩ = (.ok (), ⟨committed, some working⟩) ∧
        after.committed = working
    | (.error _, after) => after.committed = committed := by
  -- What fails is rolled back, if it hasn't been.
  have failed : ∀ (message : String) (left : Connection σ),
      (if left.working.isSome then ((.error message, (driver.rollback left).2) : Outcome σ)
        else (.error message, left)).2.committed = left.committed := by
    rintro message ⟨kept, working⟩
    cases working with
    | none => rfl
    | some working => exact lawful.rollbacks kept working
  have begins := lawful.begins committed
  rw [inTransaction]
  rcases started : driver.beginImmediate ⟨committed, none⟩ with ⟨outcome, ⟨committed', opened⟩⟩
  rw [started] at begins
  obtain rfl : committed' = committed := begins.1
  cases outcome with
  | error message => rfl
  | ok _ =>
    obtain rfl : opened = some committed' := begins.2 rfl
    rcases ran : run ⟨committed', some committed'⟩ with ⟨outcome, ⟨kept, working⟩⟩
    rw [ran] at keeps
    obtain rfl : kept = committed' := keeps.1
    cases outcome with
    | error message =>
      have kept_ := failed message ⟨kept, working⟩
      simp only [ran]
      cases working <;> exact kept_
    | ok _ =>
      obtain ⟨working, rfl⟩ := Option.isSome_iff_exists.mp (keeps.2 rfl)
      cases claimCommit with
      | error message =>
        simp only [ran]
        exact failed message ⟨kept, some working⟩
      | ok _ =>
        have commits := lawful.commits kept working
        rcases ended : driver.commit ⟨kept, some working⟩ with ⟨outcome, ⟨after, left⟩⟩
        rw [ended] at commits
        cases outcome with
        | ok _ =>
          simp only [ran, ended]
          exact ⟨working, rfl, commits⟩
        | error message =>
          obtain rfl : after = kept := commits
          have kept_ := failed message ⟨after, left⟩
          simp only [ran, ended]
          cases left <;> exact kept_

end Run

/-- A script's statements are found, and it runs as a whole, if and only if each is split as SQLite reads it. -/
theorem splitSqlStatements_iff {script : Utf16} {chunks : List SqlChunk} {statements : List SqlStatement}
    (reads : Reads script chunks) (are : Statements chunks statements) :
    (splitSqlStatements script = statements.map (·.text) ∧ (Accepts script →
      (∀ statement ∈ statements, ¬ statement.Controls) ∧ ∀ (σ : Type) (driver : Driver σ), driver.Lawful →
        ∀ claimCommit committed, RunsWhole driver claimCommit script statements committed)) ↔
    ∀ statement ∈ statements, statement.Splits := by
  have found : splitSqlStatements script = statements.map (·.text) ↔ ∀ statement ∈ statements, statement.Splits := by
    rw [splitSqlStatements, splitFrom_chunks reads]
    exact splitChunks_iff are reads.wellFormed
  have each := are.each (reads.text.symm ▸ reads)
  refine ⟨fun both => found.mp both.1, fun splits => ⟨found.mpr splits, fun accepts => ?_⟩⟩
  have same := found.mpr splits
  have plain : ∀ statement ∈ statements, ¬ statement.Controls := by
    intro statement member controls
    have text : statement.text ∈ splitSqlStatements script := by
      rw [same]
      exact mem_map_of_mem member
    have refused := transactionControl_of_controls (each statement member).1 (each statement member).2 controls
    rw [accepts.2 _ text] at refused
    cases refused
  refine ⟨plain, fun σ driver lawful claimCommit committed => ?_⟩
  have keeps := runStatements_keeps lawful (fun statement member => ⟨each statement member, plain statement member⟩)
    committed committed
  have whole := inTransaction_whole lawful keeps claimCommit
  have control : (splitSqlStatements script).any transactionControl = false := by
    rw [any_eq_false]
    intro sql member
    rw [accepts.2 sql member]
    exact Bool.false_ne_true
  rw [RunsWhole, sqliteQuery, if_neg accepts.1, control, same]
  rcases ran : inTransaction driver claimCommit (runStatements driver (statements.map (·.text))) ⟨committed, none⟩ with
    ⟨outcome, after⟩
  rw [ran] at whole
  simp only [Bool.false_eq_true, if_false, if_true, ran]
  cases outcome with
  | ok _ => exact whole
  | error message => exact whole

/-! ## A name that's taken for a trigger's -/

theorem Reads.units {text rest : Utf16} {chunks : List SqlChunk}
    (plain : text.all (fun unit => !isQuote unit && unit != 0x5B && unit != 0x3B && unit != 0x2D && unit != 0x2F) = true)
    (reads : Reads rest chunks) : Reads (text ++ rest) (text.map .unit ++ chunks) := by
  induction text with
  | nil => exact reads
  | cons unit text ih =>
    simp only [all_cons, Bool.and_eq_true, Bool.not_eq_true', bne_iff_ne] at plain
    obtain ⟨⟨⟨⟨⟨quote, bracket⟩, semicolon⟩, dash⟩, slash⟩, rest⟩ := plain
    refine .unit ⟨quote, bracket, semicolon⟩ (fun both => dash both.1) (fun both => slash both.1) (ih ?_)
    simpa only [Bool.and_eq_true, Bool.not_eq_true', bne_iff_ne] using rest

theorem noSemicolon_units (text : Utf16) : NoSemicolon (text.map .unit) := by
  intro chunk member
  obtain ⟨unit, -, rfl⟩ := mem_map.mp member
  exact SqlChunk.noConfusion

/-- A driver for which a statement's text is what it does to the database. -/
def effectDriver (effect : Utf16 → σ → Except String σ) : Driver σ where
  beginImmediate connection := (.ok (), { connection with working := some connection.committed })
  commit connection := (.ok (), ⟨connection.working.getD connection.committed, none⟩)
  rollback connection := (.ok (), ⟨connection.committed, none⟩)
  run sql connection :=
    match effect sql (connection.working.getD connection.committed) with
    | .ok working => (.ok (), { connection with working := some working })
    | .error message => (.error message, connection)

theorem effectDriver_lawful (effect : Utf16 → σ → Except String σ) : (effectDriver effect).Lawful where
  begins _ := ⟨rfl, fun _ => rfl⟩
  runs statement _ _ _ committed working := by
    simp only [effectDriver, Option.getD_some]
    cases effect statement.text working with
    | ok _ => exact ⟨rfl, fun _ => rfl⟩
    | error _ => exact ⟨rfl, nofun⟩
  commits _ _ := rfl
  rollbacks _ _ := rfl

/-- A table that's named after a keyword, and a statement behind it. -/
def triggerTable : List SqlStatement :=
  [⟨(ofString "CREATE TABLE trigger(a)").map .unit, true⟩, ⟨(ofString "DELETE FROM b").map .unit, false⟩]

def triggerTableChunks : List SqlChunk :=
  (ofString "CREATE TABLE trigger(a)").map .unit ++ .semicolon :: (ofString "DELETE FROM b").map .unit

theorem triggerTable_reads : Reads (.ofString "CREATE TABLE trigger(a);DELETE FROM b") triggerTableChunks := by
  have last : Reads (.ofString "DELETE FROM b") ((ofString "DELETE FROM b").map .unit) := by
    have read := @Reads.units (.ofString "DELETE FROM b") [] [] (by decide) .nil
    rwa [append_nil, append_nil] at read
  exact @Reads.units (.ofString "CREATE TABLE trigger(a)") _ _ (by decide) (.semicolon last)

theorem triggerTable_statements : Statements triggerTableChunks triggerTable :=
  .next (.plain (noSemicolon_units _) (by decide)) (.last (.plain (noSemicolon_units _) (by decide)))

/-- The two statements are one text, of which the driver prepares the first only. -/
theorem triggerTable_not_split : Reads (.ofString "CREATE TABLE trigger(a);DELETE FROM b") triggerTableChunks ∧
    Statements triggerTableChunks triggerTable ∧
    splitSqlStatements (.ofString "CREATE TABLE trigger(a);DELETE FROM b") ≠ triggerTable.map (·.text) := by
  refine ⟨triggerTable_reads, triggerTable_statements, ?_⟩
  rw [splitSqlStatements, splitFrom_chunks triggerTable_reads]
  decide

theorem splitSqlStatements_iff_at_triggerTable : (∀ effect, (@effectDriver Nat effect).Lawful) ∧
    ((splitSqlStatements (.ofString "CREATE TABLE trigger(a);DELETE FROM b") = triggerTable.map (·.text) ∧
      (Accepts (.ofString "CREATE TABLE trigger(a);DELETE FROM b") →
        (∀ statement ∈ triggerTable, ¬ statement.Controls) ∧ ∀ (σ : Type) (driver : Driver σ), driver.Lawful →
          ∀ claimCommit committed, RunsWhole driver claimCommit (.ofString "CREATE TABLE trigger(a);DELETE FROM b")
            triggerTable committed)) ↔
    ∀ statement ∈ triggerTable, statement.Splits) :=
  ⟨effectDriver_lawful, splitSqlStatements_iff triggerTable_reads triggerTable_statements⟩

end SqlScript

end Kiln.Relay
