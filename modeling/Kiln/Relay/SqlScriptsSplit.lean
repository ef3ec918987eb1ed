import Kiln.Relay.SqlStatements

/-!
# Scripts are split as SQLite reads them

The splitter skips comments, quotes and brackets as SQLite does, and guesses from a statement's words whether a semicolon
ends it. Where the guess is right a script is split into its statements, and elsewhere it isn't. Whatever a script is
split into, the transaction around it is left open by what's run.
-/

namespace Kiln.Relay
open Kiln.Lib Utf16 List

namespace SqlScript

/-! ## Chunks are skipped alike -/

variable {body : Utf16}

theorem splitAfter_one {ending : UInt16} (inside : ending ∉ body) (rest : Utf16) :
    splitAfter [ending] (body ++ ending :: rest) = (body ++ [ending], rest) ∧ splitAfter [ending] body = (body, []) := by
  induction body with
  | nil => simp [splitAfter]
  | cons unit body ih =>
    rw [mem_cons, not_or] at inside
    obtain ⟨found, missing⟩ := ih inside.2
    simp [splitAfter, inside.1, found, missing]

theorem splitAfter_two {first second : UInt16} :
    (¬ [first, second] <:+: body ++ [first] → ∀ rest, splitAfter [first, second] (body ++ first :: second :: rest) =
      (body ++ [first, second], rest)) ∧ (¬ [first, second] <:+: body → splitAfter [first, second] body = (body, [])) := by
  induction body with
  | nil => simp [splitAfter]
  | cons unit body ih =>
    constructor
    · intro inside rest
      have inside' : ¬ [first, second] <:+: body ++ [first] := fun among => inside (among.trans (infix_cons (infix_refl _)))
      have not_here : ¬ [first, second] <+: unit :: (body ++ first :: second :: rest) := by
        intro here
        apply inside
        have shorter : [first, second] <+: unit :: (body ++ [first]) := by
          have whole : unit :: (body ++ [first]) <+: unit :: (body ++ first :: second :: rest) := ⟨second :: rest, by simp⟩
          exact prefix_of_prefix_length_le here whole (by simp)
        exact shorter.isInfix
      rw [cons_append, splitAfter, if_neg (by rw [List.isPrefixOf_iff_prefix]; exact not_here), ih.1 inside' rest]
      rfl
    · intro inside
      have inside' : ¬ [first, second] <:+: body := fun among => inside (among.trans (infix_cons (infix_refl _)))
      have not_here : ¬ [first, second] <+: unit :: body := fun here => inside here.isInfix
      rw [splitAfter, if_neg (by rw [List.isPrefixOf_iff_prefix]; exact not_here), ih.2 inside']

theorem skipQuoted_doubled {quote : UInt16} {rest : Utf16} (inside : Doubled quote body)
    (ends : rest.head? ≠ some quote) : skipQuoted quote (body ++ quote :: rest) = (body ++ [quote], rest) := by
  induction inside with
  | nil =>
    cases rest with
    | nil => rfl
    | cons next rest =>
      have other : next ≠ quote := fun same => ends (by rw [same]; rfl)
      rw [nil_append, skipQuoted, if_pos rfl, if_neg other]
      rfl
  | @unit unit body plain _ ih =>
    obtain ⟨next, more, is⟩ : ∃ next more, body ++ quote :: rest = next :: more := by
      cases body with
      | nil => exact ⟨_, _, rfl⟩
      | cons next body => exact ⟨_, _, rfl⟩
    rw [cons_append, is, skipQuoted, if_neg plain, ← is, ih]
    rfl
  | pair _ ih =>
    rw [cons_append, cons_append, skipQuoted, if_pos rfl, if_pos rfl, ih]
    rfl

/-- The loop over chunks. -/
def splitChunks : List SqlChunk → Scan → List Utf16
  | [], s => s.flushWord.statement
  | .comment text :: rest, s | .quoted text :: rest, s => splitChunks rest (s.flushWord.take text)
  | .semicolon :: rest, s =>
      if splitsAfter s.flushWord.words then s.flushWord.statement ++ splitChunks rest {}
      else splitChunks rest (s.flushWord.take [0x3B])
  | .unit unit :: rest, s =>
      if isWordUnit unit then splitChunks rest { s with word := s.word ++ [unit], piece := s.piece ++ [unit] }
      else splitChunks rest (s.flushWord.take [unit])

variable {chunks : List SqlChunk}

theorem splitFrom_chunks {script : Utf16} (reads : Reads script chunks) (s : Scan) :
    splitFrom script s = splitChunks chunks s := by
  induction reads generalizing s with
  | nil => rw [splitFrom.eq_def, splitChunks]
  | @line body rest chunks inside _ ih =>
    rw [splitFrom.eq_def, splitChunks, ← ih]
    simp only [List.head?_cons, and_self, if_true, tail_cons, (splitAfter_one inside rest).1]
  | @lastLine body inside =>
    rw [splitFrom.eq_def, splitChunks, splitChunks]
    simp only [List.head?_cons, and_self, if_true, tail_cons, (splitAfter_one inside []).2]
    rw [splitFrom.eq_def]
  | @block body rest chunks inside _ ih =>
    have slash : ¬ ((0x2F : UInt16) = 0x2D ∧ some (0x2A : UInt16) = some 0x2D) := by decide
    rw [splitFrom.eq_def, splitChunks, ← ih]
    simp only [List.head?_cons, slash, and_self, if_true, if_false, tail_cons, splitAfter_two.1 inside rest]
  | @lastBlock body inside some_ =>
    have slash : ¬ ((0x2F : UInt16) = 0x2D ∧ some (0x2A : UInt16) = some 0x2D) := by decide
    rw [splitFrom.eq_def, splitChunks, splitChunks]
    simp only [List.head?_cons, slash, and_self, if_true, if_false, tail_cons, splitAfter_two.2 inside]
    rw [splitFrom.eq_def]
  | @quoted quote body rest chunks is inside ends _ ih =>
    have dash : quote ≠ 0x2D := fun same => by subst same; cases is
    have slash : quote ≠ 0x2F := fun same => by subst same; cases is
    rw [splitFrom.eq_def, splitChunks, ← ih]
    simp only [dash, slash, false_and, if_false, is, if_true, skipQuoted_doubled inside ends]
  | @bracket body rest chunks inside _ ih =>
    have quote : isQuote 0x5B = false := by decide
    have dash : (0x5B : UInt16) ≠ 0x2D := by decide
    have slash : (0x5B : UInt16) ≠ 0x2F := by decide
    rw [splitFrom.eq_def, splitChunks, ← ih]
    simp only [dash, slash, false_and, if_false, quote, Bool.false_eq_true, if_true, (splitAfter_one inside rest).1]
  | @semicolon rest chunks _ ih =>
    have quote : isQuote 0x3B = false := by decide
    have dash : (0x3B : UInt16) ≠ 0x2D := by decide
    have slash : (0x3B : UInt16) ≠ 0x2F := by decide
    have bracket : (0x3B : UInt16) ≠ 0x5B := by decide
    rw [splitFrom.eq_def, splitChunks, ← ih, ← ih]
    simp only [dash, slash, bracket, false_and, if_false, quote, Bool.false_eq_true, if_true]
  | @unit unit rest chunks plain line block _ ih =>
    rw [splitFrom.eq_def, splitChunks, ← ih, ← ih]
    simp only [line, block, plain.1, plain.2.1, plain.2.2, if_false, Bool.false_eq_true]

/-! ## Words and text of chunks -/

namespace Scan

def readChunk (s : Scan) : SqlChunk → Scan
  | .comment text => s.flushWord.take text
  | .quoted text => s.flushWord.take text
  | .semicolon => s.flushWord.take [0x3B]
  | .unit unit =>
      if isWordUnit unit then { s with word := s.word ++ [unit], piece := s.piece ++ [unit] } else s.flushWord.take [unit]

/-- What's read of chunks without a statement's end among them. -/
def read (s : Scan) (chunks : List SqlChunk) : Scan := chunks.foldl readChunk s

theorem flushWord_words (s : Scan) : s.flushWord.words = s.words ++ if s.word = [] then [] else [upper s.word] := by
  unfold flushWord
  split
  · simp
  · simp

theorem flushWord_piece (s : Scan) : s.flushWord.piece = s.piece := by
  unfold flushWord
  split <;> rfl

theorem flushWord_word (s : Scan) : s.flushWord.word = [] := by
  unfold flushWord
  split
  · assumption
  · rfl

theorem read_spec (s : Scan) (chunks : List SqlChunk) :
    (s.read chunks).flushWord.words = s.words ++ scriptWordsFrom s.word chunks ∧
      (s.read chunks).piece = s.piece ++ chunksText chunks := by
  induction chunks generalizing s with
  | nil =>
    rw [read, foldl_nil, flushWord_words, scriptWordsFrom]
    simp [chunksText]
  | cons chunk rest ih =>
    obtain ⟨words, piece⟩ := ih (s.readChunk chunk)
    rw [read, foldl_cons]
    rw [read] at words piece
    rw [words, piece, show chunksText (chunk :: rest) = chunk.text ++ chunksText rest from rfl, ← append_assoc]
    cases chunk with
    | comment text =>
      rw [readChunk, take, scriptWordsFrom, flushWord_words, flushWord_word, flushWord_piece, append_assoc]
      exact ⟨rfl, rfl⟩
    | quoted text =>
      rw [readChunk, take, scriptWordsFrom, flushWord_words, flushWord_word, flushWord_piece, append_assoc]
      exact ⟨rfl, rfl⟩
    | semicolon =>
      rw [readChunk, take, scriptWordsFrom, flushWord_words, flushWord_word, flushWord_piece, append_assoc]
      exact ⟨rfl, rfl⟩
    | unit unit =>
      by_cases is : isWordUnit unit = true
      · rw [readChunk, if_pos is, scriptWordsFrom, if_pos is]
        exact ⟨rfl, rfl⟩
      · rw [readChunk, if_neg is, take, scriptWordsFrom, if_neg is, flushWord_words, flushWord_word, flushWord_piece,
          append_assoc]
        exact ⟨rfl, rfl⟩

end Scan

/-- Either no semicolon among chunks ends a statement, or a first one does. -/
theorem splitChunks_append (chunks rest : List SqlChunk) (s : Scan) :
    ((∀ before after : List SqlChunk, chunks = before ++ .semicolon :: after →
        splitsAfter (s.read before).flushWord.words = false) ∧
      splitChunks (chunks ++ rest) s = splitChunks rest (s.read chunks)) ∨
    ∃ before after : List SqlChunk, chunks = before ++ .semicolon :: after ∧
      splitsAfter (s.read before).flushWord.words = true ∧
      splitChunks (chunks ++ rest) s = (s.read before).flushWord.statement ++ splitChunks (after ++ rest) {} := by
  induction chunks generalizing s with
  | nil => exact .inl ⟨fun before after is => absurd is (by simp), rfl⟩
  | cons chunk chunks ih =>
    by_cases ends : chunk = .semicolon ∧ splitsAfter s.flushWord.words = true
    · obtain ⟨rfl, splits⟩ := ends
      exact .inr ⟨[], chunks, rfl, splits, by rw [cons_append, splitChunks, if_pos splits]; rfl⟩
    have step : splitChunks (chunk :: chunks ++ rest) s = splitChunks (chunks ++ rest) (s.readChunk chunk) := by
      cases chunk with
      | comment text => rfl
      | quoted text => rfl
      | semicolon =>
        rw [cons_append, splitChunks, if_neg fun splits => ends ⟨rfl, splits⟩]
        rfl
      | unit unit =>
        rw [cons_append, splitChunks, Scan.readChunk]
        split <;> rfl
    rw [step]
    rcases ih (s.readChunk chunk) with ⟨none_, same⟩ | ⟨before, after, is, splits, same⟩
    · refine .inl ⟨fun before after is => ?_, same⟩
      cases before with
      | nil =>
        cases is
        exact Bool.eq_false_iff.mpr fun splits => ends ⟨rfl, splits⟩
      | cons first before =>
        obtain ⟨rfl, rest_⟩ := List.cons.inj is
        exact none_ before after rest_
    · exact .inr ⟨chunk :: before, after, by rw [is]; rfl, splits, same⟩

/-! ## Keywords -/

variable {unit : UInt16}

theorem isWordUnit_of_isLetter (letter : isLetter unit = true) : isWordUnit unit = true := by
  simp only [isLetter, isWordUnit, Bool.or_eq_true, Bool.and_eq_true, decide_eq_true_eq] at letter ⊢
  omega

/-- A run that's going on is the first token's start. -/
theorem sqlTokensFrom_run {run : Utf16} (some_ : run ≠ []) (chunks : List SqlChunk) :
    ∃ more tokens, sqlTokensFrom run chunks = .word (run ++ more) :: tokens := by
  induction chunks generalizing run with
  | nil => exact ⟨[], [], by rw [sqlTokensFrom, wordToken, if_neg some_, append_nil]⟩
  | cons chunk chunks ih =>
    have flushed : ∀ tokens, ∃ more tokens', wordToken run ++ tokens = .word (run ++ more) :: tokens' := by
      intro tokens
      exact ⟨[], tokens, by rw [wordToken, if_neg some_, append_nil]; rfl⟩
    cases chunk with
    | comment text => exact flushed _
    | quoted text => exact flushed _
    | semicolon => exact flushed _
    | unit unit =>
      rw [sqlTokensFrom]
      split
      · obtain ⟨more, tokens, is⟩ := @ih (run ++ [unit]) (by simp)
        exact ⟨unit :: more, tokens, by rw [is, append_assoc]; rfl⟩
      · split
        · exact flushed _
        · split
          · exact flushed _
          · exact flushed _

variable {token : SqlToken} {name : Utf16}

theorem keyword_eq_some (is : token.keyword = some name) :
    ∃ text, token = .word text ∧ text ≠ [] ∧ text.all isLetter = true ∧ upper text = name := by
  cases token with
  | word text =>
    obtain ⟨⟨some_, letters⟩, same⟩ := Option.ite_none_right_eq_some.mp is
    exact ⟨text, rfl, some_, letters, Option.some.inj same⟩
  | quoted text => cases is
  | symbol unit => cases is

variable {run : Utf16}

/-- A chunk that a run doesn't go on with ends it. -/
theorem sqlTokensFrom_stop {chunk : SqlChunk}
    (stops : ∀ unit, chunk = .unit unit → ¬ (isIdUnit unit = true ∧ (run ≠ [] ∨ unit ≠ 0xFEFF)))
    (chunks : List SqlChunk) :
    sqlTokensFrom run (chunk :: chunks) = wordToken run ++ sqlTokensFrom [] (chunk :: chunks) := by
  by_cases some_ : run = []
  · subst some_
    rfl
  cases chunk with
  | comment text => rfl
  | quoted text => rfl
  | semicolon => rfl
  | unit unit =>
    have plain : ¬ isIdUnit unit = true := fun is => stops unit rfl ⟨is, .inl some_⟩
    have other : ∀ run' : Utf16, ¬ (isIdUnit unit = true ∧ (run' ≠ [] ∨ unit ≠ 0xFEFF)) := fun _ both => plain both.1
    rw [sqlTokensFrom, if_neg (other run), sqlTokensFrom, if_neg (other [])]
    by_cases blank : isBlankUnit unit = true
    · rw [if_pos blank, if_pos blank]
      rfl
    · by_cases mark : isVariableMark unit = true
      · rw [if_neg blank, if_pos mark, if_neg blank, if_pos mark]
        rfl
      · rw [if_neg blank, if_neg mark, if_neg blank, if_neg mark]
        rfl

theorem scriptWordsFrom_stop {chunk : SqlChunk} (stops : ∀ unit, chunk = .unit unit → ¬ isWordUnit unit = true)
    (chunks : List SqlChunk) : scriptWordsFrom run (chunk :: chunks) =
      (if run = [] then [] else [upper run]) ++ scriptWordsFrom [] (chunk :: chunks) := by
  cases chunk with
  | comment text => rfl
  | quoted text => rfl
  | semicolon => rfl
  | unit unit =>
    rw [scriptWordsFrom, scriptWordsFrom, if_neg (stops unit rfl), if_neg (stops unit rfl)]
    rfl

/-- White space and marks aren't part of a word. -/
theorem not_isWordUnit_of_blank (is : isBlankUnit unit = true ∨ isVariableMark unit = true) :
    ¬ isWordUnit unit = true := by
  simp only [isBlankUnit, isSqlSpace, isVariableMark, Bool.or_eq_true, decide_eq_true_eq] at is
  rcases is with (((((rfl | rfl) | rfl) | rfl) | rfl) | rfl) | ((rfl | rfl) | rfl) <;> decide

/-- A keyword that comes first is the splitter's first word. -/
theorem scriptWords_keyword {tokens : List SqlToken} (are : sqlTokensFrom run chunks = token :: tokens)
    (is : token.keyword = some name) :
    ∃ after, scriptWordsFrom run chunks = name :: scriptWords after ∧ tokens = sqlTokens after := by
  obtain ⟨text, same, -, letters, named⟩ := keyword_eq_some is
  -- What's in the first token's run is a letter.
  have letter : ∀ {run : Utf16} {chunks : List SqlChunk} {unit : UInt16}, unit ∈ run →
      sqlTokensFrom run chunks = token :: tokens → isLetter unit = true := by
    intro run chunks unit among are
    obtain ⟨more, tokens', starts⟩ := sqlTokensFrom_run (ne_nil_of_mem among) chunks
    rw [starts, same] at are
    rw [← SqlToken.word.inj (List.cons.inj are).1] at letters
    exact all_eq_true.mp letters unit (mem_append_left _ among)
  induction chunks generalizing run with
  | nil =>
    rw [sqlTokensFrom, wordToken] at are
    split at are
    · cases are
    · rename_i some_
      obtain ⟨first, rfl⟩ := List.cons.inj are
      cases first.trans same
      exact ⟨[], by rw [scriptWordsFrom, if_neg some_, named]; rfl, rfl⟩
  | cons chunk chunks ih =>
    by_cases goes : ∃ unit, chunk = .unit unit ∧ isIdUnit unit = true ∧ (run ≠ [] ∨ unit ≠ 0xFEFF)
    · obtain ⟨unit, rfl, going⟩ := goes
      rw [sqlTokensFrom, if_pos going] at are
      rw [scriptWordsFrom, if_pos (isWordUnit_of_isLetter (letter (mem_append_right run (mem_singleton_self unit)) are))]
      exact ih are
    have stops : ∀ unit, chunk = .unit unit → ¬ (isIdUnit unit = true ∧ (run ≠ [] ∨ unit ≠ 0xFEFF)) :=
      fun unit is going => goes ⟨unit, is, going⟩
    by_cases some_ : run = []
    · subst some_
      cases chunk with
      | comment text => exact ih are
      | semicolon => exact ih are
      | quoted text =>
        cases are
        cases is
      | unit unit =>
        rw [sqlTokensFrom, if_neg (stops unit rfl)] at are
        split at are
        · rename_i blank
          rw [scriptWordsFrom, if_neg (not_isWordUnit_of_blank (.inl blank))]
          exact ih are
        split at are
        · rename_i mark
          have word := isWordUnit_of_isLetter (letter (mem_singleton_self unit) are)
          exact absurd word (not_isWordUnit_of_blank (.inr mark))
        · cases are
          cases is
    · rw [sqlTokensFrom_stop stops, wordToken, if_neg some_] at are
      obtain ⟨first, rfl⟩ := List.cons.inj are
      cases first.trans same
      refine ⟨chunk :: chunks, ?_, rfl⟩
      rw [scriptWordsFrom_stop, if_neg some_, named]
      · rfl
      · intro unit is_ word
        refine stops unit is_ ⟨?_, .inl some_⟩
        rw [isIdUnit, word]
        rfl

/-! ## The words of statements -/

theorem scriptWordsFrom_append (run : Utf16) (chunks rest : List SqlChunk) :
    scriptWordsFrom run (chunks ++ .semicolon :: rest) = scriptWordsFrom run chunks ++ scriptWords rest := by
  induction chunks generalizing run with
  | nil => rfl
  | cons chunk chunks ih =>
    cases chunk with
    | comment text => rw [cons_append, scriptWordsFrom, scriptWordsFrom, ih, append_assoc]
    | quoted text => rw [cons_append, scriptWordsFrom, scriptWordsFrom, ih, append_assoc]
    | semicolon => rw [cons_append, scriptWordsFrom, scriptWordsFrom, ih, append_assoc]
    | unit unit =>
      by_cases word : isWordUnit unit = true
      · rw [cons_append, scriptWordsFrom, if_pos word, scriptWordsFrom, if_pos word, ih]
      · rw [cons_append, scriptWordsFrom, if_neg word, scriptWordsFrom, if_neg word, ih, append_assoc]

theorem sqlTokensFrom_append (run : Utf16) (chunks rest : List SqlChunk) :
    sqlTokensFrom run (chunks ++ .semicolon :: rest) = sqlTokensFrom run chunks ++ sqlTokens rest := by
  induction chunks generalizing run with
  | nil => rfl
  | cons chunk chunks ih =>
    cases chunk with
    | comment text => rw [cons_append, sqlTokensFrom, sqlTokensFrom, ih, append_assoc]
    | semicolon => rw [cons_append, sqlTokensFrom, sqlTokensFrom, ih, append_assoc]
    | quoted text => rw [cons_append, sqlTokensFrom, sqlTokensFrom, ih, append_assoc, cons_append]
    | unit unit =>
      rw [cons_append, sqlTokensFrom, sqlTokensFrom, ih, ih, ih]
      split
      · rfl
      · split
        · rw [append_assoc]
        · split
          · rw [append_assoc]
          · rw [append_assoc, cons_append]

/-- Where SQLite reads nothing, the splitter reads no word. -/
theorem scriptWords_of_no_tokens (none_ : sqlTokens chunks = []) : scriptWords chunks = [] := by
  rw [sqlTokens] at none_
  rw [scriptWords]
  induction chunks with
  | nil => rfl
  | cons chunk chunks ih =>
    cases chunk with
    | comment text => exact ih none_
    | semicolon => exact ih none_
    | quoted text => cases none_
    | unit unit =>
      rw [sqlTokensFrom] at none_
      split at none_
      · obtain ⟨more, tokens, is⟩ := @sqlTokensFrom_run [unit] (cons_ne_nil _ _) chunks
        rw [nil_append, is] at none_
        cases none_
      split at none_
      · rename_i blank
        rw [scriptWordsFrom, if_neg (not_isWordUnit_of_blank (.inl blank))]
        exact ih none_
      · split at none_
        · obtain ⟨more, tokens, is⟩ := @sqlTokensFrom_run [unit] (cons_ne_nil _ _) chunks
          rw [wordToken, if_pos rfl, nil_append, is] at none_
          cases none_
        · cases none_

theorem isTrigger_append {words : List Utf16} (is : isTrigger words = true) (more : List Utf16) :
    isTrigger (words ++ more) = true := by
  cases words with
  | nil => cases is
  | cons first words =>
    simp only [isTrigger, Bool.and_eq_true, cons_append, List.head?_cons, drop_succ_cons, drop_zero,
      contains_iff_mem, take_append] at is ⊢
    exact ⟨is.1, mem_append_left _ is.2⟩

theorem keyword_first {name : String} (is : isKeyword (sqlTokens chunks)[0]? name) :
    ∃ after, scriptWords chunks = .ofString name :: scriptWords after ∧ (sqlTokens chunks).tail = sqlTokens after := by
  obtain ⟨token, first, keyword⟩ := Option.bind_eq_some_iff.mp is
  cases are : sqlTokens chunks with
  | nil =>
    rw [are] at first
    cases first
  | cons token' tokens =>
    rw [are] at first
    cases first
    exact scriptWords_keyword are keyword

theorem isTrigger_of_startsTrigger (starts : StartsTrigger (sqlTokens chunks)) :
    isTrigger (scriptWords chunks) = true := by
  obtain ⟨create, next⟩ := starts
  obtain ⟨after, words, tokens⟩ := keyword_first create
  have second : (sqlTokens chunks)[1]? = (sqlTokens after)[0]? := by rw [← tokens, getElem?_tail]
  have third : (sqlTokens chunks)[2]? = (sqlTokens after)[1]? := by rw [← tokens, getElem?_tail]
  rw [second, third] at next
  rcases next with trigger | ⟨temp, trigger⟩
  · obtain ⟨after', words', -⟩ := keyword_first trigger
    rw [words, words']
    simp [isTrigger]
  obtain ⟨name, temp⟩ : ∃ name, isKeyword (sqlTokens after)[0]? name := by
    rcases temp with temp | temp
    · exact ⟨_, temp⟩
    · exact ⟨_, temp⟩
  obtain ⟨after', words', tokens'⟩ := keyword_first temp
  have fourth : (sqlTokens after)[1]? = (sqlTokens after')[0]? := by rw [← tokens', getElem?_tail]
  rw [fourth] at trigger
  obtain ⟨after'', words'', -⟩ := keyword_first trigger
  rw [words, words', words'']
  simp [isTrigger]

/-- What follows a trigger's header starts with a semicolon. -/
theorem TriggerRest.semicolon {rest : List SqlChunk} (body : TriggerRest rest) : ∃ more, rest = .semicolon :: more := by
  cases body with
  | closing => exact ⟨_, rfl⟩
  | command => exact ⟨_, rfl⟩

theorem IsStatement.words (is : IsStatement chunks) :
    (∃ token tokens name, sqlTokens chunks = token :: tokens ∧ token.keyword = some name) ∧
      ∀ before after : List SqlChunk, chunks = before ++ .semicolon :: after → isTrigger (scriptWords before) = true := by
  cases is with
  | plain one starts =>
    constructor
    · obtain ⟨name, keyword⟩ := Option.isSome_iff_exists.mp starts.1
      obtain ⟨token, first, keyword⟩ := Option.bind_eq_some_iff.mp keyword
      cases are : sqlTokens chunks with
      | nil =>
        rw [are] at first
        cases first
      | cons token' tokens =>
        rw [are] at first
        cases first
        exact ⟨_, _, name, rfl, keyword⟩
    · intro before after is
      exact absurd rfl (one .semicolon (by rw [is]; simp))
  | @trigger header rest one starts body =>
    obtain ⟨more, rfl⟩ := body.semicolon
    constructor
    · obtain ⟨token, first, keyword⟩ := Option.bind_eq_some_iff.mp starts.1
      rw [sqlTokens, sqlTokensFrom_append]
      cases are : sqlTokens header with
      | nil =>
        rw [are] at first
        cases first
      | cons token' tokens =>
        rw [are] at first
        cases first
        exact ⟨_, _, _, by rw [← sqlTokens, are]; rfl, keyword⟩
    · intro before after is
      rcases append_eq_append_iff.mp is with ⟨stuff, same, rest_⟩ | ⟨stuff, same, rest_⟩
      · cases stuff with
        | nil =>
          rw [same, append_nil]
          exact isTrigger_of_startsTrigger starts
        | cons chunk stuff =>
          cases rest_
          rw [same, scriptWords, scriptWordsFrom_append]
          exact isTrigger_append (isTrigger_of_startsTrigger starts) _
      cases stuff with
      | nil =>
        rw [append_nil] at same
        rw [← same]
        exact isTrigger_of_startsTrigger starts
      | cons chunk stuff =>
        cases rest_
        exact absurd rfl (one .semicolon (by rw [same]; simp))

/-! ## White space around statements -/

theorem count_dropWhile {p : UInt16 → Bool} (kept : p unit = false) (text : Utf16) :
    (text.dropWhile p).count unit = text.count unit := by
  induction text with
  | nil => rfl
  | cons first text ih =>
    by_cases drops : p first = true
    · have other : first ≠ unit := by
        intro same
        rw [same, kept] at drops
        cases drops
      rw [dropWhile_cons_of_pos drops, ih, count_cons_of_ne other]
    · rw [dropWhile_cons_of_neg drops]

theorem count_rdropWhile {p : UInt16 → Bool} (kept : p unit = false) (text : Utf16) :
    (text.rdropWhile p).count unit = text.count unit := by
  rw [rdropWhile, count_reverse, count_dropWhile kept, count_reverse]

/-- Trimming leaves what isn't white space. -/
theorem count_trim (kept : isSpace unit = false) (text : Utf16) : (trim text).count unit = text.count unit := by
  rw [trim, count_rdropWhile kept, count_dropWhile kept]

theorem trim_ne_nil {text : Utf16} (kept : isSpace unit = false) (member : unit ∈ text) : trim text ≠ [] := by
  intro none_
  have many := count_trim kept text
  rw [none_, count_nil] at many
  exact absurd (count_pos_iff.mpr member) (by omega)

theorem isSpace_of_sqlSpace (is : isBlankUnit unit = true) : isSpace unit = true := by
  simp only [isBlankUnit, isSqlSpace, Bool.or_eq_true, decide_eq_true_eq] at is
  rcases is with ((((rfl | rfl) | rfl) | rfl) | rfl) | rfl <;> decide

theorem not_isSpace_of_word (is : isWordUnit unit = true) : isSpace unit = false := by
  have small : unit.toNat < 0x80 ∧ 0x24 ≤ unit.toNat := by
    simp only [isWordUnit, Bool.or_eq_true, Bool.and_eq_true, decide_eq_true_eq] at is
    rcases is with (((letter | letter) | digit) | rfl) | rfl
    · omega
    · omega
    · omega
    · decide
    · decide
  rw [Bool.eq_false_iff]
  intro space
  simp only [isSpace, Bool.or_eq_true, contains_iff_mem, Bool.and_eq_true, decide_eq_true_eq, mem_cons,
    not_mem_nil, or_false] at space
  omega

/-- The texts of chunks as a script has them. -/
def SqlChunk.WellFormed : SqlChunk → Prop
  | .comment text => text.head? = some 0x2D ∨ text.head? = some 0x2F
  | .quoted text => ∃ unit, text.head? = some unit ∧ (isQuote unit = true ∨ unit = 0x5B)
  | .unit _ | .semicolon => True

theorem Reads.wellFormed {script : Utf16} (reads : Reads script chunks) : ∀ chunk ∈ chunks, chunk.WellFormed := by
  induction reads with
  | nil => exact fun _ none_ => absurd none_ not_mem_nil
  | line _ _ ih => exact forall_mem_cons.mpr ⟨.inl rfl, ih⟩
  | lastLine _ => exact forall_mem_singleton.mpr (.inl rfl)
  | block _ _ ih => exact forall_mem_cons.mpr ⟨.inr rfl, ih⟩
  | lastBlock _ _ => exact forall_mem_singleton.mpr (.inr rfl)
  | quoted is _ _ _ ih => exact forall_mem_cons.mpr ⟨⟨_, rfl, .inl is⟩, ih⟩
  | bracket _ _ ih => exact forall_mem_cons.mpr ⟨⟨_, rfl, .inr rfl⟩, ih⟩
  | semicolon _ ih => exact forall_mem_cons.mpr ⟨trivial, ih⟩
  | unit _ _ _ _ ih => exact forall_mem_cons.mpr ⟨trivial, ih⟩

/-- Before a keyword there's only white space that SQLite takes for some too. -/
theorem dropWhile_blank (formed : ∀ chunk ∈ chunks, chunk.WellFormed) {tokens : List SqlToken}
    (are : sqlTokens chunks = token :: tokens) (is : token.keyword = some name) :
    (chunksText chunks).dropWhile isSpace = (chunksText chunks).dropWhile isBlankUnit := by
  have stays : ∀ {unit : UInt16} {text : Utf16}, isSpace unit = false →
      (unit :: text).dropWhile isSpace = (unit :: text).dropWhile isBlankUnit := by
    intro unit text plain
    have blank : ¬ isBlankUnit unit = true := fun blank => by
      rw [isSpace_of_sqlSpace blank] at plain
      cases plain
    rw [dropWhile_cons_of_neg (by rw [plain]; exact Bool.false_ne_true), dropWhile_cons_of_neg blank]
  rw [sqlTokens] at are
  induction chunks with
  | nil => rfl
  | cons chunk chunks ih =>
    have text_ : chunksText (chunk :: chunks) = chunk.text ++ chunksText chunks := rfl
    rw [text_]
    cases chunk with
    | comment text =>
      cases text with
      | nil => exact absurd (formed _ mem_cons_self) (by simp [SqlChunk.WellFormed])
      | cons unit text =>
        rcases formed _ mem_cons_self with same | same
        · cases same
          exact stays (by decide)
        · cases same
          exact stays (by decide)
    | semicolon => exact stays (by decide)
    | quoted text =>
      cases are
      cases is
    | unit unit =>
      rw [sqlTokensFrom] at are
      split at are
      · obtain ⟨more, tokens', starts⟩ := @sqlTokensFrom_run [unit] (cons_ne_nil _ _) chunks
        obtain ⟨text, same, -, letters, -⟩ := keyword_eq_some is
        rw [nil_append, starts, same] at are
        rw [← SqlToken.word.inj (List.cons.inj are).1] at letters
        exact stays (not_isSpace_of_word (isWordUnit_of_isLetter (all_eq_true.mp letters unit mem_cons_self)))
      split at are
      · rename_i blank
        change (unit :: chunksText chunks).dropWhile _ = (unit :: chunksText chunks).dropWhile _
        rw [dropWhile_cons_of_pos (isSpace_of_sqlSpace blank), dropWhile_cons_of_pos blank]
        exact ih (fun chunk member => formed chunk (mem_cons_of_mem _ member)) are
      · split at are
        · rename_i mark
          simp only [isVariableMark, Bool.or_eq_true, decide_eq_true_eq] at mark
          refine stays ?_
          rcases mark with (rfl | rfl) | rfl <;> decide
        · cases are
          cases is

/-- Trimming gives a statement's text where that doesn't end in other white space. -/
theorem trim_eq_text_iff {statement : SqlStatement} (formed : ∀ chunk ∈ statement.chunks, chunk.WellFormed)
    (is : IsStatement statement.chunks) : trim (chunksText statement.chunks) = statement.text ↔
      ∀ unit ∈ statement.text.getLast?, isSpace unit = false := by
  obtain ⟨⟨token, tokens, name, are, keyword⟩, -⟩ := is.words
  rw [trim, SqlStatement.text, dropWhile_blank formed are keyword]
  generalize (chunksText statement.chunks).dropWhile isBlankUnit = text
  constructor
  · intro same unit last
    rw [← same] at last
    have some_ : text.rdropWhile isSpace ≠ [] := by
      intro none_
      rw [none_] at last
      cases last
    have is := rdropWhile_last_not isSpace text some_
    rw [getLast?_eq_some_getLast some_] at last
    rw [← Option.some.inj last]
    exact Bool.eq_false_iff.mpr is
  · intro plain
    induction text using reverseRecOn with
    | nil => rfl
    | append_singleton text unit ih =>
      by_cases space : isSqlSpace unit = true
      · have blank : isBlankUnit unit = true := by rw [isBlankUnit, space, Bool.true_or]
        rw [rdropWhile_concat_pos _ _ _ space] at plain ⊢
        rw [rdropWhile_concat_pos _ _ _ (isSpace_of_sqlSpace blank)]
        exact ih plain
      · rw [rdropWhile_concat_neg _ _ _ space] at plain ⊢
        rw [rdropWhile_concat_neg]
        rw [plain unit (by simp)]
        exact Bool.false_ne_true

/-! ## Statements are split -/

theorem word_of_scriptWords (some_ : scriptWordsFrom run chunks ≠ []) :
    run ≠ [] ∨ ∃ unit ∈ chunksText chunks, isWordUnit unit = true := by
  induction chunks generalizing run with
  | nil =>
    by_cases none_ : run = []
    · rw [scriptWordsFrom, if_pos none_] at some_
      exact absurd rfl some_
    · exact .inl none_
  | cons chunk chunks ih =>
    by_cases none_ : run = []
    · subst none_
      have rest : scriptWords chunks ≠ [] → ([] : Utf16) ≠ [] ∨ ∃ unit ∈ chunksText (chunk :: chunks), isWordUnit unit = true := by
        intro some_
        rcases ih some_ with other | ⟨unit, member, word⟩
        · exact absurd rfl other
        · exact .inr ⟨unit, mem_append_right _ member, word⟩
      cases chunk with
      | comment text => exact rest some_
      | quoted text => exact rest some_
      | semicolon => exact rest some_
      | unit unit =>
        by_cases word : isWordUnit unit = true
        · exact .inr ⟨unit, mem_cons_self, word⟩
        · rw [scriptWordsFrom, if_neg word] at some_
          exact rest some_
    · exact .inl none_

theorem statement_read (some_ : scriptWords chunks ≠ []) :
    (({} : Scan).read chunks).flushWord.statement = [trim (chunksText chunks)] := by
  obtain ⟨words, piece⟩ := ({} : Scan).read_spec chunks
  have words_ : (({} : Scan).read chunks).flushWord.words = scriptWords chunks := words
  have piece_ : (({} : Scan).read chunks).piece = chunksText chunks := piece
  rcases word_of_scriptWords some_ with none_ | ⟨unit, member, word⟩
  · exact absurd rfl none_
  · rw [Scan.statement, Scan.flushWord_piece, words_, piece_,
      if_pos ⟨trim_ne_nil (not_isSpace_of_word word) member, some_⟩]

/-- After a semicolon that's taken into a statement, the statement that's pushed next has it. -/
theorem splitChunks_merged (rest : List SqlChunk) (s : Scan) (words : s.words ≠ []) (semicolon : 0x3B ∈ s.piece) :
    ∃ head tail, splitChunks rest s = head :: tail ∧ s.piece.count 0x3B ≤ head.count 0x3B := by
  have pushed : ∀ chunks : List SqlChunk, (s.read chunks).flushWord.statement = [trim (s.piece ++ chunksText chunks)] := by
    intro chunks
    obtain ⟨words', piece⟩ := s.read_spec chunks
    have some_ : (s.read chunks).flushWord.words ≠ [] := by
      rw [words']
      exact append_ne_nil_of_left_ne_nil words _
    rw [Scan.statement, Scan.flushWord_piece, piece,
      if_pos ⟨trim_ne_nil (by decide) (mem_append_left _ semicolon), some_⟩]
  have counted : ∀ chunks : List SqlChunk, s.piece.count 0x3B ≤ (trim (s.piece ++ chunksText chunks)).count 0x3B := by
    intro chunks
    rw [count_trim (by decide), count_append]
    exact Nat.le_add_right _ _
  rcases splitChunks_append rest [] s with ⟨-, same⟩ | ⟨before, after, -, -, same⟩
  · rw [append_nil] at same
    rw [same, splitChunks, pushed]
    exact ⟨_, [], rfl, counted rest⟩
  · rw [append_nil] at same
    rw [same, pushed]
    exact ⟨_, _, rfl, counted before⟩

theorem chunksText_append (chunks rest : List SqlChunk) : chunksText (chunks ++ rest) = chunksText chunks ++ chunksText rest :=
  flatMap_append

theorem count_text (statement : SqlStatement) : statement.text.count 0x3B = (chunksText statement.chunks).count 0x3B := by
  rw [SqlStatement.text, count_rdropWhile (by decide), count_dropWhile (by decide)]

section Statement

variable {chunks : List SqlChunk} (is : IsStatement chunks)

include is

theorem words_ne_nil : scriptWords chunks ≠ [] := by
  obtain ⟨⟨token, tokens, name, are, keyword⟩, -⟩ := is.words
  obtain ⟨after, words, -⟩ := scriptWords_keyword are keyword
  rw [scriptWords, words]
  exact cons_ne_nil _ _

/-- A semicolon of a trigger's body that's taken for the statement's end gives another first statement. -/
theorem splitChunks_early {before after rest : List SqlChunk} {ended : Bool} {expected : List Utf16}
    (same : chunks = before ++ .semicolon :: after)
    (splits : splitsAfter (({} : Scan).read before).flushWord.words = true)
    (result : splitChunks rest {} = (({} : Scan).read before).flushWord.statement ++ expected) (more : List Utf16) :
    splitChunks rest {} ≠ (⟨chunks, ended⟩ : SqlStatement).text :: more ∧ ¬ (⟨chunks, ended⟩ : SqlStatement).Splits := by
  have trigger := is.words.2 before after same
  have words_ : (({} : Scan).read before).flushWord.words = scriptWords before := (({} : Scan).read_spec before).1
  rw [words_, splitsAfter, trigger, Bool.not_true, Bool.false_or] at splits
  constructor
  · intro equal
    have some_ : scriptWords before ≠ [] := fun none_ => absurd trigger (by rw [none_]; decide)
    rw [result, statement_read some_] at equal
    have fewer := congrArg (count 0x3B) (List.cons.inj equal).1
    rw [count_trim (by decide), count_text] at fewer
    have semicolons : chunksText chunks = chunksText before ++ 0x3B :: chunksText after := by
      rw [same, chunksText_append]
      rfl
    rw [show (⟨chunks, ended⟩ : SqlStatement).chunks = chunks from rfl, semicolons, count_append,
      count_cons_self] at fewer
    omega
  · intro right
    have closes := right.inner before after same
    rw [splits] at closes
    cases closes

variable (formed : ∀ chunk ∈ chunks, chunk.WellFormed)

include formed

theorem splitChunks_last : splitChunks chunks {} = [(⟨chunks, false⟩ : SqlStatement).text] ↔
    (⟨chunks, false⟩ : SqlStatement).Splits := by
  rcases splitChunks_append chunks [] {} with ⟨none_, same⟩ | ⟨before, after, parts, splits, same⟩
  · rw [append_nil, splitChunks, statement_read (words_ne_nil is)] at same
    rw [same]
    have spaces := @trim_eq_text_iff ⟨chunks, false⟩ formed is
    constructor
    · intro equal
      refine ⟨fun before after parts => ?_, nofun, spaces.mp (List.cons.inj equal).1⟩
      have stays := none_ before after parts
      rw [show (({} : Scan).read before).flushWord.words = scriptWords before from (({} : Scan).read_spec before).1,
        splitsAfter, is.words.2 before after parts, Bool.not_true, Bool.false_or] at stays
      exact stays
    · intro right
      rw [spaces.mpr right.spaces]
  · rw [append_nil] at same
    obtain ⟨differs, wrong⟩ := splitChunks_early is parts splits same []
    exact ⟨fun equal => absurd equal differs, fun right => absurd right wrong⟩

theorem splitChunks_next (rest : List SqlChunk) (expected : List Utf16) :
    splitChunks (chunks ++ .semicolon :: rest) {} = (⟨chunks, true⟩ : SqlStatement).text :: expected ↔
      (⟨chunks, true⟩ : SqlStatement).Splits ∧ splitChunks rest {} = expected := by
  rcases splitChunks_append chunks (.semicolon :: rest) {} with ⟨none_, same⟩ | ⟨before, after, parts, splits, same⟩
  · have words_ : (({} : Scan).read chunks).flushWord.words = scriptWords chunks := (({} : Scan).read_spec chunks).1
    have spaces := @trim_eq_text_iff ⟨chunks, true⟩ formed is
    have inner : ∀ before after : List SqlChunk, chunks = before ++ .semicolon :: after →
        closesTriggerBody 0 (scriptWords before) = false := by
      intro before after parts
      have stays := none_ before after parts
      rw [show (({} : Scan).read before).flushWord.words = scriptWords before from (({} : Scan).read_spec before).1,
        splitsAfter, is.words.2 before after parts, Bool.not_true, Bool.false_or] at stays
      exact stays
    rw [same, splitChunks, words_]
    by_cases splits : splitsAfter (scriptWords chunks) = true
    · rw [if_pos splits, statement_read (words_ne_nil is), singleton_append, List.cons.injEq]
      constructor
      · intro equal
        refine ⟨⟨inner, fun _ trigger => ?_, spaces.mp equal.1⟩, equal.2⟩
        have trigger' : isTrigger (scriptWords chunks) = true := trigger
        rw [splitsAfter, trigger', Bool.not_true, Bool.false_or] at splits
        exact splits
      · exact fun right => ⟨spaces.mpr right.1.spaces, right.2⟩
    rw [if_neg splits]
    have some_ : ((({} : Scan).read chunks).flushWord.take [0x3B]).words ≠ [] := by
      rw [Scan.take, words_]
      exact words_ne_nil is
    have piece : ((({} : Scan).read chunks).flushWord.take [0x3B]).piece = chunksText chunks ++ [0x3B] := by
      rw [Scan.take, Scan.flushWord_piece, (({} : Scan).read_spec chunks).2]
      rfl
    obtain ⟨head, tail, merged, many⟩ := splitChunks_merged rest _ some_ (by rw [piece]; simp)
    rw [merged]
    constructor
    · intro equal
      rw [(List.cons.inj equal).1, count_text, piece, count_append, count_singleton_self] at many
      exact absurd many (by simp)
    · intro right
      have closes := right.1.closing rfl
      rw [splitsAfter, Bool.or_eq_true, not_or, Bool.not_eq_true', Bool.not_eq_false] at splits
      exact absurd (closes splits.1) splits.2
  · obtain ⟨differs, wrong⟩ := splitChunks_early is parts splits same expected
    exact ⟨fun equal => absurd equal differs, fun right => absurd right.1 wrong⟩

end Statement

/-- Chunks without a token are passed over. -/
theorem splitChunks_blank {blank : List SqlChunk} (one : NoSemicolon blank) (empty : sqlTokens blank = []) :
    splitChunks blank {} = [] ∧ ∀ rest, splitChunks (blank ++ .semicolon :: rest) {} = splitChunks rest {} := by
  have words_ : (({} : Scan).read blank).flushWord.words = [] :=
    (({} : Scan).read_spec blank).1.trans (scriptWords_of_no_tokens empty)
  have nothing : (({} : Scan).read blank).flushWord.statement = [] := by
    rw [Scan.statement, if_neg]
    exact fun both => both.2 words_
  have no_semicolon : ∀ before after : List SqlChunk, blank ≠ before ++ .semicolon :: after := by
    intro before after parts
    exact absurd rfl (one .semicolon (by rw [parts]; simp))
  constructor
  · rcases splitChunks_append blank [] {} with ⟨-, same⟩ | ⟨before, after, parts, -⟩
    · rw [append_nil] at same
      rw [same, splitChunks, nothing]
    · exact absurd parts (no_semicolon before after)
  · intro rest
    rcases splitChunks_append blank (.semicolon :: rest) {} with ⟨-, same⟩ | ⟨before, after, parts, -⟩
    · have splits : splitsAfter (({} : Scan).read blank).flushWord.words = true := by
        rw [words_]
        rfl
      rw [same, splitChunks, if_pos splits, nothing, nil_append]
    · exact absurd parts (no_semicolon before after)

theorem splitChunks_iff {statements : List SqlStatement} (are : Statements chunks statements)
    (formed : ∀ chunk ∈ chunks, chunk.WellFormed) :
    splitChunks chunks {} = statements.map (·.text) ↔ ∀ statement ∈ statements, statement.Splits := by
  induction are with
  | end_ one empty =>
    rw [(splitChunks_blank one empty).1]
    simp
  | blank one empty _ ih =>
    rw [(splitChunks_blank one empty).2]
    exact ih fun chunk member => formed chunk (mem_append_right _ (mem_cons_of_mem _ member))
  | last is =>
    rw [forall_mem_singleton, ← splitChunks_last is formed]
    rfl
  | next is _ ih =>
    rw [forall_mem_cons, map_cons, splitChunks_next is fun chunk member => formed chunk (mem_append_left _ member)]
    exact and_congr_right fun _ => ih fun chunk member =>
      formed chunk (mem_append_right _ (mem_cons_of_mem _ member))

end SqlScript

end Kiln.Relay
