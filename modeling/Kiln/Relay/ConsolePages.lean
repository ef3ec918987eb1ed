import Kiln.Relay.ConsoleFrames

/-!
# What console frames hold

The running sum of `encodeNewestBatch` is the size of the frame it builds, so its frames fit and stop only where one more
line wouldn't. Pages read one after the other tile the lines before where they started.
-/

namespace Kiln.Relay
open Kiln.Lib Kiln.Lib.JsonText Utf16

/-! ## The size of a frame -/

theorem RelayConsoleLine.json_apart (line : RelayConsoleLine) : Apart line.json := object_apart line.fields

namespace ConsoleBatchInput

variable (input : ConsoleBatchInput)

def encode (lines : List Utf16) (start : Nat) : Utf16 := (batchEnvelope input).encode lines start

/-- A frame of one line. -/
def alone (index : Nat) (line : RelayConsoleLine) : Utf16 := input.encode [line.json] index

/-- Each line cut down to the truncation suffix fits in a frame of its own. -/
def CutLinesFit : Prop :=
  ∀ (index : Nat) (line : RelayConsoleLine), input.lines[index]? = some line →
    (input.alone index (line.cut 0)).byteLength ≤ relayBrowserMaxFrameBytes

/-- What's sent for a line: itself, or cut where it's too long for a frame of its own. -/
def Shows (index : Nat) (line : RelayConsoleLine) (json : Utf16) : Prop :=
  json = line.json ∨ relayBrowserMaxFrameBytes < (input.alone index line).byteLength ∧
    (json = line.plain.json ∨ ∃ length, json = (line.cut length).json)

/-- The JSON of the lines between two indexes, each shown in its place. -/
structure Holds (start end_ : Nat) (jsons : List Utf16) : Prop where
  many : jsons.length + start = end_
  each : ∀ (k : Nat) (line : RelayConsoleLine) (json : Utf16), input.lines[start + k]? = some line →
    jsons[k]? = some json → input.Shows (start + k) line json

/-- A line more wouldn't fit. -/
def Full (maxBytes start : Nat) (jsons : List Utf16) : Prop :=
  start = 0 ∨ ∃ line : RelayConsoleLine, input.lines[start - 1]? = some line ∧
    maxBytes < (input.encode (line.json :: jsons) (start - 1)).byteLength

/-- A frame keeps to `maxBytes`, or holds a line that's too long for it. -/
def Keeps (maxBytes start : Nat) (jsons : List Utf16) : Prop :=
  jsons = [] ∨ (input.encode jsons start).byteLength ≤ maxBytes ∨
    jsons.length = 1 ∧ (input.encode jsons start).byteLength ≤ relayBrowserMaxFrameBytes

variable {input}

theorem suffix_apart (start : Nat) : Apart ((batchEnvelope input).suffix start) := by
  intro unit first
  cases first
  decide

theorem encode_parts : ∃ opening : Utf16, (batchEnvelope input).prefixBytes = opening.byteLength ∧ ∀ jsons start,
    input.encode jsons start = opening ++ comma.intercalate jsons ++ (batchEnvelope input).suffix start :=
  ⟨_, rfl, fun _ _ => rfl⟩

theorem byteLength_encode (json : Utf16) (jsons : List Utf16) (start : Nat)
    (apart : ∀ json' ∈ json :: jsons, Apart json') :
    (input.encode (json :: jsons) start).byteLength = (batchEnvelope input).prefixBytes +
      ((json :: jsons).map byteLength).sum + jsons.length + ((batchEnvelope input).suffix start).byteLength := by
  have commas : Apart comma := by decide
  have first : Apart (comma.intercalate (json :: jsons)) := by
    rw [intercalate_cons]
    exact (apart json List.mem_cons_self).append
      (byteLength_separated comma commas jsons fun other member => apart other (List.mem_cons_of_mem _ member)).1
  have lines := byteLength_intercalate comma commas json jsons
    fun other member => apart other (List.mem_cons_of_mem _ member)
  have one : byteLength comma = 1 := by decide
  obtain ⟨opening, bytes, parts⟩ := @encode_parts input
  rw [parts, byteLength_append _ _ (suffix_apart start), byteLength_append _ _ first, lines, one, bytes]
  omega

theorem byteLength_alone (index : Nat) (line : RelayConsoleLine) : (input.alone index line).byteLength =
    (batchEnvelope input).prefixBytes + line.json.byteLength + ((batchEnvelope input).suffix index).byteLength := by
  have apart : ∀ json ∈ [line.json], Apart json := by
    intro json member
    rw [List.mem_singleton.mp member]
    exact line.json_apart
  rw [alone, byteLength_encode _ _ _ apart]
  simp

end ConsoleBatchInput

/-! ## Cutting a line -/

theorem fitConsoleLine.search_fits (line : RelayConsoleLine) (encode : RelayConsoleLine → Utf16) (low high : Int)
    (fitted : RelayConsoleLine) (fits : (encode fitted).byteLength ≤ relayBrowserMaxFrameBytes)
    (cut : ∃ length, fitted = line.cut length) :
    (encode (search line encode low high fitted)).byteLength ≤ relayBrowserMaxFrameBytes ∧
      ∃ length, search line encode low high fitted = line.cut length := by
  induction low, high, fitted using fitConsoleLine.search.induct line encode with
  | case1 low high fitted le middle candidate fits' ih =>
    rw [search, if_pos le, if_pos fits']
    exact ih fits' ⟨_, rfl⟩
  | case2 low high fitted le middle candidate fits' ih =>
    rw [search, if_pos le, if_neg fits']
    exact ih fits cut
  | case3 low high fitted past =>
    rw [search, if_neg past]
    exact ⟨fits, cut⟩

theorem fitConsoleLine_fits (line : RelayConsoleLine) (encode : RelayConsoleLine → Utf16)
    (fits : (encode (line.cut 0)).byteLength ≤ relayBrowserMaxFrameBytes) :
    (encode (fitConsoleLine line encode)).byteLength ≤ relayBrowserMaxFrameBytes ∧
      (fitConsoleLine line encode = line ∨ relayBrowserMaxFrameBytes < (encode line).byteLength ∧
        (fitConsoleLine line encode = line.plain ∨ ∃ length, fitConsoleLine line encode = line.cut length)) := by
  unfold fitConsoleLine
  split
  · rename_i whole
    exact ⟨whole, .inl rfl⟩
  rename_i long
  split
  · rename_i plain
    exact ⟨plain, .inr ⟨Nat.lt_of_not_le long, .inl rfl⟩⟩
  · have cut := fitConsoleLine.search_fits line encode 0 line.text.length (line.cut 0) fits ⟨0, rfl⟩
    exact ⟨cut.1, .inr ⟨Nat.lt_of_not_le long, .inr cut.2⟩⟩

namespace ConsoleBatchInput

variable {input : ConsoleBatchInput}

/-- The JSON the loop takes for a line. -/
def chosen (input : ConsoleBatchInput) (index candidateBytes : Nat) (line : RelayConsoleLine) : Utf16 :=
  if relayBrowserMaxFrameBytes < candidateBytes then (fitConsoleLine line (input.alone index)).json else line.json

/-- It shows the line, fits where the frame fits or is the line's own, and takes no more than the line. -/
theorem chosen_shows (fit : input.CutLinesFit) {index : Nat} {line : RelayConsoleLine}
    (is : input.lines[index]? = some line) (candidateBytes : Nat) :
    input.Shows index line (input.chosen index candidateBytes line) ∧ Apart (input.chosen index candidateBytes line) ∧
      (input.chosen index candidateBytes line).byteLength ≤ line.json.byteLength ∧
      ((input.alone index line).byteLength ≤ candidateBytes →
        (input.encode [input.chosen index candidateBytes line] index).byteLength ≤ relayBrowserMaxFrameBytes) := by
  obtain ⟨fits, what⟩ := fitConsoleLine_fits line (input.alone index) (fit index line is)
  by_cases large : relayBrowserMaxFrameBytes < candidateBytes
  · rw [chosen, if_pos large]
    refine ⟨?_, RelayConsoleLine.json_apart _, ?_, fun _ => fits⟩
    · rcases what with same | ⟨long, plain | ⟨length, cut⟩⟩
      · rw [same]
        exact .inl rfl
      · rw [plain]
        exact .inr ⟨long, .inl rfl⟩
      · rw [cut]
        exact .inr ⟨long, .inr ⟨length, rfl⟩⟩
    · rcases what with same | ⟨long, -⟩
      · rw [same]
      · -- What fits is shorter than what doesn't.
        have less := Nat.lt_of_le_of_lt fits long
        rw [byteLength_alone, byteLength_alone] at less
        omega
  · rw [chosen, if_neg large]
    exact ⟨.inl rfl, line.json_apart, Nat.le_refl _, fun within => Nat.le_trans within (Nat.le_of_not_lt large)⟩

/-- What the loop selects between where it stops and where it started. -/
theorem loop_selects (fit : input.CutLinesFit) (maxBytes : Nat) (end_ : Nat) (within : end_ ≤ input.lines.length)
    (selected : List Utf16) (apart : ∀ json ∈ selected, Apart json) (keeps : input.Keeps maxBytes end_ selected) :
    ∃ start jsons, encodeNewestBatch.loop input.lines (batchEnvelope input) maxBytes end_ selected
        (selected.map byteLength).sum = some (start, jsons ++ selected) ∧
      input.Holds start end_ jsons ∧ (0 < end_ → jsons ++ selected ≠ []) ∧
      input.Full maxBytes start (jsons ++ selected) ∧ input.Keeps maxBytes start (jsons ++ selected) := by
  induction end_ generalizing selected with
  | zero =>
    refine ⟨0, [], rfl, ⟨rfl, fun k line json _ none_ => absurd none_ (by simp)⟩, nofun, .inl rfl, keeps⟩
  | succ next ih =>
    have is : input.lines[next]? = some input.lines[next] := List.getElem?_eq_getElem within
    set line := input.lines[next]
    set candidateBytes := (batchEnvelope input).prefixBytes + (selected.map byteLength).sum + line.json.byteLength +
      selected.length + ((batchEnvelope input).suffix next).byteLength with sum
    have apart' : ∀ json ∈ line.json :: selected, Apart json := by
      intro json member
      rcases List.mem_cons.mp member with rfl | member
      · exact line.json_apart
      · exact apart json member
    have candidate : (input.encode (line.json :: selected) next).byteLength = candidateBytes := by
      rw [byteLength_encode _ _ _ apart', List.map_cons, List.sum_cons, sum]
      omega
    have unfolded : encodeNewestBatch.loop input.lines (batchEnvelope input) maxBytes (next + 1) selected
        (selected.map byteLength).sum =
        if maxBytes < candidateBytes ∧ 0 < selected.length then some (next + 1, selected)
        else encodeNewestBatch.loop input.lines (batchEnvelope input) maxBytes next
          (input.chosen next candidateBytes line :: selected)
          ((selected.map byteLength).sum + (input.chosen next candidateBytes line).byteLength) := by
      rw [encodeNewestBatch.loop, is]
      rfl
    rw [unfolded]
    by_cases stops : maxBytes < candidateBytes ∧ 0 < selected.length
    · rw [if_pos stops]
      refine ⟨next + 1, [], rfl, ⟨by simp, fun k line json _ none_ => absurd none_ (by simp)⟩,
        fun _ => List.length_pos_iff.mp stops.2, .inr ⟨line, is, ?_⟩, keeps⟩
      rw [List.nil_append, Nat.add_sub_cancel, candidate]
      exact stops.1
    rw [if_neg stops]
    obtain ⟨shows_, apartChosen, less, small⟩ := chosen_shows fit is candidateBytes
    set json := input.chosen next candidateBytes line
    have apart'' : ∀ json' ∈ json :: selected, Apart json' := by
      intro json' member
      rcases List.mem_cons.mp member with rfl | member
      · exact apartChosen
      · exact apart json' member
    have size : (input.encode (json :: selected) next).byteLength ≤ candidateBytes := by
      rw [byteLength_encode _ _ _ apart'', List.map_cons, List.sum_cons, sum]
      omega
    have keeps' : input.Keeps maxBytes next (json :: selected) := by
      by_cases first : selected = []
      · refine .inr (.inr ⟨by rw [first]; rfl, ?_⟩)
        rw [first]
        refine small ?_
        rw [byteLength_alone, sum, first]
        simp
      · have some_ := List.length_pos_iff.mpr first
        exact .inr (.inl (Nat.le_trans size (Nat.le_of_not_lt fun over_ => stops ⟨over_, some_⟩)))
    obtain ⟨start, jsons, ran, holds, some_, full, kept⟩ :=
      ih (Nat.le_of_succ_le within) (json :: selected) apart'' keeps'
    have together : (jsons ++ [json]) ++ selected = jsons ++ json :: selected := by simp
    refine ⟨start, jsons ++ [json], ?_, ⟨?_, ?_⟩, ?_, ?_, ?_⟩
    · rw [together, ← ran, List.map_cons, List.sum_cons, Nat.add_comm (json.byteLength)]
    · have many := holds.many
      rw [List.length_append, List.length_singleton]
      omega
    · intro k line' json' at_ found
      have many := holds.many
      by_cases before : k < jsons.length
      · rw [List.getElem?_append_left before] at found
        exact holds.each k line' json' at_ found
      have last : k = jsons.length := by
        have short := (List.getElem?_eq_some_iff.mp found).1
        rw [List.length_append, List.length_singleton] at short
        omega
      subst last
      rw [List.getElem?_concat_length] at found
      rw [Nat.add_comm, many] at at_ ⊢
      cases at_.symm.trans is
      cases found
      exact shows_
    · intro _
      simp
    · rw [together]
      exact full
    · rw [together]
      exact kept

/-- A frame that's built: what it holds, and that it's as full as may be. -/
theorem encodeNewestBatch_builds (fit : input.CutLinesFit) (maxBytes end_ : Nat) (within : end_ ≤ input.lines.length) :
    ∃ batch, encodeNewestBatch input (batchEnvelope input) end_ maxBytes = some batch ∧
      ∃ jsons, batch.encoded = input.encode jsons batch.start ∧ input.Holds batch.start end_ jsons ∧
        (0 < end_ → jsons ≠ []) ∧ input.Full maxBytes batch.start jsons ∧ input.Keeps maxBytes batch.start jsons := by
  obtain ⟨start, jsons, ran, holds, some_, full, keeps⟩ := loop_selects fit maxBytes end_ within [] (by simp) (.inl rfl)
  rw [List.append_nil] at ran some_ full keeps
  refine ⟨⟨input.encode jsons start, start⟩, ?_, jsons, rfl, holds, some_, full, keeps⟩
  rw [encodeNewestBatch, show (0 : Nat) = (([] : List Utf16).map byteLength).sum from rfl, ran]
  rfl

end ConsoleBatchInput

/-! ## Pages -/

/-- A page fits, holds the newest lines before its end, and as many as fit. -/
structure ConsolePage.Sound (input : ConsoleBatchInput) (page : ConsolePage) : Prop where
  fits : page.batch.encoded.byteLength ≤ relayBrowserMaxFrameBytes
  some_ : page.batch.start < page.end_
  holds : ∃ jsons, page.batch.encoded = input.encode jsons page.batch.start ∧
    input.Holds page.batch.start page.end_ jsons ∧ input.Full relayBrowserMaxFrameBytes page.batch.start jsons

/-- Pages that hold the lines between two indexes without a gap. -/
inductive Tiles : Nat → List ConsolePage → Nat → Prop
  | nil (position : Nat) : Tiles position [] position
  | cons {page : ConsolePage} {pages : List ConsolePage} {end_ : Nat} (rest : Tiles page.end_ pages end_) :
      Tiles page.batch.start (page :: pages) end_

structure ConsoleHistory.Paged (input : ConsoleBatchInput) (end_ : Nat) (s : ConsoleHistory) : Prop where
  sound : ∀ page ∈ s.pages, page.Sound input
  tiles : Tiles s.position s.pages end_
  /-- There's a next page as long as there are lines before the position. -/
  goesOn : 0 < s.position → (s.next input .page).isSome = true
  /-- Every page is a step towards the first line. -/
  ends : s.pages.length + s.position ≤ end_

/-- A frame of the newest lines keeps to `maxBytes`, unless it holds a line at most. -/
structure EncodedConsoleBatch.Newest (input : ConsoleBatchInput) (maxBytes : Nat) (batch : EncodedConsoleBatch) : Prop where
  keeps : batch.encoded.byteLength ≤ maxBytes ∨ input.lines.length - batch.start ≤ 1
  holds : ∃ jsons, batch.encoded = input.encode jsons batch.start ∧ input.Holds batch.start input.lines.length jsons ∧
    input.Full maxBytes batch.start jsons

theorem encodeConsoleHistoryFrame_sound {input : ConsoleBatchInput} (history : input.type = .history)
    (fit : input.CutLinesFit) {end_ : Nat} (within : end_ ≤ input.lines.length) (lines : 0 < end_) :
    ∃ batch, encodeConsoleHistoryFrame input end_ = some batch ∧ ConsolePage.Sound input ⟨end_, batch⟩ := by
  have same : { input with type := ConsoleBatchType.history } = input := by rw [← history]
  obtain ⟨batch, is, jsons, encoded, holds, some_, full, keeps⟩ :=
    ConsoleBatchInput.encodeNewestBatch_builds fit relayBrowserMaxFrameBytes end_ within
  refine ⟨batch, ?_, ?_, ?_, jsons, encoded, holds, full⟩
  · rw [encodeConsoleHistoryFrame, same]
    exact is
  · rcases keeps with none_ | fits | ⟨-, fits⟩
    · exact absurd none_ (some_ lines)
    · exact encoded ▸ fits
    · exact encoded ▸ fits
  · have many := holds.many
    have positive := List.length_pos_iff.mpr (some_ lines)
    change batch.start < end_
    omega

theorem paged_of_run {input : ConsoleBatchInput} (history : input.type = .history) (fit : input.CutLinesFit) {end_ : Nat}
    (within : end_ ≤ input.lines.length) {events : List HistoryEvent} {s : ConsoleHistory}
    (ran : (consoleHistorySystem input).Run ⟨end_, []⟩ events s) : s.Paged input end_ ∧ s.position ≤ input.lines.length := by
  have goesOn : ∀ s : ConsoleHistory, s.position ≤ input.lines.length → 0 < s.position →
      (s.next input .page).isSome = true := by
    intro s within' lines
    obtain ⟨batch, is, -⟩ := encodeConsoleHistoryFrame_sound history fit within' lines
    rw [ConsoleHistory.next, if_pos lines, is]
    rfl
  suffices kept : (∀ page ∈ s.pages, page.Sound input) ∧ Tiles s.position s.pages end_ ∧
      s.pages.length + s.position ≤ end_ by
    obtain ⟨sound, tiles, ends⟩ := kept
    have within' : s.position ≤ input.lines.length := by omega
    exact ⟨⟨sound, tiles, goesOn s within', ends⟩, within'⟩
  generalize start : (⟨end_, []⟩ : ConsoleHistory) = first at ran
  induction ran with
  | nil =>
    subst start
    exact ⟨by simp, .nil _, by simp⟩
  | @snoc m s' _ event _ step ih =>
    obtain ⟨sound, tiles, ends⟩ := ih
    cases event with
    | page =>
      obtain ⟨lines, read⟩ := Option.ite_none_right_eq_some.mp step
      obtain ⟨batch, is, rfl⟩ := Option.map_eq_some_iff.mp read
      obtain ⟨batch', is', sound'⟩ :=
        encodeConsoleHistoryFrame_sound history fit (show m.position ≤ input.lines.length by omega) lines
      cases is.symm.trans is'
      have less := sound'.some_
      have tiles' : Tiles batch.start (⟨m.position, batch⟩ :: m.pages) end_ :=
        @Tiles.cons ⟨m.position, batch⟩ m.pages end_ tiles
      refine ⟨?_, tiles', ?_⟩
      · intro page member
        rcases List.mem_cons.mp member with rfl | member
        · exact sound'
        · exact sound page member
      · change batch.start < m.position at less
        simp only [List.length_cons]
        omega

/-- Pages fit, tile the lines and come to an end, and a frame of the newest lines keeps to its size. -/
theorem console_pages (input : ConsoleBatchInput) (fit : input.CutLinesFit) :
    (input.type = .history → ∀ end_ ≤ input.lines.length, ∀ (events : List HistoryEvent) (s : ConsoleHistory),
      (consoleHistorySystem input).Run ⟨end_, []⟩ events s → s.Paged input end_) ∧
    ∀ maxBytes, ∃ batch, encodeNewestConsoleBatch input maxBytes = some batch ∧ batch.Newest input maxBytes := by
  refine ⟨fun history end_ within events s ran => (paged_of_run history fit within ran).1, fun maxBytes => ?_⟩
  obtain ⟨batch, is, jsons, encoded, holds, some_, full, keeps⟩ :=
    ConsoleBatchInput.encodeNewestBatch_builds fit maxBytes input.lines.length (Nat.le_refl _)
  refine ⟨batch, is, ?_, jsons, encoded, holds, full⟩
  have many := holds.many
  rcases keeps with none_ | fits | ⟨one, -⟩
  · rw [none_, List.length_nil] at many
    exact .inr (by omega)
  · exact .inl (encoded ▸ fits)
  · exact .inr (by omega)

/-- Two lines, one of them styled. -/
def twoLines : ConsoleBatchInput where
  instanceId := .ofString "i"
  lifecycle := [⟨.started, .ofString "2026-01-01T00:00:00Z"⟩]
  lines := [{ id := .ofString "1", timestamp := none, level := .info, text := .ofString "a" },
    { id := .ofString "2", timestamp := none, level := .warn, text := .ofString "\n",
      segments := some [{ text := .ofString "\n", bold := some true }] }]
  truncated := false
  type := .history

theorem twoLines_fit : twoLines.CutLinesFit := by
  intro index line is
  match index with
  | 0 =>
    cases is
    decide +kernel
  | 1 =>
    cases is
    decide +kernel
  | _ + 2 => cases is

theorem twoLines_run : (consoleHistorySystem twoLines).Run ⟨2, []⟩ [.page]
    ((runAll (ConsoleHistory.next twoLines) ⟨2, []⟩ [.page]).get (by decide +kernel)) :=
  System.run_of_runAll (Option.some_get _).symm

theorem console_pages_twoLines : ∃ s : ConsoleHistory, s.Paged twoLines 2 ∧ s.position = 0 ∧ s.pages.length = 1 :=
  ⟨_, (console_pages twoLines twoLines_fit).1 rfl 2 (Nat.le_refl 2) [.page] _ twoLines_run, by decide +kernel,
    by decide +kernel⟩

/-- A frame without lines is its envelope, however small `maxBytes`. -/
theorem newestConsoleBatch_envelope : ¬ ∀ (input : ConsoleBatchInput) (maxBytes : Nat) (batch : EncodedConsoleBatch),
    input.CutLinesFit → encodeNewestConsoleBatch input maxBytes = some batch →
      batch.encoded.byteLength ≤ maxBytes ∨ input.lines.length - batch.start = 1 := by
  intro always
  have none_ : ({ twoLines with lines := [] } : ConsoleBatchInput).CutLinesFit := fun _ _ is => absurd is nofun
  have small := always { twoLines with lines := [] } 0
    ((encodeNewestConsoleBatch { twoLines with lines := [] } 0).get (by decide +kernel)) none_ (Option.some_get _).symm
  exact absurd small (by decide +kernel)

end Kiln.Relay
