import Mathlib

/-!
# Registers that keep the highest

A register takes one message at a time and keeps it unless what it holds ranks higher. Whatever
the order messages come in, and however often, it ends holding one of the highest of them: the
highest, where messages of one rank are equal.
-/

namespace Kiln.Lib.Register

variable {α β : Type*} [LinearOrder β]

/-- What a register holds once it has taken a message. -/
def keep (rank : α → β) (held : Option α) (message : α) : Option α :=
  match held with
  | none => some message
  | some above => if rank message < rank above then some above else some message

/-- What a register holds once it has taken several, oldest first. -/
def keepAll (rank : α → β) (held : Option α) (messages : List α) : Option α :=
  messages.foldl (keep rank) held

variable {rank : α → β} {held : Option α} {message above : α} {messages others : List α}

@[simp] theorem keep_none : keep rank none message = some message := rfl

theorem keep_of_lt (below : rank message < rank above) : keep rank (some above) message = some above := if_pos below

theorem keep_of_le (reaches : rank above ≤ rank message) :
    keep rank (some above) message = some message := if_neg (not_lt.mpr reaches)

@[simp] theorem keepAll_nil : keepAll rank held [] = held := rfl

@[simp] theorem keepAll_cons :
    keepAll rank held (message :: messages) = keepAll rank (keep rank held message) messages := rfl

theorem keepAll_append : keepAll rank held (messages ++ others) = keepAll rank (keepAll rank held messages) others :=
  List.foldl_append ..

/-- A register that holds something goes on to hold that or a message, none of them above it. -/
theorem highest_of_keepAll {last : α} (ends : keepAll rank (some above) messages = some last) :
    (last = above ∨ last ∈ messages) ∧ rank above ≤ rank last ∧ ∀ message ∈ messages, rank message ≤ rank last := by
  induction messages generalizing above with
  | nil =>
    cases ends
    exact ⟨Or.inl rfl, le_rfl, by simp⟩
  | cons message rest ih =>
    rw [keepAll_cons] at ends
    rcases lt_or_ge (rank message) (rank above) with below | reaches
    · rw [keep_of_lt below] at ends
      obtain ⟨source, least, greatest⟩ := ih ends
      refine ⟨source.imp_right (List.mem_cons_of_mem _), least, ?_⟩
      rw [List.forall_mem_cons]
      exact ⟨below.le.trans least, greatest⟩
    rw [keep_of_le reaches] at ends
    obtain ⟨source, least, greatest⟩ := ih ends
    refine ⟨Or.inr ?_, reaches.trans least, ?_⟩
    · rcases source with rfl | listed
      · exact List.mem_cons_self
      · exact List.mem_cons_of_mem _ listed
    · rw [List.forall_mem_cons]
      exact ⟨least, greatest⟩

/-- A register that holds something never lets go of it for nothing. -/
theorem keepAll_some (rank : α → β) (above : α) (messages : List α) :
    ∃ last, keepAll rank (some above) messages = some last := by
  induction messages generalizing above with
  | nil => exact ⟨above, rfl⟩
  | cons message rest ih =>
    rw [keepAll_cons, keep]
    split <;> exact ih _

/-- From an empty register, what is held is a message none of the others is above. -/
theorem highest (rank : α → β) (some' : messages ≠ []) :
    ∃ last, keepAll rank none messages = some last ∧ last ∈ messages ∧
      ∀ message ∈ messages, rank message ≤ rank last := by
  cases messages with
  | nil => exact absurd rfl some'
  | cons first rest =>
    obtain ⟨last, ends⟩ := keepAll_some rank first rest
    obtain ⟨source, least, greatest⟩ := highest_of_keepAll ends
    refine ⟨last, ends, ?_, List.forall_mem_cons.mpr ⟨least, greatest⟩⟩
    rcases source with rfl | listed
    · exact List.mem_cons_self
    · exact List.mem_cons_of_mem _ listed

/-- Two registers that took the same messages hold the same, in whatever order and however often they came, where
messages of one rank are equal. -/
theorem keepAll_congr (same : ∀ message, message ∈ messages ↔ message ∈ others)
    (distinct : ∀ first ∈ messages, ∀ second ∈ messages, rank first = rank second →
      first = second) :
    keepAll rank none messages = keepAll rank none others := by
  by_cases empty : messages = []
  · subst empty
    have none' : others = [] := List.eq_nil_iff_forall_not_mem.mpr fun message listed =>
      absurd ((same message).mpr listed) List.not_mem_nil
    rw [none']
  have some' : others ≠ [] := by
    obtain ⟨message, listed⟩ := List.exists_mem_of_ne_nil _ empty
    exact List.ne_nil_of_mem ((same message).mp listed)
  obtain ⟨first, endsFirst, listedFirst, aboveFirst⟩ := highest rank empty
  obtain ⟨second, endsSecond, listedSecond, aboveSecond⟩ := highest rank some'
  have level : rank first = rank second :=
    le_antisymm (aboveSecond first ((same first).mp listedFirst)) (aboveFirst second ((same second).mpr listedSecond))
  rw [endsFirst, endsSecond, distinct first listedFirst second ((same second).mpr listedSecond) level]

end Kiln.Lib.Register
