import Mathlib

/-!
# Lists through partial functions

What a list reads once a partial function has been run over all of it, and when it can be.
-/

namespace Kiln.Lib

variable {α β : Type*}

variable {f : α → Option β} {xs : List α}

theorem mapM_cons_eq_some {x : α} {ys : List β} :
    (x :: xs).mapM f = some ys ↔ ∃ y rest, f x = some y ∧ xs.mapM f = some rest ∧ ys = y :: rest := by
  rw [List.mapM_cons]
  simp only [Option.pure_def, Option.bind_eq_bind, Option.bind_eq_some_iff, Option.some.injEq]
  constructor
  · rintro ⟨y, first, rest, others, rfl⟩
    exact ⟨y, rest, first, others, rfl⟩
  · rintro ⟨y, rest, first, others, rfl⟩
    exact ⟨y, first, rest, others, rfl⟩

/-- The members of what a partial function made of a list. -/
theorem mem_of_mapM {ys : List β} (h : xs.mapM f = some ys) {y : β} : y ∈ ys ↔ ∃ x ∈ xs, f x = some y := by
  induction xs generalizing ys with
  | nil =>
    obtain rfl : ys = [] := by simpa using h.symm
    simp
  | cons x xs ih =>
    obtain ⟨z, rest, first, others, rfl⟩ := mapM_cons_eq_some.mp h
    rw [List.mem_cons, ih others]
    constructor
    · rintro (rfl | ⟨w, member, made⟩)
      · exact ⟨x, List.mem_cons_self, first⟩
      · exact ⟨w, List.mem_cons_of_mem _ member, made⟩
    · rintro ⟨w, member, made⟩
      rcases List.mem_cons.mp member with rfl | member
      · exact Or.inl (Option.some.inj (made.symm.trans first))
      · exact Or.inr ⟨w, member, made⟩

/-- A partial function runs over a list that it is defined on all of. -/
theorem mapM_isSome : (xs.mapM f).isSome = true ↔ ∀ x ∈ xs, (f x).isSome = true := by
  induction xs with
  | nil => simp
  | cons x xs ih =>
    rw [List.forall_mem_cons, ← ih]
    constructor
    · intro defined
      obtain ⟨ys, run⟩ := Option.isSome_iff_exists.mp defined
      obtain ⟨y, rest, first, others, -⟩ := mapM_cons_eq_some.mp run
      simp [first, others]
    · rintro ⟨first, others⟩
      obtain ⟨y, first⟩ := Option.isSome_iff_exists.mp first
      obtain ⟨rest, others⟩ := Option.isSome_iff_exists.mp others
      rw [mapM_cons_eq_some.mpr ⟨y, rest, first, others, rfl⟩]
      rfl

end Kiln.Lib
