import Mathlib

/-!
# Probing by a stride

Stepping through the residues of a number by a stride that is coprime with it visits each of them once. The first free
one of a list of candidates is found if there is one.
-/

namespace Kiln.Lib

/-- The residues that are visited, in their order. -/
def probes (count start stride : Nat) : List Nat :=
  (List.range count).map fun offset => (start + offset * stride) % count

variable {stride count start : Nat}

theorem probes_lt {index : Nat} (member : index ∈ probes count start stride) : index < count := by
  obtain ⟨offset, below, rfl⟩ := List.mem_map.mp member
  exact Nat.mod_lt _ (Nat.zero_lt_of_lt (List.mem_range.mp below))

theorem nodup_probes (coprime : Nat.Coprime count stride) : (probes count start stride).Nodup := by
  refine List.Nodup.map_on ?_ List.nodup_range
  intro m below n below' same
  have multiples : m * stride ≡ n * stride [MOD count] := Nat.ModEq.add_left_cancel' start same
  have equal : m ≡ n [MOD count] := Nat.ModEq.cancel_right_of_coprime coprime multiples
  exact equal.eq_of_lt_of_lt (List.mem_range.mp below) (List.mem_range.mp below')

/-- Each residue is visited exactly once. -/
theorem probes_perm (coprime : Nat.Coprime count stride) : (probes count start stride).Perm (List.range count) := by
  have within : (probes count start stride) ⊆ List.range count :=
    fun index member => List.mem_range.mpr (probes_lt member)
  refine ((nodup_probes coprime).subperm within).perm_of_length_le ?_
  rw [probes, List.length_map]

/-- The first of some candidates that is free. -/
def firstFree {α : Type*} (taken : α → Bool) (candidates : List α) : Option α := candidates.find? fun c => !taken c

theorem firstFree_eq_some {α : Type*} {taken : α → Bool} {candidates : List α} {found : α}
    (is : firstFree taken candidates = some found) : found ∈ candidates ∧ taken found = false :=
  ⟨List.mem_of_find?_eq_some is, by simpa using List.find?_some is⟩

theorem firstFree_eq_none {α : Type*} {taken : α → Bool} {candidates : List α} :
    firstFree taken candidates = none ↔ ∀ candidate ∈ candidates, taken candidate = true := by
  rw [firstFree, List.find?_eq_none]
  simp

end Kiln.Lib
