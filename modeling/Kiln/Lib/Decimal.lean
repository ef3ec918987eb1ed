import Mathlib

/-!
# Decimal digits

What `Nat.repr` writes: digits only, and another text for each number.
-/

namespace Kiln.Lib

theorem toList_repr (n : Nat) : n.repr.toList = Nat.toDigits 10 n := by rw [Nat.repr, String.toList_ofList]

theorem repr_digits (n : Nat) : ∀ c ∈ n.repr.toList, c.isDigit = true := by
  rw [toList_repr]
  exact fun c member => Nat.isDigit_of_mem_toDigits (by decide) (by decide) member

theorem repr_injective {m n : Nat} (same : m.repr.toList = n.repr.toList) : m = n := by
  rw [toList_repr, toList_repr] at same
  rw [← Nat.ofDigitChars_ten_toDigits (n := m), same, Nat.ofDigitChars_ten_toDigits]

/-- A number ends where something that is no digit follows. -/
theorem repr_append_inj {m n : Nat} {c : Char} {after after' : List Char} (plain : c.isDigit = false)
    (same : m.repr.toList ++ c :: after = n.repr.toList ++ c :: after') : m = n ∧ after = after' := by
  have taken : ∀ (k : Nat) (rest : List Char), (k.repr.toList ++ c :: rest).takeWhile (·.isDigit) = k.repr.toList := by
    intro k rest
    rw [List.takeWhile_append_of_pos (repr_digits k), List.takeWhile_cons, plain]
    simp
  have equal : m.repr.toList = n.repr.toList := by rw [← taken m after, same, taken]
  refine ⟨repr_injective equal, ?_⟩
  rw [equal] at same
  exact (List.cons.inj (List.append_cancel_left same)).2

end Kiln.Lib
