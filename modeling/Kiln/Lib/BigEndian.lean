import Mathlib

/-!
# Integers as big-endian bytes

An integer as a fixed number of bytes, the most significant first, unsigned or in two's complement,
and back.
-/

namespace Kiln.Lib

namespace BigEndian

/-- The last `width` bytes of a number. -/
def ofNat : Nat → Nat → List UInt8
  | 0, _ => []
  | width + 1, n => UInt8.ofNat (n / 256 ^ width) :: ofNat width n

/-- The number that bytes spell. -/
def toNat : List UInt8 → Nat
  | [] => 0
  | byte :: bytes => byte.toNat * 256 ^ bytes.length + toNat bytes

@[simp] theorem length_ofNat (width n : Nat) : (ofNat width n).length = width := by
  induction width with
  | zero => rfl
  | succ width ih => simp [ofNat, ih]

theorem toNat_lt (bytes : List UInt8) : toNat bytes < 256 ^ bytes.length := by
  induction bytes with
  | nil => exact Nat.one_pos
  | cons byte bytes ih =>
    have small : byte.toNat + 1 ≤ 256 := byte.toNat_lt
    have scaled := Nat.mul_le_mul_right (256 ^ bytes.length) small
    rw [toNat, List.length_cons, Nat.pow_succ, Nat.mul_comm _ 256]
    rw [Nat.add_mul, Nat.one_mul] at scaled
    omega

/-- What is written is read, but for what doesn't fit. -/
theorem toNat_ofNat (width n : Nat) : toNat (ofNat width n) = n % 256 ^ width := by
  induction width with
  | zero => simp [ofNat, toNat, Nat.mod_one]
  | succ width ih =>
    rw [ofNat, toNat, ih, length_ofNat, UInt8.toNat_ofNat', @Nat.pow_succ 256 width, @Nat.mod_mul (256 ^ width) 256 n]
    ring

theorem toNat_ofNat_of_lt {width n : Nat} (small : n < 256 ^ width) : toNat (ofNat width n) = n := by
  rw [toNat_ofNat, Nat.mod_eq_of_lt small]

/-- Only its last bytes are written of a number. -/
theorem ofNat_add_mul (width n k : Nat) : ofNat width (k * 256 ^ width + n) = ofNat width n := by
  induction width generalizing k with
  | zero => rfl
  | succ width ih =>
    have split : k * 256 ^ (width + 1) + n = k * 256 * 256 ^ width + n := by ring
    have quotient : (k * 256 * 256 ^ width + n) / 256 ^ width = k * 256 + n / 256 ^ width := by
      rw [Nat.add_comm, Nat.add_mul_div_right _ _ (Nat.pow_pos (by decide)), Nat.add_comm]
    rw [ofNat, ofNat, split, ih (k * 256), quotient]
    congr 1
    apply UInt8.toNat_inj.mp
    simp [UInt8.toNat_ofNat']

/-- What is read is written. -/
theorem ofNat_toNat (bytes : List UInt8) : ofNat bytes.length (toNat bytes) = bytes := by
  induction bytes with
  | nil => rfl
  | cons byte bytes ih =>
    have quotient : (byte.toNat * 256 ^ bytes.length + toNat bytes) / 256 ^ bytes.length = byte.toNat := by
      rw [Nat.add_comm, Nat.add_mul_div_right _ _ (Nat.pow_pos (by decide)),
        Nat.div_eq_of_lt (toNat_lt bytes), Nat.zero_add]
    rw [List.length_cons, ofNat, toNat, ofNat_add_mul, ih, quotient, UInt8.ofNat_toNat]

/-! ## Two's complement -/

/-- An integer's last `width` bytes. -/
def ofInt (width : Nat) (value : Int) : List UInt8 :=
  ofNat width (value % (256 ^ width : Nat)).toNat

/-- The signed integer that bytes spell. -/
def toInt (bytes : List UInt8) : Int :=
  (toNat bytes : Int).bmod (256 ^ bytes.length)

/-- The signed integers of so many bytes. -/
def InRange (width : Nat) (value : Int) : Prop :=
  -((256 ^ width / 2 : Nat) : Int) ≤ value ∧ value < (256 ^ width / 2 : Nat)

instance (width : Nat) (value : Int) : Decidable (InRange width value) :=
  inferInstanceAs (Decidable (_ ∧ _))

@[simp] theorem length_ofInt (width : Nat) (value : Int) : (ofInt width value).length = width :=
  length_ofNat ..

theorem pow_even (width : Nat) : 256 ^ (width + 1) = 2 * (256 ^ (width + 1) / 2) := by
  rw [Nat.pow_succ]
  omega

theorem toInt_ofInt {width : Nat} {value : Int} (inRange : InRange (width + 1) value) :
    toInt (ofInt (width + 1) value) = value := by
  obtain ⟨low, high⟩ := inRange
  have even := pow_even width
  have pos : 0 < 256 ^ (width + 1) := Nat.pow_pos (by decide)
  generalize size : 256 ^ (width + 1) = m at *
  have nonneg : 0 ≤ value % (m : Int) := Int.emod_nonneg _ (by omega)
  have less : value % (m : Int) < m := Int.emod_lt_of_pos _ (by omega)
  rw [toInt, length_ofInt, ofInt, size, toNat_ofNat_of_lt (by rw [size]; omega),
    Int.toNat_of_nonneg nonneg, Int.emod_bmod]
  exact Int.bmod_eq_of_le (by omega) (by omega)

theorem ofInt_toInt (bytes : List UInt8) : ofInt bytes.length (toInt bytes) = bytes := by
  have small := toNat_lt bytes
  rw [ofInt, toInt, Int.bmod_emod, Int.emod_eq_of_lt (by omega) (by omega), Int.toNat_natCast, ofNat_toNat]

theorem toInt_inRange {bytes : List UInt8} (some' : bytes ≠ []) :
    InRange bytes.length (toInt bytes) := by
  obtain ⟨byte, bytes, rfl⟩ := List.exists_cons_of_ne_nil some'
  rw [InRange, toInt, List.length_cons]
  have even := pow_even bytes.length
  have pos : 0 < 256 ^ (bytes.length + 1) := Nat.pow_pos (by decide)
  generalize 256 ^ (bytes.length + 1) = m at *
  have low := @Int.le_bmod (toNat (byte :: bytes)) m pos
  have high := @Int.bmod_lt (toNat (byte :: bytes)) m pos
  constructor <;> omega

end BigEndian

end Kiln.Lib
