import Mathlib

/-!
# Text as UTF-16 code units

Characters as one code unit or a surrogate pair, and what units spell. A surrogate outside a pair spells
the replacement character, so that only text with none of those is what its characters encode to.
-/

namespace Kiln.Lib

/-- Text as its code units. -/
abbrev Utf16 := List UInt16

namespace Utf16

def isHigh (unit : UInt16) : Bool := 0xD800 ≤ unit.toNat && unit.toNat < 0xDC00

def isLow (unit : UInt16) : Bool := 0xDC00 ≤ unit.toNat && unit.toNat < 0xE000

def encodeChar (c : Char) : Utf16 :=
  if c.toNat < 0x10000 then [UInt16.ofNat c.toNat]
  else [UInt16.ofNat (0xD800 + (c.toNat - 0x10000) / 0x400), UInt16.ofNat (0xDC00 + (c.toNat - 0x10000) % 0x400)]

def encode (text : List Char) : Utf16 := text.flatMap encodeChar

def ofString (text : String) : Utf16 := encode text.toList

/-- What a unit spells outside a pair. -/
def decodeUnit (unit : UInt16) : Char :=
  if isHigh unit || isLow unit then Char.ofNat 0xFFFD else Char.ofNat unit.toNat

def decodePair (high low : UInt16) : Char :=
  Char.ofNat (0x10000 + (high.toNat - 0xD800) * 0x400 + (low.toNat - 0xDC00))

def decode : Utf16 → List Char
  | [] => []
  | [unit] => [decodeUnit unit]
  | unit :: next :: rest =>
      if isHigh unit && isLow next then decodePair unit next :: decode rest
      else decodeUnit unit :: decode (next :: rest)

/-- No surrogate is outside a pair. -/
def isWellFormed : Utf16 → Bool
  | [] => true
  | [unit] => !(isHigh unit || isLow unit)
  | unit :: next :: rest =>
      if isHigh unit && isLow next then isWellFormed rest
      else !(isHigh unit || isLow unit) && isWellFormed (next :: rest)

/-! ## Characters -/

theorem toNat_ofNat_of_isValidChar {n : Nat} (valid : n.isValidChar) : (Char.ofNat n).toNat = n := by
  rw [Char.ofNat, dif_pos valid]
  rfl

theorem char_cases (c : Char) : c.toNat < 0xD800 ∨ 0xDFFF < c.toNat ∧ c.toNat < 0x110000 := c.valid

theorem toNat_ofNat_of_lt {n : Nat} (small : n < 0x10000) : (UInt16.ofNat n).toNat = n := by
  rw [UInt16.toNat_ofNat', Nat.mod_eq_of_lt small]

@[simp] theorem encode_nil : encode [] = [] := rfl

@[simp] theorem encode_cons (c : Char) (text : List Char) : encode (c :: text) = encodeChar c ++ encode text :=
  List.flatMap_cons

theorem decode_cons {unit : UInt16} {rest : Utf16} (high : isHigh unit = false) :
    decode (unit :: rest) = decodeUnit unit :: decode rest := by
  cases rest with
  | nil => rfl
  | cons next rest => simp [decode, high]

theorem decode_pair {high low : UInt16} {rest : Utf16} (isHigh' : isHigh high = true)
    (isLow' : isLow low = true) : decode (high :: low :: rest) = decodePair high low :: decode rest := by
  simp [decode, isHigh', isLow']

/-- A character's units spell it. -/
theorem decode_encodeChar_append (c : Char) (rest : Utf16) : decode (encodeChar c ++ rest) = c :: decode rest := by
  have range := char_cases c
  unfold encodeChar
  split
  · rename_i small
    have is := toNat_ofNat_of_lt small
    have high : isHigh (UInt16.ofNat c.toNat) = false := by
      rw [isHigh, is]
      simp only [Bool.and_eq_false_iff, decide_eq_false_iff_not]
      omega
    have low : isLow (UInt16.ofNat c.toNat) = false := by
      rw [isLow, is]
      simp only [Bool.and_eq_false_iff, decide_eq_false_iff_not]
      omega
    rw [List.singleton_append, decode_cons high, decodeUnit, high, low, is, Char.ofNat_toNat]
    rfl
  · rename_i large
    have high := @toNat_ofNat_of_lt (0xD800 + (c.toNat - 0x10000) / 0x400) (by omega)
    have low := @toNat_ofNat_of_lt (0xDC00 + (c.toNat - 0x10000) % 0x400) (by omega)
    have sum : 0x10000 + (0xD800 + (c.toNat - 0x10000) / 0x400 - 0xD800) * 0x400 +
        (0xDC00 + (c.toNat - 0x10000) % 0x400 - 0xDC00) = c.toNat := by omega
    rw [List.cons_append, List.singleton_append, decode_pair, decodePair, high, low, sum, Char.ofNat_toNat]
    · rw [isHigh, high]
      simp only [Bool.and_eq_true, decide_eq_true_eq]
      omega
    · rw [isLow, low]
      simp only [Bool.and_eq_true, decide_eq_true_eq]
      omega

@[simp] theorem decode_encode (text : List Char) : decode (encode text) = text := by
  induction text with
  | nil => rfl
  | cons c text ih => rw [encode_cons, decode_encodeChar_append, ih]

/-! ## Units -/

theorem encodeChar_decodePair {high low : UInt16} (isHigh' : isHigh high = true)
    (isLow' : isLow low = true) : encodeChar (decodePair high low) = [high, low] := by
  simp only [isHigh, isLow, Bool.and_eq_true, decide_eq_true_eq] at isHigh' isLow'
  have is : (decodePair high low).toNat = 0x10000 + (high.toNat - 0xD800) * 0x400 + (low.toNat - 0xDC00) :=
    toNat_ofNat_of_isValidChar (.inr (by omega))
  have first : 0xD800 + ((decodePair high low).toNat - 0x10000) / 0x400 = high.toNat := by omega
  have second : 0xDC00 + ((decodePair high low).toNat - 0x10000) % 0x400 = low.toNat := by omega
  rw [encodeChar, if_neg (by omega), first, second, UInt16.ofNat_toNat, UInt16.ofNat_toNat]

theorem encodeChar_decodeUnit (unit : UInt16) :
    encodeChar (decodeUnit unit) = [if isHigh unit || isLow unit then 0xFFFD else unit] := by
  have small := unit.toNat_lt
  unfold decodeUnit
  split
  · rfl
  · rename_i plain
    simp only [isHigh, isLow, Bool.or_eq_true, Bool.and_eq_true, decide_eq_true_eq] at plain
    have is : (Char.ofNat unit.toNat).toNat = unit.toNat :=
      toNat_ofNat_of_isValidChar (by unfold Nat.isValidChar; omega)
    rw [encodeChar, is, if_pos small, UInt16.ofNat_toNat]

/-- A surrogate isn't the replacement character. -/
theorem replacement_ne {unit : UInt16} (surrogate : (isHigh unit || isLow unit) = true) : unit ≠ 0xFFFD := by
  rintro rfl
  cases surrogate

/-- Spelling keeps as many units. -/
theorem length_encode_decode (units : Utf16) : (encode (decode units)).length = units.length := by
  induction units using decode.induct with
  | case1 => rfl
  | case2 unit => simp [decode, encodeChar_decodeUnit]
  | case3 unit next rest pair ih =>
    rw [Bool.and_eq_true] at pair
    rw [decode_pair pair.1 pair.2, encode_cons, encodeChar_decodePair pair.1 pair.2, List.length_append, ih]
    simp only [List.length_cons, List.length_nil]
    omega
  | case4 unit next rest pair ih =>
    rw [decode, if_neg pair, encode_cons, encodeChar_decodeUnit, List.length_append, ih]
    simp only [List.length_cons, List.length_nil]
    omega

theorem encode_decode_iff {units : Utf16} : encode (decode units) = units ↔ isWellFormed units = true := by
  induction units using decode.induct with
  | case1 => simp [decode, isWellFormed]
  | case2 unit =>
    rw [decode, encode_cons, encodeChar_decodeUnit, isWellFormed]
    cases surrogate : isHigh unit || isLow unit with
    | true => simpa using (replacement_ne surrogate).symm
    | false => simp
  | case3 unit next rest pair ih =>
    have both := pair
    rw [Bool.and_eq_true] at both
    rw [decode_pair both.1 both.2, encode_cons, encodeChar_decodePair both.1 both.2, isWellFormed, if_pos pair, ← ih]
    simp
  | case4 unit next rest pair ih =>
    rw [decode, if_neg pair, encode_cons, encodeChar_decodeUnit, isWellFormed, if_neg pair]
    cases surrogate : isHigh unit || isLow unit with
    | true => simpa using fun same => absurd same.symm (replacement_ne surrogate)
    | false => simpa using ih

/-! ## White space -/

/-- White space, and what ends a line. -/
def isSpace (unit : UInt16) : Bool :=
  [0x09, 0x0A, 0x0B, 0x0C, 0x0D, 0x20, 0xA0, 0x1680, 0x2028, 0x2029, 0x202F, 0x205F, 0x3000, 0xFEFF].contains unit.toNat ||
    0x2000 ≤ unit.toNat && unit.toNat ≤ 0x200A

/-- `String.prototype.trim` -/
def trim (text : Utf16) : Utf16 := (text.dropWhile isSpace).rdropWhile isSpace

theorem trim_trim (text : Utf16) : trim (trim text) = trim text := by
  have front : (trim text).dropWhile isSpace = trim text := by
    rw [List.dropWhile_eq_self_iff]
    intro some_
    have starts : trim text <+: text.dropWhile isSpace := List.rdropWhile_prefix _ _
    have longer : 0 < (text.dropWhile isSpace).length := Nat.lt_of_lt_of_le some_ starts.length_le
    have first : (trim text)[0] = (text.dropWhile isSpace)[0] := starts.getElem some_
    rw [first]
    exact (List.dropWhile_eq_self_iff.mp (List.dropWhile_idempotent isSpace text)) longer
  rw [trim, front, trim, List.rdropWhile_idempotent]

end Utf16

end Kiln.Lib
