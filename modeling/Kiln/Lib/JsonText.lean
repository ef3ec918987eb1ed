import Kiln.Lib.Decimal
import Kiln.Lib.Json
import Kiln.Lib.Utf16
import Kiln.Lib.Utf8

/-!
# JSON as text

What `JSON.stringify` writes of a value, in code units, and the bytes its text takes. A surrogate outside a pair is
escaped, so that texts can be put together without their ends forming a pair.
-/

namespace Kiln.Lib
open List

inductive JsonAtom where
  | null
  | bool (value : Bool)
  | number (value : Nat)
  | string (text : Utf16)
  deriving DecidableEq

abbrev JsonTree := Json JsonAtom

namespace Utf16

def decimal (n : Nat) : Utf16 := ofString n.repr

def isDigit (unit : UInt16) : Bool := 0x30 ≤ unit.toNat && unit.toNat ≤ 0x39

/-- The bytes of a text's UTF-8. -/
def byteLength (units : Utf16) : Nat := (Utf8.encode (decode units)).length

/-- Units that no pair is made with by what's before them. -/
def Apart (units : Utf16) : Prop := ∀ unit ∈ units.head?, isLow unit = false

instance (units : Utf16) : Decidable (Apart units) :=
  match units with
  | [] => isTrue (fun _ none_ => absurd none_ (by simp))
  | unit :: _ => decidable_of_iff (isLow unit = false) (by simp [Apart])

theorem Apart.append {units rest : Utf16} (apart : Apart units) (apart' : Apart rest) : Apart (units ++ rest) := by
  cases units with
  | nil => exact apart'
  | cons unit units => exact apart

theorem decode_append (units rest : Utf16) (apart : Apart rest) :
    decode (units ++ rest) = decode units ++ decode rest := by
  induction units using decode.induct with
  | case1 => rfl
  | case2 unit =>
    cases rest with
    | nil => rfl
    | cons next rest =>
      have low := apart next rfl
      simp [decode, low]
  | case3 unit next after pair ih =>
    rw [Bool.and_eq_true] at pair
    rw [cons_append, cons_append, decode_pair pair.1 pair.2, decode_pair pair.1 pair.2, ih, cons_append]
  | case4 unit next after pair ih =>
    rw [cons_append, cons_append, decode, if_neg pair, decode, if_neg pair, cons_append, ← ih, cons_append]

@[simp] theorem byteLength_nil : byteLength [] = 0 := rfl

theorem byteLength_append (units rest : Utf16) (apart : Apart rest) :
    byteLength (units ++ rest) = byteLength units + byteLength rest := by
  rw [byteLength, decode_append units rest apart, Utf8.encode, flatMap_append, length_append]
  rfl

theorem ofString_injective {text text' : String} (same : ofString text = ofString text') : text = text' := by
  have chars := congrArg decode same
  rw [ofString, ofString, decode_encode, decode_encode] at chars
  exact String.toList_inj.mp chars

theorem encode_digits (digits : List Char) (all : ∀ c ∈ digits, c.isDigit = true) :
    (encode digits).length = digits.length ∧ ∀ unit ∈ encode digits, isDigit unit = true := by
  induction digits with
  | nil => simp
  | cons c digits ih =>
    obtain ⟨many, rest⟩ := ih fun c member => all c (mem_cons_of_mem _ member)
    have digit := all c mem_cons_self
    simp only [Char.isDigit, ge_iff_le, Bool.and_eq_true, decide_eq_true_eq, UInt32.le_iff_toNat_le] at digit
    have low : 0x30 ≤ c.toNat := digit.1
    have high : c.toNat ≤ 0x39 := digit.2
    have one : encodeChar c = [UInt16.ofNat c.toNat] := by
      rw [encodeChar, if_pos (by omega)]
    have value : (UInt16.ofNat c.toNat).toNat = c.toNat := toNat_ofNat_of_lt (by omega)
    rw [encode_cons, one, singleton_append]
    refine ⟨by rw [length_cons, many, length_cons], fun unit member => ?_⟩
    rcases mem_cons.mp member with rfl | member
    · rw [isDigit, value, decide_eq_true low, decide_eq_true high]
      rfl
    · exact rest unit member

theorem decimal_digits (n : Nat) : ∀ unit ∈ decimal n, isDigit unit = true :=
  (encode_digits _ (repr_digits n)).2

variable {n : Nat}

theorem decimal_injective {m : Nat} (same : decimal m = decimal n) : m = n :=
  repr_injective (congrArg String.toList (ofString_injective same))

theorem decimal_ne_nil (n : Nat) : decimal n ≠ [] := by
  have many := (encode_digits _ (repr_digits n)).1
  have positive : 0 < n.repr.toList.length := by
    rw [toList_repr]
    exact Nat.length_toDigits_pos
  intro none_
  rw [decimal, ofString] at none_
  rw [none_, length_nil] at many
  omega

/-- A number below a power of ten has no more digits than it. -/
theorem length_decimal_le {width : Nat} (positive : 0 < width) (below : n < 10 ^ width) :
    (decimal n).length ≤ width := by
  have many := (encode_digits _ (repr_digits n)).1
  rw [decimal, ofString, many, toList_repr]
  exact (Nat.length_toDigits_le_iff (by decide) positive).mpr below

/-- A number ends where something that is no digit follows. -/
theorem digits_of_decimal (n : Nat) (rest : Utf16) (ends : ∀ unit ∈ rest.head?, isDigit unit = false) :
    (decimal n ++ rest).takeWhile isDigit = decimal n ∧ (decimal n ++ rest).dropWhile isDigit = rest := by
  rw [takeWhile_append_of_pos (decimal_digits n), dropWhile_append_of_pos (decimal_digits n)]
  cases rest with
  | nil => simp
  | cons unit rest =>
    have plain := ends unit rfl
    simp [plain]

theorem decimal_append_inj {m : Nat} {rest rest' : Utf16} (ends : ∀ unit ∈ rest.head?, isDigit unit = false)
    (ends' : ∀ unit ∈ rest'.head?, isDigit unit = false) (same : decimal m ++ rest = decimal n ++ rest') :
    m = n ∧ rest = rest' := by
  have first := digits_of_decimal m rest ends
  have second := digits_of_decimal n rest' ends'
  rw [same] at first
  exact ⟨decimal_injective (first.1.symm.trans second.1), first.2.symm.trans second.2⟩

theorem intercalate_cons (separator text : Utf16) (texts : List Utf16) :
    separator.intercalate (text :: texts) = text ++ texts.flatMap (separator ++ ·) := by
  induction texts generalizing text with
  | nil => simp
  | cons next texts ih => rw [intercalate_cons_cons, ih, flatMap_cons, append_assoc, append_assoc]

theorem byteLength_separated (separator : Utf16) (apart : Apart separator) (texts : List Utf16)
    (apart' : ∀ text ∈ texts, Apart text) : Apart (texts.flatMap (separator ++ ·)) ∧
      byteLength (texts.flatMap (separator ++ ·)) =
        (texts.map byteLength).sum + texts.length * byteLength separator := by
  induction texts with
  | nil => exact ⟨fun _ none_ => absurd none_ (by simp), by simp⟩
  | cons text texts ih =>
    obtain ⟨rest, sum⟩ := ih fun text member => apart' text (mem_cons_of_mem _ member)
    have first := apart' text mem_cons_self
    rw [flatMap_cons]
    refine ⟨(apart.append first).append rest, ?_⟩
    rw [byteLength_append _ _ rest, byteLength_append _ _ first, sum, map_cons, sum_cons, length_cons, Nat.succ_mul]
    omega

theorem byteLength_intercalate (separator : Utf16) (apart : Apart separator) (text : Utf16) (texts : List Utf16)
    (apart' : ∀ text ∈ texts, Apart text) :
    byteLength (separator.intercalate (text :: texts)) =
      ((text :: texts).map byteLength).sum + texts.length * byteLength separator := by
  obtain ⟨rest, sum⟩ := byteLength_separated separator apart texts apart'
  rw [intercalate_cons, byteLength_append _ _ rest, sum, map_cons, sum_cons, Nat.add_assoc]

end Utf16

/-! ## Values and their text -/

namespace JsonText

def string (text : Utf16) : JsonTree := .atom (.string text)

def word (name : String) : JsonTree := string (.ofString name)

/-- A property that's left out when it's undefined. -/
def optional (name : String) (value : Option JsonTree) : List (String × JsonTree) :=
  (value.map fun value => (name, value)).toList

def hexDigit (n : Nat) : UInt16 := UInt16.ofNat (if n < 10 then 0x30 + n else 0x57 + n)

/-- `\uXXXX` -/
def escapeHex (unit : UInt16) : Utf16 :=
  [0x5C, 0x75, hexDigit (unit.toNat / 0x1000), hexDigit (unit.toNat / 0x100 % 0x10),
    hexDigit (unit.toNat / 0x10 % 0x10), hexDigit (unit.toNat % 0x10)]

/-- What is written of a unit outside a pair. -/
def escapeUnit (unit : UInt16) : Utf16 :=
  if unit = 0x22 then [0x5C, 0x22]
  else if unit = 0x5C then [0x5C, 0x5C]
  else if unit = 0x08 then [0x5C, 0x62]
  else if unit = 0x09 then [0x5C, 0x74]
  else if unit = 0x0A then [0x5C, 0x6E]
  else if unit = 0x0C then [0x5C, 0x66]
  else if unit = 0x0D then [0x5C, 0x72]
  else if unit.toNat < 0x20 || Utf16.isHigh unit || Utf16.isLow unit then escapeHex unit
  else [unit]

def escape : Utf16 → Utf16
  | [] => []
  | [unit] => escapeUnit unit
  | unit :: next :: rest =>
      if Utf16.isHigh unit && Utf16.isLow next then unit :: next :: escape rest
      else escapeUnit unit ++ escape (next :: rest)

def quote (text : Utf16) : Utf16 := 0x22 :: (escape text ++ [0x22])

def comma : Utf16 := [0x2C]

def stringifyAtom : JsonAtom → Utf16
  | .null => .ofString "null"
  | .bool value => .ofString (if value then "true" else "false")
  | .number value => .decimal value
  | .string text => quote text

mutual
/-- `JSON.stringify` -/
def stringify : JsonTree → Utf16
  | .atom value => stringifyAtom value
  | .array items => 0x5B :: (comma.intercalate (stringifyItems items) ++ [0x5D])
  | .object fields => 0x7B :: (comma.intercalate (stringifyFields fields) ++ [0x7D])

def stringifyItems : List JsonTree → List Utf16
  | [] => []
  | item :: rest => stringify item :: stringifyItems rest

def stringifyFields : List (String × JsonTree) → List Utf16
  | [] => []
  | (name, value) :: rest => (quote (.ofString name) ++ 0x3A :: stringify value) :: stringifyFields rest
end

theorem stringifyItems_eq (items : List JsonTree) : stringifyItems items = items.map stringify := by
  induction items with
  | nil => rfl
  | cons item rest ih => rw [stringifyItems, ih, map_cons]

theorem object_apart (fields : List (String × JsonTree)) : Utf16.Apart (stringify (.object fields)) := by
  intro unit first
  rw [stringify] at first
  cases first
  rfl

/-! ## Reading quoted text -/

def hexValue (unit : UInt16) : Nat := if unit.toNat < 0x3A then unit.toNat - 0x30 else unit.toNat - 0x57

/-- The unit a short escape stands for. -/
def unescapeUnit (unit : UInt16) : UInt16 :=
  if unit = 0x62 then 0x08
  else if unit = 0x74 then 0x09
  else if unit = 0x6E then 0x0A
  else if unit = 0x66 then 0x0C
  else if unit = 0x72 then 0x0D
  else unit

/-- Reads escaped text up to its closing quote. -/
def unescape : Utf16 → Option (Utf16 × Utf16)
  | [] => none
  | unit :: rest =>
      if unit = 0x22 then some ([], rest)
      else if unit = 0x5C then
        match rest with
        | 0x75 :: a :: b :: c :: d :: rest =>
            (unescape rest).map fun (text, rest) =>
              (UInt16.ofNat (hexValue a * 0x1000 + hexValue b * 0x100 + hexValue c * 0x10 + hexValue d) :: text, rest)
        | short :: rest => (unescape rest).map fun (text, rest) => (unescapeUnit short :: text, rest)
        | [] => none
      else (unescape rest).map fun (text, rest) => (unit :: text, rest)

theorem hexValue_hexDigit {n : Nat} (small : n < 0x10) : hexValue (hexDigit n) = n := by
  have all : ∀ n : Fin 0x10, hexValue (hexDigit n) = n := by decide
  exact all ⟨n, small⟩

@[simp] theorem unescape_quote (rest : Utf16) : unescape (0x22 :: rest) = some ([], rest) := by
  rw [unescape.eq_def]
  rfl

theorem unescape_plain {unit : UInt16} (quote : unit ≠ 0x22) (slash : unit ≠ 0x5C) (rest : Utf16) :
    unescape (unit :: rest) = (unescape rest).map fun (text, rest) => (unit :: text, rest) := by
  rw [unescape.eq_def]
  simp only [quote, slash, if_false]

theorem unescape_short {unit : UInt16} (hex : unit ≠ 0x75) (rest : Utf16) :
    unescape (0x5C :: unit :: rest) = (unescape rest).map fun (text, rest) => (unescapeUnit unit :: text, rest) := by
  have slash : (0x5C : UInt16) ≠ 0x22 := by decide
  rw [unescape.eq_def]
  simp only [slash, if_false, if_true]
  split
  · rename_i same
    exact absurd (List.cons.inj same).1 hex
  · rename_i same
    cases same
    rfl
  · rename_i same
    cases same

theorem unescape_hex (unit : UInt16) (rest : Utf16) :
    unescape (escapeHex unit ++ rest) = (unescape rest).map fun (text, rest) => (unit :: text, rest) := by
  have below := unit.toNat_lt
  have value : UInt16.ofNat (unit.toNat / 0x1000 * 0x1000 + unit.toNat / 0x100 % 0x10 * 0x100 +
      unit.toNat / 0x10 % 0x10 * 0x10 + unit.toNat % 0x10) = unit := by
    have sum : unit.toNat / 0x1000 * 0x1000 + unit.toNat / 0x100 % 0x10 * 0x100 + unit.toNat / 0x10 % 0x10 * 0x10 +
        unit.toNat % 0x10 = unit.toNat := by omega
    rw [sum, UInt16.ofNat_toNat]
  have slash : (0x5C : UInt16) ≠ 0x22 := by decide
  rw [escapeHex]
  simp only [cons_append, nil_append]
  rw [unescape.eq_def]
  simp only [slash, if_false, if_true]
  rw [hexValue_hexDigit (by omega), hexValue_hexDigit (by omega), hexValue_hexDigit (by omega),
    hexValue_hexDigit (by omega), value]

theorem unescape_escapeUnit (unit : UInt16) (rest : Utf16) :
    unescape (escapeUnit unit ++ rest) = (unescape rest).map fun (text, rest) => (unit :: text, rest) := by
  unfold escapeUnit
  split
  · rename_i is
    subst is
    exact unescape_short (by decide) rest
  split
  · rename_i is
    subst is
    exact unescape_short (by decide) rest
  split
  · rename_i is
    subst is
    exact unescape_short (by decide) rest
  split
  · rename_i is
    subst is
    exact unescape_short (by decide) rest
  split
  · rename_i is
    subst is
    exact unescape_short (by decide) rest
  split
  · rename_i is
    subst is
    exact unescape_short (by decide) rest
  split
  · rename_i is
    subst is
    exact unescape_short (by decide) rest
  split
  · exact unescape_hex unit rest
  · rename_i quote slash _ _ _ _ _ _
    exact unescape_plain quote slash rest

/-- What's escaped reads as itself. -/
theorem unescape_escape (text rest : Utf16) : unescape (escape text ++ 0x22 :: rest) = some (text, rest) := by
  induction text using escape.induct with
  | case1 =>
    rw [escape, nil_append, unescape_quote]
  | case2 unit =>
    rw [escape, unescape_escapeUnit, unescape_quote]
    rfl
  | case3 unit next after pair ih =>
    have surrogates := pair
    simp only [Utf16.isHigh, Utf16.isLow, Bool.and_eq_true, decide_eq_true_eq] at surrogates
    have plain : ∀ unit : UInt16, 0xD800 ≤ unit.toNat → unit ≠ 0x22 ∧ unit ≠ 0x5C := by
      intro unit large
      constructor
      · rintro rfl
        exact absurd large (by decide)
      · rintro rfl
        exact absurd large (by decide)
    have first := plain unit surrogates.1.1
    have second := plain next (Nat.le_trans (by decide) surrogates.2.1)
    rw [escape, if_pos pair, cons_append, cons_append, unescape_plain first.1 first.2,
      unescape_plain second.1 second.2, ih]
    rfl
  | case4 unit next after pair ih =>
    rw [escape, if_neg pair, append_assoc, unescape_escapeUnit, ih]
    rfl

theorem quote_append_inj {text text' rest rest' : Utf16} (same : quote text ++ rest = quote text' ++ rest') :
    text = text' ∧ rest = rest' := by
  have reads : ∀ text rest : Utf16, quote text ++ rest = 0x22 :: (escape text ++ 0x22 :: rest) := by
    intro text rest
    simp [quote]
  rw [reads, reads] at same
  have equal := unescape_escape text rest
  rw [(List.cons.inj same).2, unescape_escape] at equal
  exact ⟨(Prod.mk.inj (Option.some.inj equal)).1.symm, (Prod.mk.inj (Option.some.inj equal)).2.symm⟩

end JsonText

end Kiln.Lib
