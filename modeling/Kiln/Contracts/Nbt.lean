import Mathlib

/-!
# Tags of the NBT format

`packages/contracts/src/snbt.ts:3-41`. A tag is over the types of its texts and of its floats and
doubles.
-/

namespace Kiln.Contracts
open List

/-- `NbtTagType`. -/
inductive NbtTagType where
  | end' | byte | short | int | long | float | double | byteArray | string | list | compound
  | intArray | longArray
  deriving DecidableEq, Repr

/-- The type of a list's elements, or that they have no one type. -/
inductive NbtElementType where
  | of (type : NbtTagType)
  | mixed
  deriving DecidableEq, Repr

/-- `NbtTag`. -/
inductive NbtTag (Text Float Double : Type) where
  | byte (value : Int)
  | short (value : Int)
  | int (value : Int)
  | long (value : Int)
  | float (value : Float)
  | double (value : Double)
  | byteArray (value : List Int)
  | string (value : Text)
  | list (elementType : NbtElementType) (value : List (NbtTag Text Float Double))
  | compound (value : List (Text × NbtTag Text Float Double))
  | intArray (value : List Int)
  | longArray (value : List Int)

namespace NbtTag

variable {Text Text' Float Double : Type}

def type : NbtTag Text Float Double → NbtTagType
  | byte _ => .byte
  | short _ => .short
  | int _ => .int
  | long _ => .long
  | float _ => .float
  | double _ => .double
  | byteArray _ => .byteArray
  | string _ => .string
  | list .. => .list
  | compound _ => .compound
  | intArray _ => .intArray
  | longArray _ => .longArray

/-- What holds of a tag where it holds of the tags in it. -/
@[elab_as_elim, induction_eliminator]
theorem induct {motive : NbtTag Text Float Double → Prop}
    (byte : ∀ value, motive (.byte value)) (short : ∀ value, motive (.short value))
    (int : ∀ value, motive (.int value)) (long : ∀ value, motive (.long value))
    (float : ∀ value, motive (.float value)) (double : ∀ value, motive (.double value))
    (byteArray : ∀ value, motive (.byteArray value)) (string : ∀ value, motive (.string value))
    (list : ∀ elementType value, (∀ tag ∈ value, motive tag) → motive (.list elementType value))
    (compound : ∀ value, (∀ entry ∈ value, motive entry.2) → motive (.compound value))
    (intArray : ∀ value, motive (.intArray value))
    (longArray : ∀ value, motive (.longArray value)) (tag : NbtTag Text Float Double) : motive tag := by
  refine @NbtTag.rec Text Float Double motive (fun value => ∀ tag ∈ value, motive tag)
    (fun value => ∀ entry ∈ value, motive entry.2) (fun entry => motive entry.2) byte short int long float double byteArray string list compound intArray longArray ?_ ?_ ?_ ?_ ?_ tag
  · exact nofun
  · intro tag value first rest other there
    rcases mem_cons.mp there with rfl | there
    · exact first
    · exact rest other there
  · exact nofun
  · intro entry value first rest other there
    rcases mem_cons.mp there with rfl | there
    · exact first
    · exact rest other there
  · exact fun _ _ holds => holds

theorem sizeOf_element {value : List (NbtTag Text Float Double)} {tag : NbtTag Text Float Double}
    {elementType : NbtElementType} (there : tag ∈ value) :
    sizeOf tag < sizeOf (NbtTag.list elementType value) := by
  have less := sizeOf_lt_of_mem there
  simp only [NbtTag.list.sizeOf_spec]
  omega

theorem sizeOf_entry {value : List (Text × NbtTag Text Float Double)}
    {entry : Text × NbtTag Text Float Double} (there : entry ∈ value) :
    sizeOf entry.2 < sizeOf (NbtTag.compound value) := by
  have less := sizeOf_lt_of_mem there
  obtain ⟨name, tag⟩ := entry
  simp only [NbtTag.compound.sizeOf_spec, Prod.mk.sizeOf_spec] at *
  omega

/-- A tag with its texts changed. -/
def map (f : Text → Text') : NbtTag Text Float Double → NbtTag Text' Float Double
  | byte value => .byte value
  | short value => .short value
  | int value => .int value
  | long value => .long value
  | float value => .float value
  | double value => .double value
  | byteArray value => .byteArray value
  | string value => .string (f value)
  | list elementType value => .list elementType (value.map (map f))
  | compound value => .compound (value.map fun entry => (f entry.1, map f entry.2))
  | intArray value => .intArray value
  | longArray value => .longArray value
decreasing_by
  · exact sizeOf_element ‹_›
  · exact sizeOf_entry ‹_›

/-- The texts of a tag: its strings, and the names of its compounds' entries. -/
def texts : NbtTag Text Float Double → List Text
  | string value => [value]
  | list _ value => value.flatMap texts
  | compound value => value.flatMap fun entry => entry.1 :: texts entry.2
  | _ => []
decreasing_by
  · exact sizeOf_element ‹_›
  · exact sizeOf_entry ‹_›

/-- A tag with `end` as the element type of each empty list in it. -/
def emptied : NbtTag Text Float Double → NbtTag Text Float Double
  | list elementType value =>
      .list (if value.isEmpty then .of .end' else elementType) (value.map emptied)
  | compound value => .compound (value.map fun entry => (entry.1, emptied entry.2))
  | tag => tag
decreasing_by
  · exact sizeOf_element ‹_›
  · exact sizeOf_entry ‹_›

/-! ## What changes and what stays -/

@[simp] theorem type_map (f : Text → Text') (tag : NbtTag Text Float Double) : (tag.map f).type = tag.type := by
  cases tag <;> simp only [map] <;> rfl

theorem list_map_eq_self {α : Type} {f : α → α} {xs : List α} : xs.map f = xs ↔ ∀ x ∈ xs, f x = x := by
  conv => lhs; rhs; rw [← map_id xs]
  exact map_inj_left

theorem map_eq_self {f : Text → Text} {tag : NbtTag Text Float Double} :
    tag.map f = tag ↔ ∀ text ∈ tag.texts, f text = text := by
  induction tag with
  | string value => simp [map, texts]
  | list elementType value ih =>
    simp only [map, texts, list.injEq, true_and, list_map_eq_self, mem_flatMap]
    constructor
    · rintro same text ⟨tag, there, among⟩
      exact (ih tag there).mp (same tag there) text among
    · intro same tag there
      exact (ih tag there).mpr fun text among => same text ⟨tag, there, among⟩
  | compound value ih =>
    simp only [map, texts, compound.injEq, list_map_eq_self, mem_flatMap, mem_cons]
    constructor
    · rintro same text ⟨entry, there, rfl | among⟩
      · exact congrArg Prod.fst (same entry there)
      · exact (ih entry there).mp (congrArg Prod.snd (same entry there)) text among
    · intro same entry there
      refine Prod.ext (same entry.1 ⟨entry, there, .inl rfl⟩) ?_
      exact (ih entry there).mpr fun text among => same text ⟨entry, there, .inr among⟩
  | _ => simp [map, texts]

@[simp] theorem texts_emptied (tag : NbtTag Text Float Double) : tag.emptied.texts = tag.texts := by
  induction tag with
  | list elementType value ih =>
    simp only [emptied, texts, flatMap_map]
    exact flatMap_congr ih
  | compound value ih =>
    simp only [emptied, texts, flatMap_map]
    exact flatMap_congr fun entry there => by rw [ih entry there]
  | _ => simp only [emptied]

theorem emptied_map (f : Text → Text') (tag : NbtTag Text Float Double) : (tag.map f).emptied = tag.emptied.map f := by
  induction tag with
  | list elementType value ih =>
    simp only [emptied, map, map_map, isEmpty_map]
    exact congrArg _ (map_congr_left ih)
  | compound value ih =>
    simp only [emptied, map, map_map]
    exact congrArg _ (map_congr_left fun entry there => by simp [ih entry there])
  | _ => simp only [emptied, map]

end NbtTag

end Kiln.Contracts
