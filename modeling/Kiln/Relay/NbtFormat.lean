import Kiln.Contracts.Nbt
import Kiln.Lib.BigEndian
import Kiln.Lib.Reader
import Kiln.Lib.Utf16
import Kiln.Lib.Utf8

/-!
# Binary NBT

`apps/relay/src/nbt.ts`. Floats and doubles are their bits. The reader and the writer are over what
makes texts of bytes and bytes of texts, the source's being `textDecoder` and `utf8Bytes`, and go down
as many levels as the nesting limit leaves room for.
-/

namespace Kiln.Relay
open Kiln.Lib Kiln.Contracts

/-- A tag with bits for its floats and doubles. -/
abbrev NbtBits (Text : Type) := NbtTag Text UInt32 UInt64

/-- `NamedNbt` (`nbt.ts:4-7`). -/
structure NamedNbt (Text : Type) where
  name : Text
  tag : NbtBits Text

inductive NbtError where
  /-- What `nbt.ts` throws. -/
  | error (message : String)
  /-- What a `Buffer` throws of a number that doesn't fit. -/
  | outOfRange
  deriving DecidableEq, Repr

/-- `tagTypeById` (`nbt.ts:9-23`). -/
def tagTypeById : List NbtTagType :=
  [.end', .byte, .short, .int, .long, .float, .double, .byteArray, .string, .list, .compound, .intArray, .longArray]

/-- `tagIdByType` (`nbt.ts:25`). -/
def tagIdByType (type : NbtTagType) : Nat := tagTypeById.idxOf type

/-- `maxNbtDepth` (`nbt.ts:27`). -/
def maxNbtDepth : Nat := 512

/-- `Number.isFinite` of a float's bits. -/
def isFiniteFloat (bits : UInt32) : Bool := bits.toNat / 2 ^ 23 % 2 ^ 8 ≠ 2 ^ 8 - 1

/-- `Number.isFinite` of a double's bits. -/
def isFiniteDouble (bits : UInt64) : Bool := bits.toNat / 2 ^ 52 % 2 ^ 11 ≠ 2 ^ 11 - 1

/-! ## Text -/

/-- What makes texts of bytes, and bytes of texts. -/
structure TextCodec (Text : Type) where
  decode : List UInt8 → Option Text
  encode : Text → List UInt8

/-- `new TextDecoder("utf-8", { fatal: true })` (`nbt.ts:26`), which takes a byte order mark that text begins with for
no part of it. -/
def textDecoder (bytes : List UInt8) : Option Utf16 :=
  (Utf8.decode bytes).map fun text =>
    Utf16.encode (if text.head? = some (Char.ofNat 0xFEFF) then text.tail else text)

/-- `Buffer.from(value, "utf8")`. -/
def utf8Bytes (value : Utf16) : List UInt8 := Utf8.encode (Utf16.decode value)

def utf8Text : TextCodec Utf16 := ⟨textDecoder, utf8Bytes⟩

/-! ## `NbtReader` (`nbt.ts:46-231`) -/

abbrev NbtReader := Reader UInt8 NbtError

namespace NbtReader

def readBytes (length : Nat) : NbtReader (List UInt8) :=
  Reader.take (.error "NBT file ended before the current tag was complete") length

def readUnsigned (width : Nat) : NbtReader Nat := BigEndian.toNat <$> readBytes width

def readSigned (width : Nat) : NbtReader Int := BigEndian.toInt <$> readBytes width

/-- The type that an ID is for. -/
def typeOf (allowEnd : Bool) (id : Nat) : Option NbtTagType :=
  tagTypeById[id]?.filter fun type => allowEnd || type ≠ .end'

def readType (allowEnd : Bool) : NbtReader NbtTagType := do
  let id ← readUnsigned 1
  match typeOf allowEnd id with
  | some type => pure type
  | none => throw (.error ("Invalid NBT tag type " ++ toString id))

def readFloat : NbtReader UInt32 := do
  let bits ← readUnsigned 4
  if isFiniteFloat (.ofNat bits) then pure (.ofNat bits)
  else throw (.error "NBT contains a non-finite float")

def readDouble : NbtReader UInt64 := do
  let bits ← readUnsigned 8
  if isFiniteDouble (.ofNat bits) then pure (.ofNat bits)
  else throw (.error "NBT contains a non-finite double")

/-- `readLength`, in a file of `size` bytes. -/
def readLength (size : Nat) (label : String) : NbtReader Nat := do
  let length ← readSigned 4
  if length < 0 then throw (.error ("NBT " ++ label ++ " has a negative length"))
  else if (size : Int) < length then throw (.error ("NBT " ++ label ++ " length exceeds the file size"))
  else pure length.toNat

/-- A byte of a byte array. -/
def signedByte (value : UInt8) : Int :=
  if 127 < value.toNat then value.toNat - 256 else value.toNat

section

variable {Text : Type} (text : TextCodec Text) (size : Nat)

def readString : NbtReader Text := do
  let length ← readUnsigned 2
  let bytes ← readBytes length
  match text.decode bytes with
  | some value => pure value
  | none => throw (.error "NBT contains an invalid UTF-8 string")

/-- The loop over a compound's entries. Each takes a byte at least, so that `fuel` is what is left of the file. -/
def readEntries (readPayload : NbtTagType → NbtReader (NbtBits Text)) : Nat → NbtReader (List (Text × NbtBits Text))
  | 0 => throw (.error "NBT file ended before the current tag was complete")
  | fuel + 1 => do
      let childType ← readType true
      if childType = .end' then pure []
      else do
        let name ← readString text
        let tag ← readPayload childType
        let entries ← readEntries readPayload fuel
        pure ((name, tag) :: entries)

/-- `readPayload` at a depth that leaves `room` levels. -/
def readPayload : Nat → NbtTagType → NbtReader (NbtBits Text)
  | 0, _ => throw (.error "NBT nesting exceeds 512 levels")
  | _ + 1, .end' => throw (.error "TAG_End cannot be used as a value")
  | _ + 1, .byte => .byte <$> readSigned 1
  | _ + 1, .short => .short <$> readSigned 2
  | _ + 1, .int => .int <$> readSigned 4
  | _ + 1, .long => .long <$> readSigned 8
  | _ + 1, .float => .float <$> readFloat
  | _ + 1, .double => .double <$> readDouble
  | _ + 1, .byteArray => do
      let length ← readLength size "byte array"
      let bytes ← readBytes length
      pure (.byteArray (bytes.map signedByte))
  | _ + 1, .string => .string <$> readString text
  | room + 1, .list => do
      let elementType ← readType true
      let length ← readLength size "list"
      if 0 < length ∧ elementType = .end' then
        throw (.error "A non-empty NBT list cannot contain TAG_End")
      else .list (.of elementType) <$> Reader.times (readPayload room elementType) length
  | room + 1, .compound => do
      let left ← get
      .compound <$> readEntries text (readPayload room) left.length
  | _ + 1, .intArray => do
      let length ← readLength size "int array"
      .intArray <$> Reader.times (readSigned 4) length
  | _ + 1, .longArray => do
      let length ← readLength size "long array"
      .longArray <$> Reader.times (readSigned 8) length

/-- What `decodeNbt` reads before the end. -/
def readNamed : NbtReader (NamedNbt Text) := do
  let type ← readType false
  let name ← readString text
  let tag ← readPayload text size (maxNbtDepth + 1) type
  pure ⟨name, tag⟩

end

end NbtReader

/-- `decodeNbt` (`nbt.ts:29-36`). -/
def decodeNbt {Text : Type} (text : TextCodec Text) (source : List UInt8) :
    Except NbtError (NamedNbt Text) :=
  match (NbtReader.readNamed text source.length).run source with
  | .error error => .error error
  | .ok (named, []) => .ok named
  | .ok (_, _ :: _) => .error (.error "NBT file has trailing binary data")

/-! ## `NbtWriter` (`nbt.ts:233-370`) -/

namespace NbtWriter

def writeType (type : NbtTagType) : List UInt8 := BigEndian.ofNat 1 (tagIdByType type)

/-- A signed number in so many bytes. -/
def writeSigned (width : Nat) (value : Int) : Except NbtError (List UInt8) :=
  if BigEndian.InRange width value then .ok (BigEndian.ofInt width value) else .error .outOfRange

def writeFloat (bits : UInt32) : Except NbtError (List UInt8) :=
  if isFiniteFloat bits then .ok (BigEndian.ofNat 4 bits.toNat)
  else .error (.error "NBT floats must be finite")

def writeDouble (bits : UInt64) : Except NbtError (List UInt8) :=
  if isFiniteDouble bits then .ok (BigEndian.ofNat 8 bits.toNat)
  else .error (.error "NBT doubles must be finite")

def maxNbtLength : Nat := 2147483647

def writeLength (value : Nat) : Except NbtError (List UInt8) :=
  if maxNbtLength < value then .error (.error "NBT collection length is out of range")
  else writeSigned 4 value

/-- `value & 0xff`. -/
def unsignedByte (value : Int) : UInt8 := UInt8.ofNat (value % 256).toNat

section

-- `empty` is the type that an empty list of some element type is written with.
variable {Text : Type} (encode : Text → List UInt8) (empty : NbtElementType → NbtTagType)

def writeString (value : Text) : Except NbtError (List UInt8) :=
  let encoded := encode value
  if 65535 < encoded.length then .error (.error "NBT strings cannot exceed 65,535 UTF-8 bytes")
  else .ok (BigEndian.ofNat 2 encoded.length ++ encoded)

/-- The type that a list is written with: its first element's, or `empty`'s if it has none. -/
def listType (elementType : NbtElementType) (value : List (NbtBits Text)) : NbtTagType :=
  (value.head?.map NbtTag.type).getD (empty elementType)

/-- An entry of a compound. -/
def writeEntry (writePayload : NbtBits Text → Except NbtError (List UInt8))
    (entry : Text × NbtBits Text) : Except NbtError (List UInt8) := do
  let name ← writeString encode entry.1
  let tag ← writePayload entry.2
  pure (writeType entry.2.type ++ name ++ tag)

/-- `writePayload` at a depth that leaves `room` levels. -/
def writePayload : Nat → NbtBits Text → Except NbtError (List UInt8)
  | 0, _ => .error (.error "NBT nesting exceeds 512 levels")
  | _ + 1, .byte value => writeSigned 1 value
  | _ + 1, .short value => writeSigned 2 value
  | _ + 1, .int value => writeSigned 4 value
  | _ + 1, .long value => writeSigned 8 value
  | _ + 1, .float value => writeFloat value
  | _ + 1, .double value => writeDouble value
  | _ + 1, .byteArray value => do
      let length ← writeLength value.length
      pure (length ++ value.map unsignedByte)
  | _ + 1, .string value => writeString encode value
  | room + 1, .list elementType value =>
      let type := listType empty elementType value
      if elementType = .mixed ∨ value.any (·.type ≠ type) then
        .error (.error "Binary NBT lists must contain one tag type")
      else do
        let length ← writeLength value.length
        let elements ← value.mapM (writePayload room)
        pure (writeType type ++ length ++ elements.flatten)
  | room + 1, .compound value => do
      let entries ← value.mapM (writeEntry encode (writePayload room))
      pure (entries.flatten ++ writeType .end')
  | _ + 1, .intArray value => do
      let length ← writeLength value.length
      let elements ← value.mapM (writeSigned 4)
      pure (length ++ elements.flatten)
  | _ + 1, .longArray value => do
      let length ← writeLength value.length
      let elements ← value.mapM (writeSigned 8)
      pure (length ++ elements.flatten)

/-- A file whose empty lists are written with `empty`. -/
def writeNamed (root : NamedNbt Text) : Except NbtError (List UInt8) := do
  let name ← writeString encode root.name
  let tag ← writePayload encode empty (maxNbtDepth + 1) root.tag
  pure (writeType root.tag.type ++ name ++ tag)

end

end NbtWriter

/-- `encodeNbt` (`nbt.ts:38-44`). -/
def encodeNbt {Text : Type} (text : TextCodec Text) (root : NamedNbt Text) :
    Except NbtError (List UInt8) :=
  NbtWriter.writeNamed text.encode (fun _ => .end') root

end Kiln.Relay
