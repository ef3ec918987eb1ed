import Mathlib

/-!
# Text as UTF-8 bytes

The core library's UTF-8 over lists of bytes and of characters.
-/

namespace Kiln.Lib

namespace Utf8

def encode (text : List Char) : List UInt8 := text.flatMap String.utf8EncodeChar

/-- The characters that bytes are UTF-8 for. -/
def decode (bytes : List UInt8) : Option (List Char) :=
  (ByteArray.utf8Decode? ⟨bytes.toArray⟩).map Array.toList

theorem toByteArray_eq (bytes : List UInt8) : bytes.toByteArray = ⟨bytes.toArray⟩ :=
  ByteArray.ext List.data_toByteArray

theorem utf8Encode_eq (text : List Char) : text.utf8Encode = ⟨(encode text).toArray⟩ :=
  toByteArray_eq _

theorem append_eq (bytes rest : List UInt8) :
    (⟨(bytes ++ rest).toArray⟩ : ByteArray) = ⟨bytes.toArray⟩ ++ ⟨rest.toArray⟩ := by
  rw [← toByteArray_eq, ← toByteArray_eq, ← toByteArray_eq, List.toByteArray_append]

@[simp] theorem decode_encode (text : List Char) : decode (encode text) = some text := by
  rw [decode, ← utf8Encode_eq, List.utf8Decode?_utf8Encode, Option.map_some]

theorem encode_of_decode {bytes : List UInt8} {text : List Char} (is : decode bytes = some text) :
    encode text = bytes := by
  obtain ⟨array, decoded, -⟩ := Option.map_eq_some_iff.mp is
  obtain ⟨text', same⟩ := ByteArray.isSome_utf8Decode?_iff.mp (Option.isSome_of_eq_some decoded)
  rw [utf8Encode_eq, ByteArray.mk.injEq] at same
  have bytesAre : bytes = encode text' := congrArg Array.toList same
  rw [bytesAre, decode_encode] at is
  rw [bytesAre, Option.some.inj is]

theorem decode_encodeChar_append (c : Char) (rest : List UInt8) :
    decode (String.utf8EncodeChar c ++ rest) = (decode rest).map (c :: ·) := by
  have one : (⟨(String.utf8EncodeChar c).toArray⟩ : ByteArray) = [c].utf8Encode := by
    rw [utf8Encode_eq, encode, List.flatMap_singleton]
  rw [decode, append_eq, one, ByteArray.utf8Decode?_utf8Encode_singleton_append, decode]
  cases ByteArray.utf8Decode? ⟨rest.toArray⟩ with
  | none => rfl
  | some array => simp

end Utf8

end Kiln.Lib
