import Kiln.Relay.NbtFormat

/-!
# What is read and written of NBT

What the writer writes of a well-formed tag is read as that tag, its texts as their bytes are read; and
what is read of a file is what the file was written from, when texts are read as their bytes.
-/

namespace Kiln.Relay
open Kiln.Lib Kiln.Contracts Reader NbtTag BigEndian

/-- A tag that the format has bytes for, within `room` levels: its numbers and lengths in range, its lists of one type,
its texts as `textOk` says. -/
def NbtWellFormed {Text : Type} (textOk : Text → Prop) : Nat → NbtBits Text → Prop
  | 0, _ => False
  | _ + 1, .byte value => InRange 1 value
  | _ + 1, .short value => InRange 2 value
  | _ + 1, .int value => InRange 4 value
  | _ + 1, .long value => InRange 8 value
  | _ + 1, .float value => isFiniteFloat value = true
  | _ + 1, .double value => isFiniteDouble value = true
  | _ + 1, .byteArray value =>
      value.length ≤ NbtWriter.maxNbtLength ∧ ∀ number ∈ value, InRange 1 number
  | _ + 1, .string value => textOk value
  | room + 1, .list elementType value =>
      value.length ≤ NbtWriter.maxNbtLength ∧ elementType ≠ .mixed ∧
        ∀ tag ∈ value, elementType = .of tag.type ∧ NbtWellFormed textOk room tag
  | room + 1, .compound value =>
      ∀ entry ∈ value, textOk entry.1 ∧ NbtWellFormed textOk room entry.2
  | _ + 1, .intArray value =>
      value.length ≤ NbtWriter.maxNbtLength ∧ ∀ number ∈ value, InRange 4 number
  | _ + 1, .longArray value =>
      value.length ≤ NbtWriter.maxNbtLength ∧ ∀ number ∈ value, InRange 8 number

namespace NbtReader
open NbtWriter

variable {rest source : List UInt8}

/-! ## Types, numbers and lengths -/

variable {type : NbtTagType} {allowEnd : Bool}

theorem typeOf_tagIdByType (allowed : type = .end' → allowEnd = true) :
    typeOf allowEnd (tagIdByType type) = some type := by
  cases allowEnd with
  | true => cases type <;> rfl
  | false =>
    cases type with
    | end' => exact nomatch allowed rfl
    | _ => rfl

theorem tagIdByType_of_typeOf {id : Nat} (is : typeOf allowEnd id = some type) :
    tagIdByType type = id ∧ (type = .end' → allowEnd = true) := by
  obtain ⟨there, allowed⟩ := Option.filter_eq_some_iff.mp is
  obtain ⟨within, is⟩ := List.getElem?_eq_some_iff.mp there
  refine ⟨?_, ?_⟩
  · rw [tagIdByType, ← is]
    exact List.Nodup.idxOf_getElem (by decide) id within
  · rintro rfl
    simpa using allowed

variable {length : Nat}

theorem reads_bytes {value : List UInt8} :
    Reads (readBytes length) source value rest ↔ source = value ++ rest ∧ value.length = length :=
  reads_take

variable {width : Nat}

theorem reads_unsigned {value : Nat} : Reads (readUnsigned width) source value rest ↔
      ∃ bytes, source = bytes ++ rest ∧ bytes.length = width ∧ toNat bytes = value := by
  rw [readUnsigned, reads_map]
  simp only [reads_bytes, and_assoc]

theorem readUnsigned_ofNat {value : Nat} (small : value < 256 ^ width) :
    Reads (readUnsigned width) (ofNat width value ++ rest) value rest :=
  reads_unsigned.mpr ⟨_, rfl, length_ofNat .., toNat_ofNat_of_lt small⟩

theorem ofNat_of_readUnsigned {value : Nat} (reads : Reads (readUnsigned width) source value rest) :
    source = ofNat width value ++ rest ∧ value < 256 ^ width := by
  obtain ⟨bytes, rfl, rfl, rfl⟩ := reads_unsigned.mp reads
  exact ⟨by rw [ofNat_toNat], toNat_lt bytes⟩

theorem readType_writeType (allowed : type = .end' → allowEnd = true) :
    Reads (readType allowEnd) (writeType type ++ rest) type rest := by
  have small : tagIdByType type < 256 ^ 1 := by
    cases type <;> decide
  refine (readUnsigned_ofNat small).bind ?_
  rw [typeOf_tagIdByType allowed]
  exact reads_pure.mpr ⟨rfl, rfl⟩

theorem writeType_of_readType (reads : Reads (readType allowEnd) source type rest) :
    source = writeType type ++ rest ∧ (type = .end' → allowEnd = true) := by
  obtain ⟨id, middle, first, after⟩ := reads_bind.mp reads
  obtain ⟨rfl, -⟩ := ofNat_of_readUnsigned first
  split at after
  · rename_i type' is
    obtain ⟨rfl, rfl⟩ := reads_pure.mp after
    obtain ⟨rfl, allowed⟩ := tagIdByType_of_typeOf is
    exact ⟨rfl, allowed⟩
  · exact absurd after not_reads_throw

variable {value : Int}

theorem writeSigned_eq_ok {bytes : List UInt8} :
    writeSigned width value = .ok bytes ↔ InRange width value ∧ bytes = ofInt width value := by
  unfold writeSigned
  split
  · rename_i inRange
    rw [Except.ok.injEq]
    exact ⟨fun same => ⟨inRange, same.symm⟩, fun same => same.2.symm⟩
  · rename_i out
    exact ⟨nofun, fun same => absurd same.1 out⟩

theorem readSigned_ofInt (inRange : InRange (width + 1) value) :
    Reads (readSigned (width + 1)) (ofInt (width + 1) value ++ rest) value rest :=
  reads_map.mpr ⟨_, reads_bytes.mpr ⟨rfl, length_ofInt ..⟩, toInt_ofInt inRange⟩

theorem ofInt_of_readSigned (reads : Reads (readSigned (width + 1)) source value rest) :
    source = ofInt (width + 1) value ++ rest ∧ InRange (width + 1) value := by
  obtain ⟨bytes, first, rfl⟩ := reads_map.mp reads
  obtain ⟨rfl, length⟩ := reads_bytes.mp first
  rw [← length, ofInt_toInt]
  exact ⟨rfl, toInt_inRange (List.ne_nil_of_length_eq_add_one length)⟩

theorem readFloat_ofNat {bits : UInt32} (finite : isFiniteFloat bits = true) :
    Reads readFloat (ofNat 4 bits.toNat ++ rest) bits rest := by
  refine (readUnsigned_ofNat bits.toNat_lt).bind ?_
  rw [UInt32.ofNat_toNat, if_pos finite]
  exact reads_pure.mpr ⟨rfl, rfl⟩

theorem ofNat_of_readFloat {bits : UInt32} (reads : Reads readFloat source bits rest) :
    source = ofNat 4 bits.toNat ++ rest ∧ isFiniteFloat bits = true := by
  obtain ⟨value, middle, first, after⟩ := reads_bind.mp reads
  obtain ⟨rfl, small⟩ := ofNat_of_readUnsigned first
  split at after
  · rename_i finite
    obtain ⟨rfl, rfl⟩ := reads_pure.mp after
    refine ⟨?_, finite⟩
    rw [UInt32.toNat_ofNat', Nat.mod_eq_of_lt (show value < 2 ^ 32 from small)]
  · exact absurd after not_reads_throw

theorem readDouble_ofNat {bits : UInt64} (finite : isFiniteDouble bits = true) :
    Reads readDouble (ofNat 8 bits.toNat ++ rest) bits rest := by
  refine (readUnsigned_ofNat bits.toNat_lt).bind ?_
  rw [UInt64.ofNat_toNat, if_pos finite]
  exact reads_pure.mpr ⟨rfl, rfl⟩

theorem ofNat_of_readDouble {bits : UInt64} (reads : Reads readDouble source bits rest) :
    source = ofNat 8 bits.toNat ++ rest ∧ isFiniteDouble bits = true := by
  obtain ⟨value, middle, first, after⟩ := reads_bind.mp reads
  obtain ⟨rfl, small⟩ := ofNat_of_readUnsigned first
  split at after
  · rename_i finite
    obtain ⟨rfl, rfl⟩ := reads_pure.mp after
    refine ⟨?_, finite⟩
    rw [UInt64.toNat_ofNat', Nat.mod_eq_of_lt (show value < 2 ^ 64 from small)]
  · exact absurd after not_reads_throw

theorem lengthInRange : InRange 4 length ↔ length ≤ maxNbtLength := by
  simp only [InRange, maxNbtLength]
  omega

theorem writeLength_eq_ok {bytes : List UInt8} :
    writeLength length = .ok bytes ↔ length ≤ maxNbtLength ∧ bytes = ofInt 4 length := by
  unfold writeLength
  split
  · rename_i long
    exact ⟨nofun, fun same => absurd same.1 (Nat.not_le.mpr long)⟩
  · rw [writeSigned_eq_ok, lengthInRange]

theorem readLength_ofInt {size : Nat} {label : String} (inRange : length ≤ maxNbtLength) (fits : length ≤ size) :
    Reads (readLength size label) (ofInt 4 length ++ rest) length rest := by
  refine (readSigned_ofInt (lengthInRange.mpr inRange)).bind ?_
  rw [if_neg (by omega), if_neg (by omega), Int.toNat_natCast]
  exact reads_pure.mpr ⟨rfl, rfl⟩

theorem ofInt_of_readLength {size : Nat} {label : String} (reads : Reads (readLength size label) source length rest) :
    source = ofInt 4 length ++ rest ∧ length ≤ maxNbtLength := by
  obtain ⟨value, middle, first, after⟩ := reads_bind.mp reads
  obtain ⟨rfl, inRange⟩ := ofInt_of_readSigned first
  split at after
  · exact absurd after not_reads_throw
  rename_i nonneg
  split at after
  · exact absurd after not_reads_throw
  · obtain ⟨rfl, rfl⟩ := reads_pure.mp after
    have is : (value.toNat : Int) = value := Int.toNat_of_nonneg (by omega)
    refine ⟨by rw [is], lengthInRange.mp ?_⟩
    rw [is]
    exact inRange

theorem signedByte_eq (byte : UInt8) : signedByte byte = BigEndian.toInt [byte] := by
  have small := byte.toNat_lt
  have is : BigEndian.toInt [byte] = (byte.toNat : Int).bmod 256 := by
    simp [BigEndian.toInt, BigEndian.toNat]
  rw [is, Int.bmod_def, signedByte]
  split <;> split <;> omega

theorem ofInt_one (value : Int) : ofInt 1 value = [unsignedByte value] := by
  simp [ofInt, ofNat, unsignedByte]

theorem signedByte_unsignedByte (inRange : InRange 1 value) : signedByte (unsignedByte value) = value := by
  rw [signedByte_eq, ← ofInt_one]
  exact toInt_ofInt inRange

theorem unsignedByte_signedByte (byte : UInt8) : unsignedByte (signedByte byte) = byte := by
  have is := ofInt_toInt [byte]
  rw [List.length_singleton, ofInt_one, ← signedByte_eq] at is
  exact (List.cons.inj is).1

theorem signedByte_inRange (byte : UInt8) : InRange 1 (signedByte byte) := by
  rw [signedByte_eq]
  exact @toInt_inRange [byte] (List.cons_ne_nil _ _)

/-! ## Texts and payloads -/

section

variable {Text : Type}

theorem writeString_eq_ok {encode : Text → List UInt8} {value : Text} {bytes : List UInt8} :
    writeString encode value = .ok bytes ↔ (encode value).length ≤ 65535 ∧
      bytes = ofNat 2 (encode value).length ++ encode value := by
  unfold writeString
  dsimp only
  split
  · rename_i long
    exact ⟨nofun, fun same => absurd same.1 (Nat.not_le.mpr long)⟩
  · rename_i short
    rw [Except.ok.injEq]
    exact ⟨fun same => ⟨Nat.not_lt.mp short, same.symm⟩, fun same => same.2.symm⟩

theorem readString_append {text : TextCodec Text} {bytes : List UInt8} {value : Text}
    (short : bytes.length ≤ 65535) (decodes : text.decode bytes = some value) :
    Reads (readString text) (ofNat 2 bytes.length ++ bytes ++ rest) value rest := by
  rw [List.append_assoc]
  refine (readUnsigned_ofNat (by omega)).bind ((reads_bytes.mpr ⟨rfl, rfl⟩).bind ?_)
  rw [decodes]
  exact reads_pure.mpr ⟨rfl, rfl⟩

theorem append_of_readString {text : TextCodec Text} {value : Text}
    (reads : Reads (readString text) source value rest) :
    ∃ bytes, source = ofNat 2 bytes.length ++ bytes ++ rest ∧ bytes.length ≤ 65535 ∧
      text.decode bytes = some value := by
  obtain ⟨length, middle, first, after⟩ := reads_bind.mp reads
  obtain ⟨rfl, small⟩ := ofNat_of_readUnsigned first
  obtain ⟨bytes, middle', second, last⟩ := reads_bind.mp after
  obtain ⟨rfl, rfl⟩ := reads_bytes.mp second
  split at last
  · rename_i decodes
    obtain ⟨rfl, rfl⟩ := reads_pure.mp last
    exact ⟨bytes, by rw [List.append_assoc], by omega, decodes⟩
  · exact absurd last not_reads_throw

variable {encode : Text → List UInt8} {empty : NbtElementType → NbtTagType} {room : Nat} {bytes : List UInt8}

theorem writeEntry_eq_ok {write : NbtBits Text → Except NbtError (List UInt8)} {entry : Text × NbtBits Text} :
    writeEntry encode write entry = .ok bytes ↔ ∃ name tag, writeString encode entry.1 = .ok name ∧
      write entry.2 = .ok tag ∧ bytes = writeType entry.2.type ++ name ++ tag := by
  simp only [writeEntry, bind_eq_ok, pure_eq_ok, eq_comm (b := bytes)]
  exact ⟨fun ⟨name, first, tag, second, is⟩ => ⟨name, tag, first, second, is⟩,
    fun ⟨name, tag, first, second, is⟩ => ⟨name, first, tag, second, is⟩⟩

theorem writeList_eq_ok {elementType : NbtElementType} {value : List (NbtBits Text)} :
    writePayload encode empty (room + 1) (.list elementType value) = .ok bytes ↔
      elementType ≠ .mixed ∧ (∀ tag ∈ value, tag.type = listType empty elementType value) ∧
        value.length ≤ maxNbtLength ∧
        (∀ tag ∈ value, writePayload encode empty room tag = .ok (written (writePayload encode empty room tag))) ∧
        bytes = writeType (listType empty elementType value) ++ ofInt 4 value.length ++
          value.flatMap fun tag => written (writePayload encode empty room tag) := by
  rw [writePayload]
  split
  · rename_i refused
    constructor
    · exact nofun
    · rintro ⟨one, same, -⟩
      rcases refused with mixed | other
      · exact absurd mixed one
      · obtain ⟨tag, there, differs⟩ := List.any_eq_true.mp other
        exact absurd (same tag there) (of_decide_eq_true differs)
  rename_i accepted
  rw [not_or] at accepted
  have same : ∀ tag ∈ value, tag.type = listType empty elementType value := by
    intro tag there
    by_contra differs
    exact accepted.2 (List.any_eq_true.mpr ⟨tag, there, decide_eq_true differs⟩)
  simp only [bind_eq_ok, pure_eq_ok, writeLength_eq_ok, mapM_eq_ok]
  constructor
  · rintro ⟨length, ⟨inRange, rfl⟩, elements, ⟨all, rfl⟩, rfl⟩
    exact ⟨accepted.1, same, inRange, all, by rw [List.flatMap_def]⟩
  · rintro ⟨-, -, inRange, all, rfl⟩
    exact ⟨_, ⟨inRange, rfl⟩, _, ⟨all, rfl⟩, by rw [List.flatMap_def]⟩

theorem writeCompound_eq_ok {value : List (Text × NbtBits Text)} :
    writePayload encode empty (room + 1) (.compound value) = .ok bytes ↔
      (∀ entry ∈ value, writeEntry encode (writePayload encode empty room) entry =
        .ok (written (writeEntry encode (writePayload encode empty room) entry))) ∧
      bytes = (value.flatMap fun entry =>
        written (writeEntry encode (writePayload encode empty room) entry)) ++ writeType .end' := by
  rw [writePayload]
  simp only [bind_eq_ok, pure_eq_ok, mapM_eq_ok]
  constructor
  · rintro ⟨entries, ⟨all, rfl⟩, rfl⟩
    exact ⟨all, by rw [List.flatMap_def]⟩
  · rintro ⟨all, rfl⟩
    exact ⟨_, ⟨all, rfl⟩, by rw [List.flatMap_def]⟩

theorem writeNumbers_eq_ok {width : Nat} {value : List Int} {parts : List (List UInt8)} :
    value.mapM (writeSigned width) = .ok parts ↔ (∀ number ∈ value, InRange width number) ∧
        parts = value.map (ofInt width) := by
  have one : ∀ number, writeSigned width number = .ok (written (writeSigned width number)) ↔ InRange width number := by
    intro number
    unfold writeSigned
    split
    · rename_i inRange
      exact ⟨fun _ => inRange, fun _ => rfl⟩
    · rename_i out
      exact ⟨nofun, fun inRange => absurd inRange out⟩
  rw [mapM_eq_ok]
  simp only [one]
  refine and_congr_right fun all => ?_
  have same : (value.map fun number => written (writeSigned width number)) = value.map (ofInt width) := by
    refine List.map_congr_left fun number there => ?_
    rw [writeSigned, if_pos (all number there)]
    rfl
  rw [same]

theorem writePayload_pos {tag : NbtBits Text} (wrote : writePayload encode empty room tag = .ok bytes) :
    0 < bytes.length := by
  cases room with
  | zero => cases wrote
  | succ room =>
    cases tag with
    | byte value =>
      rw [(writeSigned_eq_ok.mp wrote).2, length_ofInt]
      decide
    | short value =>
      rw [(writeSigned_eq_ok.mp wrote).2, length_ofInt]
      decide
    | int value =>
      rw [(writeSigned_eq_ok.mp wrote).2, length_ofInt]
      decide
    | long value =>
      rw [(writeSigned_eq_ok.mp wrote).2, length_ofInt]
      decide
    | float value =>
      rw [writePayload, writeFloat] at wrote
      split at wrote
      · rw [← Except.ok.inj wrote, length_ofNat]
        decide
      · cases wrote
    | double value =>
      rw [writePayload, writeDouble] at wrote
      split at wrote
      · rw [← Except.ok.inj wrote, length_ofNat]
        decide
      · cases wrote
    | string value =>
      rw [(writeString_eq_ok.mp wrote).2, List.length_append, length_ofNat]
      omega
    | list elementType value =>
      rw [(writeList_eq_ok.mp wrote).2.2.2.2]
      simp only [List.length_append, writeType, length_ofNat]
      omega
    | compound value =>
      rw [(writeCompound_eq_ok.mp wrote).2]
      simp only [List.length_append, writeType, length_ofNat]
      omega
    | byteArray value =>
      obtain ⟨length, first, is⟩ := bind_eq_ok.mp wrote
      rw [← pure_eq_ok.mp is, (writeLength_eq_ok.mp first).2, List.length_append, length_ofInt]
      omega
    | intArray value =>
      obtain ⟨length, first, after⟩ := bind_eq_ok.mp wrote
      obtain ⟨elements, -, is⟩ := bind_eq_ok.mp after
      rw [← pure_eq_ok.mp is, (writeLength_eq_ok.mp first).2, List.length_append, length_ofInt]
      omega
    | longArray value =>
      obtain ⟨length, first, after⟩ := bind_eq_ok.mp wrote
      obtain ⟨elements, -, is⟩ := bind_eq_ok.mp after
      rw [← pure_eq_ok.mp is, (writeLength_eq_ok.mp first).2, List.length_append, length_ofInt]
      omega

end

/-! ## What is written is read -/

section

variable {Text : Type} {text : TextCodec Text} {f : Text → Text} {textOk : Text → Prop} {size : Nat}

theorem readEntries_flatMap {readPayload : NbtTagType → NbtReader (NbtBits Text)}
    {write : Text × NbtBits Text → List UInt8} {value : Text × NbtBits Text → Text × NbtBits Text}
    {entries : List (Text × NbtBits Text)} {fuel : Nat} (enough : entries.length < fuel)
    (fits : (entries.flatMap write ++ (writeType .end' ++ rest)).length ≤ size)
    (each : ∀ entry ∈ entries, ∀ tail, (write entry ++ tail).length ≤ size →
      ∃ name payload, write entry = writeType entry.2.type ++ name ++ payload ∧
        Reads (readString text) (name ++ (payload ++ tail)) (value entry).1 (payload ++ tail) ∧
        Reads (readPayload entry.2.type) (payload ++ tail) (value entry).2 tail) :
    Reads (readEntries text readPayload fuel)
      (entries.flatMap write ++ (writeType .end' ++ rest)) (entries.map value) rest := by
  induction entries generalizing fuel with
  | nil =>
    obtain ⟨fuel, rfl⟩ := Nat.exists_eq_add_one_of_ne_zero (Nat.ne_of_gt enough)
    refine (readType_writeType fun _ => rfl).bind ?_
    rw [if_pos rfl]
    exact reads_pure.mpr ⟨rfl, rfl⟩
  | cons entry entries ih =>
    obtain ⟨fuel, rfl⟩ := Nat.exists_eq_add_one_of_ne_zero (Nat.ne_of_gt (Nat.zero_lt_of_lt enough))
    rw [List.flatMap_cons, List.append_assoc] at fits ⊢
    obtain ⟨name, payload, is, first, second⟩ := each entry List.mem_cons_self _ fits
    have later : (entries.flatMap write ++ (writeType .end' ++ rest)).length ≤ size := by
      rw [List.length_append] at fits
      omega
    have others := ih (Nat.lt_of_succ_lt_succ enough) later fun other there =>
      each other (List.mem_cons_of_mem entry there)
    have notEnd : entry.2.type ≠ .end' := by
      cases entry.2 <;> exact nofun
    rw [is, List.append_assoc, List.append_assoc]
    refine (readType_writeType fun _ => rfl).bind ?_
    rw [if_neg notEnd]
    exact first.bind (second.bind (others.bind (reads_pure.mpr ⟨rfl, rfl⟩)))

theorem readNumbers_flatMap {width : Nat} {label : String} {value : List Int}
    {make : List Int → NbtBits Text} (inRange : value.length ≤ maxNbtLength)
    (all : ∀ number ∈ value, InRange (width + 1) number)
    (fits : (ofInt 4 value.length ++ (value.flatMap (ofInt (width + 1)) ++ rest)).length ≤ size) :
    Reads (readLength size label >>= fun length =>
        make <$> times (readSigned (width + 1)) length)
      (ofInt 4 value.length ++ (value.flatMap (ofInt (width + 1)) ++ rest))
      (make value) rest := by
  have few := @length_le_flatMap _ _ (ofInt (width + 1)) value fun _ _ => by
    rw [length_ofInt]
    omega
  have enough : value.length ≤ size := by
    simp only [List.length_append] at fits
    omega
  have numbers := @Reads.times UInt8 NbtError Int Int (readSigned (width + 1))
    (ofInt (width + 1)) id rest value _ (Nat.le_refl _)
    fun number there tail _ => readSigned_ofInt (all number there)
  rw [List.map_id] at numbers
  exact (readLength_ofInt inRange enough).bind numbers.map

/-- What is written of a well-formed tag is read as it, its texts as their bytes are and its empty lists as lists of
`end`. -/
theorem readPayload_writePayload
    (reads : ∀ value, textOk value → text.decode (text.encode value) = some (f value)) {room : Nat}
    {tag : NbtBits Text} {bytes : List UInt8} (wellFormed : NbtWellFormed textOk room tag)
    (wrote : writePayload text.encode (fun _ => .end') room tag = .ok bytes)
    (fits : (bytes ++ rest).length ≤ size) :
    Reads (readPayload text size room tag.type) (bytes ++ rest) (tag.emptied.map f) rest := by
  induction room generalizing tag bytes rest with
  | zero => cases wrote
  | succ room ih =>
    cases tag with
    | byte value =>
      obtain ⟨inRange, rfl⟩ := writeSigned_eq_ok.mp wrote
      simp only [emptied, map]
      exact (readSigned_ofInt inRange).map
    | short value =>
      obtain ⟨inRange, rfl⟩ := writeSigned_eq_ok.mp wrote
      simp only [emptied, map]
      exact (readSigned_ofInt inRange).map
    | int value =>
      obtain ⟨inRange, rfl⟩ := writeSigned_eq_ok.mp wrote
      simp only [emptied, map]
      exact (readSigned_ofInt inRange).map
    | long value =>
      obtain ⟨inRange, rfl⟩ := writeSigned_eq_ok.mp wrote
      simp only [emptied, map]
      exact (readSigned_ofInt inRange).map
    | float value =>
      rw [writePayload, writeFloat, if_pos (show isFiniteFloat value = true from wellFormed)] at wrote
      cases wrote
      simp only [emptied, map]
      exact (readFloat_ofNat wellFormed).map
    | double value =>
      rw [writePayload, writeDouble, if_pos (show isFiniteDouble value = true from wellFormed)] at wrote
      cases wrote
      simp only [emptied, map]
      exact (readDouble_ofNat wellFormed).map
    | string value =>
      obtain ⟨short, rfl⟩ := writeString_eq_ok.mp wrote
      simp only [emptied, map]
      exact (readString_append short (reads value wellFormed)).map
    | byteArray value =>
      obtain ⟨length, first, is⟩ := bind_eq_ok.mp wrote
      obtain ⟨inRange, rfl⟩ := writeLength_eq_ok.mp first
      obtain rfl := pure_eq_ok.mp is
      simp only [emptied, map]
      rw [List.append_assoc] at fits ⊢
      have enough : value.length ≤ size := by
        simp only [List.length_append, List.length_map] at fits
        omega
      refine (readLength_ofInt inRange enough).bind
        ((reads_bytes.mpr ⟨rfl, List.length_map _⟩).bind (reads_pure.mpr ⟨?_, rfl⟩))
      congr 1
      rw [List.map_map]
      conv => rhs; rw [← List.map_id value]
      exact List.map_congr_left fun number there => signedByte_unsignedByte (wellFormed.2 number there)
    | intArray value =>
      obtain ⟨length, first, after⟩ := bind_eq_ok.mp wrote
      obtain ⟨elements, second, is⟩ := bind_eq_ok.mp after
      obtain ⟨inRange, rfl⟩ := writeLength_eq_ok.mp first
      obtain ⟨all, rfl⟩ := writeNumbers_eq_ok.mp second
      obtain rfl := pure_eq_ok.mp is
      simp only [emptied, map]
      rw [List.append_assoc, ← List.flatMap_def] at fits ⊢
      exact readNumbers_flatMap inRange all fits
    | longArray value =>
      obtain ⟨length, first, after⟩ := bind_eq_ok.mp wrote
      obtain ⟨elements, second, is⟩ := bind_eq_ok.mp after
      obtain ⟨inRange, rfl⟩ := writeLength_eq_ok.mp first
      obtain ⟨all, rfl⟩ := writeNumbers_eq_ok.mp second
      obtain rfl := pure_eq_ok.mp is
      simp only [emptied, map]
      rw [List.append_assoc, ← List.flatMap_def] at fits ⊢
      exact readNumbers_flatMap inRange all fits
    | list elementType value =>
      obtain ⟨one, same, inRange, all, rfl⟩ := writeList_eq_ok.mp wrote
      obtain ⟨-, -, elements⟩ := wellFormed
      simp only [emptied, map]
      rw [List.append_assoc, List.append_assoc] at fits ⊢
      have few := length_le_flatMap fun tag there => writePayload_pos (all tag there)
      have enough : value.length ≤ size := by
        simp only [List.length_append] at fits
        omega
      have later : ((value.flatMap fun tag =>
          written (writePayload text.encode (fun _ => .end') room tag)) ++ rest).length ≤ size := by
        simp only [List.length_append] at fits ⊢
        omega
      have read := @Reads.times _ _ _ _ (readPayload text size room (listType (fun _ => .end') elementType value)) _
        (fun tag => tag.emptied.map f) rest value size later fun tag there tail fits => by
          rw [← same tag there]
          exact ih (elements tag there).2 (all tag there) fits
      refine (readType_writeType fun _ => rfl).bind ((readLength_ofInt inRange enough).bind ?_)
      cases value with
      | nil =>
        rw [if_neg fun wrong => absurd wrong.1 (Nat.lt_irrefl 0)]
        exact read.map
      | cons tag value =>
        have is : elementType = .of tag.type := (elements tag List.mem_cons_self).1
        have type : listType (fun _ => .end') elementType (tag :: value) = tag.type := rfl
        have notEnd : tag.type ≠ .end' := by
          cases tag <;> rintro ⟨⟩
        rw [if_neg fun wrong => notEnd wrong.2]
        rw [type] at read ⊢
        subst is
        simpa [List.map_map, Function.comp_def] using read.map
    | compound value =>
      obtain ⟨all, rfl⟩ := writeCompound_eq_ok.mp wrote
      simp only [emptied, map]
      rw [List.append_assoc] at fits ⊢
      have few := @length_le_flatMap _ _ (fun entry => written (writeEntry text.encode
          (writePayload text.encode (fun _ => .end') room) entry)) value fun entry there => by
        obtain ⟨name, tag, -, -, is⟩ := writeEntry_eq_ok.mp (all entry there)
        rw [is]
        simp only [List.length_append, writeType, length_ofNat]
        omega
      have fuelled : value.length < ((value.flatMap fun entry => written (writeEntry text.encode
          (writePayload text.encode (fun _ => .end') room) entry)) ++ (writeType .end' ++ rest)).length := by
        simp only [List.length_append, writeType, length_ofNat]
        omega
      have read := @readEntries_flatMap rest Text text size (readPayload text size room) _
        (fun entry => (f entry.1, entry.2.emptied.map f)) value _ fuelled fits
        fun entry there tail fits => by
          obtain ⟨name, tag, first, second, is⟩ := writeEntry_eq_ok.mp (all entry there)
          obtain ⟨short, rfl⟩ := writeString_eq_ok.mp first
          refine ⟨_, tag, is, ?_, ?_⟩
          · exact readString_append short (reads entry.1 (wellFormed entry there).1)
          · refine ih (wellFormed entry there).2 second ?_
            rw [is] at fits
            simp only [List.length_append] at fits ⊢
            omega
      refine Reads.bind (show Reads (get : NbtReader _) _ _ _ from rfl) ?_
      simpa [List.map_map, Function.comp_def] using read.map

end

/-! ## What is read is written -/

/-- An empty list is written with its own element type. -/
def keptType : NbtElementType → NbtTagType
  | .of type => type
  | .mixed => .end'

section

variable {Text : Type} {text : TextCodec Text} {textOk : Text → Prop} {size : Nat}

theorem writeEntries_of_readEntries {readPayload : NbtTagType → NbtReader (NbtBits Text)}
    {write : NbtBits Text → Except NbtError (List UInt8)} {P : NbtBits Text → Prop}
    (encodes : ∀ bytes value, text.decode bytes = some value → text.encode value = bytes ∧
      (bytes.length ≤ 65535 → textOk value))
    (each : ∀ {type source tag rest}, Reads (readPayload type) source tag rest →
      tag.type = type ∧ P tag ∧ ∃ bytes, write tag = .ok bytes ∧ source = bytes ++ rest)
    {fuel : Nat} {entries : List (Text × NbtBits Text)}
    (reads : Reads (readEntries text readPayload fuel) source entries rest) :
    (∀ entry ∈ entries, (textOk entry.1 ∧ P entry.2) ∧ writeEntry text.encode write entry =
      .ok (written (writeEntry text.encode write entry))) ∧
      source = (entries.flatMap fun entry => written (writeEntry text.encode write entry)) ++
        writeType .end' ++ rest := by
  induction fuel generalizing source entries with
  | zero => exact absurd reads not_reads_throw
  | succ fuel ih =>
    obtain ⟨type, afterType, first, thenName⟩ := reads_bind.mp reads
    obtain ⟨rfl, -⟩ := writeType_of_readType first
    split at thenName
    · rename_i ends
      obtain ⟨rfl, rfl⟩ := reads_pure.mp thenName
      exact ⟨nofun, by rw [ends]; rfl⟩
    obtain ⟨name, afterName, named, thenTag⟩ := reads_bind.mp thenName
    obtain ⟨tag, afterTag, payload, thenOthers⟩ := reads_bind.mp thenTag
    obtain ⟨others, end', entries, thenEnd⟩ := reads_bind.mp thenOthers
    obtain ⟨rfl, rfl⟩ := reads_pure.mp thenEnd
    obtain ⟨bytes, rfl, short, decodes⟩ := append_of_readString named
    obtain ⟨encoded, ok⟩ := encodes bytes name decodes
    obtain ⟨rfl, holds, body, wrote, rfl⟩ := each payload
    obtain ⟨all, rfl⟩ := ih entries
    have entry : writeEntry text.encode write (name, tag) =
        .ok (writeType tag.type ++ (ofNat 2 bytes.length ++ bytes) ++ body) := by
      refine writeEntry_eq_ok.mpr ⟨_, body, writeString_eq_ok.mpr ⟨?_, rfl⟩, wrote, ?_⟩
      · rw [encoded]
        exact short
      · rw [encoded]
    refine ⟨List.forall_mem_cons.mpr ⟨⟨⟨ok short, holds⟩, by rw [entry]; rfl⟩, all⟩, ?_⟩
    rw [List.flatMap_cons, entry]
    simp only [written, List.append_assoc]

/-- What was read is well formed, and was written with its own element types. -/
theorem writePayload_of_readPayload
    (encodes : ∀ bytes value, text.decode bytes = some value → text.encode value = bytes ∧
      (bytes.length ≤ 65535 → textOk value))
    {room : Nat} {type : NbtTagType} {tag : NbtBits Text}
    (reads : Reads (readPayload text size room type) source tag rest) :
    tag.type = type ∧ NbtWellFormed textOk room tag ∧
      ∃ bytes, writePayload text.encode keptType room tag = .ok bytes ∧ source = bytes ++ rest := by
  induction room generalizing type tag source rest with
  | zero => exact absurd reads not_reads_throw
  | succ room ih =>
    cases type with
    | end' => exact absurd reads not_reads_throw
    | byte =>
      obtain ⟨value, first, rfl⟩ := reads_map.mp reads
      obtain ⟨rfl, inRange⟩ := ofInt_of_readSigned first
      exact ⟨rfl, inRange, _, writeSigned_eq_ok.mpr ⟨inRange, rfl⟩, rfl⟩
    | short =>
      obtain ⟨value, first, rfl⟩ := reads_map.mp reads
      obtain ⟨rfl, inRange⟩ := ofInt_of_readSigned first
      exact ⟨rfl, inRange, _, writeSigned_eq_ok.mpr ⟨inRange, rfl⟩, rfl⟩
    | int =>
      obtain ⟨value, first, rfl⟩ := reads_map.mp reads
      obtain ⟨rfl, inRange⟩ := ofInt_of_readSigned first
      exact ⟨rfl, inRange, _, writeSigned_eq_ok.mpr ⟨inRange, rfl⟩, rfl⟩
    | long =>
      obtain ⟨value, first, rfl⟩ := reads_map.mp reads
      obtain ⟨rfl, inRange⟩ := ofInt_of_readSigned first
      exact ⟨rfl, inRange, _, writeSigned_eq_ok.mpr ⟨inRange, rfl⟩, rfl⟩
    | float =>
      obtain ⟨value, first, rfl⟩ := reads_map.mp reads
      obtain ⟨rfl, finite⟩ := ofNat_of_readFloat first
      exact ⟨rfl, finite, _, by rw [writePayload, writeFloat, if_pos finite], rfl⟩
    | double =>
      obtain ⟨value, first, rfl⟩ := reads_map.mp reads
      obtain ⟨rfl, finite⟩ := ofNat_of_readDouble first
      exact ⟨rfl, finite, _, by rw [writePayload, writeDouble, if_pos finite], rfl⟩
    | string =>
      obtain ⟨value, first, rfl⟩ := reads_map.mp reads
      obtain ⟨bytes, rfl, short, decodes⟩ := append_of_readString first
      obtain ⟨encoded, ok⟩ := encodes bytes value decodes
      refine ⟨rfl, ok short, _, writeString_eq_ok.mpr ⟨?_, rfl⟩, by rw [encoded]⟩
      rw [encoded]
      exact short
    | byteArray =>
      obtain ⟨length, afterLength, first, thenBytes⟩ := reads_bind.mp reads
      obtain ⟨bytes, end', second, thenEnd⟩ := reads_bind.mp thenBytes
      obtain ⟨rfl, rfl⟩ := reads_pure.mp thenEnd
      obtain ⟨rfl, inRange⟩ := ofInt_of_readLength first
      obtain ⟨rfl, rfl⟩ := reads_bytes.mp second
      have back : (bytes.map signedByte).map unsignedByte = bytes := by
        rw [List.map_map]
        conv => rhs; rw [← List.map_id bytes]
        exact List.map_congr_left fun byte _ => unsignedByte_signedByte byte
      have wellFormed : (bytes.map signedByte).length ≤ maxNbtLength := by
        rw [List.length_map]
        exact inRange
      refine ⟨rfl, ⟨wellFormed, fun number there => ?_⟩, _,
        bind_eq_ok.mpr ⟨_, writeLength_eq_ok.mpr ⟨wellFormed, rfl⟩, rfl⟩, ?_⟩
      · obtain ⟨byte, -, rfl⟩ := List.mem_map.mp there
        exact signedByte_inRange byte
      · rw [back, List.length_map, List.append_assoc]
    | intArray =>
      obtain ⟨length, afterLength, first, thenNumbers⟩ := reads_bind.mp reads
      obtain ⟨rfl, inRange⟩ := ofInt_of_readLength first
      obtain ⟨value, numbers, rfl⟩ := reads_map.mp thenNumbers
      obtain ⟨rfl, rfl, all⟩ := reads_times (fun _ _ _ => ofInt_of_readSigned) numbers
      refine ⟨rfl, ⟨inRange, all⟩, _, bind_eq_ok.mpr ⟨_, writeLength_eq_ok.mpr ⟨inRange, rfl⟩,
        bind_eq_ok.mpr ⟨_, writeNumbers_eq_ok.mpr ⟨all, rfl⟩, rfl⟩⟩, ?_⟩
      rw [List.append_assoc, List.flatMap_def]
    | longArray =>
      obtain ⟨length, afterLength, first, thenNumbers⟩ := reads_bind.mp reads
      obtain ⟨rfl, inRange⟩ := ofInt_of_readLength first
      obtain ⟨value, numbers, rfl⟩ := reads_map.mp thenNumbers
      obtain ⟨rfl, rfl, all⟩ := reads_times (fun _ _ _ => ofInt_of_readSigned) numbers
      refine ⟨rfl, ⟨inRange, all⟩, _, bind_eq_ok.mpr ⟨_, writeLength_eq_ok.mpr ⟨inRange, rfl⟩,
        bind_eq_ok.mpr ⟨_, writeNumbers_eq_ok.mpr ⟨all, rfl⟩, rfl⟩⟩, ?_⟩
      rw [List.append_assoc, List.flatMap_def]
    | list =>
      obtain ⟨elementType, afterType, first, thenLength⟩ := reads_bind.mp reads
      obtain ⟨rfl, -⟩ := writeType_of_readType first
      obtain ⟨length, afterLength, second, thenElements⟩ := reads_bind.mp thenLength
      obtain ⟨rfl, inRange⟩ := ofInt_of_readLength second
      split at thenElements
      · exact absurd thenElements not_reads_throw
      obtain ⟨value, elements, rfl⟩ := reads_map.mp thenElements
      obtain ⟨rfl, rfl, all⟩ := @reads_times _ _ _ _ (fun tag => written (writePayload text.encode keptType room tag))
        (fun tag => (tag.type = elementType ∧ NbtWellFormed textOk room tag) ∧
          writePayload text.encode keptType room tag =
            .ok (written (writePayload text.encode keptType room tag))) _ _ _ _
        (fun source value rest reads => by
          obtain ⟨type, wellFormed, bytes, wrote, is⟩ := ih reads
          rw [wrote]
          exact ⟨is, ⟨type, wellFormed⟩, rfl⟩) elements
      have type : listType keptType (.of elementType) value = elementType := by
        cases value with
        | nil => rfl
        | cons tag value => exact (all tag List.mem_cons_self).1.1
      refine ⟨rfl, ⟨inRange, nofun, fun tag there => ?_⟩, _, writeList_eq_ok.mpr ⟨nofun,
        fun tag there => ?_, inRange, fun tag there => (all tag there).2, rfl⟩, ?_⟩
      · rw [(all tag there).1.1]
        exact ⟨rfl, (all tag there).1.2⟩
      · rw [type]
        exact (all tag there).1.1
      · rw [type, List.append_assoc, List.append_assoc]
    | compound =>
      obtain ⟨left, start, first, thenEntries⟩ := reads_bind.mp reads
      cases first
      obtain ⟨value, entries, rfl⟩ := reads_map.mp thenEntries
      obtain ⟨all, is⟩ := writeEntries_of_readEntries encodes ih entries
      exact ⟨rfl, fun entry there => (all entry there).1, _,
        writeCompound_eq_ok.mpr ⟨fun entry there => (all entry there).2, rfl⟩, is⟩

end

end NbtReader

end Kiln.Relay
