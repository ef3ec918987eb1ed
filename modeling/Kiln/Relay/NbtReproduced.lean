import Kiln.Relay.NbtRoundTrip

/-!
# What becomes of NBT that is read and written again

A file that is read with its texts as characters is the one that is read with them as bytes, but for the
texts. So reading and writing a file again, or writing and reading a tag, changes its texts alone, as
the decoder takes a byte order mark that one begins with for no part of it.
-/

namespace Kiln.Relay
open Kiln.Lib Kiln.Contracts NbtReader List

/-! ## Texts changed -/

namespace NbtReader

variable {Text Text' : Type} {text : TextCodec Text} {text' : TextCodec Text'} {g : Text → Text'} {size : Nat}

theorem maps_map {α α' β β' : Type} {f : α → α'} {h : β → β'} {read : NbtReader α}
    {read' : NbtReader α'} {make : α → β} {make' : α' → β'} (maps : Reader.Maps f read read')
    (same : ∀ x, make' (f x) = h (make x)) : Reader.Maps h (make <$> read) (make' <$> read') := by
  rw [map_eq_pure_bind, map_eq_pure_bind]
  refine maps.bind' fun x => ?_
  rw [same]
  exact .pure' _

theorem readString_maps (decodes : ∀ bytes, text'.decode bytes = (text.decode bytes).map g) :
    Reader.Maps g (readString text) (readString text') := by
  refine (Reader.Maps.refl _).bind' fun length => (Reader.Maps.refl _).bind' fun bytes => ?_
  rw [id_def, decodes]
  cases text.decode bytes with
  | none => exact .throw' _
  | some value => exact .pure' value

theorem readEntries_maps {read : NbtTagType → NbtReader (NbtBits Text)} {read' : NbtTagType → NbtReader (NbtBits Text')}
    (decodes : ∀ bytes, text'.decode bytes = (text.decode bytes).map g)
    (maps : ∀ type, Reader.Maps (NbtTag.map g) (read type) (read' type)) (fuel : Nat) :
    Reader.Maps (List.map fun entry => (g entry.1, entry.2.map g)) (readEntries text read fuel)
      (readEntries text' read' fuel) := by
  induction fuel with
  | zero => exact .throw' _
  | succ fuel ih =>
    refine (Reader.Maps.refl _).bind' fun type => ?_
    rw [id_def]
    split
    · exact .pure' []
    · exact (readString_maps decodes).bind' fun name => (maps type).bind' fun tag =>
        ih.bind' fun entries => .pure' ((name, tag) :: entries)

theorem readPayload_maps (decodes : ∀ bytes, text'.decode bytes = (text.decode bytes).map g)
    (room : Nat) (type : NbtTagType) :
    Reader.Maps (NbtTag.map g) (readPayload text size room type) (readPayload text' size room type) := by
  induction room generalizing type with
  | zero => exact .throw' _
  | succ room ih =>
    cases type with
    | end' => exact .throw' _
    | byte => exact maps_map (.refl _) fun value => by simp only [NbtTag.map, id_def]
    | short => exact maps_map (.refl _) fun value => by simp only [NbtTag.map, id_def]
    | int => exact maps_map (.refl _) fun value => by simp only [NbtTag.map, id_def]
    | long => exact maps_map (.refl _) fun value => by simp only [NbtTag.map, id_def]
    | float => exact maps_map (.refl _) fun value => by simp only [NbtTag.map, id_def]
    | double => exact maps_map (.refl _) fun value => by simp only [NbtTag.map, id_def]
    | string => exact maps_map (readString_maps decodes) fun value => by simp only [NbtTag.map]
    | byteArray =>
      refine (Reader.Maps.refl _).bind' fun length => (Reader.Maps.refl _).bind' fun bytes => ?_
      have is : NbtTag.map g (.byteArray (bytes.map signedByte) : NbtBits Text) =
          .byteArray (bytes.map signedByte) := by simp only [NbtTag.map]
      rw [id_def, ← is]
      exact .pure' _
    | intArray =>
      refine (Reader.Maps.refl _).bind' fun length => maps_map (.refl _) fun value => ?_
      simp only [NbtTag.map, id_def]
    | longArray =>
      refine (Reader.Maps.refl _).bind' fun length => maps_map (.refl _) fun value => ?_
      simp only [NbtTag.map, id_def]
    | list =>
      refine (Reader.Maps.refl _).bind' fun elementType => (Reader.Maps.refl _).bind' fun length => ?_
      rw [id_def, id_def]
      split
      · exact .throw' _
      · exact maps_map ((ih elementType).times' length) fun value => by simp only [NbtTag.map]
    | compound =>
      refine (Reader.Maps.refl _).bind' fun left => ?_
      exact maps_map (readEntries_maps decodes ih left.length) fun value => by simp only [NbtTag.map]

end NbtReader

namespace NbtWriter

variable {Text Text' : Type} {encode : Text → List UInt8} {empty : NbtElementType → NbtTagType} {room : Nat}

theorem writePayload_map (f : Text' → Text) (tag : NbtBits Text') :
    writePayload encode empty room (tag.map f) = writePayload (encode ∘ f) empty room tag := by
  induction room generalizing tag with
  | zero => simp only [writePayload]
  | succ room ih =>
    have each : writePayload encode empty room ∘ NbtTag.map f = writePayload (encode ∘ f) empty room :=
      funext ih
    cases tag with
    | list elementType value =>
      have type : listType empty elementType (value.map (NbtTag.map f)) = listType empty elementType value := by
        cases value with
        | nil => rfl
        | cons tag value => exact NbtTag.type_map f tag
      simp only [NbtTag.map, writePayload, type, any_map, length_map, mapM_map, each]
      simp only [Function.comp_def, NbtTag.type_map]
    | compound value =>
      simp only [NbtTag.map, writePayload, mapM_map]
      have entries : (writeEntry encode (writePayload encode empty room) ∘
          fun entry : Text' × NbtBits Text' => (f entry.1, entry.2.map f)) =
          writeEntry (encode ∘ f) (writePayload (encode ∘ f) empty room) := by
        funext entry
        simp only [Function.comp, writeEntry, writeString, ih, NbtTag.type_map]
      rw [entries]
    | string value => simp only [NbtTag.map, writePayload, writeString, Function.comp]
    | _ => simp only [NbtTag.map, writePayload]

theorem writePayload_isOk {textOk : Text → Prop}
    (short : ∀ value, textOk value → (encode value).length ≤ 65535) {tag : NbtBits Text}
    (wellFormed : NbtWellFormed textOk room tag) :
    writePayload encode empty room tag = .ok (written (writePayload encode empty room tag)) := by
  have ok : ∀ {result : Except NbtError (List UInt8)} {bytes}, result = .ok bytes →
      result = .ok (written result) := fun is => by rw [is]; rfl
  induction room generalizing tag with
  | zero => exact absurd wellFormed not_false
  | succ room ih =>
    cases tag with
    | byte value => exact ok (writeSigned_eq_ok.mpr ⟨wellFormed, rfl⟩)
    | short value => exact ok (writeSigned_eq_ok.mpr ⟨wellFormed, rfl⟩)
    | int value => exact ok (writeSigned_eq_ok.mpr ⟨wellFormed, rfl⟩)
    | long value => exact ok (writeSigned_eq_ok.mpr ⟨wellFormed, rfl⟩)
    | float value => exact ok (if_pos wellFormed)
    | double value => exact ok (if_pos wellFormed)
    | string value => exact ok (writeString_eq_ok.mpr ⟨short value wellFormed, rfl⟩)
    | byteArray value =>
      exact ok (bind_eq_ok.mpr ⟨_, writeLength_eq_ok.mpr ⟨wellFormed.1, rfl⟩, rfl⟩)
    | intArray value =>
      exact ok (bind_eq_ok.mpr ⟨_, writeLength_eq_ok.mpr ⟨wellFormed.1, rfl⟩,
        bind_eq_ok.mpr ⟨_, writeNumbers_eq_ok.mpr ⟨wellFormed.2, rfl⟩, rfl⟩⟩)
    | longArray value =>
      exact ok (bind_eq_ok.mpr ⟨_, writeLength_eq_ok.mpr ⟨wellFormed.1, rfl⟩,
        bind_eq_ok.mpr ⟨_, writeNumbers_eq_ok.mpr ⟨wellFormed.2, rfl⟩, rfl⟩⟩)
    | list elementType value =>
      obtain ⟨inRange, one, elements⟩ := wellFormed
      refine ok (writeList_eq_ok.mpr ⟨one, fun tag there => ?_, inRange,
        fun tag there => ih (elements tag there).2, rfl⟩)
      cases value with
      | nil => cases there
      | cons first value =>
        have same := (elements tag there).1.symm.trans (elements first mem_cons_self).1
        exact NbtElementType.of.inj same
    | compound value =>
      refine ok (writeCompound_eq_ok.mpr ⟨fun entry there => ?_, rfl⟩)
      obtain ⟨text, payload⟩ := wellFormed entry there
      exact ok (writeEntry_eq_ok.mpr ⟨_, _, writeString_eq_ok.mpr ⟨short entry.1 text, rfl⟩, ih payload, rfl⟩)

end NbtWriter

variable {Text : Type}

theorem NbtWellFormed.map {Text' : Type} {textOk : Text → Prop} {textOk' : Text' → Prop}
    {f : Text → Text'} (keeps : ∀ value, textOk value → textOk' (f value)) {room : Nat}
    {tag : NbtBits Text} (wellFormed : NbtWellFormed textOk room tag) :
    NbtWellFormed textOk' room (tag.map f) := by
  induction room generalizing tag with
  | zero => exact wellFormed
  | succ room ih =>
    cases tag with
    | string value =>
      simp only [NbtTag.map]
      exact keeps value wellFormed
    | list elementType value =>
      obtain ⟨inRange, one, elements⟩ := wellFormed
      simp only [NbtTag.map]
      refine ⟨by rwa [length_map], one, fun tag listed => ?_⟩
      obtain ⟨tag, there, rfl⟩ := mem_map.mp listed
      rw [NbtTag.type_map]
      exact ⟨(elements tag there).1, ih (elements tag there).2⟩
    | compound value =>
      simp only [NbtTag.map]
      intro entry listed
      obtain ⟨entry, there, rfl⟩ := mem_map.mp listed
      exact ⟨keeps entry.1 (wellFormed entry there).1, ih (wellFormed entry there).2⟩
    | _ =>
      simp only [NbtTag.map]
      exact wellFormed

/-! ## Files -/

namespace NamedNbt

variable {Text Text' : Type}

def map (f : Text → Text') (root : NamedNbt Text) : NamedNbt Text' := ⟨f root.name, root.tag.map f⟩

def emptied (root : NamedNbt Text) : NamedNbt Text := ⟨root.name, root.tag.emptied⟩

def texts (root : NamedNbt Text) : List Text := root.name :: root.tag.texts

theorem map_eq_self {f : Text → Text} {root : NamedNbt Text} :
    root.map f = root ↔ ∀ text ∈ root.texts, f text = text := by
  obtain ⟨name, tag⟩ := root
  simp only [map, texts, NamedNbt.mk.injEq, NbtTag.map_eq_self, forall_mem_cons]

/-- A file that the format has bytes for. -/
def WellFormed (textOk : Text → Prop) (root : NamedNbt Text) : Prop :=
  textOk root.name ∧ NbtWellFormed textOk (maxNbtDepth + 1) root.tag

end NamedNbt

section

variable {Text Text' : Type} {text : TextCodec Text} {text' : TextCodec Text'}
  {source bytes : List UInt8} {root : NamedNbt Text}

theorem decodeNbt_eq_ok : decodeNbt text source = .ok root ↔
    Reader.Reads (readNamed text source.length) source root [] := by
  unfold decodeNbt
  cases is : (readNamed text source.length).run source with
  | error error =>
    refine ⟨nofun, fun reads => ?_⟩
    exact nomatch is.symm.trans reads
  | ok read =>
    obtain ⟨named, rest⟩ := read
    cases rest with
    | nil =>
      dsimp only
      rw [Except.ok.injEq]
      constructor
      · rintro rfl
        exact is
      · intro reads
        exact (Reader.Reads.unique is reads).1
    | cons byte rest =>
      refine ⟨nofun, fun reads => ?_⟩
      exact nomatch (Reader.Reads.unique is reads).2

theorem writeNamed_eq_ok {encode : Text → List UInt8} {empty : NbtElementType → NbtTagType} :
    NbtWriter.writeNamed encode empty root = .ok bytes ↔ ∃ name tag, NbtWriter.writeString encode root.name = .ok name ∧
        NbtWriter.writePayload encode empty (maxNbtDepth + 1) root.tag = .ok tag ∧
        bytes = NbtWriter.writeType root.tag.type ++ name ++ tag := by
  simp only [NbtWriter.writeNamed, bind_eq_ok, pure_eq_ok, eq_comm (b := bytes)]
  exact ⟨fun ⟨name, first, tag, second, is⟩ => ⟨name, tag, first, second, is⟩,
    fun ⟨name, tag, first, second, is⟩ => ⟨name, first, tag, second, is⟩⟩

theorem decodeNbt_encodeNbt {textOk : Text → Prop} {f : Text → Text}
    (reads : ∀ value, textOk value → text.decode (text.encode value) = some (f value))
    (wellFormed : root.WellFormed textOk) (wrote : encodeNbt text root = .ok bytes) :
    decodeNbt text bytes = .ok (root.emptied.map f) := by
  obtain ⟨name, tag, first, second, rfl⟩ := writeNamed_eq_ok.mp wrote
  obtain ⟨short, rfl⟩ := writeString_eq_ok.mp first
  have notEnd : root.tag.type ≠ .end' := by
    cases root.tag <;> exact nofun
  have payload := @readPayload_writePayload [] Text text f textOk
    (NbtWriter.writeType root.tag.type ++ (BigEndian.ofNat 2 (text.encode root.name).length ++
      text.encode root.name) ++ tag).length reads _ _ _ wellFormed.2 second (by
        simp only [length_append, length_nil]
        omega)
  have named := @readString_append (tag ++ []) Text text _ _ short (reads root.name wellFormed.1)
  rw [decodeNbt_eq_ok]
  show Reader.Reads _ _ _ []
  rw [append_assoc]
  rw [append_nil] at named payload
  refine (readType_writeType fun ends => absurd ends notEnd).bind (named.bind ?_)
  rw [append_assoc] at payload
  exact payload.bind (Reader.reads_pure.mpr ⟨rfl, rfl⟩)

theorem writeNamed_of_decodeNbt {textOk : Text → Prop}
    (encodes : ∀ bytes value, text.decode bytes = some value → text.encode value = bytes ∧
      (bytes.length ≤ 65535 → textOk value)) (decoded : decodeNbt text source = .ok root) :
    root.WellFormed textOk ∧ NbtWriter.writeNamed text.encode keptType root = .ok source := by
  obtain ⟨type, afterType, first, thenName⟩ := Reader.reads_bind.mp (decodeNbt_eq_ok.mp decoded)
  obtain ⟨name, afterName, named, thenTag⟩ := Reader.reads_bind.mp thenName
  obtain ⟨tag, afterTag, payload, thenEnd⟩ := Reader.reads_bind.mp thenTag
  obtain ⟨rfl, rfl⟩ := Reader.reads_pure.mp thenEnd
  obtain ⟨is, -⟩ := writeType_of_readType first
  obtain ⟨encoded, rfl, short, decodes⟩ := append_of_readString named
  obtain ⟨back, ok⟩ := encodes encoded name decodes
  obtain ⟨rfl, wellFormed, body, wrote, rfl⟩ := writePayload_of_readPayload encodes payload
  refine ⟨⟨ok short, wellFormed⟩, writeNamed_eq_ok.mpr ⟨_, body, writeString_eq_ok.mpr ⟨?_, rfl⟩, wrote, ?_⟩⟩
  · rw [back]
    exact short
  · rw [is, back]
    simp only [append_nil, append_assoc]

end

/-! ## The source's texts -/

/-- Texts as the bytes they are read from, where those are UTF-8. -/
def rawText : TextCodec (List UInt8) where
  decode bytes := if (Utf8.decode bytes).isSome then some bytes else none
  encode := id

/-- U+FEFF. -/
def byteOrderMark : Char := Char.ofNat 0xFEFF

/-- Its UTF-8. -/
def byteOrderMarkBytes : List UInt8 := [0xEF, 0xBB, 0xBF]

theorem utf8EncodeChar_byteOrderMark : String.utf8EncodeChar byteOrderMark = byteOrderMarkBytes := by
  decide

theorem utf16EncodeChar_byteOrderMark : Utf16.encodeChar byteOrderMark = [0xFEFF] := by decide

/-- Text without the mark it begins with. -/
def withoutMark (text : List Char) : List Char :=
  if text.head? = some byteOrderMark then text.tail else text

variable {bytes : List UInt8} {text : List Char}

theorem textDecoder_eq (is : Utf8.decode bytes = some text) :
    textDecoder bytes = some (Utf16.encode (withoutMark text)) := by
  rw [textDecoder, is]
  rfl

/-- What the source makes of a text's bytes. -/
def decodedText (bytes : List UInt8) : Utf16 := (textDecoder bytes).getD []

theorem utf8Text_decode (bytes : List UInt8) : utf8Text.decode bytes = (rawText.decode bytes).map decodedText := by
  show textDecoder bytes = (if (Utf8.decode bytes).isSome then some bytes else none).map decodedText
  cases is : Utf8.decode bytes with
  | none =>
    rw [textDecoder, is]
    rfl
  | some text =>
    rw [if_pos (show (some text).isSome = true from rfl), Option.map_some, decodedText, textDecoder_eq is]
    rfl

theorem withoutMark_of_marked {rest : List Char} (is : text = byteOrderMark :: rest) : withoutMark text = rest := by
  rw [is]
  rfl

theorem withoutMark_eq_self : withoutMark text = text ↔ text.head? ≠ some byteOrderMark := by
  unfold withoutMark
  split
  · rename_i marked
    cases text with
    | nil => cases marked
    | cons c text =>
      refine ⟨fun same => ?_, fun unmarked => absurd marked unmarked⟩
      exact absurd (congrArg List.length same) (by simp)
  · rename_i unmarked
    exact ⟨fun _ => unmarked, fun _ => rfl⟩

theorem prefix_iff (is : Utf8.decode bytes = some text) :
    byteOrderMarkBytes <+: bytes ↔ text.head? = some byteOrderMark := by
  constructor
  · rintro ⟨rest, rfl⟩
    rw [← utf8EncodeChar_byteOrderMark, Utf8.decode_encodeChar_append] at is
    obtain ⟨text, -, rfl⟩ := Option.map_eq_some_iff.mp is
    rfl
  · intro marked
    obtain ⟨rest, rfl⟩ := head?_eq_some_iff.mp marked
    rw [← Utf8.encode_of_decode is, Utf8.encode, flatMap_cons, utf8EncodeChar_byteOrderMark]
    exact prefix_append _ _

/-- What a text's bytes are once it was read and written. -/
def rewritten (bytes : List UInt8) : List UInt8 := utf8Bytes (decodedText bytes)

theorem rewritten_eq (is : Utf8.decode bytes = some text) : rewritten bytes = Utf8.encode (withoutMark text) := by
  rw [rewritten, decodedText, textDecoder_eq is, Option.getD_some, utf8Bytes, Utf16.decode_encode]

theorem rewritten_eq_self (valid : (Utf8.decode bytes).isSome = true) :
    rewritten bytes = bytes ↔ ¬ byteOrderMarkBytes <+: bytes := by
  obtain ⟨text, is⟩ := Option.isSome_iff_exists.mp valid
  rw [rewritten_eq is, prefix_iff is, ← ne_eq, ← withoutMark_eq_self]
  constructor
  · intro same
    have back := Utf8.decode_encode (withoutMark text)
    rw [same, is] at back
    exact (Option.some.inj back).symm
  · intro same
    rw [same, Utf8.encode_of_decode is]

theorem rewritten_valid (valid : (Utf8.decode bytes).isSome = true) :
    (Utf8.decode (rewritten bytes)).isSome = true := by
  obtain ⟨text, is⟩ := Option.isSome_iff_exists.mp valid
  rw [rewritten_eq is, Utf8.decode_encode]
  rfl

theorem rewritten_length_le (valid : (Utf8.decode bytes).isSome = true) : (rewritten bytes).length ≤ bytes.length := by
  obtain ⟨text, is⟩ := Option.isSome_iff_exists.mp valid
  rw [rewritten_eq is, ← Utf8.encode_of_decode is, withoutMark]
  split
  · rename_i marked
    obtain ⟨rest, rfl⟩ := head?_eq_some_iff.mp marked
    rw [tail_cons, Utf8.encode, Utf8.encode, flatMap_cons, length_append]
    omega
  · exact Nat.le_refl _

/-- What a text is once it was written and read. -/
def reread (value : Utf16) : Utf16 := Utf16.encode (withoutMark (Utf16.decode value))

theorem utf8Text_decode_encode (value : Utf16) : utf8Text.decode (utf8Text.encode value) = some (reread value) :=
  textDecoder_eq (Utf8.decode_encode _)

/-- A text is what it was written as where it has no surrogate outside a pair and no mark to begin with. -/
theorem reread_eq_self {value : Utf16} :
    reread value = value ↔ value.head? ≠ some 0xFEFF ∧ Utf16.isWellFormed value = true := by
  rw [reread, ← Utf16.encode_decode_iff]
  have length := Utf16.length_encode_decode value
  by_cases marked : (Utf16.decode value).head? = some byteOrderMark
  · obtain ⟨rest, is⟩ := head?_eq_some_iff.mp marked
    rw [is, Utf16.encode_cons, utf16EncodeChar_byteOrderMark] at length
    rw [withoutMark_of_marked is, is, Utf16.encode_cons, utf16EncodeChar_byteOrderMark]
    constructor
    · intro same
      rw [← same] at length
      simp at length
    · rintro ⟨unmarked, same⟩
      rw [← same] at unmarked
      exact absurd rfl unmarked
  · rw [withoutMark_eq_self.mpr marked]
    refine ⟨fun same => ⟨fun begins => marked ?_, same⟩, And.right⟩
    obtain ⟨rest, rfl⟩ := head?_eq_some_iff.mp begins
    rw [Utf16.decode_cons (by decide)]
    rfl

/-! ## Written again -/

theorem readNamed_maps (size : Nat) : Reader.Maps (NamedNbt.map decodedText)
    (readNamed rawText size) (readNamed utf8Text size) := by
  refine (Reader.Maps.refl _).bind' fun type => ?_
  refine (NbtReader.readString_maps utf8Text_decode).bind' fun name => ?_
  refine (NbtReader.readPayload_maps utf8Text_decode _ type).bind' fun tag => ?_
  exact .pure' (⟨name, tag⟩ : NamedNbt (List UInt8))

theorem writeNamed_map {Text' : Type} {encode : Text → List UInt8}
    {empty : NbtElementType → NbtTagType} (f : Text' → Text) (root : NamedNbt Text') :
    NbtWriter.writeNamed encode empty (root.map f) = NbtWriter.writeNamed (encode ∘ f) empty root := by
  simp only [NbtWriter.writeNamed, NamedNbt.map, NbtWriter.writePayload_map, NbtTag.type_map]
  rfl

theorem textOk_of_mem {textOk : Text → Prop} {room : Nat} {tag : NbtBits Text}
    (wellFormed : NbtWellFormed textOk room tag) : ∀ text ∈ tag.texts, textOk text := by
  induction room generalizing tag with
  | zero => exact absurd wellFormed not_false
  | succ room ih =>
    intro text there
    cases tag with
    | string value =>
      simp only [NbtTag.texts, mem_singleton] at there
      exact there ▸ wellFormed
    | list elementType value =>
      simp only [NbtTag.texts, mem_flatMap] at there
      obtain ⟨tag, listed, among⟩ := there
      exact ih (wellFormed.2.2 tag listed).2 text among
    | compound value =>
      simp only [NbtTag.texts, mem_flatMap, mem_cons] at there
      obtain ⟨entry, listed, rfl | among⟩ := there
      · exact (wellFormed entry listed).1
      · exact ih (wellFormed entry listed).2 text among
    | _ => simp [NbtTag.texts] at there

/-- Bytes that the format takes for a text. -/
def RawTextOk (bytes : List UInt8) : Prop :=
  (Utf8.decode bytes).isSome = true ∧ bytes.length ≤ 65535

theorem rawText_decode {value : List UInt8} (is : rawText.decode bytes = some value) :
    value = bytes ∧ (Utf8.decode bytes).isSome = true := by
  have split' : (if (Utf8.decode bytes).isSome then some bytes else none) = some value := is
  split at split'
  · rename_i valid
    exact ⟨(Option.some.inj split').symm, valid⟩
  · exact nomatch split'

theorem rawText_reads (bytes : List UInt8) (ok : RawTextOk bytes) :
    rawText.decode (rawText.encode bytes) = some (id bytes) :=
  if_pos ok.1

theorem rewritten_ok (ok : RawTextOk bytes) : RawTextOk (rewritten bytes) :=
  ⟨rewritten_valid ok.1, (rewritten_length_le ok.1).trans ok.2⟩

namespace NamedNbt

variable {Text : Type} {root : NamedNbt Text}

theorem map_id : root.map id = root :=
  map_eq_self.mpr fun _ _ => rfl

theorem texts_emptied : root.emptied.texts = root.texts := by
  rw [texts, texts, emptied, NbtTag.texts_emptied]

theorem emptied_map (f : Text → Text) : (root.map f).emptied = root.emptied.map f := by
  rw [emptied, map, NbtTag.emptied_map]
  rfl

theorem WellFormed.textOk {textOk : Text → Prop} (wellFormed : root.WellFormed textOk) :
    ∀ text ∈ root.texts, textOk text :=
  forall_mem_cons.mpr ⟨wellFormed.1, textOk_of_mem wellFormed.2⟩

theorem WellFormed.isOk {textOk : Text → Prop} {encode : Text → List UInt8} {empty : NbtElementType → NbtTagType}
    (short : ∀ value, textOk value → (encode value).length ≤ 65535)
    (wellFormed : root.WellFormed textOk) :
    ∃ bytes, NbtWriter.writeNamed encode empty root = .ok bytes :=
  ⟨_, writeNamed_eq_ok.mpr ⟨_, _, writeString_eq_ok.mpr ⟨short _ wellFormed.1, rfl⟩,
    NbtWriter.writePayload_isOk short wellFormed.2, rfl⟩⟩

end NamedNbt

/-- `again` is `source`, but that each empty list in it is one of `end`. -/
def SameButEmpty (source again : List UInt8) : Prop :=
  ∃ root, decodeNbt rawText source = .ok root ∧ NbtWriter.writeNamed id keptType root = .ok source ∧
    NbtWriter.writeNamed id (fun _ => .end') root = .ok again

/-- A text in `source` begins with a byte order mark. -/
def SpellsMark (source : List UInt8) : Prop :=
  ∃ root, decodeNbt rawText source = .ok root ∧ ∃ text ∈ root.texts, byteOrderMarkBytes <+: text

/-- A file's texts are no longer, written, than the format has room for. -/
def NbtTextsFit (root : NamedNbt Utf16) : Prop :=
  root.WellFormed fun value => (utf8Bytes value).length ≤ 65535

/-- A file is written as it was read where none of its texts begins with a byte order mark. -/
theorem encodeNbt_decodeNbt {source : List UInt8} {root : NamedNbt Utf16}
    (decoded : decodeNbt utf8Text source = .ok root) :
    (∃ again, encodeNbt utf8Text root = .ok again ∧ SameButEmpty source again) ↔ ¬ SpellsMark source := by
  obtain ⟨raw, reads, rfl⟩ := (readNamed_maps _ _ _ _).mp (decodeNbt_eq_ok.mp decoded)
  have read : decodeNbt rawText source = .ok raw := decodeNbt_eq_ok.mpr reads
  obtain ⟨wellFormed, kept⟩ := @writeNamed_of_decodeNbt _ rawText source raw RawTextOk (fun bytes value is => by
      obtain ⟨rfl, valid⟩ := rawText_decode is
      exact ⟨rfl, fun short => ⟨valid, short⟩⟩) read
  have changed : (raw.map rewritten).WellFormed RawTextOk :=
    ⟨rewritten_ok wellFormed.1, NbtWellFormed.map (fun _ => rewritten_ok) wellFormed.2⟩
  have same : encodeNbt utf8Text (raw.map decodedText) = encodeNbt rawText (raw.map rewritten) := by
    rw [encodeNbt, encodeNbt, writeNamed_map, writeNamed_map]
    rfl
  have only : ∀ other, decodeNbt rawText source = .ok other → other = raw := fun other is =>
    Except.ok.inj (is.symm.trans read)
  rw [same]
  constructor
  · rintro ⟨again, wrote, other, is, -, wrote'⟩ ⟨other', is', text, among, marked⟩
    obtain rfl := only other is
    obtain rfl := only other' is'
    have first := decodeNbt_encodeNbt rawText_reads wellFormed (show encodeNbt rawText _ = _ from wrote')
    have second := decodeNbt_encodeNbt rawText_reads changed wrote
    rw [NamedNbt.map_id] at first second
    have back := Except.ok.inj (second.symm.trans first)
    rw [NamedNbt.emptied_map, NamedNbt.map_eq_self, NamedNbt.texts_emptied] at back
    exact (rewritten_eq_self (wellFormed.textOk text among).1).mp (back text among) marked
  · intro unmarked
    have stays : raw.map rewritten = raw := NamedNbt.map_eq_self.mpr fun text among =>
      (rewritten_eq_self (wellFormed.textOk text among).1).mpr fun marked =>
        unmarked ⟨raw, read, text, among, marked⟩
    obtain ⟨again, wrote⟩ := @NamedNbt.WellFormed.isOk _ raw RawTextOk id (fun _ => .end') (fun _ ok => ok.2) wellFormed
    rw [stays]
    exact ⟨again, wrote, raw, read, kept, wrote⟩

/-- A well-formed file is read as it was written where none of its texts begins with a byte order mark or has a
surrogate outside a pair. -/
theorem decodeNbt_of_encodeNbt {root : NamedNbt Utf16} (fits : NbtTextsFit root) :
    (∃ bytes, encodeNbt utf8Text root = .ok bytes ∧ decodeNbt utf8Text bytes = .ok root.emptied) ↔
      ∀ text ∈ root.texts, text.head? ≠ some 0xFEFF ∧ Utf16.isWellFormed text = true := by
  obtain ⟨bytes, wrote⟩ := @NamedNbt.WellFormed.isOk _ root _ utf8Text.encode (fun _ => .end')
    (fun _ short => short) fits
  have wrote' : encodeNbt utf8Text root = .ok bytes := wrote
  have read := decodeNbt_encodeNbt (fun value _ => utf8Text_decode_encode value) fits wrote'
  have same : decodeNbt utf8Text bytes = .ok root.emptied ↔ root.emptied.map reread = root.emptied := by
    rw [read, Except.ok.injEq]
  simp only [← reread_eq_self]
  rw [← NamedNbt.texts_emptied, ← NamedNbt.map_eq_self, ← same]
  constructor
  · rintro ⟨other, is, back⟩
    cases is.symm.trans wrote'
    exact back
  · exact fun back => ⟨bytes, wrote', back⟩

/-- A file is written again as it was read, but for the element types of its empty lists, exactly where no
    text in it begins with a byte order mark; and a well-formed one is read as it was written exactly where
    none of its texts does, or has a surrogate outside a pair. -/
theorem nbt_reproduced (source : List UInt8) (root : NamedNbt Utf16) :
    (decodeNbt utf8Text source = .ok root →
      ((∃ again, encodeNbt utf8Text root = .ok again ∧ SameButEmpty source again) ↔
        ¬ SpellsMark source)) ∧
    (NbtTextsFit root →
      ((∃ bytes, encodeNbt utf8Text root = .ok bytes ∧ decodeNbt utf8Text bytes = .ok root.emptied) ↔
        ∀ text ∈ root.texts, text.head? ≠ some 0xFEFF ∧ Utf16.isWellFormed text = true)) :=
  ⟨encodeNbt_decodeNbt, decodeNbt_of_encodeNbt⟩

def letters : NamedNbt Utf16 := ⟨[65], .string [66]⟩

theorem letters_fit : NbtTextsFit letters :=
  ⟨by decide, show (utf8Bytes [66]).length ≤ 65535 by decide⟩

theorem nbt_reproduced_letters :
    ∃ bytes, encodeNbt utf8Text letters = .ok bytes ∧
      decodeNbt utf8Text bytes = .ok letters.emptied ∧
      ((∃ again, encodeNbt utf8Text letters.emptied = .ok again ∧ SameButEmpty bytes again) ↔
        ¬ SpellsMark bytes) := by
  obtain ⟨bytes, wrote, read⟩ := ((nbt_reproduced [] letters).2 letters_fit).mpr fun text there => by
    have either : text = [65] ∨ text = [66] := by
      simpa [letters, NamedNbt.texts, NbtTag.texts] using there
    rcases either with rfl | rfl <;> decide
  exact ⟨bytes, wrote, read, (nbt_reproduced bytes letters.emptied).1 read⟩

/-- A string that begins with a byte order mark. -/
def markedSource : List UInt8 := [8, 0, 0, 0, 4, 0xEF, 0xBB, 0xBF, 0x61]

theorem markedSource_spells : SpellsMark markedSource := by
  have wrote : encodeNbt rawText ⟨[], .string [0xEF, 0xBB, 0xBF, 0x61]⟩ = .ok markedSource := rfl
  have valid : (Utf8.decode [0xEF, 0xBB, 0xBF, 0x61]).isSome = true := by
    have is := Utf8.decode_encode [byteOrderMark, 'a']
    rw [show Utf8.encode [byteOrderMark, 'a'] = [0xEF, 0xBB, 0xBF, 0x61] by decide] at is
    rw [is]
    rfl
  have empty : (Utf8.decode []).isSome = true := by
    rw [show ([] : List UInt8) = Utf8.encode [] from rfl, Utf8.decode_encode]
    rfl
  have wellFormed : NamedNbt.WellFormed RawTextOk ⟨[], .string [0xEF, 0xBB, 0xBF, 0x61]⟩ :=
    ⟨⟨empty, by decide⟩, show RawTextOk [0xEF, 0xBB, 0xBF, 0x61] from ⟨valid, by decide⟩⟩
  have read := decodeNbt_encodeNbt rawText_reads wellFormed wrote
  rw [NamedNbt.map_id] at read
  refine ⟨_, read, [0xEF, 0xBB, 0xBF, 0x61], ?_, [0x61], rfl⟩
  simp [NamedNbt.texts, NamedNbt.emptied, NbtTag.emptied, NbtTag.texts]

/-- It is read and written as another. -/
theorem marked_text_lost :
    ¬ ((∀ source root, decodeNbt utf8Text source = .ok root →
        ∃ again, encodeNbt utf8Text root = .ok again ∧ SameButEmpty source again) ∧
      ∀ root, NbtTextsFit root → ∃ bytes, encodeNbt utf8Text root = .ok bytes ∧
        decodeNbt utf8Text bytes = .ok root.emptied) := by
  rintro ⟨reproduced, -⟩
  have wrote : encodeNbt utf8Text ⟨[], .string [0xFEFF, 0x61]⟩ = .ok markedSource := by rfl
  have fits : NbtTextsFit ⟨[], .string [0xFEFF, 0x61]⟩ :=
    ⟨by decide, show (utf8Bytes [0xFEFF, 0x61]).length ≤ 65535 by decide⟩
  have read := decodeNbt_encodeNbt (fun value _ => utf8Text_decode_encode value) fits wrote
  exact (encodeNbt_decodeNbt read).mp (reproduced _ _ read) markedSource_spells

end Kiln.Relay
