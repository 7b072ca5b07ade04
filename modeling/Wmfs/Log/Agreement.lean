import Wmfs.Log.RoundTrip
import Wmfs.Log.Shape

/-!
# `Wmfs.Log.Agreement`: the C++ and the Python decoders of log packets

The Python decoders check all that `wmfs_log_decode_v1` checks, and more (`Strict`): the category,
the message, the names and the texts are UTF-8 each for itself, the sizes of a field do not wrap
around, floats are finite, and no two names are the same. So a packet that a Python decoder accepts
is accepted by the C++ decoder, with the same values (`decodeRecord_ok_iff`), and the decoders
agree on a packet exactly when it is not one that the C++ decoder accepts without these
(`decoders_agree_iff`).
-/

set_option autoImplicit false

namespace Wmfs.Log

open Wmfs.Lib
open Wmfs.Lib.Utf8 (Text)
open Native (word word16 word32 word64 fieldBytes fieldOffset fieldOffsets offsets start fieldView
  recordView FieldShape HeaderShape Shape)

/-! ### What the views stand for -/

/-- The bytes of a view. -/
def Native.View.bytes (p : List UInt8) (view : Native.View) : List UInt8 :=
  slice p view.offset view.size.toNat

/-- The value of a kind of `wmfs_log_wire_field_kind_v1`, of bits and of a text. -/
def wireValue (kind bits : Nat) (text : Text) : LogValue :=
  if kind = 1 then .boolean (decide (bits ≠ 0))
  else if kind = 2 then .integer (if 2 ^ 63 ≤ bits then (bits : Int) - 2 ^ 64 else bits)
  else if kind = 3 then .integer bits
  else if kind = 4 then .float (.ofNat bits)
  else .text text

/-- A field of a record and its view. -/
structure SameField (p : List UInt8) (view : Native.FieldView) (field : Text × LogValue) :
    Prop where
  name : Utf8.decode (view.name.bytes p) = some field.1
  value : ∃ text, Utf8.decode (view.text.bytes p) = some text ∧
    field.2 = wireValue view.kind.toNat view.bits.toNat text

/-- A record and its views. -/
structure SameRecord (p : List UInt8) (view : Native.RecordView) (fields : List Native.FieldView)
    (record : LogRecord) : Prop where
  level : record.level = view.level.toNat
  flags : record.flags = view.flags.toNat
  category : Utf8.decode (view.category.bytes p) = some record.category
  message : Utf8.decode (view.message.bytes p) = some record.message
  fields : List.Forall₂ (SameField p) fields record.fields.entries
  sequence : record.sequence = view.sequence.toNat
  timeNs : record.timeNs = view.timeNs.toNat
  context : record.context = { session := view.sessionId.toNat
                               submission := view.submissionId.toNat
                               invocation := view.invocationId.toNat
                               operation := view.operationId.toNat }
  droppedBefore : record.droppedBefore = view.droppedBefore.toNat

/-! ### What the Python decoders check besides -/

/-- The bytes of the name of the field at `offset`. -/
def nameBytes (p : List UInt8) (offset : Nat) : List UInt8 :=
  slice p (offset + 24) (word p (offset + 4) 4)

/-- The further checks of a field. -/
structure FieldStrict (p : List UInt8) (offset : Nat) : Prop where
  fits : fieldBytes p offset < 2 ^ 32
  name : (Utf8.decode (nameBytes p offset)).isSome
  finite : word p offset 2 = 4 → Document.isFinite (word64 p (offset + 12)) = true

/-- The further checks of a packet. -/
structure Strict (p : List UInt8) : Prop where
  category : (Utf8.decode (slice p 100 (word p 32 4))).isSome
  fields : ∀ offset ∈ offsets p, FieldStrict p offset
  names : ((offsets p).map (nameBytes p)).Nodup

/-! ### Words and texts -/

/-- A field without a sign is a word. -/
theorem unpack_word {f : Field} {format : List Field} {p : List UInt8} {offset : Nat}
    (hsigned : f.signed = false) (h : offset + f.width ≤ p.length) :
    unpack (f :: format) (p.drop offset) =
      (word p offset f.width : Int) :: unpack format (p.drop (offset + f.width)) :=
  unpack_cons_drop hsigned h

/-- The words of the header. -/
theorem unpack_HEADER {p : List UInt8} (h : 100 ≤ p.length) : unpack HEADER p =
    [(word p 0 8 : Int), word p 8 2, word p 10 2, word p 12 4, word p 16 4, word p 20 4,
      word p 24 4, word p 28 4, word p 32 4, word p 36 4, word p 40 4, word p 44 8, word p 52 8,
      word p 60 8, word p 68 8, word p 76 8, word p 84 8, word p 92 8] := by
  have hword : ∀ (f : Field) format offset, f.signed = false → offset + f.width ≤ 100 →
      unpack (f :: format) (p.drop offset) =
        (word p offset f.width : Int) :: unpack format (p.drop (offset + f.width)) :=
    fun f format offset hsigned hroom => unpack_word hsigned (by omega)
  show unpack HEADER (p.drop 0) = _
  unfold HEADER
  rw [hword _ _ _ rfl (by decide), hword _ _ _ rfl (by decide), hword _ _ _ rfl (by decide),
    hword _ _ _ rfl (by decide), hword _ _ _ rfl (by decide), hword _ _ _ rfl (by decide),
    hword _ _ _ rfl (by decide), hword _ _ _ rfl (by decide), hword _ _ _ rfl (by decide),
    hword _ _ _ rfl (by decide), hword _ _ _ rfl (by decide), hword _ _ _ rfl (by decide),
    hword _ _ _ rfl (by decide), hword _ _ _ rfl (by decide), hword _ _ _ rfl (by decide),
    hword _ _ _ rfl (by decide), hword _ _ _ rfl (by decide), hword _ _ _ rfl (by decide), unpack]
  rfl

/-- What is read from a slice that has the size of the format. -/
theorem unpack_slice {format : List Field} {p : List UInt8} {offset size : Nat}
    (hsize : formatSize format = size) (h : offset + size ≤ p.length) :
    unpack format (slice p offset size) = unpack format (p.drop offset) := by
  have hpack := @pack_unpack format (slice p offset size) (by rw [length_slice h, hsize])
  have hfront := unpack_pack hpack ((p.drop offset).drop size)
  rw [slice, List.take_append_drop] at hfront
  exact hfront.symm

/-- The words of a field. -/
theorem unpack_FIELD {p : List UInt8} {offset : Nat} (h : offset + 24 ≤ p.length) :
    unpack FIELD (slice p offset 24) =
      [(word p offset 2 : Int), word p (offset + 2) 2, word p (offset + 4) 4,
        word p (offset + 8) 4, word p (offset + 12) 8, word p (offset + 20) 4] := by
  have hword : ∀ (f : Field) format back, f.signed = false → back + f.width ≤ 24 →
      unpack (f :: format) (p.drop (offset + back)) =
        (word p (offset + back) f.width : Int) ::
          unpack format (p.drop (offset + (back + f.width))) := by
    intro f format back hsigned hroom
    rw [← Nat.add_assoc]
    exact unpack_word hsigned (by omega)
  rw [unpack_slice (show formatSize FIELD = 24 from rfl) h]
  show unpack FIELD (p.drop (offset + 0)) = _
  unfold FIELD
  rw [hword _ _ _ rfl (by decide), hword _ _ _ rfl (by decide), hword _ _ _ rfl (by decide),
    hword _ _ _ rfl (by decide), hword _ _ _ rfl (by decide), hword _ _ _ rfl (by decide), unpack]
  rfl

/-- The bytes that are decoded are valid UTF-8. -/
theorem decodeText_ok_iff {bytes : List UInt8} {message : String} {text : Text} :
    decodeText bytes message = .ok text ↔ Utf8.decode bytes = some text := by
  unfold decodeText
  cases Utf8.decode bytes with
  | none => simp
  | some found => simp

/-- Two neighbouring texts are UTF-8 when they are together and the first is for itself. -/
theorem decode_slices_isSome_iff {p : List UInt8} {offset m n : Nat} :
    (Utf8.decode (slice p offset (m + n))).isSome ∧ (Utf8.decode (slice p offset m)).isSome ↔
      (∃ front, Utf8.decode (slice p offset m) = some front) ∧
        ∃ back, Utf8.decode (slice p (offset + m) n) = some back := by
  rw [← slice_append_slice]
  constructor
  · intro ⟨hboth, hfront⟩
    obtain ⟨front, hfront⟩ := Option.isSome_iff_exists.mp hfront
    rw [Utf8.decode_encode_append (Utf8.encode_of_decode hfront), Option.isSome_map] at hboth
    exact ⟨⟨front, hfront⟩, Option.isSome_iff_exists.mp hboth⟩
  · intro ⟨⟨front, hfront⟩, back, hback⟩
    rw [Utf8.decode_encode_append (Utf8.encode_of_decode hfront), Option.isSome_map, hback, hfront]
    exact ⟨rfl, rfl⟩

/-! ### The fields in Python -/

section
variable {d : Decoder} {p : List UInt8}

/-- `pure` returns its value. -/
theorem pure_ok_iff {α : Type} {a b : α} : (pure a : Except LogError α) = .ok b ↔ b = a := by
  constructor
  · intro h
    cases h
    rfl
  · intro h
    rw [h]
    rfl

/-- When a value is decoded, and which. -/
theorem decodeValue_ok_iff (hd : LawfulDecoder d) {kind bits : Nat} {text : Text}
    {value : LogValue} (hkind : 1 ≤ kind ∧ kind ≤ 5) (hbits : bits < 2 ^ 64) :
    decodeValue d kind bits text = .ok value ↔ (kind = 1 → bits ≤ 1) ∧
      (kind = 4 → Document.isFinite (.ofNat bits) = true) ∧ value = wireValue kind bits text := by
  obtain rfl | rfl | rfl | rfl | rfl : kind = 1 ∨ kind = 2 ∨ kind = 3 ∨ kind = 4 ∨ kind = 5 := by
    omega
  · have hbool : ¬ (bits : Int) ∉ [0, 1] ↔ bits ≤ 1 := by
      rw [not_not, List.mem_cons, List.mem_singleton]
      omega
    have hvalue : decide ((bits : Int) ≠ 0) = decide (bits ≠ 0) := by
      rw [decide_eq_decide]
      omega
    show (raiseIf _ _ >>= _) = _ ↔ _
    rw [Result.check_bind_ok_iff, raiseIf_ok_iff, hbool, pure_ok_iff, hvalue]
    constructor
    · intro ⟨hone, hvalue⟩
      exact ⟨fun _ => hone, fun h => absurd h (by decide), hvalue⟩
    · intro ⟨hone, _, hvalue⟩
      exact ⟨hone rfl, hvalue⟩
  · have hnegative := hd.negative bits (by omega) (by omega)
    have hsign : (d.negative bits = true) = (2 ^ 63 ≤ bits) := by
      rw [hnegative]
      exact propext ⟨fun h => by omega, fun h => by omega⟩
    show pure (LogValue.integer (if d.negative bits = true then _ else _)) = _ ↔ _
    simp only [hsign]
    rw [pure_ok_iff]
    exact ⟨fun h => ⟨by simp, by simp, h⟩, fun h => h.2.2⟩
  · show pure (LogValue.integer bits) = _ ↔ _
    rw [pure_ok_iff]
    exact ⟨fun h => ⟨by simp, by simp, h⟩, fun h => h.2.2⟩
  · show (raiseIf _ _ >>= fun _ => pure (LogValue.float (.ofNat bits))) = _ ↔ _
    rw [Result.check_bind_ok_iff, raiseIf_ok_iff, Bool.not_eq_false, pure_ok_iff]
    exact ⟨fun h => ⟨by simp, fun _ => h.1, h.2⟩, fun h => ⟨h.2.1 rfl, h.2.2⟩⟩
  · show pure (LogValue.text text) = _ ↔ _
    rw [pure_ok_iff]
    exact ⟨fun h => ⟨by simp, by simp, h⟩, fun h => h.2.2⟩

/-- A check with a proof passes when the fault is absent. -/
theorem dite_throw_ok_iff {α : Type} {q : Prop} [Decidable q] {error : LogError}
    {rest : ¬ q → Except LogError α} {a : α} :
    (if h : q then throw error else rest h) = .ok a ↔ ∃ h : ¬ q, rest h = .ok a := by
  by_cases h : q
  · rw [dif_pos h]
    constructor
    · intro hthrow
      cases hthrow
    · intro ⟨hnot, _⟩
      exact absurd h hnot
  · rw [dif_neg h]
    constructor
    · intro hrest
      exact ⟨h, hrest⟩
    · intro ⟨_, hrest⟩
      exact hrest

/-- The bytes that the views of a field point to. -/
theorem fieldView_bytes (p : List UInt8) (offset : Nat) :
    (fieldView p offset).name.bytes p = nameBytes p offset ∧
      (fieldView p offset).text.bytes p =
        slice p (offset + 24 + word p (offset + 4) 4) (word p (offset + 8) 4) := by
  unfold Native.View.bytes fieldView nameBytes
  rw [UInt32.toNat_toUInt64, UInt32.toNat_toUInt64, Native.toNat_word32, Native.toNat_word32]
  exact ⟨rfl, rfl⟩

/-- The checks of an iteration, in numbers. -/
theorem fieldChecks_iff {offset : Nat} :
    ¬ ((word p (offset + 2) 2 : Int) ≠ 0 ∨ (word p (offset + 20) 4 : Int) ≠ 0 ∨
      (word p (offset + 4) 4 : Int) = 0 ∨ (word p (offset + 4) 4 : Int) > MAX_LOG_NAME_BYTES ∨
      offset + 24 + word p (offset + 4) 4 + word p (offset + 8) 4 > p.length ∨
      (word p offset 2 : Int) ∉ [1, 2, 3, 4, 5]) ↔
    word p (offset + 2) 2 = 0 ∧ word p (offset + 20) 4 = 0 ∧
      (1 ≤ word p (offset + 4) 4 ∧ word p (offset + 4) 4 ≤ 255) ∧
      offset + 24 + word p (offset + 4) 4 + word p (offset + 8) 4 ≤ p.length ∧
      (1 ≤ word p offset 2 ∧ word p offset 2 ≤ 5) := by
  simp only [List.mem_cons, List.not_mem_nil, or_false, MAX_LOG_NAME_BYTES]
  omega

/-- The outcome of an iteration over a field. -/
theorem decodeField_ok_iff (hd : LawfulDecoder d) {fields found : Fields} {offset stop : Nat}
    (hsize : p.length ≤ 65536) : decodeField d p fields offset = .ok (found, stop) ↔
      FieldShape p offset ∧ FieldStrict p offset ∧ stop = offset + 24 + fieldBytes p offset ∧
        ∃ field, SameField p (fieldView p offset) field ∧
          field.1 ∉ fields.entries.map Prod.fst ∧ found.entries = fields.entries ++ [field] := by
  rw [decodeField, Result.check_bind_ok_iff, raiseIf_ok_iff]
  by_cases hheader : offset + 24 ≤ p.length
  · rw [unpack_FIELD hheader]
    dsimp only
    rw [Result.check_bind_ok_iff, raiseIf_ok_iff]
    simp only [Result.bind_ok_iff, decodeText_ok_iff, dite_throw_ok_iff, raiseIf_ok_iff,
      Int.toNat_natCast, fieldChecks_iff]
    have hbytes := Native.fieldBytes_eq hheader
    obtain ⟨hnameBytes, htextBytes⟩ := fieldView_bytes p offset
    have hbits : word p (offset + 12) 8 < 2 ^ 64 := Native.word_lt p (offset + 12) 8
    constructor
    · rintro ⟨_, ⟨hflags, hreserved, hnameSize, hinside, hkind⟩, name, hname, text, htext, hnew, _,
        hconsistent, value, hvalue, h⟩
      rw [decodeValue_ok_iff hd hkind hbits] at hvalue
      obtain ⟨hboolean, hfinite, hvalue⟩ := hvalue
      rw [pure_ok_iff] at h
      cases h
      have hfits : fieldBytes p offset < 2 ^ 32 := by omega
      have hmod := Nat.mod_eq_of_lt hfits
      refine ⟨?_, ?_, ?_, ?_⟩
      · exact {
          header := hheader
          kind := hkind
          flags := hflags
          name := hnameSize
          reserved := hreserved
          inside := by
            rw [hmod]
            omega
          text := by
            intro hne
            omega
          bits := by
            intro heq
            omega
          boolean := hboolean
          utf8 := by
            rw [hmod, hbytes]
            exact (decode_slices_isSome_iff.mpr ⟨⟨name, hname⟩, text, htext⟩).1 }
      · exact {
          fits := hfits
          name := by
            rw [nameBytes, hname]
            rfl
          finite := hfinite }
      · rw [hbytes]
        omega
      · refine ⟨(name, value), ?_, hnew, rfl⟩
        exact {
          name := by rw [hnameBytes]; exact hname
          value := by
            refine ⟨text, by rw [htextBytes]; exact htext, ?_⟩
            rw [hvalue]
            show _ = wireValue (word16 p offset).toNat (word64 p (offset + 12)).toNat text
            rw [Native.toNat_word16, Native.toNat_word64] }
    · rintro ⟨hshape, hstrict, hstop, ⟨name, value⟩, hsame, hnew, hentries⟩
      have hname := hsame.name
      obtain ⟨text, htext, hvalue⟩ := hsame.value
      have hinside := hshape.inside
      have hmod := Nat.mod_eq_of_lt hstrict.fits
      rw [hnameBytes] at hname
      rw [htextBytes] at htext
      have hvalue : value = wireValue (word p offset 2) (word p (offset + 12) 8) text := by
        rw [← Native.toNat_word16, ← Native.toNat_word64]
        exact hvalue
      have htextZero := hshape.text
      have hbitsZero := hshape.bits
      refine ⟨by omega, ⟨hshape.flags, hshape.reserved, hshape.name, by omega, hshape.kind⟩, name,
        hname, text, htext, hnew, (), by omega, value, ?_, ?_⟩
      · rw [decodeValue_ok_iff hd hshape.kind hbits]
        exact ⟨hshape.boolean, hstrict.finite, hvalue⟩
      · rw [pure_ok_iff, Prod.mk.injEq]
        refine ⟨?_, by omega⟩
        ext1
        exact hentries
  · constructor
    · rintro ⟨hroom, _⟩
      exact absurd hroom (by omega)
    · rintro ⟨hshape, _⟩
      exact absurd hshape.header hheader

/-- The outcome of the loop over the fields. -/
theorem decodeFields_ok_iff (hd : LawfulDecoder d) {count : Nat} {fields found : Fields}
    {offset stop : Nat} (hsize : p.length ≤ 65536) :
    decodeFields d p count fields offset = .ok (found, stop) ↔
      (∀ header ∈ fieldOffsets p offset count, FieldShape p header ∧ FieldStrict p header) ∧
        stop = fieldOffset p offset count ∧ ∃ entries,
          List.Forall₂ (SameField p) ((fieldOffsets p offset count).map (fieldView p)) entries ∧
            (fields.entries.map Prod.fst ++ entries.map Prod.fst).Nodup ∧
            found.entries = fields.entries ++ entries := by
  induction count generalizing fields offset with
  | zero =>
    rw [decodeFields, pure_ok_iff, fieldOffsets, fieldOffset, List.map_nil, Prod.mk.injEq]
    constructor
    · rintro ⟨hfound, hstop⟩
      subst hfound
      exact ⟨by simp, hstop, [], .nil, by simpa using found.nodup, (List.append_nil _).symm⟩
    · rintro ⟨_, hstop, entries, hentries, _, hfound⟩
      cases hentries
      rw [List.append_nil] at hfound
      exact ⟨Fields.ext hfound, hstop⟩
  | succ count ih =>
    rw [decodeFields, fieldOffsets, fieldOffset, List.forall_mem_cons, List.map_cons]
    constructor
    · intro h
      obtain ⟨⟨middle, next⟩, hfield, h⟩ := Result.bind_ok_iff.mp h
      obtain ⟨hshape, hstrict, hnext, field, hsame, hnew, hmiddle⟩ :=
        (decodeField_ok_iff hd hsize).mp hfield
      rw [Nat.mod_eq_of_lt hstrict.fits, ← hnext]
      obtain ⟨hall, hstop, entries, hentries, hnodup, hfound⟩ := ih.mp h
      refine ⟨⟨⟨hshape, hstrict⟩, hall⟩, hstop, field :: entries, .cons hsame hentries, ?_, ?_⟩
      · rw [hmiddle, List.map_append, List.append_assoc] at hnodup
        exact hnodup
      · rw [hfound, hmiddle, List.append_assoc]
        rfl
    · rintro ⟨⟨⟨hshape, hstrict⟩, hall⟩, hstop, entries, hentries, hnodup, hfound⟩
      rw [Nat.mod_eq_of_lt hstrict.fits] at hall hstop hentries
      cases hentries with
      | @cons _ field _ entries hsame hentries =>
        have hnew : field.1 ∉ fields.entries.map Prod.fst := by
          intro hmem
          rw [List.map_cons, List.nodup_append] at hnodup
          exact hnodup.2.2 field.1 hmem field.1 List.mem_cons_self rfl
        have hfield : decodeField d p fields offset =
            .ok (fields.push field.1 field.2 hnew, offset + 24 + fieldBytes p offset) :=
          (decodeField_ok_iff hd hsize).mpr
            ⟨hshape, hstrict, rfl, field, hsame, hnew, rfl⟩
        rw [hfield, Result.ok_bind]
        apply ih.mpr
        refine ⟨hall, hstop, entries, hentries, ?_, ?_⟩
        · show ((fields.entries ++ [field]).map Prod.fst ++ entries.map Prod.fst).Nodup
          rw [List.map_append, List.append_assoc]
          exact hnodup
        · show found.entries = fields.entries ++ [field] ++ entries
          rw [hfound, List.append_assoc]
          rfl

/-- Texts are different when their bytes are. -/
theorem nodup_iff_of_decode {names : List (List UInt8)} {texts : List Text}
    (h : List.Forall₂ (fun name text => Utf8.decode name = some text) names texts) :
    texts.Nodup ↔ names.Nodup := by
  have hencode : texts.map Utf8.encode = names.map some := by
    induction h with
    | nil => rfl
    | cons hdecode _ ih => rw [List.map_cons, List.map_cons, Utf8.encode_of_decode hdecode, ih]
  rw [← List.nodup_map_iff (Option.some_injective (List UInt8)), ← hencode]
  constructor
  · intro hnodup
    apply hnodup.map_on
    intro text htext other hother heq
    obtain ⟨name, hname⟩ : ∃ name, Utf8.encode text = some name := by
      have hmem : Utf8.encode text ∈ names.map some := by
        rw [← hencode]
        exact List.mem_map_of_mem htext
      obtain ⟨name, _, hname⟩ := List.mem_map.mp hmem
      exact ⟨name, hname.symm⟩
    have htext := Utf8.decode_encode hname
    rw [heq] at hname
    exact Option.some_injective _ (htext.symm.trans (Utf8.decode_encode hname))
  · exact List.Nodup.of_map Utf8.encode

/-- The names of the fields of a record are different when their bytes are. -/
theorem names_nodup_iff {headers : List Nat} {entries : List (Text × LogValue)}
    (h : List.Forall₂ (SameField p) (headers.map (fieldView p)) entries) :
    (entries.map Prod.fst).Nodup ↔ (headers.map (nameBytes p)).Nodup := by
  apply nodup_iff_of_decode
  rw [List.forall₂_map_left_iff] at h
  rw [List.forall₂_map_left_iff, List.forall₂_map_right_iff]
  apply h.imp
  intro header field hsame
  rw [← (fieldView_bytes p header).1]
  exact hsame.name

/-- A field that passes all checks has a name and a value. -/
theorem exists_sameField {offset : Nat} (hshape : FieldShape p offset)
    (hstrict : FieldStrict p offset) : ∃ field, SameField p (fieldView p offset) field := by
  obtain ⟨hnameBytes, htextBytes⟩ := fieldView_bytes p offset
  have hutf8 := hshape.utf8
  rw [Nat.mod_eq_of_lt hstrict.fits, Native.fieldBytes_eq hshape.header] at hutf8
  obtain ⟨⟨name, hname⟩, text, htext⟩ := decode_slices_isSome_iff.mp ⟨hutf8, hstrict.name⟩
  exact ⟨(name, wireValue _ _ text), by rw [hnameBytes]; exact hname, text,
    by rw [htextBytes]; exact htext, rfl⟩

/-- Fields of the right shape stand for fields in Python. -/
theorem exists_sameFields {headers : List Nat} (hshape : ∀ header ∈ headers, FieldShape p header)
    (hstrict : ∀ header ∈ headers, FieldStrict p header) :
    ∃ entries, List.Forall₂ (SameField p) (headers.map (fieldView p)) entries := by
  induction headers with
  | nil => exact ⟨[], .nil⟩
  | cons header headers ih =>
    rw [List.forall_mem_cons] at hshape hstrict
    obtain ⟨field, hfield⟩ := exists_sameField hshape.1 hstrict.1
    obtain ⟨entries, hentries⟩ := ih hshape.2 hstrict.2
    exact ⟨field :: entries, .cons hfield hentries⟩

/-! ### Records in Python -/

/-- The checks of the header and of the texts, in numbers. -/
theorem headerChecks_iff (hd : LawfulDecoder d) {size : Nat} {rest : List Int} :
    d.checkHeader size ((word p 0 8 : Int) :: word p 8 2 :: word p 10 2 :: word p 12 4 ::
        word p 16 4 :: word p 20 4 :: word p 24 4 :: word p 28 4 :: word p 32 4 :: word p 36 4 ::
        word p 40 4 :: rest) = .ok () ↔
      word p 0 8 = 0x31474F4C53464D57 ∧ (word p 8 2 = 1 ∧ word p 10 2 = 0) ∧ word p 12 4 = 100 ∧
        word p 16 4 = size ∧ word p 20 4 < 4 ∧ word p 24 4 ∈ [10, 20, 30, 40, 50] ∧
        word p 28 4 ≤ 32 ∧ word p 40 4 = 0 := by
  have hlevel : unknownLevel (word p 24 4) = false ↔ word p 24 4 ∈ [10, 20, 30, 40, 50] := by
    rw [unknownLevel, decide_eq_false_iff_not, not_not]
    simp only [List.mem_cons, List.not_mem_nil, or_false]
    omega
  rw [hd.checkHeader, unknownFlags_eq_false_iff, hlevel, LOG_MAGIC]
  constructor
  · rintro ⟨hmagic, hmajor, hminor, hheader, htotal, hflags, hlevel, hcount, hreserved⟩
    exact ⟨by omega, by omega, by omega, by omega, by omega, hlevel, by omega, by omega⟩
  · rintro ⟨hmagic, hversion, hheader, htotal, hflags, hlevel, hcount, hreserved⟩
    exact ⟨by omega, by omega, by omega, by omega, by omega, by omega, hlevel, by omega, by omega⟩

/-- The bytes that the views of a record point to. -/
theorem recordView_bytes (p : List UInt8) :
    (recordView p).category.bytes p = slice p 100 (word p 32 4) ∧
      (recordView p).message.bytes p = slice p (100 + word p 32 4) (word p 36 4) := by
  unfold Native.View.bytes recordView
  rw [UInt32.toNat_toUInt64, UInt32.toNat_toUInt64, Native.toNat_word32, Native.toNat_word32]
  exact ⟨rfl, rfl⟩

/-- The outcome of a Python decoder. -/
theorem decodeRecord_ok_iff (hd : LawfulDecoder d) {record : LogRecord} :
    decodeRecord d p = .ok record ↔ Shape p ∧ Strict p ∧
      SameRecord p (recordView p) ((offsets p).map (fieldView p)) record := by
  rw [decodeRecord, Result.check_bind_ok_iff, raiseIf_ok_iff]
  by_cases hsize : 100 ≤ p.length ∧ p.length ≤ 65536
  · rw [unpack_HEADER hsize.1]
    dsimp only
    simp only [headerChecks_iff hd, raiseIf_ok_iff, Result.bind_ok_iff, decodeText_ok_iff,
      Int.toNat_natCast]
    obtain ⟨hcategoryBytes, hmessageBytes⟩ := recordView_bytes p
    constructor
    · rintro ⟨_, _, ⟨hmagic, hversion, hheader, htotal, hflags, hlevel, hcount, hreserved⟩, _,
        hbounds, category, hcategory, message, hmessage, ⟨found, stop⟩, hfields, _, hstop, h⟩
      rw [pure_ok_iff] at h
      obtain ⟨hall, hend, entries, hentries, hnodup, hfound⟩ :=
        (decodeFields_ok_iff hd hsize.2).mp hfields
      rw [not_not] at hstop
      simp only [MAX_LOG_CATEGORY_BYTES, MAX_LOG_MESSAGE_BYTES] at hbounds
      refine ⟨?_, ?_, ?_⟩
      · exact {
          size := hsize
          magic := hmagic
          version := hversion
          header := hheader
          total := htotal
          flags := hflags
          level := hlevel
          count := hcount
          texts := by omega
          reserved := hreserved
          inside := by omega
          utf8 := (decode_slices_isSome_iff.mpr ⟨⟨category, hcategory⟩, message, hmessage⟩).1
          fields := fun header hheader => (hall header hheader).1
          stop := hend.symm.trans hstop }
      · exact {
          category := by rw [hcategory]; rfl
          fields := fun header hheader => (hall header hheader).2
          names := (names_nodup_iff hentries).mp hnodup }
      · subst h
        exact {
          level := by rw [recordView, Native.toNat_word32]
          flags := by rw [recordView, Native.toNat_word32]
          category := by rw [hcategoryBytes, hcategory]
          message := by rw [hmessageBytes, hmessage]
          fields := by
            show List.Forall₂ _ _ found.entries
            rw [hfound]
            exact hentries
          sequence := by rw [recordView, Native.toNat_word64]
          timeNs := by rw [recordView, Native.toNat_word64]
          context := by simp only [recordView, Native.toNat_word64]
          droppedBefore := by rw [recordView, Native.toNat_word64] }
    · rintro ⟨hshape, hstrict, hsame⟩
      have hinside := hshape.inside
      have htexts := hshape.texts
      have hcategory := hsame.category
      have hmessage := hsame.message
      have hnames := (names_nodup_iff hsame.fields).mpr hstrict.names
      have hfields : decodeFields d p (word p 28 4) .empty (start p) =
          .ok (record.fields, fieldOffset p (start p) (word p 28 4)) :=
        (decodeFields_ok_iff hd hsize.2).mpr
          ⟨fun header hheader => ⟨hshape.fields header hheader, hstrict.fields header hheader⟩,
            rfl, _, hsame.fields, hnames, rfl⟩
      rw [hcategoryBytes] at hcategory
      rw [hmessageBytes] at hmessage
      simp only [LOG_HEADER_SIZE, MAX_LOG_RECORD_BYTES, MAX_LOG_CATEGORY_BYTES,
        MAX_LOG_MESSAGE_BYTES]
      refine ⟨by omega, (), ⟨hshape.magic, hshape.version, hshape.header, hshape.total,
        hshape.flags, hshape.level, hshape.count, hshape.reserved⟩, (), by omega, _, hcategory, _,
        hmessage, _, hfields, (), not_not.mpr hshape.stop, ?_⟩
      rw [pure_ok_iff]
      have hlevel := hsame.level
      have hflags := hsame.flags
      have hsequence := hsame.sequence
      have htime := hsame.timeNs
      have hcontext := hsame.context
      have hdropped := hsame.droppedBefore
      simp only [recordView, Native.toNat_word32, Native.toNat_word64]
        at hlevel hflags hsequence htime hcontext hdropped
      rw [← hlevel, ← hflags, ← hsequence, ← htime, ← hcontext, ← hdropped]
  · constructor
    · rintro ⟨hroom, _⟩
      simp only [LOG_HEADER_SIZE, MAX_LOG_RECORD_BYTES] at hroom
      omega
    · rintro ⟨hshape, _⟩
      exact absurd hshape.size hsize

/-- The packets that a Python decoder accepts. -/
theorem exists_record_iff (hd : LawfulDecoder d) :
    (∃ record, decodeRecord d p = .ok record) ↔ Shape p ∧ Strict p := by
  constructor
  · intro ⟨record, h⟩
    obtain ⟨hshape, hstrict, _⟩ := (decodeRecord_ok_iff hd).mp h
    exact ⟨hshape, hstrict⟩
  · intro ⟨hshape, hstrict⟩
    obtain ⟨entries, hentries⟩ := exists_sameFields hshape.fields hstrict.fields
    obtain ⟨⟨category, hcategory⟩, message, hmessage⟩ :=
      decode_slices_isSome_iff.mp ⟨hshape.utf8, hstrict.category⟩
    obtain ⟨hcategoryBytes, hmessageBytes⟩ := recordView_bytes p
    refine ⟨{
      level := (recordView p).level.toNat
      message
      category
      fields := ⟨entries, (names_nodup_iff hentries).mpr hstrict.names⟩
      sequence := (recordView p).sequence.toNat
      timeNs := (recordView p).timeNs.toNat
      context := { session := (recordView p).sessionId.toNat
                   submission := (recordView p).submissionId.toNat
                   invocation := (recordView p).invocationId.toNat
                   operation := (recordView p).operationId.toNat }
      flags := (recordView p).flags.toNat
      droppedBefore := (recordView p).droppedBefore.toNat }, ?_⟩
    rw [decodeRecord_ok_iff hd]
    refine ⟨hshape, hstrict, ?_⟩
    exact {
      level := rfl
      flags := rfl
      category := by rw [hcategoryBytes, hcategory]
      message := by rw [hmessageBytes, hmessage]
      fields := hentries
      sequence := rfl
      timeNs := rfl
      context := rfl
      droppedBefore := rfl }

end

/-! ### The decoders of both languages -/

/-- The byte string of a packet. A null pointer has no bytes. -/
def Native.Packet.bytes (packet : Native.Packet) : List UInt8 := packet.data.getD []

/-- Room for every field that a packet may have. -/
def roomy : Native.Destination := ⟨true, true, 32⟩

/-- `wmfs_log_decode_v1` and the two Python decoders accept a packet together, and read the same
record from it. -/
structure DecodersAgree (packet : Native.Packet) : Prop where
  accept : ∀ implementation, (∃ views, Native.wmfsLogDecodeV1 packet roomy = .ok views) ↔
    ∃ record, decodeRecord (decoder implementation) packet.bytes = .ok record
  same : ∀ implementation view fields record,
    Native.wmfsLogDecodeV1 packet roomy = .ok (view, fields) →
      decodeRecord (decoder implementation) packet.bytes = .ok record →
        SameRecord packet.bytes view fields record

/-- The packets that the C++ decoder accepts. -/
theorem exists_views_iff (packet : Native.Packet) :
    (∃ views, Native.wmfsLogDecodeV1 packet roomy = .ok views) ↔ Shape packet.bytes := by
  cases hdata : packet.data with
  | none =>
    have hbytes : packet.bytes = [] := by rw [Native.Packet.bytes, hdata]; rfl
    rw [hbytes, Native.wmfsLogDecodeV1, hdata]
    constructor
    · rintro ⟨_, h⟩
      cases h
    · intro hshape
      exact absurd hshape.size.1 (by decide +kernel)
  | some p =>
    have hbytes : packet.bytes = p := by rw [Native.Packet.bytes, hdata]; rfl
    rw [hbytes]
    constructor
    · rintro ⟨_, h⟩
      exact ((Native.wmfsLogDecodeV1_eq_ok_iff hdata).mp h).1
    · intro hshape
      exact ⟨_, (Native.wmfsLogDecodeV1_eq_ok_iff hdata).mpr ⟨hshape, rfl, rfl⟩⟩

/-- The views are those of the bytes. -/
theorem views_eq {packet : Native.Packet} {view : Native.RecordView}
    {fields : List Native.FieldView}
    (h : Native.wmfsLogDecodeV1 packet roomy = .ok (view, fields)) :
    view = recordView packet.bytes ∧
      fields = (offsets packet.bytes).map (fieldView packet.bytes) := by
  cases hdata : packet.data with
  | none =>
    rw [Native.wmfsLogDecodeV1, hdata] at h
    cases h
  | some p =>
    have hbytes : packet.bytes = p := by rw [Native.Packet.bytes, hdata]; rfl
    rw [hbytes]
    exact ((Native.wmfsLogDecodeV1_eq_ok_iff hdata).mp h).2

/-- The decoders agree on a packet unless the C++ decoder accepts it without the further checks of
the Python decoders. -/
theorem decoders_agree_iff (packet : Native.Packet) :
    DecodersAgree packet ↔ (Shape packet.bytes → Strict packet.bytes) := by
  constructor
  · intro hagree hshape
    have haccept := (hagree.accept .runtime).mp ((exists_views_iff packet).mpr hshape)
    exact ((exists_record_iff (decoder_lawful .runtime)).mp haccept).2
  · intro hstrict
    constructor
    · intro implementation
      rw [exists_views_iff, exists_record_iff (decoder_lawful implementation)]
      constructor
      · intro hshape
        exact ⟨hshape, hstrict hshape⟩
      · intro ⟨hshape, _⟩
        exact hshape
    · intro implementation view fields record hviews hrecord
      obtain ⟨rfl, rfl⟩ := views_eq hviews
      exact ((decodeRecord_ok_iff (decoder_lawful implementation)).mp hrecord).2.2

/-! ### Single packets -/

/-- A packet with these sizes, this number of fields, and these bytes behind the header. -/
def sizedPacket (categorySize messageSize count : UInt8) (body : List UInt8) : List UInt8 :=
  [0x57, 0x4D, 0x46, 0x53, 0x4C, 0x4F, 0x47, 0x31, 1, 0, 0, 0, 100, 0, 0, 0] ++
    [.ofNat (100 + body.length), 0, 0, 0] ++ [0, 0, 0, 0, 10, 0, 0, 0, count, 0, 0, 0] ++
    [categorySize, 0, 0, 0, messageSize, 0, 0, 0] ++ zeros 60 ++ body

/-- The field `a` with this kind and these bits. -/
def plainField (kind : UInt8) (bits : List UInt8) : List UInt8 :=
  [kind, 0, 0, 0, 1, 0, 0, 0, 0, 0, 0, 0] ++ bits ++ [0, 0, 0, 0, 97]

/-- A byte string as a packet. -/
def packetOf (bytes : List UInt8) (h : bytes.length < 2 ^ 64) : Native.Packet where
  data := some bytes
  size := .ofNat bytes.length
  size_eq := by
    intro found hfound
    cases hfound
    rw [UInt64.toNat_ofNat']
    exact Nat.mod_eq_of_lt h

/-- A packet that the C++ decoder accepts and the runtime does not. -/
def Disputed (packet : Native.Packet) : Bool :=
  (Native.wmfsLogDecodeV1 packet roomy).toBool && !(Runtime.decodeLogRecord packet.bytes).toBool

/-- On a disputed packet the decoders do not agree. -/
theorem not_agree_of_disputed {packet : Native.Packet} (h : Disputed packet = true) :
    ¬ DecodersAgree packet := by
  intro hagree
  rw [Disputed, Bool.and_eq_true, Bool.not_eq_true'] at h
  obtain ⟨hviews, hrecord⟩ := h
  cases hnative : Native.wmfsLogDecodeV1 packet roomy with
  | error stop =>
    rw [hnative] at hviews
    cases hviews
  | ok views =>
    obtain ⟨record, hpython⟩ := (hagree.accept .runtime).mp ⟨views, hnative⟩
    rw [show Runtime.decodeLogRecord packet.bytes = .ok record from hpython] at hrecord
    cases hrecord

/-- A character of two bytes, the first of which is the category and the second the message. -/
def straddlingPacket : Native.Packet :=
  packetOf (sizedPacket 1 1 0 [0xC3, 0xA9]) (by decide +kernel)

/-- A field with an infinite float. -/
def infinitePacket : Native.Packet :=
  packetOf (sizedPacket 0 0 1 (plainField 4 [0, 0, 0, 0, 0, 0, 0xF0, 0x7F])) (by decide +kernel)

/-- Two fields with one name. -/
def repeatedPacket : Native.Packet :=
  packetOf (sizedPacket 0 0 2 (plainField 3 (zeros 8) ++ plainField 3 (zeros 8))) (by decide +kernel)

/-- The C++ decoder accepts packets that the Python decoders refuse. -/
theorem decoders_disagree : ¬ DecodersAgree straddlingPacket ∧ ¬ DecodersAgree infinitePacket ∧
    ¬ DecodersAgree repeatedPacket ∧ ¬ DecodersAgree Native.overlongPacket := by
  refine ⟨not_agree_of_disputed ?_, not_agree_of_disputed ?_, not_agree_of_disputed ?_,
    not_agree_of_disputed ?_⟩
  · decide +kernel
  · decide +kernel
  · decide +kernel
  · decide +kernel

end Wmfs.Log
