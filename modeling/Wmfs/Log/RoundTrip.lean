import Wmfs.Log.Encoding

/-!
# `Wmfs.Log.RoundTrip`: log records that come back

A decoder gives back the fields of a packet, as the encoder carried them, when no name is empty
and no two names are the same (`decodeFields_parts`). The encoders check neither: a name may be
empty, and two names may be the same after the cut to 255 bytes. Such a packet is refused
(`survives_iff`).

What comes back otherwise is `carriedRecord`: texts are prefixes of those of the record, numbers
are those of the record, and fields are an initial segment. The flag for truncation is added
exactly when something is missing.
-/

set_option autoImplicit false

namespace Wmfs.Log

open Wmfs.Lib
open Wmfs.Lib.Utf8 (Text)

/-- Where a codec is from. -/
inductive Implementation where
  | runtime
  | sdk
  deriving DecidableEq, Repr

/-- `encode_log_record` of an implementation. -/
def encoder : Implementation → Encoder
  | .runtime => runtimeEncoder
  | .sdk => sdkEncoder

/-- `decode_log_record` of an implementation. -/
def decoder : Implementation → Decoder
  | .runtime => runtimeDecoder
  | .sdk => sdkDecoder

/-- Both encoders are lawful. -/
theorem encoder_lawful (implementation : Implementation) :
    LawfulEncoder (encoder implementation) := by
  cases implementation with
  | runtime => exact runtimeEncoder_lawful
  | sdk => exact sdkEncoder_lawful

/-! ### The carried fields -/

/-- The fields that the packet has room for, as they are written behind the fields `parts`. -/
def carriedFields (e : Encoder) (limit payload : Int) :
    List (Text × LogValue) → List (List UInt8) → List (Text × LogValue)
  | [], _ => []
  | field :: items, parts =>
    match partOf (carriedField e limit payload parts field) with
    | none => []
    | some part =>
      if 100 + payload + totalLength parts + part.length > limit then []
      else carriedField e limit payload parts field ::
        carriedFields e limit payload items (parts ++ [part])

/-- A field of a packet and the field that it was written for. -/
structure FieldShortened (field carried : Text × LogValue) : Prop where
  name : carried.1 <+: field.1
  value : carried.2 = field.2 ∨
    ∃ text cut, field.2 = .text text ∧ carried.2 = .text cut ∧ cut <+: text

/-- A field in the packet is the one of the record, or shorter. -/
theorem carriedField_shortened (e : Encoder) (limit payload : Int) (parts : List (List UInt8))
    (field : Text × LogValue) :
    FieldShortened field (carriedField e limit payload parts field) := by
  refine ⟨Utf8.cut_prefix field.1 255, ?_⟩
  obtain ⟨name, value⟩ := field
  cases value with
  | text value => exact .inr ⟨value, _, rfl, rfl, Utf8.cut_prefix _ _⟩
  | boolean value => exact .inl rfl
  | integer value => exact .inl rfl
  | float bits => exact .inl rfl

/-- What a part of the packet says about its field. -/
def IsPart (field : Text × LogValue) (part : List UInt8) : Prop :=
  ValuePacks field.2 ∧ Utf8.size field.1 ≤ 255 ∧ partOf field = some part

section
variable {e : Encoder} {limit payload : Int}

/-- The carried fields stand for an initial segment of the fields. -/
theorem carriedFields_segment (e : Encoder) (limit payload : Int) (items : List (Text × LogValue)) (parts : List (List UInt8)) :
    ∃ kept, kept <+: items ∧
      List.Forall₂ FieldShortened kept (carriedFields e limit payload items parts) := by
  induction items generalizing parts with
  | nil => exact ⟨[], List.prefix_rfl, .nil⟩
  | cons field items ih =>
    rw [carriedFields]
    split
    · exact ⟨[], List.nil_prefix, .nil⟩
    · split
      · exact ⟨[], List.nil_prefix, .nil⟩
      · rename_i part _ _
        obtain ⟨kept, hprefixed, hkept⟩ := ih (parts ++ [part])
        exact ⟨field :: kept, (List.prefix_cons_inj field).mpr hprefixed,
          .cons (carriedField_shortened e limit payload parts field) hkept⟩

/-- No more fields are in the packet than in the record. -/
theorem length_carriedFields_le (items : List (Text × LogValue)) (parts : List (List UInt8)) :
    (carriedFields e limit payload items parts).length ≤ items.length := by
  obtain ⟨kept, hprefixed, hkept⟩ := carriedFields_segment e limit payload items parts
  rw [← hkept.length_eq]
  exact hprefixed.length_le

/-- What the loop returns: a part for each carried field, and whether these are not all. -/
theorem encodeFields_ok (he : LawfulEncoder e) (hlimit : limit ≤ 65536) (hpayload : 0 ≤ payload)
    {items : List (Text × LogValue)} {parts found : List (List UInt8)} {truncated truncated' : Bool}
    (h : encodeFields e limit payload items parts truncated = .ok (found, truncated')) :
    ∃ new, found = parts ++ new ∧
      List.Forall₂ IsPart (carriedFields e limit payload items parts) new ∧
      truncated' = (truncated || decide (carriedFields e limit payload items parts ≠ items)) := by
  induction items generalizing parts truncated with
  | nil =>
    cases h
    exact ⟨[], (List.append_nil _).symm, .nil, by simp [carriedFields]⟩
  | cons field items ih =>
    by_cases hpacks : Packs field
    · obtain ⟨part, hpart, hstep⟩ := encodeFields_cons he hlimit hpayload parts hpacks items
        truncated
      rw [hstep] at h
      by_cases hfits : 100 + payload + totalLength parts + part.length > limit
      · have hnone : carriedFields e limit payload (field :: items) parts = [] := by
          rw [carriedFields, hpart]
          exact if_pos hfits
        rw [hnone]
        rw [if_pos hfits] at h
        cases h
        exact ⟨[], (List.append_nil _).symm, .nil, by simp⟩
      · rw [if_neg hfits] at h
        obtain ⟨new, hfound, hnew, htruncated⟩ := ih h
        have hmore : carriedFields e limit payload (field :: items) parts =
            carriedField e limit payload parts field ::
              carriedFields e limit payload items (parts ++ [part]) := by
          rw [carriedFields, hpart]
          exact if_neg hfits
        have hisPart : IsPart (carriedField e limit payload parts field) part :=
          ⟨(carriedField_packs e limit payload parts hpacks).2, Utf8.size_cut_le _ _, hpart⟩
        refine ⟨part :: new, ?_, ?_, ?_⟩
        · rw [hfound, List.append_assoc, List.singleton_append]
        · rw [hmore]
          exact .cons hisPart hnew
        · rw [htruncated, hmore, Bool.or_assoc, ← Bool.decide_or]
          congr 1
          rw [decide_eq_decide, ne_eq, ne_eq, ne_eq, List.cons.injEq]
          tauto
    · obtain ⟨error, herror⟩ := encodeFields_cons_error he limit payload parts hpacks items
        truncated
      rw [herror] at h
      cases h

end

/-! ### Decoders -/

/-- What the proofs need of a decoder. -/
structure LawfulDecoder (d : Decoder) : Prop where
  checkHeader : ∀ (size magic major minor header total flags level count category message
      reserved : Int) (rest : List Int),
    d.checkHeader size (magic :: major :: minor :: header :: total :: flags :: level :: count ::
      category :: message :: reserved :: rest) = .ok () ↔
      magic = LOG_MAGIC ∧ major = 1 ∧ ¬ minor > 0 ∧ header = 100 ∧ total = size ∧
        unknownFlags flags = false ∧ unknownLevel level = false ∧ ¬ count > 32 ∧ reserved = 0
  negative : ∀ bits : Int, 0 ≤ bits → bits < 2 ^ 64 → (d.negative bits = true ↔ 2 ^ 63 ≤ bits)

/-- The decoder of the runtime is lawful. -/
theorem runtimeDecoder_lawful : LawfulDecoder runtimeDecoder where
  checkHeader size magic major minor header total flags level count category message reserved
      rest := by
    show (raiseIf _ _ >>= fun _ => raiseIf _ _ >>= fun _ => raiseIf _ _) = _ ↔ _
    rw [Result.check_bind_ok_iff, Result.check_bind_ok_iff, raiseIf_ok_iff, raiseIf_ok_iff,
      raiseIf_ok_iff]
    simp only [not_or, ne_eq, not_not, Bool.not_eq_true, and_assoc]
    rfl
  negative bits hlow hhigh := by
    show decide (bits / 2 ^ 63 % 2 ≠ 0) = true ↔ _
    rw [decide_eq_true_eq]
    omega

/-- The decoder of the SDK is lawful. -/
theorem sdkDecoder_lawful : LawfulDecoder sdkDecoder where
  checkHeader size magic major minor header total flags level count category message reserved
      rest := by
    show (raiseIf _ _ >>= fun _ => raiseIf _ _) = _ ↔ _
    rw [Result.check_bind_ok_iff, raiseIf_ok_iff, raiseIf_ok_iff]
    simp only [not_or, ne_eq, not_not, Bool.not_eq_true, and_assoc]
    rfl
  negative bits hlow hhigh := by
    show decide (bits / 2 ^ 63 ≠ 0) = true ↔ _
    rw [decide_eq_true_eq]
    omega

/-- Both decoders are lawful. -/
theorem decoder_lawful (implementation : Implementation) :
    LawfulDecoder (decoder implementation) := by
  cases implementation with
  | runtime => exact runtimeDecoder_lawful
  | sdk => exact sdkDecoder_lawful

section
variable {d : Decoder}

/-- A value is read from its kind, its bits and its text. -/
theorem decodeValue_wire (hd : LawfulDecoder d) {value : LogValue} (h : ValuePacks value) :
    decodeValue d (wireKind value) (wireBits value) (textOf value) = .ok value := by
  cases value with
  | boolean value => cases value <;> rfl
  | integer value =>
    have hrange : -2 ^ 63 ≤ value ∧ value ≤ 2 ^ 64 - 1 := h
    by_cases hneg : value < 0
    · have hbits : wireBits (.integer value) = value + 2 ^ 64 := by
        show value % 2 ^ 64 = _
        rw [← Int.add_emod_right, Int.emod_eq_of_lt (by omega) (by omega)]
      have hnegative := (hd.negative (value + 2 ^ 64) (by omega) (by omega)).mpr (by omega)
      rw [show wireKind (.integer value) = 2 from if_pos hneg, hbits]
      show Except.ok (LogValue.integer (if d.negative (value + 2 ^ 64) = true then _ else _)) = _
      rw [if_pos hnegative, Int.add_sub_cancel]
    · have hbits : wireBits (.integer value) = value := by
        show value % 2 ^ 64 = _
        exact Int.emod_eq_of_lt (by omega) (by omega)
      rw [show wireKind (.integer value) = 3 from if_neg hneg, hbits]
      rfl
  | float bits =>
    have hfinite : Document.isFinite bits = true := h
    show (raiseIf (Document.isFinite (.ofNat ((bits.toNat : Int).toNat)) = false) _ >>= _) = _
    rw [Int.toNat_natCast, UInt64.ofNat_toNat, raiseIf, if_neg (by simp [hfinite])]
    show Except.ok (LogValue.float (.ofNat ((bits.toNat : Int).toNat))) = _
    rw [Int.toNat_natCast, UInt64.ofNat_toNat]
  | text value => rfl

/-- Only a text field has a text, and a text field has no bits. -/
theorem wire_consistent (value : LogValue) :
    ¬ ((wireKind value ≠ 5 ∧ ((Utf8.size (textOf value) : Nat) : Int) ≠ 0) ∨
      (wireKind value = 5 ∧ wireBits value ≠ 0)) := by
  cases value with
  | boolean value => simp [wireKind, textOf, Utf8.size]
  | integer value =>
    have hkind : wireKind (.integer value) ≠ 5 := by
      show (if value < 0 then (2 : Int) else 3) ≠ 5
      split <;> decide
    simp [hkind, textOf, Utf8.size]
  | float bits => simp [wireKind, textOf, Utf8.size]
  | text value => simp [wireKind, wireBits]

/-- The bytes of a text are decoded to it. -/
theorem decodeText_of_encode {text : Text} {bytes : List UInt8}
    (h : Utf8.encode text = some bytes) (message : String) :
    decodeText bytes message = .ok text := by
  rw [decodeText, Utf8.decode_encode h]

/-- The bytes of a part, in the packet that it stands in. -/
structure PartAt (packet : List UInt8) (offset : Nat) (field : Text × LogValue) (stop : Nat) :
    Prop where
  name : ∃ name, Utf8.encode field.1 = some name ∧
    slice packet (offset + 24) (Utf8.size field.1) = name
  text : ∃ text, Utf8.encode (textOf field.2) = some text ∧
    slice packet (offset + 24 + Utf8.size field.1) (Utf8.size (textOf field.2)) = text
  header : unpack FIELD (slice packet offset 24) =
    [wireKind field.2, 0, (Utf8.size field.1 : Nat), (Utf8.size (textOf field.2) : Nat),
      wireBits field.2, 0]
  ends : stop = offset + 24 + Utf8.size field.1 + Utf8.size (textOf field.2)
  inside : stop ≤ packet.length

/-- The part of a field stands at its offset. -/
theorem partAt_of_partOf {packet part : List UInt8} (front back : List UInt8)
    {field : Text × LogValue} {offset : Nat} (h : partOf field = some part) (hpacket : packet = front ++ part ++ back)
    (hoffset : front.length = offset) : PartAt packet offset field (offset + part.length) := by
  have hlength := length_of_partOf h
  obtain ⟨name, text, head, hname, htext, hhead, rfl⟩ := partOf_eq_some_iff.mp h
  have hnameLength := Utf8.length_of_encode hname
  have htextLength := Utf8.length_of_encode htext
  have hheadLength : head.length = 24 := length_of_pack hhead
  have hheadSlice : slice packet offset 24 = head :=
    slice_middle front (name ++ text ++ back) (by rw [hpacket]; simp) hoffset hheadLength
  exact {
    name := by
      refine ⟨name, hname, ?_⟩
      apply slice_middle (front ++ head) (text ++ back)
      · rw [hpacket]
        simp
      · rw [List.length_append, hoffset, hheadLength]
      · exact hnameLength
    text := by
      refine ⟨text, htext, ?_⟩
      apply slice_middle (front ++ head ++ name) back
      · rw [hpacket]
        simp
      · rw [List.length_append, List.length_append, hoffset, hheadLength, hnameLength]
      · exact htextLength
    header := by
      have := unpack_pack hhead []
      rw [List.append_nil, hnameLength, htextLength] at this
      rw [hheadSlice, this]
    ends := by
      rw [hlength]
      omega
    inside := by
      rw [hpacket]
      simp only [List.length_append, hoffset]
      omega }

/-- An iteration over a part whose name is new and not empty adds its field. -/
theorem decodeField_ok (hd : LawfulDecoder d) {packet : List UInt8} {offset stop : Nat}
    {field : Text × LogValue} (h : PartAt packet offset field stop) (hpacks : ValuePacks field.2)
    (hlimit : Utf8.size field.1 ≤ 255) (fields : Fields) (hname : field.1 ≠ [])
    (hnew : field.1 ∉ fields.entries.map Prod.fst) :
    decodeField d packet fields offset = .ok (fields.push field.1 field.2 hnew, stop) := by
  obtain ⟨name, hnameBytes, hnameSlice⟩ := h.name
  obtain ⟨text, htextBytes, htextSlice⟩ := h.text
  have hstop := h.ends
  have hinside := h.inside
  have hkind := (wire_bounds hpacks).1
  have hsize : Utf8.size field.1 ≠ 0 := fun hzero => hname (Utf8.size_eq_zero_iff.mp hzero)
  rw [decodeField, raiseIf, if_neg (by omega), Result.ok_bind, h.header]
  show (raiseIf ((0 : Int) ≠ 0 ∨ (0 : Int) ≠ 0 ∨ ((Utf8.size field.1 : Nat) : Int) = 0 ∨
    ((Utf8.size field.1 : Nat) : Int) > 255 ∨ offset + 24 + ((Utf8.size field.1 : Nat) : Int).toNat +
      ((Utf8.size (textOf field.2) : Nat) : Int).toNat > packet.length ∨
    wireKind field.2 ∉ [1, 2, 3, 4, 5]) _ >>= _) = _
  have hkindMem : wireKind field.2 ∈ [1, 2, 3, 4, 5] := by
    simp only [List.mem_cons, List.not_mem_nil, or_false]
    omega
  rw [raiseIf, if_neg (by
    simp only [hkindMem, not_true, or_false, Int.toNat_natCast]
    omega), Result.ok_bind]
  simp only [Int.toNat_natCast]
  rw [hnameSlice, decodeText_of_encode hnameBytes, Result.ok_bind, htextSlice,
    decodeText_of_encode htextBytes, Result.ok_bind, dif_neg hnew, raiseIf,
    if_neg (wire_consistent field.2), Result.ok_bind, decodeValue_wire hd hpacks, Result.ok_bind,
    hstop]
  rfl

/-- An iteration over a part whose name is empty or not new raises. -/
theorem decodeField_error {packet : List UInt8} {offset stop : Nat}
    {field : Text × LogValue} (h : PartAt packet offset field stop) (fields : Fields)
    (hbad : ¬ (field.1 ≠ [] ∧ field.1 ∉ fields.entries.map Prod.fst)) :
    ∃ error, decodeField d packet fields offset = .error error := by
  obtain ⟨name, hnameBytes, hnameSlice⟩ := h.name
  obtain ⟨text, htextBytes, htextSlice⟩ := h.text
  have hstop := h.ends
  have hinside := h.inside
  rw [decodeField, raiseIf, if_neg (by omega), Result.ok_bind, h.header]
  show ∃ error, (raiseIf ((0 : Int) ≠ 0 ∨ (0 : Int) ≠ 0 ∨ ((Utf8.size field.1 : Nat) : Int) = 0 ∨
    ((Utf8.size field.1 : Nat) : Int) > 255 ∨ offset + 24 + ((Utf8.size field.1 : Nat) : Int).toNat +
      ((Utf8.size (textOf field.2) : Nat) : Int).toNat > packet.length ∨
    wireKind field.2 ∉ [1, 2, 3, 4, 5]) _ >>= _) = Except.error error
  rw [raiseIf]
  split
  · exact ⟨_, rfl⟩
  · rename_i hchecks
    have hname : field.1 ≠ [] := by
      intro hempty
      apply hchecks
      rw [Utf8.size_eq_zero_iff.mpr hempty]
      simp
    have hold : field.1 ∈ fields.entries.map Prod.fst := by
      by_contra hnew
      exact hbad ⟨hname, hnew⟩
    simp only [Int.toNat_natCast]
    rw [Result.ok_bind, hnameSlice, decodeText_of_encode hnameBytes, Result.ok_bind, htextSlice,
      decodeText_of_encode htextBytes, Result.ok_bind, dif_pos hold]
    exact ⟨_, rfl⟩

/-- The names of fields that come behind other fields: none is empty, and none is there twice. -/
def NamesOk (before : List Text) (fields : List (Text × LogValue)) : Prop :=
  (∀ field ∈ fields, field.1 ≠ []) ∧ (before ++ fields.map Prod.fst).Nodup

/-- Names are accepted when the first one is and the others are behind it. -/
theorem namesOk_cons_iff {before : List Text} {field : Text × LogValue}
    {fields : List (Text × LogValue)} : NamesOk before (field :: fields) ↔
      field.1 ≠ [] ∧ NamesOk (before ++ [field.1]) fields := by
  unfold NamesOk
  rw [List.forall_mem_cons, List.map_cons, List.append_assoc, List.singleton_append, and_assoc]

/-- Names that are fine start with one that is new. -/
theorem NamesOk.notMem {before : List Text} {name : Text} {fields : List (Text × LogValue)}
    (h : NamesOk (before ++ [name]) fields) : name ∉ before := by
  have hnodup := (List.nodup_append.mp h.2).1
  rw [List.nodup_append] at hnodup
  intro hmem
  exact hnodup.2.2 name hmem name (by simp) rfl

/-- The loop over the parts of fields gives these fields back when their names are fine, and
raises otherwise. -/
theorem decodeFields_parts (hd : LawfulDecoder d) {packet : List UInt8}
    {carried : List (Text × LogValue)} {parts : List (List UInt8)}
    (hparts : List.Forall₂ IsPart carried parts) (front back : List UInt8) {offset : Nat}
    (hpacket : packet = front ++ parts.flatten ++ back) (hoffset : front.length = offset)
    (fields : Fields) :
    (NamesOk (fields.entries.map Prod.fst) carried → ∃ found,
      decodeFields d packet carried.length fields offset
        = .ok (found, offset + parts.flatten.length) ∧
      found.entries = fields.entries ++ carried) ∧
    (¬ NamesOk (fields.entries.map Prod.fst) carried → ∃ error,
      decodeFields d packet carried.length fields offset = .error error) := by
  induction hparts generalizing front offset fields with
  | nil =>
    constructor
    · intro _
      exact ⟨fields, rfl, (List.append_nil _).symm⟩
    · intro h
      refine absurd ⟨by simp, ?_⟩ h
      rw [List.map_nil, List.append_nil]
      exact fields.nodup
  | @cons field part carried parts hpart _ ih =>
    obtain ⟨hpacks, hlimit, hpart⟩ := hpart
    rw [List.flatten_cons] at hpacket
    have hat : PartAt packet offset field (offset + part.length) :=
      partAt_of_partOf front (parts.flatten ++ back) hpart (by rw [hpacket]; simp) hoffset
    rw [List.length_cons, decodeFields, namesOk_cons_iff]
    by_cases hname : field.1 ≠ [] ∧ field.1 ∉ fields.entries.map Prod.fst
    · obtain ⟨hnonempty, hnew⟩ := hname
      have hpushed : (fields.push field.1 field.2 hnew).entries.map Prod.fst
          = fields.entries.map Prod.fst ++ [field.1] := by
        show (fields.entries ++ [(field.1, field.2)]).map Prod.fst = _
        rw [List.map_append, List.map_singleton]
      obtain ⟨hok, herror⟩ := ih (front ++ part)
        (show packet = (front ++ part) ++ parts.flatten ++ back by rw [hpacket]; simp)
        (show (front ++ part).length = offset + part.length by rw [List.length_append, hoffset])
        (fields.push field.1 field.2 hnew)
      rw [hpushed] at hok herror
      rw [decodeField_ok hd hat hpacks hlimit fields hnonempty hnew, Result.ok_bind]
      constructor
      · intro ⟨_, hnames⟩
        obtain ⟨found, hfound, hentries⟩ := hok hnames
        refine ⟨found, ?_, ?_⟩
        · rw [List.flatten_cons, List.length_append, ← Nat.add_assoc]
          exact hfound
        · rw [hentries]
          show fields.entries ++ [(field.1, field.2)] ++ carried = _
          rw [List.append_assoc, List.singleton_append]
      · intro hnot
        exact herror fun hnames => hnot ⟨hnonempty, hnames⟩
    · obtain ⟨error, herror⟩ := decodeField_error (d := d) hat fields hname
      rw [herror]
      constructor
      · intro ⟨hnonempty, hnames⟩
        exact absurd ⟨hnonempty, hnames.notMem⟩ hname
      · intro _
        exact ⟨error, rfl⟩

end

/-! ### Records -/

/-- The fields of a record that its packet has room for, as they are written. -/
def recordFields (e : Encoder) (record : LogRecord) (limit : Int) : List (Text × LogValue) :=
  carriedFields e limit (payloadSize record limit) (record.fields.entries.take 32) []

/-- No field that the packet has room for has an empty name, and no two of them have names that
are the same after the cut. -/
def NamesSurvive (e : Encoder) (record : LogRecord) (limit : Int) : Prop :=
  NamesOk [] (recordFields e record limit)

instance (e : Encoder) (record : LogRecord) (limit : Int) :
    Decidable (NamesSurvive e record limit) :=
  inferInstanceAs (Decidable ((∀ field ∈ recordFields e record limit, field.1 ≠ []) ∧
    ([] ++ (recordFields e record limit).map Prod.fst).Nodup))

/-- Something of the record is missing in the other one. -/
def Shortened (record decoded : LogRecord) : Prop :=
  decoded.category ≠ record.category ∨ decoded.message ≠ record.message ∨
    decoded.fields ≠ record.fields

/-- What comes back from a packet. -/
structure Carried (record decoded : LogRecord) : Prop where
  level : decoded.level = record.level
  sequence : decoded.sequence = record.sequence
  timeNs : decoded.timeNs = record.timeNs
  context : decoded.context = record.context
  droppedBefore : decoded.droppedBefore = record.droppedBefore
  category : decoded.category <+: record.category
  message : decoded.message <+: record.message
  fields : ∃ kept, kept <+: record.fields.entries ∧
    List.Forall₂ FieldShortened kept decoded.fields.entries
  shortened : Shortened record decoded → decoded.flags = setTruncated record.flags
  whole : ¬ Shortened record decoded → decoded = record

/-- The packet keeps to the limit, and the record comes back. -/
structure Survives (d : Decoder) (record : LogRecord) (limit : Int) (packet : List UInt8) :
    Prop where
  size : packet.length ≤ limit
  decoded : ∃ decoded, decodeRecord d packet = .ok decoded ∧ Carried record decoded

/-- What an accepted record says about its packet. -/
structure Encoded (e : Encoder) (record : LogRecord) (limit : Int) (packet category message :
    List UInt8) (parts : List (List UInt8)) (truncated : Bool) : Prop where
  limit_le : 100 ≤ limit ∧ limit ≤ 65536
  headerPacks : HeaderPacks record
  categoryBytes : Utf8.encode (carriedCategory record limit) = some category
  messageBytes : Utf8.encode (carriedMessage record limit) = some message
  isParts : List.Forall₂ IsPart (recordFields e record limit) parts
  flag : truncated = (truncatedTexts record limit ||
    decide (recordFields e record limit ≠ record.fields.entries.take 32))
  room : 100 + payloadSize record limit + totalLength parts ≤ limit
  packet : ∃ header, pack HEADER (headerValues record (carriedFlags record truncated) category
    message parts) = some header ∧ packet = header ++ (category ++ message ++ parts.flatten)

/-- What an encoder writes, part by part. -/
theorem encoded_of_encodeRecord {e : Encoder} (he : LawfulEncoder e) {record : LogRecord}
    {limit : Int} {packet : List UInt8} (h : encodeRecord e record limit = .ok packet) :
    ∃ category message parts truncated,
      Encoded e record limit packet category message parts truncated := by
  have hlimit : 100 ≤ limit ∧ limit ≤ 65536 := by
    rw [encodeRecord, Result.bind_ok_iff] at h
    obtain ⟨_, hcheck, _⟩ := h
    exact ((he.checkHeader _ _).mp hcheck).2
  by_cases htexts : unknownLevel record.level = false ∧ (Utf8.encode record.category).isSome ∧
    (Utf8.encode record.message).isSome
  · obtain ⟨hlevel, hcategory, hmessage⟩ := htexts
    obtain ⟨category, message, hc, hm, heq⟩ := encodeRecord_eq he hlevel hlimit hcategory hmessage
    obtain ⟨hpayload, hroom⟩ := payloadSize_bounds record hlimit.1
    have hnil : 100 + payloadSize record limit + totalLength [] ≤ limit := by
      rw [totalLength_nil]
      omega
    rw [heq, Result.bind_ok_iff] at h
    obtain ⟨⟨parts, truncated⟩, hloop, h⟩ := h
    obtain ⟨hfit, hcount⟩ := encodeFields_room he hlimit.2 hpayload hnil hloop
    obtain ⟨new, hnew, hparts, hflag⟩ := encodeFields_ok he hlimit.2 hpayload hloop
    rw [List.nil_append] at hnew
    subst hnew
    rw [List.length_nil, Nat.zero_add] at hcount
    have hpacks : HeaderPacks record := by
      by_contra hnot
      obtain ⟨error, herror⟩ : ∃ error, encodeHeader record category message parts truncated
        = .error error := encodeHeader_error hlevel hnot truncated
      rw [herror] at h
      cases h
    have hpayloadSize : payloadSize record limit = category.length + message.length := by
      rw [Utf8.length_of_encode hc, Utf8.length_of_encode hm]
      rfl
    obtain ⟨header, hheader, hpacket⟩ := encodeHeader_ok hpacks
      (show 100 + (category.length : Int) + message.length + totalLength parts ≤ 65536 by omega)
      (hcount.trans (List.length_take_le _ _)) truncated
    rw [hpacket] at h
    cases h
    exact ⟨category, message, parts, truncated, {
      limit_le := hlimit
      headerPacks := hpacks
      categoryBytes := hc
      messageBytes := hm
      isParts := hparts
      flag := hflag
      room := hfit
      packet := ⟨header, hheader, rfl⟩ }⟩
  · obtain ⟨error, herror⟩ := encodeRecord_error he htexts
    rw [herror] at h
    cases h

section
variable {e : Encoder} {d : Decoder} {record : LogRecord} {limit : Int}
  {packet category message : List UInt8} {parts : List (List UInt8)} {truncated : Bool}

/-- The size of a packet. -/
theorem Encoded.length_eq (h : Encoded e record limit packet category message parts truncated) :
    (packet.length : Int) = 100 + payloadSize record limit + totalLength parts := by
  obtain ⟨header, hheader, rfl⟩ := h.packet
  have hheaderLength : header.length = 100 := length_of_pack hheader
  have hflatten := length_flatten parts
  have hcategory := Utf8.length_of_encode h.categoryBytes
  have hmessage := Utf8.length_of_encode h.messageBytes
  rw [payloadSize]
  simp only [List.length_append]
  omega

/-- The loop over the parts of a packet, as the decoder starts it. -/
theorem Encoded.decodeFields (hd : LawfulDecoder d)
    (h : Encoded e record limit packet category message parts truncated) :
    (NamesSurvive e record limit → ∃ found,
      decodeFields d packet parts.length .empty (100 + category.length + message.length)
        = .ok (found, packet.length) ∧ found.entries = recordFields e record limit) ∧
    (¬ NamesSurvive e record limit → ∃ error,
      decodeFields d packet parts.length .empty (100 + category.length + message.length)
        = .error error) := by
  obtain ⟨header, hheader, hpacket⟩ := h.packet
  have hheaderLength : header.length = 100 := length_of_pack hheader
  obtain ⟨hok, herror⟩ := decodeFields_parts hd h.isParts (header ++ category ++ message) []
    (show packet = header ++ category ++ message ++ parts.flatten ++ [] by rw [hpacket]; simp)
    (show _ = 100 + category.length + message.length by
      rw [List.length_append, List.length_append, hheaderLength]) .empty
  rw [h.isParts.length_eq] at hok herror
  constructor
  · intro hnames
    obtain ⟨found, hfound, hentries⟩ := hok hnames
    have hlength : packet.length = 100 + category.length + message.length + parts.flatten.length := by
      rw [hpacket]
      simp only [List.length_append, hheaderLength]
      omega
    exact ⟨found, by rw [hfound, hlength], hentries⟩
  · exact herror

/-- The record that a packet stands for, when the names survive. -/
def carriedRecord (record : LogRecord) (limit : Int) (truncated : Bool) (fields : Fields) :
    LogRecord where
  level := record.level
  message := carriedMessage record limit
  category := carriedCategory record limit
  fields := fields
  sequence := record.sequence
  timeNs := record.timeNs
  context := record.context
  flags := carriedFlags record truncated
  droppedBefore := record.droppedBefore

/-- The decoder gets through to the fields of a packet, and returns what they give. -/
theorem Encoded.decodeRecord (hd : LawfulDecoder d)
    (h : Encoded e record limit packet category message parts truncated) :
    decodeRecord d packet =
      (Log.decodeFields d packet parts.length .empty (100 + category.length + message.length) >>=
        fun result => do
          raiseIf (result.2 ≠ packet.length) (.protocol "trailing log packet data")
          return carriedRecord record limit truncated result.1) := by
  have hsize := h.length_eq
  have hlimit := h.limit_le
  have hroom := h.room
  obtain ⟨hlevel, hflags, _⟩ := h.headerPacks
  obtain ⟨header, hheader, hpacket⟩ := h.packet
  have hheaderLength : header.length = 100 := length_of_pack hheader
  have hvalues : unpack HEADER packet =
      headerValues record (carriedFlags record truncated) category message parts := by
    rw [hpacket]
    exact unpack_pack hheader _
  have hparts : parts.length ≤ 32 := by
    rw [← h.isParts.length_eq]
    exact (length_carriedFields_le _ _).trans (List.length_take_le _ _)
  have hcategoryLimit : category.length ≤ 1024 := by
    have := Utf8.size_cut_le record.category (min 1024 (limit - 100)).toNat
    rw [Utf8.length_of_encode h.categoryBytes, carriedCategory]
    omega
  have hmessageLimit : message.length ≤ 32768 := by
    have := Utf8.size_cut_le record.message
      (min 32768 (max 0 (limit - 100 - Utf8.size (carriedCategory record limit)))).toNat
    rw [Utf8.length_of_encode h.messageBytes, carriedMessage]
    omega
  have hcategorySlice : slice packet 100 category.length = category :=
    slice_middle header (message ++ parts.flatten) (by rw [hpacket]; simp) hheaderLength rfl
  have hmessageSlice : slice packet (100 + category.length) message.length = message :=
    slice_middle (header ++ category) parts.flatten (by rw [hpacket]; simp)
      (by rw [List.length_append, hheaderLength]) rfl
  have hinside : 100 + category.length + message.length ≤ packet.length := by
    rw [hpacket]
    simp only [List.length_append, hheaderLength]
    omega
  have htotal := totalLength_nonneg parts
  have hpayload := (payloadSize_bounds record hlimit.1).1
  rw [Log.decodeRecord, raiseIf, if_neg (by rw [LOG_HEADER_SIZE, MAX_LOG_RECORD_BYTES]; omega),
    Result.ok_bind, hvalues]
  have hcheck : d.checkHeader packet.length
      (headerValues record (carriedFlags record truncated) category message parts) = .ok () := by
    apply (hd.checkHeader _ _ _ _ _ _ _ _ _ _ _ _ _).mpr
    refine ⟨rfl, rfl, by decide, rfl, ?_, ?_, hlevel, by omega, rfl⟩
    · have hlength : packet.length
          = 100 + (category ++ message ++ parts.flatten).length := by
        rw [hpacket, List.length_append, hheaderLength]
      rw [hlength, LOG_HEADER_SIZE]
      push_cast
      rfl
    · rw [unknownFlags_carried, hflags]
  show (d.checkHeader packet.length _ >>= _) = _
  rw [hcheck, Result.ok_bind]
  show (raiseIf ((category.length : Int) > 1024 ∨ (message.length : Int) > 32768 ∨
    100 + ((category.length : Nat) : Int).toNat + ((message.length : Nat) : Int).toNat
      > packet.length) _ >>= _) = _
  rw [raiseIf, if_neg (by simp only [Int.toNat_natCast]; omega), Result.ok_bind]
  simp only [Int.toNat_natCast]
  rw [hcategorySlice, decodeText_of_encode h.categoryBytes, Result.ok_bind, hmessageSlice,
    decodeText_of_encode h.messageBytes, Result.ok_bind]
  rfl

/-- The carried fields are all fields of a record that has 32 at most when none is missing. -/
theorem fields_eq_iff {found : Fields} (hentries : found.entries = recordFields e record limit) :
    found = record.fields ↔ record.fields.entries.length ≤ 32 ∧
      recordFields e record limit = record.fields.entries.take 32 := by
  have hlength : (recordFields e record limit).length ≤ 32 :=
    (length_carriedFields_le _ _).trans (List.length_take_le _ _)
  rw [Fields.ext_iff, hentries]
  constructor
  · intro h
    rw [h] at hlength ⊢
    exact ⟨hlength, (List.take_of_length_le hlength).symm⟩
  · intro ⟨hle, h⟩
    rw [h, List.take_of_length_le hle]

/-- The encoder sets `truncated` exactly when something is missing. -/
theorem Encoded.truncated_iff (h : Encoded e record limit packet category message parts truncated)
    {found : Fields} (hentries : found.entries = recordFields e record limit) :
    truncated = true ↔ Shortened record (carriedRecord record limit truncated found) := by
  have hfields : found ≠ record.fields ↔ record.fields.entries.length > 32 ∨
      recordFields e record limit ≠ record.fields.entries.take 32 := by
    rw [ne_eq, fields_eq_iff hentries, not_and_or, not_le]
  show _ ↔ carriedCategory record limit ≠ record.category ∨
    carriedMessage record limit ≠ record.message ∨ found ≠ record.fields
  rw [h.flag, hfields, truncatedTexts, Bool.or_eq_true, Bool.or_eq_true, Bool.or_eq_true,
    decide_eq_true_eq, decide_eq_true_eq, decide_eq_true_eq, decide_eq_true_eq]
  tauto

/-- The record that comes back. -/
theorem Encoded.carried (h : Encoded e record limit packet category message parts truncated)
    {found : Fields} (hentries : found.entries = recordFields e record limit) :
    Carried record (carriedRecord record limit truncated found) where
  level := rfl
  sequence := rfl
  timeNs := rfl
  context := rfl
  droppedBefore := rfl
  category := Utf8.cut_prefix _ _
  message := Utf8.cut_prefix _ _
  fields := by
    obtain ⟨kept, hprefixed, hkept⟩ := carriedFields_segment e limit (payloadSize record limit)
      (record.fields.entries.take 32) []
    refine ⟨kept, hprefixed.trans (List.take_prefix _ _), ?_⟩
    show List.Forall₂ FieldShortened kept found.entries
    rw [hentries]
    exact hkept
  shortened := by
    intro hshort
    have htruncated := (h.truncated_iff hentries).mpr hshort
    show carriedFlags record truncated = _
    rw [carriedFlags, if_pos htruncated]
  whole := by
    intro hwhole
    have htruncated : ¬ truncated = true := fun ht => hwhole ((h.truncated_iff hentries).mp ht)
    have hparts : carriedCategory record limit = record.category ∧
        carriedMessage record limit = record.message ∧ found = record.fields := by
      by_contra hnot
      apply hwhole
      show carriedCategory record limit ≠ record.category ∨
        carriedMessage record limit ≠ record.message ∨ found ≠ record.fields
      tauto
    rw [carriedRecord, hparts.1, hparts.2.1, hparts.2.2, carriedFlags, if_neg htruncated]

end

/-- A packet that an encoder has written keeps to its limit, and its record comes back from a
decoder, exactly when the names of its fields survive. -/
theorem survives_iff (encoding decoding : Implementation) (record : LogRecord) (limit : Int)
    (packet : List UInt8) (h : encodeRecord (encoder encoding) record limit = .ok packet) :
    Survives (decoder decoding) record limit packet ↔
      NamesSurvive (encoder encoding) record limit := by
  obtain ⟨category, message, parts, truncated, hencoded⟩ :=
    encoded_of_encodeRecord (encoder_lawful encoding) h
  obtain ⟨hok, herror⟩ := hencoded.decodeFields (decoder_lawful decoding)
  have hdecode := hencoded.decodeRecord (decoder_lawful decoding)
  constructor
  · intro hsurvives
    by_contra hnames
    obtain ⟨error, hloop⟩ := herror hnames
    obtain ⟨decoded, hdecoded, _⟩ := hsurvives.decoded
    rw [hdecode, hloop] at hdecoded
    cases hdecoded
  · intro hnames
    obtain ⟨found, hloop, hentries⟩ := hok hnames
    constructor
    · rw [hencoded.length_eq]
      exact hencoded.room
    · refine ⟨carriedRecord record limit truncated found, ?_, hencoded.carried hentries⟩
      rw [hdecode, hloop, Result.ok_bind, raiseIf, if_neg (not_not.mpr rfl)]
      rfl

/-- A record of one field, the number 1. -/
def namedRecord (name : Text) : LogRecord where
  level := 20
  message := []
  category := []
  fields := ⟨[(name, .integer 1)], List.nodup_singleton _⟩
  sequence := 0
  timeNs := 0
  context := ⟨0, 0, 0, 0⟩
  flags := 0
  droppedBefore := 0

/-- The record with a message of twelve letters. -/
def longRecord : LogRecord :=
  { namedRecord [97] with message := List.replicate 12 ⟨98, by decide⟩ }

/-- In a packet of 110 bytes the message is cut and the field left out, and the record comes back
with what there is. -/
theorem longRecord_survives : ∃ packet,
    encodeRecord (encoder .runtime) longRecord 110 = .ok packet ∧ packet.length = 110 ∧
      carriedMessage longRecord 110 ≠ longRecord.message ∧
      Survives (decoder .sdk) longRecord 110 packet :=
  ⟨_, rfl, rfl, by decide, (survives_iff .runtime .sdk longRecord 110 _ rfl).mpr (by decide)⟩

/-- A field without a name is encoded, and its packet is refused. -/
theorem namedRecord_refused : ¬ ∀ encoding decoding record limit packet,
    encodeRecord (encoder encoding) record limit = .ok packet →
      Survives (decoder decoding) record limit packet := by
  intro h
  obtain ⟨decoded, hdecoded, _⟩ := (h .runtime .runtime (namedRecord []) 160 _ rfl).decoded
  cases hdecoded

end Wmfs.Log
