import Wmfs.Lib.Words
import Wmfs.Log.Agreement

/-!
# `Wmfs.Log.Wire`: packets from their parts

A packet is a header, a category, a message, and fields one behind the other. `WireField.bytes` are
the bytes of a field, and `packetBytes` those of a packet. `exists_record_packetBytes_iff` shows
that a Python decoder accepts a packet whose parts are in order exactly when its booleans are 0 or
1 and no two of its names are the same.
-/

set_option autoImplicit false

namespace Wmfs.Log

open Wmfs.Lib
open Wmfs.Lib.Utf8 (Text)
open Native (word word64 fieldBytes fieldOffset fieldOffsets offsets start fieldView FieldShape
  HeaderShape Shape)

/-! ### Parts -/

/-- The numbers of a header that are not the same in every packet. -/
structure Header where
  total : Nat
  flags : Nat
  level : Nat
  count : Nat
  categorySize : Nat
  messageSize : Nat
  sequence : Nat
  timeNs : Nat
  session : Nat
  submission : Nat
  invocation : Nat
  operation : Nat
  droppedBefore : Nat

/-- The words of a header. -/
def Header.words (h : Header) : List Nat :=
  [0x31474F4C53464D57, 1, 0, 100, h.total, h.flags, h.level, h.count, h.categorySize,
    h.messageSize, 0, h.sequence, h.timeNs, h.session, h.submission, h.invocation, h.operation,
    h.droppedBefore]

/-- The bytes of a header. -/
def Header.bytes (h : Header) : List UInt8 := layWords HEADER h.words

/-- A field as it is written. -/
structure WireField where
  kind : Nat
  bits : Nat
  name : List UInt8
  text : List UInt8

/-- The words of the header of a field. -/
def WireField.words (w : WireField) : List Nat :=
  [w.kind, 0, w.name.length, w.text.length, w.bits, 0]

/-- The bytes of a field. -/
def WireField.bytes (w : WireField) : List UInt8 := layWords FIELD w.words ++ w.name ++ w.text

/-- A packet of these parts. -/
def packetBytes (h : Header) (category message : List UInt8) (fields : List WireField) :
    List UInt8 :=
  h.bytes ++ category ++ message ++ (fields.map WireField.bytes).flatten

/-- A header has 100 bytes. -/
theorem Header.length_bytes (h : Header) : h.bytes.length = 100 := length_layWords rfl

/-- The length of a field. -/
theorem WireField.length_bytes (w : WireField) :
    w.bytes.length = 24 + w.name.length + w.text.length := by
  rw [WireField.bytes, List.length_append, List.length_append, length_layWords rfl]
  rfl

/-! ### Fields of a packet -/

/-- What a writer of fields owes to the decoder, up to the value of a boolean. -/
structure WireField.InOrder (w : WireField) : Prop where
  kind : 1 ≤ w.kind ∧ w.kind ≤ 5
  bits : w.bits < 2 ^ 64
  name : 1 ≤ w.name.length ∧ w.name.length ≤ 255
  text : w.text.length ≤ 65536
  textKind : w.kind ≠ 5 → w.text = []
  bitsKind : w.kind = 5 → w.bits = 0
  nameUtf8 : (Utf8.decode w.name).isSome
  textUtf8 : (Utf8.decode w.text).isSome
  finite : w.kind = 4 → Document.isFinite (.ofNat w.bits) = true

/-- The bytes of a field, in the packet that it stands in. -/
structure FieldAt (p : List UInt8) (offset : Nat) (w : WireField) : Prop where
  kind : word p offset 2 = w.kind
  flags : word p (offset + 2) 2 = 0
  nameSize : word p (offset + 4) 4 = w.name.length
  textSize : word p (offset + 8) 4 = w.text.length
  bits : word p (offset + 12) 8 = w.bits
  reserved : word p (offset + 20) 4 = 0
  name : slice p (offset + 24) w.name.length = w.name
  text : slice p (offset + 24 + w.name.length) w.text.length = w.text
  inside : offset + 24 + w.name.length + w.text.length ≤ p.length

section
variable {p : List UInt8} {offset : Nat} {w : WireField}

/-- A field stands where its bytes are. -/
theorem fieldAt_of_split (hw : w.InOrder) (front back : List UInt8)
    (hp : p = front ++ w.bytes ++ back) (hoffset : front.length = offset) :
    FieldAt p offset w := by
  have hlength : (layWords FIELD w.words).length = 24 := length_layWords rfl
  have hbytes := w.length_bytes
  have hinside : offset + 24 + w.name.length + w.text.length ≤ p.length := by
    rw [hp, List.length_append, List.length_append]
    omega
  have hheader : slice p offset 24 = layWords FIELD w.words := by
    apply slice_middle front (w.name ++ w.text ++ back) _ hoffset hlength
    rw [hp, WireField.bytes]
    simp only [List.append_assoc]
  have hfits : List.Forall₂ (fun (f : Field) n => n < 256 ^ f.width) FIELD w.words := by
    have hkind := hw.kind
    have hname := hw.name
    have htext := hw.text
    have hbits := hw.bits
    refine .cons ?_ (.cons ?_ (.cons ?_ (.cons ?_ (.cons ?_ (.cons ?_ .nil)))))
    · show w.kind < 256 ^ 2
      omega
    · show 0 < 256 ^ 2
      omega
    · show w.name.length < 256 ^ 4
      omega
    · show w.text.length < 256 ^ 4
      omega
    · show w.bits < 256 ^ 8
      omega
    · show 0 < 256 ^ 4
      omega
  have hwords := @unpack_layWords FIELD _ (by decide) hfits []
  rw [List.append_nil, ← hheader, unpack_FIELD (by omega)] at hwords
  simp only [WireField.words, List.map_cons, List.map_nil, List.cons.injEq, and_true,
    Int.ofNat_eq_natCast, Nat.cast_inj] at hwords
  obtain ⟨hkind, hflags, hname, htext, hbits, hreserved⟩ := hwords
  exact {
    kind := hkind
    flags := hflags
    nameSize := hname
    textSize := htext
    bits := hbits
    reserved := hreserved
    name := by
      apply slice_middle (front ++ layWords FIELD w.words) (w.text ++ back) _ _ rfl
      · rw [hp, WireField.bytes]
        simp only [List.append_assoc]
      · rw [List.length_append, hlength, hoffset]
    text := by
      apply slice_middle (front ++ layWords FIELD w.words ++ w.name) back _ _ rfl
      · rw [hp, WireField.bytes]
        simp only [List.append_assoc]
      · rw [List.length_append, List.length_append, hlength, hoffset]
    inside := hinside }

/-- The bytes of the name and the text of a field. -/
theorem FieldAt.fieldBytes_eq (h : FieldAt p offset w) :
    fieldBytes p offset = w.name.length + w.text.length := by
  have hinside := h.inside
  rw [Native.fieldBytes_eq (by omega), h.nameSize, h.textSize]

/-- The sizes of a field in order do not wrap around. -/
theorem FieldAt.fieldBytes_mod (h : FieldAt p offset w) (hw : w.InOrder) :
    fieldBytes p offset % 2 ^ 32 = w.name.length + w.text.length := by
  have hname := hw.name
  have htext := hw.text
  rw [h.fieldBytes_eq]
  exact Nat.mod_eq_of_lt (by omega)

/-- The checks of both decoders on a field in order: only a boolean is left. -/
theorem FieldAt.checks_iff (h : FieldAt p offset w) (hw : w.InOrder) :
    FieldShape p offset ∧ FieldStrict p offset ↔ (w.kind = 1 → w.bits ≤ 1) := by
  have hinside := h.inside
  have hmod := h.fieldBytes_mod hw
  have hnameBytes : nameBytes p offset = w.name := by rw [nameBytes, h.nameSize, h.name]
  constructor
  · rintro ⟨hshape, _⟩
    have hboolean := hshape.boolean
    rwa [h.kind, h.bits] at hboolean
  · intro hboolean
    constructor
    · exact {
        header := by omega
        kind := by rw [h.kind]; exact hw.kind
        flags := h.flags
        name := by rw [h.nameSize]; exact hw.name
        reserved := h.reserved
        inside := by rw [hmod]; omega
        text := by
          rw [h.kind, h.textSize]
          intro hkind
          rw [hw.textKind hkind]
          rfl
        bits := by rw [h.kind, h.bits]; exact hw.bitsKind
        boolean := by rw [h.kind, h.bits]; exact hboolean
        utf8 := by
          obtain ⟨name, hname⟩ := Option.isSome_iff_exists.mp hw.nameUtf8
          obtain ⟨text, htext⟩ := Option.isSome_iff_exists.mp hw.textUtf8
          rw [hmod]
          refine (decode_slices_isSome_iff.mpr ⟨⟨name, ?_⟩, text, ?_⟩).1
          · rw [h.name, hname]
          · rw [h.text, htext] }
    · exact {
        fits := by
          have hname := hw.name
          have htext := hw.text
          rw [h.fieldBytes_eq]
          omega
        name := by rw [hnameBytes]; exact hw.nameUtf8
        finite := by
          rw [h.kind, word64, h.bits]
          exact hw.finite }

/-- The fields are at the offsets that the decoders take. -/
theorem fields_at {fields : List WireField} (hfields : ∀ field ∈ fields, field.InOrder)
    (front : List UInt8) (hp : p = front ++ (fields.map WireField.bytes).flatten)
    (hoffset : front.length = offset) :
    List.Forall₂ (FieldAt p) (fieldOffsets p offset fields.length) fields ∧
      fieldOffset p offset fields.length = p.length := by
  induction fields generalizing front offset with
  | nil =>
    refine ⟨.nil, ?_⟩
    rw [hp, List.map_nil, List.flatten_nil, List.append_nil, hoffset]
    rfl
  | cons field fields ih =>
    rw [List.forall_mem_cons] at hfields
    rw [List.map_cons, List.flatten_cons, ← List.append_assoc] at hp
    have hat := fieldAt_of_split hfields.1 front _ hp hoffset
    have hnext : (front ++ field.bytes).length = offset + 24 + fieldBytes p offset % 2 ^ 32 := by
      rw [hat.fieldBytes_mod hfields.1, List.length_append, field.length_bytes, hoffset]
      omega
    obtain ⟨hrest, hstop⟩ := ih hfields.2 (front ++ field.bytes) hp hnext
    exact ⟨.cons hat hrest, hstop⟩

end

/-! ### Whole packets -/

/-- Elements that are related have their properties together. -/
theorem forall_mem_iff_of_forall₂ {α β : Type} {r : α → β → Prop} {P : α → Prop} {Q : β → Prop}
    {xs : List α} {ys : List β} (h : List.Forall₂ r xs ys)
    (hiff : ∀ x, ∀ y ∈ ys, r x y → (P x ↔ Q y)) : (∀ x ∈ xs, P x) ↔ ∀ y ∈ ys, Q y := by
  induction h with
  | nil => simp
  | @cons x y xs ys hr _ ih =>
    have hrest := ih fun x y hmem => hiff x y (List.mem_cons_of_mem _ hmem)
    rw [List.forall_mem_cons, List.forall_mem_cons, hiff x y List.mem_cons_self hr, hrest]

/-- What a writer owes to the decoder, up to the values of the booleans and the names. -/
structure InOrder (h : Header) (category message : List UInt8) (fields : List WireField) :
    Prop where
  total : h.total = (packetBytes h category message fields).length
  size : h.total ≤ 65536
  flags : h.flags < 4
  level : h.level ∈ [10, 20, 30, 40, 50]
  count : h.count = fields.length
  few : fields.length ≤ 32
  categorySize : h.categorySize = category.length
  messageSize : h.messageSize = message.length
  texts : category.length ≤ 1024 ∧ message.length ≤ 32768
  numbers : ∀ n ∈ [h.sequence, h.timeNs, h.session, h.submission, h.invocation, h.operation,
    h.droppedBefore], n < 2 ^ 64
  category : (Utf8.decode category).isSome
  message : (Utf8.decode message).isSome
  fields : ∀ field ∈ fields, field.InOrder

section
variable {h : Header} {category message : List UInt8} {fields : List WireField}

/-- The length of a packet. -/
theorem length_packetBytes : (packetBytes h category message fields).length =
    100 + category.length + message.length + (fields.map WireField.bytes).flatten.length := by
  rw [packetBytes, List.length_append, List.length_append, List.length_append, h.length_bytes]

/-- The words of the header are read back. -/
theorem InOrder.unpack_eq (hin : InOrder h category message fields) :
    unpack HEADER (packetBytes h category message fields) = h.words.map Int.ofNat := by
  have hsize := hin.size
  have hflags := hin.flags
  have hcount := hin.count
  have hfew := hin.few
  have htexts := hin.texts
  have hcategory := hin.categorySize
  have hmessage := hin.messageSize
  have hlevel : h.level ≤ 50 := by
    have hlevel := hin.level
    simp only [List.mem_cons, List.not_mem_nil, or_false] at hlevel
    omega
  have hnumbers := hin.numbers
  simp only [List.forall_mem_cons, List.not_mem_nil, false_implies, implies_true, and_true]
    at hnumbers
  obtain ⟨hsequence, htime, hsession, hsubmission, hinvocation, hoperation, hdropped⟩ := hnumbers
  have hfits : List.Forall₂ (fun (f : Field) n => n < 256 ^ f.width) HEADER h.words := by
    unfold HEADER Header.words
    simp only [List.forall₂_cons, List.forall₂_nil_left_iff, Field.Q, Field.I, Field.H]
    norm_num only [true_and, and_true]
    omega
  rw [packetBytes, List.append_assoc, List.append_assoc]
  exact unpack_layWords (by decide) hfits _

/-- The header is in order. -/
theorem InOrder.headerShape (hin : InOrder h category message fields) {p : List UInt8}
    (hp : p = packetBytes h category message fields) :
    HeaderShape p ∧ word p 28 4 = fields.length ∧ start p = 100 + category.length + message.length
      ∧ (Utf8.decode (slice p 100 (word p 32 4))).isSome := by
  have htotal := hin.total
  have hlength := @length_packetBytes h category message fields
  rw [← hp] at htotal hlength
  have hsize : 100 ≤ p.length ∧ p.length ≤ 65536 := by
    have hsize := hin.size
    omega
  have hwords := hin.unpack_eq
  rw [← hp, unpack_HEADER hsize.1] at hwords
  simp only [Header.words, List.map_cons, List.map_nil, List.cons.injEq, and_true,
    Int.ofNat_eq_natCast, Nat.cast_inj] at hwords
  obtain ⟨hmagic, hmajor, hminor, hheader, hpacket, hflags, hlevel, hcount, hcategory, hmessage,
    hreserved, _⟩ := hwords
  rw [hin.count] at hcount
  rw [hin.categorySize] at hcategory
  rw [hin.messageSize] at hmessage
  have hcategoryBytes : slice p 100 category.length = category := by
    apply slice_middle h.bytes (message ++ (fields.map WireField.bytes).flatten) _
      h.length_bytes rfl
    rw [hp, packetBytes, List.append_assoc (h.bytes ++ category)]
  have hmessageBytes : slice p (100 + category.length) message.length = message := by
    apply slice_middle (h.bytes ++ category) (fields.map WireField.bytes).flatten hp _ rfl
    rw [List.length_append, h.length_bytes]
  obtain ⟨front, hfront⟩ := Option.isSome_iff_exists.mp hin.category
  obtain ⟨back, hback⟩ := Option.isSome_iff_exists.mp hin.message
  refine ⟨?_, hcount, by rw [start, hcategory, hmessage], ?_⟩
  · exact {
      size := hsize
      magic := hmagic
      version := ⟨hmajor, hminor⟩
      header := hheader
      total := by rw [hpacket, htotal]
      flags := by rw [hflags]; exact hin.flags
      level := by rw [hlevel]; exact hin.level
      count := by rw [hcount]; exact hin.few
      texts := by rw [hcategory, hmessage]; exact hin.texts
      reserved := hreserved
      inside := by omega
      utf8 := by
        rw [hcategory, hmessage]
        refine (decode_slices_isSome_iff.mpr ⟨⟨front, ?_⟩, back, ?_⟩).1
        · rw [hcategoryBytes, hfront]
        · rw [hmessageBytes, hback] }
  · rw [hcategory, hcategoryBytes]
    exact hin.category

/-- A Python decoder accepts a packet whose parts are in order exactly when its booleans are 0 or
1 and its names are different. -/
theorem exists_record_packetBytes_iff {d : Decoder} (hd : LawfulDecoder d)
    (hin : InOrder h category message fields) :
    (∃ record, decodeRecord d (packetBytes h category message fields) = .ok record) ↔
      (∀ field ∈ fields, field.kind = 1 → field.bits ≤ 1) ∧
        (fields.map WireField.name).Nodup := by
  generalize hp : packetBytes h category message fields = p
  obtain ⟨hheader, hcount, hstart, hcategory⟩ := hin.headerShape hp.symm
  have hfront : (h.bytes ++ category ++ message).length = start p := by
    rw [List.length_append, List.length_append, h.length_bytes, hstart]
  obtain ⟨hat, hstop⟩ := fields_at hin.fields _ hp.symm hfront
  have hoffsets : offsets p = fieldOffsets p (start p) fields.length := by rw [offsets, hcount]
  rw [← hoffsets] at hat
  have hchecks : (∀ offset ∈ offsets p, FieldShape p offset ∧ FieldStrict p offset) ↔
      ∀ field ∈ fields, field.kind = 1 → field.bits ≤ 1 := by
    apply forall_mem_iff_of_forall₂ hat
    intro offset field hfield hat
    exact hat.checks_iff (hin.fields field hfield)
  have hnames : (offsets p).map (nameBytes p) = fields.map WireField.name := by
    rw [← List.forall₂_eq_eq_eq, List.forall₂_map_left_iff, List.forall₂_map_right_iff]
    apply hat.imp
    intro offset field hat
    rw [nameBytes, hat.nameSize, hat.name]
  rw [exists_record_iff hd, ← hchecks, ← hnames]
  constructor
  · rintro ⟨hshape, hstrict⟩
    exact ⟨fun offset hmem => ⟨hshape.fields offset hmem, hstrict.fields offset hmem⟩,
      hstrict.names⟩
  · rintro ⟨hfields, hnodup⟩
    constructor
    · exact {
        toHeaderShape := hheader
        fields := fun offset hmem => (hfields offset hmem).1
        stop := by rw [hcount, hstop] }
    · exact {
        category := hcategory
        fields := fun offset hmem => (hfields offset hmem).2
        names := hnodup }

end

end Wmfs.Log
