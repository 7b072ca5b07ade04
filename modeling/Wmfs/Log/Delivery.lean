import Wmfs.Log.Wire
import Wmfs.Log.Writer

/-!
# `Wmfs.Log.Delivery`: the collector and the records of the native worker

`log_write` builds a packet from parts that are in order as long as the header and the category
fit into the record size (`logWrite_eq`). So the collector accepts its packets, and the synthetic
ones that `LogSink::run` makes of them, unless a boolean among the written fields has other bits
than 0 or 1, or two of the written names are the same (`logWrite_delivers_iff`).

When the category does not fit, the first packet is longer than the record size already. From
there on the room for fields wraps around.
-/

set_option autoImplicit false

namespace Wmfs.Log.Native

open Wmfs.Lib
open Wmfs.Log (Header WireField packetBytes)

/-! ### Prefixes of texts -/

/-- Backing up does not go forward. -/
theorem backUp_le (data : List UInt8) (size : Nat) : backUp data size ≤ size := by
  induction size with
  | zero => exact Nat.le_refl 0
  | succ size ih =>
    rw [backUp]
    split
    · exact ih.trans (Nat.le_succ size)
    · exact Nat.le_refl _

/-- The prefix is no longer than the limit. -/
theorem utf8Prefix_le_limit (data : List UInt8) (limit : Nat) : utf8Prefix data limit ≤ limit := by
  rw [utf8Prefix]
  split
  · assumption
  · exact backUp_le data limit

/-- The prefix is no longer than the text. -/
theorem utf8Prefix_le_length (data : List UInt8) (limit : Nat) :
    utf8Prefix data limit ≤ data.length := by
  have hback := backUp_le data limit
  rw [utf8Prefix]
  split
  · exact Nat.le_refl _
  · omega

/-- The bits that `utf8_prefix` looks at are those of a byte inside a character. -/
theorem isContinuation_iff (b : UInt8) : Utf8.isContinuation b = true ↔ b &&& 0xC0 = 0x80 := by
  have hmask : b &&& 0xC0 = 0x80 ↔ b.toNat &&& 0xC0 = 0x80 := by
    rw [← UInt8.toNat_inj, UInt8.toNat_and]
    rfl
  rw [hmask, (Control.and_of_lead b.toNat_lt).2.2.2.1, Utf8.isContinuation, Bool.and_eq_true,
    decide_eq_true_iff, decide_eq_true_iff]

/-- The loop of `utf8_prefix` stops in front of a character. -/
theorem cutsCharacter_backUp {data : List UInt8} {size : Nat} (h : size < data.length)
    (hzero : Utf8.cutsCharacter data 0 = false) :
    Utf8.cutsCharacter data (backUp data size) = false := by
  induction size with
  | zero => exact hzero
  | succ size ih =>
    rw [backUp]
    split
    · exact ih (by omega)
    · rename_i hstop
      rw [← isContinuation_iff, List.getD_eq_getElem _ _ h, Bool.not_eq_true] at hstop
      rw [Utf8.cutsCharacter, List.getElem?_eq_getElem h]
      exact hstop

/-- A prefix of a text that `utf8_prefix` takes is a text. -/
theorem decode_take_utf8Prefix {data : List UInt8} (h : (Utf8.decode data).isSome) (limit : Nat) :
    (Utf8.decode (data.take (utf8Prefix data limit))).isSome := by
  obtain ⟨text, htext⟩ := Option.isSome_iff_exists.mp h
  have hencode := Utf8.encode_of_decode htext
  rw [Utf8.decode_take_isSome_iff hencode, utf8Prefix]
  split
  · exact Utf8.cutsCharacter_of_length_le (Nat.le_refl _)
  · exact cutsCharacter_backUp (by omega) (Utf8.cutsCharacter_zero hencode)

/-! ### Sizes -/

/-- A subtraction does not wrap around when there is enough to subtract from. -/
theorem subtract_eq {left right : Nat} (h : right ≤ left) (hleft : left < 2 ^ 64) :
    subtract left right = (left - right, false) := by
  have hmove : left + 2 ^ 64 - right = left - right + 2 ^ 64 := by omega
  rw [subtract, hmove, Nat.add_mod_right, Nat.mod_eq_of_lt (by omega),
    decide_eq_false (Nat.not_lt.mpr h)]

/-- What is left of the record size. -/
theorem available_eq {recordBytes : Nat} (hbytes : recordBytes < 2 ^ 64) (categorySize : Nat) :
    available recordBytes categorySize = (recordBytes - (100 + categorySize), false) := by
  rw [available]
  split
  · rw [subtract_eq (by omega) hbytes]
    dsimp only
    rw [subtract_eq (by omega) (by omega), Nat.sub_sub, Bool.false_or]
  · rw [Nat.sub_eq_zero_of_le (by omega)]

/-! ### The packet in front of the fields -/

/-- The header as it is before the loop over the fields. -/
def firstHeader (sink : LogSink) (thread : LogThread) (level : UInt32)
    (category message : List UInt8) (categorySize messageSize : Nat) : Header where
  total := 100 + categorySize + messageSize
  flags := if categorySize ≠ category.length ∨ messageSize ≠ message.length then 1 else 0
  level := level.toNat
  count := 0
  categorySize
  messageSize
  sequence := (sink.sequence + 1).toNat
  timeNs := thread.timeNs.toNat
  session := sink.generation.toNat
  submission := thread.submissionId.toNat
  invocation := thread.invocationId.toNat
  operation := thread.operationId.toNat
  droppedBefore := 0

/-- Bytes that are written inside the packet keep its length. -/
theorem length_splice (offset : Nat) (bytes : List UInt8) {data : List UInt8} {n : Nat}
    (hlength : data.length = n) (h : offset + bytes.length ≤ n) :
    (splice data offset bytes).length = n := by
  rw [splice, List.length_append, List.length_append, List.length_take, List.length_drop]
  omega

/-- The stores of the header, of the category and of the message. -/
def headerStores (h : Header) (category message : List UInt8) : List (Nat × List UInt8) :=
  [(0, le 8 0x31474F4C53464D57), (8, [1]), (10, [0]), (12, le 4 100), (16, le 4 h.total),
    (20, le 4 h.flags), (24, le 4 h.level), (32, le 4 h.categorySize), (36, le 4 h.messageSize),
    (44, le 8 h.sequence), (52, le 8 h.timeNs), (60, le 8 h.session), (68, le 8 h.submission),
    (76, le 8 h.invocation), (84, le 8 h.operation), (100, category),
    (100 + category.length, message)]

/-- The gaps between the stores are words that are zero. -/
theorem laid_headerStores {h : Header} (category message : List UInt8) (hcount : h.count = 0)
    (hdropped : h.droppedBefore = 0) :
    laid 0 (headerStores h category message) = h.bytes ++ category ++ message := by
  simp only [headerStores, laid, length_le, Header.bytes, Header.words, HEADER, layWords, hcount,
    hdropped, List.append_assoc, List.append_nil, List.nil_append, Nat.sub_self, zeros_zero]
  rfl

/-- The packet with its header and its category. -/
theorem startPacket_eq (sink : LogSink) (thread : LogThread) (level : UInt32)
    {category message : List UInt8} {categorySize messageSize : Nat}
    (hcategory : categorySize ≤ category.length) (hmessage : messageSize ≤ message.length) :
    startPacket sink thread level category message categorySize messageSize =
      (firstHeader sink thread level category message categorySize messageSize).bytes ++
        category.take categorySize ++ message.take messageSize := by
  have hcategoryLength : (category.take categorySize).length = categorySize :=
    List.length_take_of_le hcategory
  have hmessageLength : (message.take messageSize).length = messageSize :=
    List.length_take_of_le hmessage
  generalize hfirst : firstHeader sink thread level category message categorySize messageSize = h
  have htotal : 100 + categorySize + messageSize = h.total := by rw [← hfirst]; rfl
  have hascending : Ascending 0
      (headerStores h (category.take categorySize) (message.take messageSize)) h.total := by
    simp only [headerStores, Ascending, length_le, List.length_nil, List.length_cons,
      hcategoryLength, hmessageLength]
    omega
  have hlaid := @stores_append_zeros [] _ _ hascending
  rw [List.nil_append, List.nil_append, List.length_nil,
    laid_headerStores _ _ (by rw [← hfirst]; rfl) (by rw [← hfirst]; rfl)] at hlaid
  rw [← hlaid]
  -- The size is stored when the vector has its size already.
  have hlength := length_splice 12 (le 4 100)
    (length_splice 10 [0]
      (length_splice 8 [1]
        (length_splice 0 (le 8 0x31474F4C53464D57) (length_zeros h.total)
          (by rw [length_le]; omega))
        (by rw [List.length_singleton]; omega))
      (by rw [List.length_singleton]; omega))
    (by rw [length_le]; omega)
  simp only [startPacket, store32, store64, storeByte, htotal, hlength, headerStores, stores,
    List.foldl_cons, List.foldl_nil, hcategoryLength]
  rw [← hfirst]
  rfl

/-! ### Fields -/

/-- A field as `log_write` writes it. -/
def LogField.wire (field : LogField) (recordBytes : Nat) : WireField where
  kind := field.kind.toNat
  bits := if field.kind = 5 then 0 else field.bits.toNat
  name := field.name.bytes
  text := field.text.bytes.take (field.textSize recordBytes)

/-- The checks behind which a field is written, when there is room for it. -/
theorem LogField.skipped_eq_false_iff {field : LogField} : field.skipped = false ↔
    field.name.data.isSome ∧ field.name.size ≠ 0 ∧ field.name.size ≤ 255 ∧ 1 ≤ field.kind ∧
      field.kind ≤ 5 := by
  rw [LogField.skipped]
  simp only [Bool.or_eq_false_iff, decide_eq_false_iff_not, UInt64.not_lt, UInt32.not_lt,
    Option.isNone_eq_false_iff, gt_iff_lt, and_assoc]

/-- A view that points somewhere has the bytes of its size. -/
theorem TextView.length_bytes {view : TextView} (h : view.data.isSome) :
    view.bytes.length = view.size.toNat := by
  obtain ⟨bytes, hbytes⟩ := Option.isSome_iff_exists.mp h
  rw [TextView.bytes, hbytes, view.size_eq bytes hbytes]
  rfl

/-- The text of a field is cut to the record size and to its length. -/
theorem LogField.textSize_le (field : LogField) (recordBytes : Nat) :
    field.textSize recordBytes ≤ recordBytes ∧
      field.textSize recordBytes ≤ field.text.bytes.length := by
  rw [LogField.textSize]
  split
  · exact ⟨utf8Prefix_le_limit _ _, utf8Prefix_le_length _ _⟩
  · exact ⟨Nat.zero_le _, Nat.zero_le _⟩

section
variable {field : LogField}

/-- A field takes the bytes that it requires. -/
theorem LogField.length_wire (h : field.skipped = false) (recordBytes : Nat) :
    (field.wire recordBytes).bytes.length = field.required recordBytes := by
  have hname := TextView.length_bytes (LogField.skipped_eq_false_iff.mp h).1
  have htext := (field.textSize_le recordBytes).2
  rw [WireField.length_bytes, LogField.required]
  show 24 + field.name.bytes.length + (field.text.bytes.take _).length = _
  rw [hname, List.length_take_of_le htext]

/-- Writing nothing changes nothing. -/
theorem splice_nil (data : List UInt8) (offset : Nat) : splice data offset [] = data := by
  rw [splice, List.append_nil]
  exact List.take_append_drop offset data

/-- The stores of a field. -/
def fieldStores (offset : Nat) (w : WireField) : List (Nat × List UInt8) :=
  [(offset, [.ofNat w.kind]), (offset + 4, le 4 w.name.length), (offset + 8, le 4 w.text.length),
    (offset + 12, le 8 w.bits), (offset + 24, w.name), (offset + 24 + w.name.length, w.text)]

/-- The stores of a field lay out its bytes. -/
theorem laid_fieldStores (offset : Nat) {w : WireField} (hkind : w.kind < 256) :
    laid offset (fieldStores offset w) = w.bytes := by
  have hhigh : w.kind / 256 = 0 := Nat.div_eq_of_lt hkind
  have hgap : offset + 24 - (offset + 12 + 8) = 4 := by omega
  simp only [fieldStores, laid, length_le, List.length_singleton, Nat.sub_self, Nat.add_sub_add_left,
    hgap,
    WireField.bytes, WireField.words, FIELD, layWords, List.append_assoc, List.append_nil,
    zeros_zero, List.nil_append]
  show _ = [UInt8.ofNat w.kind, .ofNat (w.kind / 256)] ++ _
  rw [hhigh]
  rfl

/-- The lines of the loop append the bytes of the field. -/
theorem appendField_eq (h : field.skipped = false) (packet : List UInt8) (recordBytes : Nat) :
    appendField packet field recordBytes = packet ++ (field.wire recordBytes).bytes := by
  have hchecks := LogField.skipped_eq_false_iff.mp h
  have hname := TextView.length_bytes hchecks.1
  have htext := (field.textSize_le recordBytes).2
  have htextLength : (field.text.bytes.take (field.textSize recordBytes)).length =
      field.textSize recordBytes := List.length_take_of_le htext
  generalize hw : field.wire recordBytes = w
  have hkind : w.kind < 256 := by
    rw [← hw]
    exact Nat.lt_of_le_of_lt (UInt32.le_iff_toNat_le.mp hchecks.2.2.2.2) (by decide)
  have hrequired : field.required recordBytes = 24 + w.name.length + w.text.length := by
    rw [← field.length_wire h, hw, WireField.length_bytes]
  have hascending : Ascending packet.length (fieldStores packet.length w)
      (packet.length + field.required recordBytes) := by
    simp only [fieldStores, Ascending, length_le, List.length_singleton, hrequired]
    omega
  have hlaid := stores_append_zeros hascending
  rw [Nat.add_sub_cancel_left, laid_fieldStores _ hkind] at hlaid
  rw [← hlaid]
  simp only [appendField, store32, store64, storeByte, fieldStores, stores,
    List.foldl_cons, List.foldl_nil]
  have hkindByte : field.kind.toUInt8 = .ofNat w.kind := by rw [← hw]; rfl
  have hnameLength : w.name.length = field.name.size.toNat := by rw [← hw]; exact hname
  have htextSize : w.text.length = field.textSize recordBytes := by rw [← hw]; exact htextLength
  rw [hkindByte, hnameLength, htextSize, ← hw]
  split
  · rename_i hzero
    rw [LogField.wire, hzero, List.take_zero, splice_nil]
  · rfl

end

/-! ### The loop over the fields -/

/-- The fields that are written into `room` bytes. The first one that does not fit is the last one
that is looked at. -/
def carried (recordBytes : Nat) : Nat → List LogField → List LogField
  | _, [] => []
  | room, field :: fields =>
    if field.skipped then carried recordBytes room fields
    else if field.required recordBytes > room then []
    else field :: carried recordBytes (room - field.required recordBytes) fields

/-- The bytes of these fields. -/
def carriedBytes (recordBytes room : Nat) (fields : List LogField) : List UInt8 :=
  ((carried recordBytes room fields).map fun field => (field.wire recordBytes).bytes).flatten

/-- A packet, with the mark of a record that was cut. -/
def mark (cut : Bool) (packet : List UInt8) : List UInt8 :=
  if cut then orByte packet 20 1 else packet

section
variable {recordBytes : Nat}

/-- A field in the packet is one of the array that is not skipped. -/
theorem mem_carried {room : Nat} {fields : List LogField} {field : LogField}
    (h : field ∈ carried recordBytes room fields) : field ∈ fields ∧ field.skipped = false := by
  induction fields generalizing room with
  | nil => cases h
  | cons first fields ih =>
    rw [carried] at h
    split at h
    · exact ⟨List.mem_cons_of_mem _ (ih h).1, (ih h).2⟩
    · rename_i hskipped
      split at h
      · cases h
      · cases h with
        | head => exact ⟨List.mem_cons_self, Bool.not_eq_true _ ▸ hskipped⟩
        | tail _ h => exact ⟨List.mem_cons_of_mem _ (ih h).1, (ih h).2⟩

/-- No more fields are in the packet than in the array. -/
theorem length_carried_le {room : Nat} {fields : List LogField} :
    (carried recordBytes room fields).length ≤ fields.length := by
  induction fields generalizing room with
  | nil => exact Nat.le_refl _
  | cons field fields ih =>
    rw [carried]
    split
    · exact ih.trans (Nat.le_succ _)
    · split
      · exact Nat.zero_le _
      · exact Nat.succ_le_succ ih

/-- The fields that are written have room. -/
theorem length_carriedBytes_le {room : Nat} {fields : List LogField} :
    (carriedBytes recordBytes room fields).length ≤ room := by
  induction fields generalizing room with
  | nil => exact Nat.zero_le _
  | cons field fields ih =>
    rw [carriedBytes, carried]
    split
    · exact ih
    · rename_i hskipped
      split
      · exact Nat.zero_le _
      · have hrest : (carriedBytes recordBytes (room - field.required recordBytes) fields).length ≤
          room - field.required recordBytes := ih
        rw [List.map_cons, List.flatten_cons, List.length_append,
          LogField.length_wire (Bool.not_eq_true _ ▸ hskipped)]
        show _ + (carriedBytes _ _ _).length ≤ _
        omega

/-- The loop, as long as the packet is not longer than the record size. -/
theorem writeFields_eq (hbytes : recordBytes < 2 ^ 64) (fields : List LogField) {draft : Draft}
    (h : draft.packet.length ≤ recordBytes) :
    ∃ cut, writeFields recordBytes fields draft = {
      packet := mark cut
        (draft.packet ++ carriedBytes recordBytes (recordBytes - draft.packet.length) fields)
      encodedFields := draft.encodedFields +
        (carried recordBytes (recordBytes - draft.packet.length) fields).length
      wrapped := draft.wrapped } := by
  induction fields generalizing draft with
  | nil =>
    refine ⟨false, ?_⟩
    rw [carriedBytes, carried, List.map_nil, List.flatten_nil, List.append_nil]
    rfl
  | cons field fields ih =>
    rw [writeFields, carriedBytes, carried, subtract_eq h hbytes]
    dsimp only
    by_cases hskipped : field.skipped = true
    · rw [if_pos hskipped, if_pos hskipped]
      exact ih h
    rw [if_neg hskipped, if_neg hskipped]
    by_cases hroom : field.required recordBytes > recordBytes - draft.packet.length
    · refine ⟨true, ?_⟩
      rw [if_pos hroom, if_pos hroom, List.map_nil, List.flatten_nil, List.append_nil, Bool.or_false]
      rfl
    · rw [if_neg hroom, if_neg hroom, appendField_eq (Bool.not_eq_true _ ▸ hskipped), Bool.or_false]
      have hlength := LogField.length_wire (Bool.not_eq_true _ ▸ hskipped) recordBytes
      obtain ⟨cut, hcut⟩ := @ih
        { packet := draft.packet ++ (field.wire recordBytes).bytes
          encodedFields := draft.encodedFields + 1
          wrapped := draft.wrapped }
        (by rw [List.length_append, hlength]; omega)
      refine ⟨cut, hcut.trans ?_⟩
      dsimp only
      rw [List.length_append, hlength, List.map_cons, List.flatten_cons, List.length_cons,
        Nat.sub_add_eq, List.append_assoc, Nat.add_assoc, Nat.add_comm 1]
      rfl

/-- Writing does not shorten the packet. -/
theorem length_le_splice (data : List UInt8) (offset : Nat) (bytes : List UInt8) :
    data.length ≤ (splice data offset bytes).length := by
  rw [splice, List.length_append, List.length_append, List.length_take, List.length_drop]
  omega

/-- The loop does not make the packet shorter. -/
theorem length_le_writeFields (fields : List LogField) (draft : Draft) :
    draft.packet.length ≤ (writeFields recordBytes fields draft).packet.length := by
  induction fields generalizing draft with
  | nil => exact Nat.le_refl _
  | cons field fields ih =>
    rw [writeFields]
    split
    · exact ih draft
    · rename_i hskipped
      dsimp only
      split
      · exact length_le_splice _ _ _
      · refine Nat.le_trans ?_ (ih _)
        rw [appendField_eq (Bool.not_eq_true _ ▸ hskipped), List.length_append]
        exact Nat.le_add_right _ _

end

/-! ### Stores into a finished header -/

section
variable {h : Header} {rest : List UInt8}

/-- The store of the total length. -/
theorem store_total (n : Nat) :
    store32 (h.bytes ++ rest) 16 n = { h with total := n }.bytes ++ rest :=
  @splice_word HEADER h.words 4 n rfl (by decide) rest

/-- The store of the field count. -/
theorem store_count (n : Nat) :
    store32 (h.bytes ++ rest) 28 n = { h with count := n }.bytes ++ rest :=
  @splice_word HEADER h.words 7 n rfl (by decide) rest

/-- The store of the drop count. -/
theorem store_droppedBefore (n : Nat) :
    store64 (h.bytes ++ rest) 92 n = { h with droppedBefore := n }.bytes ++ rest :=
  @splice_word HEADER h.words 17 n rfl (by decide) rest

/-- The store of the level. -/
theorem store_level {n : Nat} (hlevel : h.level < 256) (hn : n < 256) :
    storeByte (h.bytes ++ rest) 24 (.ofNat n) = { h with level := n }.bytes ++ rest := by
  have hhigh : n / 256 = h.level / 256 := by omega
  exact @splice_low HEADER h.words 6 n rfl (by decide) (by decide) hhigh rest

/-- A flag is added. -/
theorem or_flags {n : Nat} (hflags : h.flags < 256) (hn : n < 256) :
    orByte (h.bytes ++ rest) 20 (.ofNat n) = { h with flags := h.flags ||| n }.bytes ++ rest := by
  have hor : h.flags ||| n < 256 := Nat.or_lt_two_pow (n := 8) hflags hn
  have hlow : (h.bytes ++ rest).getD 20 0 = .ofNat h.flags :=
    @getD_low HEADER h.words 5 rfl (by decide) (by decide) rest
  have hhigh : (h.flags ||| n) / 256 = h.flags / 256 := by omega
  rw [orByte, hlow, ← UInt8.ofNat_or]
  exact @splice_low HEADER h.words 5 _ rfl (by decide) (by decide) hhigh rest

end

/-! ### Records -/

/-- A pointer to text of the size that is given with it. -/
structure TextView.Valid (view : TextView) : Prop where
  pointer : view.dangling = false
  utf8 : (Utf8.decode view.bytes).isSome

/-- A field with a name and a text in UTF-8, and a finite float. -/
structure LogField.Valid (field : LogField) : Prop where
  name : (Utf8.decode field.name.bytes).isSome
  text : field.kind = 5 → (Utf8.decode field.text.bytes).isSome
  finite : field.kind = 4 → Document.isFinite field.bits = true

/-- `category_size`. -/
def TextView.categorySize (category : TextView) : Nat := utf8Prefix category.bytes 1024

/-- `message_size`, when no subtraction wraps around. -/
def messageSize (recordBytes : Nat) (message category : TextView) : Nat :=
  utf8Prefix message.bytes (min (recordBytes - (100 + category.categorySize)) 32768)

/-- The fields that `log_write` writes, when no subtraction wraps around. -/
def writtenFields (recordBytes : Nat) (message category : TextView)
    (fields : Option (List LogField)) : List LogField :=
  carried recordBytes
    (recordBytes - (100 + category.categorySize + messageSize recordBytes message category))
    ((fields.getD []).take 32)

/-- A packet of at most `recordBytes` bytes, from sizes that do not wrap around, that the collector
accepts, as it accepts the synthetic packets that are made of it. -/
structure Delivered (recordBytes : Nat) (written : Written) : Prop where
  size : written.packet.length ≤ recordBytes
  sizes : written.wrapped = false
  accepted : ∃ record, Runtime.decodeLogRecord written.packet = .ok record
  syntheticAccepted : ∀ droppedBefore,
    ∃ record, Runtime.decodeLogRecord (synthetic written.packet droppedBefore) = .ok record

section
variable {recordBytes : Nat}

/-- A valid field is written with numbers that fit. -/
theorem LogField.wire_inOrder {field : LogField} (hskipped : field.skipped = false)
    (hvalid : field.Valid) (hbytes : recordBytes ≤ 65536) : (field.wire recordBytes).InOrder := by
  obtain ⟨hdata, hsize, hlong, hlow, hhigh⟩ := LogField.skipped_eq_false_iff.mp hskipped
  rw [UInt64.le_iff_toNat_le] at hlong
  rw [UInt32.le_iff_toNat_le] at hlow hhigh
  have hname : (field.wire recordBytes).name.length = field.name.size.toNat :=
    TextView.length_bytes hdata
  have hpositive : field.name.size.toNat ≠ 0 := by
    intro hzero
    exact hsize (UInt64.toNat_inj.mp hzero)
  have hkind : ∀ n : UInt32, (field.wire recordBytes).kind = n.toNat ↔ field.kind = n := by
    intro n
    exact UInt32.toNat_inj
  exact {
    kind := ⟨hlow, hhigh⟩
    bits := by
      show (if field.kind = 5 then 0 else field.bits.toNat) < 2 ^ 64
      split
      · decide
      · exact field.bits.toNat_lt
    name := by
      rw [hname]
      exact ⟨Nat.pos_of_ne_zero hpositive, hlong⟩
    text := by
      have hsize := (field.textSize_le recordBytes).1
      show (field.text.bytes.take _).length ≤ 65536
      rw [List.length_take]
      omega
    textKind := by
      intro hne
      show field.text.bytes.take (field.textSize recordBytes) = []
      rw [LogField.textSize, if_neg, List.take_zero]
      intro htext
      exact hne ((hkind 5).mpr htext.1)
    bitsKind := by
      intro heq
      exact if_pos ((hkind 5).mp heq)
    nameUtf8 := hvalid.name
    textUtf8 := by
      show (Utf8.decode (field.text.bytes.take (field.textSize recordBytes))).isSome
      rw [LogField.textSize]
      split
      · rename_i htext
        exact decode_take_utf8Prefix (hvalid.text htext.1) _
      · rw [List.take_zero]
        rfl
    finite := by
      intro heq
      have hfour := (hkind 4).mp heq
      show Document.isFinite (.ofNat (if field.kind = 5 then 0 else field.bits.toNat)) = true
      rw [if_neg (by rw [hfour]; decide), UInt64.ofNat_toNat]
      exact hvalid.finite hfour }

end

/-- The header of the packet that is enqueued. -/
def lastHeader (sink : LogSink) (thread : LogThread) (level : UInt32) (message category : TextView)
    (fields : Option (List LogField)) (flags : Nat) : Header :=
  let recordBytes := sink.recordBytes.toNat
  let categorySize := category.categorySize
  let messageSize := messageSize recordBytes message category
  let room := recordBytes - (100 + categorySize + messageSize)
  { firstHeader sink thread level category.bytes message.bytes categorySize messageSize with
    total := 100 + categorySize + messageSize +
      (carriedBytes recordBytes room ((fields.getD []).take 32)).length
    flags
    count := (writtenFields recordBytes message category fields).length }

section
variable {sink : LogSink} {thread : LogThread} {level : UInt32} {message category : TextView}
  {fields : Option (List LogField)}

/-- The header after the mark and the last stores. -/
theorem finish_eq {h : Header} (hflags : h.flags < 2) (cut : Bool) (rest : List UInt8)
    (count : Nat) : ∃ flags, flags < 2 ∧
      (let packet := mark cut (h.bytes ++ rest)
       store32 (store32 packet 16 packet.length) 28 count) =
        { h with total := 100 + rest.length, flags, count }.bytes ++ rest := by
  have hstores : ∀ flags, store32 (store32 ({ h with flags }.bytes ++ rest) 16
      ({ h with flags }.bytes ++ rest).length) 28 count =
        { h with total := 100 + rest.length, flags, count }.bytes ++ rest := by
    intro flags
    rw [List.length_append, Header.length_bytes, store_total, store_count]
  cases cut with
  | false => exact ⟨h.flags, hflags, hstores h.flags⟩
  | true =>
    have hmark : mark true (h.bytes ++ rest) = { h with flags := h.flags ||| 1 }.bytes ++ rest :=
      or_flags (by omega) (by decide)
    refine ⟨h.flags ||| 1, Nat.or_lt_two_pow (n := 1) hflags (by decide), ?_⟩
    rw [hmark]
    exact hstores _

/-- What `log_write` enqueues when the header and the category fit into the record size. -/
theorem logWrite_eq (hlevel : logEnabled sink level = true) (hmessage : message.Valid)
    (hcategory : category.Valid) (hroom : 100 + category.categorySize ≤ sink.recordBytes.toNat) :
    ∃ flags, flags < 2 ∧ logWrite sink thread level message category fields = some {
      packet := packetBytes (lastHeader sink thread level message category fields flags)
        (category.bytes.take category.categorySize)
        (message.bytes.take (messageSize sink.recordBytes.toNat message category))
        ((writtenFields sink.recordBytes.toNat message category fields).map
          (·.wire sink.recordBytes.toNat))
      wrapped := false } := by
  have hbytes : sink.recordBytes.toNat < 2 ^ 64 := sink.recordBytes.toNat_lt
  have hcategorySize : category.categorySize ≤ category.bytes.length := utf8Prefix_le_length _ _
  have hmessageSize : messageSize sink.recordBytes.toNat message category ≤ message.bytes.length :=
    utf8Prefix_le_length _ _
  have hleft : messageSize sink.recordBytes.toNat message category ≤
      sink.recordBytes.toNat - (100 + category.categorySize) :=
    (utf8Prefix_le_limit _ _).trans (Nat.min_le_left _ _)
  have hstart := startPacket_eq sink thread level hcategorySize hmessageSize
  have hlength : (startPacket sink thread level category.bytes message.bytes category.categorySize
      (messageSize sink.recordBytes.toNat message category)).length =
        100 + category.categorySize + messageSize sink.recordBytes.toNat message category := by
    rw [hstart, List.length_append, List.length_append, Header.length_bytes,
      List.length_take_of_le hcategorySize, List.length_take_of_le hmessageSize]
  obtain ⟨cut, hcut⟩ := @writeFields_eq _ hbytes ((fields.getD []).take 32)
    { packet := startPacket sink thread level category.bytes message.bytes category.categorySize
        (messageSize sink.recordBytes.toNat message category)
      encodedFields := 0
      wrapped := false } (by rw [hlength]; omega)
  have hwrite : logWrite sink thread level message category fields =
      (let draft := writeFields sink.recordBytes.toNat ((fields.getD []).take 32)
        { packet := startPacket sink thread level category.bytes message.bytes
            category.categorySize (messageSize sink.recordBytes.toNat message category)
          encodedFields := 0
          wrapped := false }
       some { packet := store32 (store32 draft.packet 16 draft.packet.length) 28
                draft.encodedFields
              wrapped := draft.wrapped }) := by
    rw [logWrite, hlevel, hmessage.pointer, hcategory.pointer]
    simp only [available_eq hbytes]
    rfl
  rw [hwrite, hcut]
  dsimp only
  rw [hlength, hstart, List.append_assoc, List.append_assoc, Nat.zero_add]
  have hfirst : (firstHeader sink thread level category.bytes message.bytes category.categorySize
      (messageSize sink.recordBytes.toNat message category)).flags < 2 := by
    show (if _ then 1 else 0) < 2
    split
    · exact Nat.one_lt_two
    · exact Nat.zero_lt_two
  obtain ⟨flags, hflags, hfinish⟩ := finish_eq hfirst cut
    (category.bytes.take category.categorySize ++
      (message.bytes.take (messageSize sink.recordBytes.toNat message category) ++
        carriedBytes sink.recordBytes.toNat (sink.recordBytes.toNat - (100 +
          category.categorySize + messageSize sink.recordBytes.toNat message category))
          ((fields.getD []).take 32)))
    (writtenFields sink.recordBytes.toNat message category fields).length
  refine ⟨flags, hflags, congrArg (fun packet => some (Written.mk packet false)) ?_⟩
  refine hfinish.trans ?_
  rw [List.length_append, List.length_append, List.length_take_of_le hcategorySize,
    List.length_take_of_le hmessageSize, ← Nat.add_assoc, ← Nat.add_assoc, packetBytes,
    List.append_assoc, List.append_assoc, List.map_map]
  rfl

/-- The levels of records that are not filtered out. -/
theorem level_mem (h : logEnabled sink level = true) :
    level.toNat ∈ [10, 20, 30, 40, 50] := by
  rw [logEnabled, Bool.and_eq_true, Bool.and_eq_true, Bool.and_eq_true, decide_eq_true_iff,
    decide_eq_true_iff, decide_eq_true_iff, decide_eq_true_iff] at h
  obtain ⟨⟨⟨_, hlow⟩, hhigh⟩, hstep⟩ := h
  rw [ge_iff_le, UInt32.le_iff_toNat_le] at hlow
  rw [UInt32.le_iff_toNat_le] at hhigh
  rw [← UInt32.toNat_inj, UInt32.toNat_mod] at hstep
  simp only [UInt32.reduceToNat] at hlow hhigh hstep
  simp only [List.mem_cons, List.not_mem_nil, or_false]
  omega

/-- The synthetic packet has the parts of the other one, with another header. -/
theorem synthetic_packetBytes {h : Header} (hflags : h.flags < 2) (hlevel : h.level < 256)
    (text message : List UInt8) (wires : List WireField) (droppedBefore : UInt64) :
    synthetic (packetBytes h text message wires) droppedBefore = packetBytes
      { h with flags := h.flags ||| 2, level := 30, droppedBefore := droppedBefore.toNat }
      text message wires := by
  rw [synthetic, packetBytes, List.append_assoc, List.append_assoc]
  rw [show (2 : UInt8) = .ofNat 2 from rfl, or_flags (by omega) (by decide),
    show (30 : UInt8) = .ofNat 30 from rfl,
    store_level (h := { h with flags := h.flags ||| 2 }) hlevel (by decide), store_droppedBefore,
    packetBytes, List.append_assoc, List.append_assoc]

/-- The packet is not longer than the record size. -/
theorem total_le (hroom : 100 + category.categorySize ≤ sink.recordBytes.toNat) {flags : Nat} :
    (lastHeader sink thread level message category fields flags).total ≤
      sink.recordBytes.toNat := by
  have hleft : messageSize sink.recordBytes.toNat message category ≤
      min (sink.recordBytes.toNat - (100 + category.categorySize)) 32768 := utf8Prefix_le_limit _ _
  have hcarried : (carriedBytes sink.recordBytes.toNat (sink.recordBytes.toNat - (100 +
      category.categorySize + messageSize sink.recordBytes.toNat message category))
      ((fields.getD []).take 32)).length ≤ sink.recordBytes.toNat - (100 +
        category.categorySize + messageSize sink.recordBytes.toNat message category) :=
    length_carriedBytes_le
  show 100 + category.categorySize + messageSize sink.recordBytes.toNat message category +
    (carriedBytes _ _ _).length ≤ _
  omega

/-- The parts of the packet are in order, also with the header of the synthetic one. -/
theorem lastHeader_inOrder (hbytes : sink.recordBytes.toNat ≤ 65536) (hmessage : message.Valid)
    (hcategory : category.Valid) (hfields : ∀ field ∈ fields.getD [], field.Valid)
    (hroom : 100 + category.categorySize ≤ sink.recordBytes.toNat) {flags n droppedBefore : Nat}
    (hflags : flags < 4) (hlevel : n ∈ [10, 20, 30, 40, 50]) (hdropped : droppedBefore < 2 ^ 64) :
    InOrder { lastHeader sink thread level message category fields flags with
        level := n, droppedBefore }
      (category.bytes.take category.categorySize)
      (message.bytes.take (messageSize sink.recordBytes.toNat message category))
      ((writtenFields sink.recordBytes.toNat message category fields).map
        (·.wire sink.recordBytes.toNat)) := by
  have hcategorySize : category.categorySize ≤ category.bytes.length := utf8Prefix_le_length _ _
  have hmessageSize : messageSize sink.recordBytes.toNat message category ≤ message.bytes.length :=
    utf8Prefix_le_length _ _
  have hleft : messageSize sink.recordBytes.toNat message category ≤
      min (sink.recordBytes.toNat - (100 + category.categorySize)) 32768 := utf8Prefix_le_limit _ _
  have hcount : (writtenFields sink.recordBytes.toNat message category fields).length ≤ 32 :=
    length_carried_le.trans (List.length_take_le 32 _)
  have hcategoryLength := List.length_take_of_le hcategorySize
  have hmessageLength := List.length_take_of_le hmessageSize
  exact {
    total := by
      rw [length_packetBytes, hcategoryLength, hmessageLength, List.map_map]
      rfl
    size := (@total_le sink thread level message category fields hroom flags).trans hbytes
    flags := hflags
    level := hlevel
    count := by
      rw [List.length_map]
      rfl
    few := by
      rw [List.length_map]
      exact hcount
    categorySize := hcategoryLength.symm
    messageSize := hmessageLength.symm
    texts := by
      have hlimit : category.categorySize ≤ 1024 := utf8Prefix_le_limit _ _
      rw [hcategoryLength, hmessageLength]
      omega
    numbers := by
      simp only [List.forall_mem_cons, List.not_mem_nil, false_implies, implies_true, and_true]
      exact ⟨UInt64.toNat_lt _, UInt64.toNat_lt _, UInt64.toNat_lt _, UInt64.toNat_lt _,
        UInt64.toNat_lt _, UInt64.toNat_lt _, hdropped⟩
    category := decode_take_utf8Prefix hcategory.utf8 _
    message := decode_take_utf8Prefix hmessage.utf8 _
    fields := by
      intro w hw
      obtain ⟨field, hfield, rfl⟩ := List.mem_map.mp hw
      obtain ⟨hmem, hskipped⟩ := mem_carried hfield
      exact LogField.wire_inOrder hskipped (hfields field (List.mem_of_mem_take hmem)) hbytes }

/-- When the category does not fit, the packet is longer than the record size. -/
theorem lt_length_packet {written : Written}
    (hroom : ¬ 100 + category.categorySize ≤ sink.recordBytes.toNat)
    (h : logWrite sink thread level message category fields = some written) :
    sink.recordBytes.toNat < written.packet.length := by
  rw [logWrite] at h
  split at h
  · cases h
  · cases h
    rw [store32, store32]
    refine Nat.lt_of_lt_of_le ?_ ((length_le_splice _ _ _).trans (length_le_splice _ _ _))
    refine Nat.lt_of_lt_of_le ?_ (length_le_writeFields _ _)
    dsimp only
    rw [startPacket_eq _ _ _ (utf8Prefix_le_length _ _) (utf8Prefix_le_length _ _),
      List.length_append, List.length_append, Header.length_bytes,
      List.length_take_of_le (utf8Prefix_le_length _ _)]
    show _ < 100 + category.categorySize + _
    omega

/-- What is checked of the written fields, in their own terms. -/
theorem wires_iff (recordBytes : Nat) (written : List LogField) :
    ((∀ w ∈ written.map (·.wire recordBytes), w.kind = 1 → w.bits ≤ 1) ∧
      ((written.map (·.wire recordBytes)).map WireField.name).Nodup) ↔
        (∀ field ∈ written, field.kind = 1 → field.bits ≤ 1) ∧
          (written.map fun field => field.name.bytes).Nodup := by
  rw [List.forall_mem_map, List.map_map]
  have hfield : ∀ field : LogField, ((field.wire recordBytes).kind = 1 →
      (field.wire recordBytes).bits ≤ 1) ↔ (field.kind = 1 → field.bits ≤ 1) := by
    intro field
    rw [← UInt32.toNat_inj, UInt64.le_iff_toNat_le]
    show (field.kind.toNat = 1 → (if field.kind = 5 then 0 else field.bits.toNat) ≤ 1) ↔ _
    by_cases hkind : field.kind.toNat = 1
    · have hne : field.kind ≠ 5 := by
        intro hfive
        rw [hfive] at hkind
        cases hkind
      rw [if_neg hne]
      rfl
    · exact ⟨fun _ h => absurd h hkind, fun _ h => absurd h hkind⟩
  simp only [hfield]
  rfl

/-- `log_write` enqueues a packet that the collector accepts exactly when the header and the
category fit into the record size, the written booleans are 0 or 1, and the written names are
different. -/
theorem logWrite_delivers_iff (sink : LogSink) (thread : LogThread) (level : UInt32)
    (message category : TextView) (fields : Option (List LogField))
    (hbytes : 100 ≤ sink.recordBytes.toNat ∧ sink.recordBytes.toNat ≤ 65536)
    (hlevel : logEnabled sink level = true) (hmessage : message.Valid)
    (hcategory : category.Valid) (hfields : ∀ field ∈ fields.getD [], field.Valid) :
    (∃ written, logWrite sink thread level message category fields = some written ∧
        Delivered sink.recordBytes.toNat written) ↔
      100 + category.categorySize ≤ sink.recordBytes.toNat ∧
        (∀ field ∈ writtenFields sink.recordBytes.toNat message category fields,
          field.kind = 1 → field.bits ≤ 1) ∧
        ((writtenFields sink.recordBytes.toNat message category fields).map
          fun field => field.name.bytes).Nodup := by
  by_cases hroom : 100 + category.categorySize ≤ sink.recordBytes.toNat
  · obtain ⟨flags, hflags, hwrite⟩ := @logWrite_eq sink thread level message category fields hlevel
      hmessage hcategory hroom
    have horder := @lastHeader_inOrder sink thread level message category fields hbytes.2 hmessage
      hcategory hfields hroom
    have hpacket : InOrder (lastHeader sink thread level message category fields flags) _ _ _ :=
      horder (show flags < 4 by omega) (level_mem hlevel) (show 0 < 2 ^ 64 by decide)
    have hlast : (lastHeader sink thread level message category fields flags).level < 256 :=
      Nat.lt_of_le_of_lt (show level.toNat ≤ 50 by
        have hmem := level_mem hlevel
        simp only [List.mem_cons, List.not_mem_nil, or_false] at hmem
        omega) (by decide)
    rw [← wires_iff sink.recordBytes.toNat,
      ← exists_record_packetBytes_iff runtimeDecoder_lawful hpacket]
    constructor
    · intro ⟨written, h, hdelivered⟩
      rw [hwrite] at h
      cases h
      exact ⟨hroom, hdelivered.accepted⟩
    · intro ⟨_, haccepted⟩
      refine ⟨_, hwrite, ?_⟩
      exact {
        size := by
          rw [← hpacket.total]
          exact total_le hroom
        sizes := rfl
        accepted := haccepted
        syntheticAccepted := by
          intro droppedBefore
          have hboth : flags ||| 2 < 4 := Nat.or_lt_two_pow (n := 2) (by omega) (by decide)
          have hsynthetic := horder hboth (show 30 ∈ _ by decide) droppedBefore.toNat_lt
          show ∃ record, Runtime.decodeLogRecord (synthetic (packetBytes _ _ _ _) _) = .ok record
          rw [synthetic_packetBytes hflags hlast]
          rw [exists_record_packetBytes_iff runtimeDecoder_lawful hpacket] at haccepted
          exact (exists_record_packetBytes_iff runtimeDecoder_lawful hsynthetic).mpr haccepted }
  · constructor
    · intro ⟨written, h, hdelivered⟩
      exact absurd hdelivered.size (Nat.not_le.mpr (lt_length_packet hroom h))
    · intro ⟨hfits, _⟩
      exact absurd hfits hroom

end

/-- The size of a view is the length of its bytes. -/
theorem toNat_ofNat_length {bytes : List UInt8} (h : bytes.length < 2 ^ 64) :
    ∀ found, some bytes = some found → (UInt64.ofNat bytes.length).toNat = found.length := by
  intro found hfound
  cases hfound
  rw [UInt64.toNat_ofNat']
  exact Nat.mod_eq_of_lt h

/-- A view of bytes. -/
def TextView.of (bytes : List UInt8) (h : bytes.length < 2 ^ 64) : TextView where
  data := some bytes
  size := .ofNat bytes.length
  size_eq := toNat_ofNat_length h

/-- A short message is delivered. -/
theorem logWrite_delivers_hello : ∃ written,
    logWrite { level := 20, recordBytes := 16384, generation := 1, sequence := 0 }
      { timeNs := 5, submissionId := 0, invocationId := 0, operationId := 0 } 20
      (.of [104, 105] (by decide)) (.of [99] (by decide))
      (some [{ kind := 1, name := .of [111, 107] (by decide), bits := 1,
               text := .of [] (by decide) }]) = some written ∧ Delivered 16384 written :=
  (logWrite_delivers_iff { level := 20, recordBytes := 16384, generation := 1, sequence := 0 }
    { timeNs := 5, submissionId := 0, invocationId := 0, operationId := 0 } 20
    (.of [104, 105] (by decide)) (.of [99] (by decide))
    (some [{ kind := 1, name := .of [111, 107] (by decide), bits := 1,
             text := .of [] (by decide) }])
    (by decide) (by decide) ⟨rfl, by decide⟩ ⟨rfl, by decide⟩
    (by
      intro field hfield
      cases List.mem_singleton.mp hfield
      exact ⟨by decide, by decide, by decide⟩)).mpr (by decide +kernel)

/-- A category of one byte does not fit into the smallest records, and the packet is longer than
they may be. -/
theorem logWrite_overruns : ¬ ∀ (sink : LogSink) (thread : LogThread) (level : UInt32)
    (message category : TextView) (fields : Option (List LogField)),
    100 ≤ sink.recordBytes.toNat ∧ sink.recordBytes.toNat ≤ 65536 →
    logEnabled sink level = true → message.Valid → category.Valid →
    (∀ field ∈ fields.getD [], field.Valid) →
    ∃ written, logWrite sink thread level message category fields = some written ∧
      Delivered sink.recordBytes.toNat written := by
  intro h
  obtain ⟨written, hwrite, hdelivered⟩ := h
    { level := 20, recordBytes := 100, generation := 1, sequence := 0 }
    { timeNs := 5, submissionId := 0, invocationId := 0, operationId := 0 } 20
    (.of [104, 105] (by decide)) (.of [99] (by decide)) none (by decide) (by decide)
    ⟨rfl, by decide⟩ ⟨rfl, by decide⟩ (by intro field hfield; cases hfield)
  have hlength : (logWrite { level := 20, recordBytes := 100, generation := 1, sequence := 0 }
      { timeNs := 5, submissionId := 0, invocationId := 0, operationId := 0 } 20
      (.of [104, 105] (by decide)) (.of [99] (by decide)) none).map (·.packet.length) =
        some 101 := by decide +kernel
  rw [hwrite] at hlength
  have hlong : written.packet.length = 101 := Option.some.inj hlength
  have hsize : written.packet.length ≤ 100 := hdelivered.size
  omega

end Wmfs.Log.Native
