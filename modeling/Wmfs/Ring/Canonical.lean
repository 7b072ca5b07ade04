import Wmfs.Ring.Truncation

/-!
# `Wmfs.Ring.Canonical`: the buffers that `decode` accepts

The protocol asks that every reserved field, unused array entry, inactive payload area and
unknown flag bit of a record is zero, and that readers reject the others. `decode` checks the
padding of the descriptors in use. It does not look at the slots behind the counts, at the text
of a numeric scalar or the bits of a text, or at the kinds, the status and the flags of a
record, and with a session generation of zero it accepts what `encode` refuses.

`Decoded.encode_iff` says when a buffer is the encoding of the record that was read from it,
and `canonical_iff` when the protocol's requirement is met.
-/

set_option autoImplicit false

namespace Wmfs.Ring.Codec

open Wmfs.Lib
open Wmfs.Lib.Utf8 (Text)

variable {Obj : Type} [PyObject Obj]

/-! ### What the protocol requires of a buffer -/

/-- A value of the header, by its place in `_RECORD_HEADER`. -/
def headerField (data : List UInt8) (index : Nat) : Int :=
  (unpackFrom RECORD_HEADER data 0).getD index 0

/-- `tensor_count`. -/
def tensorCount (data : List UInt8) : Nat := (headerField data 7).toNat

/-- `scalar_count`. -/
def scalarCount (data : List UInt8) : Nat := (headerField data 8).toNat

/-- `output_count`. -/
def outputCount (data : List UInt8) : Nat := (headerField data 9).toNat

/-- The slots of an array behind the first `count` are zero. -/
def UnusedZero (data : List UInt8) (base size count : Nat) : Prop :=
  anyNonzero (slice data (base + count * size) ((16 - count) * size)) = false

/-- The payload that the kind of a scalar does not use is zero: the bits of a text, and the text
and its length of the other kinds. -/
def InactiveZero (data : List UInt8) (offset : Nat) : Prop :=
  match unpackFrom SCALAR_HEAD data offset with
  | [_, kindId, _, bits, textLength, _] =>
    if kindId = 4 then bits = 0
    else textLength = 0 ∧ anyNonzero (slice data (offset + 24) 256) = false
  | _ => False

/-- The areas that hold nothing are zero. -/
structure SlackZero (data : List UInt8) : Prop where
  tensors : UnusedZero data TENSORS TENSOR_SIZE (tensorCount data)
  scalars : UnusedZero data SCALARS SCALAR_SIZE (scalarCount data)
  outputs : UnusedZero data OUTPUTS OUTPUT_SIZE (outputCount data)
  inactive : ∀ i < scalarCount data, InactiveZero data (SCALARS + i * SCALAR_SIZE)

/-- The kinds, the status and the flags are ones that the protocol defines. -/
structure KnownIds (data : List UInt8) : Prop where
  kind : headerField data 0 ∈ ([1, 2, 3, 4, 257, 258, 259, 260] : List Int)
  status : headerField data 6 ∈ ([0, 1, 2, 3, 4, 5] : List Int)
  flags : headerField data 1 ∈ ([0, 1] : List Int)
  tensors : ∀ i < tensorCount data,
    (unpackFrom TENSOR_HEAD data (TENSORS + i * TENSOR_SIZE)).getD 7 0 ∈ ([1, 2] : List Int)

/-- The dimensions at `offset` are zero from the rank on. -/
def RankPaddingZero (data : List UInt8) (offset : Nat) (rank : Int) : Prop :=
  anyValue ((unpackFrom DIMENSIONS data offset).drop rank.toNat) = false

/-- The reserved fields and the padding are zero. -/
structure PaddingZero (data : List UInt8) : Prop where
  header : headerField data 10 = 0 ∧ headerField data 11 = 0
  reserved : anyNonzero (slice data 52 76) = false
  tail : anyNonzero (slice data TAIL 3312) = false
  tensors : ∀ i < tensorCount data,
    let offset := TENSORS + i * TENSOR_SIZE
    let head := unpackFrom TENSOR_HEAD data offset
    head.getD 10 0 = 0 ∧ RankPaddingZero data (offset + 56) (head.getD 6 0) ∧
      RankPaddingZero data (offset + 184) (head.getD 6 0)
  scalars : ∀ i < scalarCount data,
    let offset := SCALARS + i * SCALAR_SIZE
    let head := unpackFrom SCALAR_HEAD data offset
    head.getD 2 0 = 0 ∧ head.getD 5 0 = 0 ∧
      anyNonzero ((slice data (offset + 24) 256).drop (head.getD 4 0).toNat) = false
  outputs : ∀ i < outputCount data,
    let offset := OUTPUTS + i * OUTPUT_SIZE
    let head := unpackFrom OUTPUT_HEAD data offset
    head.getD 1 0 = 0 ∧ head.getD 4 0 = 0 ∧ RankPaddingZero data (offset + 16) (head.getD 2 0)
  error :
    let head := unpackFrom ERROR_HEAD data ERROR_OFFSET
    head.getD 3 0 = 0 ∧
      anyNonzero (slice data (ERROR_OFFSET + 16 + (head.getD 0 0).toNat)
        (64 - (head.getD 0 0).toNat)) = false ∧
      anyNonzero (slice data (ERROR_OFFSET + 80 + (head.getD 1 0).toNat)
        (1024 - (head.getD 1 0).toNat)) = false

/-- What the protocol requires of the bytes of a record. -/
structure WellFormed (data : List UInt8) : Prop where
  slack : SlackZero data
  ids : KnownIds data
  padding : PaddingZero data

/-! ### What acceptance says -/

/-- What was read from a tensor descriptor that was accepted. -/
theorem padding_of_decodeTensor {data : List UInt8} {offset : Nat} {item : Tensor}
    (h : decodeTensor data offset = .ok item) :
    let head := unpackFrom TENSOR_HEAD data offset
    head.getD 10 0 = 0 ∧ RankPaddingZero data (offset + 56) (head.getD 6 0) ∧
      RankPaddingZero data (offset + 184) (head.getD 6 0) := by
  unfold decodeTensor at h
  split at h
  case h_2 => cases h
  rename_i hhead
  split at h
  · cases h
  rename_i hchecks
  simp only at h
  split at h
  · cases h
  rename_i hpadding
  rw [not_or, Bool.not_eq_true, Bool.not_eq_true] at hpadding
  rw [hhead]
  exact ⟨by simpa using (not_or.mp hchecks).1, hpadding⟩

/-- What was read from an output descriptor that was accepted. -/
theorem padding_of_decodeOutput {data : List UInt8} {offset : Nat} {item : PlannedOutput}
    (h : decodeOutput data offset = .ok item) :
    let head := unpackFrom OUTPUT_HEAD data offset
    head.getD 1 0 = 0 ∧ head.getD 4 0 = 0 ∧
      RankPaddingZero data (offset + 16) (head.getD 2 0) := by
  unfold decodeOutput at h
  split at h
  case h_2 => cases h
  rename_i hhead
  simp only at h
  split at h
  · cases h
  rename_i hchecks
  simp only [not_or, not_not, Bool.not_eq_true] at hchecks
  rw [hhead]
  exact ⟨hchecks.1, hchecks.2.1, hchecks.2.2.2⟩

/-- What was read from a scalar descriptor that was accepted. -/
theorem exists_of_decodeScalar {data : List UInt8} {offset : Nat} {item : Scalar Obj}
    (hroom : offset + SCALAR_SIZE ≤ data.length) (h : decodeScalar data offset = .ok item) :
    ∃ kindId bits textLength : Int,
      unpackFrom SCALAR_HEAD data offset = [item.parameter, kindId, 0, bits, textLength, 0] ∧
      (0 ≤ bits ∧ bits < 2 ^ 64) ∧ (0 ≤ textLength ∧ textLength ≤ 256) ∧
      SCALAR_TO_ID.lookup item.kind = some kindId ∧
      anyNonzero ((slice data (offset + 24) 256).drop textLength.toNat) = false ∧
      scalarValue item.kind bits textLength.toNat (slice data (offset + 24) 256) =
        .ok item.value := by
  have hsize : formatSize SCALAR_HEAD = 24 ∧ SCALAR_SIZE = 280 := ⟨rfl, rfl⟩
  unfold decodeScalar at h
  split at h
  case h_2 => cases h
  rename_i parameter kindId flags bits textLength reserved hhead
  have hholds := holds_of_structPack ((unpackFrom_eq_iff (by omega)).mp hhead)
  simp only [SCALAR_HEAD, List.forall₂_cons, Field.holds_I_iff, Field.holds_Q_iff] at hholds
  obtain ⟨_, _, _, hbits, hlength, _⟩ := hholds
  split at h
  · cases h
  rename_i hchecks
  split at h
  · cases h
  rename_i kind hkind
  simp only at h
  split at h
  · cases h
  rename_i hpadding
  rw [Bool.not_eq_true] at hpadding
  obtain ⟨value, hvalue, h⟩ := Result.bind_ok_iff.mp h
  cases h
  simp only [not_or, not_not] at hchecks
  rw [hchecks.1, hchecks.2.1] at hhead
  exact ⟨kindId, bits, textLength, hhead, hbits, ⟨hlength.1, by omega⟩,
    scalar_lookup_iff.mp hkind, hpadding, hvalue⟩

/-- What was read from an error area that was accepted. -/
theorem exists_of_decodeError {data : List UInt8} {errorType errorMessage : Text}
    (hdata : data.length = RECORD_SIZE)
    (h : decodeError data = .ok (errorType, errorMessage)) :
    ∃ typeBytes messageBytes flags,
      Utf8.encode errorType = some typeBytes ∧ Utf8.encode errorMessage = some messageBytes ∧
      typeBytes.length ≤ 64 ∧ messageBytes.length ≤ 1024 ∧
      errorImage typeBytes messageBytes flags = .ok (slice data ERROR_OFFSET 1104) := by
  have hroom : ERROR_OFFSET + 1104 ≤ data.length := by rw [hdata]; decide
  unfold decodeError at h
  split at h
  case h_2 => cases h
  rename_i typeLength messageLength flags reserved hhead
  have hholds := holds_of_structPack ((unpackFrom_eq_iff (le_trans (by decide) hroom)).mp hhead)
  simp only [ERROR_HEAD, List.forall₂_cons, Field.holds_I_iff] at hholds
  obtain ⟨htype, hmessage, _⟩ := hholds
  split at h
  · cases h
  rename_i hchecks
  simp only [not_or, not_not, not_lt] at hchecks
  obtain ⟨hreserved, _, htypeLe, hmessageLe⟩ := hchecks
  split at h
  · cases h
  rename_i hpadding
  rw [not_or, Bool.not_eq_true, Bool.not_eq_true] at hpadding
  obtain ⟨decodedType, hdecodedType, h⟩ := Result.bind_ok_iff.mp h
  obtain ⟨decodedMessage, hdecodedMessage, h⟩ := Result.bind_ok_iff.mp h
  cases h
  rw [decodeText_ok_iff] at hdecodedType hdecodedMessage
  -- The lengths as natural numbers, and the two texts inside their areas.
  have h64 : typeLength.toNat ≤ 64 := by omega
  have h1024 : messageLength.toNat ≤ 1024 := by omega
  have htypeRoom : ERROR_OFFSET + 16 + 64 ≤ data.length := by rw [hdata]; decide
  have hmessageRoom : ERROR_OFFSET + 80 + 1024 ≤ data.length := by rw [hdata]; decide
  have htypeText := length_slice (show ERROR_OFFSET + 16 + typeLength.toNat ≤ data.length by omega)
  have hmessageText :=
    length_slice (show ERROR_OFFSET + 80 + messageLength.toNat ≤ data.length by omega)
  refine ⟨_, _, flags, hdecodedType, hdecodedMessage, htypeText.trans_le h64,
    hmessageText.trans_le h1024, ?_⟩
  rw [errorImage_ok_iff hroom (htypeText.trans_le h64), htypeText, hmessageText,
    Int.toNat_of_nonneg htype.1, Int.toNat_of_nonneg hmessage.1, hhead, hreserved]
  exact ⟨rfl, padTo_slice htypeRoom h64 hpadding.1, padTo_slice hmessageRoom h1024 hpadding.2⟩

/-- Bits that are read as a signed integer are its masked bits. -/
theorem emod_value_bytes {bits : Int} (h : 0 ≤ bits ∧ bits < 2 ^ 64) :
    Field.q.value (Field.Q.bytes bits) % 2 ^ 64 = bits := by
  have hemod : Field.q.value (Field.Q.bytes bits) % Field.q.modulus =
      (ofLe (Field.Q.bytes bits) : Int) := Field.value_emod (Field.length_bytes Field.Q bits)
  rw [Field.ofLe_bytes h] at hemod
  exact hemod

/-- The payload of a scalar that was read: the value has the bits or the text that it was read
from, and nothing in the area that its kind does not use. -/
theorem scalarPayload_of_value {item : Scalar Obj} {kindId bits : Int} {textLength : Nat}
    {area : List UInt8} (hkind : SCALAR_TO_ID.lookup item.kind = some kindId)
    (hbits : 0 ≤ bits ∧ bits < 2 ^ 64) (hlength : textLength ≤ 256)
    (hvalue : scalarValue item.kind bits textLength area = .ok item.value) :
    scalarPayload item = .ok (if kindId = 4 then (0, area.take textLength) else (bits, [])) := by
  unfold scalarValue at hvalue
  rcases scalar_lookup_cases hkind with ⟨hk, rfl⟩ | ⟨hk, rfl⟩ | ⟨hk, rfl⟩ | ⟨hk, rfl⟩
  · rw [if_pos hk] at hvalue
    split at hvalue
    · cases hvalue
    have hb : (if decide (bits ≠ 0) = true then (1 : Int) else 0) = bits := by
      split <;> rename_i hb <;> simp only [decide_eq_true_eq, ne_eq, not_not] at hb <;> omega
    rw [scalarPayload_boolean hk (Except.ok.inj hvalue).symm, hb]
    rfl
  · rw [if_neg (by rw [hk]; decide), if_pos hk] at hvalue
    have hb : ((UInt64.ofNat bits.toNat).toNat : Int) = bits := by
      rw [UInt64.toNat_ofNat']
      omega
    rw [scalarPayload_float64 hk (Except.ok.inj hvalue).symm, hb]
    rfl
  · rw [if_neg (by rw [hk]; decide), if_neg (by rw [hk]; decide), if_pos hk] at hvalue
    rw [scalarPayload_int64 hk (Except.ok.inj hvalue).symm, emod_value_bytes hbits]
    rfl
  · rw [if_neg (by rw [hk]; decide), if_neg (by rw [hk]; decide), if_neg (by rw [hk]; decide)]
      at hvalue
    obtain ⟨text, htext, hvalue⟩ := Result.bind_ok_iff.mp hvalue
    rw [if_pos rfl, scalarPayload_text hk (Except.ok.inj hvalue).symm]
    refine ⟨area.take textLength, ?_, ?_, rfl⟩
    · rw [encodeText_ok_iff]
      exact decodeText_ok_iff.mp htext
    · exact le_trans (List.length_take_le _ _) hlength

/-- A payload has bits or a text, by its kind. -/
theorem inactive_of_payload {item : Scalar Obj} {kindId bits : Int} {text : List UInt8}
    (hkind : SCALAR_TO_ID.lookup item.kind = some kindId)
    (h : scalarPayload item = .ok (bits, text)) : if kindId = 4 then bits = 0 else text = [] := by
  unfold scalarPayload at h
  rcases scalar_lookup_cases hkind with ⟨hk, rfl⟩ | ⟨hk, rfl⟩ | ⟨hk, rfl⟩ | ⟨hk, rfl⟩
  · rw [if_pos hk] at h
    obtain ⟨_, _, h⟩ := Result.bind_ok_iff.mp h
    cases h
    rfl
  · rw [if_neg (by rw [hk]; decide), if_pos hk] at h
    obtain ⟨_, _, h⟩ := Result.bind_ok_iff.mp h
    cases h
    rfl
  · rw [if_neg (by rw [hk]; decide), if_neg (by rw [hk]; decide), if_pos hk] at h
    obtain ⟨_, _, h⟩ := Result.bind_ok_iff.mp h
    cases h
    rfl
  · rw [if_neg (by rw [hk]; decide), if_neg (by rw [hk]; decide), if_neg (by rw [hk]; decide)] at h
    obtain ⟨_, _, h⟩ := Result.bind_ok_iff.mp h
    obtain ⟨_, _, h⟩ := Result.bind_ok_iff.mp h
    split at h
    · cases h
    · cases h
      rfl

/-- The image of a scalar leaves zeros in the payload that its kind does not use. -/
theorem inactiveZero_of_scalarImage {data : List UInt8} {offset : Nat} {item : Scalar Obj}
    (hroom : offset + SCALAR_SIZE ≤ data.length)
    (h : scalarImage item = .ok (slice data offset SCALAR_SIZE)) : InactiveZero data offset := by
  obtain ⟨kindId, bits, text, hkind, hpayload, hhead, htext⟩ := slot_of_scalarImage hroom h
  have hinactive := inactive_of_payload hkind hpayload
  rw [InactiveZero, hhead]
  simp only
  split
  · rename_i hk
    rwa [if_pos hk] at hinactive
  · rename_i hk
    rw [if_neg hk] at hinactive
    rw [htext, hinactive, padTo_nil]
    exact ⟨rfl, anyNonzero_zeros _⟩

/-- A slot is the image of the scalar that was read from it when its inactive payload is zero. -/
theorem scalarImage_iff_inactiveZero {data : List UInt8} {offset : Nat} {item : Scalar Obj}
    (hroom : offset + SCALAR_SIZE ≤ data.length) (h : decodeScalar data offset = .ok item) :
    scalarImage item = .ok (slice data offset SCALAR_SIZE) ↔ InactiveZero data offset := by
  have hsize : SCALAR_SIZE = 280 := rfl
  obtain ⟨kindId, bits, textLength, hhead, hbits, hlength, hkind, hpadding, hvalue⟩ :=
    exists_of_decodeScalar hroom h
  have hpayload := scalarPayload_of_value hkind hbits (by omega) hvalue
  refine ⟨inactiveZero_of_scalarImage hroom, ?_⟩
  rw [InactiveZero, hhead]
  simp only
  intro hinactive
  have htextLength : (slice data (offset + 24) 256).length = 256 := length_slice (by omega)
  by_cases hk : kindId = 4
  · rw [if_pos hk] at hinactive hpayload
    apply scalarImage_of_slot hroom hkind hpayload
    · rw [hhead, hinactive, List.length_take, htextLength, min_eq_left (by omega),
        Int.toNat_of_nonneg hlength.1]
    · have hslice : (slice data (offset + 24) 256).take textLength.toNat =
          slice data (offset + 24) textLength.toNat := by
        rw [slice, List.take_take, min_eq_left (by omega), slice]
      rw [hslice]
      apply padTo_slice (by omega) (by omega)
      rw [← slice_slice data (offset + 24)
        (show textLength.toNat + (256 - textLength.toNat) ≤ 256 by omega), slice,
        List.take_of_length_le (by rw [List.length_drop, htextLength])]
      exact hpadding
  · rw [if_neg hk] at hinactive hpayload
    apply scalarImage_of_slot hroom hkind hpayload
    · rw [hhead, hinactive.1]
      rfl
    · rw [eq_zeros_of_anyNonzero hinactive.2, htextLength, padTo_nil]

/-- What was read from a buffer that was accepted. -/
structure Decoded (record : Record Obj) (data : List UInt8) (generation : Int) : Prop where
  size : data.length = RECORD_SIZE
  identity : record.generation = generation
  submission : record.submissionId ≠ 0
  counts : record.tensors.length ≤ 16 ∧ record.scalars.length ≤ 16 ∧ record.outputs.length ≤ 16
  header : unpackFrom RECORD_HEADER data 0 = headerValues record
  reserved : anyNonzero (slice data 52 76) = false
  tail : anyNonzero (slice data TAIL 3312) = false
  tensors : ∀ i (h : i < record.tensors.length),
    decodeTensor data (TENSORS + i * TENSOR_SIZE) = .ok record.tensors[i]
  scalars : ∀ i (h : i < record.scalars.length),
    decodeScalar data (SCALARS + i * SCALAR_SIZE) = .ok record.scalars[i]
  outputs : ∀ i (h : i < record.outputs.length),
    decodeOutput data (OUTPUTS + i * OUTPUT_SIZE) = .ok record.outputs[i]
  profile : unpackFrom PROFILE data PROFILE_OFFSET = record.profile
  error : decodeError data = .ok (record.errorType, record.errorMessage)

/-- What `decode` accepts, part by part. -/
theorem decoded_of_decode {record : Record Obj} {data : List UInt8} {generation : Int}
    (h : decode data generation = .ok record) : Decoded record data generation := by
  unfold decode at h
  split at h
  · cases h
  rename_i hsize
  rw [not_not] at hsize
  split at h
  case h_2 => cases h
  rename_i kind flags actual submission invocation operation status tensorCount scalarCount
    outputCount reserved0 reserved1 hheader
  have hholds := holds_of_structPack ((unpackFrom_eq_iff (by rw [hsize]; decide)).mp hheader)
  simp only [RECORD_HEADER, List.forall₂_cons, Field.holds_H_iff] at hholds
  obtain ⟨_, _, _, _, _, _, _, htensors, hscalars, houtputs, _⟩ := hholds
  split at h
  · cases h
  rename_i hidentity
  rw [not_or, not_not] at hidentity
  split at h
  · cases h
  rename_i hreserved
  simp only [not_or, not_not, Bool.not_eq_true] at hreserved
  split at h
  · cases h
  rename_i hcounts
  obtain ⟨tensors, hreadTensors, h⟩ := Result.bind_ok_iff.mp h
  obtain ⟨scalars, hreadScalars, h⟩ := Result.bind_ok_iff.mp h
  obtain ⟨outputs, hreadOutputs, h⟩ := Result.bind_ok_iff.mp h
  obtain ⟨⟨errorType, errorMessage⟩, herror, h⟩ := Result.bind_ok_iff.mp h
  cases h
  obtain ⟨hnt, htensor⟩ := readArray_ok_iff.mp hreadTensors
  obtain ⟨hns, hscalar⟩ := readArray_ok_iff.mp hreadScalars
  obtain ⟨hno, houtput⟩ := readArray_ok_iff.mp hreadOutputs
  simp only [Nat.zero_add] at htensor hscalar houtput
  exact {
    size := hsize
    identity := rfl
    submission := hidentity.2
    counts := by simp only [hnt, hns, hno]; omega
    header := by
      rw [hheader, headerValues, hidentity.1, hreserved.1, hreserved.2.1, hnt, hns, hno,
        Int.toNat_of_nonneg htensors.1, Int.toNat_of_nonneg hscalars.1,
        Int.toNat_of_nonneg houtputs.1]
    reserved := hreserved.2.2.1
    tail := hreserved.2.2.2
    tensors := htensor
    scalars := hscalar
    outputs := houtput
    profile := rfl
    error := herror }

namespace Decoded

variable {record : Record Obj} {data : List UInt8} {generation : Int}

/-- The counts of the buffer are those of the record. -/
theorem counts_eq (h : Decoded record data generation) :
    tensorCount data = record.tensors.length ∧ scalarCount data = record.scalars.length ∧
      outputCount data = record.outputs.length := by
  unfold tensorCount scalarCount outputCount headerField
  rw [h.header]
  exact ⟨Int.toNat_natCast _, Int.toNat_natCast _, Int.toNat_natCast _⟩

/-- The slots of the tensors lie in the buffer, and so do the others. -/
theorem tensor_room (h : Decoded record data generation) {i : Nat}
    (hi : i < record.tensors.length) :
    TENSORS + i * TENSOR_SIZE + TENSOR_SIZE ≤ data.length := by
  have hcount := h.counts.1
  rw [h.size, TENSORS, TENSOR_SIZE, RECORD_SIZE]
  omega

/-- The slot of a scalar lies in the record. -/
theorem scalar_room (h : Decoded record data generation) {i : Nat}
    (hi : i < record.scalars.length) :
    SCALARS + i * SCALAR_SIZE + SCALAR_SIZE ≤ data.length := by
  have hcount := h.counts.2.1
  rw [h.size, SCALARS, SCALAR_SIZE, RECORD_SIZE]
  omega

/-- The slot of an output lies in the record. -/
theorem output_room (h : Decoded record data generation) {i : Nat}
    (hi : i < record.outputs.length) :
    OUTPUTS + i * OUTPUT_SIZE + OUTPUT_SIZE ≤ data.length := by
  have hcount := h.counts.2.2
  rw [h.size, OUTPUTS, OUTPUT_SIZE, RECORD_SIZE]
  omega

/-- `decode` checks all padding. -/
theorem paddingZero (h : Decoded record data generation) : PaddingZero data := by
  obtain ⟨htensors, hscalars, houtputs⟩ := h.counts_eq
  refine {
    header := ?_
    reserved := h.reserved
    tail := h.tail
    tensors := ?_
    scalars := ?_
    outputs := ?_
    error := ?_ }
  · unfold headerField
    rw [h.header]
    exact ⟨rfl, rfl⟩
  · intro i hi
    rw [htensors] at hi
    exact padding_of_decodeTensor (h.tensors i hi)
  · intro i hi
    rw [hscalars] at hi
    obtain ⟨kindId, bits, textLength, hhead, _, _, _, hpadding, _⟩ :=
      exists_of_decodeScalar (h.scalar_room hi) (h.scalars i hi)
    simp only [hhead]
    exact ⟨rfl, rfl, hpadding⟩
  · intro i hi
    rw [houtputs] at hi
    exact padding_of_decodeOutput (h.outputs i hi)
  · obtain ⟨typeBytes, messageBytes, flags, _, _, htype, hmessage, himage⟩ :=
      exists_of_decodeError h.size h.error
    obtain ⟨hhead, htypeArea, hmessageArea⟩ :=
      (errorImage_ok_iff (by rw [h.size]; decide) htype).mp himage
    simp only [hhead]
    exact ⟨rfl, (slice_of_area htypeArea htype).2, (slice_of_area hmessageArea hmessage).2⟩

/-- The error area is the one that `encode` writes for the texts that were read from it. -/
theorem encoded_error (h : Decoded record data generation) (hflags : readErrorFlags data = 0) :
    ∃ encodedType encodedMessage, encodeText record.errorType = .ok encodedType ∧
      encodeText record.errorMessage = .ok encodedMessage ∧
      errorImage (encodedType.take 64) (encodedMessage.take 1024)
        (errorFlags encodedType.length encodedMessage.length) =
          .ok (slice data ERROR_OFFSET 1104) := by
  obtain ⟨typeBytes, messageBytes, flags, hencodedType, hencodedMessage, htype, hmessage,
    himage⟩ := exists_of_decodeError h.size h.error
  have hhead := ((errorImage_ok_iff (by rw [h.size]; decide) htype).mp himage).1
  have hzero : flags = 0 := by
    rw [readErrorFlags, hhead] at hflags
    exact hflags
  have hfits : errorFlags typeBytes.length messageBytes.length = 0 := by
    rw [errorFlags, if_neg (by omega), if_neg (by omega)]
    rfl
  refine ⟨typeBytes, messageBytes, encodeText_ok_iff.mpr hencodedType,
    encodeText_ok_iff.mpr hencodedMessage, ?_⟩
  rw [List.take_of_length_le htype, List.take_of_length_le hmessage, hfits, ← hzero]
  exact himage

end Decoded

/-- Zeros in the unused slots of an array. -/
theorem unused_eq_zeros {data : List UInt8} {base size count : Nat}
    (hroom : base + 16 * size ≤ data.length) (hcount : count ≤ 16)
    (h : UnusedZero data base size count) :
    slice data (base + count * size) ((16 - count) * size) = zeros ((16 - count) * size) := by
  have hsum : count * size + (16 - count) * size = 16 * size := by
    rw [← Nat.add_mul]
    congr 1
    omega
  rw [eq_zeros_of_anyNonzero h, length_slice (by omega)]

/-- What `encode` writes has no slack. -/
theorem Encoded.slackZero {record : Record Obj} {data : List UInt8} (h : Encoded record data) :
    SlackZero data := by
  have hunused : ∀ {α : Type} {image : α → Except Exn (List UInt8)} {base size : Nat}
      {items : List α}, Slots image base size items data →
        UnusedZero data base size items.length := by
    intro α image base size items hslots
    rw [UnusedZero, hslots.2, anyNonzero_zeros]
  have hcounts : tensorCount data = record.tensors.length ∧
      scalarCount data = record.scalars.length ∧ outputCount data = record.outputs.length := by
    unfold tensorCount scalarCount outputCount headerField
    rw [h.header]
    exact ⟨Int.toNat_natCast _, Int.toNat_natCast _, Int.toNat_natCast _⟩
  obtain ⟨htensors, hscalars, houtputs⟩ := hcounts
  refine ⟨?_, ?_, ?_, ?_⟩
  · rw [htensors]
    exact hunused h.tensors
  · rw [hscalars]
    exact hunused h.scalars
  · rw [houtputs]
    exact hunused h.outputs
  · intro i hi
    rw [hscalars] at hi
    have hcount := h.counts.2.1
    refine inactiveZero_of_scalarImage ?_ (h.scalars.1 i hi)
    rw [h.size, SCALARS, SCALAR_SIZE, RECORD_SIZE]
    omega

/-- A buffer that was accepted without a truncation flag is the encoding of the record that was
read from it when it has no slack and its generation is not zero. -/
theorem Decoded.encode_iff {record : Record Obj} {data : List UInt8} {generation : Int}
    (h : Decoded record data generation) (hflags : readErrorFlags data = 0) :
    encode record = .ok data ↔ generation ≠ 0 ∧ SlackZero data := by
  rw [encode_ok_iff]
  obtain ⟨htensors, hscalars, houtputs⟩ := h.counts_eq
  constructor
  · intro hencoded
    exact ⟨by rw [← h.identity]; exact hencoded.generation, hencoded.slackZero⟩
  · intro ⟨hgeneration, hslack⟩
    have hunusedTensors := hslack.tensors
    have hunusedScalars := hslack.scalars
    have hunusedOutputs := hslack.outputs
    rw [htensors] at hunusedTensors
    rw [hscalars] at hunusedScalars
    rw [houtputs] at hunusedOutputs
    exact {
      size := h.size
      generation := by rw [h.identity]; exact hgeneration
      submission := h.submission
      counts := h.counts
      header := h.header
      reserved := by
        rw [eq_zeros_of_anyNonzero h.reserved, length_slice (by rw [h.size]; decide)]
      tensors := ⟨fun i hi => (decodeTensor_ok_iff (h.tensor_room hi)).mp (h.tensors i hi),
        unused_eq_zeros (by rw [h.size]; decide) h.counts.1 hunusedTensors⟩
      scalars := ⟨fun i hi =>
          (scalarImage_iff_inactiveZero (h.scalar_room hi) (h.scalars i hi)).mpr
            (hslack.inactive i (by rw [hscalars]; exact hi)),
        unused_eq_zeros (by rw [h.size]; decide) h.counts.2.1 hunusedScalars⟩
      outputs := ⟨fun i hi => (decodeOutput_ok_iff (h.output_room hi)).mp (h.outputs i hi),
        unused_eq_zeros (by rw [h.size]; decide) h.counts.2.2 hunusedOutputs⟩
      profile := h.profile
      error := h.encoded_error hflags
      tail := by
        rw [eq_zeros_of_anyNonzero h.tail, length_slice (by rw [h.size]; decide)] }

/-- What the protocol promises of a buffer that was accepted: it is the encoding of the record
that was read from it, unless a text was truncated, and it is well formed. -/
def Canonical (record : Record Obj) (data : List UInt8) : Prop :=
  (readErrorFlags data = 0 → encode record = .ok data) ∧ WellFormed data

/-- **Canonicity.** A buffer that `decode` accepts meets the protocol exactly when it has no
slack, its kinds, status and flags are known ones, and its generation is not zero. -/
theorem canonical_iff (record : Record Obj) (data : List UInt8) (generation : Int)
    (h : decode data generation = .ok record) :
    Canonical record data ↔
      (readErrorFlags data = 0 → generation ≠ 0) ∧ SlackZero data ∧ KnownIds data := by
  have hdecoded := decoded_of_decode h
  constructor
  · intro ⟨hencode, hwell⟩
    exact ⟨fun hflags => ((hdecoded.encode_iff hflags).mp (hencode hflags)).1, hwell.slack,
      hwell.ids⟩
  · intro ⟨hgeneration, hslack, hids⟩
    exact ⟨fun hflags => (hdecoded.encode_iff hflags).mpr ⟨hgeneration hflags, hslack⟩,
      hslack, hids, hdecoded.paddingZero⟩

/-- The encoding of a record without descriptors is canonical. -/
theorem canonical_errorRecord : ∃ (data : List UInt8) (record : Record Value),
    decode data 1 = .ok record ∧ Canonical record data := by
  obtain ⟨data, hdata⟩ := encode_errorRecord_nil
  have hencoded := encode_ok_iff.mp hdata
  obtain ⟨scalars, hdecode⟩ := decode_of_texts hencoded (show Utf8.encode _ = some [] by decide)
    (show Utf8.encode _ = some [] by decide)
  have hids : KnownIds data := by
    refine ⟨?_, ?_, ?_, ?_⟩
    · rw [headerField, hencoded.header]
      decide
    · rw [headerField, hencoded.header]
      decide
    · rw [headerField, hencoded.header]
      decide
    · intro i hi
      rw [tensorCount, headerField, hencoded.header] at hi
      exact absurd hi (Nat.not_lt_zero i)
  exact ⟨data, _, hdecode,
    (canonical_iff _ data 1 hdecode).mpr ⟨fun _ => by decide, hencoded.slackZero, hids⟩⟩

/-- The values of the header of an `INVOKE` command without descriptors. -/
def bareHeader : List Int := [1, 0, 1, 1, 0, 0, 0, 0, 0, 0, 0, 0]

/-- A command without tensors whose first unused tensor slot starts with a one. -/
def dirtyBuffer : List UInt8 :=
  [(pack RECORD_HEADER bareHeader).getD [], zeros 76, padTo 4992 [1], padTo 4480 [], padTo 2304 [],
    zeros 64, zeros 1104, zeros 3312].flatten

/-- The areas of that buffer. -/
theorem dirtyBuffer_areas :
    unpackFrom RECORD_HEADER dirtyBuffer 0 = bareHeader ∧ slice dirtyBuffer 52 76 = zeros 76 ∧
    slice dirtyBuffer TENSORS 4992 = padTo 4992 [1] ∧
    slice dirtyBuffer ERROR_OFFSET 1104 = zeros 1104 ∧
    slice dirtyBuffer TAIL 3312 = zeros 3312 ∧ dirtyBuffer.length = RECORD_SIZE := by
  obtain ⟨h0, h52, h128, _, _, _, h11968, h13072, hsize⟩ :=
    (spells_areas_iff (by decide) (by decide) (by decide) (by decide) (length_zeros 64)
      (length_zeros 1104)).mp (show dirtyBuffer = _ from rfl)
  refine ⟨?_, h52, h128, h11968, h13072, hsize.symm⟩
  rw [unpackFrom_eq_iff (by rw [← hsize]; decide)]
  show structPack RECORD_HEADER bareHeader = .ok (slice dirtyBuffer 0 52)
  rw [h0]
  decide

/-- The error area of that buffer is the one of a record without an error. -/
theorem dirtyBuffer_error :
    errorImage [] [] 0 = .ok (slice dirtyBuffer ERROR_OFFSET 1104) := by
  obtain ⟨_, _, _, herror, _⟩ := dirtyBuffer_areas
  have hhead : structPack ERROR_HEAD [0, 0, 0, 0] = .ok (zeros 16) := by decide
  rw [herror, errorImage]
  show structPack ERROR_HEAD [0, 0, 0, 0] >>= _ = _
  rw [hhead, Result.ok_bind, padTo_nil, padTo_nil, zeros_append_zeros, zeros_append_zeros]
  rfl

/-- `decode` accepts a buffer with a byte in an unused slot, which `encode` does not write. -/
theorem dirtyBuffer_accepted : dirtyBuffer.length = RECORD_SIZE ∧ readErrorFlags dirtyBuffer = 0 ∧
    ∃ record : Record Value, decode dirtyBuffer 1 = .ok record ∧
      encode record ≠ .ok dirtyBuffer ∧ ¬ SlackZero dirtyBuffer := by
  obtain ⟨hheader, hreserved, htensors, _, htail, hsize⟩ := dirtyBuffer_areas
  have herror : decodeError dirtyBuffer = .ok ([], []) := by
    rw [decodeError_of_image hsize (by decide) (by decide) (by decide) dirtyBuffer_error]
    rfl
  have hflags : readErrorFlags dirtyBuffer = 0 := by
    rw [readErrorFlags, ((errorImage_ok_iff (by rw [hsize]; decide) (by decide)).mp
      dirtyBuffer_error).1]
  have hslack : ¬ SlackZero dirtyBuffer := by
    intro hslack
    have hunused := hslack.tensors
    rw [tensorCount, headerField, hheader] at hunused
    -- All sixteen slots are unused, and the first byte of the first is a one.
    have hzero : anyNonzero (slice dirtyBuffer TENSORS 4992) = false := hunused
    rw [htensors] at hzero
    cases hzero
  have hdecode : decode dirtyBuffer 1 = (.ok {
      kind := 1, generation := 1, submissionId := 1, invocationId := 0,
      profile := unpackFrom PROFILE dirtyBuffer PROFILE_OFFSET } :
        Except Exn (Record Value)) := by
    unfold decode
    rw [if_neg (not_not.mpr hsize), hheader]
    simp only [bareHeader]
    rw [if_neg (by decide), hreserved, show RECORD_SIZE - TAIL = 3312 from rfl, htail,
      anyNonzero_zeros, anyNonzero_zeros, if_neg (by decide), if_neg (by decide), herror]
    rfl
  refine ⟨hsize, hflags, _, hdecode, ?_, hslack⟩
  intro hencode
  exact hslack (encode_ok_iff.mp hencode).slackZero

end Wmfs.Ring.Codec
