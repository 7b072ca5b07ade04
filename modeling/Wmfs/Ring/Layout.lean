import Wmfs.Ring.Codec

/-!
# `Wmfs.Ring.Layout`: what `encode` writes

`encode` assigns slices of a buffer. The module describes its result without the buffer: the
image of a record is its header, its three descriptor arrays, its profile and its error area,
one behind the other, with zeros in between (`encode_eq_image`).

The writes go from front to back, so each one lands behind everything that is not zero so far.
`packInto_padTo` is that step, and `writeArray_eq` the loop over a descriptor array. The
errors are part of the equation: an image fails where `encode` fails, with its exception.
-/

set_option autoImplicit false

namespace Wmfs.Ring.Codec

open Wmfs.Lib
open Wmfs.Lib.Utf8 (Text)

variable {Obj : Type} [PyObject Obj]

/-! ### The images of the parts -/

/-- The descriptor of a tensor. -/
def tensorImage (item : Tensor) : Except Exn (List UInt8) :=
  if ¬ (0 < item.shape.length ∧ item.shape.length ≤ 16) ∨
      item.shape.length ≠ item.strides.length then
    .error (.valueError "Tensor rank is invalid")
  else match DTYPE_TO_ID.lookup item.dtype with
  | none => .error (.unsupportedDtype item.dtype)
  | some dtype => do
    let head ← structPack TENSOR_HEAD
      [item.bufferId, item.generation, item.allocationId, item.offset, item.byteLength, dtype,
        item.shape.length, item.kind, if item.writable then 1 else 0, item.parameter, 0]
    let shape ← structPack DIMENSIONS (dimensions item.shape)
    let strides ← structPack DIMENSIONS (dimensions item.strides)
    return head ++ shape ++ strides

/-- The descriptor of a scalar. -/
def scalarImage (item : Scalar Obj) : Except Exn (List UInt8) :=
  match SCALAR_TO_ID.lookup item.kind with
  | none => .error (.unsupportedScalarKind item.kind)
  | some kind => do
    let (bits, text) ← scalarPayload item
    let head ← structPack SCALAR_HEAD [item.parameter, kind, 0, bits, text.length, 0]
    return head ++ padTo 256 text

/-- The descriptor of a planned output. -/
def outputImage (item : PlannedOutput) : Except Exn (List UInt8) :=
  if ¬ (0 < item.shape.length ∧ item.shape.length ≤ 16) then
    .error (.valueError "Planned output rank is invalid")
  else match DTYPE_TO_ID.lookup item.dtype with
  | none => .error (.keyError item.dtype)
  | some dtype => do
    let head ← structPack OUTPUT_HEAD [dtype, 0, item.shape.length, item.output, 0]
    let shape ← structPack DIMENSIONS (dimensions item.shape)
    return head ++ shape

/-- The header, the descriptor arrays and the profile. -/
def bodyImage (record : Record Obj) : Except Exn (List UInt8) :=
  if record.generation = 0 ∨ record.submissionId = 0 then
    .error (.valueError "Ring generation and submission ID must be nonzero")
  else if record.tensors.length > 16 ∨ record.scalars.length > 16 ∨
      record.outputs.length > 16 then
    .error (.valueError "Ring descriptor count exceeds ABI bound")
  else do
    let header ← structPack RECORD_HEADER
      [record.kind, record.flags, record.generation, record.submissionId, record.invocationId,
        record.operationId, record.status, record.tensors.length, record.scalars.length,
        record.outputs.length, 0, 0]
    let tensors ← concatArray tensorImage record.tensors
    let scalars ← concatArray scalarImage record.scalars
    let outputs ← concatArray outputImage record.outputs
    if record.profile.length ≠ 8 then
      throw (.valueError "Ring profile has invalid geometry")
    let profile ← structPack PROFILE record.profile
    return header ++ zeros 76 ++ padTo 4992 tensors ++ padTo 4480 scalars ++
      padTo 2304 outputs ++ profile

/-- The error area. -/
def errorImage (errorType errorMessage : List UInt8) (flags : Int) :
    Except Exn (List UInt8) := do
  let head ← structPack ERROR_HEAD [errorType.length, errorMessage.length, flags, 0]
  return head ++ padTo 64 errorType ++ padTo 1024 errorMessage

/-- A whole record. -/
def recordImage (record : Record Obj) : Except Exn (List UInt8) := do
  let body ← bodyImage record
  let encodedType ← encodeText record.errorType
  let encodedMessage ← encodeText record.errorMessage
  let error ← errorImage (encodedType.take 64) (encodedMessage.take 1024)
    (errorFlags encodedType.length encodedMessage.length)
  return body ++ error ++ zeros 3312

/-! ### Lengths -/

/-- `struct.pack` writes the bytes of its format. -/
theorem length_of_structPack {format : List Field} {values : List Int} {bytes : List UInt8}
    (h : structPack format values = .ok bytes) : bytes.length = formatSize format := by
  unfold structPack at h
  split at h
  · cases h
    exact length_of_pack ‹_›
  · cases h

/-- A tensor descriptor fills its slot. -/
theorem length_of_tensorImage {item : Tensor} {bytes : List UInt8}
    (h : tensorImage item = .ok bytes) : bytes.length = TENSOR_SIZE := by
  unfold tensorImage at h
  split at h
  · cases h
  split at h
  · cases h
  simp only [Result.bind_ok_iff] at h
  obtain ⟨head, hhead, shape, hshape, strides, hstrides, h⟩ := h
  cases h
  rw [List.length_append, List.length_append, length_of_structPack hhead,
    length_of_structPack hshape, length_of_structPack hstrides]
  rfl

/-- The text of a scalar that is encoded has room in its descriptor. -/
theorem length_of_scalarPayload {item : Scalar Obj} {bits : Int} {text : List UInt8}
    (h : scalarPayload item = .ok (bits, text)) : text.length ≤ 256 := by
  unfold scalarPayload at h
  split at h
  · obtain ⟨value, _, h⟩ := Result.bind_ok_iff.mp h
    cases h
    simp
  split at h
  · obtain ⟨value, _, h⟩ := Result.bind_ok_iff.mp h
    cases h
    simp
  split at h
  · obtain ⟨value, _, h⟩ := Result.bind_ok_iff.mp h
    cases h
    simp
  · obtain ⟨value, _, h⟩ := Result.bind_ok_iff.mp h
    obtain ⟨encoded, _, h⟩ := Result.bind_ok_iff.mp h
    split at h
    · cases h
    · cases h
      omega

/-- A scalar fills its slot. -/
theorem length_of_scalarImage {item : Scalar Obj} {bytes : List UInt8}
    (h : scalarImage item = .ok bytes) : bytes.length = SCALAR_SIZE := by
  unfold scalarImage at h
  split at h
  · cases h
  obtain ⟨⟨bits, text⟩, hpayload, h⟩ := Result.bind_ok_iff.mp h
  obtain ⟨head, hhead, h⟩ := Result.bind_ok_iff.mp h
  cases h
  rw [List.length_append, length_of_structPack hhead,
    length_padTo (length_of_scalarPayload hpayload)]
  rfl

/-- A planned output fills its slot. -/
theorem length_of_outputImage {item : PlannedOutput} {bytes : List UInt8}
    (h : outputImage item = .ok bytes) : bytes.length = OUTPUT_SIZE := by
  unfold outputImage at h
  split at h
  · cases h
  split at h
  · cases h
  simp only [Result.bind_ok_iff] at h
  obtain ⟨head, hhead, shape, hshape, h⟩ := h
  cases h
  rw [List.length_append, length_of_structPack hhead, length_of_structPack hshape]
  rfl

/-! ### The writes -/

/-- `pack_into` behind everything that is not zero so far. -/
theorem packInto_padTo {format : List Field} {total offset : Nat} {done : List UInt8}
    {values : List Int} (hdone : done.length ≤ offset)
    (hroom : offset + formatSize format ≤ total) :
    packInto format (padTo total done) offset values =
      (structPack format values).map fun bytes => padTo total (padTo offset done ++ bytes) := by
  rw [packInto]
  cases hbytes : structPack format values with
  | error e => rfl
  | ok bytes =>
    have hlength := length_of_structPack hbytes
    show Except.ok (splice (padTo total done) offset bytes) = Except.ok _
    rw [splice_padTo hdone (by omega)]

/-- `pack_into` right behind what was written last. -/
theorem packInto_append {format : List Field} {total offset : Nat} {done : List UInt8}
    {values : List Int} (hdone : done.length = offset)
    (hroom : offset + formatSize format ≤ total) :
    packInto format (padTo total done) offset values =
      (structPack format values).map fun bytes => padTo total (done ++ bytes) := by
  rw [packInto_padTo hdone.le hroom, padTo_of_length_ge hdone.ge]

/-- A tensor is written behind what has been written. -/
theorem encodeTensor_padTo {total offset : Nat} {done : List UInt8} {item : Tensor}
    (hdone : done.length ≤ offset) (hroom : offset + TENSOR_SIZE ≤ total) :
    encodeTensor (padTo total done) offset item =
      (tensorImage item).map fun bytes => padTo total (padTo offset done ++ bytes) := by
  have hsize : formatSize TENSOR_HEAD = 56 ∧ formatSize DIMENSIONS = 128 ∧ TENSOR_SIZE = 312 :=
    ⟨rfl, rfl, rfl⟩
  unfold encodeTensor tensorImage
  -- Both sides make the same checks first.
  by_cases hrank : ¬ (0 < item.shape.length ∧ item.shape.length ≤ 16) ∨
      item.shape.length ≠ item.strides.length
  · rw [if_pos hrank, if_pos hrank]
    rfl
  rw [if_neg hrank, if_neg hrank]
  cases DTYPE_TO_ID.lookup item.dtype with
  | none => rfl
  | some dtype =>
  simp only
  rw [packInto_padTo hdone (by omega)]
  cases hhead : structPack TENSOR_HEAD _ with
  | error e => rfl
  | ok head =>
    have h56 : (padTo offset done ++ head).length = offset + 56 := by
      rw [List.length_append, length_padTo hdone, length_of_structPack hhead, hsize.1]
    simp only [Except.map, bind, Except.bind]
    rw [packInto_append h56 (by omega)]
    cases hshape : structPack DIMENSIONS (dimensions item.shape) with
    | error e => rfl
    | ok shape =>
      have h184 : (padTo offset done ++ head ++ shape).length = offset + 184 := by
        rw [List.length_append, h56, length_of_structPack hshape, hsize.2.1]
      simp only [Except.map]
      rw [packInto_append h184 (by omega)]
      cases structPack DIMENSIONS (dimensions item.strides) with
      | error e => rfl
      | ok strides => simp only [Except.map, pure, Except.pure, List.append_assoc]

/-- A scalar is written behind what has been written. -/
theorem encodeScalar_padTo {total offset : Nat} {done : List UInt8} {item : Scalar Obj}
    (hdone : done.length ≤ offset) (hroom : offset + SCALAR_SIZE ≤ total) :
    encodeScalar (padTo total done) offset item =
      (scalarImage item).map fun bytes => padTo total (padTo offset done ++ bytes) := by
  have hsize : formatSize SCALAR_HEAD = 24 ∧ SCALAR_SIZE = 280 := ⟨rfl, rfl⟩
  unfold encodeScalar scalarImage
  cases SCALAR_TO_ID.lookup item.kind with
  | none => rfl
  | some kind =>
  simp only
  cases hpayload : scalarPayload item with
  | error e => rfl
  | ok payload =>
    obtain ⟨bits, text⟩ := payload
    have htext := length_of_scalarPayload hpayload
    simp only [bind, Except.bind]
    rw [packInto_padTo hdone (by omega)]
    cases hhead : structPack SCALAR_HEAD _ with
    | error e => rfl
    | ok head =>
      have h24 : (padTo offset done ++ head).length = offset + 24 := by
        rw [List.length_append, length_padTo hdone, length_of_structPack hhead, hsize.1]
      simp only [Except.map, pure, Except.pure]
      rw [splice_padTo h24.le (by omega), padTo_of_length_ge h24.ge]
      -- The zeros behind the text are those of its area.
      rw [← padTo_padTo (show offset + 24 + 256 ≤ total by omega), ← h24, padTo_append,
        List.append_assoc]

/-- An output is written behind what has been written. -/
theorem encodeOutput_padTo {total offset : Nat} {done : List UInt8} {item : PlannedOutput}
    (hdone : done.length ≤ offset) (hroom : offset + OUTPUT_SIZE ≤ total) :
    encodeOutput (padTo total done) offset item =
      (outputImage item).map fun bytes => padTo total (padTo offset done ++ bytes) := by
  have hsize : formatSize OUTPUT_HEAD = 16 ∧ formatSize DIMENSIONS = 128 ∧ OUTPUT_SIZE = 144 :=
    ⟨rfl, rfl, rfl⟩
  unfold encodeOutput outputImage
  by_cases hrank : ¬ (0 < item.shape.length ∧ item.shape.length ≤ 16)
  · rw [if_pos hrank, if_pos hrank]
    rfl
  rw [if_neg hrank, if_neg hrank]
  cases DTYPE_TO_ID.lookup item.dtype with
  | none => rfl
  | some dtype =>
  simp only
  rw [packInto_padTo hdone (by omega)]
  cases hhead : structPack OUTPUT_HEAD _ with
  | error e => rfl
  | ok head =>
    have h16 : (padTo offset done ++ head).length = offset + 16 := by
      rw [List.length_append, length_padTo hdone, length_of_structPack hhead, hsize.1]
    simp only [Except.map, bind, Except.bind]
    rw [packInto_append h16 (by omega)]
    cases structPack DIMENSIONS (dimensions item.shape) with
    | error e => rfl
    | ok shape => simp only [Except.map, pure, Except.pure, List.append_assoc]

/-- The bytes of a descriptor array with at most 16 items. -/
theorem length_of_concatArray {α : Type} {image : α → Except Exn (List UInt8)} {size : Nat}
    (hlength : ∀ {item bytes}, image item = .ok bytes → bytes.length = size) {items : List α}
    {bytes : List UInt8} (h : concatArray image items = .ok bytes) (hcount : items.length ≤ 16) :
    bytes.length ≤ 16 * size := by
  rw [((concatArray_ok_iff hlength).mp h).1]
  exact Nat.mul_le_mul_right size hcount

/-- One of the three loops of `encode`, over at most 16 items. -/
theorem writeArray_padTo {α : Type} {write : List UInt8 → Nat → α → Except Exn (List UInt8)}
    {image : α → Except Exn (List UInt8)} {base size : Nat}
    (hlength : ∀ {item bytes}, image item = .ok bytes → bytes.length = size)
    (hwrite : ∀ {done offset item}, done.length ≤ offset → offset + size ≤ RECORD_SIZE →
      write (padTo RECORD_SIZE done) offset item =
        (image item).map fun bytes => padTo RECORD_SIZE (padTo offset done ++ bytes))
    {items : List α} {done : List UInt8} (hdone : done.length ≤ base)
    (hcount : items.length ≤ 16) (hroom : base + 16 * size ≤ RECORD_SIZE) :
    writeArray write base size (padTo RECORD_SIZE done) 0 items =
      (concatArray image items).map fun bytes => padTo RECORD_SIZE (padTo base done ++ bytes) := by
  have hall : items.length * size ≤ 16 * size := Nat.mul_le_mul_right size hcount
  rw [writeArray_eq hlength hwrite items done 0 (by omega) (by rw [Nat.zero_add]; omega),
    Nat.zero_mul, Nat.add_zero]

/-- The body of a record is what `encode` has written before the error area. -/
theorem encodeBody_eq_image (record : Record Obj) :
    encodeBody record = (bodyImage record).map (padTo RECORD_SIZE) := by
  unfold encodeBody bodyImage
  by_cases hid : record.generation = 0 ∨ record.submissionId = 0
  · rw [if_pos hid, if_pos hid]
    rfl
  rw [if_neg hid, if_neg hid]
  by_cases hcounts : record.tensors.length > 16 ∨ record.scalars.length > 16 ∨
      record.outputs.length > 16
  · rw [if_pos hcounts, if_pos hcounts]
    rfl
  rw [if_neg hcounts, if_neg hcounts, ← padTo_nil, packInto_padTo (by simp) (by decide)]
  cases hheader : structPack RECORD_HEADER _ with
  | error e => rfl
  | ok header =>
  have h52 : header.length = 52 := length_of_structPack hheader
  -- The header and the zeros behind it.
  have h128 : (padTo TENSORS header).length = 128 := length_padTo (by rw [h52]; decide)
  have hfront : padTo TENSORS header = header ++ zeros 76 := by
    rw [padTo, h52]
    rfl
  simp only [Except.map, bind, Except.bind]
  rw [padTo_of_length_ge (Nat.zero_le _), List.nil_append,
    writeArray_padTo length_of_tensorImage encodeTensor_padTo (by rw [h52]; decide) (by omega)
      (by decide)]
  cases htensors : concatArray tensorImage record.tensors with
  | error e => rfl
  | ok tensors =>
  have hlt : tensors.length ≤ 4992 :=
    length_of_concatArray length_of_tensorImage htensors (by omega)
  have h5120 : padTo SCALARS (padTo TENSORS header ++ tensors) =
      header ++ zeros 76 ++ padTo 4992 tensors := by
    rw [show SCALARS = (padTo TENSORS header).length + 4992 by rw [h128]; rfl, padTo_append,
      hfront]
  have hl5120 : (header ++ zeros 76 ++ padTo 4992 tensors).length = 5120 := by
    rw [List.length_append, length_padTo hlt, List.length_append, h52, length_zeros]
  simp only [Except.map]
  rw [writeArray_padTo length_of_scalarImage encodeScalar_padTo
    (by rw [List.length_append, h128, SCALARS]; omega) (by omega) (by decide), h5120]
  cases hscalars : concatArray scalarImage record.scalars with
  | error e => rfl
  | ok scalars =>
  have hls : scalars.length ≤ 4480 :=
    length_of_concatArray length_of_scalarImage hscalars (by omega)
  have h9600 : padTo OUTPUTS (header ++ zeros 76 ++ padTo 4992 tensors ++ scalars) =
      header ++ zeros 76 ++ padTo 4992 tensors ++ padTo 4480 scalars := by
    rw [show OUTPUTS = (header ++ zeros 76 ++ padTo 4992 tensors).length + 4480 by
      rw [hl5120]; rfl, padTo_append]
  have hl9600 : (header ++ zeros 76 ++ padTo 4992 tensors ++ padTo 4480 scalars).length = 9600 := by
    rw [List.length_append, hl5120, length_padTo hls]
  simp only [Except.map]
  rw [writeArray_padTo length_of_outputImage encodeOutput_padTo
    (by rw [List.length_append, hl5120, OUTPUTS]; omega) (by omega) (by decide), h9600]
  cases houtputs : concatArray outputImage record.outputs with
  | error e => rfl
  | ok outputs =>
  have hlo : outputs.length ≤ 2304 :=
    length_of_concatArray length_of_outputImage houtputs (by omega)
  simp only [Except.map]
  by_cases hprofile : record.profile.length ≠ 8
  · rw [if_pos hprofile, if_pos hprofile]
    rfl
  rw [if_neg hprofile, if_neg hprofile,
    packInto_padTo (by rw [List.length_append, hl9600, PROFILE_OFFSET]; omega) (by decide),
    show PROFILE_OFFSET =
      (header ++ zeros 76 ++ padTo 4992 tensors ++ padTo 4480 scalars).length + 2304 by
        rw [hl9600]; rfl, padTo_append]
  cases structPack PROFILE record.profile with
  | error e => rfl
  | ok profile => rfl

/-- The body of a record ends where the error area starts. -/
theorem length_of_bodyImage {record : Record Obj} {bytes : List UInt8}
    (h : bodyImage record = .ok bytes) : bytes.length = ERROR_OFFSET := by
  unfold bodyImage at h
  split at h
  · cases h
  split at h
  · cases h
  rename_i hcounts
  obtain ⟨header, hheader, h⟩ := Result.bind_ok_iff.mp h
  obtain ⟨tensors, htensors, h⟩ := Result.bind_ok_iff.mp h
  obtain ⟨scalars, hscalars, h⟩ := Result.bind_ok_iff.mp h
  obtain ⟨outputs, houtputs, h⟩ := Result.bind_ok_iff.mp h
  split at h
  · cases h
  obtain ⟨profile, hprofile, h⟩ := Result.bind_ok_iff.mp h
  cases h
  have hlt : tensors.length ≤ 4992 :=
    length_of_concatArray length_of_tensorImage htensors (by omega)
  have hls : scalars.length ≤ 4480 :=
    length_of_concatArray length_of_scalarImage hscalars (by omega)
  have hlo : outputs.length ≤ 2304 :=
    length_of_concatArray length_of_outputImage houtputs (by omega)
  simp only [List.length_append, length_zeros, length_padTo hlt, length_padTo hls,
    length_padTo hlo, length_of_structPack hheader, length_of_structPack hprofile]
  rfl

/-- The writes to the error area append its image to the body. -/
theorem packError_padTo {body errorType errorMessage : List UInt8} {flags : Int}
    (hbody : body.length = ERROR_OFFSET) (htype : errorType.length ≤ 64)
    (hmessage : errorMessage.length ≤ 1024) :
    packError (padTo RECORD_SIZE body) errorType errorMessage flags =
      (errorImage errorType errorMessage flags).map fun error =>
        padTo RECORD_SIZE (body ++ error) := by
  have hsize : ERROR_OFFSET = 11968 ∧ RECORD_SIZE = 16384 := ⟨rfl, rfl⟩
  unfold packError errorImage
  rw [packInto_append hbody (by decide)]
  cases hhead : structPack ERROR_HEAD _ with
  | error e => rfl
  | ok head =>
  have h16 : (body ++ head).length = ERROR_OFFSET + 16 := by
    rw [List.length_append, hbody, length_of_structPack hhead]
    rfl
  have h80 : padTo (ERROR_OFFSET + 80) (body ++ head ++ errorType) =
      body ++ head ++ padTo 64 errorType := by
    rw [show ERROR_OFFSET + 80 = (body ++ head).length + 64 by rw [h16], padTo_append]
  have hl80 : (body ++ head ++ padTo 64 errorType).length = ERROR_OFFSET + 80 := by
    rw [List.length_append, h16, length_padTo htype]
  simp only [Except.map, bind, Except.bind, pure, Except.pure]
  rw [splice_padTo h16.le (by omega), padTo_of_length_ge h16.ge,
    splice_padTo (by rw [List.length_append, h16]; omega) (by omega), h80]
  -- The zeros behind the message are those of its area.
  rw [← padTo_padTo (show ERROR_OFFSET + 80 + 1024 ≤ RECORD_SIZE by decide), ← hl80,
    padTo_append]
  simp only [List.append_assoc]

/-- The error area has a fixed length. -/
theorem length_of_errorImage {errorType errorMessage bytes : List UInt8} {flags : Int}
    (h : errorImage errorType errorMessage flags = .ok bytes) (htype : errorType.length ≤ 64)
    (hmessage : errorMessage.length ≤ 1024) : bytes.length = 1104 := by
  obtain ⟨head, hhead, h⟩ := Result.bind_ok_iff.mp h
  cases h
  rw [List.length_append, List.length_append, length_padTo htype, length_padTo hmessage,
    length_of_structPack hhead]
  rfl

/-- `encode` writes the image of the record. -/
theorem encode_eq_image (record : Record Obj) : encode record = recordImage record := by
  unfold encode recordImage
  rw [encodeBody_eq_image]
  cases hbody : bodyImage record with
  | error e => rw [Except.map, Result.error_bind, Result.error_bind]
  | ok body =>
  rw [Except.map, Result.ok_bind, Result.ok_bind]
  cases encodeText record.errorType with
  | error e => rw [Result.error_bind, Result.error_bind]
  | ok encodedType =>
  rw [Result.ok_bind, Result.ok_bind]
  cases encodeText record.errorMessage with
  | error e => rw [Result.error_bind, Result.error_bind]
  | ok encodedMessage =>
  have hlength := length_of_bodyImage hbody
  have htype : (encodedType.take 64).length ≤ 64 := List.length_take_le _ _
  have hmessage : (encodedMessage.take 1024).length ≤ 1024 := List.length_take_le _ _
  rw [Result.ok_bind, Result.ok_bind, packError_padTo hlength htype hmessage]
  cases herror : errorImage _ _ _ with
  | error e => rw [Except.map, Result.error_bind]
  | ok error =>
  have hfull : (body ++ error).length = 13072 := by
    rw [List.length_append, hlength, length_of_errorImage herror htype hmessage]
    rfl
  rw [Except.map, Result.ok_bind, padTo, hfull]
  rfl

/-- The two copies of `encode` agree: encoding a text twice gives the same bytes. -/
theorem encodeSdk_eq_encode (record : Record Obj) : encodeSdk record = encode record := by
  unfold encodeSdk encode
  cases encodeBody record with
  | error e => rw [Result.error_bind, Result.error_bind]
  | ok data =>
    rw [Result.ok_bind, Result.ok_bind]
    cases encodeText record.errorType with
    | error e => rw [Result.error_bind, Result.error_bind]
    | ok encodedType =>
      rw [Result.ok_bind, Result.ok_bind]
      cases encodeText record.errorMessage with
      | error e => rw [Result.error_bind, Result.error_bind]
      | ok encodedMessage => rw [Result.ok_bind, Result.ok_bind, Result.ok_bind, Result.ok_bind]

end Wmfs.Ring.Codec
