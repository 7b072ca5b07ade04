import Wmfs.Lib.Bytes
import Wmfs.Lib.Utf8

/-!
# `Wmfs.Ring.Codec`: the Python codec of ring records

The record codec of `wmfs.transport.ring` (the runtime) and of `wmfs_plugin.ring` (the SDK of
the plugins). `encode` fills a zeroed buffer of 16384 bytes from front to back with `struct`
formats and text, and `decode` takes it apart again.

The two packages hold a copy of the codec each. The copies differ in how they encode the two
error texts, so `encode` exists once for each, and the rest is one definition.

A scalar is carried by an arbitrary Python object. `PyObject` is what the codec asks of it:
the four conversions of `encode`, and the objects that `decode` makes.
-/

set_option autoImplicit false

namespace Wmfs.Ring.Codec

open Wmfs.Lib
open Wmfs.Lib.Utf8 (Text)

/-- The exceptions that leave the codec. -/
inductive Exn where
  | valueError (message : String)
  /-- `ValueError(f"Unsupported ring dtype {item.dtype!r}")`. -/
  | unsupportedDtype (dtype : String)
  /-- `ValueError(f"Unsupported scalar kind {item.kind!r}")`. -/
  | unsupportedScalarKind (kind : String)
  | keyError (key : String)
  | structError
  | unicodeEncodeError
  | unicodeDecodeError
  | ringError (message : String)
  /-- A conversion of a scalar raised: `TypeError`, `OverflowError` and their like. -/
  | conversion
  deriving DecidableEq, Repr

/-- Python objects as the codec sees them. A `float` is its 64-bit pattern. -/
class PyObject (Obj : Type) where
  bool : Obj → Except Exn Bool
  float : Obj → Except Exn UInt64
  int : Obj → Except Exn Int
  str : Obj → Except Exn Text
  ofBool : Bool → Obj
  ofFloat : UInt64 → Obj
  ofInt : Int → Obj
  ofStr : Text → Obj
  bool_ofBool : ∀ b, bool (ofBool b) = .ok b
  float_ofFloat : ∀ bits, float (ofFloat bits) = .ok bits
  int_ofInt : ∀ n, int (ofInt n) = .ok n
  str_ofStr : ∀ text, str (ofStr text) = .ok text

/-- The objects of the four scalar kinds. -/
inductive Value where
  | bool (b : Bool)
  | float (bits : UInt64)
  | int (n : Int)
  | str (text : Text)
  deriving DecidableEq, Repr

/-- Conversions that parse or format a number are left out: no scalar is bound with them. -/
instance : PyObject Value where
  bool
    | .bool b => .ok b
    | .float bits => .ok (bits.toNat % 2 ^ 63 ≠ 0)
    | .int n => .ok (n ≠ 0)
    | .str text => .ok (text ≠ [])
  float
    | .float bits => .ok bits
    | _ => .error .conversion
  int
    | .bool b => .ok (if b then 1 else 0)
    | .int n => .ok n
    | _ => .error .conversion
  str
    | .str text => .ok text
    | _ => .error .conversion
  ofBool := .bool
  ofFloat := .float
  ofInt := .int
  ofStr := .str
  bool_ofBool _ := rfl
  float_ofFloat _ := rfl
  int_ofInt _ := rfl
  str_ofStr _ := rfl

/-- `RECORD_SIZE`. -/
def RECORD_SIZE : Nat := 16384

/-- `_RECORD_HEADER`, `"<IIQQQIIHHHHI"`. -/
def RECORD_HEADER : List Field := [.I, .I, .Q, .Q, .Q, .I, .I, .H, .H, .H, .H, .I]

/-- `_TENSOR_HEAD`, `"<QQQQQIHHIHH"`. -/
def TENSOR_HEAD : List Field := [.Q, .Q, .Q, .Q, .Q, .I, .H, .H, .I, .H, .H]

/-- `_SCALAR_HEAD`, `"<HHIQII"`. -/
def SCALAR_HEAD : List Field := [.H, .H, .I, .Q, .I, .I]

/-- `_OUTPUT_HEAD`, `"<IIHHI"`. -/
def OUTPUT_HEAD : List Field := [.I, .I, .H, .H, .I]

/-- `_PROFILE`, `"<8Q"`. -/
def PROFILE : List Field := List.replicate 8 .Q

/-- `_ERROR_HEAD`, `"<IIII"`. -/
def ERROR_HEAD : List Field := [.I, .I, .I, .I]

/-- `"<16q"`, the format of shapes and strides. -/
def DIMENSIONS : List Field := List.replicate 16 .q

/-- `_TENSORS`. -/
def TENSORS : Nat := 128

/-- `_SCALARS`. -/
def SCALARS : Nat := 5120

/-- `_OUTPUTS`. -/
def OUTPUTS : Nat := 9600

/-- `_PROFILE_OFFSET`. -/
def PROFILE_OFFSET : Nat := 11904

/-- `_ERROR_OFFSET`. -/
def ERROR_OFFSET : Nat := 11968

/-- `_TAIL`. -/
def TAIL : Nat := 13072

/-- `_TENSOR_SIZE`. -/
def TENSOR_SIZE : Nat := 312

/-- `_SCALAR_SIZE`. -/
def SCALAR_SIZE : Nat := 280

/-- `_OUTPUT_SIZE`. -/
def OUTPUT_SIZE : Nat := 144

/-- `_DTYPE_TO_ID`. -/
def DTYPE_TO_ID : List (String × Int) :=
  [("bool", 1), ("int8", 2), ("uint8", 3), ("int16", 4), ("int32", 5), ("int64", 6),
    ("float16", 7), ("float32", 8), ("float64", 9), ("bfloat16", 10)]

/-- `_ID_TO_DTYPE`. -/
def ID_TO_DTYPE : List (Int × String) := DTYPE_TO_ID.map Prod.swap

/-- `_SCALAR_TO_ID`. -/
def SCALAR_TO_ID : List (String × Int) :=
  [("boolean", 1), ("float64", 2), ("int64", 3), ("text", 4)]

/-- `_ID_TO_SCALAR`. -/
def ID_TO_SCALAR : List (Int × String) := SCALAR_TO_ID.map Prod.swap

/-- `Tensor`. -/
structure Tensor where
  bufferId : Int
  generation : Int
  allocationId : Int
  offset : Int
  byteLength : Int
  dtype : String
  shape : List Int
  strides : List Int
  kind : Int
  parameter : Int
  writable : Bool := false
  deriving DecidableEq, Repr

/-- `Scalar`. -/
structure Scalar (Obj : Type) where
  parameter : Int
  kind : String
  value : Obj
  deriving DecidableEq, Repr

/-- `PlannedOutput`. -/
structure PlannedOutput where
  output : Int
  shape : List Int
  dtype : String
  deriving DecidableEq, Repr

/-- `Record`. -/
structure Record (Obj : Type) where
  kind : Int
  generation : Int
  submissionId : Int
  invocationId : Int
  operationId : Int := 0
  status : Int := 0
  flags : Int := 0
  tensors : List Tensor := []
  scalars : List (Scalar Obj) := []
  outputs : List PlannedOutput := []
  profile : List Int := List.replicate 8 0
  errorType : Text := []
  errorMessage : Text := []
  deriving DecidableEq, Repr

/-! ### `encode` -/

/-- `struct.pack`. -/
def structPack (format : List Field) (values : List Int) : Except Exn (List UInt8) :=
  match pack format values with
  | some bytes => .ok bytes
  | none => .error .structError

/-- `pack_into`. The buffer of `encode` has room for everything that is packed into it. -/
def packInto (format : List Field) (data : List UInt8) (offset : Nat) (values : List Int) :
    Except Exn (List UInt8) := do
  let bytes ← structPack format values
  return splice data offset bytes

/-- `text.encode()`. -/
def encodeText (text : Text) : Except Exn (List UInt8) :=
  match Utf8.encode text with
  | some bytes => .ok bytes
  | none => .error .unicodeEncodeError

/-- `*values, *([0] * (16 - len(values)))`. -/
def dimensions (values : List Int) : List Int := values ++ List.replicate (16 - values.length) 0

/-- The body of the loop of `encode` over `record.tensors`. -/
def encodeTensor (data : List UInt8) (offset : Nat) (item : Tensor) :
    Except Exn (List UInt8) :=
  if ¬ (0 < item.shape.length ∧ item.shape.length ≤ 16) ∨
      item.shape.length ≠ item.strides.length then
    .error (.valueError "Tensor rank is invalid")
  else match DTYPE_TO_ID.lookup item.dtype with
  | none => .error (.unsupportedDtype item.dtype)
  | some dtype => do
    let data ← packInto TENSOR_HEAD data offset
      [item.bufferId, item.generation, item.allocationId, item.offset, item.byteLength, dtype,
        item.shape.length, item.kind, if item.writable then 1 else 0, item.parameter, 0]
    let data ← packInto DIMENSIONS data (offset + 56) (dimensions item.shape)
    packInto DIMENSIONS data (offset + 184) (dimensions item.strides)

/-- The fields `bits` and `text` of a scalar of a known kind. -/
def scalarPayload {Obj : Type} [PyObject Obj] (item : Scalar Obj) :
    Except Exn (Int × List UInt8) :=
  if item.kind = "boolean" then do
    let value ← PyObject.bool item.value
    return (if value then 1 else 0, [])
  else if item.kind = "float64" then do
    let bits ← PyObject.float item.value
    return (bits.toNat, [])
  else if item.kind = "int64" then do
    let value ← PyObject.int item.value
    -- `& ((1 << 64) - 1)`.
    return (value % 2 ^ 64, [])
  else do
    let value ← PyObject.str item.value
    let text ← encodeText value
    if text.length > 256 then
      throw (.valueError "Scalar text exceeds ring ABI bound")
    return (0, text)

/-- The body of the loop of `encode` over `record.scalars`. -/
def encodeScalar {Obj : Type} [PyObject Obj] (data : List UInt8) (offset : Nat)
    (item : Scalar Obj) : Except Exn (List UInt8) :=
  match SCALAR_TO_ID.lookup item.kind with
  | none => .error (.unsupportedScalarKind item.kind)
  | some kind => do
    let (bits, text) ← scalarPayload item
    let data ← packInto SCALAR_HEAD data offset [item.parameter, kind, 0, bits, text.length, 0]
    return splice data (offset + 24) text

/-- The body of the loop of `encode` over `record.outputs`. -/
def encodeOutput (data : List UInt8) (offset : Nat) (item : PlannedOutput) :
    Except Exn (List UInt8) :=
  if ¬ (0 < item.shape.length ∧ item.shape.length ≤ 16) then
    .error (.valueError "Planned output rank is invalid")
  else match DTYPE_TO_ID.lookup item.dtype with
  -- This lookup is not guarded as that of a tensor is.
  | none => .error (.keyError item.dtype)
  | some dtype => do
    let data ← packInto OUTPUT_HEAD data offset [dtype, 0, item.shape.length, item.output, 0]
    packInto DIMENSIONS data (offset + 16) (dimensions item.shape)

/-- Both copies of `encode` up to the error area. -/
def encodeBody {Obj : Type} [PyObject Obj] (record : Record Obj) : Except Exn (List UInt8) :=
  if record.generation = 0 ∨ record.submissionId = 0 then
    .error (.valueError "Ring generation and submission ID must be nonzero")
  else if record.tensors.length > 16 ∨ record.scalars.length > 16 ∨
      record.outputs.length > 16 then
    .error (.valueError "Ring descriptor count exceeds ABI bound")
  else do
    let data ← packInto RECORD_HEADER (zeros RECORD_SIZE) 0
      [record.kind, record.flags, record.generation, record.submissionId, record.invocationId,
        record.operationId, record.status, record.tensors.length, record.scalars.length,
        record.outputs.length, 0, 0]
    let data ← writeArray encodeTensor TENSORS TENSOR_SIZE data 0 record.tensors
    let data ← writeArray encodeScalar SCALARS SCALAR_SIZE data 0 record.scalars
    let data ← writeArray encodeOutput OUTPUTS OUTPUT_SIZE data 0 record.outputs
    if record.profile.length ≠ 8 then
      throw (.valueError "Ring profile has invalid geometry")
    packInto PROFILE data PROFILE_OFFSET record.profile

/-- `error_flags`, from the lengths of the whole texts. -/
def errorFlags (typeLength messageLength : Nat) : Int :=
  (if typeLength > 64 then 1 else 0) + (if messageLength > 1024 then 2 else 0)

/-- The writes of both copies of `encode` to the error area. The texts are cut on bytes. -/
def packError (data errorType errorMessage : List UInt8) (flags : Int) :
    Except Exn (List UInt8) := do
  let data ← packInto ERROR_HEAD data ERROR_OFFSET
    [errorType.length, errorMessage.length, flags, 0]
  let data := splice data (ERROR_OFFSET + 16) errorType
  return splice data (ERROR_OFFSET + 80) errorMessage

/-- `wmfs.transport.ring.encode`. -/
def encode {Obj : Type} [PyObject Obj] (record : Record Obj) : Except Exn (List UInt8) := do
  let data ← encodeBody record
  let encodedType ← encodeText record.errorType
  let encodedMessage ← encodeText record.errorMessage
  packError data (encodedType.take 64) (encodedMessage.take 1024)
    (errorFlags encodedType.length encodedMessage.length)

/-- `wmfs_plugin.ring.encode`. Each text is encoded once to be cut and once to be measured. -/
def encodeSdk {Obj : Type} [PyObject Obj] (record : Record Obj) : Except Exn (List UInt8) := do
  let data ← encodeBody record
  let errorType ← encodeText record.errorType
  let errorMessage ← encodeText record.errorMessage
  let measuredType ← encodeText record.errorType
  let measuredMessage ← encodeText record.errorMessage
  packError data (errorType.take 64) (errorMessage.take 1024)
    (errorFlags measuredType.length measuredMessage.length)

/-! ### `decode` -/

/-- `unpack_from`, inside the buffer. -/
def unpackFrom (format : List Field) (data : List UInt8) (offset : Nat) : List Int :=
  unpack format (slice data offset (formatSize format))

/-- `bytes.decode()`. -/
def decodeText (bytes : List UInt8) : Except Exn Text :=
  match Utf8.decode bytes with
  | some text => .ok text
  | none => .error .unicodeDecodeError

/-- `any(values)`. -/
def anyValue (values : List Int) : Bool := values.any (· != 0)

/-- Unpacking into another number of names. No format has another number of fields. -/
def unpackError {α : Type} : Except Exn α := .error (.valueError "unexpected number of values")

/-- The body of the loop of `decode` over the tensor descriptors. -/
def decodeTensor (data : List UInt8) (offset : Nat) : Except Exn Tensor :=
  match unpackFrom TENSOR_HEAD data offset with
  | [bufferId, bufferGeneration, allocationId, byteOffset, byteLength, dtypeId, rank, tensorKind,
      tensorFlags, parameter, reserved] =>
    -- `tensor_flags & ~TENSOR_WRITABLE`, with `TENSOR_WRITABLE = 1`.
    if reserved ≠ 0 ∨ rank = 0 ∨ rank > 16 ∨ tensorFlags / 2 ≠ 0 then
      .error (.ringError "invalid tensor descriptor")
    else
      let shape := unpackFrom DIMENSIONS data (offset + 56)
      let strides := unpackFrom DIMENSIONS data (offset + 184)
      if anyValue (shape.drop rank.toNat) ∨ anyValue (strides.drop rank.toNat) then
        .error (.ringError "nonzero tensor rank padding")
      else match ID_TO_DTYPE.lookup dtypeId with
      | none => .error (.ringError "invalid tensor dtype")
      | some dtype => .ok
        { bufferId := bufferId, generation := bufferGeneration, allocationId := allocationId,
          offset := byteOffset, byteLength := byteLength, dtype := dtype,
          shape := shape.take rank.toNat, strides := strides.take rank.toNat,
          kind := tensorKind, parameter := parameter, writable := tensorFlags ≠ 0 }
  | _ => unpackError

/-- The `value` of a scalar, by its kind. -/
def scalarValue {Obj : Type} [PyObject Obj] (kind : String) (bits : Int) (textLength : Nat)
    (textArea : List UInt8) : Except Exn Obj :=
  if kind = "boolean" then
    if bits > 1 ∨ textLength ≠ 0 then .error (.ringError "invalid boolean scalar")
    else .ok (PyObject.ofBool (bits ≠ 0))
  else if kind = "float64" then
    .ok (PyObject.ofFloat (.ofNat bits.toNat))
  else if kind = "int64" then
    -- `struct.unpack("<q", struct.pack("<Q", bits))`.
    .ok (PyObject.ofInt (Field.q.value (Field.Q.bytes bits)))
  else do
    let text ← decodeText (textArea.take textLength)
    return PyObject.ofStr text

/-- The body of the loop of `decode` over the scalar descriptors. -/
def decodeScalar {Obj : Type} [PyObject Obj] (data : List UInt8) (offset : Nat) :
    Except Exn (Scalar Obj) :=
  match unpackFrom SCALAR_HEAD data offset with
  | [parameter, kindId, scalarFlags, bits, textLength, reserved] =>
    if scalarFlags ≠ 0 ∨ reserved ≠ 0 ∨ textLength > 256 then
      .error (.ringError "invalid scalar descriptor")
    else match ID_TO_SCALAR.lookup kindId with
    | none => .error (.ringError "invalid scalar kind")
    | some scalarKind =>
      let textArea := slice data (offset + 24) 256
      if anyNonzero (textArea.drop textLength.toNat) then
        .error (.ringError "nonzero scalar text padding")
      else do
        let value ← scalarValue scalarKind bits textLength.toNat textArea
        return { parameter := parameter, kind := scalarKind, value := value }
  | _ => unpackError

/-- The body of the loop of `decode` over the planned outputs. -/
def decodeOutput (data : List UInt8) (offset : Nat) : Except Exn PlannedOutput :=
  match unpackFrom OUTPUT_HEAD data offset with
  | [dtypeId, outputFlags, rank, outputIndex, reserved] =>
    let shape := unpackFrom DIMENSIONS data (offset + 16)
    if outputFlags ≠ 0 ∨ reserved ≠ 0 ∨ ¬ (0 < rank ∧ rank ≤ 16) ∨
        anyValue (shape.drop rank.toNat) then
      .error (.ringError "invalid planned output descriptor")
    else match ID_TO_DTYPE.lookup dtypeId with
    | none => .error (.ringError "invalid planned output dtype")
    | some dtype => .ok
      { output := outputIndex, shape := shape.take rank.toNat, dtype := dtype }
  | _ => unpackError

/-- The error area in `decode`: its checks, and the two texts. -/
def decodeError (data : List UInt8) : Except Exn (Text × Text) :=
  match unpackFrom ERROR_HEAD data ERROR_OFFSET with
  | [typeLength, messageLength, flags, reserved] =>
    -- `error_flags & ~3`.
    if reserved ≠ 0 ∨ flags / 4 ≠ 0 ∨ typeLength > 64 ∨ messageLength > 1024 then
      .error (.ringError "invalid ring error descriptor")
    else if
        anyNonzero (slice data (ERROR_OFFSET + 16 + typeLength.toNat) (64 - typeLength.toNat)) ∨
        anyNonzero
          (slice data (ERROR_OFFSET + 80 + messageLength.toNat) (1024 - messageLength.toNat)) then
      .error (.ringError "nonzero ring error padding")
    else do
      let errorType ← decodeText (slice data (ERROR_OFFSET + 16) typeLength.toNat)
      let errorMessage ← decodeText (slice data (ERROR_OFFSET + 80) messageLength.toNat)
      return (errorType, errorMessage)
  | _ => unpackError

/-- `wmfs.transport.ring.decode`. -/
def decode {Obj : Type} [PyObject Obj] (data : List UInt8) (generation : Int) :
    Except Exn (Record Obj) :=
  if data.length ≠ RECORD_SIZE then
    .error (.ringError "invalid ring record size")
  else match unpackFrom RECORD_HEADER data 0 with
  | [kind, flags, actualGeneration, submission, invocation, operation, status, tensorCount,
      scalarCount, outputCount, reserved0, reserved1] =>
    if actualGeneration ≠ generation ∨ submission = 0 then
      .error (.ringError "invalid ring record identity")
    else if reserved0 ≠ 0 ∨ reserved1 ≠ 0 ∨ anyNonzero (slice data 52 76) ∨
        anyNonzero (slice data TAIL (RECORD_SIZE - TAIL)) then
      .error (.ringError "nonzero reserved ring record bytes")
    else if tensorCount > 16 ∨ scalarCount > 16 ∨ outputCount > 16 then
      .error (.ringError "ring descriptor count exceeds ABI bound")
    else do
      let tensors ← readArray (decodeTensor data) TENSORS TENSOR_SIZE 0 tensorCount.toNat
      let scalars ← readArray (decodeScalar data) SCALARS SCALAR_SIZE 0 scalarCount.toNat
      let outputs ← readArray (decodeOutput data) OUTPUTS OUTPUT_SIZE 0 outputCount.toNat
      let (errorType, errorMessage) ← decodeError data
      return {
        kind := kind, generation := generation, submissionId := submission,
        invocationId := invocation, operationId := operation, status := status, flags := flags,
        tensors := tensors, scalars := scalars, outputs := outputs,
        profile := unpackFrom PROFILE data PROFILE_OFFSET,
        errorType := errorType, errorMessage := errorMessage }
  | _ => unpackError

/-- `wmfs_plugin.ring.decode`, which has the same body. -/
def decodeSdk {Obj : Type} [PyObject Obj] (data : List UInt8) (generation : Int) :
    Except Exn (Record Obj) := decode data generation

end Wmfs.Ring.Codec
