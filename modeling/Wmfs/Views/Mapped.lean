import Wmfs.Lib.Memo
import Wmfs.Views.Validation

/-!
# `Wmfs.Views.Mapped`: the tensors of the Python worker

`MappedBufferCache.tensor` of `wmfs_plugin/fd_transport.py`, for a descriptor that came through the
ring. A mapping keeps the last 64 views that it made, and returns one of them for a descriptor of
the same geometry.

`torch` is outside of the source. `torch.frombuffer` makes a tensor of the whole mapping, so the
length of the mapping must be a multiple of the item size, whatever the view needs of it.
`torch.as_strided` makes the view that it is asked for.
-/

set_option autoImplicit false

namespace Wmfs.Views

open Wmfs.Lib
open Wmfs.Invocation (Exn valueError)
open Wmfs.Ring.Codec (ID_TO_DTYPE)

/-! ### What both workers have -/

/-- `wmfs_ring_tensor_descriptor_v1`, without the fields that the buffer caches do not read. The
arrays of 16 dimensions and strides are filled up to the rank. -/
structure RingTensor where
  bufferId : UInt64
  bufferGeneration : UInt64
  allocationId : UInt64
  byteOffset : UInt64
  byteLength : UInt64
  dtype : UInt32
  shape : List Int64
  strides : List Int64
  strides_rank : strides.length = shape.length
  rank_le : shape.length ≤ 16
  deriving DecidableEq, Repr

/-- `MappingSpec`, what an entry of a transfer says of a buffer. -/
structure MappingSpec where
  generation : UInt32
  allocationId : UInt64
  byteLength : UInt64
  invocationId : UInt64
  writable : Bool
  arena : Bool
  deriving DecidableEq, Repr

/-- A call of `tensor`. -/
structure Call where
  descriptor : RingTensor
  invocationId : UInt64
  requireWritable : Bool
  deriving DecidableEq, Repr

/-- The dtypes that the workers make tensors of. -/
inductive ElementType where
  | float32
  | float64
  | int64
  | uint8
  deriving DecidableEq, Repr

/-- A tensor, with its strides in elements. Its first element is `start` bytes behind the start of
the mapping. -/
structure View where
  element : ElementType
  shape : List Int
  strides : List Int
  start : Int
  deriving DecidableEq, Repr

/-- The number of views that a mapping keeps: `_MAX_CACHED_VIEWS` and `MAX_CACHED_VIEWS`. -/
def MAX_CACHED_VIEWS : Nat := 64

/-! ### The Python worker -/

namespace Python

/-- `_DTYPES`. -/
def DTYPES : List (String × ElementType) :=
  [("float32", .float32), ("float64", .float64), ("int64", .int64), ("uint8", .uint8)]

/-- What the cache reads of a descriptor. The id of the buffer is only a key. -/
structure Descriptor where
  bufferId : UInt64
  generation : Int
  allocationId : Int
  offset : Int
  byteLength : Int
  dtype : String
  shape : List Int
  strides : List Int
  deriving DecidableEq, Repr

/-- `decode` of the ring gives the dtype its name, and refuses a descriptor of rank 0. -/
def decodeTensor (source : RingTensor) : Except Exn Descriptor := do
  raiseIf (source.shape.length = 0)
    (.runtimeError [.text "invalid tensor descriptor"])
  match ID_TO_DTYPE.lookup (source.dtype.toNat : Int) with
  | none => throw (.runtimeError [.text "invalid tensor dtype"])
  | some dtype => return {
      bufferId := source.bufferId
      generation := source.bufferGeneration.toNat
      allocationId := source.allocationId.toNat
      offset := source.byteOffset.toNat
      byteLength := source.byteLength.toNat
      dtype := dtype
      shape := source.shape.map Int64.toInt
      strides := source.strides.map Int64.toInt }

/-- `view_key`. -/
structure ViewKey where
  allocationId : Int
  offset : Int
  byteLength : Int
  dtype : String
  shape : List Int
  byteStrides : List Int
  deriving DecidableEq, Repr

/-- `_buffers`: the mapping of each id, with its `views`. -/
abbrev Buffers := UInt64 → Option (Memo.Owner MappingSpec ViewKey View)

/-- The checks of `tensor` on the identity of the buffer. -/
def checkIdentity (buffer : MappingSpec) (descriptor : Descriptor) (invocationId : Int)
    (requireWritable : Bool) : Except Exn Unit := do
  raiseIf ((buffer.generation.toNat : Int) ≠ descriptor.generation)
    (valueError "Tensor references a stale buffer generation")
  raiseIf (¬ buffer.arena ∧ (buffer.allocationId.toNat : Int) ≠ descriptor.allocationId)
    (valueError "Tensor references a stale logical allocation")
  raiseIf (requireWritable ∧ ¬ buffer.writable)
    (valueError "Tensor output is not mapped writable")
  raiseIf (requireWritable ∧ ¬ buffer.arena ∧ (buffer.invocationId.toNat : Int) ≠ invocationId)
    (valueError "Tensor output is outside this invocation")

/-- A lookup in `_DTYPES` and `_ITEM_SIZES`, which have the same names. -/
def dtypeOf (dtypeName : String) : Except Exn (ElementType × ℕ+) :=
  match DTYPES.lookup dtypeName, ITEM_SIZES.lookup dtypeName with
  | some dtype, some itemSize => .ok (dtype, itemSize)
  | _, _ => .error (.typeError [.text "Unsupported tensor dtype: ", .text dtypeName])

/-- `torch.frombuffer(mapping, dtype=dtype)`: whether there is such a tensor. -/
def frombuffer (byteLength itemSize : Int) : Except Exn Unit :=
  raiseIf (byteLength % itemSize ≠ 0)
    (valueError "buffer length after offset must be a multiple of element size")

/-- The view of a key that the mapping does not keep. -/
def construct (buffer : MappingSpec) (key : ViewKey) : Except Exn View := do
  let (dtype, itemSize) ← dtypeOf key.dtype
  validateView buffer.byteLength.toNat key.offset key.byteLength itemSize key.shape key.byteStrides
  frombuffer buffer.byteLength.toNat (itemSize : Nat)
  return {
    element := dtype
    shape := key.shape
    strides := key.byteStrides.map fun stride => stride / (itemSize : Nat)
    -- `storage_offset` counts elements.
    start := key.offset / (itemSize : Nat) * (itemSize : Nat) }

/-- What `tensor` checks before it looks for a view, and `view_key`. -/
def viewKey (descriptor : Descriptor) (invocationId : Int) (requireWritable : Bool)
    (buffer : MappingSpec) : Except Exn ViewKey := do
  checkIdentity buffer descriptor invocationId requireWritable
  let _ ← dtypeOf descriptor.dtype
  return {
    allocationId := descriptor.allocationId
    offset := descriptor.offset
    byteLength := descriptor.byteLength
    dtype := descriptor.dtype
    shape := descriptor.shape
    byteStrides := descriptor.strides }

/-- `MappedBufferCache.tensor`. -/
def tensorOf (buffers : Buffers) (descriptor : Descriptor) (invocationId : Int)
    (requireWritable : Bool) : Except Exn View × Buffers :=
  Memo.callAt MAX_CACHED_VIEWS construct (valueError "Tensor references an unmapped buffer")
    buffers descriptor.bufferId (viewKey descriptor invocationId requireWritable)

/-- A tensor of the ring, resolved by the worker. -/
def tensor (buffers : Buffers) (call : Call) : Except Exn View × Buffers :=
  match decodeTensor call.descriptor with
  | .error error => (.error error, buffers)
  | .ok descriptor =>
    tensorOf buffers descriptor call.invocationId.toNat call.requireWritable

/-- The cache after these calls. A mapping has no views when it is made. -/
def after (specs : UInt64 → Option MappingSpec) (calls : List Call) : Buffers :=
  calls.foldl (fun buffers call => (tensor buffers call).2) (Memo.fresh specs)

end Python

end Wmfs.Views
