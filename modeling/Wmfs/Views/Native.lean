import Wmfs.Lib.Checked
import Wmfs.Views.Mapped

/-!
# `Wmfs.Views.Native`: the tensors of the native worker

`ring_tensor` of `reference_worker.cpp` and `MappedBufferCache::tensor` of
`reference_mapped_buffers.cpp`. The arithmetic is that of 64-bit integers: an addition or a
multiplication that would wrap is refused, and the conversions between signed and unsigned ones
come behind checks of the sign.

`at::from_blob` is outside of the source. It makes the view that it is asked for, from a pointer
into the mapping.
-/

set_option autoImplicit false

namespace Wmfs.Views.Native

open Wmfs.Lib

-- The dimensions of the shape are checked one by one, and not all values of their type.
attribute [local instance (2000)] List.decidableBAll

/-- `std::runtime_error`. -/
structure Failure where
  message : String
  deriving DecidableEq, Repr

/-- `TensorDescriptor`. -/
structure TensorDescriptor where
  bufferId : UInt64
  generation : UInt32
  allocationId : UInt64
  offset : UInt64
  byteLength : UInt64
  dtype : UInt32
  shape : List UInt64
  strides : List Int64
  deriving DecidableEq, Repr

/-- `ViewKey`. -/
structure ViewKey where
  allocationId : UInt64
  offset : UInt64
  byteLength : UInt64
  dtype : UInt32
  shape : List Int64
  strides : List Int64
  deriving DecidableEq, Repr

/-- `buffers`: the `Mapping` of each id. -/
abbrev Buffers := UInt64 → Option (Memo.Owner MappingSpec ViewKey View)

/-- `dtype_info`, with the ids of `wmfs_ring_dtype_v1`. -/
def dtypeInfo (dtype : UInt32) : Except Failure (ElementType × UInt64) :=
  if dtype = 8 then .ok (.float32, 4)
  else if dtype = 9 then .ok (.float64, 8)
  else if dtype = 6 then .ok (.int64, 8)
  else if dtype = 3 then .ok (.uint8, 1)
  else .error ⟨"Unsupported tensor dtype"⟩

/-- `checked_add`. -/
def checkedAdd (left right : UInt64) : Except Failure UInt64 :=
  Checked.add ⟨"Tensor descriptor arithmetic overflow"⟩ left right

/-- The bytes that a view needs: `required = checked_add(required, checked_multiply(..))` in the
loop over the dimensions. -/
def requiredBytes (itemSize : UInt64) (shape strides : List Int64) : Except Failure UInt64 :=
  Checked.addProducts ⟨"Tensor descriptor arithmetic overflow"⟩ itemSize
    ((shape.zip strides).map fun axis => ((axis.1 - 1).toUInt64, axis.2.toUInt64))

/-- The checks of `tensor` on the identity of the buffer. -/
def checkIdentity (spec : MappingSpec) (descriptor : TensorDescriptor) (invocationId : UInt64)
    (requireWritable : Bool) : Except Failure Unit := do
  raiseIf (spec.generation ≠ descriptor.generation)
    ⟨"Tensor references a stale buffer generation"⟩
  raiseIf (¬ spec.arena ∧ spec.allocationId ≠ descriptor.allocationId)
    ⟨"Tensor references a stale logical allocation"⟩
  raiseIf (requireWritable ∧ ¬ spec.writable) ⟨"Tensor output is not mapped writable"⟩
  raiseIf (requireWritable ∧ ¬ spec.arena ∧ spec.invocationId ≠ invocationId)
    ⟨"Tensor output is outside this invocation"⟩

/-- A dimension and its stride go into the key. -/
def checkAxis (itemSize : UInt64) (axis : UInt64 × Int64) : Except Failure (Int64 × Int64) := do
  raiseIf (axis.1 = 0 ∨ axis.1 > Int64.maxValue.toUInt64)
    ⟨"Tensor shape must be non-empty and positive"⟩
  raiseIf (axis.2 < 0 ∨ axis.2.toUInt64 % itemSize ≠ 0)
    ⟨"Tensor strides must be non-negative and dtype-aligned"⟩
  return (axis.1.toInt64, axis.2)

/-- What `tensor` checks before it looks for a view, and `key`. -/
def viewKey (descriptor : TensorDescriptor) (invocationId : UInt64) (requireWritable : Bool)
    (spec : MappingSpec) : Except Failure ViewKey := do
  checkIdentity spec descriptor invocationId requireWritable
  let (_, itemSize) ← dtypeInfo descriptor.dtype
  raiseIf (descriptor.shape.length = 0 ∨ descriptor.shape.length ≠ descriptor.strides.length ∨
      descriptor.shape.length > 16)
    ⟨"Tensor shape and strides have invalid ranks"⟩
  let axes ← (descriptor.shape.zip descriptor.strides).mapM (checkAxis itemSize)
  return {
    allocationId := descriptor.allocationId
    offset := descriptor.offset
    byteLength := descriptor.byteLength
    dtype := descriptor.dtype
    shape := axes.map Prod.fst
    strides := axes.map Prod.snd }

/-- The view of a key that the mapping does not keep. -/
def construct (spec : MappingSpec) (key : ViewKey) : Except Failure View := do
  let (scalarType, itemSize) ← dtypeInfo key.dtype
  raiseIf (key.offset % itemSize ≠ 0) ⟨"Tensor offset is not dtype-aligned"⟩
  raiseIf (key.byteLength = 0) ⟨"Tensor byte range exceeds its mapped buffer"⟩
  let stop ← checkedAdd key.offset key.byteLength
  raiseIf (stop > spec.byteLength) ⟨"Tensor byte range exceeds its mapped buffer"⟩
  let required ← requiredBytes itemSize key.shape key.strides
  raiseIf (required > key.byteLength) ⟨"Tensor strides exceed its declared byte range"⟩
  return {
    element := scalarType
    shape := key.shape.map Int64.toInt
    strides := key.strides.map fun stride => (stride / itemSize.toInt64).toInt
    start := key.offset.toNat }

/-- `MappedBufferCache::tensor`. -/
def tensorOf (buffers : Buffers) (descriptor : TensorDescriptor) (invocationId : UInt64)
    (requireWritable : Bool) : Except Failure View × Buffers :=
  Memo.callAt MAX_CACHED_VIEWS construct ⟨"Tensor references an unmapped buffer"⟩ buffers
    descriptor.bufferId (viewKey descriptor invocationId requireWritable)

/-- The `descriptor` of `ring_tensor`. -/
def ringDescriptor (source : RingTensor) : TensorDescriptor where
  bufferId := source.bufferId
  generation := source.bufferGeneration.toUInt32
  allocationId := source.allocationId
  offset := source.byteOffset
  byteLength := source.byteLength
  dtype := source.dtype
  shape := source.shape.map Int64.toUInt64
  strides := source.strides

/-- `ring_tensor`. -/
def tensor (buffers : Buffers) (call : Call) : Except Failure View × Buffers :=
  if ∀ dimension ∈ call.descriptor.shape, dimension > 0 then
    tensorOf buffers (ringDescriptor call.descriptor) call.invocationId call.requireWritable
  else (.error ⟨"Ring tensor shape is invalid"⟩, buffers)

/-- The cache after these calls. A mapping has no views when it is made. -/
def after (specs : UInt64 → Option MappingSpec) (calls : List Call) : Buffers :=
  calls.foldl (fun buffers call => (tensor buffers call).2) (Memo.fresh specs)

end Wmfs.Views.Native
