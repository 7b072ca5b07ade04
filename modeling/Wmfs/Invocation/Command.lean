import Wmfs.Invocation.Outputs
import Wmfs.Lib.Bytes

/-!
# `Wmfs.Invocation.Command`: the ring record of a call

`_invocation_record` of `worker_process.py` makes the `PLAN_OUTPUTS` and the `INVOKE` record of
a bound call, and `ring_record_from_object` of `src/native_module.cpp` converts it to the record
that the ring carries. The conversion has limits of its own: 16 tensors and 16 scalars, ranks
from 1 to 16, integers of 64 bits and texts of 256 bytes.

The checks before it, `validate_operation_metadata` and `bind_invocation`, do not imply these
limits. `records_accepted_iff` is the condition under which the records of a call are accepted,
in terms of the operation and of the arguments of the call. `not_accepted_int64` is a call that
passes every check and has an integer of 65 bits.

The fields of `wmfs_ring_record_v1` that the conversion leaves at zero are left out.
-/

set_option autoImplicit false

namespace Wmfs.Invocation

open Wmfs.Lib
open Wmfs.Ring.Codec (Value Record Scalar PlannedOutput DTYPE_TO_ID)

/-! ### The record of a call -/

/-- `COMMAND_INVOKE`. -/
def COMMAND_INVOKE : Int := 1

/-- `COMMAND_PLAN_OUTPUTS`. -/
def COMMAND_PLAN_OUTPUTS : Int := 2

/-- `TENSOR_INPUT`. -/
def TENSOR_INPUT : Int := 1

/-- `TENSOR_OUTPUT`. -/
def TENSOR_OUTPUT : Int := 2

/-- `FLAG_PROFILE`. -/
def FLAG_PROFILE : Int := 1

/-- `tensor_from_descriptor`. -/
def tensorFromDescriptor (descriptor : TensorDescriptor) (kind : Int) (parameter : Nat)
    (writable : Bool) : Ring.Codec.Tensor where
  bufferId := descriptor.bufferId
  generation := descriptor.generation
  allocationId := descriptor.allocationId
  offset := descriptor.offset
  byteLength := descriptor.byteLength
  dtype := descriptor.dtype
  shape := descriptor.shape
  strides := descriptor.strides
  kind := kind
  parameter := parameter
  writable := writable

/-- `scalar_arguments`. -/
def scalarArguments (kindsAndValues : List (Nat × String × Value)) : List (Scalar Value) :=
  kindsAndValues.map fun item => ⟨item.1, item.2.1, item.2.2⟩

/-- The record that `_invocation_record` makes of the zipped arguments. -/
def recordOf (generation invocationId : UInt64) (bound : List (ManagedTensor × BoundTensorInput))
    (outputs : List ManagedTensor) (parameters : List (ScalarParameter × Value))
    (operationId : Int) (profiled : Bool) (kind : Int) : Record Value where
  kind := kind
  generation := generation.toNat
  submissionId := 1
  invocationId := invocationId.toNat
  operationId := operationId
  flags := if profiled then FLAG_PROFILE else 0
  tensors :=
    (bound.zipIdx.map fun item =>
      tensorFromDescriptor item.1.1.descriptor TENSOR_INPUT item.2 item.1.2.writable) ++
    outputs.zipIdx.map fun item =>
      tensorFromDescriptor item.1.descriptor TENSOR_OUTPUT item.2 true
  scalars := scalarArguments
    (parameters.zipIdx.map fun item => (item.2, item.1.1.kind, item.1.2))

/-- `_invocation_record`. -/
def invocationRecord (generation invocationId : UInt64) (inputs outputs : List ManagedTensor)
    (invocation : BoundInvocation) (profiled : Bool) (kind : Int) : Except Exn (Record Value) := do
  let bound ← zipStrict (valueError "zip() argument 2 is shorter than argument 1")
    inputs invocation.tensorInputs
  let parameters ← zipStrict (valueError "zip() argument 2 is shorter than argument 1")
    invocation.operation.scalarParameters invocation.scalars
  return recordOf generation invocationId bound outputs parameters
    invocation.operation.operationId profiled kind

/-! ### `ring_record_from_object` -/

/-- `nb::cast` to a fixed-width integer. -/
def castInt (field : Field) (n : Int) : Except Exn Int :=
  if field.Holds n then .ok n else .error .castError

/-- `wmfs_ring_tensor_descriptor_v1`. -/
structure RingTensor where
  bufferId : Int
  bufferGeneration : Int
  allocationId : Int
  byteOffset : Int
  byteLength : Int
  dtype : Int
  rank : Nat
  kind : Int
  flags : Nat
  parameterIndex : Int
  shape : List Int
  strides : List Int
  deriving DecidableEq, Repr

/-- `wmfs_ring_scalar_v1`. -/
structure RingScalar where
  parameterIndex : Int
  kind : Nat
  bits : UInt64
  text : List UInt8
  deriving DecidableEq, Repr

/-- `wmfs_ring_planned_output_v1`. -/
structure RingOutput where
  dtype : Int
  rank : Nat
  outputIndex : Int
  shape : List Int
  deriving DecidableEq, Repr

/-- `wmfs_ring_record_v1`. -/
structure RingRecord where
  kind : Int
  flags : Int
  sessionGeneration : Int
  invocationId : Int
  operationId : Int
  status : Int
  tensors : List RingTensor
  scalars : List RingScalar
  plannedOutputs : List RingOutput
  deriving DecidableEq, Repr

/-- `ring_dtype_from_object`. The constants of `ring.h` are those of the Python table. -/
def ringDtypeFromObject (name : String) : Except Exn Int :=
  match DTYPE_TO_ID.lookup name with
  | some dtype => .ok dtype
  | none => .error (valueError ("Unsupported ring dtype: " ++ name))

/-- The body of the loop over the tensors. -/
def ringTensorFromObject (item : Ring.Codec.Tensor) : Except Exn RingTensor := do
  let bufferId ← castInt .Q item.bufferId
  let bufferGeneration ← castInt .Q item.generation
  let allocationId ← castInt .Q item.allocationId
  let byteOffset ← castInt .Q item.offset
  let byteLength ← castInt .Q item.byteLength
  let dtype ← ringDtypeFromObject item.dtype
  let kind ← castInt .H item.kind
  let parameterIndex ← castInt .H item.parameter
  let shape ← item.shape.mapM (castInt .q)
  let strides ← item.strides.mapM (castInt .q)
  raiseIf (shape = [] ∨ shape.length > 16 ∨ shape.length ≠ strides.length)
    (valueError "Ring tensor rank is invalid")
  return {
    bufferId := bufferId
    bufferGeneration := bufferGeneration
    allocationId := allocationId
    byteOffset := byteOffset
    byteLength := byteLength
    dtype := dtype
    rank := shape.length
    kind := kind
    flags := if item.writable then 1 else 0
    parameterIndex := parameterIndex
    shape := shape
    strides := strides }

/-- `nb::cast<double>`, which also takes integers. -/
def castDouble : Value → Except Exn UInt64
  | .float bits => .ok bits
  | .int n => floatOfInt n
  | .bool b => floatOfInt (if b then 1 else 0)
  | .str _ => .error .castError

/-- `nb::cast<std::int64_t>`, as the bits of the integer. A `bool` is an integer of Python. -/
def castInt64 : Value → Except Exn UInt64
  | .int n => (castInt .q n).map fun n => UInt64.ofNat (n % 2 ^ 64).toNat
  | .bool b => .ok (if b then 1 else 0)
  | _ => .error .castError

/-- `nb::cast<std::string>`. -/
def castString : Value → Except Exn (List UInt8)
  | .str text =>
    match Utf8.encode text with
    | some bytes => .ok bytes
    | none => .error .castError
  | _ => .error .castError

/-- The value of a scalar: its kind, its bits and its text. -/
def ringScalarValue (kind : String) (value : Value) : Except Exn (Nat × UInt64 × List UInt8) :=
  if kind = "boolean" then
    match value with
    | .bool b => .ok (1, if b then 1 else 0, [])
    | _ => .error .castError
  else if kind = "float64" then
    (castDouble value).map fun bits => (2, bits, [])
  else if kind = "int64" then
    (castInt64 value).map fun bits => (3, bits, [])
  else if kind = "text" then do
    let text ← castString value
    raiseIf (text.length > 256) (valueError "Scalar text exceeds ring ABI bound")
    return (4, 0, text)
  else .error (valueError ("Unknown ring scalar kind: " ++ kind))

/-- The body of the loop over the scalars. -/
def ringScalarFromObject (item : Scalar Value) : Except Exn RingScalar := do
  let parameterIndex ← castInt .H item.parameter
  let (kind, bits, text) ← ringScalarValue item.kind item.value
  return ⟨parameterIndex, kind, bits, text⟩

/-- The body of the loop over the planned outputs. -/
def ringOutputFromObject (item : PlannedOutput) : Except Exn RingOutput := do
  let dtype ← ringDtypeFromObject item.dtype
  let outputIndex ← castInt .H item.output
  let shape ← item.shape.mapM (castInt .q)
  raiseIf (shape = [] ∨ shape.length > 16) (valueError "Planned output rank is invalid")
  return ⟨dtype, shape.length, outputIndex, shape⟩

/-- `ring_record_from_object`. -/
def ringRecordFromObject (record : Record Value) : Except Exn RingRecord := do
  let kind ← castInt .I record.kind
  let flags ← castInt .I record.flags
  let sessionGeneration ← castInt .Q record.generation
  let invocationId ← castInt .Q record.invocationId
  let operationId ← castInt .I record.operationId
  let status ← castInt .I record.status
  raiseIf (record.tensors.length > 16 ∨ record.scalars.length > 16 ∨ record.outputs.length > 16)
    (valueError "Ring descriptor count exceeds ABI bound")
  let tensors ← record.tensors.mapM ringTensorFromObject
  let scalars ← record.scalars.mapM ringScalarFromObject
  let plannedOutputs ← record.outputs.mapM ringOutputFromObject
  return ⟨kind, flags, sessionGeneration, invocationId, operationId, status, tensors, scalars,
    plannedOutputs⟩

/-- The record is made, and the conversion accepts it. -/
def Accepted (record : Except Exn (Record Value)) : Prop :=
  ∃ made converted, record = .ok made ∧ ringRecordFromObject made = .ok converted

/-! ### What the conversion accepts -/

/-- An integer is converted when it fits into its field. -/
theorem castInt_ok_iff {field : Field} {n m : Int} :
    castInt field n = .ok m ↔ field.Holds n ∧ n = m := by
  unfold castInt
  split <;> simp_all

/-- Integers are converted when all fit. -/
theorem mapM_castInt_ok_iff {field : Field} {values results : List Int} :
    values.mapM (castInt field) = .ok results ↔ (∀ n ∈ values, field.Holds n) ∧ values = results := by
  rw [Result.mapM_ok_iff]
  induction values generalizing results with
  | nil => rw [List.forall₂_nil_left_iff]; simp [eq_comm]
  | cons first rest ih =>
    rw [List.forall₂_cons_left_iff, List.forall_mem_cons]
    constructor
    · intro ⟨first', rest', hfirst, hrest, heq⟩
      obtain ⟨hholds, rfl⟩ := castInt_ok_iff.mp hfirst
      obtain ⟨hall, rfl⟩ := ih.mp hrest
      exact ⟨⟨hholds, hall⟩, heq.symm⟩
    · intro ⟨⟨hholds, hall⟩, heq⟩
      exact ⟨first, rest, castInt_ok_iff.mpr ⟨hholds, rfl⟩, ih.mpr ⟨hall, rfl⟩, heq.symm⟩

/-- The shape and the strides of a descriptor fit in a record. -/
structure DescriptorFits (descriptor : TensorDescriptor) : Prop where
  rank : 1 ≤ descriptor.shape.length ∧ descriptor.shape.length ≤ 16
  strides : descriptor.shape.length = descriptor.strides.length
  shape_holds : ∀ n ∈ descriptor.shape, -2 ^ 63 ≤ n ∧ n < 2 ^ 63
  strides_hold : ∀ n ∈ descriptor.strides, -2 ^ 63 ≤ n ∧ n < 2 ^ 63

/-- The dtypes of shared tensors are dtypes of the ring. -/
theorem exists_ringDtype {name : String} (h : name ∈ ITEM_SIZES.map Prod.fst) :
    ∃ dtype, ringDtypeFromObject name = .ok dtype := by
  have hall : ∀ name ∈ ITEM_SIZES.map Prod.fst, (DTYPE_TO_ID.lookup name).isSome := by decide
  obtain ⟨dtype, hdtype⟩ := Option.isSome_iff_exists.mp (hall name h)
  exact ⟨dtype, by rw [ringDtypeFromObject, hdtype]⟩

/-- The conversion of a tensor in mapped memory fails on its rank or its strides only. -/
theorem exists_ringTensor_iff {item : ManagedTensor} (h : Located item) {kind : Int}
    (hkind : 0 ≤ kind ∧ kind < 2 ^ 16) {index : Nat} (hindex : index < 2 ^ 16) (writable : Bool) :
    (∃ tensor, ringTensorFromObject (tensorFromDescriptor item.descriptor kind index writable)
      = .ok tensor) ↔ DescriptorFits item.descriptor := by
  obtain ⟨dtype, hdtype⟩ := exists_ringDtype h.dtype
  have hparameter : (0 : Int) ≤ index ∧ (index : Int) < 2 ^ 16 := by omega
  simp only [ringTensorFromObject, tensorFromDescriptor, Result.bind_ok_iff, castInt_ok_iff,
    mapM_castInt_ok_iff, Field.holds_Q_iff, Field.holds_H_iff, Field.holds_q_iff, hdtype,
    raiseIf_ok_iff, exists_const, h.bufferId, h.generation, h.allocationId, h.offset,
    h.byteLength, hkind, hparameter, not_or, not_lt, not_not, and_self, true_and, and_assoc,
    exists_eq_left', Except.ok.injEq, exists_and_left]
  constructor
  · rintro ⟨hshape, hstrides, hne, hrank, hlength, _⟩
    exact ⟨⟨List.length_pos_iff.mpr hne, hrank⟩, hlength, hshape, hstrides⟩
  · intro hfits
    have hne : item.descriptor.shape ≠ [] := List.length_pos_iff.mp hfits.rank.1
    exact ⟨hfits.shape_holds, hfits.strides_hold, hne, hfits.rank.2, hfits.strides, _, rfl⟩

/-- The byte strides of a view are 64-bit integers. -/
def StridesFit (tensor : Tensor) : Prop := ∀ stride ∈ tensor.byteStrides, stride < 2 ^ 63

/-- A text has at most 256 bytes of UTF-8. -/
def TextFits (text : Utf8.Text) : Prop := ∃ bytes, Utf8.encode text = some bytes ∧ bytes.length ≤ 256

/-- A scalar fits in a record. -/
def ValueFits : Value → Prop
  | .int n => -2 ^ 63 ≤ n ∧ n < 2 ^ 63
  | .str text => TextFits text
  | _ => True

/-- A tensor has as many sizes as dimensions. -/
theorem length_sizes (tensor : Tensor) : tensor.sizes.length = tensor.shape.length :=
  List.length_map _

/-- A view fits in a record when its rank and its strides do. -/
theorem IsView.descriptorFits_iff {tensor : Tensor} {item : ManagedTensor}
    (h : IsView tensor item) : DescriptorFits item.descriptor ↔
      (1 ≤ tensor.shape.length ∧ tensor.shape.length ≤ 16) ∧ StridesFit tensor := by
  have hlength : item.descriptor.shape.length = tensor.shape.length := by
    rw [h.shape_eq, length_sizes]
  constructor
  · intro hfits
    refine ⟨hlength ▸ hfits.rank, ?_⟩
    intro stride hmem
    exact (hfits.strides_hold stride (h.strides_eq ▸ hmem)).2
  · intro ⟨hrank, hstrides⟩
    refine ⟨hlength ▸ hrank, ?_, ?_, ?_⟩
    · rw [hlength, h.strides_eq, Tensor.byteStrides, List.length_map, tensor.rank_eq]
    · rw [h.shape_eq]
      intro n hmem
      obtain ⟨dimension, hdimension, rfl⟩ := List.mem_map.mp hmem
      have hlt := tensor.shape_lt dimension hdimension
      show -2 ^ 63 ≤ (dimension : Int) ∧ (dimension : Int) < 2 ^ 63
      omega
    · rw [h.strides_eq]
      intro n hmem
      have hlt := hstrides n hmem
      obtain ⟨stride, hstride, rfl⟩ := List.mem_map.mp hmem
      have hnonneg : 0 ≤ stride * tensor.elementSize :=
        mul_nonneg (h.nonneg stride hstride) (Int.natCast_nonneg _)
      omega

/-- A new tensor fits in a record when its rank does. -/
theorem IsFresh.descriptorFits_iff {shape : List Int} {item : ManagedTensor}
    (h : IsFresh shape item) : DescriptorFits item.descriptor ↔ shape.length ≤ 16 := by
  constructor
  · intro hfits
    exact h.shape_eq ▸ hfits.rank.2
  · intro hrank
    refine ⟨?_, ?_, ?_, ?_⟩
    · rw [h.shape_eq]
      exact ⟨List.length_pos_iff.mpr h.nonempty, hrank⟩
    · rw [h.shape_eq, h.rank]
    · rw [h.shape_eq]
      intro n hmem
      have hbounds := h.dimensions n hmem
      omega
    · intro n hmem
      have hbounds := h.strides n hmem
      omega

/-- A text is converted when it has no surrogates. -/
theorem castString_ok_iff {text : Utf8.Text} {bytes : List UInt8} :
    castString (.str text) = .ok bytes ↔ Utf8.encode text = some bytes := by
  rw [castString]
  split <;> simp_all

/-- The conversion of a scalar of the kind of its parameter fails on its value only. -/
theorem exists_ringScalar_iff {parameter : ScalarParameter} {value : Value}
    (h : HasKind parameter value) {index : Nat} (hindex : index < 2 ^ 16) :
    (∃ scalar, ringScalarFromObject ⟨index, parameter.kind, value⟩ = .ok scalar) ↔
      ValueFits value := by
  have hparameter : (0 : Int) ≤ index ∧ (index : Int) < 2 ^ 16 := by omega
  have hsplit : (∃ scalar, ringScalarFromObject ⟨index, parameter.kind, value⟩ = .ok scalar) ↔
      ∃ payload, ringScalarValue parameter.kind value = .ok payload := by
    simp only [ringScalarFromObject, Result.bind_ok_iff, castInt_ok_iff, Field.holds_H_iff,
      hparameter, and_self, true_and, exists_eq_left']
    constructor
    · rintro ⟨_, payload, hpayload, _⟩
      exact ⟨payload, hpayload⟩
    · rintro ⟨payload, hpayload⟩
      exact ⟨_, payload, hpayload, rfl⟩
  rw [hsplit]
  cases value with
  | bool b =>
    rw [show parameter.kind = "boolean" from h]
    exact iff_of_true ⟨_, rfl⟩ trivial
  | float bits =>
    rw [show parameter.kind = "float64" from h]
    exact iff_of_true ⟨_, rfl⟩ trivial
  | int n =>
    rw [show parameter.kind = "int64" from h]
    show (∃ payload, ((castInt .q n).map _).map _ = .ok payload) ↔ -2 ^ 63 ≤ n ∧ n < 2 ^ 63
    rw [← Field.holds_q_iff]
    unfold castInt
    by_cases hholds : Field.q.Holds n
    · rw [if_pos hholds]
      exact iff_of_true ⟨_, rfl⟩ hholds
    · rw [if_neg hholds]
      refine iff_of_false ?_ hholds
      rintro ⟨_, h⟩
      cases h
  | str text =>
    rw [show parameter.kind = "text" from h]
    show (∃ payload, (castString (.str text) >>= fun text => raiseIf (text.length > 256) _ >>=
      fun _ => pure _) = .ok payload) ↔ TextFits text
    simp only [Result.bind_ok_iff, raiseIf_ok_iff, exists_const, not_lt, castString_ok_iff]
    constructor
    · rintro ⟨_, bytes, hencode, hlength, _⟩
      exact ⟨bytes, hencode, hlength⟩
    · rintro ⟨bytes, hencode, hlength⟩
      exact ⟨_, bytes, hencode, hlength, rfl⟩

/-! ### The records of a call -/

/-- When the conversion accepts a record: its numbers and its counts fit, and each of its
descriptors is accepted. -/
theorem exists_ringRecord_iff {record : Record Value} :
    (∃ converted, ringRecordFromObject record = .ok converted) ↔
      Field.I.Holds record.kind ∧ Field.I.Holds record.flags ∧ Field.Q.Holds record.generation ∧
      Field.Q.Holds record.invocationId ∧ Field.I.Holds record.operationId ∧
      Field.I.Holds record.status ∧
      record.tensors.length ≤ 16 ∧ record.scalars.length ≤ 16 ∧ record.outputs.length ≤ 16 ∧
      (∀ item ∈ record.tensors, ∃ tensor, ringTensorFromObject item = .ok tensor) ∧
      (∀ item ∈ record.scalars, ∃ scalar, ringScalarFromObject item = .ok scalar) ∧
      (∀ item ∈ record.outputs, ∃ output, ringOutputFromObject item = .ok output) := by
  rw [← Result.exists_mapM_ok_iff, ← Result.exists_mapM_ok_iff, ← Result.exists_mapM_ok_iff]
  simp only [ringRecordFromObject, Result.bind_ok_iff, castInt_ok_iff, raiseIf_ok_iff,
    exists_const, not_or, not_lt, and_assoc, exists_and_left, exists_eq_left']
  constructor
  · rintro ⟨hkind, hflags, hgeneration, hinvocation, hoperation, hstatus, htensors, hscalars,
      houtputs, converted, tensors, hts, scalars, hss, outputs, hos, _⟩
    exact ⟨hkind, hflags, hgeneration, hinvocation, hoperation, hstatus, htensors, hscalars,
      houtputs, ⟨tensors, hts⟩, ⟨scalars, hss⟩, outputs, hos⟩
  · rintro ⟨hkind, hflags, hgeneration, hinvocation, hoperation, hstatus, htensors, hscalars,
      houtputs, ⟨tensors, hts⟩, ⟨scalars, hss⟩, outputs, hos⟩
    exact ⟨hkind, hflags, hgeneration, hinvocation, hoperation, hstatus, htensors, hscalars,
      houtputs, _, tensors, hts, scalars, hss, outputs, hos, rfl⟩

/-- The tensors of a record, given that there are at most 16 of them. -/
theorem tensors_accepted_iff {α : Type} {items : List α} (managedOf : α → ManagedTensor)
    (hlocated : ∀ item ∈ items, Located (managedOf item)) (hcount : items.length ≤ 16) {kind : Int}
    (hkind : 0 ≤ kind ∧ kind < 2 ^ 16) (writable : α → Bool) :
    (∀ tensor ∈ items.zipIdx.map fun item =>
        tensorFromDescriptor (managedOf item.1).descriptor kind item.2 (writable item.1),
      ∃ converted, ringTensorFromObject tensor = .ok converted) ↔
      ∀ item ∈ items, DescriptorFits (managedOf item).descriptor := by
  rw [List.forall_mem_map]
  refine forall_mem_zipIdx_iff ?_
  intro item hmem index hindex
  exact exists_ringTensor_iff (hlocated item hmem) hkind (by omega) _

/-- The scalars of a record, given that there are at most 16 of them. -/
theorem scalars_accepted_iff {parameters : List ScalarParameter} {values : List Value}
    (h : List.Forall₂ HasKind parameters values) (hcount : parameters.length ≤ 16) :
    (∀ scalar ∈ scalarArguments ((parameters.zip values).zipIdx.map fun item =>
        (item.2, item.1.1.kind, item.1.2)),
      ∃ converted, ringScalarFromObject scalar = .ok converted) ↔
      ∀ value ∈ values, ValueFits value := by
  have hlength : (parameters.zip values).length ≤ 16 := by
    rw [List.length_zip]
    omega
  have hvalues : (∀ pair ∈ parameters.zip values, ValueFits pair.2) ↔
      ∀ value ∈ values, ValueFits value := by
    conv_rhs => rw [← List.map_snd_zip h.length_eq.ge]
    rw [List.forall_mem_map]
  rw [← hvalues, scalarArguments, List.forall_mem_map, List.forall_mem_map]
  refine forall_mem_zipIdx_iff ?_
  intro pair hmem index hindex
  exact exists_ringScalar_iff (List.forall₂_iff_zip.mp h |>.2 hmem) (by omega)

/-- The limits of a record, in terms of the tensors of the call. -/
structure RecordFits (invocation : BoundInvocation) (inputs outputs : List ManagedTensor) :
    Prop where
  operationId : invocation.operation.operationId < 2 ^ 32
  tensors : inputs.length + outputs.length ≤ 16
  scalars : invocation.operation.scalarParameters.length ≤ 16
  inputs_fit : ∀ item ∈ inputs, DescriptorFits item.descriptor
  outputs_fit : ∀ item ∈ outputs, DescriptorFits item.descriptor
  values : ∀ value ∈ invocation.scalars, ValueFits value

/-- The two zips of `_invocation_record` are between lists of the same length. -/
theorem accepted_iff_exists {invocation : BoundInvocation} {inputs outputs : List ManagedTensor}
    (generation invocationId : UInt64) (profiled : Bool) (kind : Int)
    (hinputs : inputs.length = invocation.tensorInputs.length)
    (hscalars : invocation.operation.scalarParameters.length = invocation.scalars.length) :
    Accepted (invocationRecord generation invocationId inputs outputs invocation profiled kind) ↔
      ∃ converted, ringRecordFromObject (recordOf generation invocationId
        (inputs.zip invocation.tensorInputs) outputs
        (invocation.operation.scalarParameters.zip invocation.scalars)
        invocation.operation.operationId profiled kind) = .ok converted := by
  unfold Accepted
  simp only [invocationRecord, Result.bind_ok_iff, zipStrict_ok_iff, hinputs, hscalars,
    true_and, exists_eq_left']
  constructor
  · rintro ⟨made, converted, hmade, hconverted⟩
    cases hmade
    exact ⟨converted, hconverted⟩
  · rintro ⟨converted, hconverted⟩
    exact ⟨_, converted, rfl, hconverted⟩

/-- The record of a call is accepted within these limits. -/
theorem accepted_iff {invocation : BoundInvocation} {inputs outputs : List ManagedTensor}
    (generation invocationId : UInt64) (profiled : Bool) {kind : Int}
    (hkind : 0 ≤ kind ∧ kind < 2 ^ 32) (hid : 0 < invocation.operation.operationId)
    (hlength : inputs.length = invocation.tensorInputs.length)
    (hinputs : ∀ item ∈ inputs, Located item) (houtputs : ∀ item ∈ outputs, Located item)
    (hscalars : List.Forall₂ HasKind invocation.operation.scalarParameters invocation.scalars) :
    Accepted (invocationRecord generation invocationId inputs outputs invocation profiled kind) ↔
      RecordFits invocation inputs outputs := by
  have hgeneration : (0 : Int) ≤ generation.toNat ∧ (generation.toNat : Int) < 2 ^ 64 := by
    have := generation.toNat_lt
    omega
  have hinvocation : (0 : Int) ≤ invocationId.toNat ∧ (invocationId.toNat : Int) < 2 ^ 64 := by
    have := invocationId.toNat_lt
    omega
  have hflags : (0 : Int) ≤ (if profiled then FLAG_PROFILE else 0) ∧
      (if profiled then FLAG_PROFILE else 0 : Int) < 2 ^ 32 := by
    cases profiled <;> decide
  have hzip : (inputs.zip invocation.tensorInputs).length = inputs.length := by
    rw [List.length_zip, hlength, Nat.min_self]
  have hbound : ∀ pair ∈ inputs.zip invocation.tensorInputs, Located pair.1 := by
    intro pair hmem
    exact hinputs pair.1 (List.of_mem_zip hmem).1
  have hfits : (∀ pair ∈ inputs.zip invocation.tensorInputs, DescriptorFits pair.1.descriptor) ↔
      ∀ item ∈ inputs, DescriptorFits item.descriptor := by
    conv_rhs => rw [← List.map_fst_zip hlength.le]
    rw [List.forall_mem_map]
  rw [accepted_iff_exists generation invocationId profiled kind hlength hscalars.length_eq,
    exists_ringRecord_iff]
  simp only [recordOf, Field.holds_I_iff, Field.holds_Q_iff, hkind, hflags, hgeneration,
    hinvocation, hid.le, scalarArguments, List.length_append, List.length_map, List.length_zipIdx,
    hzip, List.length_zip, ← hscalars.length_eq, Nat.min_self, List.length_nil,
    List.forall_mem_append, and_self, true_and]
  have hinputs_iff := fun hcount : inputs.length + outputs.length ≤ 16 =>
    (tensors_accepted_iff Prod.fst hbound (by omega) (show 0 ≤ TENSOR_INPUT ∧ _ by decide)
      fun pair => pair.2.writable).trans hfits
  have houtputs_iff := fun hcount : inputs.length + outputs.length ≤ 16 =>
    tensors_accepted_iff id houtputs (by omega) (show 0 ≤ TENSOR_OUTPUT ∧ _ by decide)
      fun _ => true
  constructor
  · intro ⟨hoperation, _, hcount, hparameters, _, ⟨hin, hout⟩, hvalues, _⟩
    exact ⟨hoperation, hcount, hparameters, (hinputs_iff hcount).mp hin,
      (houtputs_iff hcount).mp hout, (scalars_accepted_iff hscalars hparameters).mp hvalues⟩
  · intro h
    refine ⟨h.operationId, by decide, h.tensors, h.scalars, by decide, ⟨?_, ?_⟩, ?_, by simp⟩
    · exact (hinputs_iff h.tensors).mpr h.inputs_fit
    · exact (houtputs_iff h.tensors).mpr h.outputs_fit
    · exact (scalars_accepted_iff hscalars h.scalars).mpr h.values

/-! ### From the arguments of a call to its records -/

/-- The loop over `share_input`. Each tensor comes with the manager as its call finds it. -/
def shareInputs (sharing : List (Manager × BoundTensorInput)) : Except Exn (List ManagedTensor) :=
  sharing.mapM fun item => shareInput item.1 item.2.tensor

/-- The loop over `materialize_output`, with the manager as each call finds it. -/
def materializeOutputs (managers : List Manager) (plan : InvocationOutputPlan) :
    Except Exn (List ManagedTensor) :=
  managers.zipIdx.mapM fun entry => materializeOutput entry.1 plan entry.2

/-- A tensor input fits in a record. The copy of a tensor has strides of its own. -/
structure InputFits (item : Manager × BoundTensorInput) : Prop where
  rank : 1 ≤ item.2.tensor.shape.length ∧ item.2.tensor.shape.length ≤ 16
  strides : (item.1.allocationOf item.2.tensor).isSome → StridesFit item.2.tensor

/-- The tensors of `out`. -/
def reusedTensors : Option Out → List Tensor
  | none => []
  | some out => tensorsOf out.objects

/-- The limits of the `PLAN_OUTPUTS` record of a call. -/
structure PlanFits (invocation : BoundInvocation) (sharing : List (Manager × BoundTensorInput)) :
    Prop where
  operationId : invocation.operation.operationId < 2 ^ 32
  inputs : invocation.operation.tensorInputs.length ≤ 16
  scalars : invocation.operation.scalarParameters.length ≤ 16
  tensors : ∀ item ∈ sharing, InputFits item
  values : ∀ value ∈ invocation.scalars, ValueFits value

/-- The limits of the `INVOKE` record of a call. -/
structure InvokeFits (invocation : BoundInvocation) (sharing : List (Manager × BoundTensorInput)) :
    Prop extends PlanFits invocation sharing where
  outputs : invocation.operation.tensorInputs.length + invocation.operation.outputPlans.length ≤ 16
  reused : ∀ tensor ∈ reusedTensors invocation.out, StridesFit tensor

/-- When the descriptor of a shared input fits into the record. -/
theorem descriptorFits_iff_of_shareInput {item : Manager × BoundTensorInput} {shared : ManagedTensor}
    (h : shareInput item.1 item.2.tensor = .ok shared) :
    InputFits item ↔ DescriptorFits shared.descriptor := by
  rcases shareInput_ok_cases h with ⟨hsome, hview⟩ | ⟨hnone, hfresh⟩
  · rw [hview.descriptorFits_iff]
    constructor
    · intro hfits
      exact ⟨hfits.rank, hfits.strides hsome⟩
    · intro ⟨hrank, hstrides⟩
      exact ⟨hrank, fun _ => hstrides⟩
  · rw [hfresh.descriptorFits_iff, length_sizes]
    have hpos : 1 ≤ item.2.tensor.shape.length := by
      rw [← length_sizes]
      exact List.length_pos_iff.mpr hfresh.nonempty
    constructor
    · intro hfits
      exact hfits.rank.2
    · intro hrank
      refine ⟨⟨hpos, hrank⟩, fun hsome => ?_⟩
      rw [hnone] at hsome
      cases hsome

/-- A shared input lies inside its buffer. -/
theorem located_of_shareInput {manager : Manager} {tensor : Tensor} {shared : ManagedTensor}
    (h : shareInput manager tensor = .ok shared) : Located shared := by
  rcases shareInput_ok_cases h with ⟨_, hview⟩ | ⟨_, hfresh⟩
  · exact hview.located
  · exact hfresh.located

/-- An item at a natural number. -/
theorem getItem_natCast {α : Type} {items : List α} {index : Nat} {item : α}
    (h : getItem items index = .ok item) : items[index]? = some item := by
  unfold getItem at h
  rw [if_neg (by omega), Int.toNat_natCast] at h
  split at h
  · rename_i found hfound
    split at h
    · cases h
    · cases h
      exact hfound
  · cases h

/-- The outputs that `materialize_output` returns, one by one. -/
theorem materializeOutputs_ok {managers : List Manager} {plan : InvocationOutputPlan}
    {outputs : List ManagedTensor} (h : materializeOutputs managers plan = .ok outputs) :
    outputs.length = managers.length ∧ ∀ index (hindex : index < outputs.length),
      ∃ manager, materializeOutput manager plan index = .ok outputs[index] := by
  obtain ⟨hlength, hget⟩ := List.forall₂_iff_get.mp (Result.mapM_ok_iff.mp h)
  rw [List.length_zipIdx] at hlength
  refine ⟨hlength.symm, ?_⟩
  intro index hindex
  have hitem := hget index (by rw [List.length_zipIdx]; omega) hindex
  simp only [List.get_eq_getElem, List.getElem_zipIdx, Nat.zero_add] at hitem
  exact ⟨_, hitem⟩

/-- Without `out`, the outputs are new tensors of the planned shapes. -/
theorem isFresh_of_materializeOutputs {managers : List Manager} {specs : List OutputSpec}
    {outputs : List ManagedTensor} (h : materializeOutputs managers ⟨specs, none⟩ = .ok outputs) :
    ∀ output ∈ outputs, ∃ spec ∈ specs, IsFresh spec.1 output := by
  intro output hmem
  obtain ⟨index, hindex, rfl⟩ := List.getElem_of_mem hmem
  obtain ⟨manager, hmaterialize⟩ := (materializeOutputs_ok h).2 index hindex
  obtain ⟨⟨shape, dtype⟩, hspec, hempty⟩ := Result.bind_ok_iff.mp hmaterialize
  exact ⟨_, List.mem_of_getElem? (getItem_natCast hspec), isFresh_of_empty hempty⟩

/-- With `out`, the outputs are the tensors that it supplies. -/
theorem eq_of_materializeOutputs {managers : List Manager} {specs : List OutputSpec}
    {reused outputs : List ManagedTensor} (hcount : managers.length = reused.length)
    (h : materializeOutputs managers ⟨specs, some reused⟩ = .ok outputs) : outputs = reused := by
  obtain ⟨hlength, hget⟩ := materializeOutputs_ok h
  refine List.ext_getElem (by omega) ?_
  intro index hindex hindex'
  obtain ⟨manager, hmaterialize⟩ := hget index hindex
  have hitem := getItem_natCast hmaterialize
  rw [List.getElem?_eq_getElem hindex'] at hitem
  exact (Option.some.inj hitem).symm

/-- The views that are reused fit when the strides of their tensors do. -/
theorem reused_fit_iff {rows : List (Object × OutputSpec)} {outputs : List ManagedTensor}
    (hshape : ∀ row ∈ rows, ValidShape row.2.1) (h : List.Forall₂ Reuses rows outputs) :
    (∀ output ∈ outputs, DescriptorFits output.descriptor) ↔
      ∀ tensor ∈ tensorsOf (rows.map Prod.fst), StridesFit tensor := by
  induction h with
  | nil => simp [tensorsOf]
  | @cons row output rows outputs hreuses _ ih =>
    obtain ⟨tensor, htensor, hview, hsame⟩ := hreuses
    rw [List.forall_mem_cons] at hshape
    have hlength : output.descriptor.shape.length = tensor.shape.length := by
      rw [hview.shape_eq, length_sizes]
    have hrank : 1 ≤ tensor.shape.length ∧ tensor.shape.length ≤ 16 := by
      rw [← hlength, hsame]
      exact ⟨List.length_pos_iff.mpr hshape.1.nonempty, hshape.1.rank⟩
    have htensors : tensorsOf ((row :: rows).map Prod.fst) = tensor :: tensorsOf (rows.map Prod.fst) := by
      rw [List.map_cons, htensor]
      rfl
    rw [List.forall_mem_cons, ih hshape.2, htensors, List.forall_mem_cons,
      hview.descriptorFits_iff]
    simp only [hrank, and_self, true_and]

/-- What the outputs of a call are: one for each plan, in mapped memory, and with strides that
fit when those of the tensors of `out` do. -/
theorem materializeOutputs_fit {resultType : TensorDescriptor → Value → String}
    {manager : Manager} {mode : Mode} {invocation : BoundInvocation}
    {inputs outputs : List ManagedTensor} {dynamic : List PlannedSpec}
    {plan : InvocationOutputPlan} {managers : List Manager}
    (hplan : planOutputs resultType manager mode invocation inputs dynamic = .ok plan)
    (hcount : managers.length = plan.specs.length)
    (h : materializeOutputs managers plan = .ok outputs) :
    outputs.length = invocation.operation.outputPlans.length ∧
      (∀ output ∈ outputs, Located output) ∧
      ((∀ output ∈ outputs, DescriptorFits output.descriptor) ↔
        ∀ tensor ∈ reusedTensors invocation.out, StridesFit tensor) := by
  obtain ⟨known, hknown, hplan⟩ := Result.bind_ok_iff.mp hplan
  obtain ⟨specs, hspecs, hplan⟩ := Result.bind_ok_iff.mp hplan
  obtain ⟨hknownLength, hvalid⟩ := validSpecs_of_evaluateOutputs hknown
  obtain ⟨hspecsLength, hshapes⟩ := validSpecs_of_completeOutputs hspecs hvalid
  have hlength := (materializeOutputs_ok h).1
  cases hout : invocation.out with
  | none =>
    rw [hout] at hplan
    cases hplan
    have hfresh := isFresh_of_materializeOutputs h
    refine ⟨by simp only at hcount; omega, ?_, ?_⟩
    · intro output hmem
      obtain ⟨spec, -, hspec⟩ := hfresh output hmem
      exact hspec.located
    · refine iff_of_true ?_ (by simp [reusedTensors])
      intro output hmem
      obtain ⟨spec, hspec, hisFresh⟩ := hfresh output hmem
      exact hisFresh.descriptorFits_iff.mpr (hshapes spec hspec).rank
  | some out =>
    rw [hout] at hplan
    obtain ⟨reused, hreused, hplan⟩ := Result.bind_ok_iff.mp hplan
    cases hplan
    obtain ⟨hobjects, hall⟩ := reuses_of_bindReusableOutputs hreused
    have hreusedLength : reused.length = specs.length := by
      rw [← hall.length_eq, List.length_zip, hobjects, Nat.min_self]
    have heq : outputs = reused := eq_of_materializeOutputs (by simp only at hcount; omega) h
    subst heq
    refine ⟨by omega, ?_, ?_⟩
    · intro output hmem
      have hlocated := (forall_mem_iff_of_forall₂ (P := fun _ => True) (Q := Located)
        (fun ⟨_, _, hview, _⟩ => iff_of_true trivial hview.located) hall).mp fun _ _ => trivial
      exact hlocated output hmem
    · have hrows : ∀ row ∈ out.objects.zip specs, ValidShape row.2.1 := by
        intro row hmem
        exact hshapes row.2 (List.of_mem_zip hmem).2
      rw [reused_fit_iff hrows hall, List.map_fst_zip hobjects.le]
      rfl

/-- **When the records of a call are accepted.** For a call that passed the validation and the
binding, whose inputs were shared and whose outputs were planned and made: its `PLAN_OUTPUTS`
record is accepted when `PlanFits` holds, and its `INVOKE` record when `InvokeFits` does. -/
theorem records_accepted_iff (table : CaseTable) (mode : Mode)
    (resultType : TensorDescriptor → Value → String) (operation : OperationMetadata)
    (args : List Object) (kwargs : Keywords) (out : Option Out) (invocation : BoundInvocation)
    (sharing : List (Manager × BoundTensorInput)) (inputs : List ManagedTensor)
    (generation invocationId : UInt64)
    (hvalid : validateOperationMetadata operation = .ok ())
    (hbind : bindInvocation table mode operation args kwargs out = .ok invocation)
    (hsharing : sharing.map Prod.snd = invocation.tensorInputs)
    (hinputs : shareInputs sharing = .ok inputs) :
    (Accepted (invocationRecord generation invocationId inputs [] invocation false
        COMMAND_PLAN_OUTPUTS) ↔ PlanFits invocation sharing) ∧
      ∀ manager dynamic plan managers outputs profiled,
        planOutputs resultType manager mode invocation inputs dynamic = .ok plan →
        managers.length = plan.specs.length →
        materializeOutputs managers plan = .ok outputs →
        (Accepted (invocationRecord generation invocationId inputs outputs invocation profiled
          COMMAND_INVOKE) ↔ InvokeFits invocation sharing) := by
  have hcall := bindsCall_of_bindInvocation hvalid hbind
  have hid : 0 < invocation.operation.operationId := by
    rw [hcall.operation_eq]
    exact operationId_pos_of_valid hvalid
  have hscalars : List.Forall₂ HasKind invocation.operation.scalarParameters invocation.scalars := by
    rw [hcall.operation_eq]
    exact hcall.scalars
  have hshared := Result.mapM_ok_iff.mp hinputs
  have hlength : inputs.length = invocation.tensorInputs.length := by
    rw [← hsharing, List.length_map, hshared.length_eq]
  have hcount : inputs.length = invocation.operation.tensorInputs.length := by
    rw [hlength, hcall.inputs, hcall.operation_eq]
  have hlocated : ∀ item ∈ inputs, Located item := by
    intro item hmem
    obtain ⟨entry, -, hentry⟩ := Result.exists_of_mem_mapM hinputs hmem
    exact located_of_shareInput hentry
  have hfit : (∀ item ∈ sharing, InputFits item) ↔
      ∀ item ∈ inputs, DescriptorFits item.descriptor :=
    forall_mem_iff_of_forall₂ (fun h => descriptorFits_iff_of_shareInput h) hshared
  refine ⟨?_, ?_⟩
  · rw [accepted_iff generation invocationId false (by decide) hid hlength hlocated (by simp)
      hscalars]
    constructor
    · intro h
      have htensors := h.tensors
      rw [hcount] at htensors
      exact ⟨h.operationId, htensors, h.scalars, hfit.mpr h.inputs_fit, h.values⟩
    · intro h
      refine ⟨h.operationId, ?_, h.scalars, hfit.mp h.tensors, by simp, h.values⟩
      rw [hcount]
      exact h.inputs
  · intro manager dynamic plan managers outputs profiled hplan hmanagers houtputs
    obtain ⟨hplans, hplaced, hreused⟩ := materializeOutputs_fit hplan hmanagers houtputs
    rw [accepted_iff generation invocationId profiled (by decide) hid hlength hlocated hplaced
      hscalars]
    constructor
    · intro h
      have htensors := h.tensors
      rw [hcount, hplans] at htensors
      exact ⟨⟨h.operationId, by omega, h.scalars, hfit.mpr h.inputs_fit, h.values⟩, htensors,
        hreused.mp h.outputs_fit⟩
    · intro h
      refine ⟨h.operationId, ?_, h.scalars, hfit.mp h.tensors, hreused.mpr h.reused, h.values⟩
      rw [hcount, hplans]
      exact h.outputs

/-! ### A call that is not accepted -/

/-- An operation with one input, one integer and one output like the input. -/
def scaleOperation : OperationMetadata where
  name := "scale"
  tensorInputs := [⟨"x", "readOnly", none, []⟩]
  tensorOutputs := [⟨"y", "readOnly", none, []⟩]
  scalarParameters := [⟨"k", "int64", true, none, none, []⟩]
  operationId := 1
  outputPlans := [⟨"y", some ⟨.sameShapeAsInput 0, .input 0⟩⟩]

/-- A tensor of two numbers that the manager does not know. -/
def plainTensor : Tensor where
  dtype := "float32"
  shape := [2]
  strides := [1]
  storageOffset := 0
  elementSize := 4
  cpu := true
  strided := true
  requiresGrad := false
  inference := false
  lease := none
  rank_eq := vector_rank_eq
  shape_lt := two_lt_dimensions

/-- A manager in `pooled` mode without allocations, about to draw two identifiers. -/
def newManager (allocationId region : Nat) : Manager :=
  .ofState ⟨.pooled, 64, 0, 0, Memory.sixtyFour_pos, Memory.aligned_sixtyFour⟩ .init allocationId region

/-- The call of the operation with an integer. -/
def scaleCall (k : Int) : BoundInvocation :=
  ⟨scaleOperation, [⟨plainTensor, false⟩], [.int k], none⟩

/-- The shared copy of the tensor. -/
def sharedInput : ManagedTensor where
  descriptor := ⟨2, 1, 1, 0, 8, "float32", [2], [4]⟩
  buffer := ⟨⟨2, 1, 1, 0, 8, false⟩, by decide, by decide, by decide, by decide⟩

/-- The output of the call. -/
def sharedOutput : ManagedTensor where
  descriptor := ⟨4, 1, 3, 0, 8, "float32", [2], [4]⟩
  buffer := ⟨⟨4, 1, 3, 0, 8, false⟩, by decide, by decide, by decide, by decide⟩

/-- The call with a small integer is accepted. -/
theorem records_accepted_scale :
    Accepted (invocationRecord 7 1 [sharedInput] [sharedOutput] (scaleCall 5) false
      COMMAND_INVOKE) := by
  refine ((records_accepted_iff .ascii ⟨false, false⟩ (fun _ _ => "float32") scaleOperation
    [.tensor plainTensor, .value (.int 5)] ∅ none (scaleCall 5)
    [(newManager 1 2, ⟨plainTensor, false⟩)] [sharedInput] 7 1 (by decide +kernel) rfl rfl rfl).2
    (newManager 3 4) [] ⟨[([2], "float32")], none⟩ [newManager 3 4] [sharedOutput] false rfl rfl
    rfl).mpr ?_
  refine ⟨⟨by decide, by decide, by decide, ?_, ?_⟩, by decide, by simp [scaleCall, reusedTensors]⟩
  · intro item hmem
    rw [List.mem_singleton.mp hmem]
    refine ⟨by decide, ?_⟩
    intro hsome
    cases hsome
  · intro value hmem
    rw [List.mem_singleton.mp hmem]
    show -2 ^ 63 ≤ (5 : Int) ∧ (5 : Int) < 2 ^ 63
    omega

/-- The call passes the validation, the binding and the planning, its tensors are in shared
memory, and its record is refused: the integer has 65 bits. -/
theorem not_accepted_int64 :
    validateOperationMetadata scaleOperation = .ok () ∧
    bindInvocation .ascii ⟨false, false⟩ scaleOperation
      [.tensor plainTensor, .value (.int (2 ^ 63))] ∅ none = .ok (scaleCall (2 ^ 63)) ∧
    shareInputs [(newManager 1 2, ⟨plainTensor, false⟩)] = .ok [sharedInput] ∧
    planOutputs (fun _ _ => "float32") (newManager 3 4) ⟨false, false⟩ (scaleCall (2 ^ 63))
      [sharedInput] [] = .ok ⟨[([2], "float32")], none⟩ ∧
    materializeOutputs [newManager 3 4] ⟨[([2], "float32")], none⟩ = .ok [sharedOutput] ∧
    ¬ Accepted (invocationRecord 7 1 [sharedInput] [sharedOutput] (scaleCall (2 ^ 63)) false
      COMMAND_INVOKE) := by
  refine ⟨by decide +kernel, rfl, rfl, rfl, rfl, ?_⟩
  intro ⟨made, converted, hmade, hconverted⟩
  cases hmade
  cases hconverted

end Wmfs.Invocation
