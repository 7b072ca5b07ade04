import Mathlib.Data.List.ReduceOption
import Wmfs.Invocation.Binding
import Wmfs.Lib.Dict
import Wmfs.Memory.Model

/-!
# `Wmfs.Invocation.Outputs`: shared inputs, planned outputs and their tensors

`share_input`, `plan_outputs` and `materialize_output` of `wmfs/invocation.py`, with what they
use of `BufferManager` (`memory/buffers.py`) and of `wmfs/output_metadata.py`.

A `Manager` is the manager as one of these calls finds it: its active allocations, and what its
allocator answers. Other threads may change it from one call to the next, so each call has a
manager of its own. `Manager.ofState` is the manager in a state of the memory model.

The `tensor` of a `ManagedTensor` is left out. The functions here read its shape and its dtype
only, which the descriptor has. `torch.result_type` is a parameter.
-/

set_option autoImplicit false

namespace Wmfs.Invocation

open Wmfs.Lib
open Wmfs.Ring.Codec (Value)

/-! ### Buffers -/

/-- A `SharedBuffer` of a mapped region. The identifiers are drawn from 64 bits, `reset` stops
at the last generation, and the size of a region is an `off_t`. -/
structure Buffer extends Memory.SharedBuffer where
  region_lt : region < 2 ^ 64
  generation_le : generation ≤ Memory.MAX_GENERATION
  allocationId_lt : allocationId < 2 ^ 64
  end_lt : offset + byteLength < 2 ^ 63
  deriving DecidableEq

/-- `TensorDescriptor`. -/
structure TensorDescriptor where
  bufferId : Int
  generation : Int
  allocationId : Int
  offset : Int
  byteLength : Int
  dtype : String
  shape : List Int
  strides : List Int
  deriving DecidableEq, Repr

/-- `ManagedTensor`. -/
structure ManagedTensor where
  descriptor : TensorDescriptor
  buffer : Buffer
  deriving DecidableEq

/-- `_active` of a manager, and the answers of `_allocate_arena` or `_allocate_pooled`. -/
structure Manager where
  active : Nat → Option Buffer
  allocate : Nat → Except Exn Buffer
  byteLength_of_allocate : ∀ {byteLength : Nat} {buffer : Buffer},
    allocate byteLength = .ok buffer → buffer.byteLength = byteLength

/-- The buffer, when its region could be mapped. -/
def Buffer.ofShared (buffer : Memory.SharedBuffer) : Option Buffer :=
  if h : buffer.region < 2 ^ 64 ∧ buffer.generation ≤ Memory.MAX_GENERATION ∧
      buffer.allocationId < 2 ^ 64 ∧ buffer.offset + buffer.byteLength < 2 ^ 63 then
    some ⟨buffer, h.1, h.2.1, h.2.2.1, h.2.2.2⟩
  else none

/-- A buffer is the shared one that it was made of. -/
theorem Buffer.toSharedBuffer_of_ofShared {shared : Memory.SharedBuffer} {buffer : Buffer}
    (h : Buffer.ofShared shared = some buffer) : buffer.toSharedBuffer = shared := by
  unfold ofShared at h
  split at h
  · cases h
    rfl
  · cases h

/-- The allocator returns a buffer of the length that it is asked for. -/
theorem byteLength_of_memoryAllocate {cfg : Memory.Config} {s : Memory.State}
    {byteLength allocationId region : Nat} {buffer : Memory.SharedBuffer}
    (h : (Memory.allocate cfg s byteLength allocationId region).2 = .ok buffer) :
    buffer.byteLength = byteLength := by
  unfold Memory.allocate at h
  split at h
  · cases h
  · split at h
    · unfold Memory.allocateArena at h
      cases hfit : Memory.takeFirstFit (Memory.align byteLength Memory.ARENA_ALIGNMENT)
          (Memory.ensureArena cfg s region).arenaFree with
      | none => simp only [hfit] at h; cases h
      | some taken => simp only [hfit] at h; cases h; rfl
    · unfold Memory.allocatePooled at h
      split at h <;> cases h <;> rfl

/-- The answer of the allocator in a state of the memory model. `ftruncate` refuses a region
that is too long. -/
def allocateIn (cfg : Memory.Config) (s : Memory.State) (allocationId region byteLength : Nat) :
    Except Exn Buffer :=
  match (Memory.allocate cfg s byteLength allocationId region).2 with
  | .error .closed => .error (.runtimeError [.text "Buffer manager is closed"])
  | .error (.exhausted _ _) => .error .memoryError
  | .ok shared => (Buffer.ofShared shared).elim (.error .overflowError) .ok

/-- The manager in a state of the memory model. The two identifiers are those that
`secrets.randbits` draws for the next allocation. -/
def Manager.ofState (cfg : Memory.Config) (s : Memory.State) (allocationId region : Nat) :
    Manager where
  active id := (s.active.find? fun buffer => buffer.allocationId = id).bind Buffer.ofShared
  allocate := allocateIn cfg s allocationId region
  byteLength_of_allocate := by
    intro byteLength buffer h
    unfold allocateIn at h
    split at h
    · cases h
    · cases h
    · rename_i shared hshared
      cases hbuffer : Buffer.ofShared shared with
      | none => rw [hbuffer] at h; cases h
      | some found =>
        rw [hbuffer] at h
        cases h
        rw [Buffer.toSharedBuffer_of_ofShared hbuffer]
        exact byteLength_of_memoryAllocate hshared

/-! ### Tensors of the manager -/

/-- `_ITEM_SIZES` under the names of `_DTYPE_NAMES`. -/
def ITEM_SIZES : List (String × Nat) := [("float32", 4), ("float64", 8), ("int64", 8), ("uint8", 1)]

/-- `_element_count`. -/
def elementCount (shape : List Int) : Int := shape.foldl (· * ·) 1

/-- `_contiguous_strides`. The loop goes over the dimensions from the last one, and the list is
reversed at its end. -/
def contiguousStrides (shape : List Int) : List Int :=
  shape.tail.foldr (fun dimension strides => strides.headD 1 * dimension :: strides) [1]

/-- `BufferManager.empty`. `shown` is the dtype as the exception shows it. -/
def empty (manager : Manager) (shape : List Int) (dtype shown : String) :
    Except Exn ManagedTensor :=
  match ITEM_SIZES.lookup dtype with
  | none => .error (.typeError [.text ("Unsupported shared tensor dtype: " ++ shown)])
  | some itemSize => do
    raiseIf (shape = [] ∨ ∃ dimension ∈ shape, dimension ≤ 0)
      (valueError "Shared tensors must have a non-empty, positive shape")
    let byteLength := elementCount shape * itemSize
    let buffer ← manager.allocate byteLength.toNat
    return {
      descriptor :=
        { bufferId := buffer.region
          generation := buffer.generation
          allocationId := buffer.allocationId
          offset := buffer.offset
          byteLength := byteLength
          dtype := dtype
          shape := shape
          strides := (contiguousStrides shape).map (· * itemSize) }
      buffer := buffer }

/-- `BufferManager.empty_named`. -/
def emptyNamed (manager : Manager) (shape : List Int) (dtype : String) :
    Except Exn ManagedTensor :=
  empty manager shape dtype dtype

/-- `tuple(tensor.shape)`. -/
def Tensor.sizes (tensor : Tensor) : List Int := tensor.shape.map Int.ofNat

/-- `BufferManager.from_tensor`. -/
def fromTensor (manager : Manager) (tensor : Tensor) : Except Exn ManagedTensor := do
  raiseIf (tensor.cpu = false) (valueError "Only CPU tensors can be moved into shared memory")
  raiseIf (tensor.strided = false)
    (valueError "Only strided tensors can be moved into shared memory")
  raiseIf (∃ stride ∈ tensor.strides, stride < 0)
    (valueError "Negative tensor strides are not supported")
  empty manager tensor.sizes tensor.dtype ("torch." ++ tensor.dtype)

/-- The active allocation that a tensor is a view of. -/
def Manager.allocationOf (manager : Manager) (tensor : Tensor) : Option Buffer :=
  if tensor.cpu && tensor.strided then tensor.lease.bind manager.active else none

/-- `byte_strides`. -/
def Tensor.byteStrides (tensor : Tensor) : List Int :=
  tensor.strides.map (· * tensor.elementSize)

/-- `byte_length` of a view. -/
def Tensor.byteLength (tensor : Tensor) : Int :=
  if tensor.shape.prod = 0 then 0
  else tensor.elementSize +
    ((tensor.sizes.zip tensor.byteStrides).map fun axis => (axis.1 - 1) * axis.2).sum

/-- The end of `BufferManager.managed`, on an active allocation. -/
def viewOf (buffer : Buffer) (tensor : Tensor) : Except Exn ManagedTensor := do
  let offset : Int := buffer.offset + tensor.storageOffset * tensor.elementSize
  raiseIf (offset < buffer.offset ∨
      offset + tensor.byteLength > buffer.offset + buffer.byteLength)
    (valueError "Tensor view exceeds its managed allocation")
  raiseIf (tensor.dtype ∉ ITEM_SIZES.map Prod.fst) (.keyError ("torch." ++ tensor.dtype))
  return {
    descriptor :=
      { bufferId := buffer.region
        generation := buffer.generation
        allocationId := buffer.allocationId
        offset := offset
        byteLength := tensor.byteLength
        dtype := tensor.dtype
        shape := tensor.sizes
        strides := tensor.byteStrides }
    buffer := buffer }

/-- `BufferManager.managed`. -/
def managed (manager : Manager) (tensor : Tensor) : Except Exn (Option ManagedTensor) := do
  if tensor.cpu = false ∨ tensor.strided = false ∨ tensor.lease = none then return none
  raiseIf (∃ stride ∈ tensor.strides, stride < 0)
    (valueError "Negative tensor strides are not supported")
  match manager.allocationOf tensor with
  | none => return none
  | some buffer => return some (← viewOf buffer tensor)

/-- `share_input`. -/
def shareInput (manager : Manager) (tensor : Tensor) : Except Exn ManagedTensor := do
  match ← managed manager tensor with
  | some view => return view
  | none => fromTensor manager tensor

/-! ### Output plans -/

/-- `items[index]`. -/
def getItem {α : Type} (items : List α) (index : Int) : Except Exn α :=
  match items[(if index < 0 then index + items.length else index).toNat]? with
  | some item => if index < -items.length then .error .indexError else .ok item
  | none => .error .indexError

/-- `bool(value)`. -/
def isTrue : Value → Bool
  | .bool b => b
  | .float bits => bits.toNat % 2 ^ 63 ≠ 0
  | .int n => n ≠ 0
  | .str text => text ≠ []

mutual
/-- `_evaluate_dimension`. -/
def evaluateDimension (inputs : List ManagedTensor) (scalars : List Value) :
    DimensionExpression → Except Exn Int
  | .constant value => .ok value
  | .inputAxis input axis => do
    let shape := (← getItem inputs input).descriptor.shape
    raiseIf (axis ≥ shape.length) (valueError "Output dimension references a missing input axis")
    getItem shape axis
  | .minimum values => do
    let dimensions ← evaluateDimensions inputs scalars values
    match dimensions.min? with
    | some dimension => return dimension
    | none => throw (valueError "min() iterable argument is empty")
  | .select scalarParameter whenTrue whenFalse => do
    let scalar ← getItem scalars scalarParameter
    if isTrue scalar then evaluateDimension inputs scalars whenTrue
    else evaluateDimension inputs scalars whenFalse

/-- A loop of `_evaluate_dimension`. -/
def evaluateDimensions (inputs : List ManagedTensor) (scalars : List Value) :
    List DimensionExpression → Except Exn (List Int)
  | [] => .ok []
  | expression :: expressions => do
    let dimension ← evaluateDimension inputs scalars expression
    let dimensions ← evaluateDimensions inputs scalars expressions
    return dimension :: dimensions
end

/-- The shape of a known output. -/
def evaluateShape (inputs : List ManagedTensor) (scalars : List Value) :
    ShapeExpression → Except Exn (List Int)
  | .sameShapeAsInput input => return (← getItem inputs input).descriptor.shape
  | .dimensions values => evaluateDimensions inputs scalars values

/-- A shape and a dtype. -/
abbrev OutputSpec : Type := List Int × String

/-- The check on the shape of an output. -/
def checkShape (operation : OperationMetadata) (shape : List Int) : Except Exn Unit :=
  raiseIf (shape = [] ∨ shape.length > MAX_RANK ∨ ∃ dimension ∈ shape, dimension ≤ 0)
    (namedValueError "Operation " operation.name " produced an invalid shape")

section
variable (resultType : TensorDescriptor → Value → String)

/-- `_evaluate_dtype`. -/
def evaluateDtype (operation : OperationMetadata) (inputs : List ManagedTensor)
    (scalars : List Value) : DTypeExpression → Except Exn String
  | .fixed name => .ok name
  | .input index => return (← getItem inputs index).descriptor.dtype
  | .dtypeVariable name =>
    match operation.tensorInputs.findIdx? fun parameter => parameter.dtypeVariable = some name with
    | some index => return (← getItem inputs index).descriptor.dtype
    | none => .error (namedValueError "Dtype variable " name " is not bound")
  | .promoteTensorScalar tensorInput scalarParameter => do
    match ← getItem scalars scalarParameter with
    | .str _ => throw (.typeError [.text "Text scalars cannot participate in dtype promotion"])
    | scalar => return resultType (← getItem inputs tensorInput).descriptor scalar

/-- The body of the loop of `evaluate_outputs`. -/
def evaluateOutput (operation : OperationMetadata) (inputs : List ManagedTensor)
    (scalars : List Value) (plan : OutputPlan) : Except Exn (Option OutputSpec) :=
  match plan.known with
  | none => .ok none
  | some known => do
    let shape ← evaluateShape inputs scalars known.shape
    checkShape operation shape
    let dtype ← evaluateDtype resultType operation inputs scalars known.dtype
    return some (shape, dtype)

/-- `evaluate_outputs`. -/
def evaluateOutputs (operation : OperationMetadata) (inputs : List ManagedTensor)
    (scalars : List Value) : Except Exn (List (Option OutputSpec)) :=
  operation.outputPlans.mapM (evaluateOutput resultType operation inputs scalars)

end

/-- A planned output of the worker: its index, its shape and its dtype. -/
abbrev PlannedSpec : Type := Nat × List Int × String

/-- The loop of `complete_outputs`. -/
def completeLoop (operation : OperationMetadata) :
    List PlannedSpec → List (Option OutputSpec) → Except Exn (List (Option OutputSpec))
  | [], results => .ok results
  | (index, shape, dtype) :: planned, results => do
    raiseIf (results[index]? ≠ some none)
      (valueError "Worker planned an unknown or statically known output")
    checkShape operation shape
    raiseIf (dtype ∉ SUPPORTED_OUTPUT_DTYPES)
      (namedValueError "Operation " operation.name " produced an invalid dtype")
    completeLoop operation planned (results.set index (some (shape, dtype)))

/-- `complete_outputs`. -/
def completeOutputs (operation : OperationMetadata) (known : List (Option OutputSpec))
    (planned : List PlannedSpec) : Except Exn (List OutputSpec) := do
  let results ← completeLoop operation planned known
  raiseIf (none ∈ results) (valueError "Worker did not plan every dynamic output")
  return results.filterMap id

/-- The loop of `bind_reusable_outputs`. `used` has the allocations of the inputs and of the
outputs so far. -/
def bindReusableLoop (manager : Manager) (mode : Mode) :
    List (TensorParameter × Object × OutputSpec) → List Int → Except Exn (List ManagedTensor)
  | [], _ => .ok []
  | (parameter, .tensor tensor, shape, dtype) :: rest, used => do
    raiseIf (tensor.requiresGrad) (valueError "Isolated out tensors cannot require gradients")
    raiseIf (tensor.inference ∧ ¬ mode.inferenceMode)
      (valueError "Inference tensors require inference mode for out")
    match ← managed manager tensor with
    | none => throw (namedValueError "Output " parameter.name
        " must be a live tensor managed by this isolated runtime")
    | some view =>
      raiseIf (view.descriptor.shape ≠ shape ∨ view.descriptor.dtype ≠ dtype)
        (namedValueError "Output " parameter.name " has an invalid shape or dtype")
      raiseIf (view.descriptor.allocationId ∈ used)
        (valueError "Isolated outputs cannot alias inputs or each other")
      let outputs ← bindReusableLoop manager mode rest (view.descriptor.allocationId :: used)
      return view :: outputs
  | (parameter, _, _) :: _, _ =>
    .error (namedTypeError "Output " parameter.name " must be a tensor")

/-- The tensors that `out` supplies for `count` outputs. -/
def Out.tensors (out : Out) (count : Nat) : Option (List Object) :=
  match out with
  | .single item => if count = 1 then some [item] else none
  | .tuple items => if count = 1 then some [.other] else if items.length = count then some items
    else none

/-- `bind_reusable_outputs`. -/
def bindReusableOutputs (manager : Manager) (mode : Mode) (operation : OperationMetadata)
    (expected : List OutputSpec) (inputs : List ManagedTensor) (out : Out) :
    Except Exn (List ManagedTensor) :=
  match out.tensors expected.length with
  | none => .error (.typeError [.text "Operation ", .repr operation.name,
      .text (" requires a tuple of " ++ toString expected.length ++ " output tensors")])
  | some tensors => do
    let pairs ← zipStrict (valueError "zip() argument 3 is longer than arguments 1-2")
      tensors expected
    let rows ← zipStrict (valueError "zip() argument 2 is longer than argument 1")
      operation.tensorOutputs pairs
    bindReusableLoop manager mode rows (inputs.map fun item => item.descriptor.allocationId)

/-- `InvocationOutputPlan`. -/
structure InvocationOutputPlan where
  specs : List OutputSpec
  reusableOutputs : Option (List ManagedTensor)
  deriving DecidableEq

/-- `plan_outputs`. -/
def planOutputs (resultType : TensorDescriptor → Value → String) (manager : Manager) (mode : Mode)
    (invocation : BoundInvocation) (inputs : List ManagedTensor) (dynamic : List PlannedSpec) :
    Except Exn InvocationOutputPlan := do
  let known ← evaluateOutputs resultType invocation.operation inputs invocation.scalars
  let specs ← completeOutputs invocation.operation known dynamic
  match invocation.out with
  | none => return ⟨specs, none⟩
  | some out =>
    let outputs ← bindReusableOutputs manager mode invocation.operation specs inputs out
    return ⟨specs, some outputs⟩

/-- `materialize_output`. -/
def materializeOutput (manager : Manager) (plan : InvocationOutputPlan) (index : Nat) :
    Except Exn ManagedTensor :=
  match plan.reusableOutputs with
  | some outputs => getItem outputs index
  | none => do
    let (shape, dtype) ← getItem plan.specs index
    emptyNamed manager shape dtype

/-! ### The descriptors of shared tensors -/

/-- The numbers of the descriptor identify a place in mapped memory. -/
structure Located (item : ManagedTensor) : Prop where
  bufferId : 0 ≤ item.descriptor.bufferId ∧ item.descriptor.bufferId < 2 ^ 64
  generation : 0 ≤ item.descriptor.generation ∧ item.descriptor.generation < 2 ^ 64
  allocationId : 0 ≤ item.descriptor.allocationId ∧ item.descriptor.allocationId < 2 ^ 64
  offset : 0 ≤ item.descriptor.offset ∧ item.descriptor.offset < 2 ^ 64
  byteLength : 0 ≤ item.descriptor.byteLength ∧ item.descriptor.byteLength < 2 ^ 64
  dtype : item.descriptor.dtype ∈ ITEM_SIZES.map Prod.fst

/-- A view of an active allocation. -/
structure IsView (tensor : Tensor) (item : ManagedTensor) : Prop where
  located : Located item
  shape_eq : item.descriptor.shape = tensor.sizes
  strides_eq : item.descriptor.strides = tensor.byteStrides
  nonneg : ∀ stride ∈ tensor.strides, 0 ≤ stride

/-- A new tensor of a shape. Its dimensions and its strides are bounded by its size. -/
structure IsFresh (shape : List Int) (item : ManagedTensor) : Prop where
  located : Located item
  shape_eq : item.descriptor.shape = shape
  nonempty : shape ≠ []
  rank : item.descriptor.strides.length = shape.length
  dimensions : ∀ dimension ∈ shape, 0 < dimension ∧ dimension < 2 ^ 63
  strides : ∀ stride ∈ item.descriptor.strides, 0 ≤ stride ∧ stride < 2 ^ 63

/-- A descriptor with the identifiers of its buffer and an extent in mapped memory. -/
theorem Located.of_buffer {item : ManagedTensor}
    (hregion : item.descriptor.bufferId = item.buffer.region)
    (hgeneration : item.descriptor.generation = item.buffer.generation)
    (hallocation : item.descriptor.allocationId = item.buffer.allocationId)
    (hoffset : 0 ≤ item.descriptor.offset) (hlength : 0 ≤ item.descriptor.byteLength)
    (hend : item.descriptor.offset + item.descriptor.byteLength < 2 ^ 63)
    (hdtype : item.descriptor.dtype ∈ ITEM_SIZES.map Prod.fst) : Located item := by
  have hregion_lt := item.buffer.region_lt
  have hgeneration_le := item.buffer.generation_le
  have hallocation_lt := item.buffer.allocationId_lt
  rw [Memory.MAX_GENERATION] at hgeneration_le
  exact ⟨by omega, by omega, by omega, by omega, by omega, hdtype⟩

/-- A product of positive integers bounds each of them. -/
theorem le_prod_of_pos {shape : List Int} (h : ∀ dimension ∈ shape, 0 < dimension) :
    0 < shape.prod ∧ ∀ dimension ∈ shape, dimension ≤ shape.prod := by
  induction shape with
  | nil => simp
  | cons first rest ih =>
    rw [List.forall_mem_cons] at h
    obtain ⟨hpos, hle⟩ := ih h.2
    rw [List.prod_cons]
    refine ⟨Int.mul_pos h.1 hpos, ?_⟩
    rw [List.forall_mem_cons]
    refine ⟨le_mul_of_one_le_right h.1.le hpos, ?_⟩
    intro dimension hmem
    exact (hle dimension hmem).trans (le_mul_of_one_le_left hpos.le h.1)

/-- The loop of `_contiguous_strides`: the stride in front is the product of the dimensions
behind it, and bounds the others. -/
theorem contiguousLoop_spec {shape : List Int} (h : ∀ dimension ∈ shape, 0 < dimension) :
    let strides := shape.foldr (fun dimension strides => strides.headD 1 * dimension :: strides) [1]
    strides.length = shape.length + 1 ∧ strides.headD 1 = shape.prod ∧
      ∀ stride ∈ strides, 0 ≤ stride ∧ stride ≤ shape.prod := by
  induction shape with
  | nil => simp
  | cons first rest ih =>
    have hpos := (le_prod_of_pos h).1
    rw [List.forall_mem_cons] at h
    obtain ⟨hlength, hhead, hstrides⟩ := ih h.2
    simp only [List.foldr_cons, List.length_cons, List.headD_cons, List.forall_mem_cons, hlength,
      hhead, List.prod_cons, true_and] at hpos ⊢
    refine ⟨mul_comm _ _, ⟨by rw [mul_comm]; exact hpos.le, (mul_comm _ _).le⟩, ?_⟩
    intro stride hmem
    obtain ⟨hnonneg, hle⟩ := hstrides stride hmem
    have hrest : 0 ≤ rest.prod := hnonneg.trans hle
    exact ⟨hnonneg, hle.trans (le_mul_of_one_le_left hrest h.1)⟩

/-- There is a stride for each dimension. -/
theorem length_contiguousStrides {shape : List Int} (hne : shape ≠ [])
    (h : ∀ dimension ∈ shape, 0 < dimension) : (contiguousStrides shape).length = shape.length := by
  cases shape with
  | nil => exact absurd rfl hne
  | cons first rest =>
    rw [List.forall_mem_cons] at h
    exact (contiguousLoop_spec h.2).1

/-- The contiguous strides are at most the number of elements. -/
theorem mem_contiguousStrides {shape : List Int} (h : ∀ dimension ∈ shape, 0 < dimension)
    {stride : Int} (hmem : stride ∈ contiguousStrides shape) :
    0 ≤ stride ∧ stride ≤ elementCount shape := by
  rw [elementCount, ← List.prod_eq_foldl]
  cases shape with
  | nil => simp_all [contiguousStrides]
  | cons first rest =>
    rw [List.forall_mem_cons] at h
    obtain ⟨hnonneg, hle⟩ := (contiguousLoop_spec h.2).2.2 stride hmem
    have hrest : 0 ≤ rest.prod := hnonneg.trans hle
    rw [List.prod_cons]
    exact ⟨hnonneg, hle.trans (le_mul_of_one_le_left hrest h.1)⟩

/-- `empty` returns a new tensor of its shape. -/
theorem isFresh_of_empty {manager : Manager} {shape : List Int} {dtype shown : String}
    {item : ManagedTensor} (h : empty manager shape dtype shown = .ok item) :
    IsFresh shape item := by
  unfold empty at h
  cases hsize : ITEM_SIZES.lookup dtype with
  | none => rw [hsize] at h; cases h
  | some itemSize =>
    have hentry : (dtype, itemSize) ∈ ITEM_SIZES :=
      (lookup_eq_some_iff_mem (by decide)).mp hsize
    have hitem : (1 : Int) ≤ itemSize := by
      have hsizes : ∀ entry ∈ ITEM_SIZES, 1 ≤ entry.2 := by decide
      exact_mod_cast hsizes _ hentry
    rw [hsize] at h
    simp only [Result.bind_ok_iff, raiseIf_ok_iff, exists_const, not_or, not_exists, not_and,
      not_le] at h
    obtain ⟨⟨hne, hpos⟩, buffer, hbuffer, heq⟩ := h
    cases heq
    -- The size of the tensor is the size of its buffer, which ends below `2 ^ 63`.
    have hcount : 0 < elementCount shape := by
      rw [elementCount, ← List.prod_eq_foldl]
      exact (le_prod_of_pos hpos).1
    have hbytes : elementCount shape * itemSize < 2 ^ 63 := by
      have hlength := manager.byteLength_of_allocate hbuffer
      have hend := buffer.end_lt
      omega
    have hscale : ∀ n, 0 ≤ n → n ≤ elementCount shape → n * itemSize < 2 ^ 63 := fun n _ hle =>
      (mul_le_mul_of_nonneg_right hle (by omega)).trans_lt hbytes
    constructor
    · have hlength := manager.byteLength_of_allocate hbuffer
      have hend := buffer.end_lt
      refine Located.of_buffer rfl rfl rfl (Int.natCast_nonneg _) (by positivity) ?_
        (List.mem_map.mpr ⟨_, hentry, rfl⟩)
      show (buffer.offset : Int) + elementCount shape * itemSize < 2 ^ 63
      omega
    · rfl
    · exact hne
    · show ((contiguousStrides shape).map _).length = _
      rw [List.length_map, length_contiguousStrides hne hpos]
    · intro dimension hmem
      refine ⟨hpos dimension hmem, ?_⟩
      have hle : dimension ≤ elementCount shape := by
        rw [elementCount, ← List.prod_eq_foldl]
        exact (le_prod_of_pos hpos).2 dimension hmem
      have hself : dimension ≤ dimension * itemSize :=
        le_mul_of_one_le_right (hpos dimension hmem).le hitem
      exact hself.trans_lt (hscale dimension (hpos dimension hmem).le hle)
    · intro stride hmem
      obtain ⟨unit, hunit, rfl⟩ := List.mem_map.mp hmem
      obtain ⟨hnonneg, hle⟩ := mem_contiguousStrides hpos hunit
      exact ⟨by positivity, hscale unit hnonneg hle⟩

/-- The bytes that a view spans are not negative in number. -/
theorem Tensor.byteLength_nonneg {tensor : Tensor} (h : ∀ stride ∈ tensor.strides, 0 ≤ stride) :
    0 ≤ tensor.byteLength := by
  unfold byteLength
  split
  · exact le_refl 0
  · rename_i hne
    have hdim : ∀ dimension ∈ tensor.shape, dimension ≠ 0 := fun dimension hmem hzero =>
      hne (List.prod_eq_zero (hzero ▸ hmem))
    refine Int.add_nonneg (Int.natCast_nonneg _) (List.sum_nonneg fun term hterm => ?_)
    obtain ⟨⟨size, stride⟩, haxis, rfl⟩ := List.mem_map.mp hterm
    obtain ⟨hsize, hstride⟩ := List.of_mem_zip haxis
    obtain ⟨dimension, hdimension, rfl⟩ := List.mem_map.mp hsize
    obtain ⟨unit, hunit, rfl⟩ := List.mem_map.mp hstride
    have hpos := Nat.pos_of_ne_zero (hdim dimension hdimension)
    have hunit := h unit hunit
    refine mul_nonneg ?_ (mul_nonneg hunit (Int.natCast_nonneg _))
    show 0 ≤ (dimension : Int) - 1
    omega

/-- What `managed` returns: a view of an active allocation, or nothing. -/
theorem managed_ok_cases {manager : Manager} {tensor : Tensor} {result : Option ManagedTensor}
    (h : managed manager tensor = .ok result) :
    (result = none ∧ manager.allocationOf tensor = none) ∨
      ∃ item, result = some item ∧ (manager.allocationOf tensor).isSome ∧ IsView tensor item := by
  unfold managed at h
  split at h
  · rename_i hnone
    cases h
    refine Or.inl ⟨rfl, ?_⟩
    unfold Manager.allocationOf
    rcases hnone with hcpu | hstrided | hlease
    · simp [hcpu]
    · simp [hstrided]
    · simp [hlease]
  · simp only [Result.bind_ok_iff, raiseIf_ok_iff, exists_const, not_exists, not_and, not_lt] at h
    obtain ⟨hnonneg, h⟩ := h
    cases hbuffer : manager.allocationOf tensor with
    | none =>
      rw [hbuffer] at h
      cases h
      exact Or.inl ⟨rfl, rfl⟩
    | some buffer =>
      rw [hbuffer] at h
      simp only [viewOf, Result.bind_ok_iff, raiseIf_ok_iff, exists_const, not_or, not_lt,
        not_not] at h
      obtain ⟨item, ⟨⟨hstart, hend⟩, hdtype, hitem⟩, heq⟩ := h
      cases hitem
      cases heq
      have hlength := Tensor.byteLength_nonneg hnonneg
      have hbound := buffer.end_lt
      refine Or.inr ⟨_, rfl, rfl, ?_, rfl, rfl, hnonneg⟩
      refine Located.of_buffer rfl rfl rfl ?_ hlength ?_ hdtype
      · show 0 ≤ (buffer.offset : Int) + tensor.storageOffset * tensor.elementSize
        positivity
      · show (buffer.offset : Int) + tensor.storageOffset * tensor.elementSize
          + tensor.byteLength < 2 ^ 63
        omega

/-- What `share_input` returns: a view of an active allocation, or a copy. -/
theorem shareInput_ok_cases {manager : Manager} {tensor : Tensor} {item : ManagedTensor}
    (h : shareInput manager tensor = .ok item) :
    ((manager.allocationOf tensor).isSome ∧ IsView tensor item) ∨
      (manager.allocationOf tensor = none ∧ IsFresh tensor.sizes item) := by
  obtain ⟨result, hmanaged, h⟩ := Result.bind_ok_iff.mp h
  rcases managed_ok_cases hmanaged with ⟨rfl, hnone⟩ | ⟨view, rfl, hsome, hview⟩
  · simp only [fromTensor, Result.bind_ok_iff, raiseIf_ok_iff, exists_const] at h
    exact Or.inr ⟨hnone, isFresh_of_empty h.2.2.2⟩
  · cases h
    exact Or.inl ⟨hsome, hview⟩

/-! ### The specifications of the outputs -/

/-- A shape that passes the check on outputs. -/
structure ValidShape (shape : List Int) : Prop where
  nonempty : shape ≠ []
  rank : shape.length ≤ 16
  positive : ∀ dimension ∈ shape, 0 < dimension

/-- The shapes that pass. -/
theorem checkShape_ok_iff {operation : OperationMetadata} {shape : List Int} {u : Unit} :
    checkShape operation shape = .ok u ↔ ValidShape shape := by
  rw [checkShape, raiseIf_ok_iff]
  simp only [not_or, not_exists, not_and, not_lt, not_le]
  constructor
  · intro ⟨hne, hrank, hpos⟩
    exact ⟨hne, hrank, hpos⟩
  · intro h
    exact ⟨h.nonempty, h.rank, h.positive⟩

/-- The known outputs that have been evaluated have valid shapes. -/
def ValidSpecs (results : List (Option OutputSpec)) : Prop :=
  ∀ spec, some spec ∈ results → ValidShape spec.1

/-- What is evaluated has valid shapes. -/
theorem validSpecs_of_evaluateOutputs {resultType : TensorDescriptor → Value → String}
    {operation : OperationMetadata} {inputs : List ManagedTensor} {scalars : List Value}
    {known : List (Option OutputSpec)}
    (h : evaluateOutputs resultType operation inputs scalars = .ok known) :
    known.length = operation.outputPlans.length ∧ ValidSpecs known := by
  have hall := Result.mapM_ok_iff.mp h
  refine ⟨hall.length_eq.symm, ?_⟩
  intro spec hmem
  obtain ⟨plan, -, hplan⟩ := Result.exists_of_mem_mapM h hmem
  unfold evaluateOutput at hplan
  split at hplan
  · cases hplan
  · obtain ⟨shape, -, hplan⟩ := Result.bind_ok_iff.mp hplan
    obtain ⟨_, hshape, hplan⟩ := Result.bind_ok_iff.mp hplan
    obtain ⟨dtype, -, hplan⟩ := Result.bind_ok_iff.mp hplan
    cases hplan
    exact checkShape_ok_iff.mp hshape

/-- The loop of `complete_outputs` keeps the number of the outputs and the validity of their
shapes. -/
theorem validSpecs_of_completeLoop (operation : OperationMetadata) :
    ∀ {planned : List PlannedSpec} {known results : List (Option OutputSpec)},
      completeLoop operation planned known = .ok results → ValidSpecs known →
      results.length = known.length ∧ ValidSpecs results := by
  intro planned
  induction planned with
  | nil =>
    intro known results h hknown
    cases h
    exact ⟨rfl, hknown⟩
  | cons first rest ih =>
    obtain ⟨index, shape, dtype⟩ := first
    intro known results h hknown
    simp only [completeLoop, Result.bind_ok_iff, raiseIf_ok_iff, exists_const,
      checkShape_ok_iff] at h
    obtain ⟨-, hshape, -, h⟩ := h
    have hset : ValidSpecs (known.set index (some (shape, dtype))) := by
      intro spec hmem
      rcases List.mem_or_eq_of_mem_set hmem with hmem | heq
      · exact hknown spec hmem
      · cases heq
        exact hshape
    obtain ⟨hlength, hresults⟩ := ih h hset
    exact ⟨by rw [hlength, List.length_set], hresults⟩

/-- `complete_outputs` returns one valid specification for each output. -/
theorem validSpecs_of_completeOutputs {operation : OperationMetadata}
    {known : List (Option OutputSpec)} {planned : List PlannedSpec} {specs : List OutputSpec}
    (h : completeOutputs operation known planned = .ok specs) (hknown : ValidSpecs known) :
    specs.length = known.length ∧ ∀ spec ∈ specs, ValidShape spec.1 := by
  simp only [completeOutputs, Result.bind_ok_iff, raiseIf_ok_iff, exists_const] at h
  obtain ⟨results, hloop, hsome, heq⟩ := h
  obtain ⟨hlength, hresults⟩ := validSpecs_of_completeLoop operation hloop hknown
  cases heq
  refine ⟨?_, ?_⟩
  · rw [← hlength]
    refine List.reduceOption_length_eq_iff.mpr fun spec hmem => ?_
    cases spec with
    | none => exact absurd hmem hsome
    | some spec => rfl
  · intro spec hmem
    exact hresults spec (List.reduceOption_mem_iff.mp hmem)

/-! ### Reused outputs -/

/-- The output is a view of the tensor that the caller has passed for it. -/
def Reuses (row : Object × OutputSpec) (output : ManagedTensor) : Prop :=
  ∃ tensor, row.1 = .tensor tensor ∧ IsView tensor output ∧ output.descriptor.shape = row.2.1

/-- The loop of `bind_reusable_outputs` returns views of the tensors of `out`, in order. -/
theorem reuses_of_bindReusableLoop (manager : Manager) (mode : Mode) :
    ∀ {rows : List (TensorParameter × Object × OutputSpec)} {used : List Int}
      {outputs : List ManagedTensor}, bindReusableLoop manager mode rows used = .ok outputs →
      List.Forall₂ (fun row output => Reuses row.2 output) rows outputs := by
  intro rows
  induction rows with
  | nil =>
    intro used outputs h
    cases h
    exact .nil
  | cons row rows ih =>
    obtain ⟨parameter, object, shape, dtype⟩ := row
    intro used outputs h
    cases object with
    | tensor tensor =>
      simp only [bindReusableLoop, Result.bind_ok_iff, raiseIf_ok_iff, exists_const] at h
      obtain ⟨-, -, result, hmanaged, h⟩ := h
      rcases managed_ok_cases hmanaged with ⟨rfl, -⟩ | ⟨view, rfl, -, hview⟩
      · cases h
      · simp only [Result.bind_ok_iff, raiseIf_ok_iff, exists_const, not_or, not_not] at h
        obtain ⟨hsame, -, rest, hrest, heq⟩ := h
        cases heq
        exact .cons ⟨tensor, rfl, hview, hsame.1⟩ (ih hrest)
    | value v => cases h
    | other => cases h

/-- `bind_reusable_outputs` returns views of the tensors of `out`, which it holds one of for
each output. -/
theorem reuses_of_bindReusableOutputs {manager : Manager} {mode : Mode}
    {operation : OperationMetadata} {expected : List OutputSpec} {inputs outputs : List ManagedTensor}
    {out : Out} (h : bindReusableOutputs manager mode operation expected inputs out = .ok outputs) :
    out.objects.length = expected.length ∧
      List.Forall₂ Reuses (out.objects.zip expected) outputs := by
  unfold bindReusableOutputs at h
  cases htensors : out.tensors expected.length with
  | none => rw [htensors] at h; cases h
  | some objects =>
    rw [htensors] at h
    simp only [Result.bind_ok_iff, zipStrict_ok_iff] at h
    obtain ⟨pairs, ⟨hlength, rfl⟩, rows, ⟨hcount, rfl⟩, hloop⟩ := h
    have hrows := reuses_of_bindReusableLoop manager mode hloop
    have hall : List.Forall₂ Reuses (objects.zip expected) outputs := by
      have hmap : (operation.tensorOutputs.zip (objects.zip expected)).map Prod.snd
          = objects.zip expected := List.map_snd_zip (by omega)
      rw [← hmap, List.forall₂_map_left_iff]
      exact hrows
    cases out with
    | single item =>
      simp only [Out.tensors] at htensors
      split at htensors
      · cases htensors
        exact ⟨hlength, hall⟩
      · cases htensors
    | tuple items =>
      simp only [Out.tensors] at htensors
      split at htensors
      · -- A tuple is no tensor, and the one output that it was passed for has been refused.
        rename_i hone
        cases htensors
        obtain ⟨spec, hspec⟩ := List.length_eq_one_iff.mp hone
        rw [hspec] at hall
        obtain ⟨output, rest, ⟨tensor, htensor, -⟩, -⟩ := List.forall₂_cons_left_iff.mp hall
        cases htensor
      · split at htensors
        · cases htensors
          exact ⟨hlength, hall⟩
        · cases htensors

end Wmfs.Invocation
