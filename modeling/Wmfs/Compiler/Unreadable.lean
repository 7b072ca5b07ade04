import Wmfs.Compiler.Readers

/-!
# `Wmfs.Compiler.Unreadable`: the exceptions of `_validate`

`_validate_vjp` reads the dtypes of the operation and of its target. The operation has passed its
own checks by then, so its dtypes can be read. The target may be declared after the operation, and
then nothing about it has been checked: an index may be out of range (`IndexError`) or a variable
undeclared (`StopIteration`). `Readable` says that neither is the case.
-/

set_option autoImplicit false

namespace Wmfs.Compiler

open Wmfs.Lib
open Wmfs.Lib.Utf8 (Text ofString)

/-! ### Signatures -/

/-- The operation declares the dtype variable. -/
def Declares (operation : Operation) (name : Identifier) : Prop :=
  name ∈ operation.dtypeVariables.map DTypeVariable.name

/-- Python finds an item at the index, which may count from the end. -/
def Indexes (index : Int) (length : Nat) : Prop := -length ≤ index ∧ index < length

/-- Python finds an item at the indices from `-len` up to `len`. -/
theorem exists_itemAt_iff {α : Type} {items : List α} {index : Int} :
    (∃ found, itemAt items index = .ok found) ↔ Indexes index items.length := by
  unfold itemAt Indexes
  split
  · rename_i h
    constructor
    · intro ⟨_, hfound⟩
      cases hfound
    · intro hrange
      omega
  · rename_i h
    split
    · rename_i found hfound
      have hlt := (List.getElem?_eq_some_iff.mp hfound).1
      constructor
      · intro _
        split at hlt <;> omega
      · intro _
        exact ⟨found, rfl⟩
    · rename_i hnone
      rw [List.getElem?_eq_none_iff] at hnone
      constructor
      · intro ⟨_, hfound⟩
        cases hfound
      · intro hrange
        split at hnone <;> omega

/-- A position in the list is such an index. -/
theorem indexes_of_inRange {index : Int} {length : Nat} (h : InRange index length) :
    Indexes index length := by
  obtain ⟨hnonneg, hlt⟩ := h
  exact ⟨by omega, hlt⟩

/-- The item that is found is one of the list. -/
theorem mem_of_itemAt {α : Type} {items : List α} {index : Int} {found : α}
    (h : itemAt items index = .ok found) : found ∈ items := by
  unfold itemAt at h
  split at h
  · cases h
  · split at h
    · rename_i hfound
      cases h
      exact List.mem_of_getElem? hfound
    · cases h

/-- The positions of a list lead to its items, all of them. -/
theorem forall_positions_iff {α β : Type} {items : List α} {read : α → Except Exn β} :
    (∀ index ∈ positions items, ∃ result, (itemAt items index >>= read) = .ok result) ↔
      ∀ item ∈ items, ∃ result, read item = .ok result := by
  have hitem : ∀ index (h : index < items.length),
      itemAt items (Int.ofNat index) = .ok items[index] := by
    intro index h
    have hnonneg : ¬ (index : Int) < 0 := by omega
    have hlower : ¬ (index : Int) < -items.length := by omega
    rw [itemAt, Int.ofNat_eq_natCast, if_neg hlower, if_neg hnonneg, Int.toNat_natCast,
      List.getElem?_eq_getElem h]
  constructor
  · intro hall item hmem
    obtain ⟨index, hindex, rfl⟩ := List.getElem_of_mem hmem
    have hposition : Int.ofNat index ∈ positions items :=
      List.mem_map_of_mem (List.mem_range.mpr hindex)
    have hread := hall _ hposition
    rwa [hitem index hindex, Result.ok_bind] at hread
  · intro hall index hposition
    obtain ⟨position, hmem, rfl⟩ := List.mem_map.mp hposition
    have hlt := List.mem_range.mp hmem
    rw [hitem position hlt, Result.ok_bind]
    exact hall _ (List.getElem_mem hlt)

/-- A dtype variable has a signature when it is declared. -/
theorem exists_variableSignature_iff {operation : Operation} {name : Identifier} :
    (∃ signature, variableSignature operation name = .ok signature) ↔
      Declares operation name := by
  rw [variableSignature, Declares]
  constructor
  · intro ⟨signature, h⟩
    split at h
    · rename_i declared hfound
      have hname := List.find?_some hfound
      rw [decide_eq_true_iff] at hname
      rw [← hname]
      exact List.mem_map_of_mem (List.mem_of_find?_eq_some hfound)
    · cases h
  · intro h
    obtain ⟨declared, hmem, hname⟩ := List.mem_map.mp h
    split
    · exact ⟨_, rfl⟩
    · rename_i hnone
      have hnot := List.find?_eq_none.mp hnone declared hmem
      rw [hname] at hnot
      simp at hnot

/-- The signature of a tensor can be read. -/
def TensorReadable (operation : Operation) (tensor : TensorParameter) : Prop :=
  ∀ name ∈ tensor.dtypeVariable, Declares operation name

/-- The signature of a dtype can be read. -/
def DTypeReadable (operation : Operation) : DType → Prop
  | .input index => Indexes index operation.inputs.length
  | .variable name => Declares operation name
  | .fixed _ | .promoteTensorScalar _ _ => True

/-- The signatures of all tensors of the operation can be read. -/
structure Readable (operation : Operation) : Prop where
  inputs : ∀ tensor ∈ operation.inputs, TensorReadable operation tensor
  outputs : ∀ output ∈ operation.outputs, ∀ dtype ∈ output.dtype, DTypeReadable operation dtype

/-- The signature of a tensor. -/
def tensorSignature (operation : Operation) (tensor : TensorParameter) : Except Exn Signature :=
  match tensor.constraint with
  | .variable name => variableSignature operation name
  | .any | .oneOf _ => .ok (tensor.dtypes.toFinset, none)

/-- The signature of an input. -/
theorem inputDType_eq (operation : Operation) (index : Int) :
    inputDType operation index =
      itemAt operation.inputs index >>= tensorSignature operation := rfl

/-- A tensor has a signature when it is readable. -/
theorem exists_tensorSignature_iff {operation : Operation} {tensor : TensorParameter} :
    (∃ signature, tensorSignature operation tensor = .ok signature) ↔
      TensorReadable operation tensor := by
  unfold tensorSignature TensorReadable TensorParameter.dtypeVariable
  cases tensor.constraint with
  | any => simp
  | «variable» name =>
    show (∃ signature, variableSignature operation name = .ok signature) ↔ _
    rw [exists_variableSignature_iff]
    simp
  | oneOf dtypes => simp

/-- The signature of an output. -/
def outputSignature (operation : Operation) (output : Output) : Except Exn Signature :=
  match output.dtype with
  | none | some (.promoteTensorScalar _ _) => .ok (SUPPORTED_DTYPES.toFinset, none)
  | some (.fixed value) => .ok ({Utf8.toString value.text}, none)
  | some (.input index) => inputDType operation index
  | some (.variable name) => variableSignature operation name

/-- The signature of an output. -/
theorem outputDType_eq (operation : Operation) (index : Int) :
    outputDType operation index =
      itemAt operation.outputs index >>= outputSignature operation := rfl

/-- An index leads to a signature when it leads to a tensor and the variable is declared. -/
theorem exists_inputDType_iff {operation : Operation}
    (hinputs : ∀ tensor ∈ operation.inputs, TensorReadable operation tensor) {index : Int} :
    (∃ signature, inputDType operation index = .ok signature) ↔
      Indexes index operation.inputs.length := by
  rw [← exists_itemAt_iff, inputDType_eq]
  constructor
  · intro ⟨signature, h⟩
    obtain ⟨tensor, htensor, _⟩ := Result.bind_ok_iff.mp h
    exact ⟨tensor, htensor⟩
  · intro ⟨tensor, htensor⟩
    rw [htensor, Result.ok_bind]
    exact exists_tensorSignature_iff.mpr (hinputs tensor (mem_of_itemAt htensor))

/-- An output has a signature when its dtype is readable. -/
theorem exists_outputSignature_iff {operation : Operation}
    (hinputs : ∀ tensor ∈ operation.inputs, TensorReadable operation tensor) {output : Output} :
    (∃ signature, outputSignature operation output = .ok signature) ↔
      ∀ dtype ∈ output.dtype, DTypeReadable operation dtype := by
  unfold outputSignature
  cases output.dtype with
  | none => simp
  | some dtype =>
    cases dtype with
    | input index => simp [exists_inputDType_iff hinputs, DTypeReadable]
    | fixed value => simp [DTypeReadable]
    | «variable» name =>
      show (∃ signature, variableSignature operation name = .ok signature) ↔ _
      rw [exists_variableSignature_iff]
      simp [DTypeReadable]
    | promoteTensorScalar input scalar => simp [DTypeReadable]

/-! ### The gradient of a checked operation -/

/-- The failures of `_input_dtype` and `_output_dtype` are no `InterfaceError`. -/
theorem stray_itemAt {α : Type} {items : List α} {index : Int} {e : Exn}
    (h : itemAt items index = .error e) : Stray e := by
  unfold itemAt at h
  split at h
  · cases h
    trivial
  · split at h
    · cases h
    · cases h
      trivial

/-- A missing dtype variable is no `InterfaceError`. -/
theorem stray_variableSignature {operation : Operation} {name : Identifier} {e : Exn}
    (h : variableSignature operation name = .error e) : Stray e := by
  unfold variableSignature at h
  split at h
  · cases h
  · cases h
    trivial

/-- A missing input is no `InterfaceError`. -/
theorem stray_inputDType {operation : Operation} {index : Int} {e : Exn}
    (h : inputDType operation index = .error e) : Stray e := by
  rw [inputDType_eq] at h
  cases hitem : itemAt operation.inputs index with
  | error e' =>
    rw [hitem, Result.error_bind] at h
    cases h
    exact stray_itemAt hitem
  | ok tensor =>
    rw [hitem, Result.ok_bind, tensorSignature] at h
    split at h
    · exact stray_variableSignature h
    · cases h
    · cases h

/-- A missing output is no `InterfaceError`. -/
theorem stray_outputDType {operation : Operation} {index : Int} {e : Exn}
    (h : outputDType operation index = .error e) : Stray e := by
  rw [outputDType_eq] at h
  cases hitem : itemAt operation.outputs index with
  | error e' =>
    rw [hitem, Result.error_bind] at h
    cases h
    exact stray_itemAt hitem
  | ok output =>
    rw [hitem, Result.ok_bind, outputSignature] at h
    split at h
    · cases h
    · cases h
    · cases h
    · exact stray_inputDType h
    · exact stray_variableSignature h

/-- The input signatures go astray when an input is not readable. -/
theorem stray_inputSignatures_iff {operation : Operation} :
    Raises Stray ((positions operation.inputs).mapM (inputDType operation)) ↔
      ¬ ∀ tensor ∈ operation.inputs, TensorReadable operation tensor := by
  rw [raises_mapM_iff_of_forall fun _ _ => stray_inputDType]
  simp only [inputDType_eq, forall_positions_iff, exists_tensorSignature_iff]

/-- The output signatures go astray when a dtype is not readable. -/
theorem stray_outputSignatures_iff {operation : Operation}
    (hinputs : ∀ tensor ∈ operation.inputs, TensorReadable operation tensor) :
    Raises Stray ((positions operation.outputs).mapM (outputDType operation)) ↔
      ¬ ∀ output ∈ operation.outputs, ∀ dtype ∈ output.dtype, DTypeReadable operation dtype := by
  rw [raises_mapM_iff_of_forall fun _ _ => stray_outputDType]
  simp only [outputDType_eq, forall_positions_iff, exists_outputSignature_iff hinputs]

/-- An error of an operation is an `InterfaceError`. -/
@[simp] theorem not_stray_operationError (operation : Operation) (message : String) :
    ¬ Stray (operationError operation message) := id

/-- The check of the indices raises an `InterfaceError` only. -/
@[simp] theorem not_stray_validateIndexes (operation : Operation) (indexes : List Int)
    (count : Nat) (description : String) :
    ¬ Raises Stray (validateIndexes operation indexes count description) := by
  simp [validateIndexes]

/-- What `_validate_vjp` asks of the gradient before it reads a dtype. -/
structure PlanFits (operation target : Operation) (vjp : Vjp) : Prop where
  savedInputs : IndexesValid vjp.savedInputs operation.inputs.length
  savedOutputs : IndexesValid vjp.savedOutputs operation.outputs.length
  outputCotangents : IndexesValid vjp.outputCotangents operation.outputs.length
  inputGradients : IndexesValid vjp.inputGradients operation.inputs.length
  scalarParameters : IndexesValid vjp.scalarParameters operation.scalars.length
  fits : SignatureFits target vjp

/-- The indexes of a gradient into the inputs lead to signatures. -/
theorem exists_inputSignatures {operation : Operation} (hreadable : Readable operation)
    {indexes : List Int} (hindexes : IndexesValid indexes operation.inputs.length) :
    ∃ signatures, indexes.mapM (inputDType operation) = .ok signatures := by
  rw [Result.exists_mapM_ok_iff]
  intro index hindex
  exact (exists_inputDType_iff hreadable.inputs).mpr
    (indexes_of_inRange (hindexes.2 index hindex))

/-- On a readable operation valid indices have signatures. -/
theorem exists_outputSignatures {operation : Operation} (hreadable : Readable operation)
    {indexes : List Int} (hindexes : IndexesValid indexes operation.outputs.length) :
    ∃ signatures, indexes.mapM (outputDType operation) = .ok signatures := by
  rw [Result.exists_mapM_ok_iff]
  intro index hindex
  obtain ⟨output, houtput⟩ := exists_itemAt_iff.mpr (indexes_of_inRange (hindexes.2 index hindex))
  rw [outputDType_eq, houtput, Result.ok_bind]
  exact (exists_outputSignature_iff hreadable.inputs).mpr
    (hreadable.outputs output (mem_of_itemAt houtput))

/-- The scalars of a gradient are scalars of the operation. -/
theorem not_stray_validateVjpScalar {operation : Operation} {vjp : Vjp}
    (hindexes : IndexesValid vjp.scalarParameters operation.scalars.length)
    {pair : ScalarParameter × Int} (hpair : pair.2 ∈ vjp.scalarParameters) :
    ¬ Raises Stray (validateVjpScalar operation pair) := by
  obtain ⟨source, hsource⟩ := exists_itemAt_iff.mpr
    (indexes_of_inRange (hindexes.2 pair.2 hpair))
  simp [validateVjpScalar, hsource, Result.ok_bind]

/-- The part of `_validate_vjp` before the first dtype, once the target is found. -/
def planChecks (operation target : Operation) (vjp : Vjp) : Except Exn Unit := do
  validateIndexes operation vjp.savedInputs operation.inputs.length "saved input"
  validateIndexes operation vjp.savedOutputs operation.outputs.length "saved output"
  validateIndexes operation vjp.outputCotangents operation.outputs.length "output cotangent"
  validateIndexes operation vjp.inputGradients operation.inputs.length "input gradient"
  validateIndexes operation vjp.scalarParameters operation.scalars.length "scalar parameter"
  raiseIf (¬ SignatureFits target vjp)
    (operationError operation " VJP target signature does not match its plan")

/-- The plan of a VJP passes when it fits. -/
theorem planChecks_ok_iff {operation target : Operation} {vjp : Vjp} :
    planChecks operation target vjp = .ok () ↔ PlanFits operation target vjp := by
  simp only [planChecks, Result.check_bind_ok_iff, validateIndexes_ok_iff, raiseIf_ok_iff, not_not]
  constructor
  · intro ⟨h1, h2, h3, h4, h5, hfits⟩
    exact ⟨h1, h2, h3, h4, h5, hfits⟩
  · intro h
    exact ⟨h.savedInputs, h.savedOutputs, h.outputCotangents, h.inputGradients,
      h.scalarParameters, h.fits⟩

/-- The checks of the plan raise an `InterfaceError` only. -/
@[simp] theorem not_stray_planChecks (operation target : Operation) (vjp : Vjp) :
    ¬ Raises Stray (planChecks operation target vjp) := by
  simp [planChecks, raises_bind_iff]

/-- The part of `_validate_vjp` from the first dtype on. -/
def compareSignatures (operation target : Operation) (vjp : Vjp) : Except Exn Unit := do
  let sourceTensors ← sourceTensors operation vjp
  let targetInputs ← (positions target.inputs).mapM (inputDType target)
  let sourceGradients ← vjp.inputGradients.mapM (inputDType operation)
  let targetOutputs ← (positions target.outputs).mapM (outputDType target)
  raiseIf (¬ SignaturesMatch sourceTensors targetInputs ∨
      ¬ SignaturesMatch sourceGradients targetOutputs)
    (operationError operation " VJP dtype constraints do not match")
  forM (target.scalars.zip vjp.scalarParameters) (validateVjpScalar operation)

/-- The comparison fails with something else than `InterfaceError` exactly when a dtype of the
target cannot be read. -/
theorem stray_compareSignatures_iff {operation target : Operation} {vjp : Vjp}
    (hreadable : Readable operation) (hplan : PlanFits operation target vjp) :
    Raises Stray (compareSignatures operation target vjp) ↔ ¬ Readable target := by
  obtain ⟨inputs, hinputs⟩ := exists_inputSignatures hreadable hplan.savedInputs
  obtain ⟨outputs, houtputs⟩ := exists_outputSignatures hreadable hplan.savedOutputs
  obtain ⟨cotangents, hcotangents⟩ := exists_outputSignatures hreadable hplan.outputCotangents
  obtain ⟨gradients, hgradients⟩ := exists_inputSignatures hreadable hplan.inputGradients
  have hsource : sourceTensors operation vjp = .ok (inputs ++ outputs ++ cotangents) := by
    rw [sourceTensors, hinputs, Result.ok_bind, houtputs, Result.ok_bind, hcotangents]
    rfl
  rw [compareSignatures, hsource, Result.ok_bind, raises_bind_iff, stray_inputSignatures_iff,
    hgradients]
  by_cases htarget : ∀ tensor ∈ target.inputs, TensorReadable target tensor
  · constructor
    · intro h
      rcases h with hnot | ⟨_, _, h⟩
      · exact absurd htarget hnot
      · rw [Result.ok_bind, raises_bind_iff, stray_outputSignatures_iff htarget] at h
        rcases h with hnot | ⟨_, _, h⟩
        · exact fun hread => hnot hread.outputs
        · refine absurd h (not_raises_bind (by simp) fun _ _ => not_raises_forM ?_)
          intro pair hpair
          exact not_stray_validateVjpScalar hplan.scalarParameters (List.of_mem_zip hpair).2
    · intro hnot
      have houtput : ¬ ∀ output ∈ target.outputs, ∀ dtype ∈ output.dtype,
          DTypeReadable target dtype := fun hall => hnot ⟨htarget, hall⟩
      obtain ⟨signatures, hsignatures⟩ :
          ∃ signatures, (positions target.inputs).mapM (inputDType target) = .ok signatures := by
        rw [Result.exists_mapM_ok_iff]
        simp only [inputDType_eq, forall_positions_iff, exists_tensorSignature_iff]
        exact htarget
      refine .inr ⟨signatures, hsignatures, ?_⟩
      rw [Result.ok_bind, raises_bind_iff]
      exact .inl ((stray_outputSignatures_iff htarget).mpr houtput)
  · constructor
    · intro _ hread
      exact htarget hread.inputs
    · intro _
      exact .inl htarget

/-- The checks of a VJP whose target exists. -/
theorem validateVjp_eq {operations : List Operation} {operation target : Operation} {vjp : Vjp}
    (h : targetOf operations vjp = some target) :
    validateVjp operations operation vjp =
      planChecks operation target vjp >>= fun _ => compareSignatures operation target vjp := by
  rw [validateVjp, show operations.find? _ = some target from h]
  simp only [planChecks, compareSignatures, bind_assoc]

/-- The gradient of an operation whose own dtypes can be read raises something else than
`InterfaceError` exactly when its plan fits and the dtypes of its target cannot be read. -/
theorem stray_validateVjp_iff {operations : List Operation} {operation : Operation} {vjp : Vjp}
    (hreadable : Readable operation) :
    Raises Stray (validateVjp operations operation vjp) ↔
      ∃ target ∈ targetOf operations vjp, PlanFits operation target vjp ∧ ¬ Readable target := by
  cases htarget : targetOf operations vjp with
  | none =>
    rw [validateVjp, show operations.find? _ = none from htarget]
    simp
  | some target =>
    rw [validateVjp_eq htarget, raises_bind_iff_of_not (not_stray_planChecks _ _ _)]
    constructor
    · rintro ⟨_, hplan, h⟩
      have hfits := planChecks_ok_iff.mp hplan
      exact ⟨target, rfl, hfits, (stray_compareSignatures_iff hreadable hfits).mp h⟩
    · rintro ⟨found, hfound, hfits, hnot⟩
      cases hfound
      exact ⟨(), planChecks_ok_iff.mpr hfits,
        (stray_compareSignatures_iff hreadable hfits).mpr hnot⟩

/-! ### Operations -/

mutual
/-- The check of a dimension raises an `InterfaceError` only. -/
theorem not_stray_validateDimension (operation : Operation) (depth : Nat) :
    ∀ dimension : Dimension, ¬ Raises Stray (validateDimension operation depth dimension)
  | .constant _ _ => by simp [validateDimension]
  | .inputAxis _ _ => by simp [validateDimension, raises_bind_iff]
  | .minimum first second rest => by
    have hfirst := not_stray_validateDimension operation (depth + 1) first
    have hsecond := not_stray_validateDimension operation (depth + 1) second
    have hrest := not_stray_validateDimensions operation (depth + 1) rest
    simp [validateDimension, raises_bind_iff, hfirst, hsecond, hrest]
  | .select _ whenTrue whenFalse => by
    have htrue := not_stray_validateDimension operation (depth + 1) whenTrue
    have hfalse := not_stray_validateDimension operation (depth + 1) whenFalse
    simp [validateDimension, raises_bind_iff, htrue, hfalse]

/-- The same of a list of dimensions. -/
theorem not_stray_validateDimensions (operation : Operation) (depth : Nat) :
    ∀ dimensions : List Dimension, ¬ Raises Stray (validateDimensions operation depth dimensions)
  | [] => not_raises_ok
  | first :: rest =>
    not_raises_bind (not_stray_validateDimension operation depth first) fun _ _ =>
      not_stray_validateDimensions operation depth rest
end

/-- The check of the references of an output raises an `InterfaceError` only. -/
@[simp] theorem not_stray_validateOutputReferences (operation : Operation) (output : Output) :
    ¬ Raises Stray (validateOutputReferences operation output) := by
  unfold validateOutputReferences
  split
  · exact not_raises_ok
  · rename_i known _
    refine not_raises_bind ?_ fun _ _ => ?_
    · cases known.shape with
      | dimensions values =>
        simp [validateShape, raises_bind_iff, not_stray_validateDimensions]
      | sameShapeAsInput input => simp [validateShape]
    · cases known.dtype <;> simp [validateDType, raises_bind_iff]

/-- What `_validate` asks of an operation before it looks at the gradient. -/
structure OwnValid (operation : Operation) : Prop where
  variables_nodup : (operation.dtypeVariables.map DTypeVariable.name).Nodup
  variables_known : ∀ tensor ∈ operation.inputs, ∀ name ∈ tensor.dtypeVariable,
    name ∈ operation.dtypeVariables.map DTypeVariable.name
  parameters_nodup : operation.parameterNames.Nodup
  out_notMem : "out" ∉ operation.parameterNames.map Identifier.name
  outputs_le : operation.outputs.length ≤ 8
  inputs_le : operation.inputs.length ≤ 16
  outputs_nodup : (operation.outputs.map Output.name).Nodup
  outputs_new : ∀ name ∈ operation.parameterNames, name ∉ operation.outputs.map Output.name
  references : ∀ output ∈ operation.outputs, validateOutputReferences operation output = .ok ()

/-- The part of the loop over the operations in `_validate` before the gradient. -/
def ownChecks (operation : Operation) : Except Exn Unit := do
  raiseIf (¬ (operation.dtypeVariables.map DTypeVariable.name).Nodup)
    (operationError operation " has duplicate dtype variables")
  forM operation.inputs fun tensor =>
    raiseIf (∃ name ∈ tensor.dtypeVariable, name ∉ operation.dtypeVariables.map DTypeVariable.name)
      (operationError operation " references an unknown dtype variable")
  raiseIf (¬ operation.parameterNames.Nodup ∨
      "out" ∈ operation.parameterNames.map Identifier.name)
    (operationError operation " has duplicate or reserved parameters")
  raiseIf (operation.outputs.length > 8 ∨ operation.inputs.length > 16)
    (operationError operation " exceeds ABI descriptor limits")
  raiseIf (¬ (operation.outputs.map Output.name).Nodup)
    (operationError operation " has duplicate outputs")
  raiseIf (∃ name ∈ operation.parameterNames, name ∈ operation.outputs.map Output.name)
    (operationError operation " reuses an input name for an output")
  forM operation.outputs (validateOutputReferences operation)

/-- The checks of an operation by itself. -/
theorem ownChecks_ok_iff {operation : Operation} :
    ownChecks operation = .ok () ↔ OwnValid operation := by
  simp only [ownChecks, Result.check_bind_ok_iff, raiseIf_ok_iff, Result.forM_ok_iff]
  push Not
  constructor
  · rintro ⟨h1, h2, h3, h4, h5, h6, h7⟩
    exact ⟨h1, h2, h3.1, h3.2, h4.1, h4.2, h5, h6, h7⟩
  · intro h
    exact ⟨h.variables_nodup, h.variables_known, ⟨h.parameters_nodup, h.out_notMem⟩,
      ⟨h.outputs_le, h.inputs_le⟩, h.outputs_nodup, h.outputs_new, h.references⟩

/-- The checks of an operation by itself raise an `InterfaceError` only. -/
@[simp] theorem not_stray_ownChecks (operation : Operation) :
    ¬ Raises Stray (ownChecks operation) := by
  have hinputs : ¬ Raises Stray (forM operation.inputs fun tensor =>
      raiseIf (∃ name ∈ tensor.dtypeVariable,
          name ∉ operation.dtypeVariables.map DTypeVariable.name)
        (operationError operation " references an unknown dtype variable")) :=
    not_raises_forM fun _ _ => by simp
  have houtputs : ¬ Raises Stray (forM operation.outputs (validateOutputReferences operation)) :=
    not_raises_forM fun _ _ => not_stray_validateOutputReferences _ _
  simp only [ownChecks, raises_bind_iff, raises_raiseIf_iff, not_stray_operationError, hinputs,
    houtputs, and_false, false_or, exists_false, not_false_eq_true]

/-- The dtypes of an operation that has passed its own checks can be read. -/
theorem readable_of_ownValid {operation : Operation} (h : OwnValid operation) :
    Readable operation where
  inputs := h.variables_known
  outputs := by
    intro output houtput dtype hdtype
    obtain ⟨known, hknown, rfl⟩ := Option.map_eq_some_iff.mp hdtype
    have hreferences := h.references output houtput
    rw [validateOutputReferences, hknown] at hreferences
    have hvalid := (Result.check_bind_ok_iff.mp hreferences).2
    cases hkind : known.dtype with
    | input index =>
      rw [hkind, validateDType, raiseIf_ok_iff, not_not] at hvalid
      exact indexes_of_inRange hvalid
    | «variable» name =>
      rw [hkind, validateDType, raiseIf_ok_iff, not_not] at hvalid
      exact hvalid
    | fixed _ => trivial
    | promoteTensorScalar _ _ => trivial

/-- An operation is checked by itself, then its gradient. -/
theorem validateOperation_eq (operations : List Operation) (operation : Operation) :
    validateOperation operations operation = ownChecks operation >>= fun _ =>
      validateGradient operations operation >>= fun _ =>
        forM operation.dtypeVariables fun declared =>
          raiseIf (∀ tensor ∈ operation.inputs, tensor.dtypeVariable ≠ some declared.name)
            (.interfaceError [.of "operation ", .repr (ofString operation.name.name),
              .of " dtype variable ", .repr (ofString declared.name.name), .of " is unused"]) := by
  simp only [validateOperation, ownChecks, bind_assoc]

/-- The operation passes its own checks, its gradient has a target that fits the plan, and a dtype
of the target cannot be read. -/
def GradientStrays (operations : List Operation) (operation : Operation) : Prop :=
  OwnValid operation ∧ ∃ vjp ∈ operation.vjp, ∃ target ∈ targetOf operations vjp,
    PlanFits operation target vjp ∧ ¬ Readable target

/-- The check of an operation goes astray at its gradient only. -/
theorem stray_validateOperation_iff {operations : List Operation} {operation : Operation} :
    Raises Stray (validateOperation operations operation) ↔
      GradientStrays operations operation := by
  have hused : ¬ Raises Stray (forM operation.dtypeVariables fun declared =>
      raiseIf (∀ tensor ∈ operation.inputs, tensor.dtypeVariable ≠ some declared.name)
        (Exn.interfaceError [.of "operation ", .repr (ofString operation.name.name),
          .of " dtype variable ", .repr (ofString declared.name.name), .of " is unused"])) :=
    not_raises_forM fun _ _ => by simp
  have hgradient : Readable operation → (Raises Stray (validateGradient operations operation) ↔
      ∃ vjp ∈ operation.vjp, ∃ target ∈ targetOf operations vjp,
        PlanFits operation target vjp ∧ ¬ Readable target) := by
    intro hreadable
    rw [validateGradient]
    cases operation.vjp with
    | none => simp
    | some vjp =>
      rw [stray_validateVjp_iff hreadable]
      simp
  rw [validateOperation_eq, raises_bind_iff_of_not (not_stray_ownChecks _), GradientStrays]
  constructor
  · rintro ⟨_, hown, h⟩
    have hvalid := ownChecks_ok_iff.mp hown
    refine ⟨hvalid, (hgradient (readable_of_ownValid hvalid)).mp ?_⟩
    rcases raises_bind_iff.mp h with h | ⟨_, _, h⟩
    · exact h
    · exact absurd h hused
  · rintro ⟨hvalid, h⟩
    refine ⟨(), ownChecks_ok_iff.mpr hvalid, raises_bind_iff.mpr (.inl ?_)⟩
    exact (hgradient (readable_of_ownValid hvalid)).mpr h

/-! ### Plugins -/

/-- What `_validate` asks of a plugin before the loop over the operations. -/
structure HeaderValid (plugin : Plugin) : Prop where
  formatVersion_eq : plugin.formatVersion = 2
  abiVersion_eq : plugin.abiVersion = 1
  protocolVersion_pos : 0 < plugin.protocolVersion
  protocolVersion_le : plugin.protocolVersion ≤ MAX_UINT32
  operations_ne_nil : plugin.operations ≠ []
  ids_nodup : (plugin.operations.map Operation.operationId).Nodup
  ids_range : ∀ operation ∈ plugin.operations,
    0 < operation.operationId ∧ operation.operationId ≤ MAX_UINT32
  names_nodup : (plugin.operations.map Operation.name).Nodup
  enums_nodup : (plugin.enums.map Enum.name).Nodup

/-- `_validate` raises something else than `InterfaceError`. -/
inductive ValidationStrays (plugin : Plugin) : Prop where
  | formatVersion (wrong : plugin.formatVersion ≠ 2)
      (long : exceedsDigits plugin.formatVersion = true)
  | abiVersion (formatVersion_eq : plugin.formatVersion = 2) (wrong : plugin.abiVersion ≠ 1)
      (long : exceedsDigits plugin.abiVersion = true)
  | gradient {before after : List Operation} {operation : Operation}
      (header_valid : HeaderValid plugin)
      (operations_eq : plugin.operations = before ++ operation :: after)
      (before_valid : ∀ earlier ∈ before, OperationValid plugin.operations earlier)
      (strays : GradientStrays plugin.operations operation)

/-- A message goes astray when the number in it has too many digits. -/
theorem stray_formatting_iff {n : Int} {message : List Part} :
    Stray (formatting n (.interfaceError message)) ↔ exceedsDigits n = true := by
  unfold formatting
  split
  · rename_i h
    exact iff_of_true trivial h
  · rename_i h
    exact iff_of_false id h

/-- The part of `_validate` between the versions and the loop over the operations. -/
def headerChecks (plugin : Plugin) : Except Exn Unit := do
  raiseIf (¬ (0 < plugin.protocolVersion ∧ plugin.protocolVersion ≤ MAX_UINT32) ∨
      plugin.operations.isEmpty = true)
    (interfaceError "protocol_version must be positive and operations cannot be empty")
  raiseIf (¬ (plugin.operations.map Operation.operationId).Nodup ∨
      ∃ id ∈ plugin.operations.map Operation.operationId, ¬ (0 < id ∧ id ≤ MAX_UINT32))
    (interfaceError "operation IDs must be unique positive integers")
  raiseIf (¬ (plugin.operations.map Operation.name).Nodup)
    (interfaceError "operation names must be unique")
  raiseIf (¬ (plugin.enums.map Enum.name).Nodup) (interfaceError "enum names must be unique")

/-- The checks of the header raise an `InterfaceError` only. -/
@[simp] theorem not_stray_headerChecks (plugin : Plugin) :
    ¬ Raises Stray (headerChecks plugin) := by
  simp [headerChecks, raises_bind_iff, interfaceError]

/-- When the header passes. -/
theorem headerChecks_ok_iff {plugin : Plugin} (hformat : plugin.formatVersion = 2)
    (habi : plugin.abiVersion = 1) : headerChecks plugin = .ok () ↔ HeaderValid plugin := by
  simp only [headerChecks, Result.check_bind_ok_iff, raiseIf_ok_iff, List.isEmpty_iff]
  push Not
  constructor
  · rintro ⟨hprotocol, hids, hnames, henums⟩
    refine ⟨hformat, habi, hprotocol.1.1, hprotocol.1.2, hprotocol.2, hids.1, ?_, hnames, henums⟩
    intro operation hmem
    exact hids.2 _ (List.mem_map_of_mem hmem)
  · intro h
    refine ⟨⟨⟨h.protocolVersion_pos, h.protocolVersion_le⟩, h.operations_ne_nil⟩,
      ⟨h.ids_nodup, ?_⟩, h.names_nodup, h.enums_nodup⟩
    intro id hid
    obtain ⟨operation, hmem, rfl⟩ := List.mem_map.mp hid
    exact h.ids_range operation hmem

/-- `validate` checks the two versions, the header and the operations. -/
theorem validate_eq (plugin : Plugin) :
    validate plugin = (raiseIf (plugin.formatVersion ≠ 2) (formatting plugin.formatVersion
        (.interfaceError [.of "unsupported format_version ",
          .text (Json.intText plugin.formatVersion), .of "; expected 2"])) >>= fun _ =>
      raiseIf (plugin.abiVersion ≠ 1) (formatting plugin.abiVersion
          (.interfaceError [.of "unsupported abi_version ",
            .text (Json.intText plugin.abiVersion), .of "; expected 1"])) >>= fun _ =>
        headerChecks plugin >>= fun _ =>
          forM plugin.operations (validateOperation plugin.operations)) := by
  simp only [validate, headerChecks, bind_assoc]

/-- When `validate` goes astray. -/
theorem stray_validate_iff {plugin : Plugin} :
    Raises Stray (validate plugin) ↔ ValidationStrays plugin := by
  rw [validate_eq, raises_bind_iff, raises_raiseIf_iff, stray_formatting_iff]
  constructor
  · intro h
    rcases h with ⟨hwrong, hlong⟩ | ⟨_, hformat, h⟩
    · exact .formatVersion hwrong hlong
    have hformat := not_not.mp (raiseIf_ok_iff.mp hformat)
    rw [raises_bind_iff, raises_raiseIf_iff, stray_formatting_iff] at h
    rcases h with ⟨hwrong, hlong⟩ | ⟨_, habi, h⟩
    · exact .abiVersion hformat hwrong hlong
    have habi := not_not.mp (raiseIf_ok_iff.mp habi)
    obtain ⟨_, hheader, h⟩ := (raises_bind_iff_of_not (not_stray_headerChecks _)).mp h
    obtain ⟨before, operation, after, heq, hbefore, h⟩ := raises_forM_iff.mp h
    refine .gradient ((headerChecks_ok_iff hformat habi).mp hheader) heq ?_
      (stray_validateOperation_iff.mp h)
    intro earlier hearlier
    exact validateOperation_ok_iff.mp (hbefore earlier hearlier)
  · intro h
    cases h with
    | formatVersion hwrong hlong => exact .inl ⟨hwrong, hlong⟩
    | abiVersion hformat hwrong hlong =>
      refine .inr ⟨(), raiseIf_ok_iff.mpr (not_not.mpr hformat), raises_bind_iff.mpr (.inl ?_)⟩
      rw [raises_raiseIf_iff, stray_formatting_iff]
      exact ⟨hwrong, hlong⟩
    | gradient hheader heq hbefore hstrays =>
      have hformat := hheader.formatVersion_eq
      have habi := hheader.abiVersion_eq
      refine .inr ⟨(), raiseIf_ok_iff.mpr (not_not.mpr hformat), raises_bind_iff.mpr (.inr ?_)⟩
      refine ⟨(), raiseIf_ok_iff.mpr (not_not.mpr habi), raises_bind_iff.mpr (.inr ?_)⟩
      refine ⟨(), (headerChecks_ok_iff hformat habi).mpr hheader, raises_forM_iff.mpr ?_⟩
      refine ⟨_, _, _, heq, ?_, stray_validateOperation_iff.mpr hstrays⟩
      intro earlier hearlier
      exact validateOperation_ok_iff.mpr (hbefore earlier hearlier)

end Wmfs.Compiler
