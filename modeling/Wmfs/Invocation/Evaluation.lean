import Wmfs.Invocation.Command
import Wmfs.Invocation.Outputs
import Wmfs.Lib.Settles

/-!
# `Wmfs.Invocation.Evaluation`: the known outputs of an operation

`evaluate_outputs` of `wmfs/output_metadata.py`, on metadata that `validate_operation_metadata`
accepts. The evaluator indexes inputs, scalars and axes, binds dtype variables and takes minima;
each of these is safe by a check that the validator has made on the metadata, or that
`bind_scalars` and `_validate_tensor_dtypes` have made on the call.

One error remains. The rank of an input is not a part of the metadata, so an expression may name
an axis that the input of a call does not have. `MissesAxis` says that the evaluation of an
expression comes to such a name. The proofs state for each part of the evaluator that it fails
exactly then, and returns a valid result otherwise (`Settles`).
-/

set_option autoImplicit false

namespace Wmfs.Invocation

open Wmfs.Lib
open Wmfs.Ring.Codec (Value)

/-! ### The missing axis -/

/-- The error of `_evaluate_dimension`. -/
def missingAxis : Exn := valueError "Output dimension references a missing input axis"

/-- The evaluation of the expression evaluates the part. -/
inductive Visits (scalars : List Value) : DimensionExpression → DimensionExpression → Prop where
  | self (expression : DimensionExpression) : Visits scalars expression expression
  | operand {values : List DimensionExpression} {value part : DimensionExpression}
      (hvalue : value ∈ values) (hpart : Visits scalars value part) :
    Visits scalars (.minimum values) part
  | branch {scalarParameter : Int} {whenTrue whenFalse part : DimensionExpression} {scalar : Value}
      (hscalar : scalars[scalarParameter.toNat]? = some scalar)
      (hpart : Visits scalars (if isTrue scalar then whenTrue else whenFalse) part) :
    Visits scalars (.select scalarParameter whenTrue whenFalse) part

/-- An axis that is not smaller than the rank of its input. -/
def NamesMissingAxis (inputs : List ManagedTensor) (expression : DimensionExpression) : Prop :=
  ∃ (input axis : Int) (item : ManagedTensor), expression = .inputAxis input axis ∧
    inputs[input.toNat]? = some item ∧ item.descriptor.shape.length ≤ axis

/-- The evaluation of the expression evaluates a missing axis. -/
def MissesAxis (inputs : List ManagedTensor) (scalars : List Value)
    (expression : DimensionExpression) : Prop :=
  ∃ part, Visits scalars expression part ∧ NamesMissingAxis inputs part

/-- The evaluation of a shape evaluates a missing axis. -/
def ShapeExpression.MissesAxis (inputs : List ManagedTensor) (scalars : List Value) :
    ShapeExpression → Prop
  | .sameShapeAsInput _ => False
  | .dimensions values => ∃ value ∈ values, Invocation.MissesAxis inputs scalars value

/-- The evaluation of a plan evaluates a missing axis. -/
def OutputPlan.MissesAxis (inputs : List ManagedTensor) (scalars : List Value)
    (plan : OutputPlan) : Prop :=
  ∃ known ∈ plan.known, known.shape.MissesAxis inputs scalars

section
variable {inputs : List ManagedTensor} {scalars : List Value}

/-- A constant misses no axis. -/
theorem not_missesAxis_constant (value : Int) : ¬ MissesAxis inputs scalars (.constant value) := by
  rintro ⟨part, hvisits, input, axis, item, rfl, -⟩
  cases hvisits

/-- The size of an axis misses it when the input has none. -/
theorem missesAxis_inputAxis_iff {input axis : Int} {item : ManagedTensor}
    (hitem : inputs[input.toNat]? = some item) :
    MissesAxis inputs scalars (.inputAxis input axis) ↔ item.descriptor.shape.length ≤ axis := by
  constructor
  · rintro ⟨part, hvisits, other, otherAxis, found, rfl, hfound, hrank⟩
    cases hvisits
    rw [hitem] at hfound
    cases hfound
    exact hrank
  · intro hrank
    exact ⟨_, .self _, input, axis, item, rfl, hitem, hrank⟩

/-- A minimum misses an axis when an operand does. -/
theorem missesAxis_minimum_iff {values : List DimensionExpression} :
    MissesAxis inputs scalars (.minimum values) ↔
      ∃ value ∈ values, MissesAxis inputs scalars value := by
  constructor
  · rintro ⟨part, hvisits, hmissing⟩
    cases hvisits with
    | self =>
      obtain ⟨_, _, _, heq, -⟩ := hmissing
      cases heq
    | operand hvalue hpart => exact ⟨_, hvalue, part, hpart, hmissing⟩
  · rintro ⟨value, hvalue, part, hpart, hmissing⟩
    exact ⟨part, .operand hvalue hpart, hmissing⟩

/-- A selection misses an axis when the side that it takes does. -/
theorem missesAxis_select_iff {scalarParameter : Int} {whenTrue whenFalse : DimensionExpression}
    {scalar : Value} (hscalar : scalars[scalarParameter.toNat]? = some scalar) :
    MissesAxis inputs scalars (.select scalarParameter whenTrue whenFalse) ↔
      MissesAxis inputs scalars (if isTrue scalar then whenTrue else whenFalse) := by
  constructor
  · rintro ⟨part, hvisits, hmissing⟩
    cases hvisits with
    | self =>
      obtain ⟨_, _, _, heq, -⟩ := hmissing
      cases heq
    | branch hfound hpart =>
      rw [hscalar] at hfound
      cases hfound
      exact ⟨part, hpart, hmissing⟩
  · rintro ⟨part, hpart, hmissing⟩
    exact ⟨part, .branch hscalar hpart, hmissing⟩

end

/-! ### What the call supplies -/

/-- The inputs of a call: managed tensors, whose dtypes `_validate_tensor_dtypes` has accepted,
of rank 1 to 16 and with positive dimensions. -/
structure CallInputs (operation : OperationMetadata) (inputs : List ManagedTensor) : Prop where
  accepted : ∃ tensors, validateTensorDtypes operation tensors = .ok () ∧
    inputs.map (fun input => input.descriptor.dtype) = tensors.map Tensor.dtype
  /-- A manager has no tensors of other dtypes: `dtype_of_shareInput`. -/
  managed : ∀ input ∈ inputs, input.descriptor.dtype ∈ ITEM_SIZES.map Prod.fst
  shapes : ∀ input ∈ inputs, ValidShape input.descriptor.shape

/-- What the evaluator needs of a call. -/
structure Supplies (operation : OperationMetadata) (inputs : List ManagedTensor)
    (scalars : List Value) : Prop where
  count : inputs.length = operation.tensorInputs.length
  shapes : ∀ input ∈ inputs, ValidShape input.descriptor.shape
  dtypes : ∀ input ∈ inputs, input.descriptor.dtype ∈ SUPPORTED_OUTPUT_DTYPES
  kinds : List.Forall₂ HasKind operation.scalarParameters scalars

/-- A bound call has what the evaluator needs. -/
theorem CallInputs.supplies {operation : OperationMetadata} {inputs : List ManagedTensor}
    {scalars : List Value} (h : CallInputs operation inputs)
    (hscalars : List.Forall₂ HasKind operation.scalarParameters scalars) :
    Supplies operation inputs scalars where
  count := by
    obtain ⟨tensors, haccepted, hdtypes⟩ := h.accepted
    rw [validateTensorDtypes, Result.bind_ok_iff] at haccepted
    obtain ⟨pairs, hpairs, -⟩ := haccepted
    have hlength := congrArg List.length hdtypes
    rw [List.length_map, List.length_map] at hlength
    rw [hlength, (zipStrict_ok_iff.mp hpairs).1]
  shapes := h.shapes
  dtypes := h.managed
  kinds := hscalars

/-! ### The evaluators -/

/-- `items[index]` for an index in range. -/
theorem getItem_ok {α : Type} {items : List α} {index : Int} (hnonneg : 0 ≤ index)
    (hlt : index < items.length) :
    ∃ item, items[index.toNat]? = some item ∧ getItem items index = .ok item := by
  have hindex : index.toNat < items.length := by omega
  refine ⟨items[index.toNat], List.getElem?_eq_getElem hindex, ?_⟩
  rw [getItem, if_neg (not_lt.mpr hnonneg), List.getElem?_eq_getElem hindex]
  exact if_neg (by omega)

/-- An index that passes is a position. -/
theorem validateIndex_ok {index : Int} {length : Nat} {kind : String}
    (h : validateIndex index length kind = .ok ()) : 0 ≤ index ∧ index < length := by
  rw [validateIndex, raiseIf_ok_iff] at h
  omega

section
variable {operation : OperationMetadata} {inputs : List ManagedTensor} {scalars : List Value}

/-- An input of the call. -/
theorem Supplies.input (h : Supplies operation inputs scalars) {index : Int} {kind : String}
    (hvalid : validateIndex index operation.tensorInputs.length kind = .ok ()) :
    ∃ item ∈ inputs, inputs[index.toNat]? = some item ∧ getItem inputs index = .ok item := by
  obtain ⟨hnonneg, hlt⟩ := validateIndex_ok hvalid
  rw [← h.count] at hlt
  obtain ⟨item, hitem, hget⟩ := getItem_ok hnonneg hlt
  exact ⟨item, List.mem_of_getElem? hitem, hitem, hget⟩

/-- A scalar of the call has the kind of its parameter. -/
theorem Supplies.scalar (h : Supplies operation inputs scalars) {index : Int} {kind : String}
    (hvalid : validateIndex index operation.scalarParameters.length kind = .ok ()) :
    ∃ parameter scalar, operation.scalarParameters[index.toNat]? = some parameter ∧
      HasKind parameter scalar ∧ scalars[index.toNat]? = some scalar ∧
        getItem scalars index = .ok scalar := by
  obtain ⟨hnonneg, hlt⟩ := validateIndex_ok hvalid
  have hlength := h.kinds.length_eq
  have hltScalars : index < scalars.length := by omega
  obtain ⟨scalar, hscalar, hget⟩ := getItem_ok hnonneg hltScalars
  have hindex : index.toNat < operation.scalarParameters.length := by omega
  refine ⟨operation.scalarParameters[index.toNat], scalar, List.getElem?_eq_getElem hindex, ?_,
    hscalar, hget⟩
  obtain ⟨hscalarIndex, rfl⟩ := List.getElem?_eq_some_iff.mp hscalar
  exact h.kinds.get hindex hscalarIndex

mutual
/-- A dimension that the validator accepts is positive, unless an axis is missing. The induction
is on the expression. -/
theorem evaluateDimension_settles (h : Supplies operation inputs scalars) :
    ∀ (expression : DimensionExpression) (depth : Nat),
      validateDimension operation depth expression = .ok () →
      Settles (MissesAxis inputs scalars expression) missingAxis (fun dimension => 0 < dimension)
        (evaluateDimension inputs scalars expression)
  | .constant value, depth, hvalid => by
    rw [validateDimension] at hvalid
    simp only [Result.check_bind_ok_iff, raiseIf_ok_iff, not_le] at hvalid
    rw [evaluateDimension]
    exact .ok hvalid.2 (not_missesAxis_constant value)
  | .inputAxis input axis, depth, hvalid => by
    rw [validateDimension] at hvalid
    simp only [Result.check_bind_ok_iff, raiseIf_ok_iff, not_or, not_lt, not_le] at hvalid
    obtain ⟨-, hinput, haxis, -⟩ := hvalid
    obtain ⟨item, hmem, hitem, hget⟩ := h.input hinput
    rw [evaluateDimension, hget, Result.ok_bind]
    show Settles _ _ _ (raiseIf (axis ≥ item.descriptor.shape.length) missingAxis >>= fun _ =>
      getItem item.descriptor.shape axis)
    by_cases hrank : item.descriptor.shape.length ≤ axis
    · right
      refine ⟨(missesAxis_inputAxis_iff hitem).mpr hrank, ?_⟩
      rw [raiseIf, if_pos hrank]
      rfl
    · obtain ⟨dimension, hdimension, hgetAxis⟩ := getItem_ok haxis (not_le.mp hrank)
      rw [raiseIf, if_neg hrank, Result.ok_bind, hgetAxis]
      have hpositive := (h.shapes item hmem).positive dimension (List.mem_of_getElem? hdimension)
      exact .ok hpositive ((missesAxis_inputAxis_iff hitem).not.mpr hrank)
  | .minimum values, depth, hvalid => by
    rw [validateDimension] at hvalid
    simp only [Result.check_bind_ok_iff, raiseIf_ok_iff] at hvalid
    obtain ⟨-, hne, hvalues⟩ := hvalid
    rw [evaluateDimension]
    apply Settles.of_iff _ ((or_false _).to_iff.trans missesAxis_minimum_iff.symm)
    apply (evaluateDimensions_settles h values (depth + 1) hvalues).bind
    intro dimensions hdimensions
    -- There is an operand, and the minimum is one of the values.
    cases hmin : dimensions.min? with
    | none =>
      rw [List.min?_eq_none_iff] at hmin
      subst hmin
      cases hdimensions
      exact absurd rfl hne
    | some dimension =>
      have hmem : dimension ∈ dimensions := List.min?_mem hmin
      exact .ok (forall_mem_of_forall₂ hdimensions dimension hmem) not_false
  | .select scalarParameter whenTrue whenFalse, depth, hvalid => by
    rw [validateDimension] at hvalid
    simp only [Result.check_bind_ok_iff, raiseIf_ok_iff] at hvalid
    obtain ⟨-, hindex, -, htrue, hfalse⟩ := hvalid
    obtain ⟨-, scalar, -, -, hscalar, hget⟩ := h.scalar hindex
    rw [evaluateDimension, hget, Result.ok_bind]
    apply Settles.of_iff _ (missesAxis_select_iff hscalar).symm
    by_cases hbranch : isTrue scalar = true
    · rw [if_pos hbranch, if_pos hbranch]
      exact evaluateDimension_settles h whenTrue (depth + 1) htrue
    · rw [if_neg hbranch, if_neg hbranch]
      exact evaluateDimension_settles h whenFalse (depth + 1) hfalse

/-- The same of a list of dimensions. -/
theorem evaluateDimensions_settles (h : Supplies operation inputs scalars) :
    ∀ (values : List DimensionExpression) (depth : Nat),
      validateDimensions operation depth values = .ok () →
      Settles (∃ value ∈ values, MissesAxis inputs scalars value) missingAxis
        (List.Forall₂ (fun _ dimension => 0 < dimension) values)
        (evaluateDimensions inputs scalars values)
  | [], depth, _ => by
    rw [evaluateDimensions]
    exact .ok .nil (by simp)
  | value :: values, depth, hvalid => by
    rw [validateDimensions, Result.check_bind_ok_iff] at hvalid
    rw [evaluateDimensions]
    have hfirst := evaluateDimension_settles h value depth hvalid.1
    have hrest := evaluateDimensions_settles h values depth hvalid.2
    apply (Settles.cons (R := fun _ dimension => 0 < dimension) hfirst hrest).of_iff
    simp only [List.mem_cons, exists_eq_or_imp]
end

/-- A shape that the validator accepts passes the check on shapes, unless an axis is missing. -/
theorem evaluateShape_settles (h : Supplies operation inputs scalars) {name : String}
    {shape : ShapeExpression} (hvalid : validateShape name operation shape = .ok ()) :
    Settles (shape.MissesAxis inputs scalars) missingAxis ValidShape
      (evaluateShape inputs scalars shape) := by
  cases shape with
  | sameShapeAsInput input =>
    obtain ⟨item, hmem, -, hget⟩ := h.input hvalid
    rw [evaluateShape, hget, Result.ok_bind]
    exact .ok (h.shapes item hmem) not_false
  | dimensions values =>
    rw [validateShape] at hvalid
    simp only [Result.check_bind_ok_iff, raiseIf_ok_iff, not_or, List.isEmpty_iff, not_lt,
      gt_iff_lt] at hvalid
    obtain ⟨⟨hne, hrank⟩, hvalues⟩ := hvalid
    apply (evaluateDimensions_settles h values 0 hvalues).imp
    intro dimensions hdimensions
    have hlength := hdimensions.length_eq
    refine ⟨?_, ?_, forall_mem_of_forall₂ hdimensions⟩
    · rintro rfl
      exact hne (List.eq_nil_of_length_eq_zero hlength)
    · rw [← hlength]
      exact hrank

/-- `torch.result_type` of a supported dtype and a scalar that is no text is supported. -/
def PromotesSupported (resultType : TensorDescriptor → Value → String) : Prop :=
  ∀ descriptor scalar, descriptor.dtype ∈ SUPPORTED_OUTPUT_DTYPES →
    (∀ text, scalar ≠ .str text) → resultType descriptor scalar ∈ SUPPORTED_OUTPUT_DTYPES

/-- Some tensor input carries each dtype variable. -/
def VariablesCarried (operation : OperationMetadata) : Prop :=
  ∀ declared ∈ operation.dtypeVariables,
    ∃ parameter ∈ operation.tensorInputs, parameter.dtypeVariable = some declared.name

/-- A dtype that the validator accepts evaluates to a supported one. -/
theorem evaluateDtype_ok {resultType : TensorDescriptor → Value → String}
    (hpromotes : PromotesSupported resultType) (hcarried : VariablesCarried operation)
    (h : Supplies operation inputs scalars) {name : String} {dtype : DTypeExpression}
    (hvalid : validateDtype name operation dtype = .ok ()) :
    ∃ result, evaluateDtype resultType operation inputs scalars dtype = .ok result ∧
      result ∈ SUPPORTED_OUTPUT_DTYPES := by
  cases dtype with
  | fixed value =>
    rw [validateDtype, raiseIf_ok_iff, not_not] at hvalid
    exact ⟨value, rfl, hvalid⟩
  | input index =>
    obtain ⟨item, hmem, -, hget⟩ := h.input hvalid
    rw [evaluateDtype, hget]
    exact ⟨_, rfl, h.dtypes item hmem⟩
  | dtypeVariable variableName =>
    rw [validateDtype, raiseIf_ok_iff, not_not] at hvalid
    obtain ⟨declared, hdeclared, rfl⟩ := List.mem_map.mp hvalid
    obtain ⟨parameter, hparameter, hvariable⟩ := hcarried declared hdeclared
    rw [evaluateDtype]
    cases hfound : operation.tensorInputs.findIdx? fun parameter =>
        parameter.dtypeVariable = some declared.name with
    | none =>
      have hnone := List.findIdx?_eq_none_iff.mp hfound parameter hparameter
      exact absurd hvariable (of_decide_eq_false hnone)
    | some index =>
      have hindex := (List.findIdx?_eq_some_iff_getElem.mp hfound).1
      have hlt : (index : Int) < inputs.length := by
        rw [h.count]
        exact_mod_cast hindex
      obtain ⟨item, hitem, hget⟩ := getItem_ok (Int.natCast_nonneg index) hlt
      refine ⟨item.descriptor.dtype, ?_, h.dtypes item (List.mem_of_getElem? hitem)⟩
      simp only [hget, Result.ok_bind]
      rfl
  | promoteTensorScalar tensorInput scalarParameter =>
    rw [validateDtype] at hvalid
    simp only [Result.check_bind_ok_iff, raiseIf_ok_iff] at hvalid
    obtain ⟨hinput, hscalar, htext⟩ := hvalid
    obtain ⟨item, hmem, -, hget⟩ := h.input hinput
    obtain ⟨parameter, scalar, hparameter, hkind, -, hgetScalar⟩ := h.scalar hscalar
    have hnotText : ∀ text, scalar ≠ .str text := by
      rintro text rfl
      rw [hparameter] at htext
      exact htext (congrArg some hkind)
    refine ⟨resultType item.descriptor scalar, ?_,
      hpromotes item.descriptor scalar (h.dtypes item hmem) hnotText⟩
    rw [evaluateDtype, hgetScalar, Result.ok_bind, hget]
    cases scalar with
    | str text => exact absurd rfl (hnotText text)
    | bool b => rfl
    | float bits => rfl
    | int n => rfl

end

/-! ### The plans -/

/-- The result of a plan: none for a dynamic output, and a valid shape and dtype for a known
one. -/
def PlanReturns (plan : OutputPlan) (result : Option OutputSpec) : Prop :=
  match plan.known with
  | none => result = none
  | some _ => ∃ shape dtype, result = some (shape, dtype) ∧ ValidShape shape ∧
      dtype ∈ SUPPORTED_OUTPUT_DTYPES

/-- The known outputs of metadata that has passed the validation have passed theirs. -/
theorem validateKnownOutput_of_valid {operation : OperationMetadata}
    (h : validateOperationMetadata operation = .ok ()) :
    ∀ plan ∈ operation.outputPlans, ∀ known ∈ plan.known,
      validateKnownOutput plan.name known operation = .ok () := by
  have hlength := length_outputPlans_of_valid h
  simp only [validateOperationMetadata, Result.bind_ok_iff, raiseIf_ok_iff, exists_const,
    zipStrict_ok_iff] at h
  obtain ⟨-, -, -, -, -, -, -, -, -, -, -, outputs, ⟨-, rfl⟩, h⟩ := h
  have hall := Result.forM_ok_iff.mp h
  intro plan hplan known hknown
  obtain ⟨index, hindex, rfl⟩ := List.getElem_of_mem hplan
  have hpair : (operation.tensorOutputs[index], operation.outputPlans[index]) ∈
      operation.tensorOutputs.zip operation.outputPlans := by
    rw [List.mem_iff_getElem]
    exact ⟨index, by rw [List.length_zip]; omega, List.getElem_zip⟩
  have hvalid := hall _ hpair
  rw [validateOutput] at hvalid
  rw [Option.mem_def] at hknown
  simp only [Result.check_bind_ok_iff, hknown] at hvalid
  exact hvalid.2

/-- The evaluation of one output settles. -/
theorem evaluateOutput_settles {resultType : TensorDescriptor → Value → String}
    {operation : OperationMetadata} {inputs : List ManagedTensor} {scalars : List Value}
    (hpromotes : PromotesSupported resultType) (hcarried : VariablesCarried operation)
    (h : Supplies operation inputs scalars) {plan : OutputPlan}
    (hvalid : ∀ known ∈ plan.known, validateKnownOutput plan.name known operation = .ok ()) :
    Settles (plan.MissesAxis inputs scalars) missingAxis (PlanReturns plan)
      (evaluateOutput resultType operation inputs scalars plan) := by
  unfold evaluateOutput PlanReturns OutputPlan.MissesAxis
  cases hknown : plan.known with
  | none => exact .ok rfl (by simp)
  | some known =>
    obtain ⟨hshape, hdtype⟩ := Result.check_bind_ok_iff.mp (hvalid known hknown)
    obtain ⟨dtype, heval, hsupported⟩ := evaluateDtype_ok hpromotes hcarried h hdtype
    have hmisses : (∃ other ∈ some known, other.shape.MissesAxis inputs scalars) ↔
        known.shape.MissesAxis inputs scalars ∨ False := by simp
    apply Settles.of_iff _ hmisses.symm
    apply (evaluateShape_settles h hshape).bind
    intro shape hvalidShape
    have hchecked : checkShape operation shape = .ok () := checkShape_ok_iff.mpr hvalidShape
    rw [hchecked, Result.ok_bind, heval]
    exact .ok ⟨shape, dtype, rfl, hvalidShape, hsupported⟩ not_false

/-- `evaluate_outputs` on validated metadata and a bound call. It returns none for each dynamic
output and a valid shape and dtype for each known one, or it raises the error for a missing axis.
It raises exactly when some plan evaluates a missing axis. -/
theorem evaluateOutputs_settles {resultType : TensorDescriptor → Value → String}
    (table : CaseTable) {operation : OperationMetadata} {inputs : List ManagedTensor}
    (args : List Object) (kwargs : Keywords) {scalars : List Value}
    (hvalid : validateOperationMetadata operation = .ok ())
    (hcarried : VariablesCarried operation) (hinputs : CallInputs operation inputs)
    (hscalars : bindScalars table operation args kwargs = .ok scalars)
    (hpromotes : PromotesSupported resultType) :
    Settles (∃ plan ∈ operation.outputPlans, plan.MissesAxis inputs scalars) missingAxis
      (List.Forall₂ PlanReturns operation.outputPlans)
      (evaluateOutputs resultType operation inputs scalars) := by
  have hsupplies := hinputs.supplies
    (forall₂_hasKind_of_bindScalars (validateScalar_of_valid hvalid) hscalars)
  apply Settles.mapM
  intro plan hplan
  exact evaluateOutput_settles hpromotes hcarried hsupplies
    (validateKnownOutput_of_valid hvalid plan hplan)

/-- An operation with a known output, whose size may be that of the second axis of its input, and
a dynamic one. -/
def cropOperation : OperationMetadata where
  name := "crop"
  tensorInputs := [⟨"x", "readOnly", some "T", []⟩]
  tensorOutputs := [⟨"y", "writeOnly", none, []⟩, ⟨"z", "writeOnly", none, []⟩]
  scalarParameters := [⟨"wide", "boolean", true, none, none, []⟩]
  operationId := 1
  outputPlans :=
    [⟨"y", some ⟨.dimensions [.select 0 (.inputAxis 0 1) (.constant 3)],
        .promoteTensorScalar 0 0⟩⟩, ⟨"z", none⟩]
  dtypeVariables := [⟨"T", ["float32", "float64"]⟩]

/-- A shared vector of two numbers. -/
def sharedVector : ManagedTensor where
  descriptor := ⟨2, 1, 1, 0, 8, "float32", [2], [4]⟩
  buffer := sharedInput.buffer

/-- `torch.result_type` for a float tensor, and for a scalar that is no float. -/
def promoteFloats (descriptor : TensorDescriptor) : Value → String
  | .float _ => if descriptor.dtype ∈ ["int64", "uint8"] then "float32" else descriptor.dtype
  | _ => descriptor.dtype

/-- The sample promotes to supported dtypes. -/
theorem promoteFloats_supported : PromotesSupported promoteFloats := by
  intro descriptor scalar hdtype _
  unfold promoteFloats
  split
  · split
    · decide
    · exact hdtype
  · exact hdtype

/-- An input of the sample carries its dtype variable. -/
theorem cropOperation_carried : VariablesCarried cropOperation := by
  unfold VariablesCarried
  decide

/-- A vector has no second axis. -/
theorem evaluateOutputs_crop :
    Settles (∃ plan ∈ cropOperation.outputPlans, plan.MissesAxis [sharedVector] [.bool true])
      missingAxis (List.Forall₂ PlanReturns cropOperation.outputPlans)
      (evaluateOutputs promoteFloats cropOperation [sharedVector] [.bool true]) ∧
    evaluateOutputs promoteFloats cropOperation [sharedVector] [.bool true]
      = .error missingAxis := by
  refine ⟨evaluateOutputs_settles .ascii [.value (.bool true)] ∅
    (by decide +kernel) cropOperation_carried ⟨⟨[plainTensor], rfl, rfl⟩, by decide, ?_⟩ rfl
    promoteFloats_supported, rfl⟩
  intro input hinput
  rw [List.mem_singleton] at hinput
  subst hinput
  exact ⟨by decide, by decide, by decide⟩

end Wmfs.Invocation
