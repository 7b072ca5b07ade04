import Wmfs.Compiler.Accepted
import Wmfs.Manifest.Fingerprints

/-!
# `Wmfs.Manifest.Acceptance`: which generated manifests the runtime loads

The compiler and the runtime validate the operations of a plugin separately. This module compares
the two validators on the metadata that the runtime reads from a generated manifest.

Most rules of the runtime follow from those of the compiler. The rest is `OperationLoadable`: the
nesting of dimensions, the rank of an output, the kinds of the scalars that an expression reads,
mutable inputs beside dynamic outputs, and five rules about a gradient and its target. The
manifest of an accepted interface loads exactly when every operation is loadable
(`loadMetadata_manifest_iff`).
-/

set_option autoImplicit false

namespace Wmfs.Manifest

open Wmfs.Lib
open Wmfs.Lib.Utf8 (Text ofString)
open Wmfs.Lib.Document (Members get? membersOf)
open Wmfs.Compiler (InRange OperationValid VjpValid targetOf)
open Wmfs.Invocation (validateIndex validateOperationMetadata MAX_EXPRESSION_DEPTH MAX_RANK
  SUPPORTED_OUTPUT_DTYPES)

/-! ### The rules that only the runtime has -/

mutual
/-- How deeply the operands of a dimension are nested. -/
def nesting : Compiler.Dimension → Nat
  | .constant _ _ => 0
  | .inputAxis _ _ => 0
  | .minimum first second rest => max (nesting first) (max (nesting second) (nestings rest)) + 1
  | .select _ whenTrue whenFalse => max (nesting whenTrue) (nesting whenFalse) + 1

/-- The deepest nesting in a list. -/
def nestings : List Compiler.Dimension → Nat
  | [] => 0
  | dimension :: dimensions => max (nesting dimension) (nestings dimensions)
end

mutual
/-- The scalars that a dimension selects on. -/
def selectors : Compiler.Dimension → List Int
  | .constant _ _ => []
  | .inputAxis _ _ => []
  | .minimum first second rest => selectors first ++ (selectors second ++ selectorsOf rest)
  | .select scalar whenTrue whenFalse => scalar :: (selectors whenTrue ++ selectors whenFalse)

/-- The scalars that the dimensions of a list select on. -/
def selectorsOf : List Compiler.Dimension → List Int
  | [] => []
  | dimension :: dimensions => selectors dimension ++ selectorsOf dimensions
end

/-- The kind of the scalar at an index. -/
def scalarKindAt (operation : Compiler.Operation) (index : Int) : Option String :=
  operation.scalars[index.toNat]?.map Compiler.ScalarParameter.kind

/-- The runtime accepts a dimension that stands at this depth. -/
def DimensionLoadable (operation : Compiler.Operation) (depth : Nat)
    (value : Compiler.Dimension) : Prop :=
  depth + nesting value < MAX_EXPRESSION_DEPTH ∧
    ∀ scalar ∈ selectors value, scalarKindAt operation scalar = some "boolean"

/-- The runtime accepts a shape. -/
def ShapeLoadable (operation : Compiler.Operation) : Compiler.Shape → Prop
  | .dimensions values => values ≠ [] ∧ ∀ value ∈ values, DimensionLoadable operation 0 value
  | .sameShapeAsInput _ => True

/-- The runtime accepts a dtype. -/
def DTypeLoadable (operation : Compiler.Operation) : Compiler.DType → Prop
  | .promoteTensorScalar _ scalar => scalarKindAt operation scalar ≠ some "text"
  | .input _ | .fixed _ | .variable _ => True

/-- The runtime accepts a gradient with this target. -/
structure VjpLoadable (operation target : Compiler.Operation) (vjp : Compiler.Vjp) : Prop where
  target_other : target.operationId ≠ operation.operationId
  target_vjp : target.vjp = none
  inputs_readOnly : ∀ tensor ∈ target.inputs, tensor.access = .readOnly
  cotangents_ne_nil : vjp.outputCotangents ≠ []
  gradients_ne_nil : vjp.inputGradients ≠ []

/-- The runtime accepts the outputs of an operation. -/
structure OutputsLoadable (operation : Compiler.Operation) : Prop where
  dynamic_readOnly : (∃ output ∈ operation.outputs, output.known = none) →
    ∀ tensor ∈ operation.inputs, tensor.access = .readOnly
  shapes : ∀ output ∈ operation.outputs, ∀ known ∈ output.known,
    ShapeLoadable operation known.shape
  dtypes : ∀ output ∈ operation.outputs, ∀ known ∈ output.known,
    DTypeLoadable operation known.dtype

/-- The runtime accepts an operation that the compiler accepts. -/
structure OperationLoadable (operations : List Compiler.Operation)
    (operation : Compiler.Operation) : Prop extends OutputsLoadable operation where
  gradient : ∀ vjp ∈ operation.vjp, ∀ target ∈ targetOf operations vjp,
    VjpLoadable operation target vjp

/-! ### Dimensions -/

/-- The depth of a list of dimensions is bounded when each one's is. -/
theorem add_nestings_lt_iff {values : List Compiler.Dimension} {depth n : Nat} (h : depth < n) :
    depth + nestings values < n ↔ ∀ value ∈ values, depth + nesting value < n := by
  induction values with
  | nil => simpa [nestings] using h
  | cons value values ih =>
    rw [nestings, List.forall_mem_cons, ← ih]
    omega

/-- The selectors in a list of dimensions. -/
theorem forall_mem_selectorsOf {values : List Compiler.Dimension} {P : Int → Prop} :
    (∀ scalar ∈ selectorsOf values, P scalar) ↔
      ∀ value ∈ values, ∀ scalar ∈ selectors value, P scalar := by
  induction values with
  | nil => simp [selectorsOf]
  | cons value values ih => rw [selectorsOf, List.forall_mem_append, ih, List.forall_mem_cons]

/-- An index passes when it is a position. -/
theorem validateIndex_ok_iff {index : Int} {length : Nat} {kind : String} {u : Unit} :
    validateIndex index length kind = .ok u ↔ InRange index length := by
  rw [validateIndex, raiseIf_ok_iff, InRange]
  omega

/-- There are as many dimensions in the metadata. -/
theorem length_dimensionsMetadata (values : List Compiler.Dimension) :
    (dimensionsMetadata values).length = values.length := by
  induction values with
  | nil => rfl
  | cons value values ih => rw [dimensionsMetadata, List.length_cons, ih, List.length_cons]

/-- The kind that the runtime sees at an index. -/
theorem kind_scalarParameters (operation : Compiler.Operation) (index : Int) :
    (operationMetadata operation).scalarParameters[index.toNat]?.map
      Invocation.ScalarParameter.kind = scalarKindAt operation index := by
  show (operation.scalars.map scalarMetadata)[index.toNat]?.map _ = _
  rw [List.getElem?_map, Option.map_map]
  rfl

/-- When the runtime accepts a minimum. -/
theorem dimensionLoadable_minimum {operation : Compiler.Operation} {depth : Nat}
    {first second : Compiler.Dimension} {rest : List Compiler.Dimension} :
    DimensionLoadable operation depth (.minimum first second rest) ↔
      depth < MAX_EXPRESSION_DEPTH ∧ DimensionLoadable operation (depth + 1) first ∧
        DimensionLoadable operation (depth + 1) second ∧
          ∀ value ∈ rest, DimensionLoadable operation (depth + 1) value := by
  have hnesting : depth + nesting (.minimum first second rest) < MAX_EXPRESSION_DEPTH ↔
      depth < MAX_EXPRESSION_DEPTH ∧ depth + 1 + nesting first < MAX_EXPRESSION_DEPTH ∧
        depth + 1 + nesting second < MAX_EXPRESSION_DEPTH ∧
          ∀ value ∈ rest, depth + 1 + nesting value < MAX_EXPRESSION_DEPTH := by
    rw [nesting]
    by_cases hdepth : depth + 1 < MAX_EXPRESSION_DEPTH
    · rw [← add_nestings_lt_iff hdepth]
      omega
    · omega
  simp only [DimensionLoadable, hnesting, selectors, List.forall_mem_append,
    forall_mem_selectorsOf, forall₂_and]
  tauto

/-- When the runtime accepts a selection. -/
theorem dimensionLoadable_select {operation : Compiler.Operation} {depth : Nat} {scalar : Int}
    {whenTrue whenFalse : Compiler.Dimension} :
    DimensionLoadable operation depth (.select scalar whenTrue whenFalse) ↔
      depth < MAX_EXPRESSION_DEPTH ∧ scalarKindAt operation scalar = some "boolean" ∧
        DimensionLoadable operation (depth + 1) whenTrue ∧
          DimensionLoadable operation (depth + 1) whenFalse := by
  have hnesting : depth + nesting (.select scalar whenTrue whenFalse) < MAX_EXPRESSION_DEPTH ↔
      depth < MAX_EXPRESSION_DEPTH ∧ depth + 1 + nesting whenTrue < MAX_EXPRESSION_DEPTH ∧
        depth + 1 + nesting whenFalse < MAX_EXPRESSION_DEPTH := by
    rw [nesting]
    omega
  simp only [DimensionLoadable, hnesting, selectors, List.forall_mem_cons, List.forall_mem_append]
  tauto

mutual
/-- On a dimension that the compiler accepts, the runtime asks for the rest. The induction is on
the dimension, with the depth general. -/
theorem validateDimension_iff {operation : Compiler.Operation} :
    ∀ (value : Compiler.Dimension) (depth : Nat),
      Compiler.validateDimension operation depth value = .ok () →
      (Invocation.validateDimension (operationMetadata operation).toOperationMetadata depth
        (dimensionMetadata value) = .ok () ↔ DimensionLoadable operation depth value)
  | .constant value hpos, depth, _ => by
    rw [dimensionMetadata, Invocation.validateDimension]
    simp only [Result.check_bind_ok_iff, raiseIf_ok_iff, not_le, ge_iff_le]
    simp [DimensionLoadable, nesting, selectors, hpos]
  | .inputAxis input axis, depth, h => by
    rw [Compiler.validateDimension] at h
    simp only [Result.check_bind_ok_iff, raiseIf_ok_iff, not_not] at h
    obtain ⟨_, hinput, haxis⟩ := h
    have hlength : (operationMetadata operation).tensorInputs.length = operation.inputs.length :=
      List.length_map _
    rw [dimensionMetadata, Invocation.validateDimension]
    simp only [Result.check_bind_ok_iff, raiseIf_ok_iff, validateIndex_ok_iff, hlength]
    have haxis : 0 ≤ axis ∧ axis < (MAX_RANK : Int) := haxis
    simp only [DimensionLoadable, nesting, selectors, List.not_mem_nil]
    constructor
    · intro ⟨hdepth, _⟩
      exact ⟨not_le.mp hdepth, fun _ h => h.elim⟩
    · intro ⟨hdepth, _⟩
      exact ⟨not_le.mpr hdepth, hinput, by omega⟩
  | .minimum first second rest, depth, h => by
    rw [Compiler.validateDimension] at h
    simp only [Result.check_bind_ok_iff, raiseIf_ok_iff] at h
    obtain ⟨_, hfirst, hsecond, hrest⟩ := h
    have ihfirst := validateDimension_iff first (depth + 1) hfirst
    have ihsecond := validateDimension_iff second (depth + 1) hsecond
    have ihrest := validateDimensions_iff rest (depth + 1) hrest
    rw [dimensionMetadata, Invocation.validateDimension]
    simp only [Result.check_bind_ok_iff, raiseIf_ok_iff, Invocation.validateDimensions,
      ihfirst, ihsecond, ihrest, dimensionLoadable_minimum, not_le, ge_iff_le, List.isEmpty_cons,
      Bool.false_eq_true, not_false_eq_true, true_and]
  | .select scalar whenTrue whenFalse, depth, h => by
    rw [Compiler.validateDimension] at h
    simp only [Result.check_bind_ok_iff, raiseIf_ok_iff, not_not] at h
    obtain ⟨_, hscalar, htrue, hfalse⟩ := h
    have ihtrue := validateDimension_iff whenTrue (depth + 1) htrue
    have ihfalse := validateDimension_iff whenFalse (depth + 1) hfalse
    have hlength : (operationMetadata operation).scalarParameters.length =
        operation.scalars.length := List.length_map _
    rw [dimensionMetadata, Invocation.validateDimension]
    simp only [Result.check_bind_ok_iff, raiseIf_ok_iff, validateIndex_ok_iff, hlength,
      hscalar, kind_scalarParameters, ihtrue, ihfalse, dimensionLoadable_select, not_le, ge_iff_le,
      ne_eq, not_not, true_and]

/-- When the runtime accepts a list of dimensions. -/
theorem validateDimensions_iff {operation : Compiler.Operation} :
    ∀ (values : List Compiler.Dimension) (depth : Nat),
      Compiler.validateDimensions operation depth values = .ok () →
      (Invocation.validateDimensions (operationMetadata operation).toOperationMetadata depth
        (dimensionsMetadata values) = .ok () ↔
        ∀ value ∈ values, DimensionLoadable operation depth value)
  | [], depth, _ => by
    rw [dimensionsMetadata, Invocation.validateDimensions]
    simp
  | value :: values, depth, h => by
    rw [Compiler.validateDimensions] at h
    obtain ⟨hfirst, hrest⟩ := Result.check_bind_ok_iff.mp h
    have ihfirst := validateDimension_iff value depth hfirst
    have ihrest := validateDimensions_iff values depth hrest
    rw [dimensionsMetadata, Invocation.validateDimensions, List.forall_mem_cons, ← ihfirst,
      ← ihrest]
    exact Result.check_bind_ok_iff
end

/-! ### Outputs -/

/-- When the runtime accepts a shape. -/
theorem validateShape_iff {operation : Compiler.Operation} {shape : Compiler.Shape}
    (h : Compiler.validateShape operation shape = .ok ()) (name : String) :
    Invocation.validateShape name (operationMetadata operation).toOperationMetadata
      (shapeMetadata shape) = .ok () ↔ ShapeLoadable operation shape := by
  cases shape with
  | sameShapeAsInput input =>
    rw [Compiler.validateShape, raiseIf_ok_iff, not_not] at h
    have hlength : (operationMetadata operation).tensorInputs.length = operation.inputs.length :=
      List.length_map _
    rw [shapeMetadata, Invocation.validateShape, validateIndex_ok_iff, hlength]
    exact iff_of_true h trivial
  | dimensions values =>
    obtain ⟨hrank, hvalues⟩ := Result.check_bind_ok_iff.mp h
    rw [raiseIf_ok_iff] at hrank
    have hlength : (dimensionsMetadata values).length = values.length :=
      length_dimensionsMetadata values
    have hempty : (dimensionsMetadata values).isEmpty = true ↔ values = [] := by
      rw [List.isEmpty_iff, ← List.length_eq_zero_iff, hlength, List.length_eq_zero_iff]
    rw [shapeMetadata, Invocation.validateShape, Result.check_bind_ok_iff, raiseIf_ok_iff, hempty,
      hlength, validateDimensions_iff values 0 hvalues, ShapeLoadable, MAX_RANK]
    tauto

/-- The dtype variables keep their names. -/
theorem names_dtypeVariables (operation : Compiler.Operation) :
    (operationMetadata operation).dtypeVariables.map Invocation.DTypeVariable.name =
      (operation.dtypeVariables.map Compiler.DTypeVariable.name).map Compiler.Identifier.name := by
  show (operation.dtypeVariables.map dtypeVariableMetadata).map _ = _
  rw [List.map_map, List.map_map]
  rfl

/-- When the runtime accepts a dtype. -/
theorem validateDType_iff {operation : Compiler.Operation} {dtype : Compiler.DType}
    (h : Compiler.validateDType operation dtype = .ok ()) (name : String) :
    Invocation.validateDtype name (operationMetadata operation).toOperationMetadata
      (dtypeMetadata dtype) = .ok () ↔ DTypeLoadable operation dtype := by
  have hinputs : (operationMetadata operation).tensorInputs.length = operation.inputs.length :=
    List.length_map _
  have hscalars : (operationMetadata operation).scalarParameters.length =
      operation.scalars.length := List.length_map _
  cases dtype with
  | input index =>
    rw [Compiler.validateDType, raiseIf_ok_iff, not_not] at h
    rw [dtypeMetadata, Invocation.validateDtype, validateIndex_ok_iff, hinputs]
    exact iff_of_true h trivial
  | fixed value =>
    rw [Compiler.validateDType, raiseIf_ok_iff, not_not] at h
    obtain ⟨supported, hsupported, heq⟩ := List.mem_map.mp h
    rw [dtypeMetadata, Invocation.validateDtype, raiseIf_ok_iff, not_not, ← heq,
      Utf8.toString_ofString]
    exact iff_of_true hsupported trivial
  | «variable» declared =>
    rw [Compiler.validateDType, raiseIf_ok_iff, not_not] at h
    rw [dtypeMetadata, Invocation.validateDtype, raiseIf_ok_iff, not_not, names_dtypeVariables]
    exact iff_of_true (List.mem_map_of_mem h) trivial
  | promoteTensorScalar input scalar =>
    obtain ⟨hinput, hscalar⟩ := Result.check_bind_ok_iff.mp h
    rw [raiseIf_ok_iff, not_not] at hinput hscalar
    rw [dtypeMetadata, Invocation.validateDtype]
    simp only [Result.check_bind_ok_iff, validateIndex_ok_iff, raiseIf_ok_iff, hinputs, hscalars,
      kind_scalarParameters, hinput, hscalar, true_and, DTypeLoadable, ne_eq]

/-- The runtime accepts the outputs that the compiler accepts when it accepts their expressions. -/
theorem validateOutputs_iff {operation : Compiler.Operation}
    (h : ∀ output ∈ operation.outputs,
      Compiler.validateOutputReferences operation output = .ok ()) :
    (∀ entry ∈ (operationMetadata operation).tensorOutputs.zip
        (operationMetadata operation).outputPlans,
      Invocation.validateOutput (operationMetadata operation).toOperationMetadata entry = .ok ()) ↔
      ∀ output ∈ operation.outputs, ∀ known ∈ output.known,
        ShapeLoadable operation known.shape ∧ DTypeLoadable operation known.dtype := by
  show (∀ entry ∈ (operation.outputs.map _).zip (operation.outputs.map _), _) ↔ _
  rw [List.zip_map', List.forall_mem_map]
  refine forall₂_congr fun output hmem => ?_
  have houtput := h output hmem
  rw [Invocation.validateOutput, Result.check_bind_ok_iff, raiseIf_ok_iff]
  simp only [outputMetadata, ne_eq, not_true_eq_false, not_false_eq_true, true_and]
  cases hknown : output.known with
  | none =>
    show Except.ok () = Except.ok () ↔ _
    simp
  | some known =>
    rw [Compiler.validateOutputReferences, hknown] at houtput
    obtain ⟨hshape, hdtype⟩ := Result.check_bind_ok_iff.mp houtput
    simp only [Option.map_some, Option.mem_some_iff, forall_eq', Invocation.validateKnownOutput,
      Result.check_bind_ok_iff, knownMetadata, validateShape_iff hshape, validateDType_iff hdtype]

/-! ### Parameters -/

/-- A default stands in the metadata when it stands in the model. -/
theorem defaultMetadata_eq_none_iff (scalar : Compiler.ScalarParameter) :
    defaultMetadata scalar.type = none ↔ scalar.default = none := by
  unfold defaultMetadata Compiler.ScalarParameter.default
  cases scalar.type <;> simp

/-- The default of a plain scalar is of its kind. -/
theorem scalarMatchesKind_default {scalar : Compiler.ScalarParameter} {value : Ring.Codec.Value}
    (hplain : scalar.declaration = none) (h : defaultMetadata scalar.type = some value) :
    Invocation.scalarMatchesKind value scalar.kind = true := by
  obtain ⟨name, type⟩ := scalar
  cases type with
  | enum declaration default => cases hplain
  | _ default =>
    obtain ⟨default, _, rfl⟩ := Option.map_eq_some_iff.mp h
    rfl

/-- The kinds of scalars. -/
theorem kind_mem (scalar : Compiler.ScalarParameter) :
    scalar.kind ∈ ["boolean", "float64", "int64", "text"] := by
  unfold Compiler.ScalarParameter.kind
  split <;> decide

/-- The runtime accepts the values and the default of an enum. -/
theorem validateEnum_scalarMetadata {scalar : Compiler.ScalarParameter} {declaration : Compiler.Enum}
    (h : scalar.declaration = some declaration) :
    scalar.kind = "int64" ∧ (scalarMetadata scalar).enumValues ≠ [] ∧
      (scalarMetadata scalar).enumValues.Nodup ∧
      ∀ value ∈ (scalarMetadata scalar).default,
        value ∈ (scalarMetadata scalar).enumValues.map Ring.Codec.Value.str := by
  have hvalues : (scalarMetadata scalar).enumValues =
      declaration.values.map fun value => ofString value.name := by
    show scalar.enumValues.map _ = _
    rw [Compiler.ScalarParameter.enumValues, h]
    rfl
  rw [hvalues]
  obtain ⟨name, type⟩ := scalar
  cases type with
  | enum found default =>
    cases h
    refine ⟨rfl, ?_, declaration.values_nodup.map Compiler.Identifier.ofString_injective, ?_⟩
    · intro hnil
      exact declaration.values_ne_nil (List.map_eq_nil_iff.mp hnil)
    · intro value hvalue
      obtain ⟨found, _, rfl⟩ := Option.map_eq_some_iff.mp hvalue
      exact List.mem_map_of_mem (List.mem_map_of_mem found.property)
  | _ => cases h

/-- The runtime accepts the scalars that the compiler accepts. -/
theorem validateScalar_scalarMetadata {scalar : Compiler.ScalarParameter}
    (h : scalar.name.name ≠ "out") : Invocation.validateScalar (scalarMetadata scalar) = .ok () := by
  have hrequired : scalar.required = true ↔ (scalarMetadata scalar).default = none := by
    rw [Compiler.ScalarParameter.required, Option.isNone_iff_eq_none]
    exact (defaultMetadata_eq_none_iff scalar).symm
  rw [Invocation.validateScalar]
  simp only [Result.check_bind_ok_iff, raiseIf_ok_iff]
  refine ⟨h, not_not.mpr (kind_mem scalar), fun hbad => hbad.2 (hrequired.mp hbad.1),
    fun hbad => hbad.1 (hrequired.mpr hbad.2), ?_, ?_⟩
  · intro ⟨hplain, value, hvalue, hbad⟩
    have hdeclaration : scalar.declaration = none :=
      Option.map_eq_none_iff.mp (Option.map_eq_none_iff.mp hplain)
    exact hbad (scalarMatchesKind_default hdeclaration hvalue)
  · split
    · rename_i hdeclared
      cases hdeclaration : scalar.declaration with
      | none =>
        refine (hdeclared ?_).elim
        show (scalar.declaration.map _).map _ = none
        rw [hdeclaration]
        rfl
      | some declaration =>
        obtain ⟨hkind, hne, hnodup, hdefault⟩ := validateEnum_scalarMetadata hdeclaration
        simp only [Result.check_bind_ok_iff, raiseIf_ok_iff]
        refine ⟨fun hbad => hbad.elim (fun hne' => hne' hkind) hne, not_not.mpr hnodup, ?_⟩
        intro ⟨value, hvalue, hbad⟩
        exact hbad (hdefault value hvalue)
    · rfl

/-- The runtime accepts a dtype set that the compiler accepts. -/
theorem validateDtypes_names (dtypes : Compiler.DTypes) (what name : String) :
    Invocation.validateDtypes dtypes.names what name = .ok () := by
  rw [Invocation.validateDtypes, raiseIf_ok_iff]
  push Not
  exact ⟨dtypes.names_ne_nil, dtypes.names_nodup, dtypes.names_supported⟩

/-- The runtime accepts the tensors that the compiler accepts. -/
theorem validateTensorInput_tensorMetadata {operation : Compiler.Operation}
    {tensor : Compiler.TensorParameter} (h : ∀ name ∈ tensor.dtypeVariable,
      name ∈ operation.dtypeVariables.map Compiler.DTypeVariable.name) :
    Invocation.validateTensorInput (operationMetadata operation).toOperationMetadata
      (tensorMetadata tensor) = .ok () := by
  obtain ⟨name, access, constraint⟩ := tensor
  cases constraint with
  | any => rfl
  | oneOf dtypes =>
    show (if dtypes.names = [] then Except.ok () else _) = _
    rw [if_neg dtypes.names_ne_nil]
    exact validateDtypes_names dtypes _ _
  | «variable» declared =>
    show raiseIf _ _ = _
    rw [raiseIf_ok_iff, not_not, names_dtypeVariables]
    exact List.mem_map_of_mem (h declared rfl)

/-! ### Operations -/

/-- What `validate_operation_metadata` asks. -/
theorem validateOperationMetadata_ok_iff {operation : Invocation.OperationMetadata} :
    validateOperationMetadata operation = .ok () ↔
      0 < operation.operationId ∧
      operation.outputPlans.length = operation.tensorOutputs.length ∧
      operation.outputPlans.length ≤ Invocation.MAX_OUTPUTS ∧
      ((∃ plan ∈ operation.outputPlans, plan.known.isNone) →
        ∀ item ∈ operation.tensorInputs, item.access ≠ "readWrite") ∧
      (∀ scalar ∈ operation.scalarParameters, Invocation.validateScalar scalar = .ok ()) ∧
      (operation.dtypeVariables.map Invocation.DTypeVariable.name).Nodup ∧
      (∀ item ∈ operation.dtypeVariables,
        Invocation.validateDtypes item.dtypes "Dtype variable " item.name = .ok ()) ∧
      (∀ item ∈ operation.tensorInputs, Invocation.validateTensorInput operation item = .ok ()) ∧
      ∀ entry ∈ operation.tensorOutputs.zip operation.outputPlans,
        Invocation.validateOutput operation entry = .ok () := by
  rw [validateOperationMetadata]
  simp only [Result.check_bind_ok_iff, raiseIf_ok_iff, Result.forM_ok_iff, not_le, gt_iff_lt,
    not_lt, ne_eq, not_not, not_and, not_exists]
  simp only [Result.bind_ok_iff, zipStrict_ok_iff, Result.forM_ok_iff, and_assoc,
    exists_and_left, exists_eq_left']
  constructor
  · rintro ⟨h1, h2, h3, h4, h5, h6, h7, h8, _, h9⟩
    exact ⟨h1, h2, h3, h4, h5, h6, h7, h8, h9⟩
  · rintro ⟨h1, h2, h3, h4, h5, h6, h7, h8, h9⟩
    exact ⟨h1, h2, h3, h4, h5, h6, h7, h8, h2.symm, h9⟩

/-- The metadata has a dynamic output when the operation has one. -/
theorem exists_dynamic_iff (operation : Compiler.Operation) :
    (∃ plan ∈ (operationMetadata operation).outputPlans, plan.known.isNone) ↔
      ∃ output ∈ operation.outputs, output.known = none := by
  show (∃ plan ∈ operation.outputs.map outputMetadata, _) ↔ _
  constructor
  · rintro ⟨plan, hplan, hknown⟩
    obtain ⟨output, hmem, rfl⟩ := List.mem_map.mp hplan
    refine ⟨output, hmem, ?_⟩
    rw [outputMetadata, Option.isNone_map, Option.isNone_iff_eq_none] at hknown
    exact hknown
  · rintro ⟨output, hmem, hknown⟩
    refine ⟨outputMetadata output, List.mem_map_of_mem hmem, ?_⟩
    rw [outputMetadata, hknown]
    rfl

/-- An input of the metadata is mutable when it is in the interface. -/
theorem access_tensorMetadata (tensor : Compiler.TensorParameter) :
    (tensorMetadata tensor).access ≠ "readWrite" ↔ tensor.access = .readOnly := by
  show Compiler.metadataAccess tensor.access ≠ "readWrite" ↔ _
  cases tensor.access <;> decide

/-- An input of the metadata is read-only when it is in the interface. -/
theorem access_eq_readOnly_iff (tensor : Compiler.TensorParameter) :
    (tensorMetadata tensor).access = "readOnly" ↔ tensor.access = .readOnly := by
  show Compiler.metadataAccess tensor.access = "readOnly" ↔ _
  cases tensor.access <;> decide

/-- The runtime accepts an operation that the compiler accepts when it accepts its outputs. -/
theorem validateOperationMetadata_iff {operations : List Compiler.Operation}
    {operation : Compiler.Operation} (h : OperationValid operations operation)
    (hid : 0 < operation.operationId) :
    validateOperationMetadata (operationMetadata operation).toOperationMetadata = .ok () ↔
      OutputsLoadable operation := by
  have hcount : (operationMetadata operation).outputPlans.length =
      (operationMetadata operation).tensorOutputs.length := by
    show (operation.outputs.map _).length = (operation.outputs.map _).length
    rw [List.length_map, List.length_map]
  have houtputs : (operationMetadata operation).outputPlans.length ≤ Invocation.MAX_OUTPUTS := by
    show (operation.outputs.map _).length ≤ 8
    rw [List.length_map]
    exact h.outputs_le
  have hscalars : ∀ scalar ∈ (operationMetadata operation).scalarParameters,
      Invocation.validateScalar scalar = .ok () := by
    show ∀ scalar ∈ operation.scalars.map scalarMetadata, _
    rw [List.forall_mem_map]
    intro scalar hmem
    refine validateScalar_scalarMetadata fun hout => h.out_notMem ?_
    rw [← hout]
    exact List.mem_map_of_mem (List.mem_append_right _ (List.mem_map_of_mem hmem))
  have hnames : ((operationMetadata operation).dtypeVariables.map
      Invocation.DTypeVariable.name).Nodup := by
    rw [names_dtypeVariables]
    exact h.variables_nodup.map Compiler.Identifier.name_injective
  have hvariables : ∀ item ∈ (operationMetadata operation).dtypeVariables,
      Invocation.validateDtypes item.dtypes "Dtype variable " item.name = .ok () := by
    show ∀ item ∈ operation.dtypeVariables.map dtypeVariableMetadata, _
    rw [List.forall_mem_map]
    intro declared _
    exact validateDtypes_names declared.dtypes _ _
  have hinputs : ∀ item ∈ (operationMetadata operation).tensorInputs,
      Invocation.validateTensorInput (operationMetadata operation).toOperationMetadata item =
        .ok () := by
    show ∀ item ∈ operation.inputs.map tensorMetadata, _
    rw [List.forall_mem_map]
    intro tensor hmem
    exact validateTensorInput_tensorMetadata (h.variables_known tensor hmem)
  have haccess : (∀ item ∈ (operationMetadata operation).tensorInputs,
      item.access ≠ "readWrite") ↔ ∀ tensor ∈ operation.inputs, tensor.access = .readOnly := by
    show (∀ item ∈ operation.inputs.map tensorMetadata, _) ↔ _
    rw [List.forall_mem_map]
    exact forall₂_congr fun tensor _ => access_tensorMetadata tensor
  rw [validateOperationMetadata_ok_iff, exists_dynamic_iff, haccess,
    validateOutputs_iff h.references]
  constructor
  · intro ⟨_, _, _, hdynamic, _, _, _, _, hknown⟩
    exact ⟨hdynamic, fun output hmem known hsome => (hknown output hmem known hsome).1,
      fun output hmem known hsome => (hknown output hmem known hsome).2⟩
  · intro hloadable
    exact ⟨hid, hcount, houtputs, hloadable.dynamic_readOnly, hscalars, hnames, hvariables, hinputs,
      fun output hmem known hsome =>
        ⟨hloadable.shapes output hmem known hsome, hloadable.dtypes output hmem known hsome⟩⟩

/-! ### Gradients -/

/-- The indices of a valid VJP pass. -/
theorem validateReferences_ok {operation : Compiler.Operation} {indexes : List Int} {count : Nat}
    (h : Compiler.IndexesValid indexes count) (label : String) :
    validateReferences (operationMetadata operation) indexes count label = .ok () := by
  rw [validateReferences, raiseIf_ok_iff]
  push Not
  refine ⟨h.1, fun index hmem => ?_⟩
  obtain ⟨hnonneg, hlt⟩ := h.2 index hmem
  exact ⟨hnonneg, hlt⟩

/-- An operation is found under its identifier. -/
theorem find?_operationMetadata (operations : List Compiler.Operation) (id : Int) :
    (operations.map operationMetadata).find? (fun candidate => candidate.operationId = id) =
      (operations.find? fun candidate => candidate.operationId = id).map operationMetadata := by
  rw [List.find?_map]
  rfl

/-- Indexing inside a list. -/
theorem getElem?_of_itemAt {α : Type} {items : List α} {index : Int} {item : α}
    (hrange : InRange index items.length) (h : Compiler.itemAt items index = .ok item) :
    items[index.toNat]? = some item := by
  have hnonneg : ¬ index < 0 := not_lt.mpr hrange.1
  have hlower : ¬ index < -items.length := by omega
  rw [Compiler.itemAt, if_neg hlower, if_neg hnonneg] at h
  cases hfound : items[index.toNat]? with
  | none =>
    rw [hfound] at h
    cases h
  | some found =>
    rw [hfound] at h
    cases h
    rfl

/-- The runtime accepts the scalars of a gradient that the compiler accepts. -/
theorem validateVjpScalars_ok {operation target : Compiler.Operation} {vjp : Compiler.Vjp}
    (h : VjpValid operation target vjp) :
    ∀ pair ∈ (operationMetadata target).scalarParameters.zip vjp.scalarParameters,
      validateVjpScalar (operationMetadata operation) pair = .ok () := by
  show ∀ pair ∈ (target.scalars.map scalarMetadata).zip vjp.scalarParameters, _
  intro pair hpair
  rw [List.zip_map_left] at hpair
  obtain ⟨⟨scalar, index⟩, hmem, rfl⟩ := List.mem_map.mp hpair
  have hmatch := h.scalars_match _ hmem
  obtain ⟨source, hsource, hsame⟩ := Result.bind_ok_iff.mp hmatch
  rw [raiseIf_ok_iff, not_not] at hsame
  have hrange := h.scalarParameters.2 index (List.of_mem_zip hmem).2
  have hkind : scalarKindAt operation index = some scalar.kind := by
    rw [scalarKindAt, getElem?_of_itemAt hrange hsource]
    exact congrArg some (congrArg Prod.fst hsame).symm
  rw [validateVjpScalar, raiseIf_ok_iff, not_not]
  exact (kind_scalarParameters operation index).trans hkind

/-- The runtime accepts a gradient that the compiler accepts when it accepts the target. -/
theorem validateVjp_iff {operations : List Compiler.Operation} {operation : Compiler.Operation}
    (h : OperationValid operations operation) :
    validateVjp (operations.map operationMetadata) (operationMetadata operation) = .ok () ↔
      ∀ vjp ∈ operation.vjp, ∀ target ∈ targetOf operations vjp,
        VjpLoadable operation target vjp := by
  rw [validateVjp]
  cases hvjp : operation.vjp with
  | none =>
    have hnone : (operationMetadata operation).vjp = none := congrArg (Option.map vjpMetadata) hvjp
    rw [hnone]
    simp
  | some vjp =>
    have hsome : (operationMetadata operation).vjp = some (vjpMetadata vjp) :=
      congrArg (Option.map vjpMetadata) hvjp
    obtain ⟨target, htarget, hvalid⟩ := h.vjp_valid vjp hvjp
    have hfound : (operations.map operationMetadata).find?
        (fun candidate => candidate.operationId = (vjpMetadata vjp).operationId) =
        some (operationMetadata target) := by
      rw [find?_operationMetadata]
      exact congrArg (Option.map operationMetadata) htarget
    have haccess : (∀ item ∈ (operationMetadata target).tensorInputs, item.access = "readOnly") ↔
        ∀ tensor ∈ target.inputs, tensor.access = .readOnly := by
      show (∀ item ∈ target.inputs.map tensorMetadata, _) ↔ _
      rw [List.forall_mem_map]
      exact forall₂_congr fun tensor _ => access_eq_readOnly_iff tensor
    have htargetVjp : (operationMetadata target).vjp = none ↔ target.vjp = none :=
      Option.map_eq_none_iff
    have hinputs : (operationMetadata operation).tensorInputs.length = operation.inputs.length :=
      List.length_map _
    have houtputs : (operationMetadata operation).tensorOutputs.length = operation.outputs.length :=
      List.length_map _
    have hscalars : (operationMetadata operation).scalarParameters.length =
        operation.scalars.length := List.length_map _
    obtain ⟨hinternal, hfits, hgradients, hparameters⟩ := hvalid.fits
    simp only [hsome, hfound, Option.mem_some_iff, forall_eq', htarget]
    simp only [Result.check_bind_ok_iff, raiseIf_ok_iff, Result.forM_ok_iff]
    push Not
    rw [haccess, htargetVjp, hinputs, houtputs, hscalars]
    constructor
    · intro ⟨⟨hother, hnone⟩, _, hreadOnly, ⟨hcotangents, hgradient⟩, _⟩
      exact ⟨hother, hnone, hreadOnly, hcotangents, hgradient⟩
    · intro hloadable
      refine ⟨⟨hloadable.target_other, hloadable.target_vjp⟩, ?_, hloadable.inputs_readOnly,
        ⟨hloadable.cotangents_ne_nil, hloadable.gradients_ne_nil⟩,
        validateReferences_ok hvalid.savedInputs _, validateReferences_ok hvalid.savedOutputs _,
        validateReferences_ok hvalid.outputCotangents _,
        validateReferences_ok hvalid.inputGradients _,
        validateReferences_ok hvalid.scalarParameters _, ?_, ?_, ?_, validateVjpScalars_ok hvalid⟩
      · show target.internal ≠ false
        rw [hinternal]
        exact Bool.noConfusion
      · show (target.inputs.map tensorMetadata).length = _
        rw [List.length_map]
        exact hfits
      · show (target.outputs.map _).length = _
        rw [List.length_map]
        exact hgradients
      · show (target.scalars.map scalarMetadata).length = _
        rw [List.length_map]
        exact hparameters

/-- The runtime accepts an operation that the compiler accepts exactly when it is loadable. -/
theorem validate_iff_operationLoadable {operations : List Compiler.Operation}
    {operation : Compiler.Operation} (h : OperationValid operations operation)
    (hid : 0 < operation.operationId) :
    (validateOperationMetadata (operationMetadata operation).toOperationMetadata = .ok () ∧
      validateVjp (operations.map operationMetadata) (operationMetadata operation) = .ok ()) ↔
      OperationLoadable operations operation := by
  rw [validateOperationMetadata_iff h hid, validateVjp_iff h]
  constructor
  · intro ⟨houtputs, hgradient⟩
    exact ⟨houtputs, hgradient⟩
  · intro hloadable
    exact ⟨hloadable.toOutputsLoadable, hloadable.gradient⟩

/-! ### Plugins -/

section
variable (floats : Json.FloatText) (sha256 : List UInt8 → Hex.Digest)

/-- The runtime accepts the metadata of a valid plugin when every operation is loadable and the
fingerprint is right. -/
theorem validatePluginMetadata_iff {plugin : Compiler.Plugin} (h : Compiler.PluginValid plugin)
    {fingerprint : Nat} (hfingerprint : metadataFingerprint floats sha256
      (pluginMetadata plugin fingerprint) = .ok fingerprint) :
    validatePluginMetadata floats sha256 (pluginMetadata plugin fingerprint) = .ok () ↔
      ∀ operation ∈ plugin.operations, OperationLoadable plugin.operations operation := by
  have hids : ∀ item ∈ plugin.operations.map operationMetadata, item.operationId ≠ 0 := by
    rw [List.forall_mem_map]
    intro operation hmem
    exact ((h.ids_range operation hmem).1).ne'
  have hunique : ((plugin.operations.map operationMetadata).map fun item =>
      item.operationId).Nodup := by
    rw [List.map_map]
    exact h.ids_nodup
  have hnames : ((plugin.operations.map operationMetadata).map fun item => item.name).Nodup := by
    have hmap := h.names_nodup.map Compiler.Identifier.name_injective
    rw [List.map_map] at hmap ⊢
    exact hmap
  have hoperations : (∀ operation ∈ plugin.operations.map operationMetadata,
      (validateOperationMetadata operation.toOperationMetadata = .ok () ∧
        validateVjp (plugin.operations.map operationMetadata) operation = .ok ())) ↔
      ∀ operation ∈ plugin.operations, OperationLoadable plugin.operations operation := by
    rw [List.forall_mem_map]
    exact forall₂_congr fun operation hmem =>
      validate_iff_operationLoadable (h.operations_valid operation hmem)
        (h.ids_range operation hmem).1
  rw [validatePluginMetadata, hfingerprint]
  simp only [Result.check_bind_ok_iff, raiseIf_ok_iff, Result.forM_ok_iff, Result.ok_bind]
  rw [← hoperations]
  constructor
  · rintro ⟨-, -, -, hvalid, -⟩
    exact hvalid
  · intro hvalid
    refine ⟨?_, not_not.mpr hunique, not_not.mpr hnames, hvalid, ?_, not_not.mpr rfl⟩
    · rintro ⟨item, hmem, hzero⟩
      exact hids item hmem hzero
    · intro hversion
      exact hversion.2 rfl

/-- The members of a generated manifest pass the checks in front of its operations. -/
theorem checks_manifest {plugin : Compiler.Plugin} (h : Compiler.PluginValid plugin)
    (hprotocol : plugin.protocolVersion = PROTOCOL_VERSION) {data : Members} {fingerprint : Text}
    {metadata : Nat} {configuration : Document} (hdata : data =
      membersOf (Compiler.manifestMembers plugin fingerprint metadata configuration)) :
    readFormatVersion data = .ok 2 ∧ manifestKeys data 2 = .ok () ∧ checkLifecycle data = .ok () ∧
      requireInt floats data "abiVersion" 1 = .ok () ∧
      requireInt floats data "protocolVersion" PROTOCOL_VERSION = .ok () ∧
      requireText floats data "generator" "wmfs-tool/2" = .ok () ∧
      checkControlAbi data 2 = .ok () ∧ checkCapabilities data = .ok () := by
  subst hdata
  refine ⟨?_, ?_, ?_, ?_, ?_, ?_, ?_, ?_⟩
  · simp [readFormatVersion, Compiler.manifestMembers, h.formatVersion_eq, raiseIf,
      Result.ok_bind]
  · exact keysWithOptional_ok (by simp [Compiler.manifestMembers])
      (by simp [Compiler.manifestMembers]) _
  · rw [checkLifecycle, Document.get?_membersOf]
    simp only [Compiler.manifestMembers, Document.lookup_cons_ite, String.reduceEq, if_true, if_false]
    show object (Document.object _) _ >>= _ = _
    rw [object_object, Result.ok_bind, keys_ok (by simp) (by simp)]
    simp [Result.ok_bind]
  · simp [requireInt, Compiler.manifestMembers, h.abiVersion_eq, raiseIf, Result.ok_bind]
  · simp [requireInt, Compiler.manifestMembers, hprotocol, raiseIf, Result.ok_bind]
  · have hgenerator : subscript (membersOf (Compiler.manifestMembers plugin fingerprint metadata
        configuration)) "generator" = .ok (.str (ofString "wmfs-tool/2")) := by
      simp [Compiler.manifestMembers, Document.string]
    rw [requireText, hgenerator]
    simp only [Result.ok_bind, raiseIf_ok_iff, ne_eq, not_true_eq_false, not_false_eq_true]
  · simp [checkControlAbi, Compiler.manifestMembers, raiseIf, Result.ok_bind]
  · rw [checkCapabilities, Document.get?_membersOf]
    simp only [Compiler.manifestMembers, Document.lookup_cons_ite, String.reduceEq, if_true, if_false]
    show integer (.int _) _ >>= _ = _
    rw [integer_int, Result.ok_bind, raiseIf_ok_iff, not_not]
    unfold Compiler.startupCapabilities
    split <;> split <;> split <;> omega

/-- The runtime loads a generated manifest exactly when it accepts the metadata of the plugin. -/
theorem loadMetadata_manifest {data : Members} {plugin : Compiler.Plugin}
    (h : Compiler.loadInterface floats data = .ok plugin) (hfinite : FiniteDefaults plugin)
    (hprotocol : plugin.protocolVersion = PROTOCOL_VERSION) :
    ∃ document fingerprint, Compiler.manifest floats sha256 plugin = some document ∧
      metadataFingerprint floats sha256 (pluginMetadata plugin fingerprint) = .ok fingerprint ∧
      ∀ metadata, loadMetadata floats sha256 document = .ok metadata ↔
        pluginMetadata plugin fingerprint = metadata ∧
          validatePluginMetadata floats sha256 (pluginMetadata plugin fingerprint) = .ok () := by
  have hvalid := Compiler.pluginValid_of_loadInterface h
  obtain ⟨interfaceBytes, metadataBytes, configuration, hinterface, hmetadata, hmanifest⟩ :=
    exists_manifest floats sha256 h hfinite
  let fingerprint := Hex.bigEndian ((sha256 metadataBytes).toList.take 8)
  have hcanonical : metadataFingerprint floats sha256 (pluginMetadata plugin fingerprint) =
      .ok fingerprint := by
    rw [metadataFingerprint, canonicalMetadataBytes, canonicalDocument_pluginMetadata hvalid,
      hmetadata]
    rfl
  refine ⟨_, fingerprint, hmanifest, hcanonical, fun metadata => ?_⟩
  generalize hdata : membersOf (Compiler.manifestMembers plugin
    (Hex.hexBytes (sha256 interfaceBytes).toList) fingerprint configuration) = generated
  obtain ⟨hversion, hkeys, hlifecycle, habi, hprotocolVersion, hgenerator, hcontrol, hcapabilities⟩ :=
    checks_manifest floats hvalid hprotocol hdata.symm
  have hoperations : subscript generated "operations" =
      .ok (.arr (plugin.operations.map Compiler.interfaceOperation)) := by
    rw [← hdata]
    simp [Compiler.manifestMembers]
  have hcount : subscript generated "operationCount" = .ok (.int plugin.operations.length) := by
    rw [← hdata]
    simp [Compiler.manifestMembers]
  have hread := readMetadata_manifest plugin (Hex.hexBytes (sha256 interfaceBytes).toList)
    configuration (shortFingerprint_lt (sha256 metadataBytes)) PROTOCOL_VERSION
  have hinterfaceCheck := validateInterfaceFingerprint_manifest floats sha256 hinterface
    fingerprint configuration
  have hversionEq : { pluginMetadata plugin fingerprint with
      protocolVersion := PROTOCOL_VERSION } = pluginMetadata plugin fingerprint := by
    rw [← hprotocol]
    rfl
  rw [hdata] at hread hinterfaceCheck
  rw [hversionEq] at hread
  have htool : "wmfs-tool/" ++ "2" = "wmfs-tool/2" := rfl
  rw [loadMetadata, object_object, hdata]
  simp only [Result.ok_bind, hversion, hkeys, hlifecycle, habi, hprotocolVersion, if_true, htool,
    hgenerator, hcontrol, hcapabilities, hoperations, hcount, array_arr, integer_int,
    hinterfaceCheck, hread]
  simp only [Result.check_bind_ok_iff, raiseIf_ok_iff, List.length_map, ne_eq, not_true_eq_false,
    not_false_eq_true, true_and]
  constructor
  · rintro ⟨hvalidated, heq⟩
    exact ⟨Except.ok.inj heq, hvalidated⟩
  · rintro ⟨heq, hvalidated⟩
    exact ⟨hvalidated, congrArg Except.ok heq⟩

/-- The runtime loads the manifest of an accepted interface exactly when every operation is
loadable. -/
theorem loadMetadata_manifest_iff {data : Members} {plugin : Compiler.Plugin}
    (h : Compiler.loadInterface floats data = .ok plugin) (hfinite : FiniteDefaults plugin)
    (hprotocol : plugin.protocolVersion = PROTOCOL_VERSION) :
    (∃ document metadata, Compiler.manifest floats sha256 plugin = some document ∧
      loadMetadata floats sha256 document = .ok metadata) ↔
      ∀ operation ∈ plugin.operations, OperationLoadable plugin.operations operation := by
  obtain ⟨document, fingerprint, hmanifest, hfingerprint, hload⟩ :=
    loadMetadata_manifest floats sha256 h hfinite hprotocol
  rw [← validatePluginMetadata_iff floats sha256 (Compiler.pluginValid_of_loadInterface h)
    hfingerprint]
  constructor
  · intro ⟨found, metadata, hfound, hloaded⟩
    rw [hmanifest] at hfound
    cases hfound
    exact ((hload metadata).mp hloaded).2
  · intro hvalidated
    exact ⟨document, _, hmanifest, (hload _).mpr ⟨rfl, hvalidated⟩⟩

end

/-- The manifest of an interface with the operation `scaleOperation` loads. -/
theorem loadMetadata_scale : ∃ document metadata,
    Compiler.manifest .ofBits Sha256.digestVector
      (Compiler.smallPlugin [scaleOperation]) = some document ∧
    loadMetadata .ofBits Sha256.digestVector document = .ok metadata := by
  have haccepted : Compiler.loadInterface .ofBits (Compiler.smallInterface [scaleSource]) =
      .ok (Compiler.smallPlugin [scaleOperation]) := rfl
  apply (loadMetadata_manifest_iff .ofBits _ haccepted finiteDefaults_scale rfl).mpr
  intro operation hoperation
  cases List.mem_singleton.mp hoperation
  refine ⟨⟨?_, ?_, ?_⟩, ?_⟩
  · intro _ tensor htensor
    cases List.mem_singleton.mp htensor
    rfl
  · intro output houtput known hknown
    cases List.mem_singleton.mp houtput
    cases hknown
    trivial
  · intro output houtput known hknown
    cases List.mem_singleton.mp houtput
    cases hknown
    trivial
  · intro vjp hvjp
    cases hvjp

/-- The source of an operation with a mutable input and a dynamic output. -/
def compactSource : Document :=
  .object [("id", .int 1), ("name", .string "compact"),
    ("inputs", .arr [.object [("name", .string "x"), ("access", .string "read_write")]]),
    ("outputs", .arr [.object [("name", .string "y"), ("dynamic", .bool true)]])]

/-- The operation of `compactSource`. -/
def compactOperation : Compiler.Operation where
  operationId := 1
  name := ⟨"compact", by decide⟩
  internal := false
  inputs := [⟨⟨"x", Compiler.isIdentifier_x⟩, .readWrite, .any⟩]
  outputs := [⟨⟨"y", Compiler.isIdentifier_y⟩, none⟩]
  scalars := []
  vjp := none
  dtypeVariables := []

/-- The compiler accepts `compactSource`, and the runtime does not load the manifest. -/
theorem compact_accepted_and_refused :
    Compiler.loadInterface .ofBits (Compiler.smallInterface [compactSource]) =
      .ok (Compiler.smallPlugin [compactOperation]) ∧
    (Compiler.smallPlugin [compactOperation]).protocolVersion = PROTOCOL_VERSION ∧
    FiniteDefaults (Compiler.smallPlugin [compactOperation]) ∧
    ∀ document metadata, Compiler.manifest .ofBits Sha256.digestVector
        (Compiler.smallPlugin [compactOperation]) = some document →
      loadMetadata .ofBits Sha256.digestVector document ≠ .ok metadata := by
  have haccepted : Compiler.loadInterface .ofBits (Compiler.smallInterface [compactSource]) =
      .ok (Compiler.smallPlugin [compactOperation]) := rfl
  have hfinite : FiniteDefaults (Compiler.smallPlugin [compactOperation]) := by
    intro operation hoperation scalar hscalar
    cases List.mem_singleton.mp hoperation
    cases hscalar
  refine ⟨haccepted, rfl, hfinite, fun document metadata hdocument hloaded => ?_⟩
  obtain ⟨found, fingerprint, hmanifest, hfingerprint, hload⟩ :=
    loadMetadata_manifest .ofBits Sha256.digestVector haccepted hfinite rfl
  rw [hmanifest] at hdocument
  cases hdocument
  have hvalidated := ((hload metadata).mp hloaded).2
  have hloadable := (validatePluginMetadata_iff _ _
    (Compiler.pluginValid_of_loadInterface haccepted) hfingerprint).mp hvalidated
  -- The mutable input stands beside a dynamic output.
  have hreadOnly := (hloadable compactOperation List.mem_cons_self).dynamic_readOnly
    ⟨_, List.mem_cons_self, rfl⟩ _ List.mem_cons_self
  cases hreadOnly

end Wmfs.Manifest
