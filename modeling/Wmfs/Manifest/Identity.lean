import Wmfs.Lib.JsonBytes
import Wmfs.Lib.JsonWritten
import Wmfs.Lib.Sha256
import Wmfs.Manifest.Metadata

/-!
# `Wmfs.Manifest.Identity`: what the fingerprint of the metadata identifies

`canonical_metadata_bytes` writes the metadata as one JSON text, and the fingerprint is the head
of its digest. The runtime and the worker compare fingerprints where they mean the metadata.
`canonicalMetadataBytes_eq_iff` says what such a comparison is worth. Two plugins have the same
canonical bytes exactly when all of their metadata is the same, but for the fingerprint itself
and for what the bytes of version 1 leave out (`PluginMetadata.covered`): the dtypes of the
tensors, their variables, and the values of the enumerations.

The text is read back (`Json.dumps_eq_iff`), so what is left is to see that the document
determines the metadata. That goes record by record, in the order of the definitions of
`Wmfs.Manifest.Metadata`: each document is in the order of its keys, and it is the same for two
records exactly when their covered parts are.
-/

set_option autoImplicit false

namespace Wmfs.Manifest

open Wmfs.Lib
open Wmfs.Lib.Utf8 (Text ofString)
open Wmfs.Lib.Document (Everywhere orNull)
open Wmfs.Lib.Json (InOrder string_inj strings_inj ints_inj object_inj orNull_inj map_eq_map_iff
  inOrder_bool inOrder_string inOrder_str inOrder_of_nesting inOrder_map inOrder_orNull
  inOrder_object everywhere_of_nesting loadable_object loadable_string loadable_int)
open Wmfs.Invocation (DimensionExpression DTypeExpression ShapeExpression KnownOutput OutputPlan
  TensorParameter ScalarParameter DTypeVariable)
open Wmfs.Ring.Codec (Value)

/-! ### What the bytes cover -/

/-- What the bytes cover of a tensor. -/
def coveredTensor (version : Int) (parameter : TensorParameter) : TensorParameter :=
  if version = 1 then { parameter with dtypeVariable := none, dtypes := [] } else parameter

/-- What the bytes cover of a scalar. -/
def coveredScalar (version : Int) (scalar : ScalarParameter) : ScalarParameter :=
  if version = 1 then { scalar with enumName := none, enumValues := [] } else scalar

/-- What the bytes cover of an operation. -/
def coveredOperation (version : Int) (operation : OperationMetadata) : OperationMetadata :=
  { operation with
    tensorInputs := operation.tensorInputs.map (coveredTensor version)
    tensorOutputs := operation.tensorOutputs.map (coveredTensor version)
    scalarParameters := operation.scalarParameters.map (coveredScalar version)
    dtypeVariables := if version = 1 then [] else operation.dtypeVariables }

/-- What the bytes cover of the metadata. -/
def PluginMetadata.covered (plugin : PluginMetadata) : PluginMetadata :=
  { plugin with
    operations := plugin.operations.map (coveredOperation plugin.metadataVersion)
    fingerprint := 0 }

/-- The texts of the metadata have no pair of surrogates, and its integers are short enough to be
read. The metadata that is read from a file is so. -/
def PluginMetadata.Readable (plugin : PluginMetadata) : Prop :=
  Json.Loadable true (canonicalDocument plugin)

/-! ### The order of the keys -/

/-- The document of a value is in order. -/
theorem inOrder_valueDocument (value : Value) : Everywhere InOrder (valueDocument value) := by
  cases value with
  | _ => exact inOrder_of_nesting rfl

/-- The document of a dtype variable is in order. -/
theorem inOrder_dtypeVariableDocument (declared : DTypeVariable) :
    Everywhere InOrder (dtypeVariableDocument declared) := by
  apply inOrder_object (show _ = ["dtypes", "name"] from rfl) (by decide)
  simp

/-- The document of a tensor parameter is in order. -/
theorem inOrder_tensorDocument (version : Int) (parameter : TensorParameter) :
    Everywhere InOrder (tensorDocument version parameter) := by
  have hvariable := inOrder_orNull inOrder_string parameter.dtypeVariable
  by_cases hversion : version = 1
  · rw [tensorDocument, sinceVersion2, if_pos hversion]
    apply inOrder_object (show _ = ["access", "name"] from rfl) (by decide)
    simp
  · rw [tensorDocument, sinceVersion2, if_neg hversion]
    apply inOrder_object (show _ = ["access", "dtype_variable", "dtypes", "name"] from rfl)
      (by decide)
    simp [hvariable]

/-- The document of a scalar parameter is in order. -/
theorem inOrder_scalarDocument (version : Int) (scalar : ScalarParameter) :
    Everywhere InOrder (scalarDocument version scalar) := by
  have hdefault := inOrder_orNull inOrder_valueDocument scalar.default
  have hname := inOrder_orNull inOrder_string scalar.enumName
  have hvalues := inOrder_map (f := Document.str) inOrder_str scalar.enumValues
  by_cases hversion : version = 1
  · rw [scalarDocument, sinceVersion2, if_pos hversion]
    apply inOrder_object (show _ = ["default", "kind", "name", "required"] from rfl) (by decide)
    simp [hdefault]
  · rw [scalarDocument, sinceVersion2, if_neg hversion]
    apply inOrder_object
      (show _ = ["default", "enum_name", "enum_values", "kind", "name", "required"] from rfl)
      (by decide)
    simp [hdefault, hname, hvalues]

mutual
/-- The document of a dimension is in order. -/
theorem inOrder_dimensionDocument : ∀ dimension : DimensionExpression,
    Everywhere InOrder (dimensionDocument dimension)
  | .constant value => by
    rw [dimensionDocument]
    apply inOrder_object (show _ = ["kind", "value"] from rfl) (by decide)
    simp
  | .inputAxis input axis => by
    have hvalue : Everywhere InOrder (.object [("axis", .int axis), ("input", .int input)]) := by
      apply inOrder_object (show _ = ["axis", "input"] from rfl) (by decide)
      simp
    rw [dimensionDocument]
    apply inOrder_object (show _ = ["kind", "value"] from rfl) (by decide)
    simp [hvalue]
  | .minimum values => by
    have hvalues := Everywhere.arr (P := InOrder) trivial (inOrder_dimensionsDocument values)
    rw [dimensionDocument]
    apply inOrder_object (show _ = ["kind", "value"] from rfl) (by decide)
    simp [hvalues]
  | .select scalarParameter whenTrue whenFalse => by
    have htrue := inOrder_dimensionDocument whenTrue
    have hfalse := inOrder_dimensionDocument whenFalse
    have hvalue : Everywhere InOrder (.object [("scalar_parameter", .int scalarParameter),
        ("when_false", dimensionDocument whenFalse),
        ("when_true", dimensionDocument whenTrue)]) := by
      apply inOrder_object (show _ = ["scalar_parameter", "when_false", "when_true"] from rfl)
        (by decide)
      simp [htrue, hfalse]
    rw [dimensionDocument]
    apply inOrder_object (show _ = ["kind", "value"] from rfl) (by decide)
    simp [hvalue]

/-- The documents of dimensions are in order. -/
theorem inOrder_dimensionsDocument : ∀ dimensions : List DimensionExpression,
    ∀ document ∈ dimensionsDocument dimensions, Everywhere InOrder document
  | [] => by
    intro document h
    cases h
  | dimension :: dimensions => by
    rw [dimensionsDocument, List.forall_mem_cons]
    exact ⟨inOrder_dimensionDocument dimension, inOrder_dimensionsDocument dimensions⟩
end

/-- The document of a dtype is in order. -/
theorem inOrder_dtypeDocument (dtype : DTypeExpression) :
    Everywhere InOrder (dtypeDocument dtype) := by
  apply inOrder_object (show _ = ["kind", "value"] from rfl) (by decide)
  cases dtype with
  | fixed name => simp
  | input index => simp
  | dtypeVariable name => simp
  | promoteTensorScalar tensorInput scalarParameter =>
    have hvalue : Everywhere InOrder (.object [("scalar_parameter", .int scalarParameter),
        ("tensor_input", .int tensorInput)]) := by
      apply inOrder_object (show _ = ["scalar_parameter", "tensor_input"] from rfl) (by decide)
      simp
    simp [hvalue]

/-- The document of a known output is in order. -/
theorem inOrder_knownDocument (known : KnownOutput) :
    Everywhere InOrder (knownDocument known) := by
  obtain ⟨shape, dtype⟩ := known
  have hdtype := inOrder_dtypeDocument dtype
  cases shape with
  | sameShapeAsInput input =>
    apply inOrder_object (show _ = ["dtype", "shape", "shape_kind"] from rfl) (by decide)
    simp [hdtype]
  | dimensions values =>
    have hvalues := Everywhere.arr (P := InOrder) trivial (inOrder_dimensionsDocument values)
    apply inOrder_object (show _ = ["dtype", "shape", "shape_kind"] from rfl) (by decide)
    simp [hdtype, hvalues]

/-- The document of an output is in order. -/
theorem inOrder_outputDocument (plan : OutputPlan) :
    Everywhere InOrder (outputDocument plan) := by
  have hknown := inOrder_orNull inOrder_knownDocument plan.known
  apply inOrder_object (show _ = ["known", "name"] from rfl) (by decide)
  simp [hknown]

/-- The document of a VJP is in order. -/
theorem inOrder_vjpDocument (vjp : VjpMetadata) : Everywhere InOrder (vjpDocument vjp) := by
  apply inOrder_object (show _ = ["input_gradients", "operation_id", "output_cotangents",
    "saved_inputs", "saved_outputs", "scalar_parameters"] from rfl) (by decide)
  simp

/-- The document of an operation is in order. -/
theorem inOrder_operationDocument (version : Int) (operation : OperationMetadata) :
    Everywhere InOrder (operationDocument version operation) := by
  have hvariables := inOrder_map inOrder_dtypeVariableDocument operation.dtypeVariables
  have hplans := inOrder_map inOrder_outputDocument operation.outputPlans
  have hscalars := inOrder_map (inOrder_scalarDocument version) operation.scalarParameters
  have hinputs := inOrder_map (inOrder_tensorDocument version) operation.tensorInputs
  have houtputs := inOrder_map (inOrder_tensorDocument version) operation.tensorOutputs
  have hvjp := inOrder_orNull inOrder_vjpDocument operation.vjp
  by_cases hversion : version = 1
  · rw [operationDocument, sinceVersion2, if_pos hversion]
    apply inOrder_object (show _ = ["internal", "name", "operation_id", "output_plans",
      "scalar_parameters", "tensor_inputs", "tensor_outputs", "vjp"] from rfl) (by decide)
    simp [hplans, hscalars, hinputs, houtputs, hvjp]
  · rw [operationDocument, sinceVersion2, if_neg hversion]
    apply inOrder_object (show _ = ["dtype_variables", "internal", "name", "operation_id",
      "output_plans", "scalar_parameters", "tensor_inputs", "tensor_outputs", "vjp"] from rfl)
      (by decide)
    simp [hvariables, hplans, hscalars, hinputs, houtputs, hvjp]

/-- The document of the metadata is in the order in which it is written. -/
theorem inOrder_canonicalDocument (plugin : PluginMetadata) :
    Everywhere InOrder (canonicalDocument plugin) := by
  have hoperations :=
    inOrder_map (inOrder_operationDocument plugin.metadataVersion) plugin.operations
  apply inOrder_object (show _ = ["encoding", "metadata"] from rfl) (by decide)
  rw [List.forall_mem_cons, List.forall_mem_singleton]
  refine ⟨inOrder_string _, ?_⟩
  by_cases hversion : plugin.metadataVersion = 1
  · rw [sinceVersion2, if_pos hversion]
    apply inOrder_object (show _ = ["name", "operations", "protocol_version", "version"] from rfl)
      (by decide)
    simp [hoperations]
  · rw [sinceVersion2, if_neg hversion]
    apply inOrder_object (show _ = ["metadata_version", "name", "operations", "protocol_version",
      "version"] from rfl) (by decide)
    simp [hoperations]

/-! ### What the document determines -/

/-- The document of a value determines it. -/
theorem valueDocument_inj {left right : Value} :
    valueDocument left = valueDocument right ↔ left = right := by
  constructor
  · intro h
    cases left <;> cases right <;> simp_all [valueDocument]
  · intro h
    rw [h]

/-- The document of a dtype variable determines it. -/
theorem dtypeVariableDocument_inj {left right : DTypeVariable} :
    dtypeVariableDocument left = dtypeVariableDocument right ↔ left = right := by
  obtain ⟨name, dtypes⟩ := left
  obtain ⟨name', dtypes'⟩ := right
  rw [dtypeVariableDocument, dtypeVariableDocument, object_inj]
  simp [string_inj, strings_inj, and_comm]

/-- The document of a tensor parameter determines what the version covers. -/
theorem tensorDocument_eq_iff (version : Int) (left right : TensorParameter) :
    tensorDocument version left = tensorDocument version right ↔
      coveredTensor version left = coveredTensor version right := by
  obtain ⟨name, access, dtypeVariable, dtypes⟩ := left
  obtain ⟨name', access', dtypeVariable', dtypes'⟩ := right
  have hvariable : orNull Document.string dtypeVariable = orNull Document.string dtypeVariable' ↔
      dtypeVariable = dtypeVariable' :=
    orNull_inj (fun _ => by simp [Document.string]) string_inj.mp
  rw [tensorDocument, tensorDocument, object_inj]
  by_cases hversion : version = 1
  · simp [sinceVersion2, coveredTensor, hversion, string_inj, and_comm]
  · simp only [sinceVersion2, coveredTensor, if_neg hversion, List.cons_append, List.nil_append,
      List.cons.injEq, Prod.mk.injEq, true_and, and_true, string_inj, strings_inj, hvariable,
      TensorParameter.mk.injEq]
    tauto

/-- The document of a scalar parameter determines what the version covers. -/
theorem scalarDocument_eq_iff (version : Int) (left right : ScalarParameter) :
    scalarDocument version left = scalarDocument version right ↔
      coveredScalar version left = coveredScalar version right := by
  obtain ⟨name, kind, required, default, enumName, enumValues⟩ := left
  obtain ⟨name', kind', required', default', enumName', enumValues'⟩ := right
  have hdefault : orNull valueDocument default = orNull valueDocument default' ↔
      default = default' :=
    orNull_inj (fun value => by cases value <;> simp [valueDocument]) valueDocument_inj.mp
  have hname : orNull Document.string enumName = orNull Document.string enumName' ↔
      enumName = enumName' :=
    orNull_inj (fun _ => by simp [Document.string]) string_inj.mp
  have hvalues : enumValues.map Document.str = enumValues'.map Document.str ↔
      enumValues = enumValues' :=
    (List.map_injective_iff.mpr fun _ _ h => Document.str.inj h).eq_iff
  rw [scalarDocument, scalarDocument, object_inj]
  by_cases hversion : version = 1
  · simp only [sinceVersion2, coveredScalar, if_pos hversion, List.cons_append, List.nil_append,
      List.cons.injEq, Prod.mk.injEq, true_and, and_true, string_inj, hdefault,
      Document.bool.injEq, ScalarParameter.mk.injEq]
    tauto
  · simp only [sinceVersion2, coveredScalar, if_neg hversion, List.cons_append, List.nil_append,
      List.cons.injEq, Prod.mk.injEq, true_and, and_true, string_inj, hdefault, hname, hvalues,
      Document.arr.injEq, Document.bool.injEq, ScalarParameter.mk.injEq]
    tauto

mutual
/-- The document of a dimension determines it. -/
theorem eq_of_dimensionDocument : ∀ {left right : DimensionExpression},
    dimensionDocument left = dimensionDocument right → left = right
  | .constant value, right, h => by
    cases right <;> simp_all [dimensionDocument, object_inj, string_inj]
  | .inputAxis input axis, right, h => by
    cases right <;> simp_all [dimensionDocument, object_inj, string_inj]
  | .minimum values, right, h => by
    cases right with
    | minimum values' =>
      simp only [dimensionDocument, object_inj, List.cons.injEq, Prod.mk.injEq, true_and, and_true,
        Document.arr.injEq] at h
      rw [eq_of_dimensionsDocument h]
    | _ => simp [dimensionDocument, object_inj, string_inj] at h
  | .select scalarParameter whenTrue whenFalse, right, h => by
    cases right with
    | select scalarParameter' whenTrue' whenFalse' =>
      simp only [dimensionDocument, object_inj, List.cons.injEq, Prod.mk.injEq, true_and, and_true,
        Document.int.injEq] at h
      rw [h.1, eq_of_dimensionDocument h.2.1, eq_of_dimensionDocument h.2.2]
    | _ => simp [dimensionDocument, object_inj, string_inj] at h

/-- The documents of dimensions determine them. -/
theorem eq_of_dimensionsDocument : ∀ {left right : List DimensionExpression},
    dimensionsDocument left = dimensionsDocument right → left = right
  | [], [], _ => rfl
  | [], _ :: _, h => by simp [dimensionsDocument] at h
  | _ :: _, [], h => by simp [dimensionsDocument] at h
  | dimension :: dimensions, dimension' :: dimensions', h => by
    simp only [dimensionsDocument, List.cons.injEq] at h
    rw [eq_of_dimensionDocument h.1, eq_of_dimensionsDocument h.2]
end

/-- The document of a dtype determines it. -/
theorem eq_of_dtypeDocument {left right : DTypeExpression}
    (h : dtypeDocument left = dtypeDocument right) : left = right := by
  unfold dtypeDocument at h
  rw [object_inj] at h
  cases left <;> cases right <;> simp_all [dtypeKind, object_inj, string_inj]

/-- The document of a known output determines it. -/
theorem eq_of_knownDocument {left right : KnownOutput}
    (h : knownDocument left = knownDocument right) : left = right := by
  obtain ⟨shape, dtype⟩ := left
  obtain ⟨shape', dtype'⟩ := right
  cases shape with
  | sameShapeAsInput input =>
    cases shape' with
    | sameShapeAsInput input' =>
      simp only [knownDocument, object_inj, List.cons.injEq, Prod.mk.injEq, true_and, and_true,
        Document.int.injEq] at h
      rw [eq_of_dtypeDocument h.1, h.2]
    | dimensions values' => simp [knownDocument, object_inj] at h
  | dimensions values =>
    cases shape' with
    | sameShapeAsInput input' => simp [knownDocument, object_inj] at h
    | dimensions values' =>
      simp only [knownDocument, object_inj, List.cons.injEq, Prod.mk.injEq, true_and, and_true,
        Document.arr.injEq] at h
      rw [eq_of_dtypeDocument h.1, eq_of_dimensionsDocument h.2]

/-- The document of a known output is not null. -/
theorem knownDocument_ne_null (known : KnownOutput) : knownDocument known ≠ .null := by
  obtain ⟨shape, dtype⟩ := known
  cases shape <;> simp [knownDocument, Document.object]

/-- The document of an output determines it. -/
theorem outputDocument_inj {left right : OutputPlan} :
    outputDocument left = outputDocument right ↔ left = right := by
  obtain ⟨name, known⟩ := left
  obtain ⟨name', known'⟩ := right
  have hknown : orNull knownDocument known = orNull knownDocument known' ↔ known = known' :=
    orNull_inj knownDocument_ne_null eq_of_knownDocument
  rw [outputDocument, outputDocument, object_inj]
  simp [string_inj, hknown, and_comm]

/-- The document of a VJP determines it. -/
theorem vjpDocument_inj {left right : VjpMetadata} :
    vjpDocument left = vjpDocument right ↔ left = right := by
  obtain ⟨operationId, savedInputs, savedOutputs, outputCotangents, inputGradients,
    scalarParameters⟩ := left
  obtain ⟨operationId', savedInputs', savedOutputs', outputCotangents', inputGradients',
    scalarParameters'⟩ := right
  rw [vjpDocument, vjpDocument, object_inj]
  simp only [List.cons.injEq, Prod.mk.injEq, true_and, and_true, ints_inj, Document.int.injEq,
    VjpMetadata.mk.injEq]
  tauto

/-- The document of an operation is the same exactly when what it covers is. -/
theorem operationDocument_eq_iff (version : Int) (left right : OperationMetadata) :
    operationDocument version left = operationDocument version right ↔
      coveredOperation version left = coveredOperation version right := by
  obtain ⟨⟨name, inputs, outputs, scalars, operationId, plans, declared⟩, vjp, internal⟩ := left
  obtain ⟨⟨name', inputs', outputs', scalars', operationId', plans', declared'⟩, vjp',
    internal'⟩ := right
  have hinputs := map_eq_map_iff (tensorDocument_eq_iff version) inputs inputs'
  have houtputs := map_eq_map_iff (tensorDocument_eq_iff version) outputs outputs'
  have hscalars := map_eq_map_iff (scalarDocument_eq_iff version) scalars scalars'
  have hplans : plans.map outputDocument = plans'.map outputDocument ↔ plans = plans' :=
    (List.map_injective_iff.mpr fun _ _ h => outputDocument_inj.mp h).eq_iff
  have hdeclared : declared.map dtypeVariableDocument = declared'.map dtypeVariableDocument ↔
      declared = declared' :=
    (List.map_injective_iff.mpr fun _ _ h => dtypeVariableDocument_inj.mp h).eq_iff
  have hvjp : orNull vjpDocument vjp = orNull vjpDocument vjp' ↔ vjp = vjp' :=
    orNull_inj (fun _ => by simp [vjpDocument, Document.object]) vjpDocument_inj.mp
  -- Version 1 has no member for the dtype variables.
  by_cases hversion : version = 1
  · simp only [operationDocument, object_inj, sinceVersion2, coveredOperation, if_pos hversion,
      List.nil_append, List.cons.injEq, Prod.mk.injEq, true_and, and_true, string_inj, hinputs,
      houtputs, hscalars, hplans, hvjp, Document.arr.injEq, Document.bool.injEq,
      Document.int.injEq, OperationMetadata.mk.injEq, Invocation.OperationMetadata.mk.injEq]
    constructor
    · rintro ⟨hinternal, hname, hid, hplans, hscalars, hinputs, houtputs, hvjp⟩
      exact ⟨⟨hname, hinputs, houtputs, hscalars, hid, hplans⟩, hvjp, hinternal⟩
    · rintro ⟨⟨hname, hinputs, houtputs, hscalars, hid, hplans⟩, hvjp, hinternal⟩
      exact ⟨hinternal, hname, hid, hplans, hscalars, hinputs, houtputs, hvjp⟩
  · simp only [operationDocument, object_inj, sinceVersion2, coveredOperation, if_neg hversion,
      List.cons_append, List.nil_append, List.cons.injEq, Prod.mk.injEq, true_and, and_true,
      string_inj, hinputs, houtputs, hscalars, hplans, hdeclared, hvjp, Document.arr.injEq,
      Document.bool.injEq, Document.int.injEq, OperationMetadata.mk.injEq,
      Invocation.OperationMetadata.mk.injEq]
    constructor
    · rintro ⟨hdeclared, hinternal, hname, hid, hplans, hscalars, hinputs, houtputs, hvjp⟩
      exact ⟨⟨hname, hinputs, houtputs, hscalars, hid, hplans, hdeclared⟩, hvjp, hinternal⟩
    · rintro ⟨⟨hname, hinputs, houtputs, hscalars, hid, hplans, hdeclared⟩, hvjp, hinternal⟩
      exact ⟨hdeclared, hinternal, hname, hid, hplans, hscalars, hinputs, houtputs, hvjp⟩

/-- The document of the metadata is the same exactly when what it covers is. -/
theorem canonicalDocument_eq_iff (left right : PluginMetadata) :
    canonicalDocument left = canonicalDocument right ↔ left.covered = right.covered := by
  obtain ⟨name, version, protocolVersion, operations, fingerprint, metadataVersion⟩ := left
  obtain ⟨name', version', protocolVersion', operations', fingerprint', metadataVersion'⟩ := right
  -- The encoding tells version 1 apart, and the other versions stand in the document.
  have hversion : canonicalDocument ⟨name, version, protocolVersion, operations, fingerprint,
      metadataVersion⟩ = canonicalDocument ⟨name', version', protocolVersion', operations',
      fingerprint', metadataVersion'⟩ → metadataVersion = metadataVersion' := by
    intro h
    simp only [canonicalDocument, object_inj, List.cons.injEq, Prod.mk.injEq, true_and,
      and_true, string_inj] at h
    obtain ⟨hencoding, hmetadata⟩ := h
    by_cases hleft : metadataVersion = 1
    · by_cases hright : metadataVersion' = 1
      · rw [hleft, hright]
      · simp [hleft, hright] at hencoding
    · by_cases hright : metadataVersion' = 1
      · simp [hleft, hright] at hencoding
      · simp [sinceVersion2, hleft, hright] at hmetadata
        exact hmetadata.1
  constructor
  · intro h
    cases hversion h
    have hoperations := map_eq_map_iff (operationDocument_eq_iff metadataVersion) operations
      operations'
    by_cases hone : metadataVersion = 1
    · simp only [canonicalDocument, object_inj, sinceVersion2, if_pos hone, List.nil_append,
        List.cons.injEq, Prod.mk.injEq, true_and, and_true, string_inj, Document.arr.injEq,
        hoperations, Document.int.injEq, Document.str.injEq] at h
      obtain ⟨hname, hoperations, hprotocol, htext⟩ := h
      rw [PluginMetadata.covered, PluginMetadata.covered, hname, hoperations, hprotocol, htext]
    · simp only [canonicalDocument, object_inj, sinceVersion2, if_neg hone, List.cons_append,
        List.nil_append, List.cons.injEq, Prod.mk.injEq, true_and, and_true, string_inj,
        Document.arr.injEq, hoperations, Document.int.injEq, Document.str.injEq] at h
      obtain ⟨hname, hoperations, hprotocol, htext⟩ := h
      rw [PluginMetadata.covered, PluginMetadata.covered, hname, hoperations, hprotocol, htext]
  · intro h
    obtain ⟨hname, htext, hprotocol, hcovered, _, hmetadata⟩ := PluginMetadata.mk.inj h
    cases hmetadata
    have hoperations := (map_eq_map_iff (operationDocument_eq_iff metadataVersion) operations
      operations').mpr hcovered
    have hname : name = name' := hname
    have htext : version = version' := htext
    have hprotocol : protocolVersion = protocolVersion' := hprotocol
    rw [canonicalDocument, canonicalDocument, hname, htext, hprotocol, hoperations]

/-! ### What the bytes determine -/

section
variable {floats : Json.FloatText}

/-- The canonical bytes are those of the canonical text. -/
theorem canonicalMetadataBytes_ok_iff {plugin : PluginMetadata} {bytes : List UInt8} :
    canonicalMetadataBytes floats plugin = .ok bytes ↔
      ∃ text, Json.dumps floats true (canonicalDocument plugin) = some text ∧
        Utf8.encode text = some bytes := by
  rw [canonicalMetadataBytes, ← Option.bind_eq_some_iff, ← Json.canonicalBytes]
  cases Json.canonicalBytes floats (canonicalDocument plugin) with
  | none => simp
  | some found => simp

/-- Two plugins have the same canonical bytes exactly when what the bytes cover of them is the
same. -/
theorem canonicalMetadataBytes_eq_iff {left right : PluginMetadata} {bytes : List UInt8}
    (h : canonicalMetadataBytes floats left = .ok bytes) (hleft : left.Readable)
    (hright : right.Readable) :
    canonicalMetadataBytes floats right = .ok bytes ↔ left.covered = right.covered := by
  rw [← canonicalDocument_eq_iff]
  constructor
  · intro hbytes
    obtain ⟨text, htext, hencode⟩ := canonicalMetadataBytes_ok_iff.mp h
    obtain ⟨text', htext', hencode'⟩ := canonicalMetadataBytes_ok_iff.mp hbytes
    have hsame : text = text' := by
      have hdecode := Utf8.decode_encode hencode
      rw [Utf8.decode_encode hencode', Option.some_inj] at hdecode
      exact hdecode.symm
    cases hsame
    have hjson : Json.isJson (canonicalDocument right) = true := by
      rw [← Json.dumps_isSome_iff floats true, htext']
      rfl
    have hcanonical := (Json.dumps_eq_iff htext hleft hright hjson).mp htext'
    -- Both documents are written in the order of their keys already.
    rw [Json.canonical_of_inOrder (inOrder_canonicalDocument left),
      Json.canonical_of_inOrder (inOrder_canonicalDocument right)] at hcanonical
    exact hcanonical
  · intro hdocument
    rw [canonicalMetadataBytes, ← hdocument]
    exact h

/-- Bytes of one length are told apart by their number. -/
theorem eq_of_bigEndian_eq {left right : List UInt8} (hlength : left.length = right.length)
    (h : Hex.bigEndian left = Hex.bigEndian right) : left = right := by
  -- The last byte is the number modulo 256, so the induction takes it off.
  induction left using List.reverseRecOn generalizing right with
  | nil => exact (List.length_eq_zero_iff.mp hlength.symm).symm
  | append_singleton left byte ih =>
    cases right using List.reverseRecOn with
    | nil => simp at hlength
    | append_singleton right byte' =>
      simp only [Hex.bigEndian, List.foldl_append, List.foldl_cons, List.foldl_nil] at h
      have hbyte := byte.toNat_lt
      have hbyte' := byte'.toNat_lt
      have hlast : byte = byte' := UInt8.toNat_inj.mp (by omega)
      have hinit : Hex.bigEndian left = Hex.bigEndian right := by
        show left.foldl _ 0 = right.foldl _ 0
        omega
      rw [hlast, ih (by simpa using hlength) hinit]

variable {sha256 : List UInt8 → Hex.Digest}

/-- Metadata that has been validated has its fingerprint. -/
theorem metadataFingerprint_of_validate {plugin : PluginMetadata}
    (h : validatePluginMetadata floats sha256 plugin = .ok ()) :
    ∃ bytes, canonicalMetadataBytes floats plugin = .ok bytes ∧
      plugin.fingerprint = Hex.bigEndian ((sha256 bytes).toList.take 8) := by
  simp only [validatePluginMetadata, Result.check_bind_ok_iff] at h
  obtain ⟨_, _, _, _, _, hlast⟩ := h
  obtain ⟨expected, hexpected, hcheck⟩ := Result.bind_ok_iff.mp hlast
  rw [raiseIf_ok_iff, not_not] at hcheck
  unfold metadataFingerprint at hexpected
  cases hbytes : canonicalMetadataBytes floats plugin with
  | error error =>
    rw [hbytes] at hexpected
    cases hexpected
  | ok bytes =>
    rw [hbytes] at hexpected
    cases hexpected
    exact ⟨bytes, rfl, hcheck⟩

/-- **The fingerprint identifies the metadata.** Two plugins whose metadata is valid have the same
fingerprint exactly when what the bytes cover of them is the same, or when the digests of two
different texts start with the same eight bytes. -/
theorem fingerprint_eq_iff {left right : PluginMetadata}
    (hleft : validatePluginMetadata floats sha256 left = .ok ())
    (hright : validatePluginMetadata floats sha256 right = .ok ())
    (hreadable : left.Readable) (hreadable' : right.Readable) :
    left.fingerprint = right.fingerprint ↔ left.covered = right.covered ∨
      ∃ bytes bytes', canonicalMetadataBytes floats left = .ok bytes ∧
        canonicalMetadataBytes floats right = .ok bytes' ∧ bytes ≠ bytes' ∧
        (sha256 bytes).toList.take 8 = (sha256 bytes').toList.take 8 := by
  obtain ⟨bytes, hbytes, hfingerprint⟩ := metadataFingerprint_of_validate hleft
  obtain ⟨bytes', hbytes', hfingerprint'⟩ := metadataFingerprint_of_validate hright
  have hcovered := canonicalMetadataBytes_eq_iff hbytes hreadable hreadable'
  rw [hfingerprint, hfingerprint', ← hcovered, hbytes']
  constructor
  · intro h
    -- Both heads have eight bytes, so the numbers are the same only when the bytes are.
    have hdigest := eq_of_bigEndian_eq (by simp) h
    by_cases hsame : bytes' = bytes
    · exact Or.inl (congrArg Except.ok hsame)
    · exact Or.inr ⟨bytes, bytes', hbytes, rfl, Ne.symm hsame, hdigest⟩
  · rintro (hsame | ⟨_, _, hfirst, hsecond, _, hdigest⟩)
    · cases hsame
      rfl
    · cases hbytes.symm.trans hfirst
      cases hsecond
      rw [hdigest]

end

/-! ### Two versions of a plugin -/

/-- The metadata of an operation that fills a tensor. -/
def fillOperation : OperationMetadata where
  name := "fill"
  tensorInputs := []
  tensorOutputs := [⟨"y", "writeOnly", none, ["float32"]⟩]
  scalarParameters := [⟨"value", "float64", true, none, none, []⟩]
  operationId := 1
  outputPlans := [⟨"y", some ⟨.dimensions [.constant 4], .fixed "float32"⟩⟩]
  vjp := none
  internal := false

/-- The metadata of a plugin with this operation, before it has a fingerprint. -/
def fillSource (version : String) : PluginMetadata where
  name := "fill"
  version := ofString version
  protocolVersion := 2
  operations := [fillOperation]
  fingerprint := 0
  metadataVersion := 2

/-- The metadata with the fingerprint that SHA-256 gives. -/
def fillMetadata (version : String) : PluginMetadata :=
  { fillSource version with
    fingerprint := ((metadataFingerprint .ofBits Sha256.digestVector
      (fillSource version)).toOption).getD 0 }

/-- The metadata is valid. -/
theorem validate_fillMetadata (version : String) (h : version = "1.0" ∨ version = "1.1") :
    validatePluginMetadata .ofBits Sha256.digestVector (fillMetadata version) = .ok () := by
  -- For digests that are zero the kernel computes it.
  have hok : (validatePluginMetadata .ofBits (fun _ => Vector.replicate 32 0)
      (fillSource version)).isOk = true := by
    rcases h with rfl | rfl
    · decide +kernel
    · decide +kernel
  have hvalid : validatePluginMetadata .ofBits (fun _ => Vector.replicate 32 0)
      (fillSource version) = .ok () := by
    cases hresult : validatePluginMetadata .ofBits (fun _ => Vector.replicate 32 0)
        (fillSource version) with
    | error error =>
      rw [hresult] at hok
      cases hok
    | ok u => rfl
  have hjson : (Json.canonicalBytes .ofBits (canonicalDocument (fillSource version))).isSome =
      true := by
    rw [Json.canonicalBytes_isSome_iff]
    rfl
  obtain ⟨bytes, hbytes⟩ := Option.isSome_iff_exists.mp hjson
  obtain ⟨fingerprint, hfingerprint⟩ : ∃ fingerprint,
      metadataFingerprint .ofBits Sha256.digestVector (fillSource version) = .ok fingerprint := by
    rw [metadataFingerprint, canonicalMetadataBytes, hbytes]
    exact ⟨_, rfl⟩
  rw [fillMetadata, hfingerprint]
  exact validatePluginMetadata_rehash hvalid hfingerprint

/-- The canonical metadata can be read back. -/
theorem readable_fillSource (version : String) : (fillSource version).Readable := by
  have hone : Json.Loadable true (.int 1) := loadable_int (by decide)
  have htwo : Json.Loadable true (.int 2) := loadable_int (by decide)
  have hfour : Json.Loadable true (.int 4) := loadable_int (by decide)
  have hnull : Json.Loadable true .null := everywhere_of_nesting rfl trivial
  have hbool : ∀ b, Json.Loadable true (.bool b) := fun b => everywhere_of_nesting rfl trivial
  have hnone : Json.Loadable true (.arr []) := .arr trivial (by simp)
  have hdtypes : Json.Loadable true (.arr [.string "float32"]) :=
    .arr trivial (by simp [loadable_string])
  have hdtype : Json.Loadable true (dtypeDocument (.fixed "float32")) := by
    apply loadable_object (show _ = ["kind", "value"] from rfl) (by decide)
    simp [loadable_string]
  have hdimension : Json.Loadable true (dimensionDocument (.constant 4)) := by
    rw [dimensionDocument]
    apply loadable_object (show _ = ["kind", "value"] from rfl) (by decide)
    simp [loadable_string, hfour]
  have hshape : Json.Loadable true (.arr [dimensionDocument (.constant 4)]) :=
    .arr trivial (by simp [hdimension])
  have hknown : Json.Loadable true
      (knownDocument ⟨.dimensions [.constant 4], .fixed "float32"⟩) := by
    apply loadable_object (show _ = ["dtype", "shape", "shape_kind"] from rfl) (by decide)
    simp [loadable_string, hdtype, dimensionsDocument, hshape]
  have hplan : Json.Loadable true
      (outputDocument ⟨"y", some ⟨.dimensions [.constant 4], .fixed "float32"⟩⟩) := by
    apply loadable_object (show _ = ["known", "name"] from rfl) (by decide)
    simp [loadable_string, hknown]
  have htensor : Json.Loadable true
      (tensorDocument 2 ⟨"y", "writeOnly", none, ["float32"]⟩) := by
    apply loadable_object (show _ = ["access", "dtype_variable", "dtypes", "name"] from rfl)
      (by decide)
    simp [sinceVersion2, loadable_string, hnull, Document.strings, hdtypes]
  have hscalar : Json.Loadable true
      (scalarDocument 2 ⟨"value", "float64", true, none, none, []⟩) := by
    apply loadable_object
      (show _ = ["default", "enum_name", "enum_values", "kind", "name", "required"] from rfl)
      (by decide)
    simp [sinceVersion2, loadable_string, hnull, hbool, hnone]
  have hoperation : Json.Loadable true (operationDocument 2 fillOperation) := by
    apply loadable_object (show _ = ["dtype_variables", "internal", "name", "operation_id",
      "output_plans", "scalar_parameters", "tensor_inputs", "tensor_outputs", "vjp"] from rfl)
      (by decide)
    have hplans := Everywhere.arr (P := Json.Plain true) trivial
      (List.forall_mem_singleton.mpr hplan)
    have hscalars := Everywhere.arr (P := Json.Plain true) trivial
      (List.forall_mem_singleton.mpr hscalar)
    have htensors := Everywhere.arr (P := Json.Plain true) trivial
      (List.forall_mem_singleton.mpr htensor)
    simp [fillOperation, sinceVersion2, loadable_string, hbool, hone, hnull, hnone, hplans,
      hscalars, htensors]
  have hoperations := Everywhere.arr (P := Json.Plain true) trivial
    (List.forall_mem_singleton.mpr hoperation)
  have hmetadata : Json.Loadable true (.object [("metadata_version", .int 2),
      ("name", .string "fill"), ("operations", .arr [operationDocument 2 fillOperation]),
      ("protocol_version", .int 2), ("version", .string version)]) := by
    apply loadable_object (show _ = ["metadata_version", "name", "operations",
      "protocol_version", "version"] from rfl) (by decide)
    simp [loadable_string, htwo, hoperations]
  apply loadable_object (show _ = ["encoding", "metadata"] from rfl) (by decide)
  rw [List.forall_mem_cons, List.forall_mem_singleton]
  exact ⟨loadable_string _, hmetadata⟩

/-- The same with the fingerprint. -/
theorem readable_fillMetadata (version : String) : (fillMetadata version).Readable := by
  rw [PluginMetadata.Readable, fillMetadata, canonicalDocument_withFingerprint]
  exact readable_fillSource version

/-- Two versions of the plugin: their texts are different, so their fingerprints are the same only
when the digests of the texts begin alike. -/
theorem fingerprint_eq_iff_fill :
    (fillMetadata "1.0").fingerprint = (fillMetadata "1.1").fingerprint ↔
      (fillMetadata "1.0").covered = (fillMetadata "1.1").covered ∨
      ∃ bytes bytes', canonicalMetadataBytes .ofBits (fillMetadata "1.0") = .ok bytes ∧
        canonicalMetadataBytes .ofBits (fillMetadata "1.1") = .ok bytes' ∧ bytes ≠ bytes' ∧
        (Sha256.digestVector bytes).toList.take 8 =
          (Sha256.digestVector bytes').toList.take 8 :=
  fingerprint_eq_iff (validate_fillMetadata "1.0" (.inl rfl))
    (validate_fillMetadata "1.1" (.inr rfl)) (readable_fillMetadata "1.0")
    (readable_fillMetadata "1.1")

end Wmfs.Manifest
