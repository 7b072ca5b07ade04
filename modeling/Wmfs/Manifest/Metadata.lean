import Wmfs.Invocation.Metadata
import Wmfs.Lib.Json

/-!
# `Wmfs.Manifest.Metadata`: the metadata of a plugin

`PluginMetadata` of `wmfs/protocol/metadata.py`, with `canonical_metadata_bytes`,
`metadata_fingerprint`, `_validate_vjp` and `validate_plugin_metadata`. The metadata of an
operation is that of an invocation with the two fields that no invocation reads, `vjp` and
`internal`.

The `kind` of an expression is a constructor here, and `DimensionExpression.kind` and
`DTypeExpression.kind` give its spelling. The members of a document stand in the order of their
keys. SHA-256 is a parameter.
-/

set_option autoImplicit false

namespace Wmfs.Manifest

open Wmfs.Lib
open Wmfs.Lib.Utf8 (Text ofString)
open Wmfs.Lib.Document (orNull)
open Wmfs.Invocation (DimensionExpression DTypeExpression ShapeExpression KnownOutput OutputPlan
  TensorParameter ScalarParameter DTypeVariable Exn valueError namedValueError
  validateOperationMetadata)
open Wmfs.Ring.Codec (Value)

/-! ### The metadata -/

/-- `VjpMetadata`. -/
structure VjpMetadata where
  operationId : Int
  savedInputs : List Int
  savedOutputs : List Int
  outputCotangents : List Int
  inputGradients : List Int
  scalarParameters : List Int
  deriving DecidableEq

/-- `OperationMetadata`. -/
structure OperationMetadata extends Invocation.OperationMetadata where
  vjp : Option VjpMetadata
  internal : Bool

/-- `PluginMetadata`. -/
structure PluginMetadata where
  name : String
  version : Text
  protocolVersion : Int
  operations : List OperationMetadata
  fingerprint : Nat
  metadataVersion : Int

/-! ### The canonical document -/

/-- A scalar value. -/
def valueDocument : Value → Document
  | .bool b => .bool b
  | .float bits => .float bits
  | .int n => .int n
  | .str text => .str text

/-- The members that metadata of version 1 does not have. -/
def sinceVersion2 (version : Int) (members : List (String × Document)) :
    List (String × Document) :=
  if version = 1 then [] else members

/-- `asdict` of a `DTypeVariable`. -/
def dtypeVariableDocument (declared : DTypeVariable) : Document :=
  .object [("dtypes", .strings declared.dtypes), ("name", .string declared.name)]

/-- `asdict` of a `TensorParameter`. -/
def tensorDocument (version : Int) (parameter : TensorParameter) : Document :=
  .object (("access", .string parameter.access) ::
    sinceVersion2 version [("dtype_variable", orNull .string parameter.dtypeVariable),
      ("dtypes", .strings parameter.dtypes)] ++
    [("name", .string parameter.name)])

/-- `asdict` of a `ScalarParameter`. -/
def scalarDocument (version : Int) (scalar : ScalarParameter) : Document :=
  .object (("default", orNull valueDocument scalar.default) ::
    sinceVersion2 version [("enum_name", orNull .string scalar.enumName),
      ("enum_values", .arr (scalar.enumValues.map .str))] ++
    [("kind", .string scalar.kind), ("name", .string scalar.name),
      ("required", .bool scalar.required)])

mutual
/-- `asdict` of a `DimensionExpression`. -/
def dimensionDocument : DimensionExpression → Document
  | .constant value => .object [("kind", .string "constant"), ("value", .int value)]
  | .inputAxis input axis =>
    .object [("kind", .string "inputAxis"),
      ("value", .object [("axis", .int axis), ("input", .int input)])]
  | .minimum values =>
    .object [("kind", .string "minimum"), ("value", .arr (dimensionsDocument values))]
  | .select scalarParameter whenTrue whenFalse =>
    .object [("kind", .string "select"),
      ("value", .object [("scalar_parameter", .int scalarParameter),
        ("when_false", dimensionDocument whenFalse), ("when_true", dimensionDocument whenTrue)])]

/-- `asdict` of each dimension. -/
def dimensionsDocument : List DimensionExpression → List Document
  | [] => []
  | dimension :: dimensions => dimensionDocument dimension :: dimensionsDocument dimensions
end

/-- The spelling of `kind`. -/
def dtypeKind : DTypeExpression → String
  | .fixed _ => "fixed"
  | .input _ => "input"
  | .dtypeVariable _ => "variable"
  | .promoteTensorScalar _ _ => "promoteTensorScalar"

/-- `asdict` of a `DTypeExpression`. -/
def dtypeDocument (dtype : DTypeExpression) : Document :=
  .object [("kind", .string (dtypeKind dtype)),
    ("value",
      match dtype with
      | .fixed name => .string name
      | .input index => .int index
      | .dtypeVariable name => .string name
      | .promoteTensorScalar tensorInput scalarParameter =>
        .object [("scalar_parameter", .int scalarParameter), ("tensor_input", .int tensorInput)])]

/-- `asdict` of a `KnownOutput`. -/
def knownDocument (known : KnownOutput) : Document :=
  match known.shape with
  | .sameShapeAsInput input =>
    .object [("dtype", dtypeDocument known.dtype), ("shape", .int input),
      ("shape_kind", .string "sameShapeAsInput")]
  | .dimensions values =>
    .object [("dtype", dtypeDocument known.dtype), ("shape", .arr (dimensionsDocument values)),
      ("shape_kind", .string "dimensions")]

/-- `asdict` of an `OutputPlan`. -/
def outputDocument (plan : OutputPlan) : Document :=
  .object [("known", orNull knownDocument plan.known), ("name", .string plan.name)]

/-- `asdict` of a `VjpMetadata`. -/
def vjpDocument (vjp : VjpMetadata) : Document :=
  .object [("input_gradients", .ints vjp.inputGradients),
    ("operation_id", .int vjp.operationId),
    ("output_cotangents", .ints vjp.outputCotangents),
    ("saved_inputs", .ints vjp.savedInputs),
    ("saved_outputs", .ints vjp.savedOutputs),
    ("scalar_parameters", .ints vjp.scalarParameters)]

/-- `asdict` of an `OperationMetadata`. -/
def operationDocument (version : Int) (operation : OperationMetadata) : Document :=
  .object (sinceVersion2 version
      [("dtype_variables", .arr (operation.dtypeVariables.map dtypeVariableDocument))] ++
    [("internal", .bool operation.internal),
      ("name", .string operation.name),
      ("operation_id", .int operation.operationId),
      ("output_plans", .arr (operation.outputPlans.map outputDocument)),
      ("scalar_parameters", .arr (operation.scalarParameters.map (scalarDocument version))),
      ("tensor_inputs", .arr (operation.tensorInputs.map (tensorDocument version))),
      ("tensor_outputs", .arr (operation.tensorOutputs.map (tensorDocument version))),
      ("vjp", orNull vjpDocument operation.vjp)])

/-- The document that `canonical_metadata_bytes` writes. -/
def canonicalDocument (plugin : PluginMetadata) : Document :=
  .object [("encoding", .string
      (if plugin.metadataVersion = 1 then "wmfs-plugin-metadata-v1" else "wmfs-plugin-metadata-v2")),
    ("metadata", .object
      (sinceVersion2 plugin.metadataVersion [("metadata_version", .int plugin.metadataVersion)] ++
        [("name", .string plugin.name),
          ("operations", .arr (plugin.operations.map (operationDocument plugin.metadataVersion))),
          ("protocol_version", .int plugin.protocolVersion),
          ("version", .str plugin.version)]))]

/-- The fingerprint is no part of the document. -/
theorem canonicalDocument_withFingerprint (plugin : PluginMetadata) (fingerprint : Nat) :
    canonicalDocument { plugin with fingerprint } = canonicalDocument plugin := rfl

/-! ### Validation -/

section
variable (floats : Json.FloatText) (sha256 : List UInt8 → Hex.Digest)

/-- `canonical_metadata_bytes`. `json.dumps` raises for a float that is not finite. -/
def canonicalMetadataBytes (plugin : PluginMetadata) : Except Exn (List UInt8) :=
  match Json.canonicalBytes floats (canonicalDocument plugin) with
  | some bytes => .ok bytes
  | none => .error (valueError "Out of range float values are not JSON compliant")

/-- `metadata_fingerprint`. -/
def metadataFingerprint (plugin : PluginMetadata) : Except Exn Nat :=
  (canonicalMetadataBytes floats plugin).map fun bytes =>
    Hex.bigEndian ((sha256 bytes).toList.take 8)

/-- A pass of the loop over the references in `_validate_vjp`. -/
def validateReferences (operation : OperationMetadata) (indices : List Int) (count : Nat)
    (label : String) : Except Exn Unit :=
  raiseIf (¬ indices.Nodup ∨ ∃ item ∈ indices, item < 0 ∨ item ≥ count)
    (namedValueError "Operation " operation.name (" has an invalid VJP " ++ label))

/-- A pass of the loop over the scalars in `_validate_vjp`. The indices are in range. -/
def validateVjpScalar (operation : OperationMetadata) (pair : ScalarParameter × Int) :
    Except Exn Unit :=
  raiseIf ((operation.scalarParameters[pair.2.toNat]?).map ScalarParameter.kind ≠ some pair.1.kind)
    (valueError "VJP scalar parameter kinds do not match")

/-- `_validate_vjp`. Operations have distinct identifiers, so the target is the operation itself
when it has the same identifier. -/
def validateVjp (operations : List OperationMetadata) (operation : OperationMetadata) :
    Except Exn Unit :=
  match operation.vjp with
  | none => .ok ()
  | some vjp =>
    match operations.find? fun candidate => candidate.operationId = vjp.operationId with
    | none => .error (namedValueError "Operation " operation.name " references a missing VJP")
    | some target => do
      raiseIf (target.operationId = operation.operationId ∨ target.vjp ≠ none)
        (valueError "VJP operations cannot themselves declare a VJP")
      raiseIf (target.internal = false) (valueError "VJP operations must be internal")
      raiseIf (∃ item ∈ target.tensorInputs, item.access ≠ "readOnly")
        (valueError "VJP tensor inputs must be read-only")
      raiseIf (vjp.outputCotangents = [] ∨ vjp.inputGradients = [])
        (valueError "VJP metadata must declare cotangents and gradients")
      validateReferences operation vjp.savedInputs operation.tensorInputs.length "saved input"
      validateReferences operation vjp.savedOutputs operation.tensorOutputs.length "saved output"
      validateReferences operation vjp.outputCotangents operation.tensorOutputs.length
        "output cotangent"
      validateReferences operation vjp.inputGradients operation.tensorInputs.length
        "input gradient"
      validateReferences operation vjp.scalarParameters operation.scalarParameters.length
        "scalar parameter"
      raiseIf (target.tensorInputs.length ≠
          vjp.savedInputs.length + vjp.savedOutputs.length + vjp.outputCotangents.length)
        (valueError "VJP tensor inputs do not match its metadata")
      raiseIf (target.tensorOutputs.length ≠ vjp.inputGradients.length)
        (valueError "VJP tensor outputs do not match its input gradients")
      raiseIf (target.scalarParameters.length ≠ vjp.scalarParameters.length)
        (valueError "VJP scalar parameters do not match its metadata")
      forM (target.scalarParameters.zip vjp.scalarParameters) (validateVjpScalar operation)

/-- `validate_plugin_metadata`, with `validate_fingerprint=True`. -/
def validatePluginMetadata (plugin : PluginMetadata) : Except Exn Unit := do
  raiseIf (∃ item ∈ plugin.operations, item.operationId = 0)
    (valueError "Plugin operation IDs must be non-zero")
  raiseIf (¬ (plugin.operations.map fun item => item.operationId).Nodup)
    (valueError "Plugin operation IDs must be unique")
  raiseIf (¬ (plugin.operations.map fun item => item.name).Nodup)
    (valueError "Plugin operation names must be unique")
  forM plugin.operations fun operation => do
    validateOperationMetadata operation.toOperationMetadata
    validateVjp plugin.operations operation
  raiseIf (plugin.metadataVersion ≠ 1 ∧ plugin.metadataVersion ≠ 2)
    (valueError "Plugin metadata version is unsupported")
  let expected ← metadataFingerprint floats sha256 plugin
  raiseIf (plugin.fingerprint ≠ expected)
    (.valueError [.text "Plugin metadata fingerprint is 0x",
      .text (Utf8.toString (Hex.hexDigits 16 plugin.fingerprint)), .text ", expected 0x",
      .text (Utf8.toString (Hex.hexDigits 16 expected))])

end

/-- The hash function enters into the fingerprint only: a plugin that is valid for one is valid
for another one, with the fingerprint that it gives. -/
theorem validatePluginMetadata_rehash {floats : Json.FloatText}
    {sha256 sha256' : List UInt8 → Hex.Digest} {plugin : PluginMetadata} {fingerprint : Nat}
    (h : validatePluginMetadata floats sha256 plugin = .ok ())
    (hfingerprint : metadataFingerprint floats sha256' plugin = .ok fingerprint) :
    validatePluginMetadata floats sha256' { plugin with fingerprint } = .ok () := by
  have hsame : metadataFingerprint floats sha256' { plugin with fingerprint } =
      .ok fingerprint := by
    rw [metadataFingerprint, canonicalMetadataBytes, canonicalDocument_withFingerprint]
    exact hfingerprint
  simp only [validatePluginMetadata, Result.check_bind_ok_iff] at h ⊢
  obtain ⟨hids, hunique, hnames, hoperations, hversion, -⟩ := h
  refine ⟨hids, hunique, hnames, hoperations, hversion, ?_⟩
  rw [hsame, Result.ok_bind, raiseIf_ok_iff]
  exact not_not.mpr rfl

end Wmfs.Manifest
