import Wmfs.Compiler.Interface

/-!
# `Wmfs.Compiler.Documents`: the documents that the compiler generates

The documents of `wmfs_tool/generator.py` that describe the operations of a plugin: the interface
document, the manifest, the metadata document and the worker declarations. The first, the third
and the fourth are hashed or written as canonical JSON.

The JSON text of a document does not depend on the order of the members of a table. The members
stand here in the order of their keys, in which `sort_keys` writes them.

SHA-256 is a parameter.
-/

set_option autoImplicit false

namespace Wmfs.Compiler

open Wmfs.Lib
open Wmfs.Lib.Utf8 (Text ofString)
open Wmfs.Lib.Document (orNull)

/-! ### `asdict` -/

/-- An identifier. -/
def identifierDocument (identifier : Identifier) : Document := .string identifier.name

/-- A list of identifiers. -/
def identifiersDocument (identifiers : List Identifier) : Document :=
  .arr (identifiers.map identifierDocument)

/-- `asdict` of a `DTypeVariable`. -/
def dtypeVariableDocument (declared : DTypeVariable) : Document :=
  .object [("dtypes", .strings declared.dtypes.names), ("name", identifierDocument declared.name)]

/-- `asdict` of a `TensorParameter`. -/
def tensorDocument (tensor : TensorParameter) : Document :=
  .object [("access", .string tensor.access.name),
    ("dtype_variable", orNull identifierDocument tensor.dtypeVariable),
    ("dtypes", .strings tensor.dtypes),
    ("name", identifierDocument tensor.name)]

/-- `asdict` of a `ScalarParameter`. -/
def scalarDocument (scalar : ScalarParameter) : Document :=
  .object [("default", orNull id scalar.default),
    ("enum", orNull identifierDocument scalar.enum),
    ("enum_values", identifiersDocument scalar.enumValues),
    ("kind", .string scalar.kind),
    ("name", identifierDocument scalar.name),
    ("required", .bool scalar.required)]

mutual
/-- `asdict` of a `Dimension`. -/
def dimensionDocument : Dimension → Document
  | .constant value _ =>
    .object [("axis", .int value), ("input", .null), ("kind", .string "constant"),
      ("operands", .arr []), ("scalar", .null), ("when_false", .null), ("when_true", .null)]
  | .inputAxis input axis =>
    .object [("axis", .int axis), ("input", .int input), ("kind", .string "input_axis"),
      ("operands", .arr []), ("scalar", .null), ("when_false", .null), ("when_true", .null)]
  | .minimum first second rest =>
    .object [("axis", .null), ("input", .null), ("kind", .string "minimum"),
      ("operands", .arr (dimensionDocument first :: dimensionDocument second ::
        dimensionsDocument rest)),
      ("scalar", .null), ("when_false", .null), ("when_true", .null)]
  | .select scalar whenTrue whenFalse =>
    .object [("axis", .null), ("input", .null), ("kind", .string "select"), ("operands", .arr []),
      ("scalar", .int scalar), ("when_false", dimensionDocument whenFalse),
      ("when_true", dimensionDocument whenTrue)]

/-- `asdict` of each dimension. -/
def dimensionsDocument : List Dimension → List Document
  | [] => []
  | dimension :: dimensions => dimensionDocument dimension :: dimensionsDocument dimensions
end

/-- `asdict` of a `DType`. -/
def dtypeDocument : DType → Document
  | .input index =>
    .object [("input", .int index), ("kind", .string "input"), ("scalar", .null), ("value", .null),
      ("variable", .null)]
  | .fixed value =>
    .object [("input", .null), ("kind", .string "fixed"), ("scalar", .null),
      ("value", .str value.text), ("variable", .null)]
  | .variable name =>
    .object [("input", .null), ("kind", .string "variable"), ("scalar", .null), ("value", .null),
      ("variable", identifierDocument name)]
  | .promoteTensorScalar input scalar =>
    .object [("input", .int input), ("kind", .string "promote_tensor_scalar"),
      ("scalar", .int scalar), ("value", .null), ("variable", .null)]

/-- `dimensions` of an output. -/
def Output.dimensions (output : Output) : List Dimension :=
  match output.known with
  | some ⟨.dimensions values, _⟩ => values
  | _ => []

/-- `same_shape_as_input` of an output. -/
def Output.sameShapeAsInput (output : Output) : Option Int :=
  match output.known with
  | some ⟨.sameShapeAsInput input, _⟩ => some input
  | _ => none

/-- `asdict` of an `Output`. -/
def outputDocument (output : Output) : Document :=
  .object [("allocation", .string (if output.known.isSome then "known" else "dynamic")),
    ("dimensions", .arr (dimensionsDocument output.dimensions)),
    ("dtype", orNull dtypeDocument output.dtype),
    ("name", identifierDocument output.name),
    ("same_shape_as_input", orNull .int output.sameShapeAsInput)]

/-- `asdict` of a `Vjp`. -/
def vjpDocument (vjp : Vjp) : Document :=
  .object [("input_gradients", .ints vjp.inputGradients),
    ("operation_id", .int vjp.operationId),
    ("output_cotangents", .ints vjp.outputCotangents),
    ("saved_inputs", .ints vjp.savedInputs),
    ("saved_outputs", .ints vjp.savedOutputs),
    ("scalar_parameters", .ints vjp.scalarParameters)]

/-- `asdict` of an `Operation`. -/
def operationDocument (operation : Operation) : Document :=
  .object [("dtype_variables", .arr (operation.dtypeVariables.map dtypeVariableDocument)),
    ("inputs", .arr (operation.inputs.map tensorDocument)),
    ("internal", .bool operation.internal),
    ("name", identifierDocument operation.name),
    ("operation_id", .int operation.operationId),
    ("outputs", .arr (operation.outputs.map outputDocument)),
    ("scalars", .arr (operation.scalars.map scalarDocument)),
    ("vjp", orNull vjpDocument operation.vjp)]

/-- `asdict` of an `Enum`. -/
def enumDocument (declaration : Enum) : Document :=
  .object [("name", identifierDocument declaration.name),
    ("values", identifiersDocument declaration.values)]

/-- `asdict` of a `Lifecycle`. -/
def lifecycleDocument (lifecycle : Lifecycle) : Document :=
  .object [("initialize", .bool lifecycle.initializeHook), ("shutdown", .bool lifecycle.shutdownHook)]

/-- `WORKER_DECLARATIONS` of `_worker_python_adapter`. -/
def workerDeclarations (plugin : Plugin) : Document :=
  .arr (plugin.operations.map operationDocument)

/-! ### The interface document -/

/-- An item of `operations` in `_interface_document`: `operation_id` is renamed to `id`. -/
def interfaceOperation (operation : Operation) : Document :=
  .object [("dtype_variables", .arr (operation.dtypeVariables.map dtypeVariableDocument)),
    ("id", .int operation.operationId),
    ("inputs", .arr (operation.inputs.map tensorDocument)),
    ("internal", .bool operation.internal),
    ("name", identifierDocument operation.name),
    ("outputs", .arr (operation.outputs.map outputDocument)),
    ("scalars", .arr (operation.scalars.map scalarDocument)),
    ("vjp", orNull vjpDocument operation.vjp)]

/-- `plugin` of `_interface_document`. -/
def pluginDocument (plugin : Plugin) : Document :=
  .object [("name", identifierDocument plugin.name),
    ("namespace", identifierDocument plugin.apiNamespace),
    ("pythonModule", identifierDocument plugin.pythonModule),
    ("version", .str plugin.version.text)]

/-- `_interface_document`. -/
def interfaceDocument (plugin : Plugin) : Document :=
  .object [("abiVersion", .int plugin.abiVersion),
    ("enums", .arr (plugin.enums.map enumDocument)),
    ("formatVersion", .int plugin.formatVersion),
    ("lifecycle", lifecycleDocument plugin.lifecycle),
    ("operations", .arr (plugin.operations.map interfaceOperation)),
    ("plugin", pluginDocument plugin),
    ("protocolVersion", .int plugin.protocolVersion)]

/-! ### The metadata document -/

mutual
/-- `_metadata_dimension`. -/
def metadataDimension : Dimension → Document
  | .constant value _ => .object [("kind", .string "constant"), ("value", .int value)]
  | .inputAxis input axis =>
    .object [("kind", .string "inputAxis"),
      ("value", .object [("axis", .int axis), ("input", .int input)])]
  | .minimum first second rest =>
    .object [("kind", .string "minimum"),
      ("value", .arr (metadataDimension first :: metadataDimension second ::
        metadataDimensions rest))]
  | .select scalar whenTrue whenFalse =>
    .object [("kind", .string "select"),
      ("value", .object [("scalar_parameter", .int scalar),
        ("when_false", metadataDimension whenFalse), ("when_true", metadataDimension whenTrue)])]

/-- `_metadata_dimension` of each dimension. -/
def metadataDimensions : List Dimension → List Document
  | [] => []
  | dimension :: dimensions => metadataDimension dimension :: metadataDimensions dimensions
end

/-- `_metadata_dtype`. -/
def metadataDType : DType → Document
  | .input index => .object [("kind", .string "input"), ("value", .int index)]
  | .fixed value => .object [("kind", .string "fixed"), ("value", .str value.text)]
  | .variable name => .object [("kind", .string "variable"), ("value", identifierDocument name)]
  | .promoteTensorScalar input scalar =>
    .object [("kind", .string "promoteTensorScalar"),
      ("value", .object [("scalar_parameter", .int scalar), ("tensor_input", .int input)])]

/-- `known` of `_metadata_output`. -/
def metadataKnown (known : KnownOutput) : Document :=
  match known.shape with
  | .sameShapeAsInput input =>
    .object [("dtype", metadataDType known.dtype), ("shape", .int input),
      ("shape_kind", .string "sameShapeAsInput")]
  | .dimensions values =>
    .object [("dtype", metadataDType known.dtype), ("shape", .arr (metadataDimensions values)),
      ("shape_kind", .string "dimensions")]

/-- `_metadata_output`. -/
def metadataOutput (output : Output) : Document :=
  .object [("known", orNull metadataKnown output.known), ("name", identifierDocument output.name)]

/-- `_metadata_access`. -/
def metadataAccess : Access → String
  | .readOnly => "readOnly"
  | .readWrite => "readWrite"

/-- An item of `scalar_parameters` in `_metadata_operation`. -/
def metadataScalar (scalar : ScalarParameter) : Document :=
  .object [("default", orNull id scalar.default),
    ("enum_name", orNull identifierDocument scalar.enum),
    ("enum_values", identifiersDocument scalar.enumValues),
    ("kind", .string scalar.kind),
    ("name", identifierDocument scalar.name),
    ("required", .bool scalar.required)]

/-- An item of `tensor_inputs` in `_metadata_operation`. -/
def metadataInput (tensor : TensorParameter) : Document :=
  .object [("access", .string (metadataAccess tensor.access)),
    ("dtype_variable", orNull identifierDocument tensor.dtypeVariable),
    ("dtypes", .strings tensor.dtypes),
    ("name", identifierDocument tensor.name)]

/-- An item of `tensor_outputs` in `_metadata_operation`. -/
def metadataTensorOutput (output : Output) : Document :=
  .object [("access", .string "readOnly"), ("dtype_variable", .null), ("dtypes", .arr []),
    ("name", identifierDocument output.name)]

/-- `_metadata_operation`. -/
def metadataOperation (operation : Operation) : Document :=
  .object [("dtype_variables", .arr (operation.dtypeVariables.map dtypeVariableDocument)),
    ("internal", .bool operation.internal),
    ("name", identifierDocument operation.name),
    ("operation_id", .int operation.operationId),
    ("output_plans", .arr (operation.outputs.map metadataOutput)),
    ("scalar_parameters", .arr (operation.scalars.map metadataScalar)),
    ("tensor_inputs", .arr (operation.inputs.map metadataInput)),
    ("tensor_outputs", .arr (operation.outputs.map metadataTensorOutput)),
    ("vjp", orNull vjpDocument operation.vjp)]

/-- The envelope that `_metadata_fingerprint` hashes. -/
def metadataDocument (plugin : Plugin) : Document :=
  .object [("encoding", .string "wmfs-plugin-metadata-v2"),
    ("metadata", .object [("metadata_version", .int 2),
      ("name", identifierDocument plugin.name),
      ("operations", .arr (plugin.operations.map metadataOperation)),
      ("protocol_version", .int plugin.protocolVersion),
      ("version", .str plugin.version.text)])]

/-! ### The manifest -/

section
variable (floats : Json.FloatText) (sha256 : List UInt8 → Hex.Digest)

/-- `hashlib.sha256(canonical).hexdigest()` of a document. `json.dumps` raises for a document
that has no canonical text. -/
def fingerprintOf (document : Document) : Option Text :=
  (Json.canonicalBytes floats document).map fun bytes => Hex.hexBytes (sha256 bytes).toList

/-- `int.from_bytes(hashlib.sha256(canonical).digest()[:8], "big")` of a document. -/
def shortFingerprintOf (document : Document) : Option Nat :=
  (Json.canonicalBytes floats document).map fun bytes =>
    Hex.bigEndian ((sha256 bytes).toList.take 8)

/-- `_metadata_fingerprint`. -/
def metadataFingerprint (plugin : Plugin) : Option Nat :=
  shortFingerprintOf floats sha256 (metadataDocument plugin)

/-- `_startup_capabilities`. -/
def startupCapabilities (plugin : Plugin) : Int :=
  0b110111 + (if plugin.configuration.isSome then 2 ^ 3 else 0) +
    (if plugin.lifecycle.initializeHook then 2 ^ 6 else 0) +
    (if plugin.lifecycle.shutdownHook then 2 ^ 7 else 0)

/-- `_configuration_fingerprint`, of a plugin that has a configuration. -/
def configurationFingerprint (configuration : Configuration) : Option Text :=
  (fingerprintOf floats sha256 (configurationSizeDocument configuration)).map fun fingerprint =>
    ofString "sha256:" ++ fingerprint

/-- `_configuration_manifest`. -/
def configurationManifest (configuration : Configuration) : Option Document :=
  (configurationFingerprint floats sha256 configuration).map fun fingerprint =>
    .object [("encoding", .string "wmfs-configuration-schema-v1"),
      ("examples", .obj (configuration.examples.map fun entry =>
        (ofString entry.1.name, .obj entry.2))),
      ("fingerprint", .str fingerprint),
      ("schema", configurationSchema configuration),
      ("schemaVersion", .int configuration.schemaVersion)]

/-- `deployment` of the manifest. -/
def deploymentDocument (plugin : Plugin) : Document :=
  .object (optional "bundledNamespace" (plugin.bundledNamespace.map identifierDocument) ++
    [("entrySymbol", .str (ofString "wmfs_" ++ (ofString plugin.apiNamespace.name).map lower ++
      ofString "_plugin_get_api"))] ++
    optional "localProvider" (plugin.pythonProvider.map fun provider => .str provider.text) ++
    [("root", .str plugin.deploymentRoot.text), ("worker", .str plugin.worker.text)])

/-- The members of the document of `_manifest`, with the two fingerprints and the configuration. -/
def manifestMembers (plugin : Plugin) (fingerprint : Text) (metadata : Nat)
    (configuration : Document) : List (String × Document) :=
  [("abiVersion", .int plugin.abiVersion),
    ("configuration", configuration),
    ("controlAbiVersion", .int 1),
    ("deployment", deploymentDocument plugin),
    ("enums", .arr (plugin.enums.map enumDocument)),
    ("formatVersion", .int plugin.formatVersion),
    ("generator", .string "wmfs-tool/2"),
    ("interfaceFingerprint", .str (ofString "sha256:" ++ fingerprint)),
    ("lifecycle", lifecycleDocument plugin.lifecycle),
    ("metadataFingerprint", .str (ofString "0x" ++ Hex.hexDigits 16 metadata)),
    ("operationCount", .int plugin.operations.length),
    ("operations", .arr (plugin.operations.map interfaceOperation)),
    ("plugin", pluginDocument plugin),
    ("protocolVersion", .int plugin.protocolVersion),
    ("startupCapabilities", .int (startupCapabilities plugin))]

/-- The document of `_manifest`, as `generate` calls it. -/
def manifest (plugin : Plugin) : Option Document := do
  let fingerprint ← fingerprintOf floats sha256 (interfaceDocument plugin)
  let metadata ← metadataFingerprint floats sha256 plugin
  let configuration ← plugin.configuration.elim (some .null) fun configuration =>
    configurationManifest floats sha256 configuration
  return .object (manifestMembers plugin fingerprint metadata configuration)

end

end Wmfs.Compiler
