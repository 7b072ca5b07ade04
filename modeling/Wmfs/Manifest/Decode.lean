import Wmfs.Manifest.Metadata

/-!
# `Wmfs.Manifest.Decode`: reading a manifest

The decoders of `wmfs/plugins.py`: `_operation`, `_tensor`, `_scalar`, `_dtype_variable`,
`_output`, `_dimension`, `_dtype` and `_vjp`, the two fingerprint checks, and `load_manifest` as
far as it builds and validates the metadata of the plugin.

A `path` is the parameter `where` of the source. What `load_manifest` does after
`validate_plugin_metadata` is left out: it parses the configuration and the deployment, and looks
for directories.

The metadata holds a default that is a scalar or missing. For a default that is an array or an
object the source builds metadata, which `validate_operation_metadata` refuses. Here the decoder
refuses it.
-/

set_option autoImplicit false

namespace Wmfs.Manifest

open Wmfs.Lib
open Wmfs.Lib.Utf8 (Text ofString)
open Wmfs.Lib.Document (Members get? contains)
open Wmfs.Invocation (DimensionExpression DTypeExpression ShapeExpression KnownOutput OutputPlan
  TensorParameter ScalarParameter DTypeVariable Exn Part valueError namedValueError)
open Wmfs.Ring.Codec (Value)

/-- `PROTOCOL_VERSION`. -/
def PROTOCOL_VERSION : Int := 11

/-! ### Readers -/

/-- `_object`. -/
def object (value : Document) (path : String) : Except Exn Members :=
  match value with
  | .obj members => .ok members
  | _ => .error (valueError (path ++ " must be an object"))

/-- `_array`. -/
def array (value : Document) (path : String) : Except Exn (List Document) :=
  match value with
  | .arr items => .ok items
  | _ => .error (valueError (path ++ " must be an array"))

/-- `_string`. -/
def text (value : Document) (path : String) : Except Exn Text :=
  match value with
  | .str text =>
    if text = [] then .error (valueError (path ++ " must be a non-empty string")) else .ok text
  | _ => .error (valueError (path ++ " must be a non-empty string"))

/-- `_string`, as a name. -/
def string (value : Document) (path : String) : Except Exn String :=
  (text value path).map Utf8.toString

/-- `_integer`. -/
def integer (value : Document) (path : String) : Except Exn Int :=
  match value with
  | .int n => .ok n
  | _ => .error (valueError (path ++ " must be an integer"))

/-- `_boolean`. -/
def boolean (value : Document) (path : String) : Except Exn Bool :=
  match value with
  | .bool b => .ok b
  | _ => .error (valueError (path ++ " must be a boolean"))

/-- `_keys_with_optional`. -/
def keysWithOptional (value : Members) (required optional : List String) (path : String) :
    Except Exn Unit :=
  let missing := required.filter fun key => ¬ contains value key
  let unknown := (Document.keys value).filter fun key => key ∉ (required ++ optional).map ofString
  raiseIf (missing ≠ [] ∨ unknown ≠ [])
    (.valueError [.text (path ++ " fields do not match the manifest format: missing="),
      .reprs (missing.insertionSort (· ≤ ·)), .text ", unknown=",
      .reprs ((Json.sortKeys (unknown.map fun key => (key, ()))).map fun entry =>
        Utf8.toString entry.1)])

/-- `_keys`. -/
def keys (value : Members) (expected : List String) (path : String) : Except Exn Unit :=
  keysWithOptional value expected [] path

/-- `value[key]`. -/
def subscript (value : Members) (key : String) : Except Exn Document :=
  match get? value key with
  | some found => .ok found
  | none => .error (.keyError key)

/-- A value that may be null. -/
def nullable {α : Type} (read : Document → Except Exn α) (value : Document) :
    Except Exn (Option α) :=
  match value with
  | .null => .ok none
  | value => (read value).map some

/-- A tuple of texts. -/
def texts (value : Document) (path : String) : Except Exn (List Text) := do
  (← array value path).mapM fun item => text item path

/-- A tuple of names. -/
def strings (value : Document) (path : String) : Except Exn (List String) := do
  (← array value path).mapM fun item => string item path

/-! ### Operations -/

/-- `decoded_access` of `_tensor`. -/
def decodeAccess (path access : String) : Except Exn String :=
  if access = "read_only" then .ok "readOnly"
  else if access = "read_write" then .ok "readWrite"
  else .error (.valueError [.text (path ++ ".access has unsupported value "), .repr access])

/-- `_tensor`. -/
def tensor (formatVersion : Int) (path : String) (value : Document) :
    Except Exn TensorParameter := do
  let item ← object value path
  keys item (["access", "name"] ++ if formatVersion = 2 then ["dtype_variable", "dtypes"] else [])
    path
  let access ← string (← subscript item "access") (path ++ ".access")
  let decodedAccess ← decodeAccess path access
  if formatVersion = 1 then
    return { name := ← string (← subscript item "name") (path ++ ".name"), access := decodedAccess }
  else
    let name ← string (← subscript item "name") (path ++ ".name")
    let variableName ← nullable (string · (path ++ ".dtype_variable"))
      (← subscript item "dtype_variable")
    let dtypes ← strings (← subscript item "dtypes") (path ++ ".dtypes")
    return { name, access := decodedAccess, dtypeVariable := variableName, dtypes }

/-- The default of a scalar. For one that is no scalar the exception is that of
`validate_operation_metadata`. -/
def scalarDefault (name : String) (required : Bool) (enumName : Option String) :
    Document → Except Exn (Option Value)
  | .null => .ok none
  | .bool b => .ok (some (.bool b))
  | .float bits => .ok (some (.float bits))
  | .int n => .ok (some (.int n))
  | .str text => .ok (some (.str text))
  | .date _ | .arr _ | .obj _ => .error (
    if required then namedValueError "Required scalar " name " cannot have a default"
    else if enumName = none then namedValueError "Scalar " name " has an invalid default"
    else namedValueError "Scalar " name " has an invalid enum default")

/-- `_scalar`. -/
def scalar (formatVersion : Int) (path : String) (value : Document) :
    Except Exn ScalarParameter := do
  let item ← object value path
  keys item (["default", "kind", "name", "required"] ++
    if formatVersion = 2 then ["enum", "enum_values"] else []) path
  let name ← string (← subscript item "name") (path ++ ".name")
  let kind ← string (← subscript item "kind") (path ++ ".kind")
  let required ← boolean (← subscript item "required") (path ++ ".required")
  let default ← subscript item "default"
  if formatVersion = 2 then
    let enumName ← nullable (string · (path ++ ".enum")) (← subscript item "enum")
    let enumValues ← texts (← subscript item "enum_values") (path ++ ".enum_values")
    let default ← scalarDefault name required enumName default
    return { name, kind, required, default, enumName, enumValues }
  else
    let default ← scalarDefault name required none default
    return { name, kind, required, default }

/-- `_dtype_variable`. -/
def dtypeVariable (path : String) (value : Document) : Except Exn DTypeVariable := do
  let item ← object value path
  keys item ["dtypes", "name"] path
  let name ← string (← subscript item "name") (path ++ ".name")
  let dtypes ← strings (← subscript item "dtypes") (path ++ ".dtypes")
  return { name, dtypes }

mutual
/-- `_dimension`. -/
def dimension (path : String) : Document → Except Exn DimensionExpression
  | .obj members => do
    keys members ["axis", "input", "kind", "operands", "scalar", "when_false", "when_true"] path
    let kind ← string (← subscript members "kind") (path ++ ".kind")
    if kind = "constant" then
      return .constant (← integer (← subscript members "axis") (path ++ ".axis"))
    else if kind = "input_axis" then
      let input ← integer (← subscript members "input") (path ++ ".input")
      return .inputAxis input (← integer (← subscript members "axis") (path ++ ".axis"))
    else if kind = "minimum" then
      return .minimum (← dimensionsAt "operands" path members)
    else if kind = "select" then
      let scalarParameter ← integer (← subscript members "scalar") (path ++ ".scalar")
      let whenTrue ← dimensionAt "when_true" path members
      return .select scalarParameter whenTrue (← dimensionAt "when_false" path members)
    else .error (.valueError [.text (path ++ " has unsupported dimension kind "), .repr kind])
  | _ => .error (valueError (path ++ " must be an object"))

/-- `_dimension` of the value of a key. -/
def dimensionAt (key path : String) : Members → Except Exn DimensionExpression
  | [] => .error (.keyError key)
  | (name, value) :: members =>
    if name = ofString key then dimension (path ++ "." ++ key) value
    else dimensionAt key path members

/-- `_dimension` of each item of the array at a key. -/
def dimensionsAt (key path : String) : Members → Except Exn (List DimensionExpression)
  | [] => .error (.keyError key)
  | (name, value) :: members =>
    if name = ofString key then
      match value with
      | .arr items => dimensions (path ++ "." ++ key) items
      | _ => .error (valueError (path ++ "." ++ key ++ " must be an array"))
    else dimensionsAt key path members

/-- `_dimension` of each item. -/
def dimensions (path : String) : List Document → Except Exn (List DimensionExpression)
  | [] => .ok []
  | value :: values => do
    let first ← dimension path value
    return first :: (← dimensions path values)
end

/-- `_dtype`. -/
def dtype (value : Document) (path : String) : Except Exn DTypeExpression := do
  let item ← object value path
  keys item (["input", "kind", "scalar", "value"] ++
    if contains item "variable" then ["variable"] else []) path
  let kind ← string (← subscript item "kind") (path ++ ".kind")
  if kind = "input" then
    return .input (← integer (← subscript item "input") (path ++ ".input"))
  else if kind = "fixed" then
    return .fixed (← string (← subscript item "value") (path ++ ".value"))
  else if kind = "promote_tensor_scalar" then
    let tensorInput ← integer (← subscript item "input") (path ++ ".input")
    return .promoteTensorScalar tensorInput (← integer (← subscript item "scalar") (path ++ ".scalar"))
  else if kind = "variable" then
    return .dtypeVariable (← string (← subscript item "variable") (path ++ ".variable"))
  else .error (.valueError [.text (path ++ " has unsupported dtype kind "), .repr kind])

/-- `bool(value)`. -/
def isTrue : Document → Bool
  | .null => false
  | .bool b => b
  | .int n => n ≠ 0
  | .float bits => bits.toNat % 2 ^ 63 ≠ 0
  | .str text => text ≠ []
  | .date _ => true
  | .arr items => ¬ items.isEmpty
  | .obj members => ¬ members.isEmpty

/-- `value is None`. -/
def isNull : Document → Bool
  | .null => true
  | _ => false

/-- The shape of a known output. -/
def shape (item : Members) (path : String) : Except Exn ShapeExpression := do
  let sameShape ← subscript item "same_shape_as_input"
  let values ← subscript item "dimensions"
  if isNull sameShape = false then
    raiseIf (isTrue values = true) (valueError (path ++ " declares two output shapes"))
    return .sameShapeAsInput (← integer sameShape (path ++ ".same_shape_as_input"))
  else
    let items ← array values (path ++ ".dimensions")
    return .dimensions (← dimensions (path ++ ".dimensions") items)

/-- `_output`. -/
def output (path : String) (value : Document) : Except Exn OutputPlan := do
  let item ← object value path
  keys item ["allocation", "dimensions", "dtype", "name", "same_shape_as_input"] path
  let name ← string (← subscript item "name") (path ++ ".name")
  let allocation ← string (← subscript item "allocation") (path ++ ".allocation")
  let declared ← subscript item "dtype"
  if allocation = "dynamic" then
    raiseIf (isTrue (← subscript item "dimensions") = true ∨ isNull declared = false ∨
        isNull (← subscript item "same_shape_as_input") = false)
      (valueError (path ++ " dynamic output contains known-output metadata"))
    return ⟨name, none⟩
  else
    raiseIf (allocation ≠ "known" ∨ isNull declared = true)
      (.valueError [.text (path ++ " has unsupported allocation "), .repr allocation])
    let shape ← shape item path
    return ⟨name, some ⟨shape, ← dtype declared (path ++ ".dtype")⟩⟩

/-- `indexes` of `_vjp`. -/
def indexes (item : Members) (path key : String) : Except Exn (List Int) := do
  (← array (← subscript item key) (path ++ "." ++ key)).mapM fun value =>
    integer value (path ++ "." ++ key)

/-- `_vjp`. -/
def vjp (path : String) : Document → Except Exn (Option VjpMetadata)
  | .null => .ok none
  | value => do
    let item ← object value path
    keys item ["input_gradients", "operation_id", "output_cotangents", "saved_inputs",
      "saved_outputs", "scalar_parameters"] path
    let operationId ← integer (← subscript item "operation_id") (path ++ ".operation_id")
    let savedInputs ← indexes item path "saved_inputs"
    let savedOutputs ← indexes item path "saved_outputs"
    let outputCotangents ← indexes item path "output_cotangents"
    let inputGradients ← indexes item path "input_gradients"
    let scalarParameters ← indexes item path "scalar_parameters"
    return some ⟨operationId, savedInputs, savedOutputs, outputCotangents, inputGradients,
      scalarParameters⟩

/-- The name of an output, as `_operation` reads it first. -/
def outputName (path : String) (value : Document) : Except Exn String := do
  let item ← object value path
  string (← subscript item "name") (path ++ ".name")

/-- `_operation`. -/
def operation (formatVersion : Int) (value : Document) (index : Nat) :
    Except Exn OperationMetadata := do
  let path := "manifest.operations[" ++ Nat.repr index ++ "]"
  let item ← object value path
  keys item (["id", "inputs", "internal", "name", "outputs", "scalars", "vjp"] ++
    if formatVersion = 2 then ["dtype_variables"] else []) path
  let inputs ← array (← subscript item "inputs") (path ++ ".inputs")
  let outputs ← array (← subscript item "outputs") (path ++ ".outputs")
  let scalars ← array (← subscript item "scalars") (path ++ ".scalars")
  let outputNames ← outputs.mapM (outputName (path ++ ".outputs"))
  let name ← string (← subscript item "name") (path ++ ".name")
  let tensorInputs ← inputs.mapM (tensor formatVersion (path ++ ".inputs"))
  let scalarParameters ← scalars.mapM (scalar formatVersion (path ++ ".scalars"))
  let operationId ← integer (← subscript item "id") (path ++ ".id")
  let outputPlans ← outputs.mapM (output (path ++ ".outputs"))
  let vjp ← vjp (path ++ ".vjp") (← subscript item "vjp")
  let internal ← boolean (← subscript item "internal") (path ++ ".internal")
  let dtypeVariables ←
    if formatVersion = 2 then do
      (← array (← subscript item "dtype_variables") (path ++ ".dtype_variables")).mapM
        (dtypeVariable (path ++ ".dtype_variables"))
    else Except.ok []
  return {
    name, tensorInputs,
    tensorOutputs := outputNames.map fun name => { name, access := "readOnly" }
    scalarParameters, operationId, outputPlans, dtypeVariables, vjp, internal }

/-- The operations of a manifest. -/
def operations (formatVersion : Int) (values : List Document) :
    Except Exn (List OperationMetadata) :=
  values.zipIdx.mapM fun entry => operation formatVersion entry.1 entry.2

/-! ### Fingerprints -/

/-- The lower-case hexadecimal digits behind a mark, when there are exactly this many. -/
def hexAfter (mark : String) (count : Nat) (text : Text) : Option Text :=
  if text.take mark.length = ofString mark ∧ text.length = mark.length + count ∧
      (text.drop mark.length).all Hex.isHexDigit then
    some (text.drop mark.length)
  else none

/-- The fields of a manifest that its interface fingerprint does not cover. -/
def UNCOVERED_FIELDS : List String :=
  ["deployment", "generator", "interfaceFingerprint", "metadataFingerprint", "operationCount",
    "configuration", "controlAbiVersion", "startupCapabilities"]

/-- `source` of `_validate_interface_fingerprint`. -/
def interfaceSource (document : Members) : Document :=
  .obj (document.filter fun entry => entry.1 ∉ UNCOVERED_FIELDS.map ofString)

section
variable (floats : Json.FloatText) (sha256 : List UInt8 → Hex.Digest)

/-- `_validate_interface_fingerprint`. -/
def validateInterfaceFingerprint (document : Members) : Except Exn (List UInt8) := do
  let declared ← text (← subscript document "interfaceFingerprint") "manifest.interfaceFingerprint"
  match hexAfter "sha256:" 64 declared, Json.canonicalBytes floats (interfaceSource document) with
  | none, _ => throw (valueError
      "Manifest interfaceFingerprint must be a lowercase SHA-256 fingerprint")
  | some _, none => throw (valueError "Out of range float values are not JSON compliant")
  | some digits, some canonical =>
    let actual := Hex.hexBytes (sha256 canonical).toList
    raiseIf (digits ≠ actual)
      (.valueError [.text "Manifest interface fingerprint is sha256:",
        .text (Utf8.toString digits), .text ", expected sha256:", .text (Utf8.toString actual)])
    return (sha256 canonical).toList

/-- `_metadata_fingerprint`. -/
def readMetadataFingerprint (value : Document) : Except Exn Nat := do
  let fingerprint ← text value "manifest.metadataFingerprint"
  match hexAfter "0x" 16 fingerprint with
  | some digits => return Hex.readHex digits
  | none => throw (valueError
      "Manifest metadataFingerprint must be a lowercase 64-bit hexadecimal value")

/-! ### The manifest -/

/-- `float.__repr__`. -/
def floatShown (bits : UInt64) : String :=
  if Document.isFinite bits then Utf8.toString (floats.repr bits)
  else if bits.toNat % 2 ^ 52 ≠ 0 then "nan"
  else if bits.toNat < 2 ^ 63 then "inf"
  else "-inf"

/-- The pieces with `, ` between them. -/
def separated (pieces : List (List Part)) : List Part := [Part.text ", "].intercalate pieces

mutual
/-- `repr` of a value. A date does not occur in JSON. -/
def shown : Document → List Part
  | .null => [.text "None"]
  | .bool b => [.text (if b then "True" else "False")]
  | .int n => [.text (toString n)]
  | .float bits => [.text (floatShown floats bits)]
  | .str text => [.repr (Utf8.toString text)]
  | .date literal => [.text (Utf8.toString literal)]
  | .arr items => .text "[" :: separated (shownItems items) ++ [.text "]"]
  | .obj members => .text "\x7b" :: separated (shownMembers members) ++ [.text "\x7d"]

/-- The items of an array. -/
def shownItems : List Document → List (List Part)
  | [] => []
  | item :: items => shown item :: shownItems items

/-- The members of an object. -/
def shownMembers : Members → List (List Part)
  | [] => []
  | (key, value) :: members =>
    (.repr (Utf8.toString key) :: .text ": " :: shown value) :: shownMembers members
end

/-- The exception of `_require_equal`. It shows both values. -/
def notEqual (name : String) (found expected : Document) : Exn :=
  .valueError (.text ("Manifest " ++ name ++ " is ") :: shown floats found ++
    .text ", but runtime requires " :: shown floats expected)

/-- `_require_equal` on integers. -/
def requireInt (document : Members) (name : String) (expected : Int) : Except Exn Unit := do
  match ← subscript document name with
  | .int n => raiseIf (n ≠ expected) (notEqual floats name (.int n) (.int expected))
  | found => throw (notEqual floats name found (.int expected))

/-- `_require_equal` on texts. -/
def requireText (document : Members) (name expected : String) : Except Exn Unit := do
  match ← subscript document name with
  | .str text =>
    raiseIf (text ≠ ofString expected) (notEqual floats name (.str text) (.string expected))
  | found => throw (notEqual floats name found (.string expected))

/-- `format_version` of `load_manifest`. -/
def readFormatVersion (data : Members) : Except Exn Int := do
  let formatVersion ← integer ((get? data "formatVersion").getD .null) "manifest.formatVersion"
  raiseIf (formatVersion ≠ 1 ∧ formatVersion ≠ 2)
    (.valueError [.text "Manifest formatVersion is ", .text (toString formatVersion),
      .text ", but runtime supports 1 and 2"])
  return formatVersion

/-- The fields of a manifest. -/
def manifestKeys (data : Members) (formatVersion : Int) : Except Exn Unit :=
  keysWithOptional data
    (["abiVersion", "deployment", "formatVersion", "generator", "interfaceFingerprint",
      "metadataFingerprint", "operationCount", "operations", "plugin", "protocolVersion"] ++
      if formatVersion = 2 then ["controlAbiVersion", "enums"] else [])
    (if formatVersion = 2 then ["configuration", "lifecycle", "startupCapabilities"] else [])
    "manifest"

/-- The lifecycle of a manifest. -/
def checkLifecycle (data : Members) : Except Exn Unit :=
  match get? data "lifecycle" with
  | none => .ok ()
  | some value => do
    let lifecycle ← object value "manifest.lifecycle"
    keys lifecycle ["initialize", "shutdown"] "manifest.lifecycle"
    let _ ← boolean (← subscript lifecycle "initialize") "manifest.lifecycle.initialize"
    let _ ← boolean (← subscript lifecycle "shutdown") "manifest.lifecycle.shutdown"
    return ()

/-- `control_abi_version` of `load_manifest`. -/
def checkControlAbi (data : Members) (formatVersion : Int) : Except Exn Unit :=
  if formatVersion = 2 then do
    let version ← integer (← subscript data "controlAbiVersion") "manifest.controlAbiVersion"
    raiseIf (version ≠ 1) (valueError "Manifest control ABI is unsupported")
  else .ok ()

/-- `startup_capabilities` of `load_manifest`. -/
def checkCapabilities (data : Members) : Except Exn Unit :=
  match get? data "startupCapabilities" with
  | none => .ok ()
  | some value => do
    let capabilities ← integer value "manifest.startupCapabilities"
    raiseIf (¬ (0 ≤ capabilities ∧ capabilities ≤ 0xFFFFFFFFFFFFFFFF))
      (valueError "manifest.startupCapabilities must be an unsigned 64-bit integer")

/-- The metadata that `load_manifest` builds, with a protocol version. -/
def readMetadata (data : Members) (operationDocuments : List Document)
    (formatVersion protocolVersion : Int) : Except Exn PluginMetadata := do
  let plugin ← object (← subscript data "plugin") "manifest.plugin"
  keys plugin ["name", "namespace", "pythonModule", "version"] "manifest.plugin"
  let name ← string (← subscript plugin "name") "manifest.plugin.name"
  let version ← text (← subscript plugin "version") "manifest.plugin.version"
  let fingerprint ← readMetadataFingerprint (← subscript data "metadataFingerprint")
  let operations ← operations formatVersion operationDocuments
  return ⟨name, version, protocolVersion, operations, fingerprint, formatVersion⟩

/-- `load_manifest` on a parsed document, up to `validate_plugin_metadata`. -/
def loadMetadata (document : Document) : Except Exn PluginMetadata := do
  let data ← object document "manifest"
  let formatVersion ← readFormatVersion data
  manifestKeys data formatVersion
  checkLifecycle data
  requireInt floats data "abiVersion" 1
  requireInt floats data "protocolVersion" PROTOCOL_VERSION
  requireText floats data "generator" ("wmfs-tool/" ++ if formatVersion = 2 then "2" else "1")
  checkControlAbi data formatVersion
  let operationDocuments ← array (← subscript data "operations") "manifest.operations"
  let count ← integer (← subscript data "operationCount") "manifest.operationCount"
  raiseIf (count ≠ operationDocuments.length)
    (.valueError [.text "Manifest operationCount is ", .text (toString count),
      .text ", but contains ", .text (toString operationDocuments.length), .text " operations"])
  let _ ← validateInterfaceFingerprint floats sha256 data
  checkCapabilities data
  let metadata ← readMetadata data operationDocuments formatVersion PROTOCOL_VERSION
  validatePluginMetadata floats sha256 metadata
  return metadata

end

end Wmfs.Manifest
