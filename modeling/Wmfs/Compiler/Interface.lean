import Mathlib.Data.Finset.Dedup
import Wmfs.Compiler.Configuration

/-!
# `Wmfs.Compiler.Interface`: the interfaces that the compiler accepts

`load_interface` of `wmfs_tool/parser.py` on a parsed TOML document, and `_validate`, which checks
what the types of the model leave open: references into the lists of an operation, names that
must differ, and the signature of a gradient.

`_validate_vjp` may look at an operation that has not been checked yet. Where it then indexes a
list or searches a variable, the exception of Python is modelled.
-/

set_option autoImplicit false

namespace Wmfs.Compiler

open Wmfs.Lib
open Wmfs.Lib.Utf8 (Text ofString CodePoint)
open Wmfs.Lib.Document (Members get?)

/-- `InterfaceError(message)`. -/
def interfaceError (message : String) : Exn := .interfaceError [.of message]

/-- `InterfaceError(f"operation {operation.name!r}{message}")`. -/
def operationError (operation : Operation) (message : String) : Exn :=
  .interfaceError [.of "operation ", .repr (ofString operation.name.name), .of message]

/-- The upper limit of the identifiers and of the protocol version. -/
def MAX_UINT32 : Int := 0xFFFFFFFF

/-! ### Output references -/

/-- `0 <= index < length`. -/
def InRange (index : Int) (length : Nat) : Prop := 0 ≤ index ∧ index < length

instance (index : Int) (length : Nat) : Decidable (InRange index length) :=
  inferInstanceAs (Decidable (_ ∧ _))

mutual
/-- `dimension` of `_validate_output_references`. -/
def validateDimension (operation : Operation) (depth : Nat) : Dimension → Except Exn Unit
  | .constant _ _ => raiseIf (depth > 16) (operationError operation " shape expression is too deep")
  | .inputAxis input axis => do
    raiseIf (depth > 16) (operationError operation " shape expression is too deep")
    raiseIf (¬ InRange input operation.inputs.length)
      (operationError operation " shape references an unknown input")
    raiseIf (¬ InRange axis 16) (operationError operation " axis is outside ABI limits")
  | .minimum first second rest => do
    raiseIf (depth > 16) (operationError operation " shape expression is too deep")
    validateDimension operation (depth + 1) first
    validateDimension operation (depth + 1) second
    validateDimensions operation (depth + 1) rest
  | .select scalar whenTrue whenFalse => do
    raiseIf (depth > 16) (operationError operation " shape expression is too deep")
    raiseIf (¬ InRange scalar operation.scalars.length)
      (operationError operation " shape references an unknown scalar")
    validateDimension operation (depth + 1) whenTrue
    validateDimension operation (depth + 1) whenFalse

/-- `dimension` of each item of a list. -/
def validateDimensions (operation : Operation) (depth : Nat) : List Dimension → Except Exn Unit
  | [] => .ok ()
  | first :: rest => do
    validateDimension operation depth first
    validateDimensions operation depth rest
end

/-- The shape in `_validate_output_references`. -/
def validateShape (operation : Operation) : Shape → Except Exn Unit
  | .dimensions values => do
    raiseIf (values.length > 16) (operationError operation " output rank exceeds ABI limits")
    validateDimensions operation 0 values
  | .sameShapeAsInput input =>
    raiseIf (¬ InRange input operation.inputs.length)
      (operationError operation " shape references an unknown input")

/-- The dtype in `_validate_output_references`. -/
def validateDType (operation : Operation) : DType → Except Exn Unit
  | .input index =>
    raiseIf (¬ InRange index operation.inputs.length)
      (operationError operation " dtype references an unknown input")
  | .fixed value =>
    raiseIf (value.text ∉ SUPPORTED_DTYPES.map ofString)
      (operationError operation " has an unsupported fixed dtype")
  | .variable name =>
    raiseIf (name ∉ operation.dtypeVariables.map DTypeVariable.name)
      (operationError operation " dtype references an unknown variable")
  | .promoteTensorScalar input scalar => do
    raiseIf (¬ InRange input operation.inputs.length)
      (operationError operation " dtype references an unknown input")
    raiseIf (¬ InRange scalar operation.scalars.length)
      (operationError operation " dtype references an unknown scalar")

/-- `_validate_output_references`. -/
def validateOutputReferences (operation : Operation) (output : Output) : Except Exn Unit :=
  match output.known with
  | none => .ok ()
  | some known => do
    validateShape operation known.shape
    validateDType operation known.dtype

/-! ### Gradients -/

/-- `items[index]`. -/
def itemAt {α : Type} (items : List α) (index : Int) : Except Exn α :=
  if index < -items.length then .error .indexError
  else
    match items[(if index < 0 then index + items.length else index).toNat]? with
    | some found => .ok found
    | none => .error .indexError

/-- The dtypes that a tensor may have, and the variable that they are bound to. -/
abbrev Signature : Type := Finset String × Option Identifier

/-- The signature of a variable of an operation. -/
def variableSignature (operation : Operation) (name : Identifier) : Except Exn Signature :=
  match operation.dtypeVariables.find? fun declared => declared.name = name with
  | some declared => .ok (declared.dtypes.names.toFinset, some name)
  | none => .error .stopIteration

/-- `_input_dtype`. -/
def inputDType (operation : Operation) (index : Int) : Except Exn Signature := do
  let tensor ← itemAt operation.inputs index
  match tensor.constraint with
  | .variable name => variableSignature operation name
  | .any | .oneOf _ => return (tensor.dtypes.toFinset, none)

/-- `_output_dtype`. -/
def outputDType (operation : Operation) (index : Int) : Except Exn Signature := do
  let output ← itemAt operation.outputs index
  match output.dtype with
  | none | some (.promoteTensorScalar _ _) => return (SUPPORTED_DTYPES.toFinset, none)
  | some (.fixed value) => return ({Utf8.toString value.text}, none)
  | some (.input index) => inputDType operation index
  | some (.variable name) => variableSignature operation name

/-- Two positions of a list of signatures share a variable. -/
def Shares (signatures : List Signature) (left right : Nat) : Prop :=
  ∃ a ∈ signatures[left]?, ∃ b ∈ signatures[right]?, a.2 ≠ none ∧ a.2 = b.2

instance (signatures : List Signature) (left right : Nat) :
    Decidable (Shares signatures left right) :=
  inferInstanceAs (Decidable (∃ a ∈ _, ∃ b ∈ _, _ ∧ _))

/-- `_dtype_signatures_match`. -/
def SignaturesMatch (source target : List Signature) : Prop :=
  source.map Prod.fst = target.map Prod.fst ∧
    ∀ left < source.length, ∀ right < left,
      (Shares source left right ↔ Shares target left right)

instance (source target : List Signature) : Decidable (SignaturesMatch source target) :=
  inferInstanceAs (Decidable (_ ∧ _))

/-- A group of indexes in `_validate_vjp`. -/
def validateIndexes (operation : Operation) (indexes : List Int) (count : Nat)
    (description : String) : Except Exn Unit :=
  raiseIf (¬ indexes.Nodup ∨ ∃ index ∈ indexes, ¬ InRange index count)
    (operationError operation (" has an invalid VJP " ++ description))

/-- The signatures of the tensors that the backward pass sends. -/
def sourceTensors (operation : Operation) (vjp : Vjp) : Except Exn (List Signature) := do
  let savedInputs ← vjp.savedInputs.mapM (inputDType operation)
  let savedOutputs ← vjp.savedOutputs.mapM (outputDType operation)
  let outputCotangents ← vjp.outputCotangents.mapM (outputDType operation)
  return savedInputs ++ savedOutputs ++ outputCotangents

/-- `range(len(items))`. -/
def positions {α : Type} (items : List α) : List Int := (List.range items.length).map Int.ofNat

/-- A pass of the loop over the scalars in `_validate_vjp`. -/
def validateVjpScalar (operation : Operation) (pair : ScalarParameter × Int) :
    Except Exn Unit := do
  let source ← itemAt operation.scalars pair.2
  raiseIf ((pair.1.kind, pair.1.enum, pair.1.enumValues) ≠
      (source.kind, source.enum, source.enumValues))
    (operationError operation " VJP scalar constraints do not match")

/-- The counts in `_validate_vjp` fit. -/
def SignatureFits (target : Operation) (vjp : Vjp) : Prop :=
  target.internal = true ∧
    target.inputs.length =
      vjp.savedInputs.length + vjp.savedOutputs.length + vjp.outputCotangents.length ∧
    target.outputs.length = vjp.inputGradients.length ∧
    target.scalars.length = vjp.scalarParameters.length

instance (target : Operation) (vjp : Vjp) : Decidable (SignatureFits target vjp) :=
  inferInstanceAs (Decidable (_ ∧ _))

/-- `_validate_vjp`, of an operation that has a gradient. -/
def validateVjp (operations : List Operation) (operation : Operation) (vjp : Vjp) :
    Except Exn Unit :=
  match operations.find? fun candidate => candidate.operationId = vjp.operationId with
  | none => .error (operationError operation " references an unknown VJP")
  | some target => do
    validateIndexes operation vjp.savedInputs operation.inputs.length "saved input"
    validateIndexes operation vjp.savedOutputs operation.outputs.length "saved output"
    validateIndexes operation vjp.outputCotangents operation.outputs.length "output cotangent"
    validateIndexes operation vjp.inputGradients operation.inputs.length "input gradient"
    validateIndexes operation vjp.scalarParameters operation.scalars.length "scalar parameter"
    raiseIf (¬ SignatureFits target vjp)
      (operationError operation " VJP target signature does not match its plan")
    let sourceTensors ← sourceTensors operation vjp
    let targetInputs ← (positions target.inputs).mapM (inputDType target)
    let sourceGradients ← vjp.inputGradients.mapM (inputDType operation)
    let targetOutputs ← (positions target.outputs).mapM (outputDType target)
    raiseIf (¬ SignaturesMatch sourceTensors targetInputs ∨
        ¬ SignaturesMatch sourceGradients targetOutputs)
      (operationError operation " VJP dtype constraints do not match")
    -- The counts fit, so the strict `zip` does not raise.
    forM (target.scalars.zip vjp.scalarParameters) (validateVjpScalar operation)

/-- `if operation.vjp is not None: _validate_vjp(plugin, operation)`. -/
def validateGradient (operations : List Operation) (operation : Operation) : Except Exn Unit :=
  match operation.vjp with
  | none => .ok ()
  | some vjp => validateVjp operations operation vjp

/-! ### Operations -/

/-- The names of the parameters of an operation. -/
def Operation.parameterNames (operation : Operation) : List Identifier :=
  operation.inputs.map TensorParameter.name ++ operation.scalars.map ScalarParameter.name

/-- A pass of the loop over the operations in `_validate`. -/
def validateOperation (operations : List Operation) (operation : Operation) :
    Except Exn Unit := do
  raiseIf (¬ (operation.dtypeVariables.map DTypeVariable.name).Nodup)
    (operationError operation " has duplicate dtype variables")
  forM operation.inputs fun tensor =>
    raiseIf (∃ name ∈ tensor.dtypeVariable, name ∉ operation.dtypeVariables.map DTypeVariable.name)
      (operationError operation " references an unknown dtype variable")
  raiseIf (¬ operation.parameterNames.Nodup ∨
      "out" ∈ operation.parameterNames.map Identifier.name)
    (operationError operation " has duplicate or reserved parameters")
  raiseIf (operation.outputs.length > 8 ∨ operation.inputs.length > 16)
    (operationError operation " exceeds ABI descriptor limits")
  raiseIf (¬ (operation.outputs.map Output.name).Nodup)
    (operationError operation " has duplicate outputs")
  raiseIf (∃ name ∈ operation.parameterNames, name ∈ operation.outputs.map Output.name)
    (operationError operation " reuses an input name for an output")
  forM operation.outputs (validateOutputReferences operation)
  validateGradient operations operation
  forM operation.dtypeVariables fun declared =>
    raiseIf (∀ tensor ∈ operation.inputs, tensor.dtypeVariable ≠ some declared.name)
      (.interfaceError [.of "operation ", .repr (ofString operation.name.name),
        .of " dtype variable ", .repr (ofString declared.name.name), .of " is unused"])

/-- `_validate`. -/
def validate (plugin : Plugin) : Except Exn Unit := do
  raiseIf (plugin.formatVersion ≠ 2) (formatting plugin.formatVersion (.interfaceError
    [.of "unsupported format_version ", .text (Json.intText plugin.formatVersion),
      .of "; expected 2"]))
  raiseIf (plugin.abiVersion ≠ 1) (formatting plugin.abiVersion (.interfaceError
    [.of "unsupported abi_version ", .text (Json.intText plugin.abiVersion), .of "; expected 1"]))
  raiseIf (¬ (0 < plugin.protocolVersion ∧ plugin.protocolVersion ≤ MAX_UINT32) ∨
      plugin.operations.isEmpty = true)
    (interfaceError "protocol_version must be positive and operations cannot be empty")
  raiseIf (¬ (plugin.operations.map Operation.operationId).Nodup ∨
      ∃ id ∈ plugin.operations.map Operation.operationId, ¬ (0 < id ∧ id ≤ MAX_UINT32))
    (interfaceError "operation IDs must be unique positive integers")
  raiseIf (¬ (plugin.operations.map Operation.name).Nodup)
    (interfaceError "operation names must be unique")
  raiseIf (¬ (plugin.enums.map Enum.name).Nodup) (interfaceError "enum names must be unique")
  forM plugin.operations (validateOperation plugin.operations)

/-! ### Interfaces -/

/-- `str.lower` of a character, as far as the letters of a word in ASCII depend on it. -/
def lower (point : CodePoint) : CodePoint :=
  if 65 ≤ point.val ∧ point.val ≤ 90 then Fin.ofNat _ (point.val + 32) else point

/-- `"fingerprint" in str(key).lower()`. -/
def isFingerprintKey (key : Text) : Bool :=
  (key.map lower).tails.any fun tail => (ofString "fingerprint").isPrefixOf tail

mutual
/-- `_contains_fingerprint`. -/
def containsFingerprint : Document → Bool
  | .obj members => containsFingerprintMember members
  | .arr items => containsFingerprintItem items
  | _ => false

/-- A key or a value of a table contains a fingerprint. -/
def containsFingerprintMember : Members → Bool
  | [] => false
  | (key, value) :: members =>
    isFingerprintKey key || containsFingerprint value || containsFingerprintMember members

/-- An item of an array contains a fingerprint. -/
def containsFingerprintItem : List Document → Bool
  | [] => false
  | item :: items => containsFingerprint item || containsFingerprintItem items
end

section
variable (floats : Json.FloatText)

/-- The configuration of an interface, if it has one. -/
def readConfiguration (data : Members) : Except Exn (Option Configuration) :=
  match get? data "configuration" with
  | none => .ok none
  | some value => do
    let members ← table value (ofString "interface.configuration")
    return some (← configuration floats members)

/-- The fields of `Plugin` in the order in which `load_interface` reads them. -/
def readFields (data plugin deployment : Members) (operationsData : List Document)
    (enums : List Enum) (lifecycle : Lifecycle) (configuration : Option Configuration) :
    Except Exn Plugin := do
  let interfacePath := ofString "interface"
  let pluginPath := ofString "interface.plugin"
  let deploymentPath := ofString "interface.deployment"
  let formatVersion ← integer (← required data "format_version" interfacePath)
    (ofString "format_version")
  let abiVersion ← integer (← required data "abi_version" interfacePath) (ofString "abi_version")
  let protocolVersion ← integer (← required data "protocol_version" interfacePath)
    (ofString "protocol_version")
  let name ← identifier (← required plugin "name" pluginPath) (ofString "plugin.name")
  let version ← string (← required plugin "version" pluginPath) (ofString "plugin.version")
  let apiNamespace ← identifier (← required plugin "namespace" pluginPath)
    (ofString "plugin.namespace")
  let pythonModule ← identifier (← required plugin "python_module" pluginPath)
    (ofString "plugin.python_module")
  let worker ← string (← required deployment "worker" deploymentPath)
    (ofString "deployment.worker")
  let deploymentRoot ← string (← required deployment "root" deploymentPath)
    (ofString "deployment.root")
  let pythonProvider ← (get? deployment "python_provider").elim (.ok none) fun value =>
    (dottedName value (ofString "deployment.python_provider")).map some
  let bundledNamespace ← (get? deployment "bundled_namespace").elim (.ok none) fun value =>
    (identifier value (ofString "deployment.bundled_namespace")).map some
  let operations ← mapItems (operation enums) (ofString "operations") operationsData
  return {
    formatVersion, abiVersion, protocolVersion, name, version, apiNamespace, pythonModule, worker,
    deploymentRoot, pythonProvider, bundledNamespace, operations, enums, configuration,
    lifecycle }

/-- The plugin that `load_interface` builds before it validates it. -/
def readInterface (data : Members) : Except Exn Plugin := do
  raiseIf (containsFingerprintMember data = true)
    (interfaceError "interface source must not contain fingerprints")
  let interfacePath := ofString "interface"
  keys data ["format_version", "abi_version", "protocol_version", "plugin", "deployment",
    "operations", "enums", "configuration", "lifecycle"] interfacePath
  let plugin ← table (← required data "plugin" interfacePath) (ofString "interface.plugin")
  keys plugin ["name", "version", "namespace", "python_module"] (ofString "interface.plugin")
  let deployment ← table (← required data "deployment" interfacePath)
    (ofString "interface.deployment")
  keys deployment ["root", "worker", "python_provider", "bundled_namespace"]
    (ofString "interface.deployment")
  let operationsData ← list (← required data "operations" interfacePath)
    (ofString "interface.operations")
  let enumsData ← listField data "enums" interfacePath
  let enums ← mapItems enum (ofString "interface.enums") enumsData
  let lifecycle ← lifecycle ((get? data "lifecycle").getD (.obj []))
  let configuration ← readConfiguration floats data
  readFields data plugin deployment operationsData enums lifecycle configuration

/-- `load_interface`, on the document that `tomllib.loads` returns. -/
def loadInterface (data : Members) : Except Exn Plugin := do
  let plugin ← readInterface floats data
  validate plugin
  return plugin

mutual
/-- `_contains_fingerprint` finds nothing before it reaches a table or an array that is nested
deeper than the stack has room for. -/
def nestsBeyond : Nat → Document → Bool
  | 0, .obj _ | 0, .arr _ => true
  | depth + 1, .obj members => memberNestsBeyond depth members
  | depth + 1, .arr items => itemNestsBeyond depth items
  | _, _ => false

/-- `nestsBeyond` of a table. The rest is not looked at when a key or a value is found to
contain a fingerprint. -/
def memberNestsBeyond (depth : Nat) : Members → Bool
  | [] => false
  | (key, value) :: members =>
    !isFingerprintKey key && (nestsBeyond depth value ||
      !containsFingerprint value && memberNestsBeyond depth members)

/-- `nestsBeyond` of an array. -/
def itemNestsBeyond (depth : Nat) : List Document → Bool
  | [] => false
  | item :: items =>
    nestsBeyond depth item || !containsFingerprint item && itemNestsBeyond depth items
end

/-- `load_interface` on a stack that has room for the scan of this many tables and arrays inside
one another. No other recursion of the parser goes deeper than that scan has gone. -/
def loadInterfaceWithin (depth : Nat) (data : Members) : Except Exn Plugin := do
  raiseIf (nestsBeyond depth (.obj data) = true) .recursionError
  loadInterface floats data

/-- The plugins that `load_interface` returns are those that it reads and that are valid. -/
theorem loadInterface_ok_iff {data : Members} {plugin : Plugin} :
    loadInterface floats data = .ok plugin ↔
      readInterface floats data = .ok plugin ∧ validate plugin = .ok () := by
  rw [loadInterface, Result.bind_ok_iff]
  constructor
  · intro ⟨read, hread, h⟩
    obtain ⟨_, hvalid, heq⟩ := Result.bind_ok_iff.mp h
    cases heq
    exact ⟨hread, hvalid⟩
  · intro ⟨hread, hvalid⟩
    exact ⟨plugin, hread, by rw [hvalid]; rfl⟩

/-- The configuration of a plugin is one that `_configuration` accepts. -/
theorem exists_configuration_of_readInterface {data : Members} {plugin : Plugin}
    {found : Configuration} (h : readInterface floats data = .ok plugin)
    (hfound : plugin.configuration = some found) :
    ∃ members, configuration floats members = .ok found := by
  -- The steps before the configuration, then the configuration, then the fields.
  iterate 13 obtain ⟨_, _, h⟩ := Result.bind_ok_iff.mp h
  obtain ⟨read, hread, h⟩ := Result.bind_ok_iff.mp h
  iterate 21 obtain ⟨_, _, h⟩ := Result.bind_ok_iff.mp h
  cases h
  rw [show read = some found from hfound, readConfiguration] at hread
  split at hread
  · cases hread
  · obtain ⟨members, _, hread⟩ := Result.bind_ok_iff.mp hread
    obtain ⟨result, hresult, heq⟩ := Result.bind_ok_iff.mp hread
    cases heq
    exact ⟨members, hresult⟩

end

end Wmfs.Compiler
