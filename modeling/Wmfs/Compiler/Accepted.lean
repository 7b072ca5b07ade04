import Wmfs.Compiler.Interface

/-!
# `Wmfs.Compiler.Accepted`: what acceptance by the compiler means

The checks of `_validate` as propositions: `PluginValid`, `OperationValid` and `VjpValid`, each
with the theorem that the function of the source succeeds exactly then
(`validate_ok_iff`, `validateOperation_ok_iff`, `validateVjp_ok_iff`).
-/

set_option autoImplicit false

namespace Wmfs.Compiler

open Wmfs.Lib
open Wmfs.Lib.Utf8 (Text ofString)
open Wmfs.Lib.Document (Members)

/-! ### Gradients -/

/-- What `_validate_vjp` asks of the indexes of a group. -/
def IndexesValid (indexes : List Int) (count : Nat) : Prop :=
  indexes.Nodup ∧ ∀ index ∈ indexes, InRange index count

/-- The indices that pass. -/
theorem validateIndexes_ok_iff {operation : Operation} {indexes : List Int} {count : Nat}
    {description : String} {u : Unit} :
    validateIndexes operation indexes count description = .ok u ↔ IndexesValid indexes count := by
  rw [validateIndexes, raiseIf_ok_iff, IndexesValid]
  push Not
  rfl

/-- What `_validate_vjp` asks of a gradient and of its target. -/
structure VjpValid (operation target : Operation) (vjp : Vjp) : Prop where
  savedInputs : IndexesValid vjp.savedInputs operation.inputs.length
  savedOutputs : IndexesValid vjp.savedOutputs operation.outputs.length
  outputCotangents : IndexesValid vjp.outputCotangents operation.outputs.length
  inputGradients : IndexesValid vjp.inputGradients operation.inputs.length
  scalarParameters : IndexesValid vjp.scalarParameters operation.scalars.length
  fits : SignatureFits target vjp
  inputs_match : ∃ source targets, sourceTensors operation vjp = .ok source ∧
    (positions target.inputs).mapM (inputDType target) = .ok targets ∧
    SignaturesMatch source targets
  gradients_match : ∃ source targets, vjp.inputGradients.mapM (inputDType operation) = .ok source ∧
    (positions target.outputs).mapM (outputDType target) = .ok targets ∧
    SignaturesMatch source targets
  scalars_match : ∀ pair ∈ target.scalars.zip vjp.scalarParameters,
    validateVjpScalar operation pair = .ok ()

/-- The target of a gradient. -/
def targetOf (operations : List Operation) (vjp : Vjp) : Option Operation :=
  operations.find? fun candidate => candidate.operationId = vjp.operationId

/-- The VJP that passes. -/
theorem validateVjp_ok_iff {operations : List Operation} {operation : Operation} {vjp : Vjp}
    {u : Unit} : validateVjp operations operation vjp = .ok u ↔
      ∃ target, targetOf operations vjp = some target ∧ VjpValid operation target vjp := by
  rw [validateVjp, targetOf]
  cases operations.find? fun candidate => candidate.operationId = vjp.operationId with
  | none =>
    constructor
    · intro h
      cases h
    · rintro ⟨target, h, _⟩
      cases h
  | some target =>
    simp only [Result.bind_ok_iff, validateIndexes_ok_iff, raiseIf_ok_iff, Result.forM_ok_iff,
      not_not, not_or, exists_const]
    constructor
    · rintro ⟨h1, h2, h3, h4, h5, hfits, source, hsource, targets, htargets, gradients, hgradients,
        outputs, houtputs, hmatch, hscalars⟩
      exact ⟨target, rfl, h1, h2, h3, h4, h5, hfits, ⟨source, targets, hsource, htargets, hmatch.1⟩,
        ⟨gradients, outputs, hgradients, houtputs, hmatch.2⟩, hscalars⟩
    · rintro ⟨found, hfound, hvalid⟩
      cases hfound
      obtain ⟨source, targets, hsource, htargets, hinputs⟩ := hvalid.inputs_match
      obtain ⟨gradients, outputs, hgradients, houtputs, hmatch⟩ := hvalid.gradients_match
      exact ⟨hvalid.savedInputs, hvalid.savedOutputs, hvalid.outputCotangents,
        hvalid.inputGradients, hvalid.scalarParameters, hvalid.fits, source, hsource, targets,
        htargets, gradients, hgradients, outputs, houtputs, ⟨hinputs, hmatch⟩,
        hvalid.scalars_match⟩

/-! ### Operations -/

/-- What `_validate` asks of an operation. -/
structure OperationValid (operations : List Operation) (operation : Operation) : Prop where
  variables_nodup : (operation.dtypeVariables.map DTypeVariable.name).Nodup
  variables_known : ∀ tensor ∈ operation.inputs, ∀ name ∈ tensor.dtypeVariable,
    name ∈ operation.dtypeVariables.map DTypeVariable.name
  parameters_nodup : operation.parameterNames.Nodup
  out_notMem : "out" ∉ operation.parameterNames.map Identifier.name
  outputs_le : operation.outputs.length ≤ 8
  inputs_le : operation.inputs.length ≤ 16
  outputs_nodup : (operation.outputs.map Output.name).Nodup
  outputs_new : ∀ name ∈ operation.parameterNames, name ∉ operation.outputs.map Output.name
  references : ∀ output ∈ operation.outputs, validateOutputReferences operation output = .ok ()
  vjp_valid : ∀ vjp ∈ operation.vjp,
    ∃ target, targetOf operations vjp = some target ∧ VjpValid operation target vjp
  variables_used : ∀ declared ∈ operation.dtypeVariables,
    ∃ tensor ∈ operation.inputs, tensor.dtypeVariable = some declared.name

/-- The gradient that passes. -/
theorem validateGradient_ok_iff {operations : List Operation} {operation : Operation} {u : Unit} :
    validateGradient operations operation = .ok u ↔ ∀ vjp ∈ operation.vjp,
      ∃ target, targetOf operations vjp = some target ∧ VjpValid operation target vjp := by
  rw [validateGradient]
  cases operation.vjp with
  | none => simp
  | some vjp => simp [validateVjp_ok_iff]

/-- The operations that pass. -/
theorem validateOperation_ok_iff {operations : List Operation} {operation : Operation} :
    validateOperation operations operation = .ok () ↔ OperationValid operations operation := by
  rw [validateOperation]
  simp only [Result.bind_ok_iff, raiseIf_ok_iff, Result.forM_ok_iff, exists_const,
    validateGradient_ok_iff]
  push Not
  constructor
  · rintro ⟨h1, h2, h3, h4, h5, h6, h7, h8, h9⟩
    exact ⟨h1, h2, h3.1, h3.2, h4.1, h4.2, h5, h6, h7, h8, h9⟩
  · intro h
    exact ⟨h.variables_nodup, h.variables_known, ⟨h.parameters_nodup, h.out_notMem⟩,
      ⟨h.outputs_le, h.inputs_le⟩, h.outputs_nodup, h.outputs_new, h.references, h.vjp_valid,
      h.variables_used⟩

/-! ### Plugins -/

/-- What `_validate` asks of a plugin. -/
structure PluginValid (plugin : Plugin) : Prop where
  formatVersion_eq : plugin.formatVersion = 2
  abiVersion_eq : plugin.abiVersion = 1
  protocolVersion_pos : 0 < plugin.protocolVersion
  protocolVersion_le : plugin.protocolVersion ≤ MAX_UINT32
  operations_ne_nil : plugin.operations ≠ []
  ids_nodup : (plugin.operations.map Operation.operationId).Nodup
  ids_range : ∀ operation ∈ plugin.operations,
    0 < operation.operationId ∧ operation.operationId ≤ MAX_UINT32
  names_nodup : (plugin.operations.map Operation.name).Nodup
  enums_nodup : (plugin.enums.map Enum.name).Nodup
  operations_valid : ∀ operation ∈ plugin.operations, OperationValid plugin.operations operation

/-- The plugins that pass. -/
theorem validate_ok_iff {plugin : Plugin} : validate plugin = .ok () ↔ PluginValid plugin := by
  rw [validate]
  simp only [Result.bind_ok_iff, raiseIf_ok_iff, Result.forM_ok_iff, exists_const,
    validateOperation_ok_iff, List.isEmpty_iff]
  constructor
  · rintro ⟨h1, h2, h3, h4, h5, h6, h7⟩
    push Not at h1 h2 h3 h4 h5 h6
    refine ⟨h1, h2, h3.1.1, h3.1.2, h3.2, h4.1, ?_, h5, h6, h7⟩
    intro operation hmem
    exact h4.2 _ (List.mem_map_of_mem hmem)
  · intro h
    push Not
    refine ⟨h.formatVersion_eq, h.abiVersion_eq,
      ⟨⟨h.protocolVersion_pos, h.protocolVersion_le⟩, h.operations_ne_nil⟩, ⟨h.ids_nodup, ?_⟩,
      h.names_nodup, h.enums_nodup, h.operations_valid⟩
    intro id hid
    obtain ⟨operation, hmem, rfl⟩ := List.mem_map.mp hid
    exact h.ids_range operation hmem

/-- The plugins that `load_interface` returns are valid. -/
theorem pluginValid_of_loadInterface {floats : Json.FloatText} {data : Members} {plugin : Plugin}
    (h : loadInterface floats data = .ok plugin) : PluginValid plugin :=
  validate_ok_iff.mp ((loadInterface_ok_iff floats).mp h).2

/-! ### Small interfaces -/

/-- An interface source with these operations and nothing that is optional. -/
def smallInterface (operations : List Document) : Members :=
  Document.membersOf
    [("format_version", .int 2), ("abi_version", .int 1), ("protocol_version", .int 11),
      ("plugin", .object [("name", .string "demo"), ("version", .string "1.0"),
        ("namespace", .string "Demo"), ("python_module", .string "demo")]),
      ("deployment", .object [("root", .string ".."), ("worker", .string "worker")]),
      ("operations", .arr operations)]

/-- The plugin of `smallInterface`. -/
def smallPlugin (operations : List Operation) : Plugin where
  formatVersion := 2
  abiVersion := 1
  protocolVersion := 11
  name := ⟨"demo", by decide⟩
  version := ⟨ofString "1.0", by decide⟩
  apiNamespace := ⟨"Demo", by decide⟩
  pythonModule := ⟨"demo", by decide⟩
  worker := ⟨ofString "worker", by decide⟩
  deploymentRoot := ⟨ofString "..", by decide⟩
  pythonProvider := none
  bundledNamespace := none
  operations := operations
  enums := []
  configuration := none
  lifecycle := ⟨false, false⟩

end Wmfs.Compiler
