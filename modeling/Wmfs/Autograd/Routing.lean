import Wmfs.Invocation.Evaluation
import Wmfs.Lib.Keys
import Wmfs.Lib.Sha256
import Wmfs.Manifest.Metadata

/-!
# `Wmfs.Autograd.Routing`: the gradients of an isolated operation

`invoke_with_vjp` and `_VjpFunction` of `wmfs/autograd.py`. The metadata of an operation lists which
of its inputs and outputs are saved, which cotangents and scalars its VJP operation takes, and to
which input each result of it belongs. `backward` indexes two signatures and the arguments of
`forward` with these lists.

`_VjpFunction.apply`, `save_for_backward` and `saved_tensors` are PyTorch's: the tensors that were
saved come back in their order. What a worker answers is arbitrary (`Backend.perform`).
`vjp_routing` says that for validated metadata no index is out of range, and where every tensor
goes.
-/

set_option autoImplicit false

namespace Wmfs.Autograd

open Wmfs.Lib
open Wmfs.Invocation (Object Tensor Exn Mode CaseTable Keywords BoundInvocation getItem getItem_ok
  bindInvocation bindScalars tensorsOf othersOf tensorsOf_arguments othersOf_arguments
  validateOperationMetadata)
open Wmfs.Manifest (OperationMetadata PluginMetadata VjpMetadata validateReferences validateVjp
  validatePluginMetadata)
open Wmfs.Ring.Codec (Value)

/-! ### The functions -/

/-- What `_invoke_plugin` returns: a tuple, or another object. -/
inductive Returned where
  | tuple (items : List Object)
  | single (item : Object)
  deriving DecidableEq

/-- The test of `_as_tuple` on an item. -/
def asTensor : Object → Except Exn Tensor
  | .tensor t => .ok t
  | _ => .error (.typeError [.text "Isolated tensor operation returned a non-tensor value"])

/-- `_as_tuple`. -/
def asTuple : Returned → Except Exn (List Tensor)
  | .tuple items => items.mapM asTensor
  | .single item => [item].mapM asTensor

/-- A backend with a session of one plugin. `perform` is what becomes of an invocation that is
bound. -/
structure Backend where
  table : CaseTable
  plugin : PluginMetadata
  perform : BoundInvocation → Except Exn Returned

/-- `_invoke_plugin`, up to the call of the session. The names of the operations are distinct. -/
def Backend.invokePlugin (backend : Backend) (mode : Mode) (operation : String)
    (args : List Object) : Except Exn Returned :=
  match backend.plugin.operations.find? fun item => item.name = operation with
  | none => .error (.keyError operation)
  | some metadata => do
    let invocation ← bindInvocation backend.table mode metadata.toOperationMetadata args ∅ none
    backend.perform invocation

/-- `operation_by_id` of the registry. The identifiers of the operations are distinct. -/
def operationById (plugin : PluginMetadata) (operationId : Int) : Option OperationMetadata :=
  plugin.operations.find? fun item => item.operationId = operationId

/-- `ctx`. `vjp` is `operation.vjp`. -/
structure Context where
  operation : OperationMetadata
  vjp : VjpMetadata
  vjpOperation : OperationMetadata
  scalars : List Value
  savedTensors : List Tensor
  nonDifferentiable : List Tensor

/-- `outputs[0] if len(outputs) == 1 else outputs`. -/
def returnOutputs : List Tensor → Returned
  | [output] => .single (.tensor output)
  | outputs => .tuple (outputs.map .tensor)

/-- `_VjpFunction.forward`. The assertion says that there is a `vjp`. -/
def forward (operation : OperationMetadata) (vjp : VjpMetadata) (vjpOperation : OperationMetadata)
    (scalars : List Value) (values : List Tensor) : Except Exn (Context × Returned) := do
  let inputs := values.take operation.tensorInputs.length
  let outputs := values.drop operation.tensorInputs.length
  raiseIf (outputs.length ≠ operation.tensorOutputs.length)
    (.runtimeError [.text "Isolated operation returned an invalid output count"])
  let savedInputs ← vjp.savedInputs.mapM (getItem inputs)
  let savedOutputs ← vjp.savedOutputs.mapM (getItem outputs)
  let nonDifferentiable :=
    (outputs.zipIdx.filter fun item => ¬ (item.2 : Int) ∈ vjp.outputCotangents).map Prod.fst
  let ctx : Context :=
    { operation, vjp, vjpOperation, scalars, nonDifferentiable
      savedTensors := savedInputs ++ savedOutputs }
  return (ctx, returnOutputs outputs)

/-- `invoke_with_vjp`. -/
def invokeWithVjp (backend : Backend) (mode : Mode) (operation : OperationMetadata)
    (vjp : VjpMetadata) (vjpOperation : OperationMetadata) (args : List Object)
    (kwargs : Keywords) : Except Exn (Context × Returned) := do
  raiseIf (∃ parameter ∈ operation.tensorInputs, parameter.access ≠ "readOnly")
    (.runtimeError [.text "Isolated autograd does not support mutable tensor inputs"])
  let tensorInputs := tensorsOf args
  let scalars ← bindScalars backend.table operation.toOperationMetadata args kwargs
  let rawResult ← backend.invokePlugin mode operation.name
    (tensorInputs.map .tensor ++ scalars.map .value)
  let rawOutputs ← asTuple rawResult
  forward operation vjp vjpOperation scalars (tensorInputs ++ rawOutputs)

/-- The arguments of the VJP operation in `_VjpFunction.backward`. -/
def vjpArguments (ctx : Context) (outputGradients : List Tensor) : Except Exn (List Object) := do
  let savedInputCount := ctx.vjp.savedInputs.length
  let cotangents ← ctx.vjp.outputCotangents.mapM (getItem outputGradients)
  let vjpInputs := ctx.savedTensors.take savedInputCount ++
    ctx.savedTensors.drop savedInputCount ++ cotangents
  let selectedScalars ← ctx.vjp.scalarParameters.mapM (getItem ctx.scalars)
  return vjpInputs.map .tensor ++ selectedScalars.map .value

/-- `items[index] = item`. -/
def setItem {α : Type} (items : List α) (index : Int) (item : α) : Except Exn (List α) :=
  (getItem items index).map fun _ =>
    items.set (if index < 0 then index + items.length else index).toNat item

/-- The body of the loop of `_VjpFunction.backward` over the gradients that the VJP operation
returned. -/
def routeGradient (needsInputGrad : List Bool) (inputGradients : List (Option Tensor))
    (inputIndex : Int) (gradient : Tensor) : Except Exn (List (Option Tensor)) := do
  let needed ← getItem needsInputGrad (5 + inputIndex)
  if needed then setItem inputGradients inputIndex (some gradient) else return inputGradients

/-- That loop. -/
def routeGradients (needsInputGrad : List Bool) :
    List (Int × Tensor) → List (Option Tensor) → Except Exn (List (Option Tensor))
  | [], inputGradients => .ok inputGradients
  | (inputIndex, gradient) :: rest, inputGradients => do
    let inputGradients ← routeGradient needsInputGrad inputGradients inputIndex gradient
    routeGradients needsInputGrad rest inputGradients

/-- `_VjpFunction.backward`. -/
def backward (backend : Backend) (mode : Mode) (ctx : Context) (needsInputGrad : List Bool)
    (outputGradients : List Tensor) : Except Exn (List (Option Tensor)) := do
  raiseIf mode.gradEnabled
    (.runtimeError [.text "Isolated VJPs do not support higher-order autograd"])
  let args ← vjpArguments ctx outputGradients
  let result ← backend.invokePlugin mode ctx.vjpOperation.name args
  let returnedGradients ← asTuple result
  raiseIf (returnedGradients.length ≠ ctx.vjp.inputGradients.length)
    (.runtimeError [.text "VJP operation returned an invalid gradient count"])
  let pairs ← zipStrict (Invocation.valueError "zip() argument 2 is shorter than argument 1")
    ctx.vjp.inputGradients returnedGradients
  let inputGradients ← routeGradients needsInputGrad pairs
    (List.replicate ctx.operation.tensorInputs.length none)
  return List.replicate 5 none ++ inputGradients ++
    List.replicate ctx.operation.tensorOutputs.length none

/-! ### What the metadata says -/

/-- The origin of an input of the VJP operation. -/
inductive Source where
  | savedInput (index : Int)
  | savedOutput (index : Int)
  | cotangent (index : Int)
  deriving DecidableEq, Repr

/-- `saved_inputs ++ saved_outputs ++ output_cotangents`. -/
def sources (vjp : VjpMetadata) : List Source :=
  vjp.savedInputs.map .savedInput ++ vjp.savedOutputs.map .savedOutput ++
    vjp.outputCotangents.map .cotangent

/-- The tensor of an origin. -/
def Source.tensor? (inputs outputs cotangents : List Tensor) : Source → Option Tensor
  | .savedInput index => inputs[index.toNat]?
  | .savedOutput index => outputs[index.toNat]?
  | .cotangent index => cotangents[index.toNat]?

/-- The results of the VJP operation at the positions of their inputs. `forward` has five
arguments in front of the tensors. -/
structure IsRouted (vjp : VjpMetadata) (needsInputGrad : List Bool) (returned : List Tensor)
    (entries : List (Option Tensor)) : Prop where
  /-- The `k`-th result stands at its input, when that input needs a gradient. -/
  gradient : ∀ (k : Nat) (index : Int) (gradient : Tensor), vjp.inputGradients[k]? = some index →
    returned[k]? = some gradient → entries[5 + index.toNat]? =
      some (if needsInputGrad[5 + index.toNat]? = some true then some gradient else none)
  /-- Every other entry is `None`. -/
  other : ∀ position < entries.length,
    (∀ index ∈ vjp.inputGradients, position ≠ 5 + index.toNat) → entries[position]? = some none

/-- The indices are distinct and those of `count` items. -/
structure RefersTo (indices : List Int) (count : Nat) : Prop where
  nodup : indices.Nodup
  nonneg : ∀ index ∈ indices, 0 ≤ index
  lt : ∀ index ∈ indices, index < count

/-- The arguments of the VJP operation: as many tensors and scalars as it declares, each from where
the metadata says. -/
structure IsVjpCall (vjp : VjpMetadata) (target : OperationMetadata)
    (inputs outputs cotangents : List Tensor) (scalars : List Value) (args : List Object) :
    Prop where
  tensors_length : (tensorsOf args).length = target.tensorInputs.length
  others_length : (othersOf args).length = target.scalarParameters.length
  tensors : (tensorsOf args).map some = (sources vjp).map (Source.tensor? inputs outputs cotangents)
  others : (othersOf args).map some =
    vjp.scalarParameters.map fun index => (scalars[index.toNat]?).map .value

/-- What `_validate_vjp` checks of the indices. -/
structure Routes (operation target : OperationMetadata) (vjp : VjpMetadata) : Prop where
  savedInputs : RefersTo vjp.savedInputs operation.tensorInputs.length
  savedOutputs : RefersTo vjp.savedOutputs operation.tensorOutputs.length
  outputCotangents : RefersTo vjp.outputCotangents operation.tensorOutputs.length
  inputGradients : RefersTo vjp.inputGradients operation.tensorInputs.length
  scalarParameters : RefersTo vjp.scalarParameters operation.scalarParameters.length
  inputs : target.tensorInputs.length =
    vjp.savedInputs.length + vjp.savedOutputs.length + vjp.outputCotangents.length
  outputs : target.tensorOutputs.length = vjp.inputGradients.length
  scalars : target.scalarParameters.length = vjp.scalarParameters.length

/-- References that pass point to their targets. -/
theorem refersTo_of_validateReferences {operation : OperationMetadata} {indices : List Int}
    {count : Nat} {label : String}
    (h : validateReferences operation indices count label = .ok ()) : RefersTo indices count := by
  rw [validateReferences, raiseIf_ok_iff] at h
  push Not at h
  exact ⟨h.1, fun index hindex => (h.2 index hindex).1, fun index hindex => (h.2 index hindex).2⟩

/-- In a validated plugin the VJP operation is there, and the indices fit it. -/
theorem routes_of_validateVjp {plugin : PluginMetadata} {operation : OperationMetadata}
    {vjp : VjpMetadata} (hvjp : operation.vjp = some vjp)
    (h : validateVjp plugin.operations operation = .ok ()) :
    ∃ target, operationById plugin vjp.operationId = some target ∧
      Routes operation target vjp := by
  rw [validateVjp, hvjp] at h
  show ∃ target, plugin.operations.find? _ = some target ∧ _
  cases hfind : plugin.operations.find? fun item => item.operationId = vjp.operationId with
  | none =>
    simp only [hfind] at h
    cases h
  | some target =>
    simp only [hfind, Result.check_bind_ok_iff, raiseIf_ok_iff, not_not] at h
    obtain ⟨-, -, -, -, hinputs, houtputs, hcotangents, hgradients, hscalars, hcountInputs,
      hcountOutputs, hcountScalars, -⟩ := h
    exact ⟨target, rfl, refersTo_of_validateReferences hinputs,
      refersTo_of_validateReferences houtputs, refersTo_of_validateReferences hcotangents,
      refersTo_of_validateReferences hgradients, refersTo_of_validateReferences hscalars,
      hcountInputs, hcountOutputs, hcountScalars⟩

/-! ### Indices in range -/

/-- A loop that reads items at indices that are in range. -/
theorem mapM_getItem_ok {α : Type} {items : List α} {indices : List Int}
    (h : RefersTo indices items.length) : ∃ results, indices.mapM (getItem items) = .ok results ∧
      results.map some = indices.map fun index => items[index.toNat]? := by
  obtain ⟨-, hnonneg, hlt⟩ := h
  induction indices with
  | nil => exact ⟨[], rfl, rfl⟩
  | cons index indices ih =>
    rw [List.forall_mem_cons] at hnonneg hlt
    obtain ⟨item, hitem, hget⟩ := getItem_ok hnonneg.1 hlt.1
    obtain ⟨results, hresults, heq⟩ := ih hnonneg.2 hlt.2
    refine ⟨item :: results, ?_, ?_⟩
    · rw [List.mapM_cons, hget, Result.ok_bind, hresults]
      rfl
    · rw [List.map_cons, List.map_cons, heq, hitem]

/-- An item at a position is replaced. -/
theorem setItem_ok {α : Type} {items : List α} {index : Int} (hnonneg : 0 ≤ index)
    (hlt : index < items.length) (item : α) :
    setItem items index item = .ok (items.set index.toNat item) := by
  obtain ⟨old, -, hget⟩ := getItem_ok hnonneg hlt
  rw [setItem, hget, if_neg (not_lt.mpr hnonneg)]
  rfl

section
variable {needs : List Bool} {start : List (Option Tensor)}

/-- One gradient is written at its input when that one needs it, and nothing else changes. -/
theorem routeGradient_ok {index : Int} (hnonneg : 0 ≤ index) (hlt : index < start.length)
    (hneeds : 5 + start.length ≤ needs.length) (hstart : start[index.toNat]? = some none)
    (gradient : Tensor) : ∃ next, routeGradient needs start index gradient = .ok next ∧
      next.length = start.length ∧
      next[index.toNat]? =
        some (if needs[5 + index.toNat]? = some true then some gradient else none) ∧
      ∀ position, position ≠ index.toNat → next[position]? = start[position]? := by
  have hnonneg' : 0 ≤ 5 + index := by omega
  have hlt' : 5 + index < needs.length := by omega
  obtain ⟨needed, hneeded, hget⟩ := getItem_ok hnonneg' hlt'
  have hposition : (5 + index).toNat = 5 + index.toNat := by omega
  rw [hposition] at hneeded
  rw [routeGradient, hget, Result.ok_bind, hneeded]
  cases needed with
  | false => exact ⟨start, rfl, rfl, by rw [hstart]; rfl, fun _ _ => rfl⟩
  | true =>
    refine ⟨start.set index.toNat (some gradient), setItem_ok hnonneg hlt _, List.length_set, ?_,
      ?_⟩
    · rw [List.getElem?_set_self (by omega)]
      rfl
    · intro position hne
      exact List.getElem?_set_ne hne.symm

/-- The loop writes each gradient that is needed, and nothing else. The induction is on the
gradients: no later one has the index of an earlier one. -/
theorem routeGradients_ok {pairs : List (Int × Tensor)}
    (h : RefersTo (pairs.map Prod.fst) start.length) (hneeds : 5 + start.length ≤ needs.length)
    (hstart : ∀ pair ∈ pairs, start[pair.1.toNat]? = some none) :
    ∃ entries, routeGradients needs pairs start = .ok entries ∧ entries.length = start.length ∧
      (∀ pair ∈ pairs, entries[pair.1.toNat]? =
        some (if needs[5 + pair.1.toNat]? = some true then some pair.2 else none)) ∧
      ∀ position, (∀ pair ∈ pairs, position ≠ pair.1.toNat) →
        entries[position]? = start[position]? := by
  obtain ⟨hnodup, hnonneg, hlt⟩ := h
  induction pairs generalizing start with
  | nil => exact ⟨start, rfl, rfl, nofun, fun _ _ => rfl⟩
  | cons pair pairs ih =>
    obtain ⟨index, gradient⟩ := pair
    rw [List.map_cons, List.forall_mem_cons] at hnonneg hlt
    rw [List.map_cons, List.nodup_cons] at hnodup
    rw [List.forall_mem_cons] at hstart
    have hne : ∀ pair ∈ pairs, pair.1.toNat ≠ index.toNat := by
      intro pair hpair heq
      have hmem := List.mem_map_of_mem (f := Prod.fst) hpair
      have hindex : pair.1 = index := by
        have hpos := hnonneg.2 pair.1 hmem
        have hpos' := hnonneg.1
        omega
      exact hnodup.1 (hindex ▸ hmem)
    obtain ⟨next, hstep, hlength, hwritten, hframe⟩ :=
      routeGradient_ok hnonneg.1 hlt.1 hneeds hstart.1 gradient
    have hfree : ∀ pair ∈ pairs, next[pair.1.toNat]? = some none := by
      intro pair hpair
      rw [hframe _ (hne pair hpair)]
      exact hstart.2 pair hpair
    rw [← hlength] at hlt hneeds
    obtain ⟨entries, hrest, hentries, hgradients, hother⟩ :=
      ih hneeds hfree hnodup.2 hnonneg.2 hlt.2
    refine ⟨entries, ?_, hentries.trans hlength, ?_, ?_⟩
    · rw [routeGradients, hstep, Result.ok_bind]
      exact hrest
    · rw [List.forall_mem_cons]
      refine ⟨?_, hgradients⟩
      rw [hother index.toNat fun pair hpair => (hne pair hpair).symm]
      exact hwritten
    · intro position hposition
      rw [List.forall_mem_cons] at hposition
      rw [hother position hposition.2, hframe position hposition.1]

end

/-! ### Validated plugins -/

section
variable {backend : Backend} {floats : Json.FloatText} {sha256 : List UInt8 → Hex.Digest}
  {operation target : OperationMetadata} {vjp : VjpMetadata}

/-- What `validate_plugin_metadata` checks of one operation. -/
theorem valid_of_validatePluginMetadata {plugin : PluginMetadata}
    (h : validatePluginMetadata floats sha256 plugin = .ok ())
    (hmem : operation ∈ plugin.operations) :
    validateOperationMetadata operation.toOperationMetadata = .ok () ∧
      validateVjp plugin.operations operation = .ok () := by
  simp only [validatePluginMetadata, Result.check_bind_ok_iff, Result.forM_ok_iff] at h
  exact h.2.2.2.1 operation hmem

/-- A session finds the operation by its name, and a bound call has as many tensors as the operation
declares. -/
theorem length_tensorsOf_of_invokePlugin
    (h : validatePluginMetadata floats sha256 backend.plugin = .ok ())
    (hmem : operation ∈ backend.plugin.operations) {mode : Mode} {args : List Object}
    {result : Returned} (hinvoke : backend.invokePlugin mode operation.name args = .ok result) :
    (tensorsOf args).length = operation.tensorInputs.length := by
  have hvalid := (valid_of_validatePluginMetadata h hmem).1
  simp only [validatePluginMetadata, Result.check_bind_ok_iff, raiseIf_ok_iff, not_not] at h
  have hfind := (find?_eq_some_iff_of_nodup h.2.2.1).mpr ⟨hmem, rfl⟩
  rw [Backend.invokePlugin, hfind] at hinvoke
  obtain ⟨invocation, hbind, -⟩ := Result.bind_ok_iff.mp hinvoke
  have hbound := Invocation.bindsCall_of_bindInvocation hvalid hbind
  rw [← hbound.tensors, List.length_map, hbound.inputs]

/-! ### The two passes -/

/-- What `forward` leaves in its context. -/
structure Saves (operation : OperationMetadata) (vjp : VjpMetadata) (target : OperationMetadata)
    (inputs outputs : List Tensor) (scalars : List Value) (ctx : Context) : Prop where
  operation_eq : ctx.operation = operation
  vjp_eq : ctx.vjp = vjp
  vjpOperation_eq : ctx.vjpOperation = target
  scalars_eq : ctx.scalars = scalars
  savedTensors : ctx.savedTensors.map some =
    (vjp.savedInputs.map fun index => inputs[index.toNat]?) ++
      vjp.savedOutputs.map fun index => outputs[index.toNat]?

variable {inputs outputs cotangents : List Tensor} {scalars : List Value}

/-- `forward` indexes nothing out of range. -/
theorem forward_ok (hroutes : Routes operation target vjp)
    (hinputs : inputs.length = operation.tensorInputs.length)
    (houtputs : outputs.length = operation.tensorOutputs.length) :
    ∃ ctx, forward operation vjp target scalars (inputs ++ outputs) =
        .ok (ctx, returnOutputs outputs) ∧
      Saves operation vjp target inputs outputs scalars ctx := by
  have hreadInputs : RefersTo vjp.savedInputs inputs.length := hinputs ▸ hroutes.savedInputs
  have hreadOutputs : RefersTo vjp.savedOutputs outputs.length := houtputs ▸ hroutes.savedOutputs
  obtain ⟨savedInputs, hsavedInputs, hinputsEq⟩ := mapM_getItem_ok hreadInputs
  obtain ⟨savedOutputs, hsavedOutputs, houtputsEq⟩ := mapM_getItem_ok hreadOutputs
  let nonDifferentiable :=
    (outputs.zipIdx.filter fun item => ¬ (item.2 : Int) ∈ vjp.outputCotangents).map Prod.fst
  let ctx : Context :=
    { operation, vjp, vjpOperation := target, scalars, nonDifferentiable
      savedTensors := savedInputs ++ savedOutputs }
  refine ⟨ctx, ?_, rfl, rfl, rfl, rfl, ?_⟩
  · rw [forward, ← hinputs, List.take_left, List.drop_left, raiseIf, if_neg (not_not.mpr houtputs),
      Result.ok_bind, hsavedInputs, Result.ok_bind, hsavedOutputs, Result.ok_bind]
    rfl
  · show (savedInputs ++ savedOutputs).map some = _
    rw [List.map_append, hinputsEq, houtputsEq]

/-- The VJP operation gets what its metadata says. -/
theorem vjpArguments_ok (hroutes : Routes operation target vjp) {ctx : Context}
    (hctx : Saves operation vjp target inputs outputs scalars ctx)
    (hcotangents : cotangents.length = operation.tensorOutputs.length)
    (hscalars : scalars.length = operation.scalarParameters.length) :
    ∃ args, vjpArguments ctx cotangents = .ok args ∧
      IsVjpCall vjp target inputs outputs cotangents scalars args := by
  have hreadCotangents : RefersTo vjp.outputCotangents cotangents.length :=
    hcotangents ▸ hroutes.outputCotangents
  have hreadScalars : RefersTo vjp.scalarParameters scalars.length :=
    hscalars ▸ hroutes.scalarParameters
  obtain ⟨selected, hselected, hselectedEq⟩ := mapM_getItem_ok hreadCotangents
  obtain ⟨values, hvalues, hvaluesEq⟩ := mapM_getItem_ok hreadScalars
  have hargs : vjpArguments ctx cotangents =
      .ok ((ctx.savedTensors ++ selected).map .tensor ++ values.map .value) := by
    rw [vjpArguments, hctx.vjp_eq, hselected, Result.ok_bind, hctx.scalars_eq, hvalues,
      Result.ok_bind, List.take_append_drop]
    rfl
  have htensors : (ctx.savedTensors ++ selected).map some =
      (sources vjp).map (Source.tensor? inputs outputs cotangents) := by
    rw [List.map_append, hctx.savedTensors, hselectedEq, sources, List.map_append, List.map_append,
      List.map_map, List.map_map, List.map_map]
    rfl
  have hothers : (values.map Object.value).map some =
      vjp.scalarParameters.map fun index => (scalars[index.toNat]?).map .value := by
    have hmap := congrArg (List.map (Option.map Object.value)) hvaluesEq
    rw [List.map_map, List.map_map] at hmap
    rw [List.map_map]
    exact hmap
  refine ⟨_, hargs, ?_, ?_, ?_, ?_⟩
  · have hlength := congrArg List.length htensors
    rw [tensorsOf_arguments]
    simp only [List.length_map, sources, List.length_append] at hlength
    rw [hroutes.inputs, ← hlength, List.length_append]
  · have hlength := congrArg List.length hothers
    rw [List.length_map] at hlength
    rw [othersOf_arguments, hroutes.scalars, hlength, List.length_map]
  · rw [tensorsOf_arguments]
    exact htensors
  · rw [othersOf_arguments]
    exact hothers

/-- The results of the VJP operation go to the inputs that the metadata names. -/
theorem routeGradients_isRouted (hroutes : Routes operation target vjp) {needs : List Bool}
    {returned : List Tensor} (hneeds : 5 + operation.tensorInputs.length ≤ needs.length)
    (hreturned : returned.length = vjp.inputGradients.length) (count : Nat) :
    ∃ gradients, routeGradients needs (vjp.inputGradients.zip returned)
        (List.replicate operation.tensorInputs.length none) = .ok gradients ∧
      gradients.length = operation.tensorInputs.length ∧
      IsRouted vjp needs returned
        (List.replicate 5 none ++ gradients ++ List.replicate count none) := by
  have hfst : (vjp.inputGradients.zip returned).map Prod.fst = vjp.inputGradients :=
    List.map_fst_zip hreturned.ge
  have hlt : ∀ index ∈ vjp.inputGradients, index.toNat < operation.tensorInputs.length := by
    intro index hindex
    have hnonneg := hroutes.inputGradients.nonneg index hindex
    have hlt := hroutes.inputGradients.lt index hindex
    omega
  have hfree : ∀ pair ∈ vjp.inputGradients.zip returned,
      (List.replicate operation.tensorInputs.length (none : Option Tensor))[pair.1.toNat]? =
        some none := by
    intro pair hpair
    have hmem := List.mem_map_of_mem (f := Prod.fst) hpair
    rw [hfst] at hmem
    exact List.getElem?_replicate_of_lt (hlt _ hmem)
  have hstart : (List.replicate operation.tensorInputs.length (none : Option Tensor)).length =
      operation.tensorInputs.length := List.length_replicate
  obtain ⟨gradients, hroute, hlength, hgradients, hother⟩ := routeGradients_ok
    (by rw [hfst, hstart]; exact hroutes.inputGradients) (by rwa [hstart]) hfree
  rw [List.length_replicate] at hlength
  -- The entries in front of the inputs and behind them are `None`.
  have hentry : ∀ position < gradients.length,
      (List.replicate 5 none ++ gradients ++ List.replicate count none)[5 + position]? =
        gradients[position]? := by
    intro position hposition
    rw [List.append_assoc, List.getElem?_append_right (by simp), List.length_replicate,
      Nat.add_sub_cancel_left, List.getElem?_append_left hposition]
  refine ⟨gradients, hroute, hlength, ?_, ?_⟩
  · intro k index gradient hindex hgradient
    have hpair : (index, gradient) ∈ vjp.inputGradients.zip returned := by
      apply List.mem_of_getElem? (i := k)
      rw [List.getElem?_zip_eq_some]
      exact ⟨hindex, hgradient⟩
    rw [hentry _ (hlength ▸ hlt index (List.mem_of_getElem? hindex))]
    exact hgradients _ hpair
  · intro position hposition hnot
    simp only [List.length_append, List.length_replicate] at hposition
    rcases lt_or_ge position 5 with hfront | hfront
    · rw [List.append_assoc, List.getElem?_append_left (by simpa using hfront)]
      exact List.getElem?_replicate_of_lt hfront
    · rcases lt_or_ge position (5 + gradients.length) with hinside | hbehind
      · obtain ⟨offset, rfl⟩ := Nat.exists_eq_add_of_le hfront
        rw [hentry offset (by omega), hother offset, List.getElem?_replicate_of_lt (by omega)]
        intro pair hpair heq
        have hmem := List.mem_map_of_mem (f := Prod.fst) hpair
        rw [hfst] at hmem
        exact hnot pair.1 hmem (by rw [heq])
      · have hlength : (List.replicate 5 none ++ gradients).length ≤ position := by
          rw [List.length_append, List.length_replicate]
          exact hbehind
        rw [List.getElem?_append_right hlength]
        apply List.getElem?_replicate_of_lt
        simp only [List.length_append, List.length_replicate]
        omega

/-- `backward` returns one entry for each argument of `forward`. -/
theorem backward_ok (hroutes : Routes operation target vjp) {ctx : Context}
    (hctx : Saves operation vjp target inputs outputs scalars ctx) {mode : Mode}
    (hmode : mode.gradEnabled = false) {args : List Object}
    (hargs : vjpArguments ctx cotangents = .ok args) {result : Returned} {returned : List Tensor}
    (hinvoke : backend.invokePlugin mode target.name args = .ok result)
    (hresult : asTuple result = .ok returned)
    (hcount : returned.length = target.tensorOutputs.length) {needs : List Bool}
    (hneeds : 5 + operation.tensorInputs.length ≤ needs.length) :
    ∃ entries, backward backend mode ctx needs cotangents = .ok entries ∧
      entries.length =
        5 + operation.tensorInputs.length + operation.tensorOutputs.length ∧
      IsRouted vjp needs returned entries := by
  have hreturned := hcount.trans hroutes.outputs
  obtain ⟨gradients, hroute, hlength, hrouted⟩ :=
    routeGradients_isRouted hroutes hneeds hreturned operation.tensorOutputs.length
  refine ⟨_, ?_, ?_, hrouted⟩
  · rw [backward, hmode, hargs, hctx.vjp_eq, hctx.vjpOperation_eq, hctx.operation_eq, raiseIf,
      if_neg Bool.false_ne_true, Result.ok_bind, Result.ok_bind, hinvoke, Result.ok_bind, hresult,
      Result.ok_bind, raiseIf, if_neg (not_not.mpr hreturned), Result.ok_bind, zipStrict,
      if_pos hreturned.symm, Result.ok_bind, hroute, Result.ok_bind]
    rfl
  · simp only [List.length_append, List.length_replicate, hlength]

/-- **VJP routing is total.** For an operation of a validated plugin whose inputs are read-only, a
call that returns its declared number of outputs makes a context without an index out of range.
Cotangents for these outputs then make a call of the VJP operation with the tensors and scalars that
the metadata says; and when that call returns its declared number of outputs, each of them stands at
the input that it belongs to. -/
theorem vjp_routing (floats : Json.FloatText) (sha256 : List UInt8 → Hex.Digest)
    (backend : Backend) (mode : Mode) (operation : OperationMetadata) (vjp : VjpMetadata)
    (args : List Object) (kwargs : Keywords) (scalars : List Value) (rawResult : Returned)
    (outputs : List Tensor)
    (hplugin : validatePluginMetadata floats sha256 backend.plugin = .ok ())
    (hmem : operation ∈ backend.plugin.operations) (hvjp : operation.vjp = some vjp)
    (hreadOnly : ∀ parameter ∈ operation.tensorInputs, parameter.access = "readOnly")
    (hscalars : bindScalars backend.table operation.toOperationMetadata args kwargs = .ok scalars)
    (hinvoke : backend.invokePlugin mode operation.name
      ((tensorsOf args).map .tensor ++ scalars.map .value) = .ok rawResult)
    (hresult : asTuple rawResult = .ok outputs)
    (hcount : outputs.length = operation.tensorOutputs.length) :
    ∃ target, operationById backend.plugin vjp.operationId = some target ∧
      ∃ ctx, invokeWithVjp backend mode operation vjp target args kwargs =
          .ok (ctx, returnOutputs outputs) ∧
        ∀ cotangents : List Tensor, cotangents.length = outputs.length →
          ∃ vjpArgs, vjpArguments ctx cotangents = .ok vjpArgs ∧
            IsVjpCall vjp target (tensorsOf args) outputs cotangents scalars vjpArgs ∧
            ∀ (mode : Mode) (needsInputGrad : List Bool) (vjpResult : Returned)
              (returned : List Tensor), mode.gradEnabled = false →
              needsInputGrad.length = 5 + (tensorsOf args ++ outputs).length →
              backend.invokePlugin mode target.name vjpArgs = .ok vjpResult →
              asTuple vjpResult = .ok returned →
              returned.length = target.tensorOutputs.length →
              ∃ entries, backward backend mode ctx needsInputGrad cotangents = .ok entries ∧
                entries.length = 5 + (tensorsOf args ++ outputs).length ∧
                IsRouted vjp needsInputGrad returned entries := by
  obtain ⟨hvalid, hvalidVjp⟩ := valid_of_validatePluginMetadata hplugin hmem
  obtain ⟨target, htarget, hroutes⟩ := routes_of_validateVjp hvjp hvalidVjp
  have hinputs : (tensorsOf args).length = operation.tensorInputs.length := by
    rw [← length_tensorsOf_of_invokePlugin hplugin hmem hinvoke, tensorsOf_arguments]
  have hscalarsLength : scalars.length = operation.scalarParameters.length :=
    (Invocation.forall₂_hasKind_of_bindScalars (Invocation.validateScalar_of_valid hvalid)
      hscalars).length_eq.symm
  obtain ⟨ctx, hforward, hctx⟩ := forward_ok hroutes hinputs hcount
  have hlength : (tensorsOf args ++ outputs).length =
      operation.tensorInputs.length + operation.tensorOutputs.length := by
    rw [List.length_append, hinputs, hcount]
  refine ⟨target, htarget, ctx, ?_, ?_⟩
  · have hmutable : ¬ ∃ parameter ∈ operation.tensorInputs, parameter.access ≠ "readOnly" := by
      intro ⟨parameter, hparameter, hne⟩
      exact hne (hreadOnly parameter hparameter)
    rw [invokeWithVjp, raiseIf, if_neg hmutable, Result.ok_bind, hscalars, Result.ok_bind, hinvoke,
      Result.ok_bind, hresult, Result.ok_bind]
    exact hforward
  · intro cotangents hcotangents
    obtain ⟨vjpArgs, hargs, hcall⟩ :=
      vjpArguments_ok hroutes hctx (hcotangents.trans hcount) hscalarsLength
    refine ⟨vjpArgs, hargs, hcall, ?_⟩
    intro mode needs vjpResult returned hmode hneeds hvjpInvoke hvjpResult hreturned
    rw [hlength] at hneeds ⊢
    rw [← Nat.add_assoc]
    exact backward_ok hroutes hctx hmode hargs hvjpInvoke hvjpResult hreturned (by omega)

end

/-- An operation whose VJP operation takes its input and a cotangent. -/
def square : OperationMetadata where
  name := "square"
  tensorInputs := [⟨"x", "readOnly", none, []⟩]
  tensorOutputs := [⟨"y", "readWrite", none, []⟩]
  scalarParameters := []
  operationId := 1
  outputPlans := [⟨"y", some ⟨.sameShapeAsInput 0, .input 0⟩⟩]
  vjp := some ⟨2, [0], [], [0], [0], []⟩
  internal := false

/-- That VJP operation. -/
def squareVjp : OperationMetadata where
  name := "square_vjp"
  tensorInputs := [⟨"x", "readOnly", none, []⟩, ⟨"dy", "readOnly", none, []⟩]
  tensorOutputs := [⟨"dx", "readWrite", none, []⟩]
  scalarParameters := []
  operationId := 2
  outputPlans := [⟨"dx", some ⟨.sameShapeAsInput 0, .input 0⟩⟩]
  vjp := none
  internal := true

/-- The plugin of the two. -/
def squarePlugin (fingerprint : Nat) : PluginMetadata where
  name := "demo"
  version := []
  protocolVersion := 11
  metadataVersion := 2
  fingerprint := fingerprint
  operations := [square, squareVjp]

/-- A backend for it that answers every invocation with one tensor. -/
def squareBackend (fingerprint : Nat) : Backend where
  table := .ascii
  plugin := squarePlugin fingerprint
  perform := fun _ => .ok (.single (.tensor Invocation.plainTensor))

/-- The plugin is valid with the fingerprint of its metadata, whatever the hash is. -/
theorem exists_validatePluginMetadata_square (sha256 : List UInt8 → Hex.Digest) :
    ∃ fingerprint, validatePluginMetadata .ofBits sha256 (squarePlugin fingerprint) = .ok () := by
  have hjson : (Json.canonicalBytes .ofBits
      (Manifest.canonicalDocument (squarePlugin 0))).isSome = true := by
    rw [Json.canonicalBytes_isSome_iff]
    rfl
  obtain ⟨bytes, hbytes⟩ := Option.isSome_iff_exists.mp hjson
  let fingerprint := Hex.bigEndian ((sha256 bytes).toList.take 8)
  have hcanonical : Manifest.canonicalMetadataBytes .ofBits (squarePlugin fingerprint) =
      .ok bytes := by
    -- The fingerprint is no part of the document.
    have hdocument : Manifest.canonicalDocument (squarePlugin fingerprint) =
        Manifest.canonicalDocument (squarePlugin 0) := rfl
    rw [Manifest.canonicalMetadataBytes, hdocument, hbytes]
  have hfingerprint : Manifest.metadataFingerprint .ofBits sha256 (squarePlugin fingerprint) =
      .ok fingerprint := by
    rw [Manifest.metadataFingerprint, hcanonical]
    rfl
  refine ⟨fingerprint, ?_⟩
  simp only [validatePluginMetadata, Result.check_bind_ok_iff, raiseIf_ok_iff, Result.forM_ok_iff,
    not_not, hfingerprint, Result.ok_bind, ne_eq]
  refine ⟨by simp [squarePlugin, square, squareVjp], by simp [squarePlugin, square, squareVjp],
    by simp [squarePlugin, square, squareVjp], ?_, by simp [squarePlugin], rfl⟩
  intro operation hmem
  rcases List.mem_pair.mp hmem with rfl | rfl
  · exact ⟨rfl, rfl⟩
  · exact ⟨rfl, rfl⟩

/-- A call of `square`, with the SHA-256 of the standard. -/
theorem vjp_routing_square : ∃ fingerprint target,
    operationById (squarePlugin fingerprint) 2 = some target ∧
    ∃ ctx, invokeWithVjp (squareBackend fingerprint) ⟨true, false⟩ square
        ⟨2, [0], [], [0], [0], []⟩ target [.tensor Invocation.plainTensor] ∅ =
      .ok (ctx, .single (.tensor Invocation.plainTensor)) := by
  obtain ⟨fingerprint, hplugin⟩ := exists_validatePluginMetadata_square Sha256.digestVector
  obtain ⟨target, htarget, ctx, hforward, -⟩ := vjp_routing .ofBits Sha256.digestVector
    (squareBackend fingerprint) ⟨true, false⟩ square ⟨2, [0], [], [0], [0], []⟩
    [.tensor Invocation.plainTensor] ∅ [] (.single (.tensor Invocation.plainTensor))
    [Invocation.plainTensor] hplugin List.mem_cons_self rfl (by decide) rfl rfl rfl rfl
  exact ⟨fingerprint, target, htarget, ctx, hforward⟩

end Wmfs.Autograd
