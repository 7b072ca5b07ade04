import Wmfs.Runtime.Close

/-!
# `Wmfs.Runtime.Names`: published names are Python names

The runtime publishes plugins as namespaces and operations as functions. Whatever plugins are
loaded or discovered, in whatever order, each name of the registry can be used so: `ApiNames` says
what this means, and `apiNames_of_reachable` that it holds in every run.
-/

set_option autoImplicit false

namespace Wmfs.Runtime

open Wmfs.Lib

variable {naming : Naming} {s t : State} {call : CallId}

/-- A name that Python accepts. -/
structure Naming.Accepts (naming : Naming) (name : String) : Prop where
  isIdentifier : naming.isIdentifier name = true
  notKeyword : naming.isKeyword name = false

/-- A name that the runtime publishes. -/
structure Naming.Publishes (naming : Naming) (name : String) : Prop
    extends naming.Accepts name where
  notPrivate : startsWithUnderscore name = false

/-- An operation that the runtime publishes. Its short name may be that of a function of the
package only when it is not published. -/
structure PublishedOperation (naming : Naming) (registry : OperationRegistry)
    (operation : Manifest.OperationMetadata) : Prop where
  name : naming.Publishes operation.name
  free : operation.name ∈ registry.operationNames → operation.name ∉ RESERVED_OPERATION_NAMES
  parameters : ∀ name ∈ parameterNames naming operation, naming.Accepts name ∧ name ≠ "out"
  distinct : (parameterNames naming operation).Nodup

/-- The names of a registry. -/
structure ApiNames (naming : Naming) (registry : OperationRegistry) : Prop where
  plugins : ∀ plugin ∈ registry.plugins, naming.Publishes plugin.name
  operations : ∀ plugin ∈ registry.plugins, ∀ operation ∈ plugin.operations,
    operation.internal = false → PublishedOperation naming registry operation

/-- A name that is not rejected is accepted. -/
theorem rejects_eq_false_iff {name : String} :
    naming.rejects name = false ↔ naming.Accepts name := by
  constructor
  · intro h
    simp only [Naming.rejects, Bool.or_eq_false_iff, Bool.not_eq_false'] at h
    exact ⟨h.1, h.2⟩
  · intro h
    simp [Naming.rejects, h.isIdentifier, h.notKeyword]

/-- What the second loop of `_validate_public_operations` checks. -/
theorem publishable_iff {registry : OperationRegistry} {operation : Manifest.OperationMetadata} :
    publishable naming registry operation = true ↔
      PublishedOperation naming registry operation := by
  unfold publishable
  simp only [Bool.and_eq_true, Bool.not_eq_true', Bool.or_eq_false_iff, Bool.and_eq_false_iff,
    decide_eq_true_eq, decide_eq_false_iff_not, List.any_eq_false, List.contains_eq_mem,
    rejects_eq_false_iff]
  constructor
  · rintro ⟨⟨⟨⟨haccepts, hprivate⟩, hfree⟩, hparameters⟩, hdistinct⟩
    refine ⟨⟨haccepts, hprivate⟩, ?_, ?_, hdistinct⟩
    · intro hname hreserved
      rcases hfree with hfree | hfree
      · exact hfree hreserved
      · exact hfree hname
    · intro name hname
      have hboth := hparameters name hname
      rw [Bool.not_eq_true, Bool.or_eq_false_iff, rejects_eq_false_iff] at hboth
      exact ⟨hboth.1, by simpa using hboth.2⟩
  · intro h
    refine ⟨⟨⟨⟨h.name.toAccepts, h.name.notPrivate⟩, ?_⟩, ?_⟩, h.distinct⟩
    · by_cases hname : operation.name ∈ registry.operationNames
      · exact Or.inl (h.free hname)
      · exact Or.inr hname
    · intro name hname
      obtain ⟨haccepts, hout⟩ := h.parameters name hname
      rw [Bool.not_eq_true, Bool.or_eq_false_iff, rejects_eq_false_iff]
      exact ⟨haccepts, by simpa using hout⟩

/-- `_validate_public_operations` returns for the registries with such names. -/
theorem validatePublicOperations_iff {registry : OperationRegistry} :
    validatePublicOperations naming registry = true ↔ ApiNames naming registry := by
  unfold validatePublicOperations
  simp only [Bool.and_eq_true, List.all_eq_true, List.mem_filter, Bool.not_eq_true',
    Bool.or_eq_false_iff, rejects_eq_false_iff, publishable_iff]
  constructor
  · rintro ⟨hplugins, hoperations⟩
    constructor
    · intro plugin hplugin
      exact ⟨(hplugins plugin hplugin).1, (hplugins plugin hplugin).2⟩
    · intro plugin hplugin operation hoperation hpublic
      exact hoperations plugin hplugin operation ⟨hoperation, hpublic⟩
  · intro h
    constructor
    · intro plugin hplugin
      exact ⟨(h.plugins plugin hplugin).toAccepts, (h.plugins plugin hplugin).notPrivate⟩
    · rintro plugin hplugin operation ⟨hoperation, hpublic⟩
      exact h.operations plugin hplugin operation hoperation hpublic

/-- The registry of the runtime is valid, and so is each one that is about to be published. -/
structure State.Valid (naming : Naming) (s : State) : Prop where
  published : validatePublicOperations naming s.core.registry = true
  validated : ∀ c manifests id, s.calls c = .validated manifests id →
    validatePublicOperations naming (s.heap.isolated id).registry = true

/-- A step that keeps the registries. -/
theorem State.Valid.move (h : s.Valid naming) {pc : Pc}
    (hcalls : t.calls = Function.update s.calls call pc)
    (hregistry : t.core.registry = s.core.registry)
    (hothers : ∀ c manifests id, c ≠ call → s.calls c = .validated manifests id →
      (t.heap.isolated id).registry = (s.heap.isolated id).registry)
    (hthis : ∀ manifests id, pc ≠ .validated manifests id) : t.Valid naming := by
  constructor
  · rw [hregistry]
    exact h.published
  · intro c manifests id hc
    rw [hcalls] at hc
    by_cases hcall : c = call
    · rw [hcall, Function.update_self] at hc
      exact absurd hc (hthis manifests id)
    · rw [Function.update_of_ne hcall] at hc
      rw [hothers c manifests id hcall hc]
      exact h.validated c manifests id hc

/-- A step of a call keeps the names. -/
theorem State.Valid.trans (h : s.Valid naming) (hinv : s.Inv) {pc : Pc} (hpc : s.calls call = pc)
    (htrans : Trans naming s call pc t) : t.Valid naming := by
  have hclose : ∀ backend id, ((s.heap.close backend).isolated id).registry =
      (s.heap.isolated id).registry := by
    intro backend id
    cases backend with
    | bundled b => rfl
    | isolated b =>
      show (Function.update s.heap.isolated b _ id).registry = _
      by_cases hid : id = b
      · rw [hid, Function.update_self]
      · rw [Function.update_of_ne hid]
  cases htrans with
  | accept backend operation core _ _ hmarked =>
    refine h.move rfl ?_ (fun _ _ _ _ _ => rfl) (by simp)
    cases hmarked with
    | operation name =>
      show (s.core.markInitialized name).registry = s.core.registry
      unfold Core.markInitialized
      split <;> rfl
    | tensor => rfl
  | move _ pc' hmoves =>
    cases hmoves with
    | validate manifests backend hvalid =>
      constructor
      · exact h.published
      · intro c manifests' id hc
        by_cases hcall : c = call
        · rw [hcall] at hc
          simp only [Function.update_self, Pc.validated.injEq] at hc
          rw [← hc.2]
          exact hvalid
        · exact h.validated c manifests' id (by simpa [hcall] using hc)
    | _ => exact h.move rfl rfl (fun _ _ _ _ _ => rfl) (by simp)
  | construct prepared configured loaded =>
    refine h.move rfl rfl ?_ (by simp)
    intro c manifests id _ hc
    have hne : id ≠ s.heap.isolatedCount :=
      Nat.ne_of_lt (hinv.owned.held_lt c id (by rw [hc]; rfl))
    show (Function.update s.heap.isolated s.heap.isolatedCount _ id).registry = _
    rw [Function.update_of_ne hne]
  | started manifests backend registry =>
    refine h.move rfl rfl ?_ (by simp)
    intro c manifests' id hcall hc
    have hne : id ≠ backend := by
      rintro rfl
      exact hcall (hinv.owned.held_unique c call id (by rw [hc]; rfl) (by rw [hpc]; rfl))
    show (Function.update s.heap.isolated backend _ id).registry = _
    rw [Function.update_of_ne hne]
  | closeIsolated _ backend result =>
    exact h.move rfl rfl (fun _ _ id _ _ => hclose (.isolated backend) id) (by simp)
  | publish manifests backend =>
    constructor
    · exact h.validated call manifests backend hpc
    · intro c manifests' id hc
      by_cases hcall : c = call
      · rw [hcall] at hc
        simp [State.publish] at hc
      · exact h.validated c manifests' id (by simpa [State.publish, hcall] using hc)
  | closeBackend backend rest raised raised' =>
    exact h.move rfl rfl (fun _ _ id _ _ => hclose backend id) (by simp)
  | reset raised =>
    constructor
    · rfl
    · intro c manifests id hc
      by_cases hcall : c = call
      · rw [hcall] at hc
        simp [State.reset] at hc
      · exact h.validated c manifests id (by simpa [State.reset, hcall] using hc)
  | _ => exact h.move rfl rfl (fun _ _ _ _ _ => rfl) (by simp)

/-- A request keeps the names. -/
theorem State.Valid.request (h : s.Valid naming) {request : Request}
    {r : State × Except Failure Unit} (hrequested : Requested naming s request r) :
    r.1.Valid naming := by
  constructor
  · cases hrequested with
    | loaded _ _ _ _ hvalid => exact hvalid
    | reloaded _ _ _ _ _ hvalid => exact hvalid
    | selectBundled | selectIsolated =>
      rw [select_core]
      exact h.published
    | _ => exact h.published
  · rw [hrequested.frame.2.2.1, hrequested.isolated.2.1]
    exact h.validated

/-- **Published names are Python names**, in every run. -/
theorem apiNames_of_reachable (h : (runtimeMachine naming).Reachable s) :
    ApiNames naming s.core.registry := by
  have hvalid : s.Valid naming := by
    apply h.invariant_of_reach (I := fun s => s.Valid naming)
    · refine ⟨rfl, ?_⟩
      intro c manifests id hc
      cases hc
    · intro s a t hs hvalid _ hstep
      rcases trans_of_step hstep with ⟨request, -, rfl⟩ | ⟨call, -, htrans⟩
      · have hrequested : Requested naming s request _ := requested request
        exact hvalid.request hrequested
      · exact hvalid.trans (inv_of_reachable hs) rfl htrans
  exact validatePublicOperations_iff.mp hvalid.published

/-- The names of a loaded plugin. -/
theorem apiNames_plain :
    selectedState.core.registry.plugins = [plainManifest.metadata] ∧
      ApiNames plainNaming selectedState.core.registry :=
  ⟨rfl, apiNames_of_reachable reachable_selectedState⟩

end Wmfs.Runtime
