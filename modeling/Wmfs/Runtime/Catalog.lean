import Wmfs.Runtime.Generation

/-!
# `Wmfs.Runtime.Catalog`: what is published is what is executed

Three calls replace the registry of a runtime, and the backends keep the operation tables that
they were given. `KeepsCatalog` are the steps that leave no backend behind: a `load_plugins` that
succeeds before there is an isolated backend, and a `discover_plugins` that publishes while the
bundled backend is not selected. In the runs of such steps the selected backend executes every
operation under the metadata that the registry has (`published_agrees`).
-/

set_option autoImplicit false

namespace Wmfs.Runtime

open Wmfs.Lib

variable {naming : Naming} {s t : State} {call : CallId}

/-! ### The backends that are not yet published -/

/-- The manifests and the backend of a `discover_plugins` behind `IsolatedBackend.discover`. -/
def Pc.discovered : Pc → Option (List PluginManifest × Nat)
  | .created manifests backend | .validated manifests backend => some (manifests, backend)
  | _ => none

/-- The manifests and the backend of a `discover_plugins` that has made a backend. -/
def Pc.made : Pc → Option (List PluginManifest × Nat)
  | .starting manifests backend | .created manifests backend | .validated manifests backend =>
    some (manifests, backend)
  | _ => none

/-- The backends in the making have their manifests, and their plugins are registered. -/
structure State.Prepared (s : State) : Prop where
  manifests : ∀ c manifests id, (s.calls c).made = some (manifests, id) →
    (s.heap.isolated id).manifests = manifests
  registry : ∀ c manifests id, (s.calls c).discovered = some (manifests, id) →
    OperationRegistry.ofManifests manifests = .ok (s.heap.isolated id).registry

/-- A call that has made a backend holds it. -/
theorem holds_of_made {pc : Pc} {manifests : List PluginManifest} {id : Nat}
    (h : pc.made = some (manifests, id)) : pc.holds = some id := by
  cases pc <;> simp_all [Pc.made, Pc.holds]

/-- A call whose backend has been discovered has made it. -/
theorem made_of_discovered {pc : Pc} {manifests : List PluginManifest} {id : Nat}
    (h : pc.discovered = some (manifests, id)) : pc.made = some (manifests, id) := by
  cases pc <;> simp_all [Pc.made, Pc.discovered]

/-- The backends in the making after a step that keeps those of the other calls. -/
theorem State.Prepared.move (h : s.Prepared) {pc : Pc}
    (hcalls : t.calls = Function.update s.calls call pc)
    (hothers : ∀ c manifests id, c ≠ call → (s.calls c).made = some (manifests, id) →
      (t.heap.isolated id).manifests = (s.heap.isolated id).manifests ∧
        (t.heap.isolated id).registry = (s.heap.isolated id).registry)
    (hmade : ∀ manifests id, pc.made = some (manifests, id) →
      (t.heap.isolated id).manifests = manifests)
    (hdiscovered : ∀ manifests id, pc.discovered = some (manifests, id) →
      OperationRegistry.ofManifests manifests = .ok (t.heap.isolated id).registry) :
    t.Prepared := by
  constructor
  · intro c manifests id hc
    rw [hcalls] at hc
    by_cases hcall : c = call
    · rw [hcall, Function.update_self] at hc
      exact hmade manifests id hc
    · rw [Function.update_of_ne hcall] at hc
      rw [(hothers c manifests id hcall hc).1]
      exact h.manifests c manifests id hc
  · intro c manifests id hc
    rw [hcalls] at hc
    by_cases hcall : c = call
    · rw [hcall, Function.update_self] at hc
      exact hdiscovered manifests id hc
    · rw [Function.update_of_ne hcall] at hc
      rw [(hothers c manifests id hcall (made_of_discovered hc)).2]
      exact h.registry c manifests id hc

/-- Closing a backend changes neither its manifests nor its registry. -/
theorem close_isolated (heap : Heap) (backend : BackendRef) (id : Nat) :
    ((heap.close backend).isolated id).manifests = (heap.isolated id).manifests ∧
      ((heap.close backend).isolated id).registry = (heap.isolated id).registry := by
  cases backend with
  | bundled b => exact ⟨rfl, rfl⟩
  | isolated b =>
    show (Function.update heap.isolated b _ id).manifests = _ ∧
      (Function.update heap.isolated b _ id).registry = _
    by_cases hid : id = b
    · rw [hid, Function.update_self]
      exact ⟨rfl, rfl⟩
    · rw [Function.update_of_ne hid]
      exact ⟨rfl, rfl⟩

/-- A step of a call keeps the backends in the making. -/
theorem State.Prepared.trans (h : s.Prepared) (hinv : s.Inv) {pc : Pc} (hpc : s.calls call = pc)
    (htrans : Trans naming s call pc t) : t.Prepared := by
  -- A step that makes no backend and keeps those that there are.
  have hkeep : ∀ {u : State} (pc' : Pc), u.calls = Function.update s.calls call pc' →
      (∀ id, (u.heap.isolated id).manifests = (s.heap.isolated id).manifests ∧
        (u.heap.isolated id).registry = (s.heap.isolated id).registry) →
          pc'.made = none → u.Prepared := by
    intro u pc' hcalls hheap hnone
    apply h.move hcalls (fun c manifests id _ _ => hheap id)
    · intro manifests id hmade
      rw [hnone] at hmade
      cases hmade
    · intro manifests id hdiscovered
      rw [made_of_discovered hdiscovered] at hnone
      cases hnone
  have hsame : ∀ id, (s.heap.isolated id).manifests = (s.heap.isolated id).manifests ∧
      (s.heap.isolated id).registry = (s.heap.isolated id).registry := fun _ => ⟨rfl, rfl⟩
  cases htrans with
  | move _ pc' hmoves =>
    cases hmoves with
    | validate manifests backend =>
      refine h.move rfl (fun c manifests id _ _ => hsame id) ?_ ?_
      · intro manifests' id hmade
        cases hmade
        exact h.manifests call manifests backend (by rw [hpc]; rfl)
      · intro manifests' id hmade
        cases hmade
        exact h.registry call manifests backend (by rw [hpc]; rfl)
    | _ => exact hkeep _ rfl hsame rfl
  | construct prepared configured loaded =>
    apply h.move rfl
    · intro c manifests id _ hmade
      have hne : id ≠ s.heap.isolatedCount :=
        Nat.ne_of_lt (hinv.owned.held_lt c id (holds_of_made hmade))
      show (Function.update s.heap.isolated s.heap.isolatedCount _ id).manifests = _ ∧
        (Function.update s.heap.isolated s.heap.isolatedCount _ id).registry = _
      rw [Function.update_of_ne hne]
      exact ⟨rfl, rfl⟩
    · intro manifests id hmade
      cases hmade
      show (Function.update s.heap.isolated s.heap.isolatedCount _ _).manifests = _
      rw [Function.update_self]
    · intro manifests id hdiscovered
      cases hdiscovered
  | started manifests backend registry hregistry =>
    apply h.move rfl
    · intro c manifests' id hc hmade
      have hne : id ≠ backend := by
        rintro rfl
        exact hc (hinv.owned.held_unique c call id (holds_of_made hmade) (by rw [hpc]; rfl))
      show (Function.update s.heap.isolated backend _ id).manifests = _ ∧
        (Function.update s.heap.isolated backend _ id).registry = _
      rw [Function.update_of_ne hne]
      exact ⟨rfl, rfl⟩
    · intro manifests' id hmade
      cases hmade
      show (Function.update s.heap.isolated backend _ backend).manifests = _
      rw [Function.update_self]
      exact h.manifests call manifests backend (by rw [hpc]; rfl)
    · intro manifests' id hdiscovered
      cases hdiscovered
      show _ = Except.ok (Function.update s.heap.isolated backend _ backend).registry
      rw [Function.update_self]
      exact hregistry
  | closeIsolated _ backend result =>
    exact hkeep _ rfl (close_isolated s.heap (.isolated backend)) rfl
  | closeBackend backend rest raised raised' =>
    exact hkeep _ rfl (close_isolated s.heap backend) rfl
  | _ => exact hkeep _ rfl hsame rfl

/-- In a new runtime every manifest is prepared. -/
theorem prepared_init : State.init.Prepared := by
  constructor
  · intro c manifests id h
    cases h
  · intro c manifests id h
    cases h

/-- A step keeps the backends in the making. -/
theorem State.Prepared.preserved (h : s.Prepared) (hinv : s.Inv) {a : Act}
    (hstep : step naming s a = some t) : t.Prepared := by
  rcases trans_of_step hstep with ⟨request, -, rfl⟩ | ⟨call, -, htrans⟩
  · have hrequested : Requested naming s request _ := requested request
    obtain ⟨-, -, hcalls, -⟩ := hrequested.frame
    obtain ⟨-, hisolated, -⟩ := hrequested.isolated
    constructor
    · rw [hcalls, hisolated]
      exact h.manifests
    · rw [hcalls, hisolated]
      exact h.registry
  · exact h.trans hinv rfl htrans

/-- In every run the manifests are prepared. -/
theorem prepared_of_reachable (h : (runtimeMachine naming).Reachable s) : s.Prepared := by
  apply h.invariant_of_reach prepared_init
  intro s a t hs hprepared _ hstep
  exact hprepared.preserved (inv_of_reachable hs) hstep

/-! ### The tables of the backends -/

/-- The steps that leave no backend with another registry behind. -/
structure KeepsCatalog (naming : Naming) (s : State) (a : Act) : Prop where
  load : ∀ host found, a = .request (.loadPlugins host found) →
    (s.loadPlugins naming host found).2 = .ok () → s.core.isolated = none
  publish : ∀ c, a = .publish c → s.core.backendName ≠ some .bundled

/-- The registry, and the tables of the backends that may be selected, are those of one list of
manifests. A backend that has been closed executes nothing. -/
structure State.OneCatalog (s : State) : Prop where
  registry : s.core.registry.plugins = s.core.manifests.map PluginManifest.metadata
  isolated : ∀ id, s.core.isolated = some id → (s.heap.isolated id).registry = s.core.registry
  bundled : s.core.backendName = some .bundled →
    (∃ manifests, s.core.registry.plugins = manifests.map PluginManifest.metadata ∧
      (s.heap.bundled s.core.bundled).operations = bundledTable manifests s.core.registry) ∨
    (s.heap.bundled s.core.bundled).operations = fun _ => none

/-- The table of a backend after an `initialize`. -/
theorem initializeBundled_ok {heap heap' : Heap} {id : Nat} {host : Host}
    {manifests : List PluginManifest} {registry : OperationRegistry}
    (h : heap.initializeBundled id host manifests registry = (heap', .ok ())) :
    (heap'.bundled id).operations = bundledTable manifests registry := by
  unfold Heap.initializeBundled at h
  have hcases := initializeProviders_cases host manifests registry (heap.bundled id) heap.providers
  generalize (heap.bundled id).initializeProviders host manifests registry heap.providers = result
    at h hcases
  obtain ⟨backend, providers, result⟩ := result
  dsimp only at h
  rw [Prod.mk.injEq] at h
  obtain ⟨rfl, rfl⟩ := h
  cases hcases with
  | started => simp

/-- The step that publishes a backend. -/
theorem act_of_validated {a : Act} {manifests : List PluginManifest} {backend : Nat}
    (hcall : a.call = some call) (hpc : s.calls call = .validated manifests backend)
    (hstep : step naming s a = some t) : a = .publish call := by
  unfold step at hstep
  split at hstep
  next request => cases hcall
  next =>
    rw [hcall, Option.bind_some, hpc] at hstep
    cases a <;> simp_all [stepAt, Act.call]

/-- Without its configuration a manifest has the same metadata. -/
theorem map_metadata_unconfigured (manifests : List PluginManifest) :
    (unconfigured manifests).map PluginManifest.metadata =
      manifests.map PluginManifest.metadata := by
  rw [List.map_map]
  rfl

/-- With its configuration a manifest has the same metadata. -/
theorem map_metadata_configured (core : Core) :
    core.configuredManifests.map PluginManifest.metadata =
      core.manifests.map PluginManifest.metadata := by
  unfold Core.configuredManifests
  rw [List.map_map]
  rfl

/-- A request keeps the tables together. -/
theorem State.OneCatalog.request (h : s.OneCatalog) {request : Request}
    {r : State × Except Failure Unit} (hrequested : Requested naming s request r)
    (hload : ∀ host found, request = .loadPlugins host found → r.2 = .ok () →
      s.core.isolated = none) : r.1.OneCatalog := by
  cases hrequested with
  | raised => exact h
  | rolledBack _ _ _ _ _ _ _ _ hinit =>
    obtain ⟨initialized, providers, rfl⟩ := initializeBundled_error hinit
    refine ⟨h.registry, h.isolated, ?_⟩
    intro hname
    show (∃ manifests, _ ∧ (Function.update s.heap.bundled s.core.bundled _
      s.core.bundled).operations = _) ∨ (Function.update s.heap.bundled s.core.bundled _
        s.core.bundled).operations = _
    rw [Function.update_self]
    exact h.bundled hname
  | loaded host manifests registry hregistry _ _ hname =>
    have hplugins := plugins_of_ofManifests hregistry
    refine ⟨hplugins, ?_, ?_⟩
    · intro id hid
      have hnone : s.core.isolated = none := hload host (some manifests) rfl rfl
      have hsome : s.core.isolated = some id := hid
      rw [hnone] at hsome
      cases hsome
    · intro hbundled
      exact absurd hbundled hname
  | reloaded host manifests registry heap hregistry _ _ hname hinit =>
    have hplugins := plugins_of_ofManifests hregistry
    refine ⟨hplugins, ?_, ?_⟩
    · intro id hid
      have hnone : s.core.isolated = none := hload host (some manifests) rfl rfl
      have hsome : s.core.isolated = some id := hid
      rw [hnone] at hsome
      cases hsome
    · intro _
      refine Or.inl ⟨unconfigured manifests, ?_, initializeBundled_ok hinit⟩
      rw [map_metadata_unconfigured]
      exact hplugins
  | bundled _ implementation _ hname =>
    exact ⟨h.registry, h.isolated, fun hbundled => absurd hbundled hname⟩
  | selectBundled host heap _ hinit =>
    obtain ⟨hisolated, -⟩ := initializeBundled_frame hinit
    constructor
    · rw [select_core]
      exact h.registry
    · rw [select_core, select_heap]
      show ∀ id, s.core.isolated = some id → (heap.isolated id).registry = s.core.registry
      rw [hisolated]
      exact h.isolated
    · rw [select_core, select_heap]
      intro _
      refine Or.inl ⟨s.core.configuredManifests, ?_, initializeBundled_ok hinit⟩
      rw [map_metadata_configured]
      exact h.registry
  | selectIsolated host =>
    constructor
    · rw [select_core]
      exact h.registry
    · rw [select_core, select_heap]
      exact h.isolated
    · rw [select_core]
      intro hbundled
      cases hbundled
  | _ => exact ⟨h.registry, h.isolated, h.bundled⟩

/-- A step of a call keeps the tables together. -/
theorem State.OneCatalog.trans (h : s.OneCatalog) (hinv : s.Inv) (hprepared : s.Prepared)
    {pc : Pc} (hpc : s.calls call = pc)
    (hpublish : ∀ manifests backend, pc = .validated manifests backend →
      s.core.backendName ≠ some .bundled)
    (htrans : Trans naming s call pc t) : t.OneCatalog := by
  cases htrans with
  | accept backend operation core _ _ hmarked =>
    cases hmarked with
    | operation name =>
      have hcore : ∃ plugins, s.core.markInitialized name =
          { s.core with initializedPlugins := plugins } := by
        unfold Core.markInitialized
        split
        · exact ⟨_, rfl⟩
        · exact ⟨s.core.initializedPlugins, rfl⟩
      obtain ⟨plugins, hcore⟩ := hcore
      rw [hcore]
      exact ⟨h.registry, h.isolated, h.bundled⟩
    | tensor => exact ⟨h.registry, h.isolated, h.bundled⟩
  | construct prepared configured loaded =>
    refine ⟨h.registry, ?_, h.bundled⟩
    intro id hid
    have hne : id ≠ s.heap.isolatedCount := Nat.ne_of_lt (hinv.owned.current_lt id hid)
    show (Function.update s.heap.isolated s.heap.isolatedCount _ id).registry = _
    rw [Function.update_of_ne hne]
    exact h.isolated id hid
  | started manifests backend registry =>
    refine ⟨h.registry, ?_, h.bundled⟩
    intro id hid
    have hne : id ≠ backend := by
      rintro rfl
      exact hinv.owned.held_ne call id (by rw [hpc]; rfl) hid
    show (Function.update s.heap.isolated backend _ id).registry = _
    rw [Function.update_of_ne hne]
    exact h.isolated id hid
  | closeIsolated _ backend result =>
    refine ⟨h.registry, ?_, h.bundled⟩
    intro id hid
    show ((s.heap.close (.isolated backend)).isolated id).registry = _
    rw [(close_isolated _ _ id).2]
    exact h.isolated id hid
  | publish manifests backend =>
    have hregistry := hprepared.registry call manifests backend (by rw [hpc]; rfl)
    refine ⟨plugins_of_ofManifests hregistry, ?_, ?_⟩
    · intro id hid
      rw [← Option.some.inj hid]
      rfl
    · intro hbundled
      have hname := hpublish manifests backend rfl
      have hselected : (if s.core.backendName = some .isolated then none else s.core.backendName) =
          some .bundled := hbundled
      split at hselected
      · cases hselected
      · exact absurd hselected hname
  | closeBackend backend rest =>
    cases backend with
    | isolated b =>
      refine ⟨h.registry, ?_, h.bundled⟩
      intro id hid
      show ((s.heap.close (.isolated b)).isolated id).registry = _
      rw [(close_isolated _ _ id).2]
      exact h.isolated id hid
    | bundled b =>
      refine ⟨h.registry, h.isolated, ?_⟩
      intro hname
      show (∃ manifests, _ ∧ (Function.update s.heap.bundled b _ s.core.bundled).operations = _) ∨
        (Function.update s.heap.bundled b _ s.core.bundled).operations = _
      by_cases hb : s.core.bundled = b
      · rw [hb, Function.update_self]
        exact Or.inr rfl
      · rw [Function.update_of_ne hb]
        exact h.bundled hname
  | reset raised =>
    refine ⟨rfl, ?_, ?_⟩
    · intro id hid
      cases hid
    · intro hname
      cases hname
  | _ => exact ⟨h.registry, h.isolated, h.bundled⟩

/-- What the runs keep that leave no backend behind. -/
theorem oneCatalog_of_reach (h : (runtimeMachine naming).Reach (KeepsCatalog naming) s) :
    s.OneCatalog := by
  apply h.invariant_of_reach
  · refine ⟨rfl, ?_, ?_⟩
    · intro id hid
      cases hid
    · intro hname
      cases hname
  · intro s a t hs hcatalog hkeeps hstep
    rcases trans_of_step hstep with ⟨request, rfl, rfl⟩ | ⟨call, hcall, htrans⟩
    · have hrequested : Requested naming s request _ := requested request
      apply hcatalog.request hrequested
      rintro host found rfl hok
      exact hkeeps.load host found rfl hok
    · apply hcatalog.trans (inv_of_reachable hs.reachable) (prepared_of_reachable hs.reachable)
        rfl _ htrans
      intro manifests backend hvalidated
      exact hkeeps.publish call (act_of_validated hcall hvalidated hstep)

/-- **What is published is what is executed.** In the runs that leave no backend behind, the
selected backend executes every operation under the metadata that the registry has. -/
theorem published_agrees (h : (runtimeMachine naming).Reach (KeepsCatalog naming) s)
    {backend : BackendRef} (hselected : s.core.selected = some backend) :
    Agrees s.core.registry (s.heap.operations backend) := by
  have hcatalog := oneCatalog_of_reach h
  unfold Core.selected at hselected
  rw [Option.bind_eq_some_iff] at hselected
  obtain ⟨name, hname, hbackend⟩ := hselected
  cases name with
  | bundled =>
    cases hbackend
    show Agrees s.core.registry (s.heap.bundled s.core.bundled).operations
    rcases hcatalog.bundled hname with ⟨manifests, hplugins, htable⟩ | htable
    · rw [htable]
      exact agrees_bundledTable hplugins
    · rw [htable]
      intro name published executed _ hexecuted
      cases hexecuted
  | isolated =>
    cases hcurrent : s.core.isolated with
    | none => simp [Core.backend, hcurrent] at hbackend
    | some id =>
      have hid : backend = .isolated id := by simpa [Core.backend, hcurrent] using hbackend.symm
      rw [hid]
      show Agrees s.core.registry (isolatedTable (s.heap.isolated id).registry)
      rw [hcatalog.isolated id hcurrent]
      exact agrees_isolatedTable _

/-- The runs that load a plugin and select the bundled backend leave no backend behind. -/
theorem published_agrees_plain :
    Agrees selectedState.core.registry (selectedState.heap.operations (.bundled 0)) := by
  have hreach : (runtimeMachine plainNaming).Reach (KeepsCatalog plainNaming) selectedState := by
    refine .next (.next .start ⟨?_, ?_⟩ step_loadedState) ⟨?_, ?_⟩ step_selectedState
    · exact fun _ _ _ _ => rfl
    · intro c h
      cases h
    · intro host found h
      cases h
    · intro c h
      cases h
  exact published_agrees hreach rfl

end Wmfs.Runtime
