import Wmfs.Runtime.Atomic
import Wmfs.Runtime.Catalog
import Wmfs.Runtime.Providers

/-!
# `Wmfs.Runtime.Frozen`: a configuration that is in use does not change

A plugin is live when a backend of the runtime has initialized it: it has a provider in the
bundled backend, or a session in the isolated one. `configure_plugin` goes by
`_initialized_plugins`, which five calls update, and the bytes that a backend has used are not
those that the runtime stores.

`Undisturbed` are the steps that keep them together. They exclude a `load_plugins` that succeeds
and a `discover_plugins` that publishes while a plugin is live elsewhere, because both replace the
stored configurations, and shutdowns that raise while an `initialize` is undone, because the rest
of the providers then stays. In the runs of such steps a live plugin is marked, and its stored
configuration is the one in use (`configuration_frozen`).
-/

set_option autoImplicit false

namespace Wmfs.Runtime

open Wmfs.Lib

variable {naming : Naming} {s t : State} {call : CallId}

/-- The stored configuration of a plugin. -/
def Core.stored (core : Core) (plugin : String) : String :=
  (core.pluginConfigurations plugin).getD EMPTY_CONFIGURATION_BYTES

/-- A backend of the runtime has initialized the plugin with this configuration. -/
inductive State.Live (s : State) (plugin : String) : String → Prop where
  | bundled (provider : InitializedProvider)
      (hfound : (s.held s.core.bundled).lookup plugin = some provider) :
    Live s plugin provider.configuration
  | isolated (id : Nat) (manifest : PluginManifest) (hcurrent : s.core.isolated = some id)
      (hmanifest : manifest ∈ (s.heap.isolated id).manifests) (hname : manifest.name = plugin) :
    Live s plugin manifest.configurationBytes

/-- A live plugin is marked, and its stored configuration is in use. -/
structure State.Frozen (s : State) : Prop where
  marked : ∀ plugin configuration, s.Live plugin configuration →
    plugin ∈ s.core.initializedPlugins
  stored : ∀ plugin configuration, s.Live plugin configuration →
    s.core.stored plugin = configuration

/-- The steps that keep the stored configurations and the backends together. -/
structure Undisturbed (naming : Naming) (s : State) (a : Act) : Prop where
  load : ∀ host found, a = .request (.loadPlugins host found) →
    (s.loadPlugins naming host found).2 = .ok () →
      s.core.isolated = none ∧ s.held s.core.bundled = ∅ ∧ s.core.backendName ≠ some .bundled
  shutdowns : ∀ request, a = .request request → request.ShutsDown
  publish : ∀ c, a = .publish c → s.held s.core.bundled = ∅

/-! ### What an `initialize` adds -/

/-- The providers after an `initialize`: those before, and the manifests with their
configurations. -/
theorem initializeBundled_extends {heap heap' : Heap} {id : Nat} {host : Host}
    {manifests : List PluginManifest} {registry : OperationRegistry}
    (h : heap.initializeBundled id host manifests registry = (heap', .ok ())) :
    Extends manifests (heap.bundled id).initialized (heap'.bundled id).initialized := by
  unfold Heap.initializeBundled at h
  have hcases := initializeProviders_cases host manifests registry (heap.bundled id) heap.providers
  generalize (heap.bundled id).initializeProviders host manifests registry heap.providers = result
    at h hcases
  obtain ⟨backend, providers, result⟩ := result
  dsimp only at h
  rw [Prod.mk.injEq] at h
  obtain ⟨rfl, rfl⟩ := h
  cases hcases with
  | started entries st hmanifests hloop =>
    show Extends manifests (heap.bundled id).initialized
      (Function.update heap.bundled id _ id).initialized
    rw [Function.update_self, ← hmanifests]
    exact startAll_extends hloop

/-- The configuration that `forEach` stores for a manifest of a list with distinct names. -/
theorem forEach_of_mem {manifests : List PluginManifest}
    (hnodup : (manifests.map PluginManifest.name).Nodup) {manifest : PluginManifest}
    (hmem : manifest ∈ manifests) :
    Core.forEach manifests (fun manifest => manifest.configurationBytes) manifest.name =
      some manifest.configurationBytes := by
  have hfind : manifests.find? (fun other => other.name == manifest.name) = some manifest := by
    induction manifests with
    | nil => cases hmem
    | cons first rest ih =>
      rw [List.map_cons, List.nodup_cons] at hnodup
      rcases List.mem_cons.mp hmem with rfl | hrest
      · simp
      · have hne : first.name ≠ manifest.name := by
          intro heq
          exact hnodup.1 (heq ▸ List.mem_map_of_mem hrest)
        rw [List.find?_cons_of_neg (by simpa using hne)]
        exact ih hnodup.2 hrest
  unfold Core.forEach
  rw [hfind]
  rfl

/-- Manifests that a registry has registered have distinct names. -/
theorem nodup_of_ofManifests {manifests : List PluginManifest} {registry : OperationRegistry}
    (h : OperationRegistry.ofManifests manifests = .ok registry) :
    (manifests.map PluginManifest.name).Nodup := by
  have hdistinct := registry.distinct
  rw [plugins_of_ofManifests h, List.map_map] at hdistinct
  exact hdistinct

/-! ### The steps -/

/-- A step after which nothing else is live, nothing is unmarked, and no stored configuration has
changed. -/
theorem State.Frozen.congr (h : s.Frozen)
    (hlive : ∀ plugin configuration, t.Live plugin configuration → s.Live plugin configuration)
    (hmarked : s.core.initializedPlugins ⊆ t.core.initializedPlugins)
    (hstored : ∀ plugin configuration, s.Live plugin configuration →
      t.core.stored plugin = s.core.stored plugin) : t.Frozen where
  marked plugin configuration hl := hmarked (h.marked plugin configuration (hlive _ _ hl))
  stored plugin configuration hl :=
    (hstored plugin configuration (hlive _ _ hl)).trans (h.stored plugin configuration (hlive _ _ hl))

/-- What is live depends on the backends. -/
theorem live_of_backends (hcurrent : t.core.bundled = s.core.bundled)
    (hisolated : t.core.isolated = s.core.isolated)
    (hheld : ∀ plugin provider, (t.held s.core.bundled).lookup plugin = some provider →
      (s.held s.core.bundled).lookup plugin = some provider)
    (hmanifests : ∀ id, s.core.isolated = some id →
      (t.heap.isolated id).manifests = (s.heap.isolated id).manifests)
    (plugin configuration : String) (h : t.Live plugin configuration) :
    s.Live plugin configuration := by
  cases h with
  | bundled provider hfound =>
    rw [hcurrent] at hfound
    exact .bundled provider (hheld plugin provider hfound)
  | isolated id manifest hid hmem hname =>
    rw [hisolated] at hid
    rw [hmanifests id hid] at hmem
    exact .isolated id manifest hid hmem hname

/-- A request keeps what is in use. -/
theorem State.Frozen.request (h : s.Frozen) {request : Request}
    {r : State × Except Failure Unit} (hrequested : Requested naming s request r)
    (hload : ∀ host found, request = .loadPlugins host found → r.2 = .ok () →
      s.core.isolated = none ∧ s.held s.core.bundled = ∅ ∧ s.core.backendName ≠ some .bundled)
    (hshuts : request.ShutsDown) : r.1.Frozen := by
  -- A plugin that may be configured is not live.
  have hconfigure : ∀ {core : Core} (plugin encoded : String), plugin ∉ s.core.initializedPlugins →
      core.pluginConfigurations =
        Function.update s.core.pluginConfigurations plugin (some encoded) →
      ∀ other configuration, s.Live other configuration →
        core.stored other = s.core.stored other := by
    intro core plugin encoded hfree hcore other configuration hl
    have hne : other ≠ plugin := by
      rintro rfl
      exact hfree (h.marked _ configuration hl)
    unfold Core.stored
    rw [hcore, Function.update_of_ne hne]
  cases hrequested with
  | raised => exact h
  | rolledBack _ host _ _ _ _ hrequest _ hinit =>
    have hstops : ∀ name, host.stops name = true := by
      rcases hrequest with ⟨found, rfl⟩ | rfl <;> exact hshuts
    obtain ⟨providers, rfl⟩ := initializeBundled_undone hstops hinit
    exact h.congr (live_of_backends rfl rfl (fun _ _ hp => hp) fun _ _ => rfl)
      (fun _ hp => hp) fun _ _ _ => rfl
  | loaded host manifests registry =>
    obtain ⟨hisolated, hheld, -⟩ := hload host (some manifests) rfl rfl
    have hnothing : ∀ plugin configuration,
        ¬(s.publishLoaded manifests registry).Live plugin configuration := by
      intro plugin configuration hl
      cases hl with
      | bundled provider hfound =>
        have hempty : (s.held s.core.bundled).lookup plugin = some provider := hfound
        rw [hheld] at hempty
        cases hempty
      | isolated id manifest hcurrent =>
        have hsome : s.core.isolated = some id := hcurrent
        rw [hisolated] at hsome
        cases hsome
    exact ⟨fun plugin configuration hl => absurd hl (hnothing plugin configuration),
      fun plugin configuration hl => absurd hl (hnothing plugin configuration)⟩
  | reloaded host manifests _ _ _ _ _ hname =>
    exact absurd hname (hload host (some manifests) rfl rfl).2.2
  | misconfigured plugin encoded _ _ hfree | configured plugin encoded _ _ hfree =>
    exact h.congr (live_of_backends rfl rfl (fun _ _ hp => hp) fun _ _ => rfl)
      (fun _ hp => hp) (hconfigure plugin encoded hfree rfl)
  | configuredLogging plugin encoded options _ _ hfree =>
    exact h.congr (live_of_backends rfl rfl (fun _ _ hp => hp) fun _ _ => rfl)
      (fun _ hp => hp) (hconfigure plugin encoded hfree rfl)
  | memory | deadlines =>
    exact h.congr (live_of_backends rfl rfl (fun _ _ hp => hp) fun _ _ => rfl)
      (fun _ hp => hp) fun _ _ _ => rfl
  | bundled _ implementation =>
    refine h.congr ?_ (fun _ hp => hp) fun _ _ _ => rfl
    intro plugin configuration hl
    cases hl with
    | bundled provider hfound =>
      -- The new backend holds no provider.
      have hempty : (Function.update s.heap.bundled s.heap.bundledCount (.new implementation)
          s.heap.bundledCount).initialized.lookup plugin = some provider := hfound
      rw [Function.update_self] at hempty
      cases hempty
    | isolated id manifest hcurrent hmem hname =>
      exact .isolated id manifest hcurrent hmem hname
  | selectBundled host heap _ hinit =>
    obtain ⟨hisolated, -⟩ := initializeBundled_frame hinit
    have hextends := initializeBundled_extends hinit
    have hlive : ∀ plugin configuration,
        (({ s with heap := heap, core := s.core.initialized } : State).select .bundled
          s.operationNames).Live plugin configuration →
        s.Live plugin configuration ∨ ∃ manifest ∈ s.core.manifests,
          manifest.name = plugin ∧ configuration = s.core.stored plugin := by
      intro plugin configuration hl
      cases hl with
      | bundled provider hfound =>
        have hnew : (heap.bundled s.core.bundled).initialized.lookup plugin = some provider := by
          simpa [State.held] using hfound
        rcases hextends.added plugin provider hnew with hold | ⟨manifest, hmem, rfl, hbytes⟩
        · exact Or.inl (.bundled provider hold)
        · obtain ⟨original, horiginal, rfl⟩ := List.mem_map.mp hmem
          exact Or.inr ⟨original, horiginal, rfl, hbytes⟩
      | isolated id manifest hcurrent hmem hname =>
        simp only [select_core] at hcurrent
        simp only [select_heap, hisolated] at hmem
        exact Or.inl (.isolated id manifest hcurrent hmem hname)
    constructor
    · intro plugin configuration hl
      rw [select_core]
      show plugin ∈ s.core.initializedPlugins ∪ (s.core.manifests.map PluginManifest.name).toFinset
      rw [Finset.mem_union]
      rcases hlive plugin configuration hl with hold | ⟨manifest, hmem, rfl, -⟩
      · exact Or.inl (h.marked plugin configuration hold)
      · exact Or.inr (List.mem_toFinset.mpr (List.mem_map_of_mem hmem))
    · intro plugin configuration hl
      rw [select_core]
      show s.core.stored plugin = configuration
      rcases hlive plugin configuration hl with hold | ⟨manifest, -, -, hstored⟩
      · exact h.stored plugin configuration hold
      · exact hstored.symm
  | selectIsolated host =>
    refine h.congr (live_of_backends (by simp) (by simp) ?_ ?_) (by simp) ?_
    · intro plugin provider hp
      simpa [State.held] using hp
    · intro id _
      simp
    · intro plugin configuration _
      rw [select_core]
      rfl

/-- A step of a call keeps what is in use. -/
theorem State.Frozen.trans (h : s.Frozen) (hinv : s.Inv) (hprepared : s.Prepared)
    {pc : Pc} (hpc : s.calls call = pc)
    (hpublish : ∀ manifests backend, pc = .validated manifests backend →
      s.held s.core.bundled = ∅)
    (htrans : Trans naming s call pc t) : t.Frozen := by
  cases htrans with
  | accept backend operation core _ _ hmarked =>
    cases hmarked with
    | operation name =>
      unfold Core.markInitialized
      split
      · refine h.congr (live_of_backends rfl rfl (fun _ _ hp => hp) fun _ _ => rfl) ?_
          fun _ _ _ => rfl
        exact Finset.subset_insert _ _
      · exact h.congr (live_of_backends rfl rfl (fun _ _ hp => hp) fun _ _ => rfl)
          (fun _ hp => hp) fun _ _ _ => rfl
    | tensor =>
      exact h.congr (live_of_backends rfl rfl (fun _ _ hp => hp) fun _ _ => rfl)
        (fun _ hp => hp) fun _ _ _ => rfl
  | construct prepared configured loaded =>
    refine h.congr (live_of_backends rfl rfl (fun _ _ hp => hp) ?_) (fun _ hp => hp)
      fun _ _ _ => rfl
    intro id hid
    have hne : id ≠ s.heap.isolatedCount := Nat.ne_of_lt (hinv.owned.current_lt id hid)
    show (Function.update s.heap.isolated s.heap.isolatedCount _ id).manifests = _
    rw [Function.update_of_ne hne]
  | started manifests backend registry =>
    refine h.congr (live_of_backends rfl rfl (fun _ _ hp => hp) ?_) (fun _ hp => hp)
      fun _ _ _ => rfl
    intro id hid
    have hne : id ≠ backend := by
      rintro rfl
      exact hinv.owned.held_ne call id (by rw [hpc]; rfl) hid
    show (Function.update s.heap.isolated backend _ id).manifests = _
    rw [Function.update_of_ne hne]
  | closeIsolated _ backend result =>
    exact h.congr (live_of_backends rfl rfl (fun _ _ hp => hp)
      fun id _ => (close_isolated s.heap (.isolated backend) id).1) (fun _ hp => hp) fun _ _ _ => rfl
  | publish manifests backend =>
    have hregistry := hprepared.registry call manifests backend (by rw [hpc]; rfl)
    have hmanifests := hprepared.manifests call manifests backend (by rw [hpc]; rfl)
    have hheld := hpublish manifests backend rfl
    -- Only the plugins of the published backend are live.
    have hlive : ∀ plugin configuration, (s.publish call manifests backend).Live plugin
        configuration → ∃ manifest ∈ manifests, manifest.name = plugin ∧
          configuration = manifest.configurationBytes := by
      intro plugin configuration hl
      cases hl with
      | bundled provider hfound =>
        have hempty : (s.held s.core.bundled).lookup plugin = some provider := hfound
        rw [hheld] at hempty
        cases hempty
      | isolated id manifest hcurrent hmem hname =>
        have hid : backend = id := Option.some.inj hcurrent
        have hmem' : manifest ∈ (s.heap.isolated id).manifests := hmem
        rw [← hid, hmanifests] at hmem'
        exact ⟨manifest, hmem', hname, rfl⟩
    constructor
    · intro plugin configuration hl
      obtain ⟨manifest, hmem, rfl, -⟩ := hlive plugin configuration hl
      exact List.mem_toFinset.mpr (List.mem_map_of_mem hmem)
    · intro plugin configuration hl
      obtain ⟨manifest, hmem, rfl, rfl⟩ := hlive plugin configuration hl
      show (Core.forEach manifests (fun manifest => manifest.configurationBytes)
        manifest.name).getD _ = _
      rw [forEach_of_mem (nodup_of_ofManifests hregistry) hmem]
      rfl
  | closeBackend backend rest =>
    refine h.congr (live_of_backends rfl rfl ?_
      fun id _ => (close_isolated s.heap backend id).1) (fun _ hp => hp) fun _ _ _ => rfl
    intro plugin provider hp
    cases backend with
    | isolated b => exact hp
    | bundled b =>
      have hp' : (Function.update s.heap.bundled b _ s.core.bundled).initialized.lookup plugin =
          some provider := hp
      by_cases hb : s.core.bundled = b
      · rw [hb, Function.update_self] at hp'
        cases hp'
      · rw [Function.update_of_ne hb] at hp'
        exact hp'
  | reset raised =>
    have hnothing : ∀ plugin configuration, ¬(s.reset call raised).Live plugin configuration := by
      intro plugin configuration hl
      cases hl with
      | bundled provider hfound =>
        have hempty : (Function.update s.heap.bundled s.heap.bundledCount (.new .auto)
            s.heap.bundledCount).initialized.lookup plugin = some provider := hfound
        rw [Function.update_self] at hempty
        cases hempty
      | isolated id manifest hcurrent => cases hcurrent
    exact ⟨fun plugin configuration hl => absurd hl (hnothing plugin configuration),
      fun plugin configuration hl => absurd hl (hnothing plugin configuration)⟩
  | _ =>
    exact h.congr (live_of_backends rfl rfl (fun _ _ hp => hp) fun _ _ => rfl)
      (fun _ hp => hp) fun _ _ _ => rfl

/-- What the undisturbed runs keep. -/
theorem frozen_of_reach (h : (runtimeMachine naming).Reach (Undisturbed naming) s) : s.Frozen := by
  apply h.invariant_of_reach
  · have hnothing : ∀ plugin configuration, ¬State.init.Live plugin configuration := by
      intro plugin configuration hl
      cases hl with
      | bundled provider hfound => cases hfound
      | isolated id manifest hcurrent => cases hcurrent
    exact ⟨fun plugin configuration hl => absurd hl (hnothing plugin configuration),
      fun plugin configuration hl => absurd hl (hnothing plugin configuration)⟩
  · intro s a t hs hfrozen hok hstep
    have hinv := inv_of_reachable hs.reachable
    rcases trans_of_step hstep with ⟨request, rfl, rfl⟩ | ⟨call, hcall, htrans⟩
    · have hrequested : Requested naming s request _ := requested request
      apply hfrozen.request hrequested
      · rintro host found rfl hresult
        exact hok.load host found rfl hresult
      · exact hok.shutdowns request rfl
    · apply hfrozen.trans hinv (prepared_of_reachable hs.reachable) rfl _ htrans
      intro manifests backend hvalidated
      exact hok.publish call (act_of_validated hcall hvalidated hstep)

/-- **A configuration that is in use does not change.** In undisturbed runs the stored
configuration of a live plugin is the one with which its backend has initialized it, and
`configure_plugin` refuses it and leaves everything as it was. -/
theorem configuration_frozen (h : (runtimeMachine naming).Reach (Undisturbed naming) s)
    {plugin configuration : String} (hlive : s.Live plugin configuration) :
    s.core.stored plugin = configuration ∧
      ∀ encoded logging, ∃ e, s.configurePlugin plugin encoded logging = (s, .error e) := by
  have hfrozen := frozen_of_reach h
  refine ⟨hfrozen.stored plugin configuration hlive, ?_⟩
  intro encoded logging
  have hmarked := hfrozen.marked plugin configuration hlive
  unfold State.configurePlugin
  split
  · exact ⟨_, rfl⟩
  · split
    · exact ⟨_, rfl⟩
    · exact ⟨.alreadyInitialized plugin, rfl⟩

/-- The plugin is loaded and configured. -/
def configuredState : State :=
  (loadedState.request plainNaming (.configurePlugin "plain" (some "\x7b\"k\":2\x7d") none)).1

/-- And the bundled backend is selected. -/
def servingState : State :=
  (configuredState.request plainNaming (.useBackend plainHost "bundled")).1

/-- The configured plugin is live behind `use_backend`. -/
theorem configuration_frozen_plain :
    servingState.core.stored "plain" = "\x7b\"k\":2\x7d" ∧
      ∀ encoded logging, ∃ e,
        servingState.configurePlugin "plain" encoded logging = (servingState, .error e) := by
  have hloaded : (runtimeMachine plainNaming).Reach (Undisturbed plainNaming) loadedState := by
    refine .next .start ⟨?_, ?_, ?_⟩ step_loadedState
    · exact fun _ _ _ _ => ⟨rfl, rfl, by decide⟩
    · rintro request ⟨⟩
      exact fun _ => rfl
    · rintro c ⟨⟩
  have hconfigured : (runtimeMachine plainNaming).Reach (Undisturbed plainNaming)
      configuredState := by
    refine .next (a := .request (.configurePlugin "plain" (some "\x7b\"k\":2\x7d") none)) hloaded
      ⟨?_, ?_, ?_⟩ rfl
    · rintro host found ⟨⟩
    · rintro request ⟨⟩
      trivial
    · rintro c ⟨⟩
  have hserving : (runtimeMachine plainNaming).Reach (Undisturbed plainNaming) servingState := by
    refine .next (a := .request (.useBackend plainHost "bundled")) hconfigured ⟨?_, ?_, ?_⟩ rfl
    · rintro host found ⟨⟩
    · rintro request ⟨⟩
      exact fun _ => rfl
    · rintro c ⟨⟩
  have hlive : servingState.Live "plain" "\x7b\"k\":2\x7d" :=
    .bundled ⟨0, "\x7b\"k\":2\x7d", true, .python, true⟩ rfl
  exact configuration_frozen hserving hlive

end Wmfs.Runtime
