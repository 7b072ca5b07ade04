import Wmfs.Runtime.Steps

/-!
# `Wmfs.Runtime.Requests`: what one configuration call does

`Requested` lists the ways in which a call with one critical section ends, and `requested` says
that there are no others. The later proofs take `State.request` apart with it.
-/

set_option autoImplicit false

namespace Wmfs.Runtime

/-- The manifests with which `load_plugins` initializes the bundled backend. -/
abbrev unconfigured (manifests : List PluginManifest) : List PluginManifest :=
  manifests.map fun manifest => { manifest with configurationBytes := EMPTY_CONFIGURATION_BYTES }

/-- The core behind a `configure_plugin` that stores the configuration. -/
abbrev Core.configure (core : Core) (plugin encoded : String) : Core :=
  { core with
    pluginConfigurations := Function.update core.pluginConfigurations plugin (some encoded) }

/-- The core behind a `configure_plugin` that stores the logging options. -/
abbrev Core.configureLogging (core : Core) (plugin : String) (options : LoggingOptions) : Core :=
  { core with pluginLogging := Function.update core.pluginLogging plugin (some options) }

/-- The core behind the `initialize` of `use_backend`. -/
abbrev Core.initialized (core : Core) : Core :=
  { core with initializedPlugins :=
      core.initializedPlugins ∪ (core.manifests.map PluginManifest.name).toFinset }

variable (naming : Naming)

/-- How a request ends.

* `raised`: nothing has changed.
* `rolledBack`: the providers could not be initialized.
* `misconfigured`: the configuration is stored, and `logging` has another type. -/
inductive Requested (s : State) : Request → State × Except Failure Unit → Prop where
  | raised (request : Request) (e : Failure) : Requested s request (s, .error e)
  | rolledBack (request : Request) (host : Host) (manifests : List PluginManifest)
      (registry : OperationRegistry) (heap : Heap) (e : Failure)
      (hrequest : (∃ found, request = .loadPlugins host found) ∨
        request = .useBackend host "bundled")
      (hphase : s.phase = .opened)
      (hinit : s.heap.initializeBundled s.core.bundled host manifests registry =
        (heap, .error e)) :
    Requested s request ({ s with heap := heap }, .error e)
  | loaded (host : Host) (manifests : List PluginManifest) (registry : OperationRegistry)
      (hregistry : OperationRegistry.ofManifests manifests = .ok registry)
      (hvalid : validatePublicOperations naming registry = true) (hphase : s.phase = .opened)
      (hname : s.core.backendName ≠ some .bundled) :
    Requested s (.loadPlugins host (some manifests)) (s.publishLoaded manifests registry, .ok ())
  | reloaded (host : Host) (manifests : List PluginManifest) (registry : OperationRegistry)
      (heap : Heap) (hregistry : OperationRegistry.ofManifests manifests = .ok registry)
      (hvalid : validatePublicOperations naming registry = true) (hphase : s.phase = .opened)
      (hname : s.core.backendName = some .bundled)
      (hinit : s.heap.initializeBundled s.core.bundled host (unconfigured manifests) registry =
        (heap, .ok ())) :
    Requested s (.loadPlugins host (some manifests))
      (({ s with heap := heap } : State).publishLoaded manifests registry, .ok ())
  | misconfigured (plugin encoded : String) (hphase : s.phase = .opened)
      (hloaded : (s.core.manifest plugin).isSome) (hfree : plugin ∉ s.core.initializedPlugins) :
    Requested s (.configurePlugin plugin (some encoded) (some none))
      ({ s with core := s.core.configure plugin encoded }, .error .loggingType)
  | configured (plugin encoded : String) (hphase : s.phase = .opened)
      (hloaded : (s.core.manifest plugin).isSome) (hfree : plugin ∉ s.core.initializedPlugins) :
    Requested s (.configurePlugin plugin (some encoded) none)
      ({ s with core := s.core.configure plugin encoded }, .ok ())
  | configuredLogging (plugin encoded : String) (options : LoggingOptions)
      (hphase : s.phase = .opened) (hloaded : (s.core.manifest plugin).isSome)
      (hfree : plugin ∉ s.core.initializedPlugins) :
    Requested s (.configurePlugin plugin (some encoded) (some (some options)))
      ({ s with core := (s.core.configure plugin encoded).configureLogging plugin options },
        .ok ())
  | memory (mode : String) (mode' : MemoryMode) (arenaBytes : Option Int)
      (hphase : s.phase = .opened) (hfree : s.core.isolated = none) :
    Requested s (.configureMemory mode arenaBytes)
      ({ s with core := { s.core with memoryMode := mode', arenaBytes := arenaBytes } }, .ok ())
  | bundled (implementation : String) (implementation' : Implementation)
      (hphase : s.phase = .opened) (hname : s.core.backendName ≠ some .bundled)
      (hfree : s.core.initializedPlugins = ∅) :
    Requested s (.configureBundled implementation)
      ({ s with
          core := { s.core with
            bundledImplementation := implementation'
            bundled := s.heap.bundledCount }
          heap := s.heap.newBundled implementation' }, .ok ())
  | deadlines (startup request fdTransfer shutdown killGrace : Option Rat)
      (deadlines : TransportDeadlines) (hphase : s.phase = .opened)
      (hfree : s.core.isolated = none) :
    Requested s (.configureDeadlines startup request fdTransfer shutdown killGrace)
      ({ s with core := { s.core with deadlines := deadlines } }, .ok ())
  | selectBundled (host : Host) (heap : Heap) (hphase : s.phase = .opened)
      (hinit : s.heap.initializeBundled s.core.bundled host s.core.configuredManifests
        s.core.registry = (heap, .ok ())) :
    Requested s (.useBackend host "bundled")
      (({ s with heap := heap, core := s.core.initialized } : State).select .bundled
        s.operationNames, .ok ())
  | selectIsolated (host : Host) (hphase : s.phase = .opened)
      (hfound : s.core.isolated.isSome) :
    Requested s (.useBackend host "isolated") (s.select .isolated s.operationNames, .ok ())

variable {naming} {s : State}

/-- What `load_plugins` does. -/
theorem requested_loadPlugins (host : Host) (found : Option (List PluginManifest)) :
    Requested naming s (.loadPlugins host found) (s.loadPlugins naming host found) := by
  unfold State.loadPlugins
  cases found with
  | none => exact .raised _ _
  | some manifests =>
    dsimp only
    split
    next => exact .raised _ _
    next registry hregistry =>
      split
      next => exact .raised _ _
      next hvalid =>
        rw [Bool.not_eq_false] at hvalid
        split
        next => exact .raised _ _
        next hphase =>
          have hopened : s.phase = .opened := not_not.mp hphase
          split
          next hname =>
            cases hinit : s.heap.initializeBundled s.core.bundled host (unconfigured manifests)
              registry with
            | mk heap result =>
              cases result with
              | error e =>
                exact .rolledBack _ host _ registry heap e (Or.inl ⟨_, rfl⟩) hopened hinit
              | ok u =>
                exact .reloaded host manifests registry heap hregistry hvalid hopened hname hinit
          next hname => exact .loaded host manifests registry hregistry hvalid hopened hname

/-- What `configure_plugin` does. -/
theorem requested_configurePlugin (plugin : String) (encoded : Option String)
    (logging : Option (Option LoggingOptions)) :
    Requested naming s (.configurePlugin plugin encoded logging)
      (s.configurePlugin plugin encoded logging) := by
  unfold State.configurePlugin
  split
  next => exact .raised _ _
  next hphase =>
    have hopened : s.phase = .opened := not_not.mp hphase
    split
    next => exact .raised _ _
    next manifest hmanifest =>
      have hloaded : (s.core.manifest plugin).isSome = true := by
        rw [hmanifest]
        rfl
      split
      next => exact .raised _ _
      next hfree =>
        cases encoded with
        | none => exact .raised _ _
        | some encoded =>
          match logging with
          | none => exact .configured plugin encoded hopened hloaded hfree
          | some none => exact .misconfigured plugin encoded hopened hloaded hfree
          | some (some options) =>
            exact .configuredLogging plugin encoded options hopened hloaded hfree

/-- What `configure_bundled` does. -/
theorem requested_configureBundled (implementation : String) :
    Requested naming s (.configureBundled implementation)
      (s.configureBundled implementation) := by
  unfold State.configureBundled
  split
  next => exact .raised _ _
  next hphase =>
    split
    next => exact .raised _ _
    next hfree =>
      rw [not_or, not_not] at hfree
      split
      next => exact .raised _ _
      next implementation' _ =>
        exact .bundled implementation implementation' (not_not.mp hphase) hfree.1 hfree.2

/-- What `use_backend` does. -/
theorem requested_useBackend (host : Host) (name : String) :
    Requested naming s (.useBackend host name) (s.useBackend host name) := by
  unfold State.useBackend
  split
  next => exact .raised _ _
  next hphase =>
    have hopened : s.phase = .opened := not_not.mp hphase
    split
    next hname =>
      subst hname
      cases hinit : s.heap.initializeBundled s.core.bundled host s.core.configuredManifests
        s.core.registry with
      | mk heap result =>
        cases result with
        | error e => exact .rolledBack _ host _ _ heap e (Or.inr rfl) hopened hinit
        | ok u => exact .selectBundled host heap hopened hinit
    next =>
      split
      next hfound =>
        obtain ⟨rfl, hfound⟩ := hfound
        exact .selectIsolated host hopened hfound
      next => exact .raised _ _

/-- What a request does. -/
theorem requested (request : Request) : Requested naming s request (s.request naming request) := by
  cases request with
  | loadPlugins host found => exact requested_loadPlugins host found
  | configurePlugin plugin encoded logging =>
    exact requested_configurePlugin plugin encoded logging
  | configureMemory mode arenaBytes =>
    show Requested naming s _ (s.configureMemory mode arenaBytes)
    unfold State.configureMemory
    split
    next => exact .raised _ _
    next hphase =>
      split
      next => exact .raised _ _
      next hfree =>
        split
        next => exact .raised _ _
        next mode' _ =>
          exact .memory mode mode' arenaBytes (not_not.mp hphase) (by simpa using hfree)
  | configureBundled implementation => exact requested_configureBundled implementation
  | configureDeadlines startup request fdTransfer shutdown killGrace =>
    show Requested naming s _ (s.configureDeadlines startup request fdTransfer shutdown killGrace)
    unfold State.configureDeadlines
    split
    next => exact .raised _ _
    next hphase =>
      split
      next => exact .raised _ _
      next hfree =>
        split
        next => exact .raised _ _
        next deadlines _ =>
          exact .deadlines startup request fdTransfer shutdown killGrace deadlines
            (not_not.mp hphase) (by simpa using hfree)
  | useBackend host name => exact requested_useBackend host name

/-! ### Frames -/

/-- Selecting a backend keeps the phase. -/
@[simp] theorem select_phase (name : BackendName) (previous : Finset String) :
    (s.select name previous).phase = s.phase := by
  unfold State.select
  dsimp only
  split <;> rfl

/-- Selecting a backend keeps the accepted work. -/
@[simp] theorem select_activeWork (name : BackendName) (previous : Finset String) :
    (s.select name previous).activeWork = s.activeWork := by
  unfold State.select
  dsimp only
  split <;> rfl

/-- Selecting a backend keeps the calls. -/
@[simp] theorem select_calls (name : BackendName) (previous : Finset String) :
    (s.select name previous).calls = s.calls := by
  unfold State.select
  dsimp only
  split <;> rfl

/-- Selecting a backend keeps the started calls. -/
@[simp] theorem select_started (name : BackendName) (previous : Finset String) :
    (s.select name previous).started = s.started := by
  unfold State.select
  dsimp only
  split <;> rfl

/-- Selecting a backend keeps the heap. -/
@[simp] theorem select_heap (name : BackendName) (previous : Finset String) :
    (s.select name previous).heap = s.heap := by
  unfold State.select
  dsimp only
  split <;> rfl

/-- Selecting a backend changes the name of the backend only. -/
@[simp] theorem select_core (name : BackendName) (previous : Finset String) :
    (s.select name previous).core = { s.core with backendName := some name } := by
  unfold State.select
  dsimp only
  split <;> rfl

/-- Selecting a backend keeps the generation of the closes. -/
@[simp] theorem select_closeGeneration (name : BackendName) (previous : Finset String) :
    (s.select name previous).closeGeneration = s.closeGeneration := by
  unfold State.select
  dsimp only
  split <;> rfl

/-- `initialize` of a bundled backend does not touch the other backends. -/
theorem initializeBundled_frame {heap heap' : Heap} {id : Nat} {host : Host}
    {manifests : List PluginManifest} {registry : OperationRegistry} {result : Except Failure Unit}
    (h : heap.initializeBundled id host manifests registry = (heap', result)) :
    heap'.isolated = heap.isolated ∧ heap'.isolatedCount = heap.isolatedCount ∧
      heap'.bundledCount = heap.bundledCount ∧
      ∀ other, other ≠ id → heap'.bundled other = heap.bundled other := by
  cases h
  refine ⟨rfl, rfl, rfl, ?_⟩
  intro other hne
  exact Function.update_of_ne hne _ _

/-- A request does not touch the calls. -/
theorem Requested.frame {request : Request} {t : State × Except Failure Unit}
    (h : Requested naming s request t) :
    t.1.phase = s.phase ∧ t.1.activeWork = s.activeWork ∧ t.1.calls = s.calls ∧
      t.1.started = s.started ∧ t.1.closeGeneration = s.closeGeneration := by
  cases h <;> simp [State.publishLoaded]

/-- A request does not touch the isolated backends. -/
theorem Requested.isolated {request : Request} {t : State × Except Failure Unit}
    (h : Requested naming s request t) :
    t.1.core.isolated = s.core.isolated ∧ t.1.heap.isolated = s.heap.isolated ∧
      t.1.heap.isolatedCount = s.heap.isolatedCount := by
  cases h with
  | rolledBack _ _ _ _ _ _ _ _ hinit =>
    obtain ⟨hisolated, hcount, -⟩ := initializeBundled_frame hinit
    exact ⟨rfl, hisolated, hcount⟩
  | reloaded _ _ _ _ _ _ _ _ hinit =>
    obtain ⟨hisolated, hcount, -⟩ := initializeBundled_frame hinit
    exact ⟨rfl, hisolated, hcount⟩
  | selectBundled _ _ _ hinit =>
    obtain ⟨hisolated, hcount, -⟩ := initializeBundled_frame hinit
    simp [hisolated, hcount]
  | selectIsolated => simp
  | _ => exact ⟨rfl, rfl, rfl⟩

/-- A request that changes something is made of a runtime that is open. -/
theorem Requested.opened {request : Request} {t : State × Except Failure Unit}
    (h : Requested naming s request t) : t.1 = s ∨ s.phase = .opened := by
  cases h with
  | raised => exact Or.inl rfl
  | _ => exact Or.inr (by assumption)

end Wmfs.Runtime
