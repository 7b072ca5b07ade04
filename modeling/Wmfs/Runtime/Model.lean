import Mathlib.Data.Finset.Basic
import Mathlib.Data.Rat.Defs
import Wmfs.Invocation.Binding
import Wmfs.Runtime.Bundled

/-!
# `Wmfs.Runtime.Model`: the state of a `Runtime`

The fields of `Runtime` (`runtime.py`) and its critical sections. `Core` has the fields that
`close` sets back to those of a new runtime. The backends are objects with numbers: `Heap` has
every `BundledBackend` and every `IsolatedBackend` that the runtime has ever made, and the
sessions of the providers.

A critical section is a function from a state to a state and a result, which is an error when the
call raises. What the outside answers is an argument of it: `find_manifests`,
`validate_and_canonicalize`, the hooks of the providers (`Host`). The dictionaries
`_plugin_configurations` and `_plugin_logging` are functions. `_manifests` is a list: the
manifests that the runtime stores have distinct names, because a registry has registered them.

The lock is not modelled: no hook of a provider calls the runtime.
-/

set_option autoImplicit false

namespace Wmfs.Runtime

open Wmfs.Invocation (CaseTable pythonParameterName)

/-! ### Settings -/

/-- A finite positive number of seconds. -/
abbrev Deadline : Type := { seconds : Rat // 0 < seconds }

/-- `TransportDeadlines`. -/
structure TransportDeadlines where
  startup : Deadline
  request : Deadline
  fdTransfer : Deadline
  shutdown : Deadline
  killGrace : Deadline
  deriving DecidableEq

/-- `DEFAULT_TRANSPORT_DEADLINES`. -/
def DEFAULT_TRANSPORT_DEADLINES : TransportDeadlines :=
  ⟨⟨30, by decide⟩, ⟨30, by decide⟩, ⟨5, by decide⟩, ⟨30, by decide⟩, ⟨30, by decide⟩⟩

/-- A field of `TransportDeadlines`. An argument without a value is not a finite number. -/
def deadline (value : Option Rat) : Except Failure Deadline :=
  match value with
  | none => .error .deadlines
  | some seconds => if h : 0 < seconds then .ok ⟨seconds, h⟩ else .error .deadlines

/-- `TransportDeadlines.__post_init__`. -/
def TransportDeadlines.new (startup request fdTransfer shutdown killGrace : Option Rat) :
    Except Failure TransportDeadlines := do
  return ⟨← deadline startup, ← deadline request, ← deadline fdTransfer, ← deadline shutdown,
    ← deadline killGrace⟩

/-- `_memory_mode`. -/
inductive MemoryMode where
  | pooled
  | arena
  deriving DecidableEq, Repr

/-- The mode of this text. -/
def memoryMode (mode : String) : Option MemoryMode :=
  if mode = "pooled" then some .pooled else if mode = "arena" then some .arena else none

/-- The implementation of this text. -/
def bundledImplementation (implementation : String) : Option Implementation :=
  if implementation = "auto" then some .auto
  else if implementation = "python" then some .python
  else if implementation = "native" then some .native
  else none

/-! ### Public names -/

/-- `str.isidentifier`, `keyword.iskeyword`, and the case of characters. -/
structure Naming where
  isIdentifier : String → Bool
  isKeyword : String → Bool
  cases : CaseTable

/-- `not name.isidentifier() or keyword.iskeyword(name)`. -/
def Naming.rejects (naming : Naming) (name : String) : Bool :=
  !naming.isIdentifier name || naming.isKeyword name

/-- `name.startswith("_")`. -/
def startsWithUnderscore (name : String) : Bool := name.toList.head? == some '_'

/-- `_RESERVED_OPERATION_NAMES`. -/
def RESERVED_OPERATION_NAMES : List String :=
  ["ConfigurationMetadata", "__version__", "api", "empty", "list_configurable", "ones", "ops",
    "randn", "runtime", "zeros"]

/-- `parameter_names`. -/
def parameterNames (naming : Naming) (operation : Manifest.OperationMetadata) : List String :=
  (operation.tensorInputs.map fun parameter => pythonParameterName naming.cases parameter.name) ++
    operation.scalarParameters.map fun parameter => pythonParameterName naming.cases parameter.name

/-- The second loop of `_validate_public_operations` does not raise for this operation. -/
def publishable (naming : Naming) (registry : OperationRegistry)
    (operation : Manifest.OperationMetadata) : Bool :=
  !(naming.rejects operation.name || startsWithUnderscore operation.name ||
      (RESERVED_OPERATION_NAMES.contains operation.name &&
        decide (operation.name ∈ registry.operationNames))) &&
    !((parameterNames naming operation).any fun name => naming.rejects name || name == "out") &&
    decide (parameterNames naming operation).Nodup

/-- `_validate_public_operations` does not raise. -/
def validatePublicOperations (naming : Naming) (registry : OperationRegistry) : Bool :=
  (registry.plugins.all fun plugin =>
      !(naming.rejects plugin.name || startsWithUnderscore plugin.name)) &&
    registry.plugins.all fun plugin =>
      (plugin.operations.filter fun operation => !operation.internal).all fun operation =>
        publishable naming registry operation

/-! ### The state -/

/-- The identity of a call. -/
abbrev CallId : Type := Nat

/-- `_state`. -/
inductive Phase where
  | opened
  | closing
  deriving DecidableEq, Repr

/-- The keys of `_backends`. -/
inductive BackendName where
  | bundled
  | isolated
  deriving DecidableEq, Repr

/-- A backend, by its number. -/
inductive BackendRef where
  | bundled (id : Nat)
  | isolated (id : Nat)
  deriving DecidableEq, Repr

/-- `IsolatedBackend` as the runtime knows it. `closes` counts the calls of `close`. What a
backend does inside is in `Wmfs.Isolated`. -/
structure IsolatedBackend where
  registry : OperationRegistry
  manifests : List PluginManifest
  memoryMode : MemoryMode
  arenaBytes : Option Int
  deadlines : TransportDeadlines
  closes : Nat

/-- All backends, and the sessions of the providers. -/
structure Heap where
  bundled : Nat → BundledBackend
  bundledCount : Nat
  isolated : Nat → IsolatedBackend
  isolatedCount : Nat
  providers : ProviderLog

/-- The fields of a runtime that `close` resets. `bundled` and `isolated` are the entries of
`_backends`. -/
structure Core where
  bundled : Nat
  isolated : Option Nat
  backendName : Option BackendName
  registry : OperationRegistry
  manifests : List PluginManifest
  pluginConfigurations : String → Option String
  pluginLogging : String → Option LoggingOptions
  initializedPlugins : Finset String
  memoryMode : MemoryMode
  arenaBytes : Option Int
  bundledImplementation : Implementation
  deadlines : TransportDeadlines

/-- The fields of a new runtime with this bundled backend. -/
def Core.new (bundled : Nat) : Core where
  bundled := bundled
  isolated := none
  backendName := none
  registry := .empty
  manifests := []
  pluginConfigurations := fun _ => none
  pluginLogging := fun _ => none
  initializedPlugins := ∅
  memoryMode := .pooled
  arenaBytes := none
  bundledImplementation := .auto
  deadlines := DEFAULT_TRANSPORT_DEADLINES

/-- Where a call is. The calls with one critical section only are not here.

* `working`: `invoke`, `invoke_registered` or `_construct_tensor` has been accepted, and the
  backend works.
* `discovering`: `discover_plugins` has been accepted. `found`: `find_manifests` has returned.
* `preparing`: it has read `_plugin_configurations` and `_manifests`, and makes the tuple of
  manifests.
* `starting`: `IsolatedBackend.discover` has made the backend, and starts its sessions.
* `created`: it has returned. `rejected`: `replacement.close()` is next. `validated`: the critical
  section that publishes is next.
* `replaced`: `previous.close()` is next, when there is a previous backend.
* `finishing`: `_finish_work` is next, and then the call ends with the result.
* `closeWaiting`: `close` waits. `closing`: it has these backends left to close, and `raised` says
  that there are `failures`.
* `closeJoining`: another call closes, and this one waits for another generation. -/
inductive Pc where
  | idle
  | working (backend : BackendRef) (operation : Option OperationName)
  | discovering
  | found (manifests : List PluginManifest)
  | preparing (prepared rest : List PluginManifest) (configured : String → Option String)
      (loaded : List PluginManifest)
  | starting (manifests : List PluginManifest) (backend : Nat)
  | created (manifests : List PluginManifest) (backend : Nat)
  | rejected (backend : Nat)
  | validated (manifests : List PluginManifest) (backend : Nat)
  | replaced (previous : Option Nat)
  | finishing (result : Except Failure Unit)
  | closeWaiting
  | closing (backends : List BackendRef) (raised : Bool)
  | closeJoining (generation : Nat)
  | done (result : Except Failure Unit)

/-- A runtime, and the calls that have been made. -/
structure State where
  core : Core
  heap : Heap
  phase : Phase
  activeWork : Int
  closeGeneration : Nat
  operationGeneration : Nat
  calls : CallId → Pc
  started : List CallId

/-- `Runtime()`. -/
def State.init : State where
  core := .new 0
  heap := {
    bundled := fun _ => .new .auto
    bundledCount := 1
    isolated := fun _ => ⟨.empty, [], .pooled, none, DEFAULT_TRANSPORT_DEADLINES, 0⟩
    isolatedCount := 0
    providers := .empty }
  phase := .opened
  activeWork := 0
  closeGeneration := 0
  operationGeneration := 0
  calls := fun _ => .idle
  started := []

/-! ### Backends -/

namespace Heap

/-- `BundledBackend(implementation)`. -/
def newBundled (heap : Heap) (implementation : Implementation) : Heap :=
  { heap with
    bundled := Function.update heap.bundled heap.bundledCount (.new implementation)
    bundledCount := heap.bundledCount + 1 }

/-- `IsolatedBackend(...)`. -/
def newIsolated (heap : Heap) (backend : IsolatedBackend) : Heap :=
  { heap with
    isolated := Function.update heap.isolated heap.isolatedCount backend
    isolatedCount := heap.isolatedCount + 1 }

/-- The plugins are registered in the registry of an isolated backend. -/
def fill (heap : Heap) (id : Nat) (registry : OperationRegistry) : Heap :=
  let backend := heap.isolated id
  { heap with
    isolated := Function.update heap.isolated id { backend with registry := registry } }

/-- `initialize` of a bundled backend. -/
def initializeBundled (heap : Heap) (id : Nat) (host : Host) (manifests : List PluginManifest)
    (registry : OperationRegistry) : Heap × Except Failure Unit :=
  let (backend, providers, result) :=
    (heap.bundled id).initializeProviders host manifests registry heap.providers
  ({ heap with bundled := Function.update heap.bundled id backend, providers := providers }, result)

/-- `close` of a backend. -/
def close (heap : Heap) : BackendRef → Heap
  | .bundled id =>
    let (backend, providers) := (heap.bundled id).close heap.providers
    { heap with bundled := Function.update heap.bundled id backend, providers := providers }
  | .isolated id =>
    let backend := heap.isolated id
    { heap with
      isolated := Function.update heap.isolated id { backend with closes := backend.closes + 1 } }

/-- `operation_names` of a backend. -/
def operationNames (heap : Heap) : BackendRef → Finset String
  | .bundled id => (heap.bundled id).names
  | .isolated id => (heap.isolated id).registry.operationNames

/-- What a backend executes. -/
def operations (heap : Heap) : BackendRef → OperationTable
  | .bundled id => (heap.bundled id).operations
  | .isolated id => isolatedTable (heap.isolated id).registry

end Heap

namespace Core

/-- `_backends[name]`, or `none` for a `KeyError`. -/
def backend (core : Core) : BackendName → Option BackendRef
  | .bundled => some (.bundled core.bundled)
  | .isolated => core.isolated.map .isolated

/-- `_selected_backend_locked`, or `none` when it raises. -/
def selected (core : Core) : Option BackendRef := core.backendName.bind core.backend

/-- `tuple(self._backends.values())`. -/
def backends (core : Core) : List BackendRef :=
  .bundled core.bundled :: (core.isolated.map .isolated).toList

/-- `_manifests[plugin]`. -/
def manifest (core : Core) (plugin : String) : Option PluginManifest :=
  core.manifests.find? fun manifest => manifest.name == plugin

/-- The arguments of `initialize` in `_initialize_in_process_backend_locked`. -/
def configuredManifests (core : Core) : List PluginManifest :=
  core.manifests.map fun manifest =>
    { manifest with
      configurationBytes :=
        (core.pluginConfigurations manifest.name).getD EMPTY_CONFIGURATION_BYTES
      logging := (core.pluginLogging manifest.name).getD DISABLED_LOGGING }

/-- `_mark_operation_plugin_initialized_locked`. -/
def markInitialized (core : Core) (operation : OperationName) : Core :=
  match core.registry.pluginForOperation operation with
  | some plugin => { core with initializedPlugins := insert plugin core.initializedPlugins }
  | none => core

/-- The keys and one value: `{name: value for name in loaded}`. -/
def forEach {α : Type} (manifests : List PluginManifest) (value : PluginManifest → α) :
    String → Option α :=
  fun name => (manifests.find? fun manifest => manifest.name == name).map value

end Core

namespace State

/-- `_operation_names_locked`. -/
def operationNames (s : State) : Finset String :=
  s.core.registry.operationNames ∪ (s.core.selected.elim ∅ s.heap.operationNames)

/-- `name in self._visible_operation_names_locked()`. -/
def isVisible (s : State) : OperationName → Bool
  | .short name => decide (name ∈ s.operationNames)
  | .qualified plugin name => (s.core.registry.visible (.qualified plugin name)).isSome

/-- `resolve_operation` of a runtime that is open. -/
def resolveOperation (s : State) (name : OperationName) :
    Except Failure (Nat × Option Manifest.OperationMetadata) :=
  if s.isVisible name then .ok (s.operationGeneration, s.core.registry.operation name)
  else .error .notRegistered

/-! ### Configuration calls -/

/-- The assignments at the end of `load_plugins`. -/
def publishLoaded (s : State) (manifests : List PluginManifest) (registry : OperationRegistry) :
    State :=
  { s with
    core := { s.core with
      registry := registry
      manifests := manifests
      pluginConfigurations := Core.forEach manifests fun _ => EMPTY_CONFIGURATION_BYTES
      pluginLogging := Core.forEach manifests fun _ => DISABLED_LOGGING
      initializedPlugins := ∅ }
    operationGeneration := s.operationGeneration + 1 }

/-- `load_plugins`. `found` is the result of `find_manifests`. -/
def loadPlugins (s : State) (naming : Naming) (host : Host) (found : Option (List PluginManifest)) :
    State × Except Failure Unit :=
  match found with
  | none => (s, .error .manifests)
  | some manifests =>
    match OperationRegistry.ofManifests manifests with
    | .error e => (s, .error e)
    | .ok registry =>
      if validatePublicOperations naming registry = false then (s, .error .manifests)
      else if s.phase ≠ .opened then (s, .error .closing)
      else if s.core.backendName = some .bundled then
        let unconfigured := manifests.map fun manifest =>
          { manifest with configurationBytes := EMPTY_CONFIGURATION_BYTES }
        let (heap, result) := s.heap.initializeBundled s.core.bundled host unconfigured registry
        match result with
        | .error e => ({ s with heap := heap }, .error e)
        | .ok () => (({ s with heap := heap } : State).publishLoaded manifests registry, .ok ())
      else (s.publishLoaded manifests registry, .ok ())

/-- `configure_plugin`. `encoded` is the result of `validate_and_canonicalize`. The argument
`logging` may be omitted, and it may be something else than `LoggingOptions`. -/
def configurePlugin (s : State) (plugin : String) (encoded : Option String)
    (logging : Option (Option LoggingOptions)) : State × Except Failure Unit :=
  if s.phase ≠ .opened then (s, .error .closing)
  else
    match s.core.manifest plugin with
    | none => (s, .error (.notLoaded plugin))
    | some _ =>
      if plugin ∈ s.core.initializedPlugins then (s, .error (.alreadyInitialized plugin))
      else
        match encoded with
        | none => (s, .error .configuration)
        | some encoded =>
          let core : Core := { s.core with
            pluginConfigurations :=
              Function.update s.core.pluginConfigurations plugin (some encoded) }
          match logging with
          | none => ({ s with core := core }, .ok ())
          -- The configuration is stored before the type of `logging` is checked.
          | some none => ({ s with core := core }, .error .loggingType)
          | some (some options) =>
            ({ s with
                core := { core with
                  pluginLogging := Function.update core.pluginLogging plugin (some options) } },
              .ok ())

/-- `configure_memory`. -/
def configureMemory (s : State) (mode : String) (arenaBytes : Option Int) :
    State × Except Failure Unit :=
  if s.phase ≠ .opened then (s, .error .closing)
  else if s.core.isolated.isSome then (s, .error .memoryAfterDiscovery)
  else
    match memoryMode mode with
    | none => (s, .error .memoryMode)
    | some mode =>
      ({ s with core := { s.core with memoryMode := mode, arenaBytes := arenaBytes } }, .ok ())

/-- `configure_bundled`. -/
def configureBundled (s : State) (implementation : String) : State × Except Failure Unit :=
  if s.phase ≠ .opened then (s, .error .closing)
  else if s.core.backendName = some .bundled ∨ s.core.initializedPlugins ≠ ∅ then
    (s, .error .bundledAfterInitialization)
  else
    match bundledImplementation implementation with
    | none => (s, .error .bundledImplementation)
    | some implementation =>
      ({ s with
          core := { s.core with
            bundledImplementation := implementation
            bundled := s.heap.bundledCount }
          heap := s.heap.newBundled implementation }, .ok ())

/-- `configure_deadlines`. -/
def configureDeadlines (s : State) (startup request fdTransfer shutdown killGrace : Option Rat) :
    State × Except Failure Unit :=
  if s.phase ≠ .opened then (s, .error .closing)
  else if s.core.isolated.isSome then (s, .error .deadlinesAfterDiscovery)
  else
    match TransportDeadlines.new startup request fdTransfer shutdown killGrace with
    | .error e => (s, .error e)
    | .ok deadlines => ({ s with core := { s.core with deadlines := deadlines } }, .ok ())

/-- The end of `use_backend`: `previous` are the names before. -/
def select (s : State) (name : BackendName) (previous : Finset String) : State :=
  let s := { s with core := { s.core with backendName := some name } }
  if s.operationNames ≠ previous then
    { s with operationGeneration := s.operationGeneration + 1 }
  else s

/-- `use_backend`. -/
def useBackend (s : State) (host : Host) (name : String) : State × Except Failure Unit :=
  if s.phase ≠ .opened then (s, .error .closing)
  else if name = "bundled" then
    let (heap, result) := s.heap.initializeBundled s.core.bundled host s.core.configuredManifests
      s.core.registry
    match result with
    | .error e => ({ s with heap := heap }, .error e)
    | .ok () =>
      let core : Core := { s.core with
        initializedPlugins :=
          s.core.initializedPlugins ∪ (s.core.manifests.map PluginManifest.name).toFinset }
      (({ s with heap := heap, core := core } : State).select .bundled s.operationNames, .ok ())
  else if name = "isolated" ∧ s.core.isolated.isSome then
    (s.select .isolated s.operationNames, .ok ())
  else (s, .error .unknownBackend)

/-! ### Calls that work -/

/-- The call goes on at `pc`. -/
abbrev move (s : State) (call : CallId) (pc : Pc) : State :=
  { s with calls := Function.update s.calls call pc }

/-- A new call ends in its first critical section. -/
abbrev refuse (s : State) (call : CallId) (e : Failure) : State :=
  { s.move call (.done (.error e)) with started := call :: s.started }

/-- `_accept_work` of a runtime that is open, for a new call. -/
abbrev accept (s : State) (call : CallId) : State :=
  { s with activeWork := s.activeWork + 1, started := call :: s.started }

/-- The handler `self._active_work -= 1; raise` behind `_accept_work`. -/
abbrev abandon (s : State) (call : CallId) (e : Failure) : State :=
  { s.move call (.done (.error e)) with activeWork := s.activeWork - 1 }

/-- The critical section of `invoke`. -/
def invoke (s : State) (call : CallId) (operation : OperationName) : State :=
  if s.phase ≠ .opened then s.refuse call .closing
  else
    let s := s.accept call
    match s.core.selected with
    | none => s.abandon call .noBackend
    | some backend =>
      { s.move call (.working backend (some operation)) with
        core := s.core.markInitialized operation }

/-- The critical section of `invoke_registered`. -/
def invokeRegistered (s : State) (call : CallId) (operation : OperationName) (generation : Nat) :
    State :=
  if s.phase ≠ .opened then s.refuse call .closing
  else
    let s := s.accept call
    if generation ≠ s.operationGeneration then s.abandon call .stale
    else if s.isVisible operation = false then s.abandon call .notRegistered
    else
      match s.core.selected with
      | none => s.abandon call .noBackend
      | some backend =>
        { s.move call (.working backend (some operation)) with
          core := s.core.markInitialized operation }

/-- The critical section of `_construct_tensor`. -/
def constructTensor (s : State) (call : CallId) : State :=
  if s.phase ≠ .opened then s.refuse call .closing
  else
    let s := s.accept call
    match s.core.selected with
    | none => s.abandon call .noBackend
    | some backend => s.move call (.working backend none)

/-- `_finish_work`, behind which the call ends. -/
def finishWork (s : State) (call : CallId) (result : Except Failure Unit) : State :=
  { s.move call (.done result) with activeWork := s.activeWork - 1 }

/-! ### Discovery -/

/-- The first critical section of `discover_plugins`. -/
def discoverPlugins (s : State) (call : CallId) : State :=
  if s.phase ≠ .opened then s.refuse call .closing
  else (s.accept call).move call .discovering

end State

/-- `_configuration_for_manifest`. -/
def configurationForManifest (manifest : PluginManifest) (loaded : Option PluginManifest)
    (configurations : String → Option String) : String :=
  let encoded := (configurations manifest.name).getD EMPTY_CONFIGURATION_BYTES
  match loaded with
  | none => EMPTY_CONFIGURATION_BYTES
  | some loaded =>
    if encoded = EMPTY_CONFIGURATION_BYTES then EMPTY_CONFIGURATION_BYTES
    else
      match loaded.configuration, manifest.configuration with
      | some before, some now => if before.fingerprint ≠ now.fingerprint then
          EMPTY_CONFIGURATION_BYTES else encoded
      | _, _ => EMPTY_CONFIGURATION_BYTES

namespace State

/-- The iteration for `manifest` of the tuple in `discover_plugins`. The snapshot has
`configured` and `loaded`, and `_plugin_logging` is read without the lock. -/
def prepare (s : State) (configured : String → Option String) (loaded : List PluginManifest)
    (manifest : PluginManifest) : PluginManifest :=
  { manifest with
    configurationBytes := configurationForManifest manifest
      (loaded.find? fun other => other.name == manifest.name) configured
    logging := (s.core.pluginLogging manifest.name).getD DISABLED_LOGGING }

/-- `IsolatedBackend.discover` makes a backend. A constructor that raises, when the arena of the
`BufferManager` cannot be had, is `startIsolated` with `starts = false`: the backend of the model
is closed at once, and the source has made none. -/
def constructIsolated (s : State) (call : CallId) (manifests : List PluginManifest) : State :=
  { s.move call (.starting manifests s.heap.isolatedCount) with
    heap := s.heap.newIsolated
      ⟨.empty, manifests, s.core.memoryMode, s.core.arenaBytes, s.core.deadlines, 0⟩ }

/-- `IsolatedBackend.discover` registers the plugins and starts the sessions. `starts` says that
every worker starts. When one of them raises, the backend is closed. -/
def startIsolated (s : State) (call : CallId) (manifests : List PluginManifest) (backend : Nat)
    (starts : Bool) : State :=
  match OperationRegistry.ofManifests manifests with
  | .error e =>
    { s.move call (.finishing (.error e)) with heap := s.heap.close (.isolated backend) }
  | .ok registry =>
    if starts then
      { s.move call (.created manifests backend) with heap := s.heap.fill backend registry }
    else
      { s.move call (.finishing (.error .discovery)) with
        heap := s.heap.close (.isolated backend) }

/-- The critical section of `discover_plugins` that publishes the backend. -/
def publish (s : State) (call : CallId) (manifests : List PluginManifest) (backend : Nat) :
    State :=
  { s.move call (.replaced s.core.isolated) with
    core := { s.core with
      registry := (s.heap.isolated backend).registry
      manifests := manifests
      pluginConfigurations := Core.forEach manifests fun manifest => manifest.configurationBytes
      pluginLogging := Core.forEach manifests fun manifest => manifest.logging
      initializedPlugins := (manifests.map PluginManifest.name).toFinset
      isolated := some backend
      backendName := if s.core.backendName = some .isolated then none else s.core.backendName }
    operationGeneration := s.operationGeneration + 1 }

/-! ### Closing -/

/-- The critical section of `close` up to its first wait. -/
def startClose (s : State) (call : CallId) : State :=
  if s.phase = .closing then
    { s.move call (.closeJoining s.closeGeneration) with started := call :: s.started }
  else { s.move call .closeWaiting with phase := .closing, started := call :: s.started }

/-- The last critical section of `close`, behind `_initial_backends()`. -/
def reset (s : State) (call : CallId) (raised : Bool) : State :=
  { s.move call (.done (if raised then .error .backendClose else .ok ())) with
    core := .new s.heap.bundledCount
    heap := s.heap.newBundled .auto
    phase := .opened
    operationGeneration := s.operationGeneration + 1
    closeGeneration := s.closeGeneration + 1 }

end State

end Wmfs.Runtime
