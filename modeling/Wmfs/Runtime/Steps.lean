import Wmfs.Lib.Transition
import Wmfs.Runtime.Model

/-!
# `Wmfs.Runtime.Steps`: the runs of a `Runtime`

Threads make calls of one runtime. A step is one critical section of a call, or what it does
between two of them. `load_plugins`, the `configure_` calls and `use_backend` have one critical
section, and each is one step (`Request`). The other calls have a number, and `stepAt` says what
a call does at its `Pc`.

`Trans` lists what `step` does. The proofs take `step` apart with `trans_of_step`, and never
unfold it.
-/

set_option autoImplicit false

namespace Wmfs.Runtime

open Wmfs.Lib

/-- The calls that have one critical section, with what the outside answers. -/
inductive Request where
  | loadPlugins (host : Host) (found : Option (List PluginManifest))
  | configurePlugin (plugin : String) (encoded : Option String)
      (logging : Option (Option LoggingOptions))
  | configureMemory (mode : String) (arenaBytes : Option Int)
  | configureBundled (implementation : String)
  | configureDeadlines (startup request fdTransfer shutdown killGrace : Option Rat)
  | useBackend (host : Host) (name : String)

/-- A call with one critical section. -/
def State.request (naming : Naming) (s : State) : Request → State × Except Failure Unit
  | .loadPlugins host found => s.loadPlugins naming host found
  | .configurePlugin plugin encoded logging => s.configurePlugin plugin encoded logging
  | .configureMemory mode arenaBytes => s.configureMemory mode arenaBytes
  | .configureBundled implementation => s.configureBundled implementation
  | .configureDeadlines startup request fdTransfer shutdown killGrace =>
    s.configureDeadlines startup request fdTransfer shutdown killGrace
  | .useBackend host name => s.useBackend host name

/-- The labels.

* `invoke`, `invokeRegistered`, `constructTensor`, `discoverPlugins`, `close`: a new call, and
  its first critical section.
* `work`: the backend returns or raises.
* `findManifests`, `snapshot`, `prepare`, `construct`, `start`, `validate`, `closeReplacement`,
  `publish`, `closePrevious`: the rest of `discover_plugins`.
* `finish`: `_finish_work`.
* `drain`, `closeBackend`, `reset`, `joined`: the rest of `close`. -/
inductive Act where
  | request (request : Request)
  | invoke (call : CallId) (operation : OperationName)
  | invokeRegistered (call : CallId) (operation : OperationName) (generation : Nat)
  | constructTensor (call : CallId)
  | work (call : CallId) (result : Except Failure Unit)
  | discoverPlugins (call : CallId)
  | findManifests (call : CallId) (found : Option (List PluginManifest))
  | snapshot (call : CallId)
  | prepare (call : CallId)
  | construct (call : CallId)
  | start (call : CallId) (starts : Bool)
  | validate (call : CallId)
  | closeReplacement (call : CallId)
  | publish (call : CallId)
  | closePrevious (call : CallId) (returns : Bool)
  | finish (call : CallId)
  | close (call : CallId)
  | drain (call : CallId)
  | closeBackend (call : CallId) (returns : Bool)
  | reset (call : CallId)
  | joined (call : CallId)

/-- The call that makes the step. -/
def Act.call : Act → Option CallId
  | request _ => none
  | invoke c _ | invokeRegistered c _ _ | constructTensor c | work c _ | discoverPlugins c
  | findManifests c _ | snapshot c | prepare c | construct c | start c _ | validate c
  | closeReplacement c | publish c | closePrevious c _ | finish c | close c | drain c
  | closeBackend c _ | reset c | joined c => some c

variable (naming : Naming)

/-- What the call does at `pc` with the label, or `none` when it does something else there. -/
def stepAt (s : State) (call : CallId) : Pc → Act → Option State
  | .idle, .invoke _ operation => some (s.invoke call operation)
  | .idle, .invokeRegistered _ operation generation =>
    some (s.invokeRegistered call operation generation)
  | .idle, .constructTensor _ => some (s.constructTensor call)
  | .working _ _, .work _ result => some (s.move call (.finishing result))
  | .idle, .discoverPlugins _ => some (s.discoverPlugins call)
  | .discovering, .findManifests _ none => some (s.move call (.finishing (.error .manifests)))
  | .discovering, .findManifests _ (some manifests) => some (s.move call (.found manifests))
  | .found manifests, .snapshot _ =>
    some (s.move call
      (.preparing [] manifests s.core.pluginConfigurations s.core.manifests))
  | .preparing prepared (manifest :: rest) configured loaded, .prepare _ =>
    some (s.move call
      (.preparing (prepared ++ [s.prepare configured loaded manifest]) rest configured loaded))
  | .preparing prepared [] _ _, .construct _ => some (s.constructIsolated call prepared)
  | .starting manifests backend, .start _ starts =>
    some (s.startIsolated call manifests backend starts)
  | .created manifests backend, .validate _ =>
    some (s.move call
      (if validatePublicOperations naming (s.heap.isolated backend).registry then
        .validated manifests backend else .rejected backend))
  | .rejected backend, .closeReplacement _ =>
    some { s.move call (.finishing (.error .manifests)) with
      heap := s.heap.close (.isolated backend) }
  | .validated manifests backend, .publish _ => some (s.publish call manifests backend)
  | .replaced none, .closePrevious _ _ => some (s.move call (.finishing (.ok ())))
  | .replaced (some previous), .closePrevious _ returns =>
    some { s.move call (.finishing (if returns then .ok () else .error .previousClose)) with
      heap := s.heap.close (.isolated previous) }
  | .finishing result, .finish _ => some (s.finishWork call result)
  | .idle, .close _ => some (s.startClose call)
  | .closeWaiting, .drain _ =>
    if s.activeWork = 0 then some (s.move call (.closing s.core.backends false)) else none
  | .closing (backend :: rest) raised, .closeBackend _ returns =>
    some { s.move call (.closing rest (raised || !returns)) with heap := s.heap.close backend }
  | .closing [] raised, .reset _ => some (s.reset call raised)
  | .closeJoining generation, .joined _ =>
    if s.closeGeneration ≠ generation then some (s.move call (.done (.ok ()))) else none
  | _, _ => none

/-- One step. -/
def step (s : State) (a : Act) : Option State :=
  match a with
  | .request request => some (s.request naming request).1
  | a => a.call.bind fun call => stepAt naming s call (s.calls call) a

/-- A runtime as a machine. -/
def runtimeMachine : Machine State Act := ⟨.init, step naming⟩

/-! ### The steps one by one -/

/-- The core with which a call begins to work: `invoke` marks the plugin of the operation. -/
inductive Marked (core : Core) : Option OperationName → Core → Prop where
  | operation (name : OperationName) : Marked core (some name) (core.markInitialized name)
  | tensor : Marked core none core

/-- The steps of a call that only move it. -/
inductive Moves (s : State) : Pc → Pc → Prop where
  | work (backend : BackendRef) (operation : Option OperationName)
      (result : Except Failure Unit) : Moves s (.working backend operation) (.finishing result)
  | notFound : Moves s .discovering (.finishing (.error .manifests))
  | found (manifests : List PluginManifest) : Moves s .discovering (.found manifests)
  | snapshot (manifests : List PluginManifest) :
    Moves s (.found manifests)
      (.preparing [] manifests s.core.pluginConfigurations s.core.manifests)
  | prepare (prepared : List PluginManifest) (manifest : PluginManifest)
      (rest : List PluginManifest) (configured : String → Option String)
      (loaded : List PluginManifest) :
    Moves s (.preparing prepared (manifest :: rest) configured loaded)
      (.preparing (prepared ++ [s.prepare configured loaded manifest]) rest configured loaded)
  | validate (manifests : List PluginManifest) (backend : Nat)
      (hvalid : validatePublicOperations naming (s.heap.isolated backend).registry = true) :
    Moves s (.created manifests backend) (.validated manifests backend)
  | reject (manifests : List PluginManifest) (backend : Nat)
      (hinvalid : validatePublicOperations naming (s.heap.isolated backend).registry = false) :
    Moves s (.created manifests backend) (.rejected backend)
  | noPrevious : Moves s (.replaced none) (.finishing (.ok ()))
  | joined (generation : Nat) (hgeneration : s.closeGeneration ≠ generation) :
    Moves s (.closeJoining generation) (.done (.ok ()))

/-- The steps of a call at `pc`. -/
inductive Trans (s : State) (call : CallId) : Pc → State → Prop where
  | refuse (e : Failure) (hphase : s.phase ≠ .opened) : Trans s call .idle (s.refuse call e)
  | abandon (e : Failure) (hphase : s.phase = .opened) :
    Trans s call .idle ((s.accept call).abandon call e)
  | accept (backend : BackendRef) (operation : Option OperationName) (core : Core)
      (hphase : s.phase = .opened) (hselected : s.core.selected = some backend)
      (hmarked : Marked s.core operation core) :
    Trans s call .idle
      { (s.accept call).move call (.working backend operation) with core := core }
  | discover (hphase : s.phase = .opened) :
    Trans s call .idle ((s.accept call).move call .discovering)
  | move (pc pc' : Pc) (hmoves : Moves naming s pc pc') : Trans s call pc (s.move call pc')
  | construct (prepared : List PluginManifest) (configured : String → Option String)
      (loaded : List PluginManifest) :
    Trans s call (.preparing prepared [] configured loaded) (s.constructIsolated call prepared)
  | started (manifests : List PluginManifest) (backend : Nat) (registry : OperationRegistry)
      (hregistry : OperationRegistry.ofManifests manifests = .ok registry) :
    Trans s call (.starting manifests backend)
      { s.move call (.created manifests backend) with heap := s.heap.fill backend registry }
  | closeIsolated (pc : Pc) (backend : Nat) (result : Except Failure Unit)
      (hpc : (∃ manifests, pc = .starting manifests backend) ∨ pc = .rejected backend ∨
        pc = .replaced (some backend)) :
    Trans s call pc
      { s.move call (.finishing result) with heap := s.heap.close (.isolated backend) }
  | publish (manifests : List PluginManifest) (backend : Nat) :
    Trans s call (.validated manifests backend) (s.publish call manifests backend)
  | finish (result : Except Failure Unit) :
    Trans s call (.finishing result) (s.finishWork call result)
  | close (hphase : s.phase = .opened) :
    Trans s call .idle
      { s.move call .closeWaiting with phase := .closing, started := call :: s.started }
  | join (hphase : s.phase = .closing) :
    Trans s call .idle
      { s.move call (.closeJoining s.closeGeneration) with started := call :: s.started }
  | drain (hzero : s.activeWork = 0) :
    Trans s call .closeWaiting (s.move call (.closing s.core.backends false))
  | closeBackend (backend : BackendRef) (rest : List BackendRef) (raised raised' : Bool) :
    Trans s call (.closing (backend :: rest) raised)
      { s.move call (.closing rest raised') with heap := s.heap.close backend }
  | reset (raised : Bool) : Trans s call (.closing [] raised) (s.reset call raised)

variable {naming}

section
variable {s : State} {call : CallId}

/-- What `invoke` does in its critical section. -/
theorem trans_invoke (operation : OperationName) :
    Trans naming s call .idle (s.invoke call operation) := by
  unfold State.invoke
  split
  next hphase => exact .refuse _ hphase
  next hphase =>
    have hopened : s.phase = .opened := not_not.mp hphase
    dsimp only
    split
    next => exact .abandon _ hopened
    next backend hselected =>
      exact .accept backend (some operation) _ hopened hselected (.operation operation)

/-- What `invoke_registered` does in its critical section. -/
theorem trans_invokeRegistered (operation : OperationName) (generation : Nat) :
    Trans naming s call .idle (s.invokeRegistered call operation generation) := by
  unfold State.invokeRegistered
  split
  next hphase => exact .refuse _ hphase
  next hphase =>
    have hopened : s.phase = .opened := not_not.mp hphase
    dsimp only
    split
    next => exact .abandon _ hopened
    next =>
      split
      next => exact .abandon _ hopened
      next =>
        split
        next => exact .abandon _ hopened
        next backend hselected =>
          exact .accept backend (some operation) _ hopened hselected (.operation operation)

/-- What `_construct_tensor` does in its critical section. -/
theorem trans_constructTensor : Trans naming s call .idle (s.constructTensor call) := by
  unfold State.constructTensor
  split
  next hphase => exact .refuse _ hphase
  next hphase =>
    have hopened : s.phase = .opened := not_not.mp hphase
    dsimp only
    split
    next => exact .abandon _ hopened
    next backend hselected => exact .accept backend none _ hopened hselected .tensor

/-- What `discover_plugins` does in its first critical section. -/
theorem trans_discoverPlugins : Trans naming s call .idle (s.discoverPlugins call) := by
  unfold State.discoverPlugins
  split
  next hphase => exact .refuse _ hphase
  next hphase => exact .discover (not_not.mp hphase)

/-- What `close` does in its first critical section. -/
theorem trans_startClose : Trans naming s call .idle (s.startClose call) := by
  unfold State.startClose
  split
  next hphase => exact .join hphase
  next hphase =>
    apply Trans.close
    cases hopened : s.phase with
    | opened => rfl
    | closing => exact absurd hopened hphase

/-- What `IsolatedBackend.discover` does behind its first step. -/
theorem trans_startIsolated (manifests : List PluginManifest) (backend : Nat) (starts : Bool) :
    Trans naming s call (.starting manifests backend)
      (s.startIsolated call manifests backend starts) := by
  unfold State.startIsolated
  split
  next e _ => exact .closeIsolated _ backend (.error e) (Or.inl ⟨manifests, rfl⟩)
  next registry hregistry =>
    split
    next => exact .started manifests backend registry hregistry
    next => exact .closeIsolated _ backend (.error .discovery) (Or.inl ⟨manifests, rfl⟩)

/-- What `stepAt` does. -/
theorem trans_of_stepAt {pc : Pc} {a : Act} {t : State} (h : stepAt naming s call pc a = some t) :
    Trans naming s call pc t := by
  unfold stepAt at h
  split at h
  case h_1 => cases h; exact trans_invoke _
  case h_2 => cases h; exact trans_invokeRegistered _ _
  case h_3 => cases h; exact trans_constructTensor
  case h_4 backend operation _ result =>
    cases h
    exact .move _ _ (.work backend operation result)
  case h_5 => cases h; exact trans_discoverPlugins
  case h_6 => cases h; exact .move _ _ .notFound
  case h_7 => cases h; exact .move _ _ (.found _)
  case h_8 => cases h; exact .move _ _ (.snapshot _)
  case h_9 => cases h; exact .move _ _ (.prepare _ _ _ _ _)
  case h_10 => cases h; exact .construct _ _ _
  case h_11 => cases h; exact trans_startIsolated _ _ _
  case h_12 manifests backend _ =>
    cases h
    apply Trans.move
    split
    next hvalid => exact .validate manifests backend hvalid
    next hinvalid => exact .reject manifests backend (Bool.not_eq_true _ ▸ hinvalid)
  case h_13 backend _ => cases h; exact .closeIsolated _ backend _ (Or.inr (Or.inl rfl))
  case h_14 => cases h; exact .publish _ _
  case h_15 => cases h; exact .move _ _ .noPrevious
  case h_16 previous _ _ => cases h; exact .closeIsolated _ previous _ (Or.inr (Or.inr rfl))
  case h_17 => cases h; exact .finish _
  case h_18 => cases h; exact trans_startClose
  case h_19 =>
    split at h
    next hzero => cases h; exact .drain hzero
    next => cases h
  case h_20 backend rest raised _ _ => cases h; exact .closeBackend backend rest raised _
  case h_21 => cases h; exact .reset _
  case h_22 generation _ =>
    split at h
    next hgeneration => cases h; exact .move _ _ (.joined generation hgeneration)
    next => cases h
  case h_23 => cases h

/-- What `step` does: a request, or a step of one call. -/
theorem trans_of_step {a : Act} {t : State} (h : step naming s a = some t) :
    (∃ request, a = .request request ∧ t = (s.request naming request).1) ∨
      ∃ call, a.call = some call ∧ Trans naming s call (s.calls call) t := by
  unfold step at h
  split at h
  next request =>
    cases h
    exact Or.inl ⟨request, rfl, rfl⟩
  next =>
    rw [Option.bind_eq_some_iff] at h
    obtain ⟨call, hcall, h⟩ := h
    exact Or.inr ⟨call, hcall, trans_of_stepAt h⟩

end

/-! ### A run -/

/-- Every name is an identifier. -/
def plainNaming : Naming := ⟨fun _ => true, fun _ => false, .ascii⟩

/-- An operation without parameters. -/
def plainOperation : Manifest.OperationMetadata where
  name := "constant"
  tensorInputs := []
  tensorOutputs := []
  scalarParameters := []
  operationId := 1
  outputPlans := []
  vjp := none
  internal := false

/-- The plugin has one operation. -/
theorem nodup_plainOperation :
    ([plainOperation].map fun operation => operation.name).Nodup := List.nodup_singleton _

/-- A plugin that declares a shutdown. -/
def plainManifest : PluginManifest where
  metadata := ⟨"plain", [plainOperation], nodup_plainOperation⟩
  configuration := none
  configurationBytes := "{}"
  pythonProvider := some "plain.provider"
  bundledNamespace := none
  hasInitialize := false
  hasShutdown := true
  logging := DISABLED_LOGGING

/-- All hooks can be called, and none raises. -/
def plainHost : Host :=
  ⟨true, [], fun _ => true, fun _ => true, fun _ => true, fun _ => true, fun _ => true⟩

/-- The plugin is loaded. -/
def loadedState : State :=
  (State.init.request plainNaming (.loadPlugins plainHost (some [plainManifest]))).1

/-- And the bundled backend is selected. -/
def selectedState : State :=
  (loadedState.request plainNaming (.useBackend plainHost "bundled")).1

/-- `load_plugins` is a step. -/
theorem step_loadedState : (runtimeMachine plainNaming).step State.init
    (.request (.loadPlugins plainHost (some [plainManifest]))) = some loadedState := rfl

/-- `use_backend` is a step. -/
theorem step_selectedState : (runtimeMachine plainNaming).step loadedState
    (.request (.useBackend plainHost "bundled")) = some selectedState := rfl

/-- The run of both. -/
theorem reachable_selectedState : (runtimeMachine plainNaming).Reachable selectedState :=
  .next (.next .start trivial step_loadedState) trivial step_selectedState

/-- A plugin is loaded, used, and discovered, and `close` comes before the discovery has ended. It
has closed all backends. -/
def closingRun : List Act :=
  [.request (.loadPlugins plainHost (some [plainManifest])),
    .request (.useBackend plainHost "bundled"), .discoverPlugins 0,
    .findManifests 0 (some [plainManifest]), .snapshot 0, .prepare 0, .construct 0, .start 0 true,
    .close 1, .validate 0, .publish 0, .closePrevious 0 true, .finish 0, .drain 1,
    .closeBackend 1 true, .closeBackend 1 false]

end Wmfs.Runtime
