import Wmfs.Lib.KeyedPool
import Wmfs.Lib.Transition

/-!
# `Wmfs.Isolated.Model`: the sessions of an `IsolatedBackend`

`IsolatedBackend` (`backends/isolated.py`) keeps one persistent `WorkerSession` for each plugin.
A thread that finds none marks the plugin in `_creating`, starts a session outside the lock, and
then publishes it in `_sessions`. A session whose transport has failed is evicted and closed.
`close` waits for the calls in flight, and closes every published session.

The threads make `Call`s: `_invoke_plugin`, `plugin_environment`, `construct_tensor`, `close`,
and `discover`, which builds the backend before any other thread has it. A step is one critical
section of the backend's `_condition`, or what a call does between two of them. What
`WorkerSession._submit_invocation_direct` (`transport/worker_process.py`) does is a part of the
call: `_begin_call`, the command, `_invalidate`, and the `close` of a session whose transport
has failed. `_submit_invocation_profiled` has the same handlers.

An exception that leaves the session is an `Exception`, or a `BaseException` that is not one
(`Raised.interrupt`): a `KeyboardInterrupt` that is raised while the thread waits for the
worker. What a close waits for inside a session, and what the worker does, is not modelled. A
close has been called on a session when `_close_started` is set.

The dictionary `_sessions` is an `AList`, and the order of its entries is not modelled. The
sessions have the numbers below `count`, in the order of their creation.
-/

set_option autoImplicit false

namespace Wmfs.Isolated

open Wmfs.Lib

/-- The identity of a session. -/
abbrev SessionId : Type := Nat

/-- The identity of a call. -/
abbrev CallId : Type := Nat

/-- A `WorkerSession`: its plugin, `_invalidated`, and `_close_started`. `_closed` is set after
`_close_started`. -/
structure Session where
  plugin : String
  invalidated : Bool
  closeStarted : Bool
  deriving DecidableEq, Repr

/-- `_begin_call` does not raise. -/
def Session.usable (session : Session) : Bool :=
  !(session.closeStarted || session.invalidated)

/-- How far `_invoke_direct` is: the variables `dispatched` and `completed`. -/
inductive Progress where
  | preparing
  | dispatched
  | completed
  deriving DecidableEq, Repr

/-- An `Exception`, or another `BaseException`. -/
inductive Raised where
  | exception
  | interrupt
  deriving DecidableEq, Repr

/-- Where a call is.

* `entered`: it has been called.
* `discovering`: `discover` has these manifests left. `discoverFailed`: it calls `close`.
* `waiting`: `_condition.wait()` of `_acquire_session`.
* `creating`: `_new_session`. `created`: the session is not yet published.
* `rejected`: the backend is not open any more, and `session.close()` is next. `dropping`: it
  has been called.
* `acquired`: `_acquire_session` has returned.
* `running`: `_begin_call` has returned. `unwinding`: an exception leaves `_invoke_direct`.
* `failed`: `self.close()` of `_submit_invocation_direct` is next. `failedClosing`: it has been
  called. `transportFailed`: the `WorkerTransportError` has left the session.
* `evicted`: `_evict_session` has left its critical section.
* `finishing`: the `finally` block that decrements `_inflight` is next.
* `constructing`: `construct_tensor` is in flight.
* `closeWaiting`, `closing`, `closeEnding`: `close` waits, has taken the sessions, and has closed
  them. `closeJoining`: another call closes the backend. -/
inductive Pc where
  | idle
  | entered
  | discovering (rest : List String)
  | discoverFailed
  | waiting (plugin : String)
  | creating (plugin : String)
  | created (plugin : String) (session : SessionId)
  | rejected (plugin : String) (session : SessionId)
  | dropping (plugin : String)
  | acquired (plugin : String) (session : SessionId)
  | running (plugin : String) (session : SessionId) (progress : Progress)
  | unwinding (plugin : String) (session : SessionId) (raised : Raised)
  | failed (plugin : String) (session : SessionId)
  | failedClosing (plugin : String) (session : SessionId)
  | transportFailed (plugin : String) (session : SessionId)
  | evicted (plugin : String) (session : SessionId)
  | finishing
  | constructing
  | closeWaiting
  | closing (sessions : List SessionId)
  | closeEnding
  | closeJoining
  | done
  deriving DecidableEq, Repr

/-- A backend: `_state`, `_sessions`, `_creating` and `_inflight`, the sessions that have been
created, and its calls. `started` lists the calls that have been made. `shared` says that
`discover` has returned the backend. -/
structure State where
  phase : KeyedPool.Phase
  sessions : AList fun _ : String => SessionId
  creating : Finset String
  inflight : Int
  heap : SessionId → Session
  count : Nat
  calls : CallId → Pc
  started : List CallId
  shared : Bool

/-- A new backend. -/
def State.init : State where
  phase := .opened
  sessions := ∅
  creating := ∅
  inflight := 0
  heap := fun _ => ⟨"", false, false⟩
  count := 0
  calls := fun _ => .idle
  started := []
  shared := false

namespace State

/-- The call goes on at `pc`. -/
abbrev move (s : State) (call : CallId) (pc : Pc) : State :=
  { s with calls := Function.update s.calls call pc }

/-- `_new_session` returns: `WorkerSession.__init__` has started the worker. -/
abbrev newSession (s : State) (plugin : String) : State :=
  { s with
    heap := Function.update s.heap s.count ⟨plugin, false, false⟩
    count := s.count + 1 }

/-- `WorkerSession.close` is called on the sessions. -/
abbrev closeSessions (s : State) (ids : List SessionId) : State :=
  { s with heap := fun id =>
      if id ∈ ids then { s.heap id with closeStarted := true } else s.heap id }

/-- `WorkerSession._invalidate`. -/
abbrev invalidate (s : State) (id : SessionId) : State :=
  { s with heap := Function.update s.heap id { s.heap id with invalidated := true } }

/-- The critical section of `_acquire_session` up to its `wait`, its `return`, or its `break`. -/
def acquire (s : State) (call : CallId) (plugin : String) : State :=
  if s.phase ≠ .opened then s.move call .done
  else
    match s.sessions.lookup plugin with
    | some id => { s.move call (.acquired plugin id) with inflight := s.inflight + 1 }
    | none =>
      if plugin ∈ s.creating then s.move call (.waiting plugin)
      else { s.move call (.creating plugin) with creating := insert plugin s.creating }

/-- The critical section of `_evict_session`. -/
def evict (s : State) (call : CallId) (plugin : String) (id : SessionId) : State :=
  if s.sessions.lookup plugin = some id then
    { s.move call (.evicted plugin id) with sessions := s.sessions.erase plugin }
  else s.move call (.evicted plugin id)

/-- The first critical section of `close`, up to its `wait_for`. -/
def startClose (s : State) (call : CallId) : State :=
  match s.phase with
  | .opened => { s.move call .closeWaiting with phase := .closing }
  | .closing => s.move call .closeJoining
  | .closed => s.move call .done

end State

/-- The labels. Each names its call.

* `enter`: a thread makes a call.
* `discover`, `discoverSession`, `discoverFail`, `discovered`: the loops of `discover`. The
  registry refuses two manifests of one name before the first session is created.
* `acquire`, `retry`, `giveUp`: the loop of `_acquire_session`, its `wait` that returns or raises.
* `create`, `creationFailed`, `publish`, `closeRejected`, `dropRejected`: the rest of
  `_acquire_session`.
* `environment`: `plugin_environment` has its result.
* `begin`, `dispatch`, `complete`, `return`, `raise`, `replace`, `leave`, `closeFailed`,
  `failedClosed`, `interruptClose`: `_submit_invocation_direct`. `raise` has the kind of the
  exception and says whether the handlers inside have called `_invalidate`. `replace` is another
  exception raised while the first is on its way: `abort_invocation` waits for the worker too.
* `evict`, `closeEvicted`: `_evict_session`.
* `finish`: the `finally` block of a call in flight.
* `construct`: `construct_tensor`.
* `close`, `snapshot`, `closeAll`, `closed`, `joined`: `close`. The source closes the sessions one
  after the other. Here it is the one step `closeAll`, because no call is at work with a session
  then. -/
inductive Act where
  | enter (call : CallId)
  | discover (call : CallId) (names : List String)
  | discoverSession (call : CallId)
  | discoverFail (call : CallId)
  | discovered (call : CallId)
  | acquire (call : CallId) (plugin : String)
  | retry (call : CallId)
  | giveUp (call : CallId)
  | create (call : CallId)
  | creationFailed (call : CallId)
  | publish (call : CallId)
  | closeRejected (call : CallId)
  | dropRejected (call : CallId)
  | environment (call : CallId)
  | begin (call : CallId)
  | dispatch (call : CallId)
  | complete (call : CallId)
  | «return» (call : CallId)
  | raise (call : CallId) (raised : Raised) (invalidates : Bool)
  | replace (call : CallId) (raised : Raised)
  | leave (call : CallId)
  | closeFailed (call : CallId)
  | failedClosed (call : CallId)
  | interruptClose (call : CallId)
  | evict (call : CallId)
  | closeEvicted (call : CallId)
  | finish (call : CallId)
  | construct (call : CallId)
  | close (call : CallId)
  | snapshot (call : CallId)
  | closeAll (call : CallId)
  | closed (call : CallId)
  | joined (call : CallId)
  deriving DecidableEq, Repr

/-- The call that makes the step. -/
def Act.call : Act → CallId
  | enter c | discover c _ | discoverSession c | discoverFail c | discovered c | acquire c _
  | retry c | giveUp c | create c | creationFailed c | publish c | closeRejected c
  | dropRejected c | environment c | begin c | dispatch c | complete c | «return» c
  | raise c _ _ | replace c _ | leave c | closeFailed c | failedClosed c | interruptClose c
  | evict c | closeEvicted c | finish c | construct c | close c | snapshot c | closeAll c
  | closed c | joined c => c

/-- What the call does at `pc` with the label, or `none` when it does something else there. -/
def stepAt (s : State) (call : CallId) : Pc → Act → Option State
  | .idle, .enter _ => some { s.move call .entered with started := call :: s.started }
  | .entered, .discover _ names =>
    -- Only `discover` itself has the backend before it returns.
    if s.shared = false ∧ s.started = [call] then
      some (s.move call (if names.Nodup then .discovering names else .discoverFailed))
    else none
  | .discovering (name :: rest), .discoverSession _ =>
    some { (s.newSession name).move call (.discovering rest) with
      sessions := s.sessions.insert name s.count }
  | .discovering _, .discoverFail _ => some (s.move call .discoverFailed)
  | .discovering [], .discovered _ => some { s.move call .done with shared := true }
  | .discoverFailed, .close _ => some (s.startClose call)
  | .entered, .acquire _ plugin => if s.shared then some (s.acquire call plugin) else none
  | .waiting plugin, .retry _ => some (s.acquire call plugin)
  | .waiting _, .giveUp _ => some (s.move call .done)
  | .creating plugin, .create _ =>
    some ((s.newSession plugin).move call (.created plugin s.count))
  | .creating plugin, .creationFailed _ =>
    some { s.move call .done with creating := s.creating.erase plugin }
  | .created plugin id, .publish _ =>
    if s.phase = .opened then
      some { s.move call (.acquired plugin id) with
        sessions := s.sessions.insert plugin id
        creating := s.creating.erase plugin
        inflight := s.inflight + 1 }
    else some (s.move call (.rejected plugin id))
  | .rejected plugin id, .closeRejected _ =>
    some ((s.closeSessions [id]).move call (.dropping plugin))
  | .dropping plugin, .dropRejected _ =>
    some { s.move call .done with creating := s.creating.erase plugin }
  | .acquired _ _, .environment _ => some (s.move call .finishing)
  | .acquired plugin id, .begin _ =>
    some (s.move call (if (s.heap id).usable then .running plugin id .preparing else .finishing))
  | .running plugin id .preparing, .dispatch _ =>
    some (s.move call (.running plugin id .dispatched))
  | .running plugin id .dispatched, .complete _ =>
    some (s.move call (.running plugin id .completed))
  | .running _ _ .completed, .return _ => some (s.move call .finishing)
  | .running plugin id progress, .raise _ raised invalidates =>
    -- The `finally` block: `dispatched and not completed`.
    some ((if invalidates = true ∨ progress = .dispatched then s.invalidate id else s).move call
      (.unwinding plugin id raised))
  | .unwinding plugin id _, .replace _ raised => some (s.move call (.unwinding plugin id raised))
  | .unwinding plugin id raised, .leave _ =>
    some (s.move call
      (if raised = .exception ∧ (s.heap id).invalidated = true then .failed plugin id
        else .finishing))
  | .failed plugin id, .closeFailed _ =>
    some ((s.closeSessions [id]).move call (.failedClosing plugin id))
  | .failedClosing plugin id, .failedClosed _ => some (s.move call (.transportFailed plugin id))
  | .failedClosing _ _, .interruptClose _ => some (s.move call .finishing)
  | .transportFailed plugin id, .evict _ => some (s.evict call plugin id)
  | .evicted _ id, .closeEvicted _ => some ((s.closeSessions [id]).move call .finishing)
  | .finishing, .finish _ => some { s.move call .done with inflight := s.inflight - 1 }
  | .entered, .construct _ =>
    if s.shared then
      some (if s.phase ≠ .opened then s.move call .done
        else { s.move call .constructing with inflight := s.inflight + 1 })
    else none
  | .constructing, .finish _ => some { s.move call .done with inflight := s.inflight - 1 }
  | .entered, .close _ => if s.shared then some (s.startClose call) else none
  | .closeWaiting, .snapshot _ =>
    if s.inflight = 0 ∧ s.creating = ∅ then
      some { s.move call (.closing (s.sessions.entries.map Sigma.snd)) with sessions := ∅ }
    else none
  | .closing ids, .closeAll _ => some ((s.closeSessions ids).move call .closeEnding)
  | .closeEnding, .closed _ => some { s.move call .done with phase := .closed }
  | .closeJoining, .joined _ => if s.phase = .closed then some (s.move call .done) else none
  | _, _ => none

/-- One step. -/
def step (s : State) (a : Act) : Option State := stepAt s a.call (s.calls a.call) a

/-! ### The steps one by one

`Trans s call pc a t` lists what `step` does: the call is at `pc`, and its step `a` leads to `t`.
The proofs take `step` apart with `trans_of_step`, and never unfold it. -/

/-- The steps of a call at `pc`. -/
inductive Trans (s : State) (call : CallId) : Pc → Act → State → Prop where
  | enter :
    Trans s call .idle (.enter call) { s.move call .entered with started := call :: s.started }
  | discover (names : List String) (hshared : s.shared = false) (hstarted : s.started = [call])
      (hnames : names.Nodup) :
    Trans s call .entered (.discover call names) (s.move call (.discovering names))
  | discoverDuplicate (names : List String) (hshared : s.shared = false)
      (hstarted : s.started = [call]) :
    Trans s call .entered (.discover call names) (s.move call .discoverFailed)
  | discoverSession (name : String) (rest : List String) :
    Trans s call (.discovering (name :: rest)) (.discoverSession call)
      { (s.newSession name).move call (.discovering rest) with
        sessions := s.sessions.insert name s.count }
  | discoverFail (rest : List String) :
    Trans s call (.discovering rest) (.discoverFail call) (s.move call .discoverFailed)
  | discovered :
    Trans s call (.discovering []) (.discovered call) { s.move call .done with shared := true }
  | acquireClosed (pc : Pc) (a : Act) (plugin : String)
      (hpc : pc = .entered ∧ s.shared = true ∧ a = .acquire call plugin ∨
        pc = .waiting plugin ∧ a = .retry call) (hphase : s.phase ≠ .opened) :
    Trans s call pc a (s.move call .done)
  | acquireFound (pc : Pc) (a : Act) (plugin : String) (id : SessionId)
      (hpc : pc = .entered ∧ s.shared = true ∧ a = .acquire call plugin ∨
        pc = .waiting plugin ∧ a = .retry call) (hphase : s.phase = .opened)
      (hfound : s.sessions.lookup plugin = some id) :
    Trans s call pc a { s.move call (.acquired plugin id) with inflight := s.inflight + 1 }
  | acquireWait (pc : Pc) (a : Act) (plugin : String)
      (hpc : pc = .entered ∧ s.shared = true ∧ a = .acquire call plugin ∨
        pc = .waiting plugin ∧ a = .retry call) (hphase : s.phase = .opened)
      (hfree : s.sessions.lookup plugin = none) (hmark : plugin ∈ s.creating) :
    Trans s call pc a (s.move call (.waiting plugin))
  | acquireMark (pc : Pc) (a : Act) (plugin : String)
      (hpc : pc = .entered ∧ s.shared = true ∧ a = .acquire call plugin ∨
        pc = .waiting plugin ∧ a = .retry call) (hphase : s.phase = .opened)
      (hfree : s.sessions.lookup plugin = none) (hmark : plugin ∉ s.creating) :
    Trans s call pc a
      { s.move call (.creating plugin) with creating := insert plugin s.creating }
  | giveUp (plugin : String) : Trans s call (.waiting plugin) (.giveUp call) (s.move call .done)
  | create (plugin : String) :
    Trans s call (.creating plugin) (.create call)
      ((s.newSession plugin).move call (.created plugin s.count))
  | creationFailed (plugin : String) :
    Trans s call (.creating plugin) (.creationFailed call)
      { s.move call .done with creating := s.creating.erase plugin }
  | publish (plugin : String) (id : SessionId) (hphase : s.phase = .opened) :
    Trans s call (.created plugin id) (.publish call) { s.move call (.acquired plugin id) with
      sessions := s.sessions.insert plugin id
      creating := s.creating.erase plugin
      inflight := s.inflight + 1 }
  | reject (plugin : String) (id : SessionId) (hphase : s.phase ≠ .opened) :
    Trans s call (.created plugin id) (.publish call) (s.move call (.rejected plugin id))
  | closeRejected (plugin : String) (id : SessionId) :
    Trans s call (.rejected plugin id) (.closeRejected call)
      ((s.closeSessions [id]).move call (.dropping plugin))
  | dropRejected (plugin : String) :
    Trans s call (.dropping plugin) (.dropRejected call)
      { s.move call .done with creating := s.creating.erase plugin }
  | environment (plugin : String) (id : SessionId) :
    Trans s call (.acquired plugin id) (.environment call) (s.move call .finishing)
  | begin (plugin : String) (id : SessionId) (husable : (s.heap id).usable = true) :
    Trans s call (.acquired plugin id) (.begin call) (s.move call (.running plugin id .preparing))
  | refuse (plugin : String) (id : SessionId) (husable : (s.heap id).usable = false) :
    Trans s call (.acquired plugin id) (.begin call) (s.move call .finishing)
  | dispatch (plugin : String) (id : SessionId) :
    Trans s call (.running plugin id .preparing) (.dispatch call)
      (s.move call (.running plugin id .dispatched))
  | complete (plugin : String) (id : SessionId) :
    Trans s call (.running plugin id .dispatched) (.complete call)
      (s.move call (.running plugin id .completed))
  | return (plugin : String) (id : SessionId) :
    Trans s call (.running plugin id .completed) (.return call) (s.move call .finishing)
  | raiseInvalid (plugin : String) (id : SessionId) (progress : Progress) (raised : Raised)
      (invalidates : Bool) (hinvalid : invalidates = true ∨ progress = .dispatched) :
    Trans s call (.running plugin id progress) (.raise call raised invalidates)
      ((s.invalidate id).move call (.unwinding plugin id raised))
  | raise (plugin : String) (id : SessionId) (progress : Progress) (raised : Raised)
      (invalidates : Bool) (hvalid : ¬(invalidates = true ∨ progress = .dispatched)) :
    Trans s call (.running plugin id progress) (.raise call raised invalidates)
      (s.move call (.unwinding plugin id raised))
  | replace (plugin : String) (id : SessionId) (first second : Raised) :
    Trans s call (.unwinding plugin id first) (.replace call second)
      (s.move call (.unwinding plugin id second))
  | fail (plugin : String) (id : SessionId) (hinvalid : (s.heap id).invalidated = true) :
    Trans s call (.unwinding plugin id .exception) (.leave call) (s.move call (.failed plugin id))
  | leave (plugin : String) (id : SessionId) (raised : Raised)
      (hraised : ¬(raised = .exception ∧ (s.heap id).invalidated = true)) :
    Trans s call (.unwinding plugin id raised) (.leave call) (s.move call .finishing)
  | closeFailed (plugin : String) (id : SessionId) :
    Trans s call (.failed plugin id) (.closeFailed call)
      ((s.closeSessions [id]).move call (.failedClosing plugin id))
  | failedClosed (plugin : String) (id : SessionId) :
    Trans s call (.failedClosing plugin id) (.failedClosed call)
      (s.move call (.transportFailed plugin id))
  | interruptClose (plugin : String) (id : SessionId) :
    Trans s call (.failedClosing plugin id) (.interruptClose call) (s.move call .finishing)
  | evict (plugin : String) (id : SessionId) (hkey : s.sessions.lookup plugin = some id) :
    Trans s call (.transportFailed plugin id) (.evict call)
      { s.move call (.evicted plugin id) with sessions := s.sessions.erase plugin }
  | evictOther (plugin : String) (id : SessionId) (hkey : s.sessions.lookup plugin ≠ some id) :
    Trans s call (.transportFailed plugin id) (.evict call) (s.move call (.evicted plugin id))
  | closeEvicted (plugin : String) (id : SessionId) :
    Trans s call (.evicted plugin id) (.closeEvicted call)
      ((s.closeSessions [id]).move call .finishing)
  | finish (pc : Pc) (hpc : pc = .finishing ∨ pc = .constructing) :
    Trans s call pc (.finish call) { s.move call .done with inflight := s.inflight - 1 }
  | constructClosed (hshared : s.shared = true) (hphase : s.phase ≠ .opened) :
    Trans s call .entered (.construct call) (s.move call .done)
  | construct (hshared : s.shared = true) (hphase : s.phase = .opened) :
    Trans s call .entered (.construct call)
      { s.move call .constructing with inflight := s.inflight + 1 }
  | close (pc : Pc) (hpc : pc = .entered ∧ s.shared = true ∨ pc = .discoverFailed)
      (hphase : s.phase = .opened) :
    Trans s call pc (.close call) { s.move call .closeWaiting with phase := .closing }
  | closeJoin (pc : Pc) (hpc : pc = .entered ∧ s.shared = true ∨ pc = .discoverFailed)
      (hphase : s.phase = .closing) :
    Trans s call pc (.close call) (s.move call .closeJoining)
  | closeAgain (pc : Pc) (hpc : pc = .entered ∧ s.shared = true ∨ pc = .discoverFailed)
      (hphase : s.phase = .closed) :
    Trans s call pc (.close call) (s.move call .done)
  | snapshot (hflight : s.inflight = 0) (hcreating : s.creating = ∅) :
    Trans s call .closeWaiting (.snapshot call)
      { s.move call (.closing (s.sessions.entries.map Sigma.snd)) with sessions := ∅ }
  | closeAll (ids : List SessionId) :
    Trans s call (.closing ids) (.closeAll call) ((s.closeSessions ids).move call .closeEnding)
  | closed :
    Trans s call .closeEnding (.closed call) { s.move call .done with phase := .closed }
  | joined (hphase : s.phase = .closed) :
    Trans s call .closeJoining (.joined call) (s.move call .done)

/-- What `_acquire_session` does in its first critical section. -/
theorem trans_acquire {s : State} {call : CallId} {pc : Pc} {a : Act} {plugin : String}
    (hpc : pc = .entered ∧ s.shared = true ∧ a = .acquire call plugin ∨
      pc = .waiting plugin ∧ a = .retry call) :
    Trans s call pc a (s.acquire call plugin) := by
  unfold State.acquire
  split
  next hphase => exact .acquireClosed pc a plugin hpc hphase
  next hphase =>
    have hopened : s.phase = .opened := not_not.mp hphase
    split
    next id hfound => exact .acquireFound pc a plugin id hpc hopened hfound
    next hfree =>
      split
      next hmark => exact .acquireWait pc a plugin hpc hopened hfree hmark
      next hmark => exact .acquireMark pc a plugin hpc hopened hfree hmark

/-- What `close` does in its first critical section. -/
theorem trans_startClose {s : State} {call : CallId} {pc : Pc}
    (hpc : pc = .entered ∧ s.shared = true ∨ pc = .discoverFailed) :
    Trans s call pc (.close call) (s.startClose call) := by
  unfold State.startClose
  split
  next hphase => exact .close pc hpc hphase
  next hphase => exact .closeJoin pc hpc hphase
  next hphase => exact .closeAgain pc hpc hphase

/-- What `step` does. -/
theorem trans_of_step {s t : State} {a : Act} (h : step s a = some t) :
    Trans s a.call (s.calls a.call) a t := by
  unfold step at h
  generalize s.calls a.call = pc at h ⊢
  unfold stepAt State.evict at h
  split at h
  all_goals repeat' split at h
  all_goals simp only [Option.some.injEq, reduceCtorEq] at h
  all_goals subst h
  all_goals first
    -- The steps that go through another function, or that end the call.
    | exact trans_acquire (by simp_all [Act.call])
    | exact trans_startClose (by simp_all)
    | exact Trans.giveUp _
    | exact Trans.joined (by assumption)
    | exact Trans.constructClosed (by assumption) (by assumption)
    | (rename_i hguard; obtain ⟨rfl, hinvalid⟩ := hguard; exact Trans.fail _ _ hinvalid)
    -- The other steps are told apart by `pc` and by the guards.
    | (constructor <;> simp_all)

/-- A backend as a machine. -/
def backendMachine : Machine State Act := ⟨.init, step⟩

end Wmfs.Isolated
