import Wmfs.Isolated.Model

/-!
# `Wmfs.Isolated.Pool`: the sessions of an `IsolatedBackend` are a pool

`State.pool` sees a backend as a pool of sessions with one session for each plugin
(`Wmfs.Lib.KeyedPool`). A session is retired when `close` has been called on it. `step_pool`
shows that each step of the backend is a step of the pool, or is not seen there. So the pool is
valid in every run (`inv_of_reachable`).

The pool allows `drop` only for a retired session. `_evict_session` comes after the `close` of
the session that failed, and `Wf` keeps this fact.
-/

set_option autoImplicit false

namespace Wmfs.Isolated

open Wmfs.Lib

/-- What the call has of the pool of sessions. -/
def Pc.role : Pc → KeyedPool.Role String
  | .creating plugin | .dropping plugin => .marking plugin
  | .created plugin id | .rejected plugin id => .holding plugin id
  | .acquired _ _ | .running _ _ _ | .unwinding _ _ _ | .failed _ _ | .failedClosing _ _
  | .transportFailed _ _ | .evicted _ _ | .finishing | .constructing => .inFlight
  | .closeWaiting => .closing
  | .closing ids => .retiring ids
  | .closeEnding => .emptied
  | .idle | .entered | .discovering _ | .discoverFailed | .waiting _ | .closeJoining | .done =>
    .outside

/-- The sessions as a pool. A session is retired when `close` has been called on it. -/
def State.pool (s : State) : KeyedPool.State String CallId where
  phase := s.phase
  roles c := (s.calls c).role
  parties := s.started
  count := s.count
  keyOf id := (s.heap id).plugin
  retired id := (s.heap id).closeStarted
  published := s.sessions
  creating := s.creating
  inflight := s.inflight

/-- The session that the call uses, and its plugin. -/
def Pc.uses : Pc → Option (String × SessionId)
  | .acquired plugin id | .running plugin id _ | .unwinding plugin id _ | .failed plugin id
  | .failedClosing plugin id | .transportFailed plugin id | .evicted plugin id =>
    some (plugin, id)
  | _ => none

/-- The session that the call has closed because its transport failed. -/
def Pc.failing : Pc → Option SessionId
  | .failedClosing _ id | .transportFailed _ id | .evicted _ id => some id
  | _ => none

/-- A call whose session fails is one that uses it. -/
theorem Pc.uses_of_failing {pc : Pc} {id : SessionId} (h : pc.failing = some id) :
    ∃ plugin, pc.uses = some (plugin, id) := by
  cases pc <;> simp_all [Pc.failing, Pc.uses]

/-- The call has not got to the backend. -/
def Pc.fresh : Pc → Bool
  | .idle | .entered => true
  | _ => false

/-- What every run keeps of the calls. `_evict_session` comes after `self.close()`, which
`failing` says. While `discover` runs, no other call has the backend. -/
structure Wf (s : State) : Prop where
  started : ∀ c, c ∈ s.started ↔ s.calls c ≠ .idle
  fresh : (∀ c, (s.calls c).fresh = true) →
    s.phase = .opened ∧ s.sessions = ∅ ∧ s.creating = ∅
  discovering : ∀ c rest, s.calls c = .discovering rest →
    s.shared = false ∧ s.phase = .opened ∧ s.creating = ∅ ∧ rest.Nodup ∧
      (∀ name ∈ rest, s.sessions.lookup name = none) ∧
      ∀ c', c' ≠ c → (s.calls c').fresh = true
  uses : ∀ c plugin id, (s.calls c).uses = some (plugin, id) →
    id < s.count ∧ (s.heap id).plugin = plugin
  failing : ∀ c id, (s.calls c).failing = some id → (s.heap id).closeStarted = true

/-! ### What a step does to the pool -/

section
variable {s : State} {call : CallId} {pc : Pc}

/-- A call that goes on changes its role in the pool. -/
theorem pool_move (s : State) (call : CallId) (pc : Pc) :
    (s.move call pc).pool = s.pool.setRole call pc.role := by
  have hroles : (fun c => (Function.update s.calls call pc c).role) =
      Function.update (fun c => (s.calls c).role) call pc.role := by
    funext c
    by_cases hc : c = call
    · subst hc
      simp
    · simp [Function.update_of_ne hc]
  simp only [State.pool, hroles]

/-- A step that keeps the role of the call is not seen in the pool. -/
theorem pool_move_same (h : pc.role = (s.calls call).role) : (s.move call pc).pool = s.pool := by
  rw [pool_move, h]
  have hsame := Function.update_eq_self call s.pool.roles
  simp only [KeyedPool.State.setRole, show (s.calls call).role = s.pool.roles call from rfl, hsame]

/-- A new session is a new item of the pool. -/
theorem pool_newSession (s : State) (plugin : String) :
    (s.newSession plugin).pool = s.pool.create plugin := by
  have hkey : (fun id => (Function.update s.heap s.count ⟨plugin, false, false⟩ id).plugin) =
      Function.update (fun id => (s.heap id).plugin) s.count plugin := by
    funext id
    by_cases hid : id = s.count <;> simp [hid]
  have hclosed :
      (fun id => (Function.update s.heap s.count ⟨plugin, false, false⟩ id).closeStarted) =
        Function.update (fun id => (s.heap id).closeStarted) s.count false := by
    funext id
    by_cases hid : id = s.count <;> simp [hid]
  simp only [State.pool, hkey, hclosed]

/-- Sessions that are closed are retired. -/
theorem pool_closeSessions (s : State) (ids : List SessionId) :
    (s.closeSessions ids).pool = s.pool.retire ids := by
  have hkey : (fun id => (if id ∈ ids then { s.heap id with closeStarted := true }
      else s.heap id).plugin) = fun id => (s.heap id).plugin := by
    funext id
    split <;> rfl
  have hclosed : (fun id => (if id ∈ ids then { s.heap id with closeStarted := true }
      else s.heap id).closeStarted) = fun id => decide (id ∈ ids) || (s.heap id).closeStarted := by
    funext id
    by_cases hid : id ∈ ids <;> simp [hid]
  simp only [State.pool, hkey, hclosed]

/-- To invalidate a session changes nothing in the pool. -/
theorem pool_invalidate (s : State) (id : SessionId) : (s.invalidate id).pool = s.pool := by
  have hkey : (fun id' =>
      (Function.update s.heap id { s.heap id with invalidated := true } id').plugin) =
        fun id' => (s.heap id').plugin := by
    funext id'
    by_cases hid : id' = id <;> simp [hid]
  have hclosed : (fun id' =>
      (Function.update s.heap id { s.heap id with invalidated := true } id').closeStarted) =
        fun id' => (s.heap id').closeStarted := by
    funext id'
    by_cases hid : id' = id <;> simp [hid]
  simp only [State.pool, hkey, hclosed]

/-- `enter` is a step of the pool. -/
theorem step_enter (hw : Wf s) (hpc : s.calls call = .idle) :
    KeyedPool.Step s.pool { s.move call .entered with started := call :: s.started }.pool := by
  have hnew : call ∉ s.started := by
    intro hmem
    exact (hw.started call).mp hmem hpc
  show KeyedPool.Step s.pool { (s.move call .entered).pool with parties := call :: s.started }
  rw [pool_move_same (by rw [hpc]; rfl)]
  exact .enter call hnew

/-- `discoverSession` is a step of the pool. -/
theorem step_discoverSession (hw : Wf s) {name : String} {rest : List String}
    (hpc : s.calls call = .discovering (name :: rest)) :
    KeyedPool.Step s.pool { (s.newSession name).move call (.discovering rest) with
      sessions := s.sessions.insert name s.count }.pool := by
  obtain ⟨-, hphase, hcreating, -, hfree, -⟩ := hw.discovering call _ hpc
  show KeyedPool.Step s.pool { ((s.newSession name).move call (.discovering rest)).pool with
    published := s.sessions.insert name s.count }
  rw [pool_move_same (by simp [hpc, Pc.role]), pool_newSession]
  apply KeyedPool.Step.adopt name hphase (hfree name (by simp))
  show name ∉ s.creating
  simp [hcreating]

/-- A call gets into flight. -/
theorem step_fly (hw : Wf s) (hin : s.calls call ≠ .idle) (hout : (s.calls call).role = .outside)
    (hphase : s.phase = .opened) (hpc : pc.role = .inFlight) :
    KeyedPool.Step s.pool { s.move call pc with inflight := s.inflight + 1 }.pool := by
  show KeyedPool.Step s.pool { (s.move call pc).pool with inflight := s.inflight + 1 }
  rw [pool_move, hpc]
  exact .fly call ((hw.started call).mpr hin) hout hphase

/-- The mark of a creation is a step of the pool. -/
theorem step_mark (hw : Wf s) {plugin : String} (hin : s.calls call ≠ .idle)
    (hout : (s.calls call).role = .outside) (hphase : s.phase = .opened)
    (hfree : s.sessions.lookup plugin = none) (hmark : plugin ∉ s.creating) :
    KeyedPool.Step s.pool
      { s.move call (.creating plugin) with creating := insert plugin s.creating }.pool := by
  show KeyedPool.Step s.pool
    { (s.move call (.creating plugin)).pool with creating := insert plugin s.creating }
  rw [pool_move]
  exact .mark call plugin ((hw.started call).mpr hin) hout hphase hfree hmark

/-- `create` is a step of the pool. -/
theorem step_create {plugin : String} (hpc : s.calls call = .creating plugin) :
    KeyedPool.Step s.pool ((s.newSession plugin).move call (.created plugin s.count)).pool := by
  rw [pool_move, pool_newSession]
  apply KeyedPool.Step.create call plugin
  show (s.calls call).role = .marking plugin
  rw [hpc]
  rfl

/-- `_creating.remove` of a call that has no session. -/
theorem step_unmark {plugin : String} (hrole : (s.calls call).role = .marking plugin) :
    KeyedPool.Step s.pool
      { s.move call .done with creating := s.creating.erase plugin }.pool := by
  show KeyedPool.Step s.pool
    { (s.move call .done).pool with creating := s.creating.erase plugin }
  rw [pool_move]
  exact .unmark call plugin hrole

/-- `publish` is a step of the pool. -/
theorem step_publish {plugin : String} {id : SessionId} (hpc : s.calls call = .created plugin id)
    (hphase : s.phase = .opened) :
    KeyedPool.Step s.pool { s.move call (.acquired plugin id) with
      sessions := s.sessions.insert plugin id
      creating := s.creating.erase plugin
      inflight := s.inflight + 1 }.pool := by
  show KeyedPool.Step s.pool { (s.move call (.acquired plugin id)).pool with
    published := s.sessions.insert plugin id
    creating := s.creating.erase plugin
    inflight := s.inflight + 1 }
  rw [pool_move]
  apply KeyedPool.Step.publish call plugin id _ hphase
  show (s.calls call).role = .holding plugin id
  rw [hpc]
  rfl

/-- `closeRejected` is a step of the pool. -/
theorem step_closeRejected {plugin : String} {id : SessionId}
    (hpc : s.calls call = .rejected plugin id) :
    KeyedPool.Step s.pool ((s.closeSessions [id]).move call (.dropping plugin)).pool := by
  rw [pool_move, pool_closeSessions]
  apply KeyedPool.Step.retireHeld call plugin id
  show (s.calls call).role = .holding plugin id
  rw [hpc]
  rfl

/-- The `finally` block of a call in flight. -/
theorem step_finish (hrole : (s.calls call).role = .inFlight) :
    KeyedPool.Step s.pool { s.move call .done with inflight := s.inflight - 1 }.pool := by
  show KeyedPool.Step s.pool { (s.move call .done).pool with inflight := s.inflight - 1 }
  rw [pool_move]
  exact .land call hrole

/-- A call in flight closes the session that it uses. -/
theorem step_closeUsed {id : SessionId} (hsame : pc.role = (s.calls call).role) :
    KeyedPool.Step s.pool ((s.closeSessions [id]).move call pc).pool := by
  rw [pool_move_same (s := s.closeSessions [id]) hsame, pool_closeSessions]
  exact .retire id

/-- `evict` is a step of the pool. -/
theorem step_evict (hw : Wf s) {plugin : String} {id : SessionId}
    (hpc : s.calls call = .transportFailed plugin id)
    (hkey : s.sessions.lookup plugin = some id) :
    KeyedPool.Step s.pool
      { s.move call (.evicted plugin id) with sessions := s.sessions.erase plugin }.pool := by
  have hclosed : (s.heap id).closeStarted = true := hw.failing call id (by simp [hpc, Pc.failing])
  show KeyedPool.Step s.pool
    { (s.move call (.evicted plugin id)).pool with published := s.sessions.erase plugin }
  rw [pool_move_same (by simp [hpc, Pc.role])]
  exact .drop plugin id hkey hclosed

/-- The beginning of a close is a step of the pool. -/
theorem step_startClose (hw : Wf s) (hin : s.calls call ≠ .idle)
    (hout : (s.calls call).role = .outside) (hphase : s.phase = .opened) :
    KeyedPool.Step s.pool { s.move call .closeWaiting with phase := .closing }.pool := by
  show KeyedPool.Step s.pool { (s.move call .closeWaiting).pool with phase := .closing }
  rw [pool_move]
  exact .startClose call ((hw.started call).mpr hin) hout hphase

/-- `snapshot` is a step of the pool. -/
theorem step_snapshot (hpc : s.calls call = .closeWaiting)
    (hflight : s.inflight = 0) (hcreating : s.creating = ∅) :
    KeyedPool.Step s.pool { s.move call (.closing (s.sessions.entries.map Sigma.snd)) with
      sessions := ∅ }.pool := by
  show KeyedPool.Step s.pool { (s.move call (.closing (s.sessions.entries.map Sigma.snd))).pool
    with published := ∅ }
  rw [pool_move]
  apply KeyedPool.Step.snapshot call _ hflight hcreating
  show (s.calls call).role = .closing
  rw [hpc]
  rfl

/-- `closeAll` is a step of the pool. -/
theorem step_closeAll {ids : List SessionId} (hpc : s.calls call = .closing ids) :
    KeyedPool.Step s.pool ((s.closeSessions ids).move call .closeEnding).pool := by
  rw [pool_move, pool_closeSessions]
  apply KeyedPool.Step.retireAll call ids
  show (s.calls call).role = .retiring ids
  rw [hpc]
  rfl

/-- `closed` is a step of the pool. -/
theorem step_closed (hpc : s.calls call = .closeEnding) :
    KeyedPool.Step s.pool { s.move call .done with phase := .closed }.pool := by
  show KeyedPool.Step s.pool { (s.move call .done).pool with phase := .closed }
  rw [pool_move]
  apply KeyedPool.Step.finishClose call
  show (s.calls call).role = .emptied
  rw [hpc]
  rfl

end

attribute [local grind =] Pc.role Pc.uses Pc.failing Pc.fresh Function.update_apply
  AList.lookup_insert_ne AList.lookup_empty

/-- A step of the backend is a step of the pool, or is not seen there. -/
theorem step_pool {s t : State} {a : Act} (hw : Wf s) (h : step s a = some t) :
    t.pool = s.pool ∨ KeyedPool.Step s.pool t.pool := by
  have htrans := trans_of_step h
  clear h
  generalize a.call = call at htrans
  generalize hpc : s.calls call = pc at htrans
  cases htrans with
  | enter => exact Or.inr (step_enter hw hpc)
  | discoverSession => exact Or.inr (step_discoverSession hw hpc)
  | discovered =>
    show (s.move call .done).pool = s.pool ∨ _
    exact Or.inl (pool_move_same (by rw [hpc]; rfl))
  | acquireFound _ _ plugin _ _ hphase =>
    exact Or.inr (step_fly hw (by grind) (by grind) hphase rfl)
  | acquireMark _ _ plugin _ hphase hfree hmark =>
    exact Or.inr (step_mark hw (by grind) (by grind) hphase hfree hmark)
  | create => exact Or.inr (step_create hpc)
  | creationFailed | dropRejected => exact Or.inr (step_unmark (by rw [hpc]; rfl))
  | publish _ _ hphase => exact Or.inr (step_publish hpc hphase)
  | closeRejected => exact Or.inr (step_closeRejected hpc)
  | raiseInvalid _ id =>
    exact Or.inl ((pool_move_same (s := s.invalidate id) (by grind)).trans (pool_invalidate s id))
  | closeFailed | closeEvicted => exact Or.inr (step_closeUsed (by rw [hpc]; rfl))
  | evict _ _ hkey => exact Or.inr (step_evict hw hpc hkey)
  | finish => exact Or.inr (step_finish (by grind))
  | construct _ hphase => exact Or.inr (step_fly hw (by simp [hpc]) (by rw [hpc]; rfl) hphase rfl)
  | close _ _ hphase => exact Or.inr (step_startClose hw (by grind) (by grind) hphase)
  | snapshot hflight hcreating => exact Or.inr (step_snapshot hpc hflight hcreating)
  | closeAll => exact Or.inr (step_closeAll hpc)
  | closed => exact Or.inr (step_closed hpc)
  -- The other steps keep the role of the call.
  | _ => exact Or.inl (pool_move_same (by grind))

/-- Only the first step of a call leaves it fresh, and it changes nothing else. -/
theorem step_fresh {s t : State} {a : Act} (h : step s a = some t)
    (hfresh : (t.calls a.call).fresh = true) : s.calls a.call = .idle ∧
      t = { s.move a.call .entered with started := a.call :: s.started } := by
  have htrans := trans_of_step h
  generalize a.call = call at htrans hfresh
  generalize hpc : s.calls call = pc at htrans
  cases htrans with
  | enter => exact ⟨rfl, rfl⟩
  | _ => simp [Pc.fresh] at hfresh

section
variable {s t : State} {a : Act}

/-- The calls that have been made are the started ones. -/
theorem step_started (hw : Wf s) (h : step s a = some t) (c : CallId) :
    c ∈ t.started ↔ t.calls c ≠ .idle := by
  have hstarted := hw.started
  have htrans := trans_of_step h
  clear h
  generalize a.call = call at htrans
  generalize hpc : s.calls call = pc at htrans
  cases htrans <;> grind

/-- As long as every call is fresh nothing has happened. -/
theorem step_fresh_state (hw : Wf s) (h : step s a = some t)
    (hfresh : ∀ c, (t.calls c).fresh = true) :
    t.phase = .opened ∧ t.sessions = ∅ ∧ t.creating = ∅ := by
  obtain ⟨hidle, rfl⟩ := step_fresh h (hfresh a.call)
  apply hw.fresh
  intro c
  have hc := hfresh c
  grind

/-- `discover` is alone with the backend: no other call has a step but its first. -/
theorem step_discovering (hw : Wf s) (h : step s a = some t) (c : CallId) (rest : List String)
    (hc : t.calls c = .discovering rest) :
    t.shared = false ∧ t.phase = .opened ∧ t.creating = ∅ ∧ rest.Nodup ∧
      (∀ name ∈ rest, t.sessions.lookup name = none) ∧
      ∀ c', c' ≠ c → (t.calls c').fresh = true := by
  have hdiscovering := hw.discovering
  have hstarted := hw.started
  have hfresh := hw.fresh
  have htrans := trans_of_step h
  clear h
  generalize a.call = call at htrans
  generalize hpc : s.calls call = pc at htrans
  cases htrans <;> grind

/-- A call uses a session that it has found or published. -/
theorem step_uses (hw : Wf s) (hv : KeyedPool.Valid s.pool) (h : step s a = some t)
    (c : CallId) (plugin : String) (id : SessionId) (hc : (t.calls c).uses = some (plugin, id)) :
    id < t.count ∧ (t.heap id).plugin = plugin := by
  have huses := hw.uses
  have hlt := hv.published_lt
  have hkey := hv.published_key
  have hcreated : ∀ c p id, s.calls c = .created p id → id < s.count ∧ (s.heap id).plugin = p := by
    intro c p id hc
    exact hv.held_key c p id (by simp [State.pool, hc, Pc.role])
  simp only [State.pool] at hlt hkey
  have htrans := trans_of_step h
  clear h
  generalize a.call = call at htrans
  generalize hpc : s.calls call = pc at htrans
  cases htrans <;> grind

/-- The close of a session that a call has failed with has begun. -/
theorem step_failing (hw : Wf s) (h : step s a = some t) (c : CallId) (id : SessionId)
    (hc : (t.calls c).failing = some id) : (t.heap id).closeStarted = true := by
  have hfailing := hw.failing
  have hlt : ∀ c id, (s.calls c).failing = some id → id < s.count := by
    intro c id hc
    obtain ⟨plugin, huses⟩ := Pc.uses_of_failing hc
    exact (hw.uses c plugin id huses).1
  have htrans := trans_of_step h
  clear h
  generalize a.call = call at htrans
  generalize hpc : s.calls call = pc at htrans
  cases htrans <;> grind

end

/-- What every run keeps: of the calls, and of the pool. -/
structure Inv (s : State) : Prop where
  wf : Wf s
  valid : KeyedPool.Valid s.pool

/-- The invariant holds of a new backend. -/
theorem inv_init : Inv .init where
  wf := by
    constructor <;> simp [State.init, Pc.uses, Pc.failing]
  valid := KeyedPool.valid_init _ _

/-- A step keeps the invariant. -/
theorem Inv.step {s t : State} {a : Act} (hi : Inv s) (h : Isolated.step s a = some t) : Inv t where
  wf :=
    { started := step_started hi.wf h
      fresh := step_fresh_state hi.wf h
      discovering := step_discovering hi.wf h
      uses := step_uses hi.wf hi.valid h
      failing := step_failing hi.wf h }
  valid := by
    rcases step_pool hi.wf h with heq | hstep
    · rw [heq]
      exact hi.valid
    · exact hi.valid.step hstep

/-- The invariant holds in every run. -/
theorem inv_of_reachable {s : State} (h : backendMachine.Reachable s) : Inv s :=
  h.invariant inv_init fun _ _ _ hi _ hs => hi.step hs

end Wmfs.Isolated
