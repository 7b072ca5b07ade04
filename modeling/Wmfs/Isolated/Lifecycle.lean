import Wmfs.Isolated.Pool

/-!
# `Wmfs.Isolated.Lifecycle`: no session of an `IsolatedBackend` is lost

`State.Accounted` says where the sessions of a backend are: each is published, or has been
closed, or is held by one call that publishes or closes it next. `sessions_accounted` shows that
this holds in every run. It follows from the pool that the sessions are
(`Wmfs.Isolated.Pool`).
-/

set_option autoImplicit false

namespace Wmfs.Isolated

open Wmfs.Lib

attribute [local grind =] Function.update_apply

/-- The session is in `_sessions`. -/
def State.Published (s : State) (id : SessionId) : Prop :=
  ∃ plugin, s.sessions.lookup plugin = some id

/-- `close` has been called on the session. -/
def State.CloseCalled (s : State) (id : SessionId) : Prop := (s.heap id).closeStarted = true

/-- The plugin for which the call creates a session: its name is in `_creating`. -/
def Pc.creates : Pc → Option String
  | .creating plugin | .created plugin _ | .rejected plugin _ | .dropping plugin => some plugin
  | _ => none

/-- The sessions that only the call knows of: it has created one, or `close` has taken them out
of `_sessions`. -/
def Pc.holds : Pc → List SessionId
  | .created _ id | .rejected _ id => [id]
  | .closing ids => ids
  | _ => []

/-- The call has acquired a session or constructs a tensor, and has not yet finished. -/
def Pc.inFlight : Pc → Bool
  | .acquired _ _ | .running _ _ _ | .unwinding _ _ _ | .failed _ _ | .failedClosing _ _
  | .transportFailed _ _ | .evicted _ _ | .finishing | .constructing => true
  | _ => false

/-- The call is a `close` behind its `wait_for`. -/
def Pc.pastWait : Pc → Bool
  | .closing _ | .closeEnding => true
  | _ => false

/-- The next step of the call publishes the session or calls `close` on it. A call that would
publish it, and finds in its critical section that the backend is not open any more, calls
`close` right behind that section. -/
def State.SettlesNext (s : State) (c : CallId) (id : SessionId) : Prop :=
  (∃ a t, a.call = c ∧ step s a = some t) ∧
    ∀ a t, a.call = c → step s a = some t →
      t.Published id ∨ t.CloseCalled id ∨
        s.phase ≠ .opened ∧ ∀ a' u, a'.call = c → step t a' = some u → u.CloseCalled id

/-- No call is in flight, no call creates a session, and no session is published. -/
def State.Quiet (s : State) : Prop :=
  s.inflight = 0 ∧ s.creating = ∅ ∧
    (∀ c, (s.calls c).inFlight = false ∧ (s.calls c).creates = none) ∧ ∀ id, ¬s.Published id

/-- The sessions and the calls are accounted for.

* `published_one`, `creating_one`: a plugin has at most one published session, and at most one
  call creates a session for it.
* `kept`: no session is lost.
* `settles`: whoever holds a session is about to publish or to close it.
* `inflight`: the count of `_inflight`.
* `waited`: `close` goes on when nothing is in flight and nothing is being created.
* `closed`: what `close` leaves. -/
structure State.Accounted (s : State) : Prop where
  published_one : ∀ id id', s.Published id → s.Published id' →
    (s.heap id).plugin = (s.heap id').plugin → id = id'
  creating_one : ∀ c c' plugin, (s.calls c).creates = some plugin →
    (s.calls c').creates = some plugin → c = c'
  kept : ∀ id < s.count, s.Published id ∨ s.CloseCalled id ∨ ∃! c, id ∈ (s.calls c).holds
  settles : ∀ c id, id ∈ (s.calls c).holds → s.SettlesNext c id
  inflight : s.inflight = s.started.countP fun c => (s.calls c).inFlight
  waited : ∀ c, (s.calls c).pastWait = true → s.phase = .closing ∧ s.Quiet
  closed : s.phase = .closed → s.Quiet ∧ ∀ id < s.count, s.CloseCalled id

/-- The mark of a role. -/
theorem role_mark (pc : Pc) : pc.role.mark = pc.creates := by
  cases pc <;> rfl

/-- What a role holds. -/
theorem role_held (pc : Pc) : pc.role.held = pc.holds := by
  cases pc <;> rfl

/-- When a role is in flight. -/
theorem role_flies (pc : Pc) : pc.role.flies = pc.inFlight := by
  cases pc <;> rfl

/-- When a role has emptied the pool. -/
theorem role_empties (pc : Pc) : pc.role.empties = pc.pastWait := by
  cases pc <;> rfl

/-- A call behind the wait closes the backend. -/
theorem closes_of_pastWait {pc : Pc} (h : pc.pastWait = true) : pc.role.closes = true := by
  cases pc <;> simp_all [Pc.pastWait, Pc.role, KeyedPool.Role.closes]

/-- An emptied pool is quiet. -/
theorem quiet_of_emptied {s : State} (hv : KeyedPool.Valid s.pool) (h : s.pool.Emptied) :
    s.Quiet := by
  obtain ⟨hsessions, hcreating, hinflight⟩ := hv.emptied h
  refine ⟨hinflight, hcreating, ?_, ?_⟩
  · intro c
    have hflies := hv.flies_of_emptied h c
    have hmark := hv.mark_of_emptied h c
    simp only [State.pool, role_flies, role_mark] at hflies hmark
    exact ⟨hflies, Option.eq_none_iff_forall_ne_some.mpr hmark⟩
  · rintro id ⟨plugin, hid⟩
    have hempty : s.sessions = ∅ := hsessions
    simp [hempty] at hid

/-- The next step of a call that has to close its session. -/
theorem closeCalled_of_rejected {s t : State} {a : Act} {plugin : String} {id : SessionId}
    (hpc : s.calls a.call = .rejected plugin id) (h : step s a = some t) : t.CloseCalled id := by
  have htrans := trans_of_step h
  rw [hpc] at htrans
  generalize a.call = call at htrans
  generalize hrejected : Pc.rejected plugin id = pc at htrans
  cases htrans with
  | closeRejected plugin' id' =>
    cases hrejected
    simp [State.CloseCalled]
  | acquireClosed _ _ _ hpc' | acquireFound _ _ _ _ hpc' | acquireWait _ _ _ hpc'
  | acquireMark _ _ _ hpc' | finish _ hpc' | close _ hpc' | closeJoin _ hpc'
  | closeAgain _ hpc' => simp [← hrejected] at hpc'
  | _ => cases hrejected

/-- The steps of a call that holds a session. -/
theorem settlesNext_of_holds {s : State} {c : CallId} {id : SessionId}
    (h : id ∈ (s.calls c).holds) : s.SettlesNext c id := by
  constructor
  · cases hpc : s.calls c with
    | created plugin id' =>
      refine ⟨.publish c, ?_⟩
      by_cases hphase : s.phase = .opened <;> simp [Act.call, step, stepAt, hpc, hphase]
    | rejected plugin id' => exact ⟨.closeRejected c, by simp [Act.call, step, stepAt, hpc]⟩
    | closing ids => exact ⟨.closeAll c, by simp [Act.call, step, stepAt, hpc]⟩
    | _ => simp [hpc, Pc.holds] at h
  · intro a t hcall hstep
    have htrans := trans_of_step hstep
    rw [hcall] at htrans
    generalize hpc : s.calls c = pc at htrans h
    cases htrans with
    | publish plugin id' hphase =>
      have hid : id = id' := by simpa [Pc.holds] using h
      exact Or.inl ⟨plugin, by rw [hid]; exact AList.lookup_insert _⟩
    | reject plugin id' hphase =>
      have hid : id = id' := by simpa [Pc.holds] using h
      refine Or.inr (Or.inr ⟨hphase, ?_⟩)
      intro a' u hcall' hstep'
      have hrejected : (s.move c (.rejected plugin id')).calls a'.call = .rejected plugin id := by
        simp [hcall', hid]
      exact closeCalled_of_rejected hrejected hstep'
    | closeRejected plugin id' =>
      have hid : id = id' := by simpa [Pc.holds] using h
      exact Or.inr (Or.inl (by simp [State.CloseCalled, hid]))
    | closeAll ids =>
      have hid : id ∈ ids := h
      exact Or.inr (Or.inl (by simp [State.CloseCalled, hid]))
    | acquireClosed _ _ _ hpc' | acquireFound _ _ _ _ hpc' | acquireWait _ _ _ hpc'
    | acquireMark _ _ _ hpc' | finish _ hpc' | close _ hpc' | closeJoin _ hpc'
    | closeAgain _ hpc' => grind [Pc.holds]
    | _ => simp [Pc.holds] at h

/-- The accounts follow from what every run keeps of the pool. -/
theorem Inv.accounted {s : State} (hi : Inv s) : s.Accounted where
  published_one := by
    rintro id id' ⟨plugin, hid⟩ ⟨plugin', hid'⟩ hsame
    have hkey : (s.heap id).plugin = plugin := hi.valid.published_key plugin id hid
    have hkey' : (s.heap id').plugin = plugin' := hi.valid.published_key plugin' id' hid'
    rw [← hkey, hsame, hkey', hid'] at hid
    exact (Option.some.inj hid).symm
  creating_one c c' plugin hc hc' := by
    rw [← role_mark] at hc hc'
    exact hi.valid.mark_unique c c' plugin hc hc'
  kept id hid := by
    rcases hi.valid.settled id hid with hpublished | hclosed | ⟨c, hc⟩
    · exact Or.inl hpublished
    · exact Or.inr (Or.inl hclosed)
    · have hc'' : id ∈ (s.calls c).holds := by
        rw [← role_held]
        exact hc
      refine Or.inr (Or.inr ⟨c, hc'', ?_⟩)
      intro c' hc'
      simp only [← role_held] at hc'
      exact hi.valid.held_unique c' c id hc' hc
  settles c id hid := settlesNext_of_holds hid
  inflight := by
    have heq := hi.valid.inflight_eq
    simpa only [State.pool, role_flies] using heq
  waited c hc := by
    have hempties : (s.pool.roles c).empties = true := by
      rw [← hc]
      exact role_empties (s.calls c)
    exact ⟨hi.valid.closer_phase c (closes_of_pastWait hc),
      quiet_of_emptied hi.valid (Or.inr ⟨c, hempties⟩)⟩
  closed hphase := by
    have hquiet : s.Quiet := quiet_of_emptied hi.valid (Or.inl hphase)
    refine ⟨hquiet, ?_⟩
    intro id hid
    rcases hi.valid.settled id hid with hpublished | hclosed | ⟨c, hc⟩
    · exact absurd hpublished (hquiet.2.2.2 id)
    · exact hclosed
    · -- Who holds a session creates one, or closes the backend.
      have hcreates := (hquiet.2.2.1 c).2
      have hclosing := hi.valid.closer_phase c
      simp only [State.pool, role_held] at hc hclosing
      cases hpc : s.calls c <;> simp_all [Pc.holds, Pc.creates, Pc.role, KeyedPool.Role.closes]

/-- A call gets a session only from an open backend. -/
theorem opened_of_acquired {s t : State} {a : Act} (h : step s a = some t) {c : CallId}
    {plugin : String} {id : SessionId} (hold : s.calls c ≠ .acquired plugin id)
    (hnew : t.calls c = .acquired plugin id) : s.phase = .opened := by
  have htrans := trans_of_step h
  generalize a.call = call at htrans
  generalize s.calls call = pc at htrans
  by_contra hphase
  have hother : s.calls c = .acquired plugin id := by
    cases htrans <;> grind
  exact hold hother

/-- A backend that has left the open state does not return to it. -/
theorem opened_of_step {s t : State} {a : Act} (h : step s a = some t)
    (hphase : t.phase = .opened) : s.phase = .opened := by
  have htrans := trans_of_step h
  generalize a.call = call at htrans
  generalize s.calls call = pc at htrans
  cases htrans <;> first | exact hphase | assumption | cases hphase

/-- In every run the sessions are accounted for. No call gets a session after the backend has
left the open state, which it leaves for good. -/
theorem sessions_accounted {s : State} (h : backendMachine.Reachable s) :
    s.Accounted ∧
      (∀ a t, step s a = some t → t.phase = .opened → s.phase = .opened) ∧
      ∀ a t c plugin id, step s a = some t → s.calls c ≠ .acquired plugin id →
        t.calls c = .acquired plugin id → s.phase = .opened :=
  ⟨(inv_of_reachable h).accounted, fun _ _ hs => opened_of_step hs,
    fun _ _ _ _ _ hs => opened_of_acquired hs⟩

/-- One thread creates a session while another closes the backend: the session is closed. -/
theorem sessions_accounted_race : ∃ s, backendMachine.exec .init
    [.enter 0, .discover 0 ["a"], .discoverSession 0, .discovered 0, .enter 1, .acquire 1 "b",
      .create 1, .enter 2, .close 2, .publish 1, .closeRejected 1, .dropRejected 1, .snapshot 2,
      .closeAll 2, .closed 2] = some s ∧
    (s.count = 2 ∧ s.phase = .closed) ∧ s.Accounted := by
  obtain ⟨s, hs, hp⟩ := Machine.exists_of_exec (fun s => s.count == 2 && s.phase == .closed) _
    (show (backendMachine.exec .init
      [.enter 0, .discover 0 ["a"], .discoverSession 0, .discovered 0, .enter 1,
        .acquire 1 "b", .create 1, .enter 2, .close 2, .publish 1, .closeRejected 1,
        .dropRejected 1, .snapshot 2, .closeAll 2, .closed 2]).map _ = some true by decide)
  exact ⟨s, hs, by simpa using hp, (sessions_accounted (Machine.reachable_of_exec hs)).1⟩

end Wmfs.Isolated
