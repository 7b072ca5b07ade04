import Wmfs.Isolated.Lifecycle

/-!
# `Wmfs.Isolated.Recovery`: a dead session does not stay published

A session that has been invalidated refuses every call. The call that finds this out closes the
session and raises `WorkerTransportError`, and `_evict_session` takes the session out of
`_sessions`, so that the next call starts a new worker.

All handlers on this way are for an `Exception`. When a `KeyboardInterrupt` ends the wait for the
worker, `finally` invalidates the session, and neither `_submit_invocation_direct` nor
`_invoke_plugin` handles the interrupt: the session stays in `_sessions`
(`abandoned_of_not_attended`). `Attended` is the condition under which this does not happen
(`recovers`): no call lets go of a published dead session while no other call is at work with
it. `attended_of_uninterrupted` shows that only an interrupt breaks it.
-/

set_option autoImplicit false

namespace Wmfs.Isolated

open Wmfs.Lib

/-- The session that the call is at work with. After `_evict_session` it is not. -/
def Pc.worksOn : Pc → Option SessionId
  | .acquired _ id | .running _ id _ | .unwinding _ id _ | .failed _ id | .failedClosing _ id
  | .transportFailed _ id => some id
  | _ => none

/-- The session is published, and `_begin_call` refuses it. -/
def State.Dead (s : State) (id : SessionId) : Prop :=
  s.Published id ∧ (s.heap id).usable = false

/-- With this step its call lets go of the session that it is at work with, and does not evict
it: `plugin_environment` has its result, `_begin_call` raises, the invocation returns, or
another exception than a `WorkerTransportError` leaves the session. -/
def State.letsGo (s : State) (a : Act) : Bool :=
  match s.calls a.call, a with
  | .acquired _ _, .environment _ => true
  | .acquired _ id, .begin _ => !(s.heap id).usable
  | .running _ _ .completed, .return _ => true
  | .unwinding _ id raised, .leave _ => !(raised == .exception && (s.heap id).invalidated)
  | .failedClosing _ _, .interruptClose _ => true
  | _, _ => false

/-- A call that lets go of a dead session leaves it to another call. -/
def Attended (s : State) (a : Act) : Prop :=
  s.letsGo a = true → ∀ id, (s.calls a.call).worksOn = some id → s.Dead id →
    ∃ c, c ≠ a.call ∧ (s.calls c).worksOn = some id

/-- The step is no interrupt. -/
def Uninterrupted (_ : State) : Act → Prop
  | .raise _ raised _ | .replace _ raised => raised = .exception
  | .interruptClose _ => False
  | _ => True

attribute [local grind =] Pc.worksOn Pc.holds Pc.uses Pc.failing Function.update_apply
  Session.usable AList.lookup_insert AList.lookup_insert_ne AList.lookup_erase
  AList.lookup_erase_ne AList.lookup_empty

section
variable {s t : State} {a : Act}

/-- The step of a call does not move another call. -/
theorem calls_of_ne (h : step s a = some t) {c : CallId} (hc : c ≠ a.call) :
    t.calls c = s.calls c := by
  have htrans := trans_of_step h
  generalize a.call = call at htrans hc
  generalize s.calls call = pc at htrans
  cases htrans <;> exact Function.update_of_ne hc _ _

/-- A session becomes dead through a call that is at work with it. A new session is usable. What
is closed outside of an invocation has been closed before, or is not published. -/
theorem dead_of_step (hi : Inv s) (h : step s a = some t) {id : SessionId} (hdead : t.Dead id) :
    s.Dead id ∨ (t.calls a.call).worksOn = some id := by
  have hlt : ∀ plugin id, s.sessions.lookup plugin = some id → id < s.count :=
    hi.valid.published_lt
  have hheld : ∀ c id plugin, id ∈ (s.calls c).holds → s.sessions.lookup plugin ≠ some id := by
    intro c id plugin hc
    rw [← role_held] at hc
    exact hi.valid.held_free c id hc plugin
  have hfailing := hi.wf.failing
  simp only [State.Dead, State.Published] at hdead ⊢
  have htrans := trans_of_step h
  clear h
  generalize a.call = call at htrans ⊢
  generalize hpc : s.calls call = pc at htrans
  cases htrans <;> grind

/-- A call at work with a session stays so, or lets go of it, or has evicted it. -/
theorem worksOn_of_step (hi : Inv s) (h : step s a = some t) {id : SessionId}
    (hworks : (s.calls a.call).worksOn = some id) :
    (t.calls a.call).worksOn = some id ∨ s.letsGo a = true ∨ ¬t.Published id := by
  have hkey : ∀ plugin id, s.sessions.lookup plugin = some id → (s.heap id).plugin = plugin :=
    hi.valid.published_key
  have huses := hi.wf.uses
  simp only [State.letsGo, State.Published]
  have htrans := trans_of_step h
  clear h
  generalize a.call = call at htrans hworks ⊢
  generalize hpc : s.calls call = pc at htrans hworks ⊢
  cases htrans with
  | evict plugin id' hfound =>
    have hid : id' = id := by simpa [Pc.worksOn] using hworks
    refine Or.inr (Or.inr ?_)
    rw [exists_lookup_erase]
    rintro ⟨other, hne, hother⟩
    exact hne ((hkey other id hother).symm.trans (hkey plugin id (by rw [← hid, hfound])))
  | evictOther plugin id' hfound =>
    have hid : id' = id := by simpa [Pc.worksOn] using hworks
    have hplugin := (huses call plugin id (by simp [hpc, Pc.uses, hid])).2
    refine Or.inr (Or.inr ?_)
    rintro ⟨other, hother⟩
    apply hfound
    rw [hid, ← hplugin, hkey other id hother]
    exact hother
  | _ => grind

end

/-- A dead session is attended: some call is at work with it. -/
theorem exists_worksOn {s : State} (h : backendMachine.Reach Attended s) :
    ∀ id, s.Dead id → ∃ c, (s.calls c).worksOn = some id := by
  refine Machine.Reach.invariant_of_reach
    (I := fun s => ∀ id, s.Dead id → ∃ c, (s.calls c).worksOn = some id) ?_ ?_ h
  · rintro id ⟨⟨plugin, hid⟩, -⟩
    cases hid
  · intro s a t hreach hworks hattended hs id hdead
    have hi := inv_of_reachable hreach.reachable
    rcases dead_of_step hi hs hdead with hold | hcall
    · obtain ⟨c, hc⟩ := hworks id hold
      by_cases hother : c = a.call
      · subst hother
        rcases worksOn_of_step hi hs hc with hstays | hletsGo | hevicted
        · exact ⟨_, hstays⟩
        · obtain ⟨c', hne, hc'⟩ := hattended hletsGo id hc hold
          exact ⟨c', by rw [calls_of_ne hs hne, hc']⟩
        · exact absurd hdead.1 hevicted
      · exact ⟨c, by rw [calls_of_ne hs hother, hc]⟩
    · exact ⟨a.call, hcall⟩

/-- What a call that acquires a session for the plugin meets: a session that accepts its
invocation, or none, and then it creates one or waits for the call that does. -/
def State.Serves (s : State) (c : CallId) (plugin : String) : Prop :=
  ∃ t, step s (.acquire c plugin) = some t ∧
    ((∃ id u, s.Published id ∧ t.calls c = .acquired plugin id ∧ step t (.begin c) = some u ∧
        u.calls c = .running plugin id .preparing) ∨
      t.calls c = .creating plugin ∨ t.calls c = .waiting plugin)

/-- When no call is in flight, every published session is usable, and a new call is served. -/
def State.Recovered (s : State) : Prop :=
  s.inflight = 0 →
    (∀ id, s.Published id → (s.heap id).usable = true) ∧
      ∀ c plugin, s.shared = true → s.phase = .opened → s.calls c = .entered → s.Serves c plugin

/-- A call that is at work with a session is in flight. -/
theorem inFlight_of_worksOn {pc : Pc} {id : SessionId} (h : pc.worksOn = some id) :
    pc.inFlight = true := by
  cases pc <;> simp_all [Pc.worksOn, Pc.inFlight]

/-- No call is at work when `_inflight` is zero. -/
theorem worksOn_of_inflight_zero {s : State} (hi : Inv s) (h : s.inflight = 0) (c : CallId)
    (id : SessionId) : (s.calls c).worksOn ≠ some id := by
  intro hworks
  have hflies := inFlight_of_worksOn hworks
  have hmem : c ∈ s.started := by
    rw [hi.wf.started c]
    intro hidle
    simp [hidle, Pc.worksOn] at hworks
  have hpos : 0 < s.started.countP fun c => (s.calls c).inFlight :=
    List.countP_pos_iff.mpr ⟨c, hmem, hflies⟩
  have hcount := hi.accounted.inflight
  omega

/-- A call is served when the published sessions are usable. -/
theorem serves_of_usable {s : State} (husable : ∀ id, s.Published id → (s.heap id).usable = true)
    {c : CallId} {plugin : String} (hshared : s.shared = true) (hphase : s.phase = .opened)
    (hc : s.calls c = .entered) : s.Serves c plugin := by
  have hstep : step s (.acquire c plugin) = some (s.acquire c plugin) := by
    simp [step, Act.call, hc, stepAt, hshared]
  refine ⟨_, hstep, ?_⟩
  cases hlookup : s.sessions.lookup plugin with
  | some id =>
    have hacquired : (s.acquire c plugin).calls c = .acquired plugin id := by
      simp [State.acquire, hphase, hlookup]
    have hheap : ((s.acquire c plugin).heap id).usable = true := by
      simpa [State.acquire, hphase, hlookup] using husable id ⟨plugin, hlookup⟩
    have hbegin : step (s.acquire c plugin) (.begin c) =
        some ((s.acquire c plugin).move c (.running plugin id .preparing)) := by
      simp [step, Act.call, hacquired, stepAt, hheap]
    exact Or.inl ⟨id, _, ⟨plugin, hlookup⟩, hacquired, hbegin, Function.update_self c _ _⟩
  | none =>
    by_cases hmark : plugin ∈ s.creating
    · exact Or.inr (Or.inr (by simp [State.acquire, hphase, hlookup, hmark]))
    · exact Or.inr (Or.inl (by simp [State.acquire, hphase, hlookup, hmark]))

/-- In a run in which every dead session is attended, no dead session stays published, and the
plugin recovers. -/
theorem recovers {s : State} (h : backendMachine.Reach Attended s) : s.Recovered := by
  intro hinflight
  have husable : ∀ id, s.Published id → (s.heap id).usable = true := by
    intro id hpublished
    by_contra hnot
    have hdead : s.Dead id := ⟨hpublished, by simpa using hnot⟩
    obtain ⟨c, hc⟩ := exists_worksOn h id hdead
    exact worksOn_of_inflight_zero (inv_of_reachable h.reachable) hinflight c id hc
  exact ⟨husable, fun c plugin hshared hphase hc => serves_of_usable husable hshared hphase hc⟩

/-- The sessions of the run below: the worker of the first one fails, the call evicts it, and
the next call starts a second one. -/
def replacement : List Act :=
  [.enter 0, .discover 0 ["a"], .discoverSession 0, .discovered 0, .enter 1, .acquire 1 "a",
    .begin 1, .dispatch 1, .raise 1 .exception false, .leave 1, .closeFailed 1, .failedClosed 1,
    .evict 1, .closeEvicted 1, .finish 1, .enter 2]

/-- A `KeyboardInterrupt` ends the wait for the worker, and the invocation after it is refused. -/
def interrupted : List Act :=
  [.enter 0, .discover 0 ["a"], .discoverSession 0, .discovered 0, .enter 1, .acquire 1 "a",
    .begin 1, .dispatch 1, .raise 1 .interrupt false, .leave 1, .finish 1, .enter 2]

/-- The session of the interrupted invocation stays published. Nothing is in flight, and the
next invocation of the plugin is refused. -/
theorem interrupted_not_recovered :
    ∃ s, backendMachine.Reachable s ∧ s.inflight = 0 ∧ s.Dead 0 ∧ ¬s.Recovered ∧
      (backendMachine.exec s [.acquire 2 "a", .begin 2]).map (fun t => t.calls 2) =
        some .finishing := by
  obtain ⟨s, hs, hp⟩ := Machine.exists_of_exec (M := backendMachine) (s := .init)
    (fun s => s.inflight == 0 && s.sessions.lookup "a" == some 0 && !(s.heap 0).usable &&
      (backendMachine.exec s [.acquire 2 "a", .begin 2]).map (fun t => t.calls 2) ==
        some .finishing) interrupted (by decide)
  simp only [Bool.and_eq_true, beq_iff_eq, Bool.not_eq_true'] at hp
  obtain ⟨⟨⟨hinflight, hlookup⟩, hunusable⟩, hrefused⟩ := hp
  have hdead : s.Dead 0 := ⟨⟨"a", hlookup⟩, hunusable⟩
  refine ⟨s, Machine.reachable_of_exec hs, hinflight, hdead, ?_, hrefused⟩
  intro hrecovered
  have husable := (hrecovered hinflight).1 0 hdead.1
  rw [hunusable] at husable
  cases husable

/-! ### An unattended session is lost

`Attended` is also necessary: a step that breaks it abandons a session, and until the backend
closes, every call that acquires this session is refused. -/

/-- The session is dead, and whoever is at work with it is about to be refused. -/
def State.Abandoned (s : State) (id : SessionId) : Prop :=
  s.Dead id ∧ ∀ c, (s.calls c).worksOn = some id → ∃ plugin, s.calls c = .acquired plugin id

section
variable {s t : State} {a : Act}

/-- A step that leaves a dead session to nobody abandons it. -/
theorem abandoned_of_not_attended (h : step s a = some t) (hnot : ¬Attended s a) :
    ∃ id, t.Abandoned id := by
  simp only [Attended, not_forall] at hnot
  obtain ⟨hletsGo, id, hworks, hdead, hnobody⟩ := hnot
  push Not at hnobody
  refine ⟨id, ?_⟩
  simp only [State.letsGo] at hletsGo
  simp only [State.Abandoned, State.Dead, State.Published] at hdead ⊢
  have htrans := trans_of_step h
  clear h
  generalize a.call = call at htrans hletsGo hworks hnobody
  generalize hpc : s.calls call = pc at htrans hletsGo hworks
  cases htrans <;> grind

/-- `_sessions` keeps a session until it is evicted, or until `close` takes the sessions. -/
theorem lookup_of_step (hi : Inv s) (h : step s a = some t) {plugin : String} {id : SessionId}
    (hlookup : s.sessions.lookup plugin = some id)
    (hevict : s.calls a.call ≠ .transportFailed plugin id) (hopen : ∀ c, a ≠ .snapshot c) :
    t.sessions.lookup plugin = some id := by
  have htrans := trans_of_step h
  clear h
  generalize a.call = call at htrans hevict
  generalize hpc : s.calls call = pc at htrans hevict
  cases htrans with
  | discoverSession name rest =>
    have hfree := (hi.wf.discovering call _ hpc).2.2.2.2.1 name (by simp)
    have hne : plugin ≠ name := by
      rintro rfl
      simp [hfree] at hlookup
    rw [AList.lookup_insert_ne hne, hlookup]
  | publish other id' =>
    have hmark : other ∈ s.creating :=
      (hi.valid.mem_creating other).mpr ⟨call, by simp [State.pool, hpc, Pc.role,
        KeyedPool.Role.mark]⟩
    have hfree : s.sessions.lookup other = none := hi.valid.mark_free other hmark
    have hne : plugin ≠ other := by
      rintro rfl
      simp [hfree] at hlookup
    rw [AList.lookup_insert_ne hne, hlookup]
  | evict other id' hfound =>
    have hne : plugin ≠ other := by
      rintro rfl
      rw [hlookup, Option.some.injEq] at hfound
      exact hevict (by rw [hfound])
    rw [AList.lookup_erase_ne hne, hlookup]
  | snapshot => exact absurd rfl (hopen call)
  | _ => exact hlookup

/-- A session that `_begin_call` refuses is refused for good. -/
theorem unusable_of_step (h : step s a = some t) {id : SessionId} (hid : id < s.count)
    (hunusable : (s.heap id).usable = false) : (t.heap id).usable = false := by
  have htrans := trans_of_step h
  clear h
  generalize a.call = call at htrans
  generalize s.calls call = pc at htrans
  cases htrans <;> grind

/-- An abandoned session stays abandoned until `close` takes the sessions. -/
theorem abandoned_of_step (hi : Inv s) (h : step s a = some t) {id : SessionId}
    (habandoned : s.Abandoned id) (hopen : ∀ c, a ≠ .snapshot c) : t.Abandoned id := by
  obtain ⟨⟨⟨plugin, hlookup⟩, hunusable⟩, hworks⟩ := habandoned
  have hid : id < s.count := hi.valid.published_lt plugin id hlookup
  have hevict : s.calls a.call ≠ .transportFailed plugin id := by
    intro hpc
    obtain ⟨plugin', hacquired⟩ := hworks a.call (by rw [hpc]; rfl)
    rw [hpc] at hacquired
    cases hacquired
  have hpublished := lookup_of_step hi h hlookup hevict hopen
  refine ⟨⟨⟨plugin, hpublished⟩, unusable_of_step h hid hunusable⟩, ?_⟩
  have hcreated : ∀ c p, s.calls c ≠ .created p id := by
    intro c p hc
    exact hi.valid.held_free c id (by simp [State.pool, hc, Pc.role, KeyedPool.Role.held]) plugin
      hlookup
  intro c hc
  have htrans := trans_of_step h
  clear h
  generalize a.call = call at htrans
  generalize hpc : s.calls call = pc at htrans
  cases htrans <;> grind

/-- A call that has acquired an abandoned session is refused. -/
theorem refused_of_abandoned {id : SessionId} (habandoned : s.Abandoned id) {c : CallId}
    {plugin : String} (hc : s.calls c = .acquired plugin id) :
    step s (.begin c) = some (s.move c .finishing) := by
  have hunusable := habandoned.1.2
  simp [step, Act.call, hc, stepAt, hunusable]

end

/-! ### Only an interrupt leaves a dead session behind -/

/-- The call will evict the session, unless it is interrupted. -/
def Pc.evicts : Pc → Option SessionId
  | .unwinding _ id .exception | .failed _ id | .failedClosing _ id | .transportFailed _ id =>
    some id
  | _ => none

/-- What every run keeps of the sessions that are not used yet, and of those that fail. -/
structure Orderly (s : State) : Prop where
  created : ∀ c plugin id, s.calls c = .created plugin id → (s.heap id).usable = true
  apart : ∀ c c' plugin plugin' id, (s.calls c).uses = some (plugin, id) →
    s.calls c' ≠ .created plugin' id
  failed : ∀ c plugin id, s.calls c = .failed plugin id → (s.heap id).invalidated = true
  published : ∀ plugin id, s.sessions.lookup plugin = some id →
    (s.heap id).closeStarted = true → (s.heap id).invalidated = true

section
variable {s t : State} {a : Act}

/-- A call holds the session that it has created. -/
theorem held_of_created {c : CallId} {plugin : String} {id : SessionId}
    (h : s.calls c = .created plugin id) : id ∈ (s.pool.roles c).held := by
  simp [State.pool, h, Pc.role, KeyedPool.Role.held]

/-- The session of a creating call is known to no other call. -/
theorem created_of_step (hi : Inv s) (ho : Orderly s) (h : step s a = some t) (c : CallId)
    (plugin : String) (id : SessionId) (hc : t.calls c = .created plugin id) :
    (t.heap id).usable = true := by
  have hcreated := ho.created
  have hapart := ho.apart
  have hlt : ∀ c p id, s.calls c = .created p id → id < s.count := by
    intro c p id hc
    exact hi.valid.held_lt c id (held_of_created hc)
  have hholds : ∀ c c' p id, s.calls c = .created p id → id ∈ (s.calls c').holds → c' = c := by
    intro c c' p id hc hc'
    rw [← role_held] at hc'
    exact hi.valid.held_unique c' c id hc' (held_of_created hc)
  have htrans := trans_of_step h
  clear h
  generalize a.call = call at htrans
  generalize hpc : s.calls call = pc at htrans
  cases htrans with
  | raiseInvalid plugin' id' | closeFailed plugin' id' | closeEvicted plugin' id' =>
    -- The call uses the session that it changes.
    have hne := hapart call c plugin' plugin id' (by rw [hpc]; rfl)
    grind
  | _ => grind

/-- A step keeps the sessions of two calls apart. -/
theorem apart_of_step (hi : Inv s) (ho : Orderly s) (h : step s a = some t) (c c' : CallId)
    (plugin plugin' : String) (id : SessionId) (hc : (t.calls c).uses = some (plugin, id)) :
    t.calls c' ≠ .created plugin' id := by
  have hapart := ho.apart
  have huses := hi.wf.uses
  have hfree : ∀ c p p' id, s.calls c = .created p id → s.sessions.lookup p' ≠ some id := by
    intro c p p' id hc
    exact hi.valid.held_free c id (held_of_created hc) p'
  have hunique : ∀ c c' p p' id, s.calls c = .created p id → s.calls c' = .created p' id →
      c = c' := by
    intro c c' p p' id hc hc'
    exact hi.valid.held_unique c c' id (held_of_created hc) (held_of_created hc')
  have htrans := trans_of_step h
  clear h
  generalize a.call = call at htrans
  generalize hpc : s.calls call = pc at htrans
  cases htrans <;> grind

/-- A step keeps the sessions of failed calls invalidated. -/
theorem failed_of_step (hi : Inv s) (ho : Orderly s) (h : step s a = some t) (c : CallId)
    (plugin : String) (id : SessionId) (hc : t.calls c = .failed plugin id) :
    (t.heap id).invalidated = true := by
  have hfailed := ho.failed
  have hlt : ∀ c p id, s.calls c = .failed p id → id < s.count := by
    intro c p id hc
    exact (hi.wf.uses c p id (by simp [hc, Pc.uses])).1
  have htrans := trans_of_step h
  clear h
  generalize a.call = call at htrans
  generalize hpc : s.calls call = pc at htrans
  cases htrans <;> grind

/-- A published session is closed only by a call that has found it invalidated. -/
theorem published_of_step (hi : Inv s) (ho : Orderly s) (h : step s a = some t) (plugin : String)
    (id : SessionId) (hlookup : t.sessions.lookup plugin = some id)
    (hclosed : (t.heap id).closeStarted = true) : (t.heap id).invalidated = true := by
  have hcreated := ho.created
  have hfailed := ho.failed
  have hpublished := ho.published
  have hfailing := hi.wf.failing
  have hlt : ∀ plugin id, s.sessions.lookup plugin = some id → id < s.count :=
    hi.valid.published_lt
  have hheld : ∀ c id plugin, id ∈ (s.calls c).holds → s.sessions.lookup plugin ≠ some id := by
    intro c id plugin hc
    rw [← role_held] at hc
    exact hi.valid.held_free c id hc plugin
  have htrans := trans_of_step h
  clear h
  generalize a.call = call at htrans
  generalize hpc : s.calls call = pc at htrans
  cases htrans <;> grind

end

/-- Every run is orderly. -/
theorem orderly_of_reachable {s : State} (h : backendMachine.Reachable s) : Orderly s := by
  refine Machine.Reach.invariant_of_reach ?_ ?_ h
  · constructor <;> simp [backendMachine, State.init, Pc.uses]
  · intro s a t hreach ho _ hs
    have hi := inv_of_reachable hreach
    exact ⟨created_of_step hi ho hs, apart_of_step hi ho hs, failed_of_step hi ho hs,
      published_of_step hi ho hs⟩

/-- A call that evicts a session is at work with it. -/
theorem worksOn_of_evicts {pc : Pc} {id : SessionId} (h : pc.evicts = some id) :
    pc.worksOn = some id := by
  unfold Pc.evicts at h
  split at h <;> first | exact h | cases h

/-- A dead session is invalidated. -/
theorem Orderly.invalidated {s : State} (ho : Orderly s) {id : SessionId} (h : s.Dead id) :
    (s.heap id).invalidated = true := by
  obtain ⟨⟨plugin, hlookup⟩, hunusable⟩ := h
  by_cases hclosed : (s.heap id).closeStarted = true
  · exact ho.published plugin id hlookup hclosed
  · simpa [Session.usable, hclosed] using hunusable

section
variable {s t : State} {a : Act}

/-- Without an interrupt, the call through which a session becomes dead evicts it. -/
theorem evicts_of_step (hi : Inv s) (ho : Orderly s) (hu : Uninterrupted s a)
    (h : step s a = some t) {id : SessionId} (hdead : t.Dead id) (hlive : ¬s.Dead id) :
    (t.calls a.call).evicts = some id := by
  have hworks := (dead_of_step hi h hdead).resolve_left hlive
  have hcreated := ho.created
  obtain ⟨⟨plugin, hlookup⟩, hunusable⟩ := hdead
  simp only [State.Dead, State.Published] at hlive
  have htrans := trans_of_step h
  clear h
  generalize a.call = call at htrans hworks ⊢
  generalize hpc : s.calls call = pc at htrans
  cases htrans <;> grind [Pc.evicts, Uninterrupted]

/-- Without an interrupt, a call that evicts a dead session goes on to do so. -/
theorem evicts_stays (hi : Inv s) (ho : Orderly s) (hu : Uninterrupted s a)
    (h : step s a = some t) {id : SessionId} (hdead : s.Dead id) (hpublished : t.Published id)
    (hevicts : (s.calls a.call).evicts = some id) : (t.calls a.call).evicts = some id := by
  have hinvalid := ho.invalidated hdead
  have hstays := worksOn_of_step hi h (worksOn_of_evicts hevicts)
  simp only [hpublished, not_true_eq_false, or_false, State.letsGo] at hstays
  have htrans := trans_of_step h
  clear h
  generalize a.call = call at htrans hevicts hstays ⊢
  generalize hpc : s.calls call = pc at htrans hevicts hstays
  cases htrans with
  | leave _ _ raised => cases raised <;> grind [Pc.evicts, Uninterrupted]
  | replace _ _ first => cases first <;> grind [Pc.evicts, Uninterrupted]
  | _ => grind [Pc.evicts, Uninterrupted]

end

/-- Without interrupts, every dead session has a call that evicts it. -/
theorem exists_evicts {s : State} (h : backendMachine.Reach Uninterrupted s) :
    ∀ id, s.Dead id → ∃ c, (s.calls c).evicts = some id := by
  refine Machine.Reach.invariant_of_reach
    (I := fun s => ∀ id, s.Dead id → ∃ c, (s.calls c).evicts = some id) ?_ ?_ h
  · rintro id ⟨⟨plugin, hid⟩, -⟩
    cases hid
  · intro s a t hreach hevicts hu hs id hdead
    have hi := inv_of_reachable hreach.reachable
    have ho := orderly_of_reachable hreach.reachable
    by_cases hold : s.Dead id
    · obtain ⟨c, hc⟩ := hevicts id hold
      by_cases hother : c = a.call
      · subst hother
        exact ⟨_, evicts_stays hi ho hu hs hold hdead.1 hc⟩
      · exact ⟨c, by rw [calls_of_ne hs hother, hc]⟩
    · exact ⟨a.call, evicts_of_step hi ho hu hs hdead hold⟩

/-- A step that is no interrupt leaves a dead session to the call that evicts it. -/
theorem attended_of_uninterrupted {s : State} (h : backendMachine.Reach Uninterrupted s) {a : Act}
    (hu : Uninterrupted s a) : Attended s a := by
  intro hletsGo id hworks hdead
  obtain ⟨c, hc⟩ := exists_evicts h id hdead
  refine ⟨c, ?_, worksOn_of_evicts hc⟩
  rintro rfl
  have hinvalid := (orderly_of_reachable h.reachable).invalidated hdead
  unfold State.letsGo at hletsGo
  split at hletsGo <;> simp_all [Pc.evicts, Pc.worksOn, Uninterrupted]

/-- In a run without interrupts, no dead session stays published. -/
theorem recovers_of_uninterrupted {s : State} (h : backendMachine.Reach Uninterrupted s) :
    s.Recovered :=
  recovers (h.strengthen fun _ _ hr hu => attended_of_uninterrupted hr hu)

/-- The plugin whose worker fails gets a new one. -/
theorem replacement_recovered :
    ∃ s, backendMachine.exec .init replacement = some s ∧ s.count = 1 ∧ s.Recovered := by
  obtain ⟨s, hs, hp⟩ := Machine.exists_of_exec (M := backendMachine) (s := .init)
    (fun s => s.count == 1) replacement (by decide)
  refine ⟨s, hs, by simpa using hp, recovers ?_⟩
  have hrun : backendMachine.Reach Uninterrupted s := by
    apply Machine.Reach.exec .start _ hs
    intro u
    simp [replacement, Uninterrupted]
  exact hrun.strengthen fun _ _ hr hu => attended_of_uninterrupted hr hu

end Wmfs.Isolated
