import Wmfs.Access.Exclusion

/-!
# `Wmfs.Access.Queueing`: the queue is first-come first-served and work-conserving

`_grant_access_waiters` scans the queue once and collects the keys of the waiters that it
passes over in `blocked`. A waiter that shares a key with one of them is passed over too, so
nobody is granted ahead of an earlier waiter for the same key (`noBypass`).

One scan is enough. A grant only adds holders, so a waiter that was incompatible when the
scan passed it is still incompatible at the end (`compatible_stateOf_mono`). At the end every
queued waiter conflicts with a held access or shares a key with an earlier one
(`grantScan_workConserving`). The first waiter of the queue has no earlier one. Hence a
manager on which nothing is held has an empty queue.

The results hold for every run on an open manager, also with interrupted calls.
-/

set_option autoImplicit false

namespace Wmfs.Access

open Wmfs.Lib

/-- The two calls have a key in common, for reading or writing. -/
def SharesKey (s : State) (call other : CallId) : Prop :=
  ∃ key, key ∈ (s.calls call).accesses ∧ key ∈ (s.calls other).accesses

/-- One of the call's accesses conflicts with what is held on its key. -/
def ConflictsWithHeld (s : State) (call : CallId) : Prop :=
  ∃ key writable, (s.calls call).accesses.lookup key = some writable ∧
    compatible (s.accessStates key) writable = false

/-- The waiter cannot be granted behind the waiters `before`. -/
def Stuck (s : State) (before : List CallId) (call : CallId) : Prop :=
  ConflictsWithHeld s call ∨ ∃ other ∈ before, SharesKey s call other

/-- Every waiter of the queue `waiters` is stuck behind those before it. -/
def AllStuck (s : State) (waiters : List CallId) : Prop :=
  ∀ before call after, waiters = before ++ call :: after → Stuck s before call

/-- The law of the queue in one state.

* `logged`: `grants` has an entry for every waiter that has been granted.
* `noBypass`: no waiter was granted while an earlier queued one had a key in common with it.
* `workConserving`: every queued waiter conflicts with a held access, or shares a key with an
  earlier one.
* `noDeadlock`: when nothing is held, nobody waits in the queue. -/
structure QueueLaw (s : State) : Prop where
  logged : ∀ call, (s.calls call).granted = true → (s.calls call).accesses ≠ ∅ →
    ∃ grant ∈ s.grants, grant.call = call
  noBypass : ∀ grant ∈ s.grants, ∀ other ∈ grant.ahead, ¬ SharesKey s grant.call other
  workConserving : AllStuck s s.accessWaiters
  noDeadlock : (∀ key, s.accessStates key = none) → s.accessWaiters = []

/-- The invariant of the log. The calls that it names have begun, so their keys no longer
change. -/
structure LogInv (s : State) : Prop where
  logged : ∀ call, (s.calls call).granted = true → (s.calls call).accesses ≠ ∅ →
    ∃ grant ∈ s.grants, grant.call = call
  noBypass : ∀ grant ∈ s.grants, ∀ other ∈ grant.ahead, ¬ SharesKey s grant.call other
  started : ∀ grant ∈ s.grants, grant.call ∈ s.started ∧
    ∀ other ∈ grant.ahead, other ∈ s.started

/-! ### The scan -/

/-- More holders do not make an access compatible. -/
theorem compatible_stateOf_mono {readers writers readers' writers' : Nat} {writable : Bool}
    (h : compatible (stateOf readers writers) writable = false) (hr : readers ≤ readers')
    (hw : writers ≤ writers') : compatible (stateOf readers' writers') writable = false := by
  have hsome : ¬ (readers = 0 ∧ writers = 0) := by
    rintro ⟨rfl, rfl⟩
    simp [stateOf, compatible] at h
  have hsome' : ¬ (readers' = 0 ∧ writers' = 0) := by omega
  simp only [stateOf, if_neg hsome, if_neg hsome', compatible, Bool.not_eq_false',
    Bool.or_eq_true, decide_eq_true_eq, Bool.and_eq_true, bne_iff_ne, ne_eq,
    Int.natCast_eq_zero] at h ⊢
  rcases h with hpos | ⟨hwritable, hpos⟩
  · exact Or.inl (by omega)
  · exact Or.inr ⟨hwritable, by omega⟩

section
variable {s : State} {call : CallId}

/-- A grant changes nobody's keys. -/
theorem sharesKey_grantOne (granted other : CallId) :
    SharesKey (grantOne s granted) call other ↔ SharesKey s call other := by
  simp only [SharesKey, (grantOne_calls_pc s granted call).2, (grantOne_calls_pc s granted other).2]

/-- A waiter that is stuck stays stuck when another one is granted. -/
theorem stuck_grantOne (h : Inv s) {granted : CallId} (hmem : granted ∈ s.accessWaiters)
    (hcan : canGrantAccess s.accessStates (s.calls granted).accesses = true)
    {before : List CallId} (hstuck : Stuck s before call) :
    Stuck (grantOne s granted) before call := by
  rcases hstuck with ⟨key, writable, hlookup, hconflict⟩ | ⟨other, hother, hshares⟩
  · refine Or.inl ⟨key, writable, ?_, ?_⟩
    · rw [(grantOne_calls_pc s granted call).2]
      exact hlookup
    · have hheld := held_grantOne h hmem key
      rw [h.accounted key] at hconflict
      rw [(inv_grantOne h hmem hcan).accounted key]
      exact compatible_stateOf_mono hconflict (by rw [hheld]; omega) (by rw [hheld]; omega)
  · exact Or.inr ⟨other, hother, (sharesKey_grantOne granted other).mpr hshares⟩

/-- A grant of a waiter that shares no key with those before it keeps the log in order. -/
theorem logInv_grantOne (h : Inv s) (hlog : LogInv s) {before after : List CallId}
    (hsplit : s.accessWaiters = before ++ call :: after)
    (hahead : ∀ other ∈ before, ¬ SharesKey s call other) : LogInv (grantOne s call) := by
  have hnot : call ∉ before := by
    have hnodup := h.waiters_nodup
    rw [hsplit, List.nodup_middle, List.nodup_cons, List.mem_append, not_or] at hnodup
    exact hnodup.1.1
  have htake : s.accessWaiters.takeWhile (· != call) = before := by
    rw [hsplit, List.takeWhile_append_of_pos]
    · simp
    · intro other hother
      simp only [bne_iff_ne, ne_eq]
      rintro rfl
      exact hnot hother
  have hgrants : (grantOne s call).grants = s.grants ++ [⟨call, before⟩] := by
    simp only [grantOne, htake]
  have hstarted : ∀ other ∈ s.accessWaiters, other ∈ s.started := h.waiters_started
  refine ⟨fun other hgranted hne => ?_, fun grant hgrant other hother => ?_,
    fun grant hgrant => ?_⟩
  · rw [(grantOne_calls_pc s call other).2] at hne
    by_cases heq : other = call
    · exact ⟨⟨call, before⟩, by simp [hgrants], heq.symm⟩
    · rw [grantOne_calls_ne s heq] at hgranted
      obtain ⟨grant, hgrant, hcall⟩ := hlog.logged other hgranted hne
      exact ⟨grant, by simp [hgrants, hgrant], hcall⟩
  · rw [sharesKey_grantOne]
    rw [hgrants] at hgrant
    rcases List.mem_append.mp hgrant with hold | hnew
    · exact hlog.noBypass grant hold other hother
    · obtain rfl := List.mem_singleton.mp hnew
      exact hahead other hother
  · rw [hgrants] at hgrant
    rcases List.mem_append.mp hgrant with hold | hnew
    · exact hlog.started grant hold
    · obtain rfl := List.mem_singleton.mp hnew
      exact ⟨hstarted call (by simp [hsplit]), fun other hother =>
        hstarted other (by simp [hsplit, hother])⟩

/-- The scan. The waiters `passed` are those that it left in the queue, `blocked` has their
keys, and each is stuck behind those before it. -/
theorem grantScan_workConserving : ∀ (rest : List CallId) (s : State)
    (blocked : List AccessKey) (passed : List CallId), Inv s → LogInv s →
    s.accessWaiters = passed ++ rest →
    (∀ key, key ∈ blocked ↔ ∃ call ∈ passed, key ∈ (s.calls call).accesses) →
    AllStuck s passed →
    LogInv (grantScan s blocked rest) ∧
      AllStuck (grantScan s blocked rest) (grantScan s blocked rest).accessWaiters := by
  intro rest
  induction rest with
  | nil =>
    intro s blocked passed _ hlog hwaiters _ hstuck
    refine ⟨hlog, ?_⟩
    show AllStuck s s.accessWaiters
    rw [hwaiters, List.append_nil]
    exact hstuck
  | cons call rest ih =>
    intro s blocked passed h hlog hwaiters hblocked hstuck
    simp only [grantScan]
    split
    · rename_i htest
      rw [Bool.and_eq_true, List.all_eq_true] at htest
      obtain ⟨hdisjoint, hcan⟩ := htest
      have hmem : call ∈ s.accessWaiters := by simp [hwaiters]
      have hahead : ∀ other ∈ passed, ¬ SharesKey s call other := by
        rintro other hother ⟨key, hkey, hkey'⟩
        have hfree := hdisjoint key (AList.mem_keys.mp hkey)
        simp only [decide_eq_true_eq] at hfree
        exact hfree ((hblocked key).mpr ⟨other, hother, hkey'⟩)
      refine ih (grantOne s call) blocked passed (inv_grantOne h hmem hcan)
        (logInv_grantOne h hlog hwaiters hahead) (removeWaiter_granted h.toBasic hwaiters)
        (fun key => ?_) fun before other after hsplit => ?_
      · simp only [(grantOne_calls_pc s call _).2]
        exact hblocked key
      · exact stuck_grantOne h hmem hcan (hstuck before other after hsplit)
    · rename_i htest
      refine ih s _ (passed ++ [call]) h hlog (by simp [hwaiters]) (fun key => ?_) ?_
      · simp only [List.mem_append, List.mem_singleton, hblocked, ← AList.mem_keys, or_and_right,
          exists_or, exists_eq_left]
      · -- The waiter just passed over is stuck: a blocked key, or a conflict.
        intro before other after hsplit
        rcases List.eq_nil_or_concat after with rfl | ⟨after', last, rfl⟩
        · obtain ⟨rfl, hsame⟩ := List.append_inj' hsplit rfl
          obtain rfl : call = other := by simpa using hsame
          rw [Bool.and_eq_true, not_and_or] at htest
          rcases htest with hblocks | hcannot
          · simp only [List.all_eq_true, decide_eq_true_eq, not_forall, not_not] at hblocks
            obtain ⟨key, hkey, hin⟩ := hblocks
            obtain ⟨other, hother, hkey'⟩ := (hblocked key).mp hin
            exact Or.inr ⟨other, hother, key, AList.mem_keys.mpr hkey, hkey'⟩
          · rw [canGrantAccess_iff] at hcannot
            push Not at hcannot
            obtain ⟨key, writable, hlookup, hconflict⟩ := hcannot
            exact Or.inl ⟨key, writable, hlookup, by simpa using hconflict⟩
        · have hinitial : passed = before ++ other :: after' := by
            have hcut : passed ++ [call] = (before ++ other :: after') ++ [last] := by
              simpa using hsplit
            exact (List.append_inj' hcut rfl).1
          exact hstuck before other after' hinitial

/-- `_grant_access_waiters` on an open manager leaves only stuck waiters in the queue. -/
theorem grantAccessWaiters_workConserving (h : Inv s) (hlog : LogInv s)
    (hopen : s.closed = false) :
    LogInv (grantAccessWaiters s) ∧
      AllStuck (grantAccessWaiters s) (grantAccessWaiters s).accessWaiters := by
  have hscan := grantScan_workConserving s.accessWaiters s [] [] h hlog rfl (by simp)
    (fun before call after hsplit => by simp at hsplit)
  rw [grantAccessWaiters, if_neg (by simp [hopen])]
  exact hscan

/-! ### The other parts of a critical section -/

/-- A step that keeps the keys of the queued calls, the queue and the recorded accesses keeps
every queued waiter stuck. -/
theorem AllStuck.congr (h : AllStuck s s.accessWaiters) {t : State}
    (hwaiters : t.accessWaiters = s.accessWaiters) (hstates : t.accessStates = s.accessStates)
    (hkeys : ∀ other ∈ s.accessWaiters, (t.calls other).accesses = (s.calls other).accesses) :
    AllStuck t t.accessWaiters := by
  intro before other after hsplit
  rw [hwaiters] at hsplit
  have hother := hkeys other (by simp [hsplit])
  rcases h before other after hsplit with hconflict | ⟨earlier, hearlier, hshares⟩
  · refine Or.inl ?_
    unfold ConflictsWithHeld
    rw [hother, hstates]
    exact hconflict
  · refine Or.inr ⟨earlier, hearlier, ?_⟩
    unfold SharesKey
    rw [hother, hkeys earlier (by simp [hsplit, hearlier])]
    exact hshares

/-- A step that keeps the log and the keys of the calls that have begun, and grants nothing,
keeps the log in order. -/
theorem LogInv.congr (h : LogInv s) {t : State} (hgrants : t.grants = s.grants)
    (hstarted : ∀ other ∈ s.started, other ∈ t.started)
    (hkeys : ∀ other ∈ s.started, (t.calls other).accesses = (s.calls other).accesses)
    (hgranted : ∀ other, (t.calls other).granted = true → (t.calls other).accesses ≠ ∅ →
      (s.calls other).granted = true ∧ (s.calls other).accesses ≠ ∅) : LogInv t := by
  refine ⟨fun other hflag hne => ?_, fun grant hgrant other hother => ?_,
    fun grant hgrant => ?_⟩
  · rw [hgrants]
    obtain ⟨hflag', hne'⟩ := hgranted other hflag hne
    exact h.logged other hflag' hne'
  · rw [hgrants] at hgrant
    obtain ⟨hcall, hahead⟩ := h.started grant hgrant
    unfold SharesKey
    rw [hkeys _ hcall, hkeys _ (hahead other hother)]
    exact h.noBypass grant hgrant other hother
  · rw [hgrants] at hgrant
    obtain ⟨hcall, hahead⟩ := h.started grant hgrant
    exact ⟨hstarted _ hcall, fun other hother => hstarted _ (hahead other hother)⟩

/-- A step of a call keeps the log in order. -/
theorem logInv_setPc (h : LogInv s) (call : CallId) (pc : CallPc) :
    LogInv (s.setPc call pc) := by
  refine h.congr rfl (fun _ h => h)
    (fun other _ => (setPc_calls_accesses s call other pc).1) fun other hflag hne => ?_
  obtain ⟨haccesses, hgranted⟩ := setPc_calls_accesses s call other pc
  rw [hgranted] at hflag
  rw [haccesses] at hne
  exact ⟨hflag, hne⟩

/-- A call that begins without a grant, or without keys, keeps the log in order. -/
theorem logInv_enter (h : Inv s) (hlog : LogInv s) (hidle : (s.calls call).pc = .idle)
    (new : Call) (hnew : new.granted = true → new.accesses = ∅) (waiters : List CallId) :
    LogInv { s with
      calls := Function.update s.calls call new
      started := s.started ++ [call]
      accessWaiters := waiters } := by
  have hnot : call ∉ s.started := fun hmem => h.not_idle call hmem hidle
  have hne : ∀ other ∈ s.started, other ≠ call := by
    rintro other hother rfl
    exact hnot hother
  refine hlog.congr rfl (fun other hother => List.mem_append_left _ hother)
    (fun other hother => ?_) fun other hflag hkeys => ?_
  · simp only [Function.update_of_ne (hne other hother)]
  · by_cases heq : other = call
    · subst heq
      simp only [Function.update_self] at hflag hkeys
      exact absurd (hnew hflag) hkeys
    · simp only [Function.update_of_ne heq] at hflag hkeys
      exact ⟨hflag, hkeys⟩

/-- What one critical section establishes: the log is in order and the queue is stuck. -/
def QueueInv (s : State) : Prop := LogInv s ∧ AllStuck s s.accessWaiters

/-- A step of a call keeps `QueueInv`. -/
theorem queueInv_setPc (h : QueueInv s) (pc : CallPc) : QueueInv (s.setPc call pc) :=
  ⟨logInv_setPc h.1 call pc,
    h.2.congr rfl rfl fun other _ => (setPc_calls_accesses s call other pc).1⟩

/-- The test at the end of a wait loop keeps `QueueInv`. -/
theorem queueInv_leaseIfGranted (h : QueueInv s) : QueueInv (leaseIfGranted s call) := by
  unfold leaseIfGranted
  by_cases hgranted : (s.calls call).granted = true
  · rw [if_pos hgranted]
    exact queueInv_setPc h .leased
  · rw [if_neg hgranted]
    exact h

/-- A call that returns or raises without queueing a waiter keeps `QueueInv`. -/
theorem queueInv_enter (h : Inv s) (hqueue : QueueInv s) (hidle : (s.calls call).pc = .idle)
    (new : Call) (hnew : new.granted = true → new.accesses = ∅) :
    QueueInv { s with
      calls := Function.update s.calls call new
      started := s.started ++ [call] } := by
  refine ⟨logInv_enter h hqueue.1 hidle new hnew s.accessWaiters,
    hqueue.2.congr rfl rfl fun other hother => ?_⟩
  have hne : other ≠ call := by
    rintro rfl
    exact h.not_idle other (h.waiters_started other hother) hidle
  simp only [Function.update_of_ne hne]

/-- A release ends in a scan, which establishes `QueueInv`. -/
theorem queueInv_releaseAndGrant (h : Inv s) (hlog : LogInv s) (hopen : s.closed = false)
    (hold : (s.calls call).pc ≠ .idle) (hoccupies : (s.calls call).occupies = true)
    {pc : CallPc} (hpc : pc = .released ∨ pc = .cancelled) :
    QueueInv (releaseAndGrant (s.setPc call pc) (s.calls call).accesses) := by
  obtain ⟨u, hrun, hinv, hcalls, hwaiters, hclosed, hgrants⟩ :=
    exists_releaseAndGrant h hold hoccupies hpc
  rw [hrun]
  refine grantAccessWaiters_workConserving hinv ?_ (by rw [hclosed, hopen])
  have hstarted : ∀ other ∈ s.started, other ∈ u.started := by
    intro other hother
    refine hinv.started_of_pc ?_
    rw [hcalls]
    have hbasic := basic_setPc h.toBasic pc hold (by rcases hpc with rfl | rfl <;> simp)
    exact hbasic.not_idle other hother
  refine (logInv_setPc hlog call pc).congr hgrants hstarted (fun other _ => ?_)
    fun other hflag hne => ?_
  · rw [hcalls]
  · rw [hcalls] at hflag hne
    exact ⟨hflag, hne⟩

/-- An abort keeps `QueueInv`. It ends in a scan, or in the `ValueError` of `remove`, which
leaves the queue alone. -/
theorem queueInv_abort (h : Inv s) (hqueue : QueueInv s) (hopen : s.closed = false)
    (hpc : (s.calls call).pc = .waiting) : QueueInv (abort s call) := by
  have hold : (s.calls call).pc ≠ .idle := by simp [hpc]
  unfold abort
  by_cases hgranted : (s.calls call).granted = true
  · rw [if_pos hgranted]
    exact queueInv_releaseAndGrant h hqueue.1 hopen hold
      (by simp [Call.occupies, hpc, hgranted]) (Or.inr rfl)
  · rw [if_neg hgranted]
    have hfailed : Inv (s.setPc call .failed) :=
      inv_setPc h hold (by simp) (by simp [Call.occupies, hpc]) (fun _ => Or.inr rfl) (by simp)
    rcases hremoved : removeWaiter s.calls s.accessWaiters call with _ | waiters
    · exact queueInv_setPc hqueue .failed
    · have hsub := removeWaiter_sublist hremoved
      have hlog : LogInv { s.setPc call .failed with accessWaiters := waiters } :=
        (logInv_setPc hqueue.1 call .failed).congr rfl (fun _ h => h) (fun _ _ => rfl)
          fun _ hflag hne => ⟨hflag, hne⟩
      exact grantAccessWaiters_workConserving (hfailed.of_sublist hsub) hlog hopen

end

/-! ### Runs -/

/-- The step does not close the manager. -/
def StaysOpen (_ : State) (a : Act) : Prop := a ≠ .close

/-- Every critical section of an open manager keeps `QueueInv`. -/
theorem queueInv_step {s t : State} (h : Inv s) (hqueue : QueueInv s) (hopen : s.closed = false)
    {a : Act} (ha : StaysOpen s a) (hs : step s a = some t) : QueueInv t := by
  cases move_of_step hs with
  | refuse hidle => exact queueInv_enter h hqueue hidle _ (by simp)
  | noKeys hidle => exact queueInv_enter h hqueue hidle _ (fun _ => rfl)
  | @enqueue call reads writes hidle =>
    have hinv := inv_enterWaiting h hidle reads writes
    have hlog := logInv_enter h hqueue.1 hidle ⟨reads, writes, false, .waiting⟩ (by simp)
      (s.accessWaiters ++ [call])
    exact queueInv_leaseIfGranted (grantAccessWaiters_workConserving hinv hlog hopen)
  | stale hidle => exact queueInv_enter h hqueue hidle _ (by simp)
  | lease hpc hgranted => exact queueInv_setPc hqueue .leased
  | rescan hpc =>
    exact queueInv_leaseIfGranted (grantAccessWaiters_workConserving h hqueue.1 hopen)
  | abort hpc _ => exact queueInv_abort h hqueue hopen hpc
  | release hpc => exact queueInv_setPc hqueue .releasing
  | releaseAgain => exact hqueue
  | releaseAccess hpc =>
    have hgranted := h.lease_granted _ (Or.inr hpc)
    exact queueInv_releaseAndGrant h hqueue.1 hopen (by simp [hpc])
      (by simp [Call.occupies, hpc, hgranted]) (Or.inl rfl)
  | close => exact absurd rfl ha

/-- The scan does not close the manager. -/
theorem grantScan_closed : ∀ (rest : List CallId) (s : State) (blocked : List AccessKey),
    (grantScan s blocked rest).closed = s.closed := by
  intro rest
  induction rest with
  | nil => intro s blocked; rfl
  | cons call rest ih =>
    intro s blocked
    simp only [grantScan]
    split
    · rw [ih]
      rfl
    · exact ih s _

/-- A grant does not close the manager. -/
theorem grantAccessWaiters_closed (s : State) : (grantAccessWaiters s).closed = s.closed := by
  unfold grantAccessWaiters
  split
  · rfl
  · exact grantScan_closed _ _ _

/-- A release does not close the manager. -/
theorem releaseAndGrant_closed (s : State) (accesses : Accesses) :
    (releaseAndGrant s accesses).closed = s.closed := by
  unfold releaseAndGrant
  simp only
  split
  · exact grantAccessWaiters_closed _
  · rfl

/-- An abort does not close the manager. -/
theorem abort_closed (s : State) (call : CallId) : (abort s call).closed = s.closed := by
  unfold abort
  split
  · exact releaseAndGrant_closed _ _
  · split
    · rfl
    · exact grantAccessWaiters_closed _

/-- A lease does not close the manager. -/
theorem leaseIfGranted_closed (s : State) (call : CallId) :
    (leaseIfGranted s call).closed = s.closed := by
  unfold leaseIfGranted
  split <;> rfl

/-- Only `close` closes the manager. -/
theorem closed_step {s t : State} {a : Act} (ha : StaysOpen s a) (hs : step s a = some t) :
    t.closed = s.closed := by
  cases move_of_step hs with
  | enqueue hidle => rw [leaseIfGranted_closed, grantAccessWaiters_closed]
  | rescan hpc => rw [leaseIfGranted_closed, grantAccessWaiters_closed]
  | abort hpc _ => exact abort_closed s _
  | releaseAccess hpc => exact releaseAndGrant_closed _ _
  | close => exact absurd rfl ha
  | _ => rfl

/-- The invariant of the queue holds in every run on an open manager. -/
theorem queueInv_of_reach {s : State} (h : accessMachine.Reach StaysOpen s) :
    QueueInv s := by
  have hall : Inv s ∧ s.closed = false ∧ QueueInv s := by
    refine h.invariant (I := fun s => Inv s ∧ s.closed = false ∧ QueueInv s)
      ⟨inv_init, rfl, ⟨?_, ?_, ?_⟩, ?_⟩ ?_
    · exact fun call hgranted => by cases hgranted
    · exact fun grant hgrant => by cases hgrant
    · exact fun grant hgrant => by cases hgrant
    · exact fun before call after hsplit => by simp [accessMachine, State.init] at hsplit
    · rintro u a v ⟨hinv, hopen, hqueue⟩ ha hs
      refine ⟨inv_step hinv hs, ?_, queueInv_step hinv hqueue hopen ha hs⟩
      rw [closed_step ha hs, hopen]
  exact hall.2.2

/-- Stuck waiters need somebody ahead of them or something held. -/
theorem AllStuck.eq_nil {s : State} (h : AllStuck s s.accessWaiters)
    (hnone : ∀ key, s.accessStates key = none) : s.accessWaiters = [] := by
  rcases hwaiters : s.accessWaiters with _ | ⟨call, rest⟩
  · rfl
  · rcases h [] call rest hwaiters with ⟨key, writable, -, hconflict⟩ | ⟨other, hother, -⟩
    · rw [hnone key] at hconflict
      cases hconflict
    · cases hother

/-- The law of the queue holds in every run on an open manager. In runs without asynchronous
exceptions, what is held belongs to leases, so the queue is empty whenever no lease is
outstanding and no call is about to return one. -/
theorem queueLaw_of_reach (s : State) (h : accessMachine.Reach StaysOpen s) :
    QueueLaw s ∧ (accessMachine.Reach NoInterrupt s →
      (∀ call, (s.calls call).holds = false) → s.accessWaiters = []) := by
  obtain ⟨hlog, hstuck⟩ := queueInv_of_reach h
  refine ⟨⟨hlog.logged, hlog.noBypass, hstuck, hstuck.eq_nil⟩, fun hquiet hnone => ?_⟩
  obtain ⟨hinv, hlive⟩ := inv_live_of_reach hquiet
  refine hstuck.eq_nil fun key => ?_
  rw [hlive.accessStates_eq hinv key]
  simp [holdersState, readHolders, writeHolders, hnone]

/-- A reader holds a key, a writer waits for it, and a second reader queues behind the
writer. -/
theorem queueLaw_reader_behind_writer :
    ∃ s, accessMachine.Reach StaysOpen s ∧ s.accessWaiters = [1, 2] ∧ QueueLaw s := by
  obtain ⟨s, hrun, hwaiters⟩ := Machine.exists_of_exec (M := accessMachine) (s := .init)
    (fun s => s.accessWaiters == [1, 2])
    [.reserve 0 [⟨1, 1, 1⟩] [], .reserve 1 [] [⟨1, 1, 1⟩], .reserve 2 [⟨1, 1, 1⟩] []] rfl
  have hreach : accessMachine.Reach StaysOpen s := by
    refine Machine.Reach.exec .start (fun _ a ha heq => ?_) hrun
    subst heq
    simp at ha
  exact ⟨s, hreach, by simpa using hwaiters, (queueLaw_of_reach s hreach).1⟩

end Wmfs.Access
