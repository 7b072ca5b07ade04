import Wmfs.Access.Exclusion

/-!
# `Wmfs.Access.Cancellation`: a reservation that leaves its wait loop with an exception

The abort path of `reserve_access` calls `_access_waiters.remove(waiter)`, which removes the
first *equal* waiter. `_AccessWaiter` is a dataclass without `eq=False`, so a waiter of
another call with the same keys is equal. When such a waiter stands earlier in the queue, the
abort removes that one: the other call waits for a grant that never comes, and the waiter of
the aborted call stays queued. When it is granted, nobody releases it.

`cancelsOnlyItself_iff` says that this is the only case: an abort cancels only its own
reservation exactly when its waiter has been granted or no earlier queued waiter has the
same accesses. It speaks about runs whose earlier aborts were all of that kind.
-/

set_option autoImplicit false

namespace Wmfs.Access

open Wmfs.Lib

/-- What an abort of `call` from `s` to `t` should do.

* `queue`: the queue loses the call's own waiter and the waiters that are granted.
* `others`: every other waiting call is queued, or granted and about to return.
* `owned`: every recorded access belongs to a live lease or to a granted waiting call. -/
structure CancelsOnlyItself (s : State) (call : CallId) (t : State) : Prop where
  queue : t.accessWaiters =
    (s.accessWaiters.erase call).filter fun other => !(t.calls other).granted
  others : ∀ other, other ≠ call → (t.calls other).pc = .waiting →
    other ∈ t.accessWaiters ∨ (t.calls other).granted = true
  owned : ∀ key, t.accessStates key = holdersState t key

/-- The step makes `call` leave its wait loop with an exception: an asynchronous one, or the
one raised after `close`. -/
def Aborts (s : State) (a : Act) (call : CallId) : Prop :=
  a = .interrupt call ∨
    (a = .wake call ∧ s.closed = true ∧ (s.calls call).granted = false)

/-- The call's waiter has been granted, or no earlier queued waiter has the same accesses. -/
def NoEqualAhead (s : State) (call : CallId) : Prop :=
  (s.calls call).granted = true ∨
    ∀ before after, s.accessWaiters = before ++ call :: after → ∀ other ∈ before,
      ¬ (s.calls other).accesses.entries.Perm (s.calls call).accesses.entries

/-- Every abort of the run has no equal waiter ahead. -/
def AbortsAlone (s : State) (a : Act) : Prop := ∀ call, Aborts s a call → NoEqualAhead s call

/-- The queue holds exactly the waiting calls that are not granted. -/
def Queued (s : State) : Prop :=
  ∀ call, call ∈ s.accessWaiters ↔
    (s.calls call).pc = .waiting ∧ (s.calls call).granted = false

/-! ### What a scan does to the queue -/

section
variable {s : State} {call : CallId}

/-- The scan leaves a call alone that is not queued. -/
theorem grantAccessWaiters_of_notMem (h : Basic s) (hnot : call ∉ s.accessWaiters) :
    call ∉ (grantAccessWaiters s).accessWaiters ∧
      (grantAccessWaiters s).calls call = s.calls call := by
  have hall := grantAccessWaiters_preserves
    (I := fun t => Basic t ∧ call ∉ t.accessWaiters ∧ t.calls call = s.calls call)
    (fun _ h => h.1) ?_ ⟨h, hnot, rfl⟩
  · exact hall.2
  · rintro t granted ⟨hbasic, hnot, hcalls⟩ _ hmem _
    have hne : call ≠ granted := by
      rintro rfl
      exact hnot hmem
    refine ⟨basic_grantOne hbasic hmem, ?_, ?_⟩
    · rw [grantOne_accessWaiters hbasic hmem]
      exact fun hin => hnot (List.mem_of_mem_erase hin)
    · rw [grantOne_calls_ne t hne]
      exact hcalls

/-- The scan removes exactly the waiters that it grants, and keeps the order. -/
theorem grantAccessWaiters_queue (h : Basic s) :
    (grantAccessWaiters s).accessWaiters =
      s.accessWaiters.filter fun other => !((grantAccessWaiters s).calls other).granted := by
  have hall := grantAccessWaiters_preserves
    (I := fun t => Basic t ∧
      t.accessWaiters = s.accessWaiters.filter fun other => !(t.calls other).granted)
    (fun _ h => h.1) ?_ ⟨h, ?_⟩
  · exact hall.2
  · rintro t granted ⟨hbasic, hqueue⟩ _ hmem _
    refine ⟨basic_grantOne hbasic hmem, ?_⟩
    rw [grantOne_accessWaiters hbasic hmem, hbasic.waiters_nodup.erase_eq_filter, hqueue,
      List.filter_filter]
    refine List.filter_congr fun other _ => ?_
    by_cases heq : other = granted
    · subst heq
      simp [grantOne_calls_self]
    · simp [grantOne_calls_ne t heq, heq]
  · symm
    rw [List.filter_eq_self]
    intro other hother
    simp [h.waiters_ungranted other hother]

/-- The scan keeps the queue exact. -/
theorem queued_grantAccessWaiters (h : Basic s) (hqueued : Queued s) :
    Queued (grantAccessWaiters s) := by
  have hall := grantAccessWaiters_preserves (I := fun t => Basic t ∧ Queued t)
    (fun _ h => h.1) ?_ ⟨h, hqueued⟩
  · exact hall.2
  · rintro t granted ⟨hbasic, hqueued⟩ _ hmem _
    refine ⟨basic_grantOne hbasic hmem, fun other => ?_⟩
    rw [grantOne_accessWaiters hbasic hmem, hbasic.waiters_nodup.mem_erase_iff]
    by_cases heq : other = granted
    · subst heq
      simp [grantOne_calls_self]
    · rw [grantOne_calls_ne t heq]
      simpa [heq] using hqueued other

/-! ### The two outcomes of an abort -/

/-- An abort of a granted call releases its accesses and scans the queue. -/
theorem abort_granted (hgranted : (s.calls call).granted = true) :
    abort s call = releaseAndGrant (s.setPc call .cancelled) (s.calls call).accesses := by
  rw [abort, if_pos hgranted]

/-- An abort of a call that is not granted removes the first equal waiter and scans. -/
theorem abort_ungranted (hungranted : (s.calls call).granted = false) {waiters : List CallId}
    (hremove : removeWaiter s.calls s.accessWaiters call = some waiters) :
    abort s call =
      grantAccessWaiters { s.setPc call .failed with accessWaiters := waiters } := by
  simp only [abort, hungranted, Bool.false_eq_true, if_false, hremove]

/-- For queued waiters, equality is equality of the accesses. -/
theorem waiterEq_eq_false_iff (h : Basic s) {other : CallId} (hne : other ≠ call)
    (hother : other ∈ s.accessWaiters) (hcall : (s.calls call).granted = false) :
    waiterEq s.calls other call = false ↔
      ¬ (s.calls other).accesses.entries.Perm (s.calls call).accesses.entries := by
  simp [waiterEq, hne, h.waiters_ungranted other hother, hcall]

/-- Without an equal waiter ahead, `remove` finds the call's own waiter. -/
theorem removesOwn_of_noEqualAhead (h : Basic s) (hqueued : Queued s)
    (hpc : (s.calls call).pc = .waiting) (hahead : NoEqualAhead s call) :
    RemovesOwn s call := by
  intro hungranted
  obtain ⟨before, after, hsplit, hbefore, -⟩ :=
    exists_split h.waiters_nodup ((hqueued call).mpr ⟨hpc, hungranted⟩)
  refine ⟨before, after, hsplit, fun other hother => ?_⟩
  have hne : other ≠ call := by
    rintro rfl
    exact hbefore hother
  have hdiffers : ¬ (s.calls other).accesses.entries.Perm (s.calls call).accesses.entries := by
    rcases hahead with hgranted | hahead
    · rw [hungranted] at hgranted
      cases hgranted
    · exact hahead before after hsplit other hother
  exact (waiterEq_eq_false_iff h hne (by simp [hsplit, hother]) hungranted).mpr hdiffers

/-- With an equal waiter ahead, `remove` takes the waiter of another call. -/
theorem exists_removed_other (h : Basic s) (hahead : ¬ NoEqualAhead s call) :
    (s.calls call).granted = false ∧ ∃ before other after,
      s.accessWaiters = before ++ other :: after ∧ other ≠ call ∧
        removeWaiter s.calls s.accessWaiters call = some (before ++ after) := by
  simp only [NoEqualAhead, not_or, not_forall, not_not, Bool.not_eq_true] at hahead
  obtain ⟨hungranted, before, after, hsplit, equal, hequal, hperm⟩ := hahead
  have hmem : equal ∈ s.accessWaiters := by simp [hsplit, hequal]
  have heq : waiterEq s.calls equal call = true := by
    simp [waiterEq, hperm, h.waiters_ungranted equal hmem, hungranted]
  have hany : s.accessWaiters.any (fun other => waiterEq s.calls other call) = true :=
    List.any_eq_true.mpr ⟨equal, hmem, heq⟩
  obtain ⟨first, earlier, later, hearlier, hfirst, hwaiters, herase⟩ :=
    List.exists_of_eraseP (p := fun other => waiterEq s.calls other call) hmem heq
  refine ⟨hungranted, earlier, first, later, hwaiters, ?_, ?_⟩
  · -- If the first equal waiter were the call's own, `equal` would stand before it.
    rintro rfl
    have hnodup := h.waiters_nodup
    rw [hsplit, List.nodup_middle, List.nodup_cons, List.mem_append, not_or] at hnodup
    obtain ⟨rfl, -, -⟩ := (List.append_cons_inj_of_notMem hnodup.1.1 hnodup.1.2).mp
      (hsplit.symm.trans hwaiters)
    exact hearlier equal hequal heq
  · rw [removeWaiter, if_pos hany, herase]

/-- With its own waiter found, an abort ends in a scan of the queue without that waiter. -/
theorem exists_abort (h : Inv s) (hpc : (s.calls call).pc = .waiting)
    (hown : RemovesOwn s call) :
    ∃ u pc, abort s call = grantAccessWaiters u ∧ Basic u ∧
      u.accessWaiters = s.accessWaiters.erase call ∧ u.calls = (s.setPc call pc).calls ∧
      pc ≠ .waiting := by
  have hold : (s.calls call).pc ≠ .idle := by simp [hpc]
  by_cases hgranted : (s.calls call).granted = true
  · obtain ⟨u, hrun, hinv, hcalls, hwaiters, -⟩ := exists_releaseAndGrant h hold
      (by simp [Call.occupies, hpc, hgranted]) (Or.inr rfl)
    refine ⟨u, .cancelled, ?_, hinv.toBasic, ?_, hcalls, by simp⟩
    · rw [abort_granted hgranted, hrun]
    · rw [hwaiters, List.erase_of_not_mem (h.not_queued hgranted)]
  · have hungranted : (s.calls call).granted = false := by simpa using hgranted
    obtain ⟨before, after, hsplit, hbefore⟩ := hown hungranted
    have hremove : removeWaiter s.calls s.accessWaiters call = some (before ++ after) := by
      rw [hsplit, removeWaiter_eq_erase hbefore]
    have hnotMem : call ∉ before := by
      have hnodup := h.waiters_nodup
      rw [hsplit, List.nodup_middle, List.nodup_cons, List.mem_append, not_or] at hnodup
      exact hnodup.1.1
    have hbasic := basic_setPc h.toBasic .failed hold (by simp)
    refine ⟨_, .failed, abort_ungranted hungranted hremove,
      hbasic.of_sublist (removeWaiter_sublist hremove), ?_, rfl, by simp⟩
    show before ++ after = s.accessWaiters.erase call
    rw [hsplit, List.erase_append_right _ hnotMem, List.erase_cons_head]

/-- An abort with no equal waiter ahead cancels only its own reservation. -/
theorem cancelsOnlyItself_of_noEqualAhead (h : Inv s) (hlive : Live s) (hqueued : Queued s)
    (hpc : (s.calls call).pc = .waiting) (hahead : NoEqualAhead s call) :
    CancelsOnlyItself s call (abort s call) ∧ Queued (abort s call) := by
  have hown := removesOwn_of_noEqualAhead h.toBasic hqueued hpc hahead
  have hliveT := live_abort h hlive hpc fun _ => hown
  obtain ⟨u, pc, hrun, hbasic, hwaiters, hcalls, hleft⟩ := exists_abort h hpc hown
  have hqueuedU : Queued u := by
    intro other
    rw [hwaiters, h.waiters_nodup.mem_erase_iff, hcalls]
    by_cases heq : other = call
    · subst heq
      simp [setPc_calls_self, hleft]
    · rw [setPc_calls_ne s pc heq]
      simpa [heq] using hqueued other
  have hqueuedT := queued_grantAccessWaiters hbasic hqueuedU
  rw [← hrun] at hqueuedT
  refine ⟨⟨?_, fun other _ hwaiting => ?_, hliveT.accessStates_eq (inv_abort h hpc)⟩, hqueuedT⟩
  · rw [hrun, ← hwaiters]
    exact grantAccessWaiters_queue hbasic
  · by_cases hgranted : ((abort s call).calls other).granted = true
    · exact Or.inr hgranted
    · exact Or.inl ((hqueuedT other).mpr ⟨hwaiting, by simpa using hgranted⟩)

/-- An abort with an equal waiter ahead strands the call of that waiter. -/
theorem not_cancelsOnlyItself (h : Basic s) (hqueued : Queued s)
    (hpc : (s.calls call).pc = .waiting) (hahead : ¬ NoEqualAhead s call) :
    ¬ CancelsOnlyItself s call (abort s call) := by
  obtain ⟨hungranted, before, other, after, hsplit, hne, hremove⟩ :=
    exists_removed_other h hahead
  have hold : (s.calls call).pc ≠ .idle := by simp [hpc]
  have hbasic := (basic_setPc h .failed hold (by simp)).of_sublist
    (removeWaiter_sublist hremove)
  have hnodup := h.waiters_nodup
  rw [hsplit, List.nodup_middle, List.nodup_cons] at hnodup
  obtain ⟨hgone, hcalls⟩ := grantAccessWaiters_of_notMem hbasic hnodup.1
  rw [← abort_ungranted hungranted hremove] at hgone hcalls
  have hother : (s.calls other).pc = .waiting ∧ (s.calls other).granted = false :=
    (hqueued other).mp (by simp [hsplit])
  have hsame : (abort s call).calls other = s.calls other := by
    rw [hcalls]
    exact setPc_calls_ne s .failed hne
  intro hcancels
  rcases hcancels.others other hne (by rw [hsame]; exact hother.1) with hmem | hgranted
  · exact hgone hmem
  · rw [hsame, hother.2] at hgranted
    cases hgranted

/-- A step of a call that is not queued, to a point at which it does not wait, keeps the
queue exact. -/
theorem queued_setPc (hqueued : Queued s) (hnot : call ∉ s.accessWaiters) {pc : CallPc}
    (hpc : pc ≠ .waiting) : Queued (s.setPc call pc) := by
  intro other
  by_cases heq : other = call
  · subst heq
    rw [setPc_calls_self]
    exact ⟨fun hmem => absurd hmem hnot, fun hwaits => absurd hwaits.1 hpc⟩
  · rw [setPc_calls_ne s pc heq]
    exact hqueued other

/-- The lease of a granted call keeps the queue exact. -/
theorem queued_leaseIfGranted (h : Basic s) (hqueued : Queued s) :
    Queued (leaseIfGranted s call) := by
  unfold leaseIfGranted
  by_cases hgranted : (s.calls call).granted = true
  · rw [if_pos hgranted]
    exact queued_setPc hqueued (h.not_queued hgranted) (by simp)
  · rw [if_neg hgranted]
    exact hqueued

/-- A call that begins keeps the queue exact when it is queued if it waits. -/
theorem queued_enter (h : Basic s) (hqueued : Queued s) (hidle : (s.calls call).pc = .idle)
    (new : Call) (hungranted : new.pc = .waiting → new.granted = false)
    {waiters : List CallId}
    (hwaiters : waiters = if new.pc = .waiting then s.accessWaiters ++ [call]
      else s.accessWaiters) :
    Queued { s with
      calls := Function.update s.calls call new
      started := s.started ++ [call]
      accessWaiters := waiters } := by
  have hnot : call ∉ s.accessWaiters := fun hmem =>
    h.not_idle call (h.waiters_started call hmem) hidle
  intro other
  show other ∈ waiters ↔ _
  rw [hwaiters]
  by_cases heq : other = call
  · subst heq
    by_cases hpc : new.pc = .waiting
    · simp [hpc, hungranted hpc]
    · simp [hpc, hnot]
  · have hsame := hqueued other
    by_cases hpc : new.pc = .waiting <;> simp [hpc, heq, hsame]

end

/-! ### Runs -/

/-- The invariant of the runs whose aborts have no equal waiter ahead. -/
theorem queued_step {s t : State} (h : Inv s) (hlive : Live s) (hqueued : Queued s) {a : Act}
    (hs : step s a = some t) (halone : AbortsAlone s a) : Queued t := by
  cases move_of_step hs with
  | refuse hidle => exact queued_enter h.toBasic hqueued hidle _ (by simp) rfl
  | noKeys hidle => exact queued_enter h.toBasic hqueued hidle _ (by simp) rfl
  | @enqueue call reads writes hidle =>
    have hinv := inv_enterWaiting h hidle reads writes
    have hexact := queued_enter h.toBasic hqueued hidle
      ⟨reads, writes, false, .waiting⟩ (fun _ => rfl) rfl
    exact queued_leaseIfGranted (basic_grantAccessWaiters hinv.toBasic)
      (queued_grantAccessWaiters hinv.toBasic hexact)
  | stale hidle => exact queued_enter h.toBasic hqueued hidle _ (by simp) rfl
  | lease hpc hgranted => exact queued_setPc hqueued (h.not_queued hgranted) (by simp)
  | rescan hpc =>
    exact queued_leaseIfGranted (basic_grantAccessWaiters h.toBasic)
      (queued_grantAccessWaiters h.toBasic hqueued)
  | @abort _ call hpc hwhy =>
    exact (cancelsOnlyItself_of_noEqualAhead h hlive hqueued hpc (halone call hwhy)).2
  | release hpc =>
    have hgranted := h.lease_granted _ (Or.inl hpc)
    exact queued_setPc hqueued (h.not_queued hgranted) (by simp)
  | releaseAgain => exact hqueued
  | @releaseAccess call hpc =>
    have hnot := h.not_queued (h.lease_granted call (Or.inr hpc))
    have hmoved : Queued (s.setPc call .released) := queued_setPc hqueued hnot (by simp)
    have hold : (s.calls call).pc ≠ .idle := by simp [hpc]
    have hbasic := basic_setPc h.toBasic .released hold (by simp)
    unfold releaseAndGrant
    simp only
    split
    · exact queued_grantAccessWaiters { hbasic with } hmoved
    · exact hmoved
  | close => exact hqueued

/-- The invariants hold along the runs whose aborts have no equal waiter ahead. -/
theorem inv_queued_of_reach {s : State} (h : accessMachine.Reach AbortsAlone s) :
    Inv s ∧ Live s ∧ Queued s := by
  refine h.invariant (I := fun s => Inv s ∧ Live s ∧ Queued s)
    ⟨inv_init, ⟨fun call hpc => ?_, fun _ call hmem => ?_⟩, fun call => ?_⟩ ?_
  · cases hpc
  · cases hmem
  · simp [accessMachine, State.init, Call.idle]
  · rintro u a v ⟨hinv, hlive, hqueued⟩ halone hs
    have hown : ∀ call, a = .interrupt call → u.closed = false → RemovesOwn u call := by
      intro call ha _
      have hpc : (u.calls call).pc = .waiting := by
        by_contra hne
        rw [ha] at hs
        simp [accessMachine, step, interrupt, hne] at hs
      exact removesOwn_of_noEqualAhead hinv.toBasic hqueued hpc (halone call (Or.inl ha))
    exact ⟨inv_step hinv hs, live_step hinv hlive hs hown, queued_step hinv hlive hqueued hs halone⟩

/-- In every run whose earlier aborts had no equal waiter ahead, the next abort cancels only
its own reservation exactly when it has no equal waiter ahead either. -/
theorem cancelsOnlyItself_iff (s t : State) (a : Act) (call : CallId)
    (h : accessMachine.Reach AbortsAlone s) (ha : Aborts s a call) (hs : step s a = some t) :
    CancelsOnlyItself s call t ↔ NoEqualAhead s call := by
  obtain ⟨hinv, hlive, hqueued⟩ := inv_queued_of_reach h
  obtain ⟨hpc, ht⟩ : (s.calls call).pc = .waiting ∧ t = abort s call := by
    rcases ha with rfl | ⟨rfl, hclosed, hungranted⟩
    · simp only [step, interrupt] at hs
      split at hs
      · cases hs
      · rename_i hpc
        cases hs
        exact ⟨by simpa using hpc, rfl⟩
    · simp only [step, wake, hclosed, hungranted] at hs
      split at hs
      · cases hs
      · rename_i hpc
        cases hs
        exact ⟨by simpa using hpc, rfl⟩
  subst ht
  constructor
  · intro hcancels
    by_contra hahead
    exact not_cancelsOnlyItself hinv.toBasic hqueued hpc hahead hcancels
  · intro hahead
    exact (cancelsOnlyItself_of_noEqualAhead hinv hlive hqueued hpc hahead).1

/-- The run in which a holder and two waiters ask for one key. -/
def threeWriters : List Act :=
  [.reserve 0 [] [⟨1, 1, 1⟩], .reserve 1 [] [⟨1, 1, 1⟩], .reserve 2 [] [⟨1, 1, 1⟩]]

/-- No step of this run is an abort. -/
theorem reach_threeWriters {s : State} (h : accessMachine.exec .init threeWriters = some s) :
    accessMachine.Reach AbortsAlone s := by
  refine Machine.Reach.exec .start (fun u a ha call habort => ?_) h
  rcases habort with rfl | ⟨rfl, -, -⟩ <;> simp [threeWriters] at ha

/-- The first of two equal waiters may be interrupted: it cancels only itself. -/
theorem cancelsOnlyItself_first_waiter :
    ∃ s t, accessMachine.Reach AbortsAlone s ∧ step s (.interrupt 1) = some t ∧
      NoEqualAhead s 1 ∧ CancelsOnlyItself s 1 t := by
  obtain ⟨s, hrun, htest⟩ := Machine.exists_of_exec (M := accessMachine) (s := .init)
    (fun s => s.accessWaiters == [1, 2] && (s.calls 1).pc == .waiting) threeWriters rfl
  simp only [Bool.and_eq_true, beq_iff_eq] at htest
  have hreach := reach_threeWriters hrun
  have hstep : step s (.interrupt 1) = some (abort s 1) := by simp [step, interrupt, htest.2]
  have hahead : NoEqualAhead s 1 := by
    refine Or.inr fun before after hsplit other hother => ?_
    rw [htest.1] at hsplit
    rcases before with _ | ⟨b, before⟩
    · cases hother
    · simp only [List.cons_append, List.cons.injEq] at hsplit
      have hmem : (1 : Nat) ∈ [2] := by rw [hsplit.2]; simp
      simp at hmem
  exact ⟨s, _, hreach, hstep, hahead,
    (cancelsOnlyItself_iff s _ _ 1 hreach (Or.inl rfl) hstep).mpr hahead⟩

/-- The second of two equal waiters is interrupted: the abort removes the waiter of the first
call, which is still waiting and not granted. -/
theorem interrupted_waiter_strands_equal :
    ∃ s t, accessMachine.Reachable s ∧ (s.calls 2).pc = .waiting ∧
      step s (.interrupt 2) = some t ∧ ¬ CancelsOnlyItself s 2 t := by
  obtain ⟨t, hrun, htest⟩ := Machine.exists_of_exec (M := accessMachine) (s := .init)
    (fun t => t.accessWaiters == [2] && (t.calls 1).pc == .waiting && !(t.calls 1).granted)
    (threeWriters ++ [.interrupt 2]) (by decide)
  rw [Machine.exec_append, Option.bind_eq_some_iff] at hrun
  obtain ⟨s, hinitial, hlast⟩ := hrun
  have hstep : step s (.interrupt 2) = some t := by
    rw [Machine.exec_cons, Option.bind_eq_some_iff] at hlast
    obtain ⟨u, hu, hend⟩ := hlast
    cases hend
    exact hu
  simp only [Bool.and_eq_true, beq_iff_eq, Bool.not_eq_true'] at htest
  obtain ⟨⟨hwaiters, hpc⟩, hungranted⟩ := htest
  refine ⟨s, t, Machine.reachable_of_exec hinitial, ?_, hstep, fun hcancels => ?_⟩
  · by_contra hne
    simp [step, interrupt, hne] at hstep
  · rcases hcancels.others 1 (by decide) hpc with hmem | hgranted
    · rw [hwaiters] at hmem
      simp at hmem
    · rw [hungranted] at hgranted
      cases hgranted

end Wmfs.Access
