import Wmfs.Access.Spec

/-!
# `Wmfs.Access.Exclusion`: access leases exclude each other and are accounted for

A waiter that has been granted occupies its keys until its accesses are released. `held`
counts the occupants of a key, and `Inv` says that `_access_states` records exactly these
counts. A grant adds one occupant to each key of the call (`held_grantOne`), a release
removes it (`inv_releaseAndGrant`), and no other step changes a count. `Inv` holds in every
run.

In general an occupant need not be a live lease: an abort may leave a waiter in the queue
whose call is gone. `Live` excludes this. It holds as long as every abort on an open manager
removes its own waiter. Without asynchronous exceptions a call aborts only after `close`, so
`accessLaw_of_reach` needs no further assumption.
-/

set_option autoImplicit false

namespace Wmfs.Access

open Wmfs.Lib

/-! ### Occupants -/

/-- The waiter has been granted, and its accesses have not been released. -/
def Call.occupies (call : Call) : Bool :=
  match call.pc with
  | .released | .cancelled => false
  | _ => call.granted

/-- The call has returned a lease that is not released yet, or it is about to return one. -/
def Call.holds (call : Call) : Bool :=
  match call.pc with
  | .waiting | .leased | .releasing => call.granted
  | _ => false

/-- Whether the call occupies `key` with the given kind of access. -/
def Call.holdsKey (key : AccessKey) (writable : Bool) (call : Call) : Bool :=
  call.occupies && call.accesses.lookup key == some writable

/-- The number of occupants of `key` with the given kind of access. -/
def held (s : State) (key : AccessKey) (writable : Bool) : Nat :=
  s.started.countP fun call => (s.calls call).holdsKey key writable

/-- The entry of `_access_states` for a key with these numbers of readers and writers. -/
def stateOf (readers writers : Nat) : Option AccessState :=
  if readers = 0 ∧ writers = 0 then none else some ⟨readers, decide (0 < writers)⟩

/-- One more reader. -/
theorem recordAccess_stateOf_read (readers writers : Nat) :
    recordAccess (stateOf readers writers) false = stateOf (readers + 1) writers := by
  by_cases h : readers = 0 ∧ writers = 0
  · obtain ⟨rfl, rfl⟩ := h
    rfl
  · simp [stateOf, recordAccess, h]

/-- One more writer. -/
theorem recordAccess_stateOf_write (readers writers : Nat) :
    recordAccess (stateOf readers writers) true = stateOf readers (writers + 1) := by
  by_cases h : readers = 0 ∧ writers = 0
  · obtain ⟨rfl, rfl⟩ := h
    rfl
  · simp [stateOf, recordAccess, h]

/-- One reader less. -/
theorem dropAccess_stateOf_read (readers writers : Nat) :
    ((stateOf (readers + 1) writers).bind fun state => dropAccess state false) =
      stateOf readers writers := by
  by_cases hw : writers = 0
  · subst hw
    by_cases hr : readers = 0
    · subst hr
      rfl
    · simp [stateOf, dropAccess, hr]
  · simp [stateOf, dropAccess, hw, Nat.pos_of_ne_zero hw]

/-- The writer goes. -/
theorem dropAccess_stateOf_write (readers : Nat) :
    ((stateOf readers 1).bind fun state => dropAccess state true) = stateOf readers 0 := by
  by_cases hr : readers = 0
  · subst hr
    rfl
  · simp [stateOf, dropAccess, hr]

/-- A read is compatible with a key that has no writer. -/
theorem compatible_stateOf_read {readers writers : Nat}
    (h : compatible (stateOf readers writers) false = true) : writers = 0 := by
  by_contra hw
  simp [stateOf, compatible, hw, Nat.pos_of_ne_zero hw] at h

/-- A write is compatible with a key that has no holder. -/
theorem compatible_stateOf_write {readers writers : Nat}
    (h : compatible (stateOf readers writers) true = true) : readers = 0 ∧ writers = 0 := by
  by_contra hne
  simp [stateOf, compatible, hne] at h
  omega

/-! ### The invariant -/

/-- The invariant of all runs. -/
structure Inv (s : State) : Prop extends Basic s where
  accounted : ∀ key, s.accessStates key = stateOf (held s key false) (held s key true)
  exclusive : ∀ key, held s key true = 0 ∨ (held s key true = 1 ∧ held s key false = 0)
  waiters_pc : ∀ call ∈ s.accessWaiters,
    (s.calls call).pc = .waiting ∨ (s.calls call).pc = .failed
  lease_granted : ∀ call, (s.calls call).pc = .leased ∨ (s.calls call).pc = .releasing →
    (s.calls call).granted = true

/-- The invariant holds at the beginning. -/
theorem inv_init : Inv .init where
  started_nodup := List.nodup_nil
  idle _ _ := rfl
  not_idle _ h := by cases h
  waiters_nodup := List.nodup_nil
  waiters_started _ h := by cases h
  waiters_ungranted _ h := by cases h
  accounted _ := rfl
  exclusive _ := Or.inl rfl
  waiters_pc _ h := by cases h
  lease_granted _ h := by rcases h with h | h <;> cases h

section
variable {s : State} {call : CallId}

/-- A count after a change of one call, with the call's contributions on both sides. -/
theorem held_update (h : Basic s) (hstarted : call ∈ s.started) {t : State}
    (ht : t.started = s.started) (call' : Call)
    (hcalls : t.calls = Function.update s.calls call call') (key : AccessKey)
    (writable : Bool) :
    held t key writable + ((s.calls call).holdsKey key writable).toNat =
      held s key writable + (call'.holdsKey key writable).toNat := by
  unfold held
  rw [ht, hcalls]
  exact countP_update h.started_nodup hstarted s.calls call' (Call.holdsKey key writable)

/-- A change of one call that keeps what it holds keeps the counts. -/
theorem held_congr (h : Basic s) (hstarted : call ∈ s.started) {t : State}
    (ht : t.started = s.started) {call' : Call}
    (hcalls : t.calls = Function.update s.calls call call')
    (hholds : ∀ key writable, call'.holdsKey key writable =
      (s.calls call).holdsKey key writable) (key : AccessKey) (writable : Bool) :
    held t key writable = held s key writable := by
  have hcount := held_update h hstarted ht call' hcalls key writable
  rw [hholds] at hcount
  omega

/-- A grant adds an occupant to each key of the call. -/
theorem held_grantOne (h : Inv s) (hmem : call ∈ s.accessWaiters) (key : AccessKey)
    (writable : Bool) :
    held (grantOne s call) key writable = held s key writable +
      ((s.calls call).accesses.lookup key == some writable).toNat := by
  have hcount := held_update h.toBasic (h.waiters_started call hmem) (t := grantOne s call) rfl
    { s.calls call with granted := true } rfl key writable
  have hold : (s.calls call).holdsKey key writable = false := by
    rcases h.waiters_pc call hmem with hpc | hpc <;>
      simp [Call.holdsKey, Call.occupies, hpc, h.waiters_ungranted call hmem]
  have hnew : ({ s.calls call with granted := true } : Call).holdsKey key writable =
      ((s.calls call).accesses.lookup key == some writable) := by
    rcases h.waiters_pc call hmem with hpc | hpc <;>
      simp [Call.holdsKey, Call.occupies, hpc, Call.accesses]
  rw [hold, hnew] at hcount
  simpa using hcount

/-- A compatible grant keeps the invariant. -/
theorem inv_grantOne (h : Inv s) (hmem : call ∈ s.accessWaiters)
    (hcan : canGrantAccess s.accessStates (s.calls call).accesses = true) :
    Inv (grantOne s call) := by
  rw [canGrantAccess_iff] at hcan
  have hheld := held_grantOne h hmem
  have hkey : ∀ key, (grantOne s call).accessStates key =
      stateOf (held (grantOne s call) key false) (held (grantOne s call) key true) ∧
      (held (grantOne s call) key true = 0 ∨
        (held (grantOne s call) key true = 1 ∧ held (grantOne s call) key false = 0)) := by
    intro key
    rw [grantOne_accessStates, hheld, hheld]
    rcases hlookup : (s.calls call).accesses.lookup key with _ | writable
    · exact ⟨by simpa using h.accounted key, by simpa using h.exclusive key⟩
    · have hcompatible := hcan key writable hlookup
      rw [h.accounted key] at hcompatible ⊢
      cases writable with
      | false =>
        have hnone := compatible_stateOf_read hcompatible
        refine ⟨by simpa using recordAccess_stateOf_read _ _, Or.inl ?_⟩
        simpa using hnone
      | true =>
        obtain ⟨hr, hw⟩ := compatible_stateOf_write hcompatible
        refine ⟨by simpa using recordAccess_stateOf_write _ _, Or.inr ?_⟩
        simp [hr, hw]
  refine
    { toBasic := basic_grantOne h.toBasic hmem
      accounted := fun key => (hkey key).1
      exclusive := fun key => (hkey key).2
      waiters_pc := fun other hother => ?_
      lease_granted := fun other hpc => ?_ }
  · rw [(grantOne_calls_pc s call other).1]
    rw [grantOne_accessWaiters h.toBasic hmem] at hother
    exact h.waiters_pc other (List.mem_of_mem_erase hother)
  · by_cases heq : other = call
    · subst heq
      rw [grantOne_calls_self]
    · rw [grantOne_calls_ne s heq] at hpc ⊢
      exact h.lease_granted other hpc

/-- The scan keeps the invariant. -/
theorem inv_grantAccessWaiters (h : Inv s) : Inv (grantAccessWaiters s) :=
  grantAccessWaiters_preserves (fun _ h => h.toBasic)
    (fun _ _ h _ hmem hcan => inv_grantOne h hmem hcan) h

/-- A step of one call that keeps what it occupies keeps the invariant. A queued call may
only move to a point at which its waiter stays in the queue. -/
theorem inv_setPc (h : Inv s) {pc : CallPc} (hold : (s.calls call).pc ≠ .idle)
    (hnew : pc ≠ .idle) (hoccupies : ({ s.calls call with pc := pc } : Call).occupies =
      (s.calls call).occupies)
    (hqueue : call ∈ s.accessWaiters → pc = .waiting ∨ pc = .failed)
    (hlease : pc = .leased ∨ pc = .releasing → (s.calls call).granted = true) :
    Inv (s.setPc call pc) := by
  have hstarted := h.started_of_pc hold
  have hheld : ∀ key writable, held (s.setPc call pc) key writable = held s key writable :=
    held_congr h.toBasic hstarted rfl rfl fun key writable => by
      simp [Call.holdsKey, hoccupies, Call.accesses]
  refine
    { toBasic := basic_setPc h.toBasic pc hold hnew
      accounted := fun key => ?_
      exclusive := fun key => ?_
      waiters_pc := fun other hother => ?_
      lease_granted := fun other hpc => ?_ }
  · rw [hheld, hheld]
    exact h.accounted key
  · rw [hheld, hheld]
    exact h.exclusive key
  · by_cases heq : other = call
    · subst heq
      rw [setPc_calls_self]
      exact hqueue hother
    · rw [setPc_calls_ne s pc heq]
      exact h.waiters_pc other hother
  · by_cases heq : other = call
    · subst heq
      rw [setPc_calls_self] at hpc ⊢
      exact hlease hpc
    · rw [setPc_calls_ne s pc heq] at hpc ⊢
      exact h.lease_granted other hpc

/-- The accesses of an occupant are recorded. -/
theorem Inv.recorded (h : Inv s) (hstarted : call ∈ s.started)
    (hoccupies : (s.calls call).occupies = true) :
    ∀ key ∈ (s.calls call).accesses, s.accessStates key ≠ none := by
  intro key hkey
  obtain ⟨writable, hlookup⟩ := Option.isSome_iff_exists.mp (AList.lookup_isSome.mpr hkey)
  have hpos : 0 < held s key writable :=
    List.countP_pos_iff.mpr ⟨call, hstarted, by simp [Call.holdsKey, hoccupies, hlookup]⟩
  rw [h.accounted key, stateOf]
  cases writable with
  | false => rw [if_neg (by omega)]; simp
  | true => rw [if_neg (by omega)]; simp

/-- The release of an occupant raises nothing: it is a scan of a state in which the accesses
are dropped, and that state satisfies the invariant. -/
theorem exists_releaseAndGrant (h : Inv s) {pc : CallPc} (hold : (s.calls call).pc ≠ .idle)
    (hoccupies : (s.calls call).occupies = true) (hpc : pc = .released ∨ pc = .cancelled) :
    ∃ u, releaseAndGrant (s.setPc call pc) (s.calls call).accesses = grantAccessWaiters u ∧
      Inv u ∧ u.calls = (s.setPc call pc).calls ∧ u.accessWaiters = s.accessWaiters ∧
      u.closed = s.closed ∧ u.grants = s.grants := by
  have hnew : pc ≠ .idle := by rcases hpc with rfl | rfl <;> simp
  have hstarted := h.started_of_pc hold
  have hrecorded := h.recorded hstarted hoccupies
  have hok := releaseEntries_ok hrecorded
  have hnot : call ∉ s.accessWaiters := fun hmem => by
    rcases h.waiters_pc call hmem with hpc | hpc <;>
      simp [Call.occupies, hpc, h.waiters_ungranted call hmem] at hoccupies
  let u : State := { s.setPc call pc with
    accessStates := (releaseEntries s.accessStates (s.calls call).accesses.entries).1 }
  have hrun : releaseAndGrant (s.setPc call pc) (s.calls call).accesses =
      grantAccessWaiters u := by
    show (if (releaseEntries s.accessStates (s.calls call).accesses.entries).2 = true then
      grantAccessWaiters u else u) = _
    rw [if_pos hok]
  have hheld : ∀ key writable, held u key writable +
      ((s.calls call).accesses.lookup key == some writable).toNat = held s key writable := by
    intro key writable
    have hcount := held_update h.toBasic hstarted (t := u) rfl
      { s.calls call with pc := pc } rfl key writable
    have hbefore : (s.calls call).holdsKey key writable =
        ((s.calls call).accesses.lookup key == some writable) := by
      simp [Call.holdsKey, hoccupies]
    have hafter : ({ s.calls call with pc := pc } : Call).holdsKey key writable = false := by
      rcases hpc with rfl | rfl <;> simp [Call.holdsKey, Call.occupies]
    rw [hbefore, hafter] at hcount
    simpa using hcount
  have hkey : ∀ key, u.accessStates key = stateOf (held u key false) (held u key true) ∧
      (held u key true = 0 ∨ (held u key true = 1 ∧ held u key false = 0)) := by
    intro key
    have hread := hheld key false
    have hwrite := hheld key true
    have hexclusive := h.exclusive key
    show (releaseEntries s.accessStates (s.calls call).accesses.entries).1 key = _ ∧ _
    rw [releaseEntries_apply hrecorded, h.accounted key]
    rcases hlookup : (s.calls call).accesses.lookup key with _ | writable
    · simp [hlookup] at hread hwrite
      rw [hread, hwrite]
      exact ⟨rfl, hexclusive⟩
    · cases writable with
      | false =>
        simp [hlookup] at hread hwrite
        rw [← hread, ← hwrite] at hexclusive ⊢
        refine ⟨dropAccess_stateOf_read _ _, ?_⟩
        omega
      | true =>
        simp [hlookup] at hread hwrite
        have hone : held s key true = 1 := by omega
        have hzero : held u key true = 0 := by omega
        rw [hread, hone, hzero]
        exact ⟨dropAccess_stateOf_write _, Or.inl rfl⟩
  refine ⟨u, hrun, ?_, rfl, rfl, rfl, rfl⟩
  refine
    { toBasic := { basic_setPc h.toBasic pc hold hnew with }
      accounted := fun key => (hkey key).1
      exclusive := fun key => (hkey key).2
      waiters_pc := fun other hother => ?_
      lease_granted := fun other hlease => ?_ }
  · have hne : other ≠ call := by
      rintro rfl
      exact hnot hother
    show ((s.setPc call pc).calls other).pc = .waiting ∨
      ((s.setPc call pc).calls other).pc = .failed
    rw [setPc_calls_ne s pc hne]
    exact h.waiters_pc other hother
  · change ((s.setPc call pc).calls other).pc = .leased ∨
      ((s.setPc call pc).calls other).pc = .releasing at hlease
    show ((s.setPc call pc).calls other).granted = true
    by_cases heq : other = call
    · subst heq
      rw [setPc_calls_self] at hlease
      rcases hpc with rfl | rfl <;> simp at hlease
    · rw [setPc_calls_ne s pc heq] at hlease ⊢
      exact h.lease_granted other hlease

/-- The release of an occupant keeps the invariant. -/
theorem inv_releaseAndGrant (h : Inv s) {pc : CallPc} (hold : (s.calls call).pc ≠ .idle)
    (hoccupies : (s.calls call).occupies = true) (hpc : pc = .released ∨ pc = .cancelled) :
    Inv (releaseAndGrant (s.setPc call pc) (s.calls call).accesses) := by
  obtain ⟨u, hrun, hinv, -⟩ := exists_releaseAndGrant h hold hoccupies hpc
  rw [hrun]
  exact inv_grantAccessWaiters hinv

/-- A shorter queue keeps the invariant. -/
theorem Inv.of_sublist (h : Inv s) {waiters : List CallId}
    (hsub : waiters.Sublist s.accessWaiters) : Inv { s with accessWaiters := waiters } :=
  { toBasic := h.toBasic.of_sublist hsub
    accounted := h.accounted
    exclusive := h.exclusive
    waiters_pc := fun other hother => h.waiters_pc other (hsub.subset hother)
    lease_granted := h.lease_granted }

/-- The abort of a waiting call keeps the invariant. -/
theorem inv_abort (h : Inv s) (hpc : (s.calls call).pc = .waiting) : Inv (abort s call) := by
  have hold : (s.calls call).pc ≠ .idle := by simp [hpc]
  unfold abort
  by_cases hgranted : (s.calls call).granted = true
  · rw [if_pos hgranted]
    exact inv_releaseAndGrant h hold (by simp [Call.occupies, hpc, hgranted]) (Or.inr rfl)
  · rw [if_neg hgranted]
    have hfailed : Inv (s.setPc call .failed) :=
      inv_setPc h hold (by simp) (by simp [Call.occupies, hpc]) (fun _ => Or.inr rfl)
        (by simp)
    rcases hremoved : removeWaiter s.calls s.accessWaiters call with _ | waiters
    · exact hfailed
    · exact inv_grantAccessWaiters (hfailed.of_sublist (removeWaiter_sublist hremoved))

/-- The lease of a granted call keeps the invariant. -/
theorem inv_leaseIfGranted (h : Inv s) (hpc : (s.calls call).pc = .waiting) :
    Inv (leaseIfGranted s call) := by
  unfold leaseIfGranted
  by_cases hgranted : (s.calls call).granted = true
  · rw [if_pos hgranted]
    refine inv_setPc h (by simp [hpc]) (by simp) (by simp [Call.occupies, hpc, hgranted]) ?_
      (fun _ => hgranted)
    exact fun hmem => absurd hmem (h.not_queued hgranted)
  · rw [if_neg hgranted]
    exact h

/-- The scan moves no call. -/
theorem grantAccessWaiters_pc (h : Basic s) (other : CallId) :
    ((grantAccessWaiters s).calls other).pc = (s.calls other).pc := by
  have hboth : Basic (grantAccessWaiters s) ∧
      ((grantAccessWaiters s).calls other).pc = (s.calls other).pc :=
    grantAccessWaiters_preserves
      (I := fun t => Basic t ∧ (t.calls other).pc = (s.calls other).pc) (fun _ h => h.1)
      (fun t granted ht _ hmem _ =>
        ⟨basic_grantOne ht.1 hmem, (grantOne_calls_pc t granted other).1.trans ht.2⟩)
      ⟨h, rfl⟩
  exact hboth.2

/-- A call that begins without occupying anything keeps the invariant. -/
theorem inv_enter (h : Inv s) (hidle : (s.calls call).pc = .idle) (new : Call)
    (hpc : new.pc ≠ .idle) (hnone : ∀ key writable, new.holdsKey key writable = false)
    (hlease : new.pc = .leased ∨ new.pc = .releasing → new.granted = true) :
    Inv { s with calls := Function.update s.calls call new, started := s.started ++ [call] } := by
  have hnot : call ∉ s.started := fun hmem => h.not_idle call hmem hidle
  have hheld : ∀ key writable, held { s with
      calls := Function.update s.calls call new
      started := s.started ++ [call] } key writable = held s key writable := by
    intro key writable
    have hself : Function.update s.calls call new call = new := Function.update_self ..
    simp only [held, List.countP_append, List.countP_singleton, hself, hnone]
    exact countP_update_of_notMem hnot s.calls new (Call.holdsKey key writable)
  have hne : ∀ other ∈ s.accessWaiters, other ≠ call := by
    rintro other hother rfl
    exact hnot (h.waiters_started other hother)
  refine
    { started_nodup := by simpa using h.started_nodup.concat hnot
      idle := fun other hother => ?_
      not_idle := fun other hother => ?_
      waiters_nodup := h.waiters_nodup
      waiters_started := fun other hother =>
        List.mem_append_left _ (h.waiters_started other hother)
      waiters_ungranted := fun other hother => ?_
      accounted := fun key => ?_
      exclusive := fun key => ?_
      waiters_pc := fun other hother => ?_
      lease_granted := fun other hother => ?_ }
  · simp only [List.mem_append, List.mem_singleton, not_or] at hother
    simp only [Function.update_of_ne hother.2]
    exact h.idle other hother.1
  · by_cases heq : other = call
    · subst heq
      simpa using hpc
    · simp only [Function.update_of_ne heq]
      simp only [List.mem_append, List.mem_singleton, heq, or_false] at hother
      exact h.not_idle other hother
  · simp only [Function.update_of_ne (hne other hother)]
    exact h.waiters_ungranted other hother
  · rw [hheld, hheld]
    exact h.accounted key
  · rw [hheld, hheld]
    exact h.exclusive key
  · simp only [Function.update_of_ne (hne other hother)]
    exact h.waiters_pc other hother
  · by_cases heq : other = call
    · subst heq
      simp only [Function.update_self] at hother ⊢
      exact hlease hother
    · simp only [Function.update_of_ne heq] at hother ⊢
      exact h.lease_granted other hother

/-- A waiting call that is not granted may be queued. -/
theorem inv_enqueue (call : CallId) (h : Inv s) (hpc : (s.calls call).pc = .waiting)
    (hungranted : (s.calls call).granted = false) (hnot : call ∉ s.accessWaiters) :
    Inv { s with accessWaiters := s.accessWaiters ++ [call] } := by
  have hold : (s.calls call).pc ≠ .idle := by simp [hpc]
  have hstarted := h.started_of_pc hold
  refine
    { started_nodup := h.started_nodup
      idle := h.idle
      not_idle := h.not_idle
      waiters_nodup := by simpa using h.waiters_nodup.concat hnot
      waiters_started := fun other hother => ?_
      waiters_ungranted := fun other hother => ?_
      accounted := h.accounted
      exclusive := h.exclusive
      waiters_pc := fun other hother => ?_
      lease_granted := h.lease_granted }
  · rcases List.mem_append.mp hother with hold | hnew
    · exact h.waiters_started other hold
    · rw [List.mem_singleton.mp hnew]
      exact hstarted
  · rcases List.mem_append.mp hother with hold | hnew
    · exact h.waiters_ungranted other hold
    · rw [List.mem_singleton.mp hnew]
      exact hungranted
  · rcases List.mem_append.mp hother with hold | hnew
    · exact h.waiters_pc other hold
    · rw [List.mem_singleton.mp hnew]
      exact Or.inl hpc

/-- A call that begins and waits, with its waiter at the end of the queue. -/
theorem inv_enterWaiting (h : Inv s) (hidle : (s.calls call).pc = .idle)
    (reads writes : List AccessKey) :
    Inv { s with
      calls := Function.update s.calls call ⟨reads, writes, false, .waiting⟩
      started := s.started ++ [call]
      accessWaiters := s.accessWaiters ++ [call] } := by
  have hnot : call ∉ s.accessWaiters := fun hmem =>
    h.not_idle call (h.waiters_started call hmem) hidle
  have hentered := inv_enter h hidle ⟨reads, writes, false, .waiting⟩ (by simp)
    (fun key writable => by simp [Call.holdsKey, Call.occupies]) (by simp)
  exact inv_enqueue call hentered (by simp) (by simp) hnot

end

/-- Every step keeps the invariant. -/
theorem inv_step {s t : State} (h : Inv s) {a : Act} (hs : step s a = some t) : Inv t := by
  -- A call that raises at once, or that has no keys, occupies nothing.
  have hnone : ∀ (new : Call), new.accesses = ∅ ∨ new.granted = false →
      ∀ key writable, new.holdsKey key writable = false := by
    intro new hnew key writable
    rcases hnew with hempty | hungranted
    · simp [Call.holdsKey, hempty]
    · unfold Call.holdsKey Call.occupies
      split <;> simp [hungranted]
  cases move_of_step hs with
  | refuse hidle => exact inv_enter h hidle _ (by simp) (hnone _ (Or.inr rfl)) (by simp)
  | noKeys hidle => exact inv_enter h hidle _ (by simp) (hnone _ (Or.inl rfl)) (by simp)
  | @enqueue call reads writes hidle =>
    have hqueued := inv_enterWaiting h hidle reads writes
    refine inv_leaseIfGranted (inv_grantAccessWaiters hqueued) ?_
    rw [grantAccessWaiters_pc hqueued.toBasic]
    simp
  | stale hidle => exact inv_enter h hidle _ (by simp) (hnone _ (Or.inr rfl)) (by simp)
  | lease hpc hgranted =>
    have hlease := inv_leaseIfGranted h hpc
    rwa [leaseIfGranted, if_pos hgranted] at hlease
  | rescan hpc =>
    refine inv_leaseIfGranted (inv_grantAccessWaiters h) ?_
    rw [grantAccessWaiters_pc h.toBasic, hpc]
  | abort hpc _ => exact inv_abort h hpc
  | release hpc =>
    have hgranted := h.lease_granted _ (Or.inl hpc)
    exact inv_setPc h (by simp [hpc]) (by simp) (by simp [Call.occupies, hpc, hgranted])
      (fun hmem => absurd hmem (h.not_queued hgranted)) (fun _ => hgranted)
  | releaseAgain => exact h
  | releaseAccess hpc =>
    have hgranted := h.lease_granted _ (Or.inr hpc)
    exact inv_releaseAndGrant h (by simp [hpc]) (by simp [Call.occupies, hpc, hgranted])
      (Or.inl rfl)
  | close => exact { h with }

/-- The invariant holds in every reachable state. -/
theorem inv_of_reachable {s : State} (h : accessMachine.Reachable s) : Inv s :=
  h.invariant (I := Inv) inv_init fun _ _ _ hinv _ hs => inv_step hinv hs

/-! ### Occupants that are live leases -/

/-- Every occupant is live: a call that raised without a grant is never granted later, because
the queue of an open manager holds only waiting calls. -/
structure Live (s : State) : Prop where
  failed : ∀ call, (s.calls call).pc = .failed → (s.calls call).granted = false
  waiting : s.closed = false → ∀ call ∈ s.accessWaiters, (s.calls call).pc = .waiting

section
variable {s : State} {call : CallId}

/-- In a live state the occupants are the holders. -/
theorem Live.occupies_eq_holds (h : Live s) (hinv : Inv s) (call : CallId) :
    (s.calls call).occupies = (s.calls call).holds := by
  rcases hpc : (s.calls call).pc with _ | _ | _ | _ | _ | _ | _
  case idle =>
    have hnot : call ∉ s.started := fun hmem => hinv.not_idle call hmem hpc
    rw [hinv.idle call hnot]
    rfl
  case failed => simp [Call.occupies, Call.holds, hpc, h.failed call hpc]
  all_goals simp [Call.occupies, Call.holds, hpc]

/-- The scan keeps a live state live. -/
theorem live_grantAccessWaiters (hinv : Inv s) (h : Live s) : Live (grantAccessWaiters s) := by
  have hall := grantAccessWaiters_preserves (I := fun t => Inv t ∧ Live t)
    (fun _ h => h.1.toBasic) ?_ ⟨hinv, h⟩
  · exact hall.2
  · rintro t granted ⟨hinv, hlive⟩ hopen hmem hcan
    refine ⟨inv_grantOne hinv hmem hcan, fun other hpc => ?_, fun _ other hother => ?_⟩
    · rw [(grantOne_calls_pc t granted other).1] at hpc
      have hne : other ≠ granted := by
        rintro rfl
        rw [hlive.waiting hopen other hmem] at hpc
        cases hpc
      rw [grantOne_calls_ne t hne]
      exact hlive.failed other hpc
    · rw [grantOne_accessWaiters hinv.toBasic hmem] at hother
      rw [(grantOne_calls_pc t granted other).1]
      exact hlive.waiting hopen other (List.mem_of_mem_erase hother)

/-- A step of a call that is not queued keeps a live state live. -/
theorem live_setPc (h : Live s) {pc : CallPc}
    (hfailed : pc = .failed → (s.calls call).granted = false)
    (hqueue : s.closed = false → call ∉ s.accessWaiters) : Live (s.setPc call pc) := by
  refine ⟨fun other hpc => ?_, fun hopen other hother => ?_⟩
  · by_cases heq : other = call
    · subst heq
      rw [setPc_calls_self] at hpc ⊢
      exact hfailed hpc
    · rw [setPc_calls_ne s pc heq] at hpc ⊢
      exact h.failed other hpc
  · have hne : other ≠ call := by
      rintro rfl
      exact hqueue hopen hother
    rw [setPc_calls_ne s pc hne]
    exact h.waiting hopen other hother

/-- The lease of a granted call keeps a live state live. -/
theorem live_leaseIfGranted (hinv : Inv s) (h : Live s) : Live (leaseIfGranted s call) := by
  unfold leaseIfGranted
  by_cases hgranted : (s.calls call).granted = true
  · rw [if_pos hgranted]
    exact live_setPc h (by simp) fun _ => hinv.not_queued hgranted
  · rw [if_neg hgranted]
    exact h

/-- The release of a granted call keeps a live state live. -/
theorem live_releaseAndGrant (hinv : Inv s) (h : Live s) (hold : (s.calls call).pc ≠ .idle)
    {pc : CallPc} (hgranted : (s.calls call).granted = true)
    (hoccupies : (s.calls call).occupies = true) (hpc : pc = .released ∨ pc = .cancelled) :
    Live (releaseAndGrant (s.setPc call pc) (s.calls call).accesses) := by
  obtain ⟨u, hrun, hinvU, hcalls, hwaiters, hclosed, -⟩ :=
    exists_releaseAndGrant hinv hold hoccupies hpc
  have hmoved : Live (s.setPc call pc) := by
    refine live_setPc h ?_ fun _ => hinv.not_queued hgranted
    rcases hpc with rfl | rfl <;> simp
  rw [hrun]
  refine live_grantAccessWaiters hinvU ⟨?_, ?_⟩
  · rw [hcalls]
    exact hmoved.failed
  · rw [hcalls, hwaiters, hclosed]
    exact hmoved.waiting

/-- The call is granted, or it stands in the queue and no earlier waiter equals it. -/
def RemovesOwn (s : State) (call : CallId) : Prop :=
  (s.calls call).granted = false →
    ∃ before after, s.accessWaiters = before ++ call :: after ∧
      ∀ other ∈ before, waiterEq s.calls other call = false

/-- The abort of a waiting call keeps a live state live when it removes its own waiter, or
when the manager is closed. -/
theorem live_abort (hinv : Inv s) (h : Live s) (hpc : (s.calls call).pc = .waiting)
    (hown : s.closed = false → RemovesOwn s call) : Live (abort s call) := by
  have hold : (s.calls call).pc ≠ .idle := by simp [hpc]
  unfold abort
  by_cases hgranted : (s.calls call).granted = true
  · rw [if_pos hgranted]
    exact live_releaseAndGrant hinv h hold hgranted (by simp [Call.occupies, hpc, hgranted])
      (Or.inr rfl)
  · rw [if_neg hgranted]
    have hungranted : (s.calls call).granted = false := by simpa using hgranted
    have hfailed : Inv (s.setPc call .failed) :=
      inv_setPc hinv hold (by simp) (by simp [Call.occupies, hpc]) (fun _ => Or.inr rfl)
        (by simp)
    -- On an open manager the queue afterwards does not hold the call.
    have hlive : ∀ waiters, waiters.Sublist s.accessWaiters →
        (s.closed = false → call ∉ waiters) →
        Live { s.setPc call .failed with accessWaiters := waiters } := by
      intro waiters hsub hnot
      refine live_setPc (s := { s with accessWaiters := waiters })
        ⟨h.failed, fun hopen other hother => h.waiting hopen other (hsub.subset hother)⟩
        (fun _ => hungranted) hnot
    rcases hremoved : removeWaiter s.calls s.accessWaiters call with _ | waiters
    · refine hlive s.accessWaiters (List.Sublist.refl _) fun hopen => ?_
      obtain ⟨before, after, hsplit, hbefore⟩ := hown hopen hungranted
      rw [hsplit, removeWaiter_eq_erase hbefore] at hremoved
      cases hremoved
    · have hsub := removeWaiter_sublist hremoved
      refine live_grantAccessWaiters (hfailed.of_sublist hsub) (hlive waiters hsub fun hopen => ?_)
      obtain ⟨before, after, hsplit, hbefore⟩ := hown hopen hungranted
      have hnodup := hinv.waiters_nodup
      rw [hsplit, removeWaiter_eq_erase hbefore] at hremoved
      cases hremoved
      rw [hsplit, List.nodup_middle, List.nodup_cons] at hnodup
      exact hnodup.1

/-- A call that begins keeps a live state live, queued or not. -/
theorem live_enter (hinv : Inv s) (h : Live s) (hidle : (s.calls call).pc = .idle) (new : Call)
    (hfailed : new.pc = .failed → new.granted = false) {waiters : List CallId}
    (hwaiters : ∀ other ∈ waiters, other ∈ s.accessWaiters ∨
      (other = call ∧ new.pc = .waiting)) :
    Live { s with
      calls := Function.update s.calls call new
      started := s.started ++ [call]
      accessWaiters := waiters } := by
  refine ⟨fun other hpc => ?_, fun hopen other hother => ?_⟩
  · by_cases heq : other = call
    · subst heq
      simp only [Function.update_self] at hpc ⊢
      exact hfailed hpc
    · simp only [Function.update_of_ne heq] at hpc ⊢
      exact h.failed other hpc
  · rcases hwaiters other hother with hold | ⟨rfl, hpc⟩
    · have hne : other ≠ call := by
        rintro rfl
        exact hinv.not_idle other (hinv.waiters_started other hold) hidle
      simp only [Function.update_of_ne hne]
      exact h.waiting hopen other hold
    · simpa using hpc

end

/-- A step keeps a live state live when an abort on an open manager removes its own waiter. -/
theorem live_step {s t : State} (hinv : Inv s) (h : Live s) {a : Act} (hs : step s a = some t)
    (hown : ∀ call, a = .interrupt call → s.closed = false → RemovesOwn s call) : Live t := by
  cases move_of_step hs with
  | refuse hidle => exact live_enter hinv h hidle _ (by simp) fun _ hother => Or.inl hother
  | noKeys hidle => exact live_enter hinv h hidle _ (by simp) fun _ hother => Or.inl hother
  | @enqueue call reads writes hidle =>
    have hqueued := inv_enterWaiting hinv hidle reads writes
    refine live_leaseIfGranted (inv_grantAccessWaiters hqueued)
      (live_grantAccessWaiters hqueued (live_enter hinv h hidle _ (by simp) ?_))
    intro other hother
    rcases List.mem_append.mp hother with hold | hnew
    · exact Or.inl hold
    · exact Or.inr ⟨List.mem_singleton.mp hnew, rfl⟩
  | stale hidle => exact live_enter hinv h hidle _ (by simp) fun _ hother => Or.inl hother
  | lease hpc hgranted => exact live_setPc h (by simp) fun _ => hinv.not_queued hgranted
  | rescan hpc =>
    exact live_leaseIfGranted (inv_grantAccessWaiters hinv) (live_grantAccessWaiters hinv h)
  | @abort _ call hpc hwhy =>
    -- The call raises because the manager is closed, or it is interrupted.
    refine live_abort hinv h hpc fun hopen => ?_
    rcases hwhy with hinterrupt | ⟨-, hclosed, -⟩
    · exact hown call hinterrupt hopen
    · rw [hopen] at hclosed
      cases hclosed
  | release hpc =>
    have hgranted := hinv.lease_granted _ (Or.inl hpc)
    exact live_setPc h (by simp) fun _ => hinv.not_queued hgranted
  | releaseAgain => exact h
  | releaseAccess hpc =>
    have hgranted := hinv.lease_granted _ (Or.inr hpc)
    exact live_releaseAndGrant hinv h (by simp [hpc]) hgranted
      (by simp [Call.occupies, hpc, hgranted]) (Or.inl rfl)
  | close => exact ⟨h.failed, fun hopen => by cases hopen⟩

/-! ### The law -/

/-- The step delivers no asynchronous exception. -/
def NoInterrupt (_ : State) (a : Act) : Prop := ∀ call, a ≠ .interrupt call

/-- The calls that hold `key` for reading only, in the order in which they began. -/
def readHolders (s : State) (key : AccessKey) : List CallId :=
  s.started.filter fun call => (s.calls call).holds &&
    (decide (key ∈ (s.calls call).reads) && decide (key ∉ (s.calls call).writes))

/-- The calls that hold `key` for writing, in the order in which they began. -/
def writeHolders (s : State) (key : AccessKey) : List CallId :=
  s.started.filter fun call => (s.calls call).holds && decide (key ∈ (s.calls call).writes)

/-- The entry of `_access_states` that the holders of `key` account for. -/
def holdersState (s : State) (key : AccessKey) : Option AccessState :=
  if readHolders s key = [] ∧ writeHolders s key = [] then none
  else some ⟨(readHolders s key).length, decide (writeHolders s key ≠ [])⟩

/-- The law of access leases in one state.

* `recorded`: `_access_states` has the number of readers and whether there is a writer. A
  key without a holder has no entry. A key that a call both reads and writes counts as one
  write.
* `exclusive`: a key with a writer has no other holder.
* `whole`: a call holds all of its keys or none.
* `leased`: a lease that has not been released is a holder.
* `released`: a release of a released lease changes nothing. -/
structure AccessLaw (s : State) : Prop where
  recorded : ∀ key, s.accessStates key = holdersState s key
  exclusive : ∀ key, writeHolders s key = [] ∨
    ((∃ call, writeHolders s key = [call]) ∧ readHolders s key = [])
  whole : ∀ call key, (call ∈ readHolders s key ∨ call ∈ writeHolders s key) ↔
    (s.calls call).holds = true ∧ (key ∈ (s.calls call).reads ∨ key ∈ (s.calls call).writes)
  leased : ∀ call, (s.calls call).pc = .leased ∨ (s.calls call).pc = .releasing →
    (s.calls call).holds = true
  released : ∀ call, (s.calls call).pc = .releasing ∨ (s.calls call).pc = .released →
    step s (.release call) = some s

/-- The occupants of a key in a live state, counted and listed. -/
theorem Live.held_eq_length {s : State} (h : Live s) (hinv : Inv s) (key : AccessKey) :
    held s key false = (readHolders s key).length ∧
      held s key true = (writeHolders s key).length := by
  unfold held readHolders writeHolders
  rw [List.countP_eq_length_filter, List.countP_eq_length_filter]
  refine ⟨congrArg List.length (List.filter_congr fun call _ => ?_),
    congrArg List.length (List.filter_congr fun call _ => ?_)⟩ <;>
  · rw [Call.holdsKey, h.occupies_eq_holds hinv, Call.accesses, lookup_buildAccesses]
    by_cases hw : key ∈ (s.calls call).writes <;> by_cases hr : key ∈ (s.calls call).reads <;>
      simp [hw, hr]

/-- What is recorded in a live state belongs to the holders. -/
theorem Live.accessStates_eq {s : State} (h : Live s) (hinv : Inv s) (key : AccessKey) :
    s.accessStates key = holdersState s key := by
  obtain ⟨hread, hwrite⟩ := h.held_eq_length hinv key
  rw [hinv.accounted key, stateOf, hread, hwrite]
  simp only [List.length_eq_zero_iff, List.length_pos_iff]
  rfl

/-- The law holds in live states. -/
theorem Live.accessLaw {s : State} (h : Live s) (hinv : Inv s) : AccessLaw s := by
  have hlength := h.held_eq_length hinv
  refine
    { recorded := h.accessStates_eq hinv
      exclusive := fun key => ?_
      whole := fun call key => ?_
      leased := fun call hpc => ?_
      released := fun call hpc => ?_ }
  · have hexclusive := hinv.exclusive key
    rw [(hlength key).1, (hlength key).2] at hexclusive
    simpa only [List.length_eq_zero_iff, List.length_eq_one_iff] using hexclusive
  · have hstarted : (s.calls call).holds = true → call ∈ s.started := by
      intro hholds
      refine hinv.started_of_pc fun hpc => ?_
      simp [Call.holds, hpc] at hholds
    simp only [readHolders, writeHolders, List.mem_filter, Bool.and_eq_true, decide_eq_true_eq]
    tauto
  · have hgranted := hinv.lease_granted call hpc
    rcases hpc with hpc | hpc <;> simp [Call.holds, hpc, hgranted]
  · rcases hpc with hpc | hpc <;> simp [step, release, hpc]

/-- Runs without asynchronous exceptions stay live: a call aborts only after `close`. -/
theorem inv_live_of_reach {s : State} (h : accessMachine.Reach NoInterrupt s) :
    Inv s ∧ Live s := by
  refine h.invariant (I := fun s => Inv s ∧ Live s) ⟨inv_init, ?_, ?_⟩ ?_
  · exact fun call hpc => by cases hpc
  · exact fun _ call hmem => by cases hmem
  · rintro u a v ⟨hinv, hlive⟩ hok hs
    exact ⟨inv_step hinv hs, live_step hinv hlive hs fun call ha => absurd ha (hok call)⟩

/-- The law of access leases holds in every run without asynchronous exceptions. -/
theorem accessLaw_of_reach (s : State) (h : accessMachine.Reach NoInterrupt s) :
    AccessLaw s := by
  obtain ⟨hinv, hlive⟩ := inv_live_of_reach h
  exact hlive.accessLaw hinv

/-- A run with two reservations of one key: the first reads and writes it, the second waits
and is granted when the first is released. The second release of the first changes
nothing. -/
theorem accessLaw_two_reservations :
    ∃ s, accessMachine.Reach NoInterrupt s ∧ (s.calls 1).granted = true ∧ AccessLaw s := by
  obtain ⟨s, hrun, hgranted⟩ := Machine.exists_of_exec (M := accessMachine) (s := .init)
    (fun s => (s.calls 1).granted)
    [.reserve 0 [⟨1, 1, 1⟩] [⟨1, 1, 1⟩], .reserve 1 [⟨1, 1, 1⟩] [], .release 0, .release 0,
      .releaseAccess 0, .release 0] rfl
  have hreach : accessMachine.Reach NoInterrupt s := by
    refine Machine.Reach.exec .start (fun _ a ha call heq => ?_) hrun
    subst heq
    simp at ha
  exact ⟨s, hreach, hgranted, accessLaw_of_reach s hreach⟩

end Wmfs.Access
