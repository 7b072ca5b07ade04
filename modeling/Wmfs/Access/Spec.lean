import Mathlib.Tactic.Cases
import Wmfs.Access.Model

/-!
# `Wmfs.Access.Spec`: what the functions of the access leases do

One specification for each function of `Wmfs.Access.Model`. Later modules use these and do
not unfold the functions again.

`Basic` holds in every run, also in runs with interrupted calls: the queued waiters are
distinct and not granted. With it, the `remove` of a waiter that was just granted removes
that waiter (`removeWaiter_granted`), because no other queued waiter has its flag set.

`grantAccessWaiters_preserves` is the induction rule for the scan of the queue. `Move` lists
what one critical section can do, and `move_of_step` is the inversion that every invariant
is proved with.
-/

set_option autoImplicit false

namespace Wmfs.Access

open Wmfs.Lib

/-! ### The dictionary of accesses -/

/-- The reads are entered unless their key is present. -/
theorem lookup_addReads (key : AccessKey) : ∀ (reads : List AccessKey) (accesses : Accesses),
    (reads.foldl addRead accesses).lookup key =
      (accesses.lookup key <|> if key ∈ reads then some false else none) := by
  intro reads
  induction reads with
  | nil => intro accesses; simp
  | cons read reads ih =>
    intro accesses
    rw [List.foldl_cons, ih]
    unfold addRead
    by_cases hmem : read ∈ accesses
    · rw [if_pos hmem]
      by_cases hkey : key = read
      · subst hkey
        obtain ⟨b, hb⟩ := Option.isSome_iff_exists.mp (AList.lookup_isSome.mpr hmem)
        simp [hb]
      · simp [hkey]
    · rw [if_neg hmem]
      by_cases hkey : key = read
      · subst hkey
        simp [AList.lookup_eq_none.mpr hmem]
      · simp [AList.lookup_insert_ne hkey, hkey]

/-- The writes override. -/
theorem lookup_addWrites (key : AccessKey) : ∀ (writes : List AccessKey) (accesses : Accesses),
    (writes.foldl (fun accesses key => accesses.insert key true) accesses).lookup key =
      if key ∈ writes then some true else accesses.lookup key := by
  intro writes
  induction writes with
  | nil => intro accesses; simp
  | cons write writes ih =>
    intro accesses
    rw [List.foldl_cons, ih]
    by_cases hkey : key = write
    · subst hkey
      simp
    · simp [AList.lookup_insert_ne hkey, hkey]

/-- A key that is both read and written is entered once, as a write. -/
theorem lookup_buildAccesses (reads writes : List AccessKey) (key : AccessKey) :
    (buildAccesses reads writes).lookup key =
      if key ∈ writes then some true else if key ∈ reads then some false else none := by
  rw [buildAccesses, lookup_addWrites, lookup_addReads]
  simp

/-! ### Granting and releasing -/

/-- `_can_grant_access` tests every entry. -/
theorem canGrantAccess_iff (states : AccessStates) (accesses : Accesses) :
    canGrantAccess states accesses = true ↔
      ∀ key writable, accesses.lookup key = some writable →
        compatible (states key) writable = true := by
  unfold canGrantAccess
  rw [List.all_eq_true]
  constructor
  · intro h key writable hlookup
    exact h ⟨key, writable⟩ (AList.mem_lookup_iff.mp hlookup)
  · rintro h ⟨key, writable⟩ hmem
    exact h key writable (AList.mem_lookup_iff.mpr hmem)

/-- What a grant records at one key. -/
theorem grantOne_accessStates (s : State) (call : CallId) (key : AccessKey) :
    (grantOne s call).accessStates key =
      ((s.calls call).accesses.lookup key).elim (s.accessStates key)
        (recordAccess (s.accessStates key)) :=
  updateAll_apply _ _ _ _

/-- When every entry is recorded, the release loop raises nothing, and it drops each access
from its key. -/
theorem releaseEntries_eq : ∀ (entries : List (Sigma fun _ : AccessKey => Bool))
    (states : AccessStates), entries.NodupKeys → (∀ key ∈ entries.keys, states key ≠ none) →
    releaseEntries states entries =
      (entries.foldl (fun g entry => Function.update g entry.1
        ((g entry.1).bind fun state => dropAccess state entry.2)) states, true) := by
  intro entries
  induction entries with
  | nil => intro states _ _; rfl
  | cons entry entries ih =>
    intro states hnodup hpresent
    rw [List.nodupKeys_cons] at hnodup
    obtain ⟨state, hstate⟩ := Option.ne_none_iff_exists'.mp
      (hpresent entry.1 (by simp [List.keys_cons]))
    have hrest : ∀ key ∈ entries.keys,
        Function.update states entry.1 (dropAccess state entry.2) key ≠ none := by
      intro key hkey
      have hne : key ≠ entry.1 := by
        rintro rfl
        exact hnodup.1 hkey
      rw [Function.update_of_ne hne]
      exact hpresent key (by simp [List.keys_cons, hkey])
    rw [releaseEntries, hstate, List.foldl_cons, hstate]
    exact ih _ hnodup.2 hrest

/-- The release of recorded accesses, read at one key. -/
theorem releaseEntries_apply {states : AccessStates} {accesses : Accesses}
    (hpresent : ∀ key ∈ accesses, states key ≠ none) (key : AccessKey) :
    (releaseEntries states accesses.entries).1 key =
      (accesses.lookup key).elim (states key)
        fun writable => (states key).bind fun state => dropAccess state writable := by
  rw [releaseEntries_eq _ _ accesses.nodupKeys fun key hkey => hpresent key hkey]
  exact updateAll_apply (fun state writable => state.bind (dropAccess · writable)) accesses
    states key

/-- The release of recorded accesses raises nothing. -/
theorem releaseEntries_ok {states : AccessStates} {accesses : Accesses}
    (hpresent : ∀ key ∈ accesses, states key ≠ none) :
    (releaseEntries states accesses.entries).2 = true := by
  rw [releaseEntries_eq _ _ accesses.nodupKeys fun key hkey => hpresent key hkey]

/-! ### The queue -/

/-- What holds of the calls and of the queue in every run. -/
structure Basic (s : State) : Prop where
  started_nodup : s.started.Nodup
  idle : ∀ call, call ∉ s.started → s.calls call = .idle
  not_idle : ∀ call ∈ s.started, (s.calls call).pc ≠ .idle
  waiters_nodup : s.accessWaiters.Nodup
  waiters_started : ∀ call ∈ s.accessWaiters, call ∈ s.started
  waiters_ungranted : ∀ call ∈ s.accessWaiters, (s.calls call).granted = false

/-- A call that has begun is in `started`. -/
theorem Basic.started_of_pc {s : State} (h : Basic s) {call : CallId}
    (hpc : (s.calls call).pc ≠ .idle) : call ∈ s.started := by
  by_contra hnot
  exact hpc (by rw [h.idle call hnot]; rfl)

/-- A granted call is not queued. -/
theorem Basic.not_queued {s : State} {call : CallId} (h : Basic s)
    (hgranted : (s.calls call).granted = true) :
    call ∉ s.accessWaiters := by
  intro hmem
  rw [h.waiters_ungranted call hmem] at hgranted
  cases hgranted

/-- The call that goes on. -/
theorem setPc_calls_self (s : State) (call : CallId) (pc : CallPc) :
    (s.setPc call pc).calls call = { s.calls call with pc := pc } := by
  simp [State.setPc]

/-- The other calls stay where they are. -/
theorem setPc_calls_ne (s : State) {call other : CallId} (pc : CallPc) (h : other ≠ call) :
    (s.setPc call pc).calls other = s.calls other := by
  simp [State.setPc, Function.update_of_ne h]

/-- A step of a call changes neither its accesses nor its flag. -/
theorem setPc_calls_accesses (s : State) (call other : CallId) (pc : CallPc) :
    ((s.setPc call pc).calls other).accesses = (s.calls other).accesses ∧
      ((s.setPc call pc).calls other).granted = (s.calls other).granted := by
  by_cases heq : other = call
  · subst heq
    rw [setPc_calls_self]
    exact ⟨rfl, rfl⟩
  · rw [setPc_calls_ne s pc heq]
    exact ⟨rfl, rfl⟩

/-- A step of a call keeps `Basic`. -/
theorem basic_setPc {s : State} (h : Basic s) {call : CallId} (pc : CallPc)
    (hold : (s.calls call).pc ≠ .idle) (hnew : pc ≠ .idle) : Basic (s.setPc call pc) := by
  refine
    { started_nodup := h.started_nodup
      idle := fun other hother => ?_
      not_idle := fun other hother => ?_
      waiters_nodup := h.waiters_nodup
      waiters_started := h.waiters_started
      waiters_ungranted := fun other hother => ?_ }
  · have hne : other ≠ call := by
      rintro rfl
      exact hother (h.started_of_pc hold)
    rw [setPc_calls_ne s pc hne]
    exact h.idle other hother
  · by_cases heq : other = call
    · subst heq
      rw [setPc_calls_self]
      exact hnew
    · rw [setPc_calls_ne s pc heq]
      exact h.not_idle other hother
  · by_cases heq : other = call
    · subst heq
      rw [setPc_calls_self]
      exact h.waiters_ungranted other hother
    · rw [setPc_calls_ne s pc heq]
      exact h.waiters_ungranted other hother

/-- A shorter queue keeps `Basic`. -/
theorem Basic.of_sublist {s : State} (h : Basic s) {waiters : List CallId}
    (hsub : waiters.Sublist s.accessWaiters) :
    Basic { s with accessWaiters := waiters } where
  started_nodup := h.started_nodup
  idle := h.idle
  not_idle := h.not_idle
  waiters_nodup := h.waiters_nodup.sublist hsub
  waiters_started call hmem := h.waiters_started call (hsub.subset hmem)
  waiters_ungranted call hmem := h.waiters_ungranted call (hsub.subset hmem)

/-- `remove` removes the first equal waiter, so the queue afterwards is a sublist. -/
theorem removeWaiter_sublist {calls : CallId → Call} {waiters waiters' : List CallId}
    {call : CallId} (h : removeWaiter calls waiters call = some waiters') :
    waiters'.Sublist waiters := by
  unfold removeWaiter at h
  split at h
  · cases h
    exact List.eraseP_sublist
  · cases h

/-- `remove` removes the call's own waiter when no earlier waiter equals it. -/
theorem removeWaiter_eq_erase {calls : CallId → Call} {before after : List CallId}
    {call : CallId} (hbefore : ∀ other ∈ before, waiterEq calls other call = false) :
    removeWaiter calls (before ++ call :: after) call = some (before ++ after) := by
  have hself : waiterEq calls call call = true := by simp [waiterEq]
  have hany : (before ++ call :: after).any (fun other => waiterEq calls other call) = true := by
    simp [hself]
  have hcons : (call :: after).eraseP (fun other => waiterEq calls other call) = after :=
    List.eraseP_cons_of_pos hself
  rw [removeWaiter, if_pos hany, List.eraseP_append_right _ (by simpa using hbefore), hcons]

/-- A list with distinct elements, split at one of them. -/
theorem exists_split {l : List CallId} {call : CallId} (hl : l.Nodup) (h : call ∈ l) :
    ∃ before after, l = before ++ call :: after ∧ call ∉ before ∧ call ∉ after := by
  obtain ⟨before, after, rfl⟩ := List.append_of_mem h
  rw [List.nodup_append, List.nodup_cons] at hl
  refine ⟨before, after, rfl, fun hmem => ?_, hl.2.1.1⟩
  exact hl.2.2 call hmem call (by simp) rfl

/-- The `remove` after a grant removes the granted waiter: no other one has its flag set. -/
theorem removeWaiter_granted {s : State} (h : Basic s) {before after : List CallId}
    {call : CallId} (hsplit : s.accessWaiters = before ++ call :: after) :
    (grantOne s call).accessWaiters = before ++ after := by
  have hnodup := h.waiters_nodup
  rw [hsplit, List.nodup_append] at hnodup
  have hcall : call ∉ before := fun hmem => hnodup.2.2 call hmem call (by simp) rfl
  have hbefore : ∀ other ∈ before, waiterEq
      (Function.update s.calls call { s.calls call with granted := true }) other call =
        false := by
    intro other hother
    have hne : other ≠ call := by
      rintro rfl
      exact hcall hother
    have hungranted := h.waiters_ungranted other (by simp [hsplit, hother])
    simp [waiterEq, hne, hungranted]
  simp only [grantOne, hsplit]
  rw [removeWaiter_eq_erase hbefore]
  rfl

/-- A grant takes the call out of the queue and keeps the others in order. -/
theorem grantOne_accessWaiters {s : State} (h : Basic s) {call : CallId}
    (hmem : call ∈ s.accessWaiters) :
    (grantOne s call).accessWaiters = s.accessWaiters.erase call := by
  obtain ⟨before, after, hsplit, hbefore, -⟩ := exists_split h.waiters_nodup hmem
  rw [removeWaiter_granted h hsplit, hsplit, List.erase_append_right _ hbefore]
  simp

/-- The call that is granted. -/
theorem grantOne_calls_self (s : State) (call : CallId) :
    (grantOne s call).calls call = { s.calls call with granted := true } := by
  simp [grantOne]

/-- The other calls are not granted. -/
theorem grantOne_calls_ne (s : State) {call other : CallId} (h : other ≠ call) :
    (grantOne s call).calls other = s.calls other := by
  simp [grantOne, Function.update_of_ne h]

/-- A grant changes neither the arguments of a call nor where it is. -/
theorem grantOne_calls_pc (s : State) (call other : CallId) :
    ((grantOne s call).calls other).pc = (s.calls other).pc ∧
      ((grantOne s call).calls other).accesses = (s.calls other).accesses := by
  by_cases h : other = call
  · subst h
    rw [grantOne_calls_self]
    exact ⟨rfl, rfl⟩
  · rw [grantOne_calls_ne s h]
    exact ⟨rfl, rfl⟩

/-- A grant of a queued waiter keeps `Basic`. -/
theorem basic_grantOne {s : State} (h : Basic s) {call : CallId}
    (hmem : call ∈ s.accessWaiters) : Basic (grantOne s call) := by
  have hwaiters := grantOne_accessWaiters h hmem
  have hsub : ∀ other ∈ (grantOne s call).accessWaiters,
      other ≠ call ∧ other ∈ s.accessWaiters := by
    intro other hother
    rw [hwaiters] at hother
    exact (List.Nodup.mem_erase_iff h.waiters_nodup).mp hother
  refine
    { started_nodup := h.started_nodup
      idle := ?_
      not_idle := ?_
      waiters_nodup := ?_
      waiters_started := fun other hother => h.waiters_started other (hsub other hother).2
      waiters_ungranted := ?_ }
  · intro other hother
    have hne : other ≠ call := by
      rintro rfl
      exact hother (h.waiters_started _ hmem)
    rw [grantOne_calls_ne s hne]
    exact h.idle other hother
  · intro other hother
    rw [(grantOne_calls_pc s call other).1]
    exact h.not_idle other hother
  · rw [hwaiters]
    exact h.waiters_nodup.erase call
  · intro other hother
    obtain ⟨hne, hold⟩ := hsub other hother
    rw [grantOne_calls_ne s hne]
    exact h.waiters_ungranted other hold

/-- The induction rule of the scan. A predicate that includes `Basic`, and that every
compatible grant of a queued waiter preserves, is preserved by the scan. -/
theorem grantScan_preserves {I : State → Prop} (hbasic : ∀ s, I s → Basic s)
    (hgrant : ∀ s call, I s → s.closed = false → call ∈ s.accessWaiters →
      canGrantAccess s.accessStates (s.calls call).accesses = true → I (grantOne s call)) :
    ∀ (rest : List CallId) (s : State) (blocked : List AccessKey), I s → s.closed = false →
      rest.Nodup → (∀ call ∈ rest, call ∈ s.accessWaiters) → I (grantScan s blocked rest) := by
  intro rest
  induction rest with
  | nil => intro s blocked hI _ _ _; exact hI
  | cons call rest ih =>
    intro s blocked hI hopen hnodup hsub
    rw [List.nodup_cons] at hnodup
    simp only [grantScan]
    split
    · rename_i htest
      rw [Bool.and_eq_true] at htest
      have hmem := hsub call (by simp)
      refine ih _ _ (hgrant s call hI hopen hmem htest.2) hopen hnodup.2 fun other hother => ?_
      rw [grantOne_accessWaiters (hbasic s hI) hmem,
        List.Nodup.mem_erase_iff (hbasic s hI).waiters_nodup]
      have hne : other ≠ call := by
        rintro rfl
        exact hnodup.1 hother
      exact ⟨hne, hsub other (by simp [hother])⟩
    · exact ih s _ hI hopen hnodup.2 fun other hother => hsub other (by simp [hother])

/-- The induction rule of `_grant_access_waiters`. -/
theorem grantAccessWaiters_preserves {I : State → Prop} (hbasic : ∀ s, I s → Basic s)
    (hgrant : ∀ s call, I s → s.closed = false → call ∈ s.accessWaiters →
      canGrantAccess s.accessStates (s.calls call).accesses = true → I (grantOne s call))
    {s : State} (hI : I s) : I (grantAccessWaiters s) := by
  unfold grantAccessWaiters
  by_cases hclosed : s.closed = true
  · rw [if_pos hclosed]
    exact hI
  · rw [if_neg hclosed]
    exact grantScan_preserves hbasic hgrant _ s [] hI (by simpa using hclosed)
      (hbasic s hI).waiters_nodup fun _ h => h

/-- The scan keeps `Basic`. -/
theorem basic_grantAccessWaiters {s : State} (h : Basic s) : Basic (grantAccessWaiters s) :=
  grantAccessWaiters_preserves (fun _ h => h) (fun _ _ h _ hmem _ => basic_grantOne h hmem) h

/-! ### The critical sections -/

/-- What one critical section does. A `reserve_access` call enters and raises (`refuse`,
`stale`), returns at once (`noKeys`) or waits (`enqueue`). A waiting call finds itself granted
(`lease`), scans the queue once more (`rescan`), or leaves with an exception (`abort`). The
first `release` of a lease has an effect (`release`), and `releaseAccess` completes it. -/
inductive Move (s : State) : Act → State → Prop where
  | refuse {call : CallId} {reads writes : List AccessKey}
      (hidle : (s.calls call).pc = .idle) :
      Move s (.reserve call reads writes) { s with
        calls := Function.update s.calls call ⟨reads, writes, false, .failed⟩
        started := s.started ++ [call] }
  | noKeys {call : CallId} (hidle : (s.calls call).pc = .idle) :
      Move s (.reserve call [] []) { s with
        calls := Function.update s.calls call ⟨[], [], true, .leased⟩
        started := s.started ++ [call] }
  | enqueue {call : CallId} {reads writes : List AccessKey}
      (hidle : (s.calls call).pc = .idle) :
      Move s (.reserve call reads writes) (leaseIfGranted (grantAccessWaiters { s with
        calls := Function.update s.calls call ⟨reads, writes, false, .waiting⟩
        started := s.started ++ [call]
        accessWaiters := s.accessWaiters ++ [call] }) call)
  | stale {call : CallId} (hidle : (s.calls call).pc = .idle) :
      Move s (.reserveStale call) { s with
        calls := Function.update s.calls call ⟨[], [], false, .failed⟩
        started := s.started ++ [call] }
  | lease {call : CallId} (hpc : (s.calls call).pc = .waiting)
      (hgranted : (s.calls call).granted = true) :
      Move s (.wake call) (s.setPc call .leased)
  | rescan {call : CallId} (hpc : (s.calls call).pc = .waiting) :
      Move s (.wake call) (leaseIfGranted (grantAccessWaiters s) call)
  | abort {act : Act} {call : CallId} (hpc : (s.calls call).pc = .waiting)
      (hwhy : act = .interrupt call ∨
        (act = .wake call ∧ s.closed = true ∧ (s.calls call).granted = false)) :
      Move s act (Access.abort s call)
  | release {call : CallId} (hpc : (s.calls call).pc = .leased) :
      Move s (.release call) (s.setPc call .releasing)
  | releaseAgain {call : CallId} : Move s (.release call) s
  | releaseAccess {call : CallId} (hpc : (s.calls call).pc = .releasing) :
      Move s (.releaseAccess call)
        (releaseAndGrant (s.setPc call .released) (s.calls call).accesses)
  | close : Move s .close { s with closed := true }

/-- Every step is one of these. -/
theorem move_of_step {s t : State} {act : Act} (hs : step s act = some t) : Move s act t := by
  cases act with
  | reserve call reads writes =>
    simp only [step, reserve] at hs
    split at hs
    · cases hs
    rename_i hidle
    have hidle : (s.calls call).pc = .idle := by simpa using hidle
    split at hs
    · cases hs
      exact .refuse hidle
    split at hs
    · rename_i hempty
      simp only [Bool.and_eq_true, List.isEmpty_iff] at hempty
      obtain ⟨rfl, rfl⟩ := hempty
      cases hs
      exact .noKeys hidle
    · cases hs
      exact .enqueue hidle
  | reserveStale call =>
    simp only [step, reserveStale] at hs
    split at hs
    · cases hs
    · rename_i hidle
      cases hs
      exact .stale (by simpa using hidle)
  | wake call =>
    simp only [step, wake] at hs
    split at hs
    · cases hs
    rename_i hpc
    have hpc : (s.calls call).pc = .waiting := by simpa using hpc
    split at hs
    · rename_i hgranted
      cases hs
      exact .lease hpc hgranted
    rename_i hungranted
    split at hs
    · rename_i hclosed
      cases hs
      exact .abort hpc (Or.inr ⟨rfl, hclosed, by simpa using hungranted⟩)
    · cases hs
      exact .rescan hpc
  | interrupt call =>
    simp only [step, interrupt] at hs
    split at hs
    · cases hs
    · rename_i hpc
      cases hs
      exact .abort (by simpa using hpc) (Or.inl rfl)
  | release call =>
    simp only [step, release] at hs
    split at hs
    · rename_i hpc
      cases hs
      exact .release hpc
    · cases hs
      exact .releaseAgain
    · cases hs
      exact .releaseAgain
    · cases hs
  | releaseAccess call =>
    simp only [step, releaseAccess] at hs
    split at hs
    · cases hs
    · rename_i hpc
      cases hs
      exact .releaseAccess (by simpa using hpc)
  | close =>
    cases hs
    exact .close

end Wmfs.Access
