import Wmfs.Access.Exclusion

/-!
# `Wmfs.Access.Engagement`: how long a call keeps its lease and its arguments

Frames of the access leases for a client of `reserve_access`. A scan of the queue changes
only `granted` flags (`sameCall_grantAccessWaiters`). A call is engaged from its `reserve` to
the end of its release, with the arguments of the `reserve` (`engages_step`). A lease stays
until its own call releases it (`leased_step`).
-/

set_option autoImplicit false

namespace Wmfs.Access

section
variable {s t : State}

/-- The call has the same arguments and is at the same place. -/
def SameCall (a b : Call) : Prop := a.pc = b.pc ∧ a.reads = b.reads ∧ a.writes = b.writes

/-- A call is the same as itself. -/
theorem SameCall.refl (a : Call) : SameCall a a := ⟨rfl, rfl, rfl⟩

/-- The same over two steps. -/
theorem SameCall.trans {a b c : Call} (h : SameCall a b) (h' : SameCall b c) : SameCall a c :=
  ⟨h.1.trans h'.1, h.2.1.trans h'.2.1, h.2.2.trans h'.2.2⟩

/-- The scan of the queue changes only `granted` flags. -/
theorem sameCall_grantScan (other : CallId) : ∀ (rest : List CallId) (s : State)
    (blocked : List AccessKey),
    SameCall ((grantScan s blocked rest).calls other) (s.calls other) := by
  intro rest
  induction rest with
  | nil => intro s blocked; exact .refl _
  | cons call rest ih =>
    intro s blocked
    simp only [grantScan]
    split
    · refine (ih (grantOne s call) blocked).trans ?_
      by_cases heq : other = call
      · subst heq
        rw [grantOne_calls_self]
        exact ⟨rfl, rfl, rfl⟩
      · rw [grantOne_calls_ne s heq]
        exact .refl _
    · exact ih s _

/-- A grant leaves the arguments and the places of all calls. -/
theorem sameCall_grantAccessWaiters (s : State) (other : CallId) :
    SameCall ((grantAccessWaiters s).calls other) (s.calls other) := by
  unfold grantAccessWaiters
  split
  · exact .refl _
  · exact sameCall_grantScan other _ s []

/-- A release leaves the arguments and the places of all calls. -/
theorem sameCall_releaseAndGrant (s : State) (accesses : Accesses) (other : CallId) :
    SameCall ((releaseAndGrant s accesses).calls other) (s.calls other) := by
  unfold releaseAndGrant
  simp only
  split
  · exact sameCall_grantAccessWaiters _ other
  · exact .refl _

/-- An aborted call keeps its arguments, and is over. -/
theorem abort_calls (s : State) (call : CallId) :
    ∃ pc, (pc = .cancelled ∨ pc = .failed) ∧
      ∀ other, SameCall ((abort s call).calls other) ((s.setPc call pc).calls other) := by
  unfold abort
  split
  · exact ⟨.cancelled, Or.inl rfl, fun other => sameCall_releaseAndGrant _ _ other⟩
  · refine ⟨.failed, Or.inr rfl, fun other => ?_⟩
    split
    · exact .refl _
    · exact sameCall_grantAccessWaiters _ other

/-- The call is inside `reserve_access`, or it has a lease. -/
def CallPc.engaged : CallPc → Bool
  | .waiting => true
  | .leased => true
  | .releasing => true
  | _ => false

/-- A holder is engaged. -/
theorem Call.engaged_of_holds {call : Call} (h : call.holds = true) : call.pc.engaged = true := by
  unfold Call.holds at h
  split at h
  · rename_i hpc
    rw [hpc]
    rfl
  · rename_i hpc
    rw [hpc]
    rfl
  · rename_i hpc
    rw [hpc]
    rfl
  · cases h

/-- Where a call may come from: it is engaged with the arguments of its `reserve`, or it was
engaged before the step with the same arguments. -/
def Engages (s : State) (act : Act) (call : CallId) (after : Call) : Prop :=
  (∃ reads writes, act = .reserve call reads writes ∧ after.reads = reads ∧ after.writes = writes) ∨
    ((s.calls call).pc.engaged = true ∧ after.reads = (s.calls call).reads ∧
      after.writes = (s.calls call).writes)

/-- Only the arguments of the call matter. -/
theorem Engages.congr {act : Act} {call : CallId} {after before : Call}
    (h : Engages s act call before) (hreads : after.reads = before.reads)
    (hwrites : after.writes = before.writes) : Engages s act call after := by
  unfold Engages
  rw [hreads, hwrites]
  exact h

/-- A call that stays the same stays engaged. -/
theorem Engages.of_sameCall {act : Act} {call : CallId} {after before : Call}
    (hsame : SameCall after before)
    (h : before.pc.engaged = true → Engages s act call before) :
    after.pc.engaged = true → Engages s act call after := by
  intro hengaged
  rw [hsame.1] at hengaged
  exact (h hengaged).congr hsame.2.1 hsame.2.2

/-- A change of the program counter of a call that was engaged. -/
theorem Engages.setPc {act : Act} {call : CallId} {pc : CallPc} (other : CallId)
    (hpc : pc.engaged = true → (s.calls call).pc.engaged = true) :
    ((s.setPc call pc).calls other).pc.engaged = true →
      Engages s act other ((s.setPc call pc).calls other) := by
  intro hengaged
  by_cases heq : other = call
  · subst heq
    rw [setPc_calls_self] at hengaged ⊢
    exact Or.inr ⟨hpc hengaged, rfl, rfl⟩
  · rw [setPc_calls_ne s pc heq] at hengaged ⊢
    exact Or.inr ⟨hengaged, rfl, rfl⟩

/-- A call that begins. The others are as they were. -/
theorem Engages.enter {act : Act} {caller : CallId} {new : Call}
    (hnew : new.pc.engaged = true → Engages s act caller new) (call : CallId) :
    (Function.update s.calls caller new call).pc.engaged = true →
      Engages s act call (Function.update s.calls caller new call) := by
  by_cases heq : call = caller
  · subst heq
    rw [Function.update_self]
    exact hnew
  · rw [Function.update_of_ne heq]
    exact fun hpc => Or.inr ⟨hpc, rfl, rfl⟩

/-- A call that aborts is not engaged afterwards. -/
theorem Engages.abort {act : Act} {call : CallId} (other : CallId) :
    ((Access.abort s call).calls other).pc.engaged = true →
      Engages s act other ((Access.abort s call).calls other) := by
  obtain ⟨pc, hpc, hsame⟩ := abort_calls s call
  refine Engages.of_sameCall (hsame other) (Engages.setPc other fun hengaged => ?_)
  rcases hpc with rfl | rfl <;> cases hengaged

/-- An iteration of the wait loop of `caller`: the scan, and the lease of a granted call. -/
theorem Engages.wait {act : Act} {u : State} {caller : CallId}
    (hcaller : (u.calls caller).pc.engaged = true)
    (h : ∀ call, (u.calls call).pc.engaged = true → Engages s act call (u.calls call))
    (call : CallId) :
    ((leaseIfGranted (grantAccessWaiters u) caller).calls call).pc.engaged = true →
      Engages s act call ((leaseIfGranted (grantAccessWaiters u) caller).calls call) := by
  have hscan := sameCall_grantAccessWaiters u call
  have hscanned := Engages.of_sameCall hscan (h call)
  unfold leaseIfGranted
  split
  · by_cases heq : call = caller
    · subst heq
      rw [setPc_calls_self]
      exact fun _ => (h call hcaller).congr hscan.2.1 hscan.2.2
    · rw [setPc_calls_ne _ _ heq]
      exact hscanned
  · exact hscanned

/-- Every step explains the engaged calls. -/
theorem engages_step {act : Act} (hs : step s act = some t) (call : CallId)
    (hengaged : (t.calls call).pc.engaged = true) : Engages s act call (t.calls call) := by
  have hbefore : ∀ {act : Act} (call : CallId), (s.calls call).pc.engaged = true →
      Engages s act call (s.calls call) := fun _ hpc => Or.inr ⟨hpc, rfl, rfl⟩
  cases move_of_step hs with
  | refuse hidle => exact Engages.enter (fun hpc => by cases hpc) call hengaged
  | noKeys hidle => exact Engages.enter (fun _ => Or.inl ⟨_, _, rfl, rfl, rfl⟩) call hengaged
  | @enqueue caller reads writes hidle =>
    refine Engages.wait ?_ (Engages.enter fun _ => Or.inl ⟨reads, writes, rfl, rfl, rfl⟩) call
      hengaged
    simp [CallPc.engaged]
  | stale hidle => exact Engages.enter (fun hpc => by cases hpc) call hengaged
  | lease hpc hgranted => exact Engages.setPc call (fun _ => by rw [hpc]; rfl) hengaged
  | rescan hpc => exact Engages.wait (by rw [hpc]; rfl) hbefore call hengaged
  | abort hpc _ => exact Engages.abort call hengaged
  | release hpc => exact Engages.setPc call (fun _ => by rw [hpc]; rfl) hengaged
  | releaseAgain => exact hbefore call hengaged
  | releaseAccess hpc =>
    exact Engages.of_sameCall (sameCall_releaseAndGrant _ _ call)
      (Engages.setPc call fun hnot => by cases hnot) hengaged
  | close => exact hbefore call hengaged

/-- An iteration of the wait loop of another call. -/
theorem sameCall_wait (u : State) {caller call : CallId} (hne : call ≠ caller) :
    SameCall ((leaseIfGranted (grantAccessWaiters u) caller).calls call) (u.calls call) := by
  have hscan := sameCall_grantAccessWaiters u call
  unfold leaseIfGranted
  split
  · rw [setPc_calls_ne _ _ hne]
    exact hscan
  · exact hscan

/-- A lease stays where it is until it is released. -/
theorem leased_step {act : Act} (hs : step s act = some t) {call : CallId}
    (hpc : (s.calls call).pc = .leased) (hnot : act ≠ .release call) :
    SameCall (t.calls call) (s.calls call) := by
  -- A step of a call that is elsewhere is a step of another call.
  have hother : ∀ {caller : CallId}, (s.calls caller).pc ≠ .leased → call ≠ caller := by
    rintro caller hpc' rfl
    exact hpc' hpc
  have hsetPc : ∀ {caller : CallId} (pc : CallPc), call ≠ caller →
      SameCall ((s.setPc caller pc).calls call) (s.calls call) := by
    intro caller pc hne
    rw [setPc_calls_ne s pc hne]
    exact .refl _
  have henter : ∀ {caller : CallId} (new : Call), (s.calls caller).pc = .idle →
      SameCall (Function.update s.calls caller new call) (s.calls call) := by
    intro caller new hidle
    rw [Function.update_of_ne (hother (by simp [hidle]))]
    exact .refl _
  cases move_of_step hs with
  | refuse hidle => exact henter _ hidle
  | noKeys hidle => exact henter _ hidle
  | enqueue hidle =>
    exact (sameCall_wait _ (hother (by simp [hidle]))).trans (henter _ hidle)
  | stale hidle => exact henter _ hidle
  | lease hwaiting _ => exact hsetPc _ (hother (by simp [hwaiting]))
  | rescan hwaiting => exact sameCall_wait s (hother (by simp [hwaiting]))
  | abort hwaiting _ =>
    obtain ⟨pc, -, hsame⟩ := abort_calls s _
    exact (hsame call).trans (hsetPc pc (hother (by simp [hwaiting])))
  | @release caller _ =>
    have hne : call ≠ caller := by
      rintro rfl
      exact hnot rfl
    exact hsetPc _ hne
  | releaseAgain => exact .refl _
  | releaseAccess hreleasing =>
    exact (sameCall_releaseAndGrant _ _ call).trans (hsetPc _ (hother (by simp [hreleasing])))
  | close => exact .refl _

end

end Wmfs.Access
