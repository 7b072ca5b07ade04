import Wmfs.Session.Matching

/-!
# `Wmfs.Session.Progress`: nobody is left waiting

`Wmfs.Session.Matching` says what the dispatcher never does. This module says what it can always
do. The loop of `fail_ring` completes every submission that it has taken out of the map, with the
error of the ring (`exec_marks`), and a call whose submission is completed can go on to its end
whatever the other threads hold (`ends_of_completed`): the only thing it may wait for is
`producer_mutex`, whose owner is a call that pushes (`Running`).

So once `ring_error` is set, every call under way can be run to its end by the steps of the session
alone: no record is popped, no deadline expires and no other call is made (`Ends`). The law of the
dispatcher puts the two modules together.
-/

set_option autoImplicit false

namespace Wmfs.Session

open Wmfs.Lib Wmfs.Ring

/-! ### Who holds the mutex, and who runs `fail_ring` -/

/-- `producer_mutex` belongs to a call that pushes, and the submissions that a `fail_ring` has taken
belong to a call or a thread in its loop. -/
structure Running (s : State) : Prop where
  owner : ∀ handle, s.producer = some handle → s.calls handle = .pushing
  call : ∀ runner handle, (some runner, handle) ∈ s.failed →
    ∃ error, s.calls runner = .marking error
  thread : ∀ handle, (none, handle) ∈ s.failed → s.thread = .marking

section
variable {s t u : State} {handle : Nat}

/-- A call moves on that neither has the mutex nor runs `fail_ring`. -/
theorem Running.of_goto (h : Running s) {pc : CallPc}
    (hcalls : t.calls = Function.update s.calls handle pc) (hpush : s.calls handle ≠ .pushing)
    (hmark : ∀ error, s.calls handle ≠ .marking error) (hproducer : t.producer = s.producer)
    (hfailed : t.failed = s.failed) (hthread : t.thread = s.thread) : Running t where
  owner other hother := by
    rw [hproducer] at hother
    have howner := h.owner other hother
    have hne : other ≠ handle := by
      rintro rfl
      exact hpush howner
    rw [hcalls, Function.update_of_ne hne]
    exact howner
  call runner other hmem := by
    rw [hfailed] at hmem
    obtain ⟨error, hrunner⟩ := h.call runner other hmem
    have hne : runner ≠ handle := by
      rintro rfl
      exact hmark error hrunner
    exact ⟨error, by rw [hcalls, Function.update_of_ne hne, hrunner]⟩
  thread other hmem := by
    rw [hfailed] at hmem
    rw [hthread]
    exact h.thread other hmem

/-- The completion thread moves on, and it does not run `fail_ring`. -/
theorem Running.of_thread (h : Running s) (hcalls : t.calls = s.calls)
    (hproducer : t.producer = s.producer) (hfailed : t.failed = s.failed)
    (hthread : s.thread ≠ .marking) : Running t where
  owner other hother := by
    rw [hcalls]
    exact h.owner other (hproducer ▸ hother)
  call runner other hmem := by
    rw [hcalls]
    exact h.call runner other (hfailed ▸ hmem)
  thread other hmem := absurd (h.thread other (hfailed ▸ hmem)) hthread

/-- The call takes the mutex, or gives it back. -/
theorem Running.of_owner (h : Running s) {pc : CallPc} (owner : Option Nat)
    (hcalls : t.calls = Function.update s.calls handle pc)
    (hmark : ∀ error, s.calls handle ≠ .marking error) (hproducer : t.producer = owner)
    (howner : ∀ other, owner = some other → other = handle ∧ pc = .pushing)
    (hfailed : t.failed = s.failed) (hthread : t.thread = s.thread) : Running t where
  owner other hother := by
    rw [hproducer] at hother
    obtain ⟨rfl, rfl⟩ := howner other hother
    rw [hcalls, Function.update_self]
  call runner other hmem := by
    rw [hfailed] at hmem
    obtain ⟨error, hrunner⟩ := h.call runner other hmem
    have hne : runner ≠ handle := by
      rintro rfl
      exact hmark error hrunner
    exact ⟨error, by rw [hcalls, Function.update_of_ne hne, hrunner]⟩
  thread other hmem := by
    rw [hfailed] at hmem
    rw [hthread]
    exact h.thread other hmem

/-- A caller enters `fail_ring` and takes the submissions of the map. -/
theorem running_failBegin (h : Running s) {runner : Runner} (hs : failBegin s runner = some t) :
    Running t := by
  cases runner with
  | some handle =>
    simp only [failBegin] at hs
    split at hs
    · rename_i error hcall
      cases hs
      refine
        { owner := fun other hother => ?_
          call := fun runner other hmem => ?_
          thread := fun other hmem => ?_ }
      · have howner := h.owner other hother
        have hne : other ≠ handle := by
          rintro rfl
          rw [hcall] at howner
          cases howner
        show Function.update s.calls handle _ other = _
        rw [Function.update_of_ne hne]
        exact howner
      · by_cases heq : runner = handle
        · subst heq
          exact ⟨error, Function.update_self _ _ _⟩
        · -- The entries of the other callers were there before.
          rcases List.mem_append.mp hmem with hmem | hmem
          · obtain ⟨other', hother'⟩ := h.call runner other hmem
            exact ⟨other', by
              show Function.update s.calls handle _ runner = _
              rw [Function.update_of_ne heq, hother']⟩
          · obtain ⟨item, -, hitem⟩ := List.mem_map.mp hmem
            cases hitem
            exact absurd rfl heq
      · rcases List.mem_append.mp hmem with hmem | hmem
        · exact h.thread other hmem
        · obtain ⟨item, -, hitem⟩ := List.mem_map.mp hmem
          cases hitem
    · cases hs
  | none =>
    simp only [failBegin] at hs
    split at hs
    · rename_i error hthread
      cases hs
      refine
        { owner := h.owner
          call := fun runner other hmem => ?_
          thread := fun _ _ => rfl }
      rcases List.mem_append.mp hmem with hmem | hmem
      · exact h.call runner other hmem
      · obtain ⟨item, -, hitem⟩ := List.mem_map.mp hmem
        cases hitem
    · cases hs

/-- `fail_ring` returns only when it has completed all that it took. -/
theorem running_failEnd (h : Running s) {runner : Runner} (hs : failEnd s runner = some t) :
    Running t := by
  unfold failEnd at hs
  split at hs
  · cases hs
  rename_i hany
  have hnone : ∀ other, (runner, other) ∉ s.failed := by
    intro other hmem
    exact hany (List.any_eq_true.mpr ⟨(runner, other), hmem, by simp⟩)
  cases runner with
  | some handle =>
    simp only at hs
    split at hs
    · rename_i error hcall
      cases hs
      refine
        { owner := fun other hother => ?_
          call := fun runner other hmem => ?_
          thread := h.thread }
      · have howner := h.owner other hother
        have hne : other ≠ handle := by
          rintro rfl
          rw [hcall] at howner
          cases howner
        show Function.update s.calls handle _ other = _
        rw [Function.update_of_ne hne]
        exact howner
      · obtain ⟨error', hrunner⟩ := h.call runner other hmem
        have hne : runner ≠ handle := by
          rintro rfl
          exact hnone other hmem
        exact ⟨error', by
          show Function.update s.calls handle _ runner = _
          rw [Function.update_of_ne hne, hrunner]⟩
    · cases hs
  | none =>
    simp only at hs
    split at hs
    · cases hs
      exact
        { owner := h.owner
          call := h.call
          thread := fun other hmem => absurd hmem (hnone other) }
    · cases hs

/-- Every step keeps this. -/
theorem running_step (h : Running s) {act : Act} (hs : step s act = some t) : Running t := by
  cases act with
  | register handle command profiled positive =>
    simp only [step, register] at hs
    split at hs
    swap
    · cases hs
    rename_i hcall
    repeat' split at hs
    all_goals
      cases hs
      exact h.of_goto rfl (by simp [hcall]) (by simp [hcall]) rfl rfl rfl
  | lockProducer handle =>
    simp only [step, lockProducer] at hs
    split at hs
    · rename_i hcall _
      cases hs
      exact h.of_owner (some handle) rfl (by simp [hcall]) rfl
        (by rintro other hother; cases hother; exact ⟨rfl, rfl⟩) rfl rfl
    · cases hs
  | push handle outcome =>
    simp only [step, push] at hs
    split at hs
    · rename_i hcall
      cases hs
      exact h.of_owner none rfl (by simp [hcall]) rfl (by simp) rfl rfl
    · rename_i error hcall
      cases hs
      exact h.of_owner none rfl (by simp [hcall]) rfl (by simp) rfl rfl
    · cases hs
  | eraseOwn handle =>
    simp only [step, eraseOwn] at hs
    split at hs
    · rename_i error hcall
      cases hs
      exact h.of_goto rfl (by simp [hcall]) (by simp [hcall]) rfl rfl rfl
    · cases hs
  | expire handle =>
    simp only [step, expire] at hs
    split at hs
    · rename_i hcall
      split at hs
      · cases hs
      · cases hs
        exact h.of_goto rfl (by simp [hcall]) (by simp [hcall]) rfl rfl rfl
    · cases hs
  | wake handle =>
    simp only [step, wake] at hs
    split at hs
    · rename_i hcall
      split at hs
      · split at hs <;>
        · cases hs
          exact h.of_goto rfl (by simp [hcall]) (by simp [hcall]) rfl rfl rfl
      · cases hs
    · cases hs
  | failBegin runner => exact running_failBegin h hs
  | mark runner handle =>
    simp only [step, mark] at hs
    split at hs
    · cases hs
      exact
        { owner := h.owner
          call := fun runner other hmem => h.call runner other (List.mem_of_mem_erase hmem)
          thread := fun other hmem => h.thread other (List.mem_of_mem_erase hmem) }
    · cases hs
  | failEnd runner => exact running_failEnd h hs
  | pop outcome =>
    simp only [step, pop] at hs
    split at hs
    · rename_i hthread
      cases hs
      exact h.of_thread rfl rfl rfl (by simp [hthread])
    · rename_i hthread
      cases hs
      exact h.of_thread rfl rfl rfl (by simp [hthread])
    · cases hs
  | lookup =>
    simp only [step, lookup] at hs
    split at hs
    swap
    · cases hs
    rename_i hthread
    repeat' split at hs
    all_goals
      cases hs
      exact h.of_thread rfl rfl rfl (by simp [hthread])
  | deliver =>
    simp only [step, deliver] at hs
    split at hs
    · rename_i hthread
      cases hs
      exact h.of_thread rfl rfl rfl (by simp [hthread])
    · cases hs

/-- It holds in every run. -/
theorem running_of_reachable (h : dispatcherMachine.Reachable s) : Running s := by
  refine h.invariant (I := Running) ?_ fun _ _ _ hrunning _ hs => running_step hrunning hs
  exact
    { owner := fun _ hnone => by cases hnone
      call := fun _ _ hmem => by cases hmem
      thread := fun _ hmem => by cases hmem }

/-! ### Running a call to its end -/

/-- The steps that need nothing from outside: no new call, no record of the worker and no
deadline. -/
def Closing : Act → Prop
  | .register _ _ _ _ => False
  | .expire _ => False
  | .pop _ => False
  | _ => True

/-- Such steps take the call to a point that `result` accepts. -/
def Ends (s : State) (handle : Nat) (result : CallPc → Prop) : Prop :=
  ∃ as t, (∀ a ∈ as, Closing a) ∧ dispatcherMachine.exec s as = some t ∧ result (t.calls handle)

/-- The call is there already. -/
theorem Ends.now {result : CallPc → Prop} (h : result (s.calls handle)) : Ends s handle result :=
  ⟨[], s, by simp, rfl, h⟩

/-- One step, and then the rest. -/
theorem Ends.step {result : CallPc → Prop} {act : Act} (hs : Session.step s act = some u)
    (hact : Closing act) (h : Ends u handle result) : Ends s handle result := by
  obtain ⟨as, t, hclosing, hrun, hresult⟩ := h
  refine ⟨act :: as, t, ?_, ?_, hresult⟩
  · intro a ha
    rcases List.mem_cons.mp ha with rfl | ha
    · exact hact
    · exact hclosing a ha
  · rw [Machine.exec_cons]
    show (Session.step s act).bind _ = _
    rw [hs, Option.bind_some]
    exact hrun

/-- A weaker result. -/
theorem Ends.imp {result result' : CallPc → Prop} (h : Ends s handle result)
    (himp : ∀ pc, result pc → result' pc) : Ends s handle result' := by
  obtain ⟨as, t, hclosing, hrun, hresult⟩ := h
  exact ⟨as, t, hclosing, hrun, himp _ hresult⟩

/-- What `submit_ring` makes of a completed submission. -/
def resultOf (submission : Submission) : CallPc :=
  match submission.error with
  | some error => .failed error
  | none => .returned submission.completion

/-- A call that waits for a completed submission wakes up. -/
theorem ends_of_waiting (hcall : s.calls handle = .waiting)
    (hcompleted : (s.submissions handle).completed = true) :
    Ends s handle (· = resultOf (s.submissions handle)) := by
  have hwake : step s (.wake handle) = some (s.goto handle (resultOf (s.submissions handle))) := by
    simp only [step, wake, hcall, hcompleted, if_true, resultOf]
    cases (s.submissions handle).error <;> rfl
  exact Ends.step hwake trivial (Ends.now (Function.update_self _ _ _))

/-- A call that has the mutex gives it back. -/
theorem ends_of_pushing (hcall : s.calls handle = .pushing)
    (hcompleted : (s.submissions handle).completed = true) :
    Ends s handle (· = resultOf (s.submissions handle)) := by
  have hpush : step s (.push handle none) = some { s.goto handle .waiting with
      producer := none
      pushed := s.pushed ++ [s.commands handle] } := by
    simp only [step, push, hcall]
  exact Ends.step hpush trivial (ends_of_waiting (Function.update_self _ _ _) hcompleted)

/-- A call that waits for the free mutex takes it. -/
theorem ends_of_locking (hcall : s.calls handle = .locking) (hfree : s.producer = none)
    (hcompleted : (s.submissions handle).completed = true) :
    Ends s handle (· = resultOf (s.submissions handle)) := by
  have hlock : step s (.lockProducer handle) =
      some { s.goto handle .pushing with producer := some handle } := by
    simp only [step, lockProducer, hcall, hfree]
  exact Ends.step hlock trivial (ends_of_pushing (Function.update_self _ _ _) hcompleted)

/-- A call whose submission is completed goes on to its end, whatever it has to wait for. -/
theorem ends_of_completed (hrunning : Running s) (hawaits : (s.calls handle).awaits = true)
    (hcompleted : (s.submissions handle).completed = true) :
    Ends s handle (· = resultOf (s.submissions handle)) := by
  cases hcall : s.calls handle with
  | waiting => exact ends_of_waiting hcall hcompleted
  | pushing => exact ends_of_pushing hcall hcompleted
  | locking =>
    cases hproducer : s.producer with
    | none => exact ends_of_locking hcall hproducer hcompleted
    | some other =>
      -- The owner of the mutex is another call, which finishes its push first.
      have howner := hrunning.owner other hproducer
      have hne : handle ≠ other := by
        rintro rfl
        rw [hcall] at howner
        cases howner
      have hpush : step s (.push other none) = some { s.goto other .waiting with
          producer := none
          pushed := s.pushed ++ [s.commands other] } := by
        simp only [step, push, howner]
      refine Ends.step hpush trivial (ends_of_locking ?_ rfl hcompleted)
      show Function.update s.calls other _ handle = _
      rw [Function.update_of_ne hne, hcall]
  | _ => simp [hcall, CallPc.awaits] at hawaits

/-! ### The loop of `fail_ring` -/

/-- The submission is completed with the error of the ring. -/
def FailedWith (s : State) (error : Option Error) (handle : Nat) : Prop :=
  (s.submissions handle).completed = true ∧ (s.submissions handle).error = error

/-- The loop runs to its end. It completes every submission that the runner has taken with the
error of the ring, and it leaves the calls where they are. -/
theorem exec_marks (runner : Runner) (n : Nat) : ∀ s : State, s.failed.length = n →
    ∃ as t, (∀ a ∈ as, ∃ handle, a = .mark runner handle) ∧
      dispatcherMachine.exec s as = some t ∧ (∀ handle, (runner, handle) ∉ t.failed) ∧
      t.calls = s.calls ∧ ∀ handle, (runner, handle) ∈ s.failed ∨ FailedWith s s.ringError handle →
        FailedWith t s.ringError handle := by
  -- Induction on the number of entries, one of which each step takes away.
  induction n with
  | zero =>
    intro s hlength
    have hnil : s.failed = [] := List.eq_nil_of_length_eq_zero hlength
    refine ⟨[], s, by simp, rfl, by simp [hnil], rfl, fun handle hor => ?_⟩
    rcases hor with hmem | hfailed
    · rw [hnil] at hmem
      cases hmem
    · exact hfailed
  | succ n ih =>
    intro s hlength
    by_cases hany : ∃ handle, (runner, handle) ∈ s.failed
    · obtain ⟨handle, hmem⟩ := hany
      have hmark : step s (.mark runner handle) = some { s.modifySubmission handle
          (fun submission => { submission with error := s.ringError, completed := true }) with
          failed := s.failed.erase (runner, handle) } := by
        simp only [step, mark, hmem, if_true]
      obtain ⟨as, t, hmarks, hrun, hnone, hcalls, hfailed⟩ := ih { s.modifySubmission handle
          (fun submission => { submission with error := s.ringError, completed := true }) with
          failed := s.failed.erase (runner, handle) }
        (by
          show (s.failed.erase (runner, handle)).length = n
          rw [List.length_erase_of_mem hmem]
          omega)
      refine ⟨.mark runner handle :: as, t, ?_, ?_, hnone, hcalls, fun other hor => ?_⟩
      · intro a ha
        rcases List.mem_cons.mp ha with rfl | ha
        · exact ⟨handle, rfl⟩
        · exact hmarks a ha
      · rw [Machine.exec_cons]
        show (step s (.mark runner handle)).bind _ = _
        rw [hmark, Option.bind_some]
        exact hrun
      · refine hfailed other ?_
        by_cases heq : other = handle
        · subst heq
          refine Or.inr ?_
          simp [FailedWith, State.modifySubmission]
        · rcases hor with hother | hother
          · refine Or.inl ((List.mem_erase_of_ne ?_).mpr hother)
            simp [heq]
          · refine Or.inr ?_
            simpa [FailedWith, State.modifySubmission, Function.update_of_ne heq] using hother
    · have hnone : ∀ handle, (runner, handle) ∉ s.failed := fun handle hmem => hany ⟨handle, hmem⟩
      refine ⟨[], s, by simp, rfl, hnone, rfl, fun handle hor => ?_⟩
      rcases hor with hmem | hfailed
      · exact absurd hmem (hnone handle)
      · exact hfailed

/-- A call in the loop of `fail_ring` throws its error. -/
theorem ends_of_marking {error : Error} (hcall : s.calls handle = .marking error) :
    Ends s handle (· = .failed error) := by
  obtain ⟨as, t, hmarks, hrun, hnone, hcalls, -⟩ := exec_marks (some handle) _ s rfl
  have hany : (t.failed.any fun entry => entry.1 == some handle) = false := by
    rw [List.any_eq_false]
    rintro ⟨runner, other⟩ hmem heq
    rw [beq_iff_eq] at heq
    change runner = some handle at heq
    subst heq
    exact hnone other hmem
  have hend : dispatcherMachine.step t (.failEnd (some handle)) =
      some (t.goto handle (.failed error)) := by
    simp only [dispatcherMachine, step, failEnd, hany, hcalls, hcall, Bool.false_eq_true, if_false]
  refine ⟨as ++ [.failEnd (some handle)], _, ?_,
    Machine.exec_trans hrun (Machine.exec_single hend), Function.update_self _ _ _⟩
  intro a ha
  rcases List.mem_append.mp ha with ha | ha
  · obtain ⟨other, rfl⟩ := hmarks a ha
    exact trivial
  · cases List.mem_singleton.mp ha
    exact trivial

/-- A call that is about to fail the ring throws its error. -/
theorem ends_of_failing {error : Error} (hcall : s.calls handle = .failing error) :
    Ends s handle (· = .failed error) := by
  have hbegin : step s (.failBegin (some handle)) =
      some ((failRing s (some handle) error).goto handle (.marking error)) := by
    simp only [step, failBegin, hcall]
  exact Ends.step hbegin trivial (ends_of_marking (Function.update_self _ _ _))

/-- A call whose push failed throws its error. -/
theorem ends_of_erasing {error : Error} (hcall : s.calls handle = .erasing error) :
    Ends s handle (· = .failed error) := by
  have herase : step s (.eraseOwn handle) = some { s.goto handle (.failing error) with
      pending := erase s.pending (s.commands handle).submissionId } := by
    simp only [step, eraseOwn, hcall]
  exact Ends.step herase trivial (ends_of_failing (Function.update_self _ _ _))

/-- A call on its way to an exception throws it. -/
theorem ends_of_throwing (hregistered : (s.calls handle).registered = true)
    (hthrowing : (s.calls handle).throwing = true) :
    Ends s handle fun pc => ∃ error, pc = .failed error := by
  cases hcall : s.calls handle with
  | erasing error => exact (ends_of_erasing hcall).imp fun _ heq => ⟨error, heq⟩
  | failing error => exact (ends_of_failing hcall).imp fun _ heq => ⟨error, heq⟩
  | marking error => exact (ends_of_marking hcall).imp fun _ heq => ⟨error, heq⟩
  | failed error => exact Ends.now ⟨error, hcall⟩
  | rejected error => simp [hcall, CallPc.registered] at hregistered
  | _ => simp [hcall, CallPc.throwing] at hthrowing

/-- A registered call waits, or throws, or has returned. -/
theorem registered_cases (hregistered : (s.calls handle).registered = true) :
    (s.calls handle).awaits = true ∨ (s.calls handle).throwing = true ∨
      ∃ completion, s.calls handle = .returned completion := by
  cases hcall : s.calls handle with
  | idle => simp [hcall, CallPc.registered] at hregistered
  | rejected error => simp [hcall, CallPc.registered] at hregistered
  | returned completion => exact Or.inr (Or.inr ⟨completion, rfl⟩)
  | locking => exact Or.inl rfl
  | pushing => exact Or.inl rfl
  | waiting => exact Or.inl rfl
  | _ => exact Or.inr (Or.inl rfl)

/-- A call whose submission `fail_ring` has taken out of the map throws. If it waited, it throws the
error of the ring. -/
theorem ends_of_failed (hinv : Inv s) (hrunning : Running s) (runner : Runner)
    (hmem : (runner, handle) ∈ s.failed) :
    Ends s handle fun pc => ∃ error, pc = .failed error ∧
      ((s.calls handle).awaits = true → s.ringError = some error) := by
  have hcustody : handle ∈ custody s :=
    List.mem_append_right _ (List.mem_append_right _ (List.mem_map_of_mem hmem))
  obtain ⟨hregistered, hopen⟩ := hinv.custody_open handle hcustody
  obtain ⟨error, herror⟩ :=
    Option.ne_none_iff_exists'.mp (hinv.failed_error (List.ne_nil_of_mem hmem))
  rcases registered_cases hregistered with hawaits | hthrowing | ⟨completion, hreturned⟩
  · -- The loop completes the submission, and then the call finds it completed.
    have hmark : step s (.mark runner handle) = some { s.modifySubmission handle
        (fun submission => { submission with error := s.ringError, completed := true }) with
        failed := s.failed.erase (runner, handle) } := by
      simp only [step, mark, hmem, if_true]
    refine Ends.step hmark trivial ((ends_of_completed (running_step hrunning hmark) hawaits ?_).imp
      fun pc heq => ⟨error, ?_, fun _ => herror⟩)
    · simp [State.modifySubmission]
    · rw [heq]
      simp [resultOf, State.modifySubmission, herror]
  · refine (ends_of_throwing hregistered hthrowing).imp fun pc hfailed => ?_
    obtain ⟨error', rfl⟩ := hfailed
    refine ⟨error', rfl, fun hawaits => ?_⟩
    cases hcall : s.calls handle <;> simp [hcall, CallPc.awaits, CallPc.throwing] at hawaits hthrowing
  · -- A call returns only with a completed submission.
    rw [(hinv.returned handle completion hreturned).1] at hopen
    cases hopen

/-- Once `ring_error` is set, every call under way can be run to its end. -/
theorem ends_of_error (hinv : Inv s) (hrunning : Running s) (herror : s.ringError ≠ none)
    (hregistered : (s.calls handle).registered = true) :
    Ends s handle fun pc => (∃ error, pc = .failed error) ∨
      ∃ completion, pc = .returned completion := by
  have hresult : ∀ submission : Submission, (∃ error, resultOf submission = .failed error) ∨
      ∃ completion, resultOf submission = .returned completion := by
    intro submission
    unfold resultOf
    split
    · exact Or.inl ⟨_, rfl⟩
    · exact Or.inr ⟨_, rfl⟩
  rcases registered_cases hregistered with hawaits | hthrowing | hreturned
  · cases hopen : (s.submissions handle).completed with
    | true =>
      refine (ends_of_completed hrunning hawaits hopen).imp fun pc heq => ?_
      rw [heq]
      exact hresult _
    | false =>
      have hcustody := hinv.awaited handle hawaits hopen
      -- The map is empty, so that the submission is with the completion thread or a `fail_ring`.
      rw [custody, hinv.error_empty herror, List.map_nil, List.nil_append] at hcustody
      rcases List.mem_append.mp hcustody with hhand | hfailed
      · cases hthread : s.thread with
        | delivering index completion other =>
          rw [hthread] at hhand
          cases List.mem_singleton.mp hhand
          have hdeliver : step s .deliver = some { s.modifySubmission handle
              (fun submission => { submission with completion := completion, completed := true }) with
              thread := .popping
              deliveries := (index, handle) :: s.deliveries } := by
            simp only [step, deliver, hthread]
          refine Ends.step hdeliver trivial
            ((ends_of_completed (running_step hrunning hdeliver) hawaits ?_).imp fun pc heq => ?_)
          · simp [State.modifySubmission]
          · rw [heq]
            exact hresult _
        | _ => simp [hthread, ThreadPc.hand] at hhand
      · obtain ⟨entry, hentry, rfl⟩ := List.mem_map.mp hfailed
        refine (ends_of_failed hinv hrunning entry.1 hentry).imp fun pc hpc => ?_
        obtain ⟨error, heq, -⟩ := hpc
        exact Or.inl ⟨error, heq⟩
  · exact (ends_of_throwing hregistered hthrowing).imp fun _ hfailed => Or.inl hfailed
  · exact Ends.now (Or.inr hreturned)

/-- A completed submission does not change any more. -/
theorem completed_step (hinv : Inv s) (hregistered : (s.calls handle).registered = true)
    (hcompleted : (s.submissions handle).completed = true) {act : Act}
    (hs : step s act = some t) : t.submissions handle = s.submissions handle := by
  -- What is completed next is in somebody's custody, and therefore open.
  have hother : ∀ other ∈ custody s, handle ≠ other := by
    rintro other hmem rfl
    rw [(hinv.custody_open handle hmem).2] at hcompleted
    cases hcompleted
  cases act with
  | register other command profiled positive =>
    simp only [step, register] at hs
    split at hs
    swap
    · cases hs
    rename_i hcall
    have hne : handle ≠ other := by
      rintro rfl
      rw [hcall] at hregistered
      cases hregistered
    repeat' split at hs
    all_goals
      cases hs
      first
        | rfl
        | exact Function.update_of_ne hne _ _
  | mark runner other =>
    simp only [step, mark] at hs
    split at hs
    · rename_i hmem
      cases hs
      exact Function.update_of_ne (hother other
        (List.mem_append_right _ (List.mem_append_right _ (List.mem_map_of_mem hmem)))) _ _
    · cases hs
  | deliver =>
    simp only [step, deliver] at hs
    split at hs
    · rename_i index completion other hthread
      cases hs
      refine Function.update_of_ne (hother other ?_) _ _
      rw [custody, hthread]
      simp [ThreadPc.hand]
    · cases hs
  | failBegin runner =>
    cases runner <;>
    · simp only [step, failBegin] at hs
      split at hs <;> cases hs
      rfl
  | failEnd runner =>
    simp only [step, failEnd] at hs
    split at hs
    · cases hs
    · cases runner <;>
      · simp only at hs
        split at hs <;> cases hs
        rfl
  | _ =>
    simp only [step, lockProducer, push, eraseOwn, expire, wake, pop, lookup] at hs
    repeat' split at hs
    all_goals first | cases hs; rfl | cases hs

end

/-! ### The law of the dispatcher -/

/-- What `submit_ring` may rely on.

* `matched`: a call returns a popped record that answers its command.
* `final`: a call returns once.
* `deliveries`: no record is delivered to two submissions, and no submission gets two records.
* `ids`: the ids of pending commands are distinct.
* `closed`: once `ring_error` is set, the map is empty, and both stay so.
* `taken`: the step that sets `ring_error` hands all pending submissions to a `fail_ring`.
* `marked`: a `fail_ring` can always complete each of its submissions with the error, no other
  step takes it away, and it does not end before.
* `completes`: its loop runs to its end, and then all submissions that it took are completed with
  the error of the ring. No later step changes a completed submission.
* `fails`: the call of each of these submissions can be run to its exception.
* `waiting`: once `ring_error` is set, a call waits only for a submission that is with a
  running `fail_ring`, or with the completion thread, which is about to complete it.
* `ends`: once `ring_error` is set, every call under way can be run to its end by the steps of the
  session alone. -/
structure DispatcherLaw (s : State) : Prop where
  matched : ∀ handle completion, s.calls handle = .returned completion →
    Answers completion (s.commands handle) ∧
      ∃ index, (index, handle) ∈ s.deliveries ∧ s.popped[index]? = some completion
  final : ∀ act t, step s act = some t → ∀ handle, (s.calls handle).final = true →
    t.calls handle = s.calls handle
  deliveries : (s.deliveries.map Prod.fst).Nodup ∧ (s.deliveries.map Prod.snd).Nodup
  ids : (s.pending.map Prod.fst).Nodup ∧
    ∀ item ∈ s.pending, (s.commands item.2).submissionId = item.1
  closed : ∀ error, s.ringError = some error → s.pending = [] ∧
    ∀ act t, step s act = some t → t.ringError = some error ∧ t.pending = []
  taken : s.ringError = none → ∀ act t, step s act = some t → t.ringError ≠ none →
    ∀ item ∈ s.pending, ∃ runner, (runner, item.2) ∈ t.failed
  marked : ∀ runner handle, (runner, handle) ∈ s.failed → s.ringError ≠ none ∧
    (∃ t, step s (.mark runner handle) = some t) ∧ step s (.failEnd runner) = none ∧
    ∀ act t, step s act = some t → (runner, handle) ∈ t.failed ∨
      ((t.submissions handle).completed = true ∧ (t.submissions handle).error = s.ringError)
  completes : ∀ runner,
    (∃ as t, (∀ a ∈ as, ∃ handle, a = .mark runner handle) ∧
      dispatcherMachine.exec s as = some t ∧ (∀ handle, (runner, handle) ∉ t.failed) ∧
      t.calls = s.calls ∧
      ∀ handle, (runner, handle) ∈ s.failed → FailedWith t s.ringError handle) ∧
    ∀ handle, (s.calls handle).registered = true → (s.submissions handle).completed = true →
      ∀ act t, step s act = some t → t.submissions handle = s.submissions handle
  fails : ∀ runner handle, (runner, handle) ∈ s.failed →
    Ends s handle fun pc => ∃ error, pc = .failed error ∧
      ((s.calls handle).awaits = true → s.ringError = some error)
  waiting : ∀ handle, s.calls handle = .waiting → (s.submissions handle).completed = false →
    s.ringError ≠ none → (∃ runner, (runner, handle) ∈ s.failed) ∨
      ∃ index completion, s.thread = .delivering index completion handle
  ends : s.ringError ≠ none → ∀ handle, (s.calls handle).registered = true →
    Ends s handle fun pc => (∃ error, pc = .failed error) ∨
      ∃ completion, pc = .returned completion

/-- The law of the dispatcher holds in every run. -/
theorem dispatcherLaw_of_reachable (s : State) (h : dispatcherMachine.Reachable s) :
    DispatcherLaw s := by
  have hinv : Inv s := inv_of_reachable h
  have hrunning : Running s := running_of_reachable h
  refine
    { matched := fun handle completion hreturned => ?_
      final := fun act t hs => (keeps_step hs).final
      deliveries := ⟨hinv.indices_nodup, hinv.handles_nodup⟩
      ids := ⟨hinv.pending_keys_nodup, hinv.keys⟩
      closed := fun error hsome => ?_
      taken := fun hnone act t hs hsome => (keeps_step hs).taken hnone hsome
      marked := fun runner handle hmem => ?_
      completes := fun runner => ⟨?_, fun handle hregistered hcompleted act t hs =>
        completed_step hinv hregistered hcompleted hs⟩
      fails := fun runner handle hmem => ends_of_failed hinv hrunning runner hmem
      ends := fun herror handle hregistered => ends_of_error hinv hrunning herror hregistered
      waiting := fun handle hcall hopen herror => ?_ }
  · obtain ⟨hcompleted, hnone, rfl⟩ := hinv.returned handle completion hreturned
    -- A call that has returned saw no error, so its outcome is a record.
    rcases hinv.outcome handle hcompleted with ⟨-, index, hdelivery, hpopped, hanswers⟩ | hfailed
    · exact ⟨hanswers, index, hdelivery, hpopped⟩
    · obtain ⟨error, hsome, -⟩ := hfailed
      rw [hnone] at hsome
      cases hsome
  · refine ⟨hinv.error_empty (by rw [hsome]; simp), fun act t hs => ?_⟩
    have herror := (keeps_step hs).error error hsome
    exact ⟨herror, (inv_step hinv hs).error_empty (by rw [herror]; simp)⟩
  · refine ⟨hinv.failed_error (List.ne_nil_of_mem hmem), ?_, ?_, fun act t hs => ?_⟩
    · simp [step, mark, hmem]
    · have hany : (s.failed.any fun entry => entry.1 == runner) = true :=
        List.any_eq_true.mpr ⟨(runner, handle), hmem, by simp⟩
      simp [step, failEnd, hany]
    · exact (keeps_step hs).failed (runner, handle) hmem
  · obtain ⟨as, t, hmarks, hrun, hnone, hcalls, hfailed⟩ := exec_marks runner _ s rfl
    exact ⟨as, t, hmarks, hrun, hnone, hcalls, fun handle hmem => hfailed handle (Or.inl hmem)⟩
  · have hcustody := hinv.awaited handle (by rw [hcall]; rfl) hopen
    -- With an empty map, the custody is with the completion thread or with a `fail_ring`.
    rw [custody, hinv.error_empty herror, List.map_nil, List.nil_append] at hcustody
    rcases List.mem_append.mp hcustody with hhand | hfailed
    · refine Or.inr ?_
      cases hthread : s.thread with
      | delivering index completion other =>
        rw [hthread] at hhand
        cases List.mem_singleton.mp hhand
        exact ⟨index, completion, rfl⟩
      | _ => simp [hthread, ThreadPc.hand] at hhand
    · obtain ⟨entry, hentry, rfl⟩ := List.mem_map.mp hfailed
      exact Or.inl ⟨entry.1, hentry⟩

/-- An `INVOKE` command, before it is submitted. -/
def invokeCommand : Record :=
  ((Record.zero.store 0 4 COMMAND_INVOKE).store 24 8 5).store 32 4 9

/-- The completion of `invokeCommand` as the first submission. -/
def invokeCompletion : Record :=
  (((invokeCommand.store 0 4 COMPLETION_INVOKE).store 16 8 1).store 36 4 STATUS_OK)

/-- Two calls, of which the first is answered. The worker sends the same completion again, and
the second call fails. -/
theorem dispatcherLaw_duplicate_completion :
    ∃ s, dispatcherMachine.Reachable s ∧ s.ringError = some .unknownSubmission ∧
      s.deliveries = [(0, 0)] ∧ DispatcherLaw s := by
  obtain ⟨s, hrun, hstate⟩ := Machine.exists_of_exec (M := dispatcherMachine) (s := .init)
    (fun s => s.ringError == some .unknownSubmission && s.deliveries == [(0, 0)])
    [.register 0 invokeCommand false true, .register 1 invokeCommand false true,
      .lockProducer 0, .push 0 none, .lockProducer 1, .push 1 none,
      .pop (.ok invokeCompletion), .lookup, .deliver, .pop (.ok invokeCompletion), .lookup,
      .wake 0, .failBegin none, .mark none 1, .failEnd none, .wake 1] (by decide)
  have hreach := Machine.reachable_of_exec hrun
  simp only [Bool.and_eq_true, beq_iff_eq] at hstate
  exact ⟨s, hreach, hstate.1, hstate.2, dispatcherLaw_of_reachable s hreach⟩

end Wmfs.Session
