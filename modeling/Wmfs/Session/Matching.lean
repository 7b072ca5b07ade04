import Mathlib.Data.List.Perm.Basic
import Wmfs.Session.Dispatcher

/-!
# `Wmfs.Session.Matching`: the dispatcher answers each submission once

A registered submission that has not been completed is in the custody of somebody: it is in
the map `pending`, or the completion thread has taken it out to deliver a record to it, or a
running `fail_ring` has taken it out to fail it. `custody` lists these, and it has no
duplicates. Completing a submission takes it out of the custody. This gives the law: a
submission is completed once, with the record whose identity was compared with its command, or
with the error of the ring.
-/

set_option autoImplicit false

namespace Wmfs.Session

open Wmfs.Lib Wmfs.Ring

/-! ### Published commands -/

section
variable (command : Record) (submissionId : Nat) (profiled : Bool)

/-- The published command has the kind of the command. -/
theorem kind_publishedCommand :
    (publishedCommand command submissionId profiled).kind = command.kind := by
  rw [Record.kind, publishedCommand, Record.load_store_of_disjoint _ _ _ _ (by decide),
    Record.load_store_of_disjoint _ _ _ _ (by decide), Record.kind]

/-- The published command has the number of the submission. -/
theorem submissionId_publishedCommand (h : submissionId < 2 ^ 64) :
    (publishedCommand command submissionId profiled).submissionId = submissionId := by
  rw [Record.submissionId, publishedCommand, Record.load_store_of_disjoint _ _ _ _ (by decide),
    Record.load_store _ _ (by decide)]
  exact Nat.mod_eq_of_lt (by norm_num at h ⊢; exact h)

end

/-- The completion has the identity of the command: its submission id, flags, invocation id
and operation id, and the kind that belongs to the kind of the command. -/
structure Answers (completion command : Record) : Prop where
  submissionId : completion.submissionId = command.submissionId
  kind : completionKind command.kind = some completion.kind
  flags : completion.flags = command.flags
  invocationId : completion.invocationId = command.invocationId
  operationId : completion.operationId = command.operationId

/-- The submission expects the identity of the command. -/
structure Expects (submission : Submission) (command : Record) : Prop where
  kind : completionKind command.kind = some submission.expectedKind
  flags : submission.expectedFlags = command.flags
  invocationId : submission.invocationId = command.invocationId
  operationId : submission.operationId = command.operationId

/-- A new submission expects the completion of its command. -/
theorem expects_newSubmission {command : Record} {kind : Nat}
    (h : completionKind command.kind = some kind) : Expects (newSubmission command kind) command :=
  ⟨h, rfl, rfl, rfl⟩

/-- The comparison of `consume_completions` establishes the identity. -/
theorem answers_of_identifies {completion command : Record} {submission : Submission}
    (hid : completion.submissionId = command.submissionId) (hexpects : Expects submission command)
    (h : identifies completion submission = true) : Answers completion command := by
  -- The tests of the status and of the counts do not matter for the identity.
  simp only [identifies, Bool.and_eq_true, beq_iff_eq] at h
  obtain ⟨⟨⟨⟨⟨⟨⟨⟨hkind, hflags⟩, hinvocation⟩, hoperation⟩, -⟩, -⟩, -⟩, -⟩, -⟩ := h
  refine ⟨hid, ?_, hflags.trans hexpects.flags, hinvocation.trans hexpects.invocationId,
    hoperation.trans hexpects.operationId⟩
  rw [hkind]
  exact hexpects.kind

/-! ### The invariant -/

/-- The submission of the call has been put into the map. -/
def CallPc.registered : CallPc → Bool
  | .idle => false
  | .rejected _ => false
  | _ => true

/-- The call will wait for its submission. -/
def CallPc.awaits : CallPc → Bool
  | .locking => true
  | .pushing => true
  | .waiting => true
  | _ => false

/-- The call is on its way to an exception. -/
def CallPc.throwing : CallPc → Bool
  | .rejected _ => true
  | .erasing _ => true
  | .failing _ => true
  | .marking _ => true
  | .failed _ => true
  | _ => false

/-- The submission that the completion thread has taken out of the map. -/
def ThreadPc.hand : ThreadPc → List Nat
  | .delivering _ _ handle => [handle]
  | _ => []

/-- The popped record that the completion thread works on, with its number. -/
def ThreadPc.record : ThreadPc → Option (Nat × Record)
  | .looking index completion => some (index, completion)
  | .delivering index completion _ => some (index, completion)
  | _ => none

/-- The completion thread has left the loop of `consume_completions` and entered `fail_ring`. -/
def ThreadPc.stopped : ThreadPc → Bool
  | .marking => true
  | .exited => true
  | _ => false

/-- The submissions that somebody will complete. -/
def custody (s : State) : List Nat :=
  s.pending.map Prod.snd ++ (s.thread.hand ++ s.failed.map Prod.snd)

/-- The submission has been completed: with a popped record that answers its command, or with
the error of the ring. -/
def Outcome (s : State) (handle : Nat) : Prop :=
  ((s.submissions handle).error = none ∧ ∃ index, (index, handle) ∈ s.deliveries ∧
    s.popped[index]? = some (s.submissions handle).completion ∧
    Answers (s.submissions handle).completion (s.commands handle)) ∨
  ∃ error, (s.submissions handle).error = some error ∧ s.ringError = some error

/-- The invariant of the dispatcher. -/
structure Inv (s : State) : Prop where
  custody_nodup : (custody s).Nodup
  custody_open : ∀ handle ∈ custody s, (s.calls handle).registered = true ∧
    (s.submissions handle).completed = false
  awaited : ∀ handle, (s.calls handle).awaits = true →
    (s.submissions handle).completed = false → handle ∈ custody s
  keys : ∀ item ∈ s.pending, (s.commands item.2).submissionId = item.1
  expects : ∀ handle, (s.calls handle).registered = true →
    Expects (s.submissions handle) (s.commands handle)
  next_lt : s.nextSubmission < 2 ^ 64
  ids_lt : ∀ handle, (s.calls handle).registered = true → s.nextSubmission ≠ 0 →
    (s.commands handle).submissionId < s.nextSubmission
  ids_inj : ∀ handle other, (s.calls handle).registered = true →
    (s.calls other).registered = true →
    (s.commands handle).submissionId = (s.commands other).submissionId → handle = other
  error_empty : s.ringError ≠ none → s.pending = []
  failed_error : s.failed ≠ [] → s.ringError ≠ none
  stopped_error : s.thread.stopped = true → s.ringError ≠ none
  record : ∀ index completion, s.thread.record = some (index, completion) →
    s.popped[index]? = some completion ∧ index ∉ s.deliveries.map Prod.fst
  answers : ∀ index completion handle, s.thread = .delivering index completion handle →
    Answers completion (s.commands handle)
  open_error : ∀ handle, (s.submissions handle).completed = false →
    (s.submissions handle).error = none
  outcome : ∀ handle, (s.submissions handle).completed = true → Outcome s handle
  returned : ∀ handle completion, s.calls handle = .returned completion →
    (s.submissions handle).completed = true ∧ (s.submissions handle).error = none ∧
      (s.submissions handle).completion = completion
  delivered : ∀ delivery ∈ s.deliveries, (s.calls delivery.2).registered = true ∧
    (s.submissions delivery.2).completed = true
  delivered_lt : ∀ delivery ∈ s.deliveries, delivery.1 < s.popped.length
  indices_nodup : (s.deliveries.map Prod.fst).Nodup
  handles_nodup : (s.deliveries.map Prod.snd).Nodup

section
variable {s t : State} {handle : Nat}

/-- The keys of the map are distinct: two entries have different submissions, whose commands
have different ids. -/
theorem Inv.pending_keys_nodup (h : Inv s) : (s.pending.map Prod.fst).Nodup := by
  have hsnd : (s.pending.map Prod.snd).Nodup := (List.nodup_append.mp h.custody_nodup).1
  have hregistered : ∀ item ∈ s.pending, (s.calls item.2).registered = true := fun item hmem =>
    (h.custody_open item.2 (List.mem_append_left _ (List.mem_map_of_mem hmem))).1
  -- Entries with one key would have commands with one id, hence one submission.
  rw [List.Nodup, List.pairwise_map] at hsnd ⊢
  refine hsnd.imp_of_mem fun {a b} ha hb hne heq => hne ?_
  refine h.ids_inj a.2 b.2 (hregistered a ha) (hregistered b hb) ?_
  rw [h.keys a ha, h.keys b hb, heq]

/-- A call moves on, without its registration changing. -/
theorem Inv.goto (h : Inv s) {pc : CallPc} (hregistered : pc.registered = (s.calls handle).registered)
    (hawaits : pc.awaits = true → (s.calls handle).awaits = true)
    (hreturned : ∀ completion, pc = .returned completion →
      (s.submissions handle).completed = true ∧ (s.submissions handle).error = none ∧
        (s.submissions handle).completion = completion) : Inv (s.goto handle pc) := by
  have hsame : ∀ other, ((s.goto handle pc).calls other).registered =
      (s.calls other).registered := by
    intro other
    by_cases heq : other = handle
    · subst heq
      simp [State.goto, hregistered]
    · simp [State.goto, Function.update_of_ne heq]
  refine { h with
    custody_open := fun other hmem => ?_
    awaited := fun other hother hopen => ?_
    expects := fun other hother => h.expects other ((hsame other).symm.trans hother)
    ids_lt := fun other hother => h.ids_lt other ((hsame other).symm.trans hother)
    ids_inj := fun a b ha hb => h.ids_inj a b ((hsame a).symm.trans ha) ((hsame b).symm.trans hb)
    returned := fun other completion hother => ?_
    delivered := fun delivery hmem => ?_ }
  · rw [hsame other]
    exact h.custody_open other hmem
  · refine h.awaited other ?_ hopen
    by_cases heq : other = handle
    · subst heq
      simp only [State.goto, Function.update_self] at hother
      exact hawaits hother
    · simp only [State.goto, Function.update_of_ne heq] at hother
      exact hother
  · by_cases heq : other = handle
    · subst heq
      simp only [State.goto, Function.update_self] at hother
      exact hreturned completion hother
    · simp only [State.goto, Function.update_of_ne heq] at hother
      exact h.returned other completion hother
  · rw [hsame]
    exact h.delivered delivery hmem

/-- A call goes on to an exception, and waits for nothing any more. -/
theorem Inv.goto_throwing (h : Inv s) {pc : CallPc}
    (hregistered : pc.registered = (s.calls handle).registered) (hthrowing : pc.throwing = true) :
    Inv (s.goto handle pc) := by
  refine h.goto hregistered (fun hawaits => ?_) (fun completion hreturned => ?_)
  · cases pc <;> cases hthrowing <;> cases hawaits
  · rw [hreturned] at hthrowing
    cases hthrowing

/-! ### Steps -/

/-- The outcome of a submission that does not change. -/
theorem Outcome.congr (h : Outcome s handle) (hsubmission : t.submissions handle = s.submissions handle)
    (hcommand : t.commands handle = s.commands handle)
    (hdeliveries : ∀ delivery ∈ s.deliveries, delivery ∈ t.deliveries)
    (hpopped : ∀ (index : Nat) (completion : Record), s.popped[index]? = some completion →
      t.popped[index]? = some completion)
    (hring : ∀ error, s.ringError = some error → t.ringError = some error) : Outcome t handle := by
  rw [Outcome, hsubmission, hcommand]
  rcases h with ⟨herror, index, hdelivery, hrecord, hanswers⟩ | ⟨error, herror, hsome⟩
  · exact Or.inl ⟨herror, index, hdeliveries _ hdelivery, hpopped _ _ hrecord, hanswers⟩
  · exact Or.inr ⟨error, herror, hring error hsome⟩

/-- The completion thread moves on, without taking a submission or giving one away. -/
theorem Inv.setThread (h : Inv s) {pc : ThreadPc} (hold : s.thread.hand = []) (hnew : pc.hand = [])
    (hrecord : ∀ index completion, pc.record = some (index, completion) →
      s.popped[index]? = some completion ∧ index ∉ s.deliveries.map Prod.fst)
    (hstopped : pc.stopped = true → s.ringError ≠ none) : Inv { s with thread := pc } := by
  have hcustody : custody { s with thread := pc } = custody s := by
    show s.pending.map Prod.snd ++ (pc.hand ++ _) = _
    rw [hnew, custody, hold]
  refine { h with
    custody_nodup := by rw [hcustody]; exact h.custody_nodup
    custody_open := by rw [hcustody]; exact h.custody_open
    awaited := by rw [hcustody]; exact h.awaited
    stopped_error := hstopped
    record := hrecord
    answers := fun index completion handle heq => ?_ }
  change pc = _ at heq
  rw [heq] at hnew
  cases hnew

/-- `pop` keeps the invariant. -/
theorem inv_pop (h : Inv s) {outcome : Except Error Record} (hs : pop s outcome = some t) :
    Inv t := by
  unfold pop at hs
  split at hs
  · rename_i completion hthread
    cases hs
    have hgrow : ∀ (index : Nat) (record : Record), s.popped[index]? = some record →
        (s.popped ++ [completion])[index]? = some record := by
      intro index record hsome
      rw [List.getElem?_append_left (List.getElem?_eq_some_iff.mp hsome).1]
      exact hsome
    -- First the record is popped, and then the thread looks at it.
    have hpopped : Inv { s with popped := s.popped ++ [completion] } := by
      refine { h with
        record := fun index record hsome =>
          ⟨hgrow _ _ (h.record index record hsome).1, (h.record index record hsome).2⟩
        outcome := fun other hother => (h.outcome other hother).congr rfl rfl
          (fun _ hmem => hmem) hgrow fun _ hsome => hsome
        delivered_lt := fun delivery hmem => ?_ }
      have hlt := h.delivered_lt delivery hmem
      simp only [List.length_append, List.length_singleton]
      omega
    -- The number of the record is new: all delivered ones are smaller.
    refine hpopped.setThread (by simp [hthread, ThreadPc.hand]) rfl (fun index record hsome => ?_)
      (fun hstopped => by cases hstopped)
    cases hsome
    refine ⟨by simp, fun hmem => ?_⟩
    obtain ⟨delivery, hdelivery, hindex⟩ := List.mem_map.mp hmem
    have hlt := h.delivered_lt delivery hdelivery
    omega
  · rename_i error hthread
    cases hs
    exact h.setThread (by simp [hthread, ThreadPc.hand]) rfl (fun _ _ hsome => by cases hsome)
      (fun hstopped => by cases hstopped)
  · cases hs

/-- The critical section of `fail_ring` moves the custody of the map to the caller. -/
theorem Inv.failRing (h : Inv s) (runner : Runner) (error : Error) :
    Inv (failRing s runner error) := by
  -- The submissions of the map go to the end of the list of the caller.
  have hperm : (custody (Session.failRing s runner error)).Perm (custody s) := by
    show (([] : List (Nat × Nat)).map Prod.snd ++ (s.thread.hand ++
      (s.failed ++ s.pending.map fun item => (runner, item.2)).map Prod.snd)).Perm (custody s)
    rw [List.map_nil, List.nil_append, List.map_append, List.map_map, ← List.append_assoc]
    exact List.perm_append_comm
  refine { h with
    custody_nodup := hperm.nodup_iff.mpr h.custody_nodup
    custody_open := fun other hmem => h.custody_open other (hperm.mem_iff.mp hmem)
    awaited := fun other hother hopen => hperm.mem_iff.mpr (h.awaited other hother hopen)
    keys := fun item hmem => by cases hmem
    error_empty := fun _ => rfl
    failed_error := fun _ hnone => by cases hnone
    stopped_error := fun _ hnone => by cases hnone
    outcome := fun other hother => (h.outcome other hother).congr rfl rfl (fun _ hmem => hmem)
      (fun _ _ hsome => hsome) fun error' hsome => ?_ }
  -- An outcome with the error of the ring keeps it, since the first error stays.
  show some (s.ringError.getD error) = some error'
  rw [hsome, Option.getD_some]

/-- Entering `fail_ring` keeps the invariant. -/
theorem inv_failBegin (h : Inv s) {runner : Runner} (hs : failBegin s runner = some t) :
    Inv t := by
  cases runner with
  | some handle =>
    simp only [failBegin] at hs
    split at hs
    · rename_i error hcall
      cases hs
      have hpc : (Session.failRing s (some handle) error).calls handle = .failing error := hcall
      exact (h.failRing (some handle) error).goto_throwing (by rw [hpc]; rfl) rfl
    · cases hs
  | none =>
    simp only [failBegin] at hs
    split at hs
    · rename_i error hthread
      cases hs
      refine (h.failRing none error).setThread ?_ rfl (fun _ _ hsome => by cases hsome)
        (fun _ hnone => by cases hnone)
      show s.thread.hand = []
      rw [hthread]
      rfl
    · cases hs

/-- Leaving `fail_ring` keeps the invariant. -/
theorem inv_failEnd (h : Inv s) {runner : Runner} (hs : failEnd s runner = some t) : Inv t := by
  unfold failEnd at hs
  split at hs
  · cases hs
  cases runner with
  | some handle =>
    simp only at hs
    split at hs
    · rename_i error hcall
      cases hs
      exact h.goto_throwing (by rw [hcall]; rfl) rfl
    · cases hs
  | none =>
    simp only at hs
    split at hs
    · rename_i hthread
      cases hs
      -- The thread exits from the loop of `fail_ring`, which has set the error before.
      refine h.setThread (by rw [hthread]; rfl) rfl (fun _ _ hsome => by cases hsome) fun _ => ?_
      exact h.stopped_error (by rw [hthread]; rfl)
    · cases hs

/-- The steps of a call that change nothing that is shared keep the invariant. -/
theorem inv_lockProducer (h : Inv s) (hs : lockProducer s handle = some t) : Inv t := by
  unfold lockProducer at hs
  split at hs
  · rename_i hcall _
    cases hs
    have hmoved : Inv (s.goto handle .pushing) :=
      h.goto (by rw [hcall]; rfl) (fun _ => by rw [hcall]; rfl) (fun _ hreturned => by cases hreturned)
    exact { hmoved with }
  · cases hs

/-- `push` keeps the invariant. -/
theorem inv_push (h : Inv s) {outcome : Option Error} (hs : push s handle outcome = some t) :
    Inv t := by
  unfold push at hs
  split at hs
  · rename_i hcall
    cases hs
    have hmoved : Inv (s.goto handle .waiting) :=
      h.goto (by rw [hcall]; rfl) (fun _ => by rw [hcall]; rfl) (fun _ hreturned => by cases hreturned)
    exact { hmoved with }
  · rename_i error hcall
    cases hs
    have hmoved : Inv (s.goto handle (.erasing error)) :=
      h.goto_throwing (by rw [hcall]; rfl) rfl
    exact { hmoved with }
  · cases hs

/-- `expire` keeps the invariant. -/
theorem inv_expire (h : Inv s) (hs : expire s handle = some t) : Inv t := by
  unfold expire at hs
  split at hs
  · rename_i hcall
    split at hs
    · cases hs
    · cases hs
      exact h.goto_throwing (by rw [hcall]; rfl) rfl
  · cases hs

/-- `wake` keeps the invariant. -/
theorem inv_wake (h : Inv s) (hs : wake s handle = some t) : Inv t := by
  unfold wake at hs
  split at hs
  · rename_i hcall
    split at hs
    · rename_i hcompleted
      split at hs
      · cases hs
        exact h.goto_throwing (by rw [hcall]; rfl) rfl
      · rename_i herror
        cases hs
        refine h.goto (by rw [hcall]; rfl) (fun hawaits => by cases hawaits)
          (fun completion hreturned => ?_)
        cases hreturned
        exact ⟨hcompleted, herror, rfl⟩
    · cases hs
  · cases hs

/-- Completing a submission takes it out of the custody, and changes no other one. The first
six hypotheses are about the completed submission, the others about the rest of the state. -/
theorem Inv.complete (h : Inv s) {f : Submission → Submission} {failed : List (Runner × Nat)}
    {thread : ThreadPc} {deliveries : List (Nat × Nat)}
    (ht : t = { s.modifySubmission handle f with
      failed := failed, thread := thread, deliveries := deliveries })
    (hperm : (custody s).Perm (handle :: custody t))
    (hcompleted : (f (s.submissions handle)).completed = true)
    (hkind : (f (s.submissions handle)).expectedKind = (s.submissions handle).expectedKind)
    (hflags : (f (s.submissions handle)).expectedFlags = (s.submissions handle).expectedFlags)
    (hinvocation : (f (s.submissions handle)).invocationId = (s.submissions handle).invocationId)
    (hoperation : (f (s.submissions handle)).operationId = (s.submissions handle).operationId)
    (houtcome : Outcome t handle)
    (hfailed : failed ≠ [] → s.ringError ≠ none) (hstopped : thread.stopped = s.thread.stopped)
    (hrecord : ∀ index completion, thread.record = some (index, completion) →
      s.popped[index]? = some completion ∧ index ∉ deliveries.map Prod.fst)
    (hanswers : ∀ index completion other, thread = .delivering index completion other →
      Answers completion (s.commands other))
    (hdeliveries : ∀ delivery ∈ s.deliveries, delivery ∈ deliveries)
    (hnew : ∀ delivery ∈ deliveries, delivery ∈ s.deliveries ∨
      (delivery.2 = handle ∧ delivery.1 < s.popped.length))
    (hindices : (deliveries.map Prod.fst).Nodup) (hhandles : (deliveries.map Prod.snd).Nodup) :
    Inv t := by
  -- The custody of `s` is that of `t` and the completed submission, which `t` has no more.
  have hnodup : (handle :: custody t).Nodup := hperm.nodup_iff.mp h.custody_nodup
  rw [List.nodup_cons] at hnodup
  have hwas := h.custody_open handle (hperm.mem_iff.mpr List.mem_cons_self)
  have hself : t.submissions handle = f (s.submissions handle) := by
    rw [ht]
    simp [State.modifySubmission]
  have hothers : ∀ other, other ≠ handle → t.submissions other = s.submissions other := by
    intro other hne
    rw [ht]
    simp [State.modifySubmission, Function.update_of_ne hne]
  have hmem : ∀ other ∈ custody t, other ∈ custody s ∧ other ≠ handle := by
    intro other hother
    refine ⟨hperm.mem_iff.mpr (List.mem_cons_of_mem _ hother), ?_⟩
    rintro rfl
    exact hnodup.1 hother
  -- A submission that is open in `t` is another one.
  have hopenNe : ∀ other, (t.submissions other).completed = false → other ≠ handle := by
    rintro other hopen rfl
    rw [hself, hcompleted] at hopen
    cases hopen
  have hcalls : t.calls = s.calls := by rw [ht]; rfl
  have hcommands : t.commands = s.commands := by rw [ht]; rfl
  have hpending : t.pending = s.pending := by rw [ht]; rfl
  have hpopped : t.popped = s.popped := by rw [ht]; rfl
  have hring : t.ringError = s.ringError := by rw [ht]; rfl
  have hnext : t.nextSubmission = s.nextSubmission := by rw [ht]; rfl
  have hfailed' : t.failed = failed := by rw [ht]
  have hthread : t.thread = thread := by rw [ht]
  have hdelivered : t.deliveries = deliveries := by rw [ht]
  refine
    { custody_nodup := hnodup.2
      custody_open := fun other hother => ?_
      awaited := fun other hother hopen => ?_
      keys := by rw [hpending, hcommands]; exact h.keys
      expects := fun other hother => ?_
      next_lt := by rw [hnext]; exact h.next_lt
      ids_lt := by rw [hcalls, hcommands, hnext]; exact h.ids_lt
      ids_inj := by rw [hcalls, hcommands]; exact h.ids_inj
      error_empty := by rw [hring, hpending]; exact h.error_empty
      failed_error := by rw [hring, hfailed']; exact hfailed
      stopped_error := by rw [hring, hthread, hstopped]; exact h.stopped_error
      record := by rw [hthread, hpopped, hdelivered]; exact hrecord
      answers := by rw [hthread, hcommands]; exact hanswers
      open_error := fun other hopen => ?_
      outcome := fun other hother => ?_
      returned := fun other completion hother => ?_
      delivered := fun delivery hother => ?_
      delivered_lt := fun delivery hother => ?_
      indices_nodup := by rw [hdelivered]; exact hindices
      handles_nodup := by rw [hdelivered]; exact hhandles }
  · rw [hcalls, hothers other (hmem other hother).2]
    exact h.custody_open other (hmem other hother).1
  · have hne := hopenNe other hopen
    rw [hothers other hne] at hopen
    rw [hcalls] at hother
    exact List.mem_of_ne_of_mem hne (hperm.mem_iff.mp (h.awaited other hother hopen))
  · rw [hcalls] at hother
    have hexpects := h.expects other hother
    rw [hcommands]
    by_cases heq : other = handle
    · subst heq
      rw [hself]
      exact ⟨hkind ▸ hexpects.kind, hflags.trans hexpects.flags,
        hinvocation.trans hexpects.invocationId, hoperation.trans hexpects.operationId⟩
    · rw [hothers other heq]
      exact hexpects
  · have hne := hopenNe other hopen
    rw [hothers other hne] at hopen ⊢
    exact h.open_error other hopen
  · by_cases heq : other = handle
    · subst heq
      exact houtcome
    · rw [hothers other heq] at hother
      refine (h.outcome other hother).congr (hothers other heq) (by rw [hcommands]) ?_ ?_ ?_
      · rw [hdelivered]
        exact hdeliveries
      · rw [hpopped]
        exact fun _ _ hsome => hsome
      · rw [hring]
        exact fun _ hsome => hsome
  · rw [hcalls] at hother
    -- A call has returned only with a completed submission, and this one was open.
    have hdone := h.returned other completion hother
    have hne : other ≠ handle := by
      rintro rfl
      rw [hdone.1] at hwas
      cases hwas.2
    rw [hothers other hne]
    exact hdone
  · rw [hdelivered] at hother
    rw [hcalls]
    by_cases heq : delivery.2 = handle
    · rw [heq, hself]
      exact ⟨hwas.1, hcompleted⟩
    · rw [hothers _ heq]
      rcases hnew delivery hother with hold | hnew
      · exact h.delivered delivery hold
      · exact absurd hnew.1 heq
  · rw [hdelivered] at hother
    rw [hpopped]
    rcases hnew delivery hother with hold | hnew
    · exact h.delivered_lt delivery hold
    · exact hnew.2

/-- The loop of `fail_ring` keeps the invariant. -/
theorem inv_mark (h : Inv s) {runner : Runner} (hs : mark s runner handle = some t) : Inv t := by
  unfold mark at hs
  split at hs
  swap
  · cases hs
  rename_i hmem
  have hne : s.failed ≠ [] := List.ne_nil_of_mem hmem
  obtain ⟨error, herror⟩ := Option.ne_none_iff_exists'.mp (h.failed_error hne)
  -- The entry leaves the list of the caller, and with it the custody.
  have hperm : (s.failed.map Prod.snd).Perm
      (handle :: (s.failed.erase (runner, handle)).map Prod.snd) :=
    (List.perm_cons_erase hmem).map Prod.snd
  refine h.complete (Option.some.inj hs).symm ?_ rfl rfl rfl rfl rfl ?_ (fun _ => h.failed_error hne)
    rfl h.record h.answers (fun _ hmem => hmem) (fun _ hmem => Or.inl hmem) h.indices_nodup
    h.handles_nodup
  · cases hs
    show (_ ++ (_ ++ s.failed.map Prod.snd)).Perm
      (handle :: (_ ++ (_ ++ (s.failed.erase (runner, handle)).map Prod.snd)))
    refine ((hperm.append_left _).append_left _).trans ?_
    rw [← List.append_assoc, ← List.append_assoc]
    exact List.perm_middle
  · cases hs
    -- The outcome is the error of the ring.
    refine Or.inr ⟨error, ?_, herror⟩
    simp [State.modifySubmission, herror]

/-- The delivery of a completion keeps the invariant. -/
theorem inv_deliver (h : Inv s) (hs : deliver s = some t) : Inv t := by
  unfold deliver at hs
  split at hs
  swap
  · cases hs
  rename_i index completion handle hthread
  obtain ⟨hrecord, hindex⟩ := h.record index completion (by rw [hthread]; rfl)
  have hhand : handle ∈ custody s := by
    rw [custody, hthread]
    simp [ThreadPc.hand]
  have hopen := (h.custody_open handle hhand).2
  refine h.complete (Option.some.inj hs).symm ?_ rfl rfl rfl rfl rfl ?_ h.failed_error
    (by rw [hthread]; rfl) (fun _ _ hsome => by cases hsome) (fun _ _ _ heq => by cases heq)
    (fun _ hmem => List.mem_cons_of_mem _ hmem) (fun delivery hmem => ?_) ?_ ?_
  · cases hs
    rw [custody, hthread]
    exact List.perm_middle
  · cases hs
    -- The outcome is the popped record.
    refine Or.inl ⟨?_, index, List.mem_cons_self, ?_, ?_⟩
    · simp only [State.modifySubmission, Function.update_self]
      exact h.open_error handle hopen
    · simp only [State.modifySubmission, Function.update_self]
      exact hrecord
    · simp only [State.modifySubmission, Function.update_self]
      exact h.answers index completion handle hthread
  · rcases List.mem_cons.mp hmem with rfl | hmem
    · exact Or.inr ⟨rfl, (List.getElem?_eq_some_iff.mp hrecord).1⟩
    · exact Or.inl hmem
  · exact List.nodup_cons.mpr ⟨hindex, h.indices_nodup⟩
  -- An earlier delivery would have completed the submission.
  · refine List.nodup_cons.mpr ⟨fun hmem => ?_, h.handles_nodup⟩
    obtain ⟨delivery, hdelivery, heq⟩ := List.mem_map.mp hmem
    have hdone := (h.delivered delivery hdelivery).2
    rw [heq, hopen] at hdone
    cases hdone

/-- Erasing a key from a map with distinct keys removes the entry of that key. -/
theorem perm_erase {item : Nat × Nat} : ∀ {pending : List (Nat × Nat)},
    (pending.map Prod.fst).Nodup → item ∈ pending →
    pending.Perm (item :: erase pending item.1) := by
  intro pending
  induction pending with
  | nil => intro _ hmem; cases hmem
  | cons head rest ih =>
    intro hnodup hmem
    rw [List.map_cons, List.nodup_cons] at hnodup
    rcases List.mem_cons.mp hmem with rfl | hmem
    · -- No other entry has the key of the head.
      have hrest : erase rest item.1 = rest := by
        refine List.filter_eq_self.mpr fun other hother => ?_
        rw [bne_iff_ne]
        intro heq
        exact hnodup.1 (heq ▸ List.mem_map_of_mem hother)
      have hhead : erase (item :: rest) item.1 = erase rest item.1 := by simp [erase]
      rw [hhead, hrest]
    · have hne : head.1 ≠ item.1 := by
        intro heq
        exact hnodup.1 (heq ▸ List.mem_map_of_mem hmem)
      have hhead : erase (head :: rest) item.1 = head :: erase rest item.1 := by
        simp [erase, hne]
      rw [hhead]
      exact ((ih hnodup.2 hmem).cons head).trans (List.Perm.swap _ _ _)

/-- What is pending after a removal was pending before. -/
theorem mem_of_mem_erase {pending : List (Nat × Nat)} {submissionId : Nat} {item : Nat × Nat}
    (h : item ∈ erase pending submissionId) : item ∈ pending :=
  (List.mem_filter.mp h).1

/-- Looking up a completion keeps the invariant. -/
theorem inv_lookup (h : Inv s) (hs : lookup s = some t) : Inv t := by
  unfold lookup at hs
  split at hs
  swap
  · cases hs
  rename_i index completion hthread
  have hhand : s.thread.hand = [] := by rw [hthread]; rfl
  split at hs
  · cases hs
    exact h.setThread hhand rfl (fun _ _ hsome => by cases hsome) (fun hstopped => by cases hstopped)
  · rename_i submissionId handle hfind
    split at hs
    · rename_i hidentifies
      cases hs
      have hmem : (submissionId, handle) ∈ s.pending := List.mem_of_find?_eq_some hfind
      have hkey : submissionId = completion.submissionId := by
        simpa using List.find?_some hfind
      have hregistered := (h.custody_open handle (List.mem_append_left _
        (List.mem_map_of_mem hmem))).1
      -- The submission moves from the map into the hand of the completion thread.
      have hperm : ((erase s.pending submissionId).map Prod.snd ++
          ([handle] ++ s.failed.map Prod.snd)).Perm (custody s) := by
        have herase := (perm_erase h.pending_keys_nodup hmem).map Prod.snd
        rw [custody, hhand, List.nil_append]
        refine List.perm_middle.trans ?_
        exact (herase.append_right _).symm
      refine { h with
        custody_nodup := hperm.nodup_iff.mpr h.custody_nodup
        custody_open := fun other hother => h.custody_open other (hperm.mem_iff.mp hother)
        awaited := fun other hother hopen => hperm.mem_iff.mpr (h.awaited other hother hopen)
        keys := fun item hitem => h.keys item (mem_of_mem_erase hitem)
        error_empty := fun herror => ?_
        stopped_error := fun hstopped => by cases hstopped
        record := fun index' completion' hsome => ?_
        answers := fun index' completion' other heq => ?_ }
      · rw [h.error_empty herror] at hmem
        cases hmem
      · refine h.record index' completion' ?_
        rw [hthread]
        exact hsome
      · cases heq
        -- The id is compared by the lookup, the other fields by the test.
        refine answers_of_identifies ?_ (h.expects handle hregistered) hidentifies
        rw [← hkey]
        exact (h.keys _ hmem).symm
    · cases hs
      exact h.setThread hhand rfl (fun _ _ hsome => by cases hsome)
        (fun hstopped => by cases hstopped)

/-- A call whose push failed takes its submission out of the map. -/
theorem inv_eraseOwn (h : Inv s) (hs : eraseOwn s handle = some t) : Inv t := by
  unfold eraseOwn at hs
  split at hs
  swap
  · cases hs
  rename_i error hcall
  cases hs
  have hregistered : (s.calls handle).registered = true := by rw [hcall]; rfl
  have hmoved : Inv (s.goto handle (.failing error)) :=
    h.goto_throwing (by rw [hcall]; rfl) rfl
  have hsublist : ((erase s.pending (s.commands handle).submissionId).map Prod.snd).Sublist
      (s.pending.map Prod.snd) := List.filter_sublist.map Prod.snd
  have hsub := hsublist.append_right (s.thread.hand ++ s.failed.map Prod.snd)
  refine { hmoved with
    custody_nodup := h.custody_nodup.sublist hsub
    custody_open := fun other hother => hmoved.custody_open other (hsub.subset hother)
    awaited := fun other hother hopen => ?_
    keys := fun item hitem => h.keys item (mem_of_mem_erase hitem)
    error_empty := fun herror => ?_ }
  · -- Another call's submission has another key.
    have hne : other ≠ handle := by
      rintro rfl
      simp [State.goto, CallPc.awaits] at hother
    have hin := hmoved.awaited other hother hopen
    rcases List.mem_append.mp hin with hpending | hrest
    · refine List.mem_append_left _ ?_
      obtain ⟨item, hitem, rfl⟩ := List.mem_map.mp hpending
      refine List.mem_map_of_mem (List.mem_filter.mpr ⟨hitem, ?_⟩)
      rw [bne_iff_ne]
      intro heq
      have hother' := (h.custody_open item.2 (List.mem_append_left _ hpending)).1
      refine hne (h.ids_inj item.2 handle hother' hregistered ?_)
      rw [← heq]
      exact h.keys item hitem
    · exact List.mem_append_right _ hrest
  · show erase s.pending _ = []
    rw [h.error_empty herror]
    rfl

/-- The registration of a submission keeps the invariant. -/
theorem inv_register (h : Inv s) {command : Record} {profiled positive : Bool}
    (hs : register s handle command profiled positive = some t) : Inv t := by
  unfold register at hs
  split at hs
  swap
  · cases hs
  rename_i hidle
  -- A call that throws at once is not registered, before or after.
  have hreject : ∀ error, Inv (s.goto handle (.rejected error)) := fun error =>
    h.goto_throwing (by rw [hidle]; rfl) rfl
  split at hs
  · cases hs
    exact hreject _
  split at hs
  · cases hs
    exact hreject _
  rename_i kind hkind
  split at hs
  · cases hs
    exact hreject _
  rename_i hring
  split at hs
  · cases hs
    exact hreject _
  rename_i hnext
  have hne : ∀ other, (s.calls other).registered = true → other ≠ handle := by
    rintro other hother rfl
    rw [hidle] at hother
    cases hother
  let published := publishedCommand command s.nextSubmission profiled
  have hid : published.submissionId = s.nextSubmission :=
    submissionId_publishedCommand command s.nextSubmission profiled h.next_lt
  -- The ids of pending submissions are smaller, so that `emplace` enters the new one.
  have hfresh : ∀ item ∈ s.pending, item.1 ≠ s.nextSubmission := by
    intro item hmem
    have hregistered := (h.custody_open item.2
      (List.mem_append_left _ (List.mem_map_of_mem hmem))).1
    have hlt := h.ids_lt item.2 hregistered hnext
    rw [h.keys item hmem] at hlt
    omega
  have hemplace : emplace s.pending s.nextSubmission handle =
      (s.nextSubmission, handle) :: s.pending := by
    unfold emplace
    rw [if_neg]
    intro hany
    obtain ⟨item, hmem, heq⟩ := List.any_eq_true.mp hany
    exact hfresh item hmem (by simpa using heq)
  let u : State := { s.goto handle .locking with
    commands := Function.update s.commands handle published
    submissions := Function.update s.submissions handle (newSubmission published kind)
    nextSubmission := (s.nextSubmission + 1) % 2 ^ 64
    pending := (s.nextSubmission, handle) :: s.pending }
  have hu : t = u := by
    rw [← Option.some.inj hs]
    simp only [hemplace]
    rfl
  have hcalls : ∀ other, other ≠ handle → u.calls other = s.calls other := fun other hother => by
    simp [u, State.goto, Function.update_of_ne hother]
  have hcommands : ∀ other, other ≠ handle → u.commands other = s.commands other :=
    fun other hother => by simp [u, Function.update_of_ne hother]
  have hsubmissions : ∀ other, other ≠ handle → u.submissions other = s.submissions other :=
    fun other hother => by simp [u, Function.update_of_ne hother]
  have hcallSelf : u.calls handle = .locking := by simp [u, State.goto]
  have hcommandSelf : u.commands handle = published := by simp [u]
  have hsubmissionSelf : u.submissions handle = newSubmission published kind := by simp [u]
  have hcustodyNe : ∀ other ∈ custody s, other ≠ handle := fun other hmem =>
    hne other (h.custody_open other hmem).1
  have hcustody : custody u = handle :: custody s := rfl
  -- The new id is the largest one, unless the counter has just wrapped.
  have hids : ∀ other, other ≠ handle → (u.calls other).registered = true →
      (u.commands other).submissionId < s.nextSubmission := by
    intro other hother hregistered
    rw [hcalls other hother] at hregistered
    rw [hcommands other hother]
    exact h.ids_lt other hregistered hnext
  rw [hu]
  -- Each field: the new call by its definition, the others as before.
  refine
    { custody_nodup := ?_
      custody_open := fun other hmem => ?_
      awaited := fun other hother hopen => ?_
      keys := fun item hmem => ?_
      expects := fun other hother => ?_
      next_lt := Nat.mod_lt _ (by decide)
      ids_lt := fun other hother hnonzero => ?_
      ids_inj := fun a b ha hb heq => ?_
      error_empty := fun herror => absurd hring herror
      failed_error := h.failed_error
      stopped_error := h.stopped_error
      record := h.record
      answers := fun index completion other hthread => ?_
      open_error := fun other hopen => ?_
      outcome := fun other hother => ?_
      returned := fun other completion hother => ?_
      delivered := fun delivery hmem => ?_
      delivered_lt := h.delivered_lt
      indices_nodup := h.indices_nodup
      handles_nodup := h.handles_nodup }
  · rw [hcustody]
    exact List.nodup_cons.mpr ⟨fun hmem => hcustodyNe handle hmem rfl, h.custody_nodup⟩
  · rw [hcustody] at hmem
    rcases List.mem_cons.mp hmem with rfl | hmem
    · rw [hcallSelf, hsubmissionSelf]
      exact ⟨rfl, rfl⟩
    · rw [hcalls other (hcustodyNe other hmem), hsubmissions other (hcustodyNe other hmem)]
      exact h.custody_open other hmem
  · rw [hcustody]
    by_cases heq : other = handle
    · rw [heq]
      exact List.mem_cons_self
    · rw [hcalls other heq] at hother
      rw [hsubmissions other heq] at hopen
      exact List.mem_cons_of_mem _ (h.awaited other hother hopen)
  · rcases List.mem_cons.mp hmem with rfl | hmem
    · rw [hcommandSelf]
      exact hid
    · have hitemNe := hcustodyNe item.2 (List.mem_append_left _ (List.mem_map_of_mem hmem))
      rw [hcommands _ hitemNe]
      exact h.keys item hmem
  · by_cases heq : other = handle
    · subst heq
      rw [hsubmissionSelf, hcommandSelf]
      refine expects_newSubmission ?_
      rw [kind_publishedCommand]
      exact hkind
    · rw [hcalls other heq] at hother
      rw [hsubmissions other heq, hcommands other heq]
      exact h.expects other hother
  · change (s.nextSubmission + 1) % 2 ^ 64 ≠ 0 at hnonzero
    show (u.commands other).submissionId < (s.nextSubmission + 1) % 2 ^ 64
    have hlt := h.next_lt
    have hmod : (s.nextSubmission + 1) % 2 ^ 64 = s.nextSubmission + 1 := by
      by_cases hlast : s.nextSubmission + 1 = 2 ^ 64
      · rw [hlast, Nat.mod_self] at hnonzero
        exact absurd rfl hnonzero
      · exact Nat.mod_eq_of_lt (by omega)
    rw [hmod]
    by_cases heq : other = handle
    · subst heq
      rw [hcommandSelf, hid]
      omega
    · have hbelow := hids other heq hother
      omega
  · by_cases hah : a = handle
    · by_cases hbh : b = handle
      · rw [hah, hbh]
      · have hbelow := hids b hbh hb
        rw [← heq, hah, hcommandSelf, hid] at hbelow
        omega
    · by_cases hbh : b = handle
      · have hbelow := hids a hah ha
        rw [heq, hbh, hcommandSelf, hid] at hbelow
        omega
      · rw [hcalls a hah] at ha
        rw [hcalls b hbh] at hb
        rw [hcommands a hah, hcommands b hbh] at heq
        exact h.ids_inj a b ha hb heq
  · change s.thread = _ at hthread
    have hhand : other ∈ custody s := by
      rw [custody, hthread]
      simp [ThreadPc.hand]
    rw [hcommands other (hcustodyNe other hhand)]
    exact h.answers index completion other hthread
  · by_cases heq : other = handle
    · subst heq
      rw [hsubmissionSelf]
      rfl
    · rw [hsubmissions other heq] at hopen ⊢
      exact h.open_error other hopen
  · by_cases heq : other = handle
    · subst heq
      rw [hsubmissionSelf] at hother
      cases hother
    · rw [hsubmissions other heq] at hother
      exact (h.outcome other hother).congr (hsubmissions other heq) (hcommands other heq)
        (fun _ hmem => hmem) (fun _ _ hsome => hsome) fun _ hsome => hsome
  · by_cases heq : other = handle
    · subst heq
      rw [hcallSelf] at hother
      cases hother
    · rw [hcalls other heq] at hother
      rw [hsubmissions other heq]
      exact h.returned other completion hother
  · have hold := h.delivered delivery hmem
    have hdeliveryNe := hne delivery.2 hold.1
    rw [hcalls _ hdeliveryNe, hsubmissions _ hdeliveryNe]
    exact hold

/-- Every step keeps the invariant. -/
theorem inv_step (h : Inv s) {act : Act} (hs : step s act = some t) : Inv t := by
  cases act with
  | register handle command profiled positive => exact inv_register h hs
  | lockProducer handle => exact inv_lockProducer h hs
  | push handle outcome => exact inv_push h hs
  | eraseOwn handle => exact inv_eraseOwn h hs
  | expire handle => exact inv_expire h hs
  | wake handle => exact inv_wake h hs
  | failBegin runner => exact inv_failBegin h hs
  | mark runner handle => exact inv_mark h hs
  | failEnd runner => exact inv_failEnd h hs
  | pop outcome => exact inv_pop h hs
  | lookup => exact inv_lookup h hs
  | deliver => exact inv_deliver h hs

/-- A new session. -/
theorem inv_init : Inv .init where
  custody_nodup := List.nodup_nil
  custody_open := fun _ hmem => by cases hmem
  awaited := fun _ hawaits => by cases hawaits
  keys := fun _ hmem => by cases hmem
  expects := fun _ hregistered => by cases hregistered
  next_lt := by decide
  ids_lt := fun _ hregistered => by cases hregistered
  ids_inj := fun _ _ hregistered => by cases hregistered
  error_empty := fun _ => rfl
  failed_error := fun hne => absurd rfl hne
  stopped_error := fun hstopped => by cases hstopped
  record := fun _ _ hsome => by cases hsome
  answers := fun _ _ _ heq => by cases heq
  open_error := fun _ _ => rfl
  outcome := fun _ hcompleted => by cases hcompleted
  returned := fun _ _ heq => by cases heq
  delivered := fun _ hmem => by cases hmem
  delivered_lt := fun _ hmem => by cases hmem
  indices_nodup := List.nodup_nil
  handles_nodup := List.nodup_nil

/-- The invariant holds in every run. -/
theorem inv_of_reachable (h : dispatcherMachine.Reachable s) : Inv s :=
  h.invariant (I := Inv) inv_init fun _ _ _ hinv _ hs => inv_step hinv hs

/-! ### What a step cannot undo -/

/-- The call has returned or thrown. -/
def CallPc.final : CallPc → Bool
  | .rejected _ => true
  | .returned _ => true
  | .failed _ => true
  | _ => false

/-- What a step keeps, in any state.

* `error`: the error of the ring, once it is set.
* `final`: the result of a call.
* `failed`: a submission that `fail_ring` has taken out of the map stays with it, until it is
  completed with the error of the ring.
* `taken`: the step that sets the error takes all submissions out of the map. -/
structure Keeps (s t : State) : Prop where
  error : ∀ error, s.ringError = some error → t.ringError = some error
  final : ∀ handle, (s.calls handle).final = true → t.calls handle = s.calls handle
  failed : ∀ entry ∈ s.failed, entry ∈ t.failed ∨
    ((t.submissions entry.2).completed = true ∧ (t.submissions entry.2).error = s.ringError)
  taken : s.ringError = none → t.ringError ≠ none →
    ∀ item ∈ s.pending, ∃ runner, (runner, item.2) ∈ t.failed

/-- A step of a call that does not touch `ring_error`. -/
theorem Keeps.of_goto {pc : CallPc} (hcalls : t.calls = Function.update s.calls handle pc)
    (hfinal : (s.calls handle).final = false) (hring : t.ringError = s.ringError)
    (hfailed : t.failed = s.failed) : Keeps s t := by
  refine
    { error := fun error hsome => hring.trans hsome
      final := fun other hother => ?_
      failed := fun entry hmem => Or.inl (hfailed ▸ hmem)
      taken := fun hnone hsome => absurd (hring.trans hnone) hsome }
  have hne : other ≠ handle := by
    rintro rfl
    rw [hfinal] at hother
    cases hother
  rw [hcalls, Function.update_of_ne hne]

/-- A step of the completion thread that does not touch `ring_error`. -/
theorem Keeps.of_calls (hcalls : t.calls = s.calls) (hring : t.ringError = s.ringError)
    (hfailed : t.failed = s.failed) : Keeps s t where
  error := fun _ hsome => hring.trans hsome
  final := fun other _ => by rw [hcalls]
  failed := fun _ hmem => Or.inl (hfailed ▸ hmem)
  taken := fun hnone hsome => absurd (hring.trans hnone) hsome

/-- The critical section of `fail_ring`. -/
theorem Keeps.of_failRing (runner : Runner) (error : Error)
    (hfinal : ∀ handle, (s.calls handle).final = true → t.calls handle = s.calls handle)
    (hring : t.ringError = (failRing s runner error).ringError)
    (hfailed : t.failed = (failRing s runner error).failed) : Keeps s t where
  error := fun error hsome => by
    rw [hring, failRing, hsome, Option.getD_some]
  final := hfinal
  failed := fun entry hmem => Or.inl (by rw [hfailed]; exact List.mem_append_left _ hmem)
  taken := fun _ _ item hmem => by
    refine ⟨runner, ?_⟩
    rw [hfailed]
    exact List.mem_append_right _ (List.mem_map.mpr ⟨item, hmem, rfl⟩)

/-- Every step keeps these. -/
theorem keeps_step {act : Act} (hs : step s act = some t) : Keeps s t := by
  cases act with
  | register handle command profiled positive =>
    simp only [step, register] at hs
    split at hs
    swap
    · cases hs
    rename_i hcall
    repeat' split at hs
    all_goals
      cases hs
      exact .of_goto rfl (by rw [hcall]; rfl) rfl rfl
  | lockProducer handle =>
    simp only [step, lockProducer] at hs
    split at hs
    · rename_i hcall _
      cases hs
      exact .of_goto rfl (by rw [hcall]; rfl) rfl rfl
    · cases hs
  | push handle outcome =>
    simp only [step, push] at hs
    split at hs
    · rename_i hcall
      cases hs
      exact .of_goto rfl (by rw [hcall]; rfl) rfl rfl
    · rename_i error hcall
      cases hs
      exact .of_goto rfl (by rw [hcall]; rfl) rfl rfl
    · cases hs
  | eraseOwn handle =>
    simp only [step, eraseOwn] at hs
    split at hs
    · rename_i error hcall
      cases hs
      exact .of_goto rfl (by rw [hcall]; rfl) rfl rfl
    · cases hs
  | expire handle =>
    simp only [step, expire] at hs
    split at hs
    · rename_i hcall
      split at hs
      · cases hs
      · cases hs
        exact .of_goto rfl (by rw [hcall]; rfl) rfl rfl
    · cases hs
  | wake handle =>
    simp only [step, wake] at hs
    split at hs
    · rename_i hcall
      split at hs
      · split at hs <;>
        · cases hs
          exact .of_goto rfl (by rw [hcall]; rfl) rfl rfl
      · cases hs
    · cases hs
  | failBegin runner =>
    cases runner with
    | some handle =>
      simp only [step, failBegin] at hs
      split at hs
      · rename_i error hcall
        cases hs
        refine .of_failRing (some handle) error (fun other hother => ?_) rfl rfl
        have hne : other ≠ handle := by
          rintro rfl
          rw [hcall] at hother
          cases hother
        show Function.update s.calls handle _ other = _
        rw [Function.update_of_ne hne]
      · cases hs
    | none =>
      simp only [step, failBegin] at hs
      split at hs
      · rename_i error hthread
        cases hs
        exact .of_failRing none error (fun _ _ => rfl) rfl rfl
      · cases hs
  | mark runner handle =>
    simp only [step, mark] at hs
    split at hs
    swap
    · cases hs
    cases hs
    refine
      { error := fun _ hsome => hsome
        final := fun _ _ => rfl
        failed := fun entry hmem => ?_
        taken := fun hnone hsome => absurd hnone hsome }
    -- The marked entry is completed with the error, the others stay.
    by_cases heq : entry = (runner, handle)
    · subst heq
      refine Or.inr ?_
      simp [State.modifySubmission]
    · exact Or.inl ((List.mem_erase_of_ne heq).mpr hmem)
  | failEnd runner =>
    simp only [step, failEnd] at hs
    split at hs
    · cases hs
    cases runner with
    | some handle =>
      simp only at hs
      split at hs
      · rename_i error hcall
        cases hs
        exact .of_goto rfl (by rw [hcall]; rfl) rfl rfl
      · cases hs
    | none =>
      simp only at hs
      split at hs
      · cases hs
        exact .of_calls rfl rfl rfl
      · cases hs
  | pop outcome =>
    simp only [step, pop] at hs
    split at hs
    · cases hs
      exact .of_calls rfl rfl rfl
    · cases hs
      exact .of_calls rfl rfl rfl
    · cases hs
  | lookup =>
    simp only [step, lookup] at hs
    repeat' split at hs
    all_goals
      cases hs
      try exact .of_calls rfl rfl rfl
  | deliver =>
    simp only [step, deliver] at hs
    split at hs
    · cases hs
      exact .of_calls rfl rfl rfl
    · cases hs

end

end Wmfs.Session
