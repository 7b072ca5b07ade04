import Mathlib.Logic.Function.Basic
import Wmfs.Lib.Transition
import Wmfs.Ring.Record

/-!
# `Wmfs.Session.Dispatcher`: the ring dispatcher of a session

`Session::Impl` of `src/native_session.cpp` as far as it concerns the two rings: `submit_ring`,
which any number of threads call, `consume_completions`, which the completion thread runs, and
`fail_ring`, which both of them call.

A call of `submit_ring` is named by a number, and so is the `PendingSubmission` that it
allocates. `pending` is the map from submission ids to submissions. A step is one critical
section, or an operation of a ring: the outcome of a push and of a pop is part of the label, so
that every record may arrive and every operation may fail. A deadline expires whenever the call
is waiting and its submission has not been completed.

`fail_ring` has a critical section (`failRing`), and then a loop over the submissions that it
took out of the map. The rest of that loop is in `failed`, under the name of the caller: the
number of a call, or `none` for the completion thread. The order of the loop is that of an
`unordered_map`, so `mark` may choose any of the caller's submissions.

The timestamps of a profiled call are not modelled, and the mappings that an `INVOKE` command
expires are in `Wmfs.Session.MappingCache`. `popped`, `pushed` and `deliveries` record the
history of the run. No step reads them.
-/

set_option autoImplicit false

namespace Wmfs.Session

open Wmfs.Lib Wmfs.Ring

/-! ### Records -/

/-- `WMFS_RING_COMMAND_INVOKE`. -/
def COMMAND_INVOKE : Nat := 1

/-- `WMFS_RING_COMMAND_PLAN_OUTPUTS`. -/
def COMMAND_PLAN_OUTPUTS : Nat := 2

/-- `WMFS_RING_COMMAND_PING`. -/
def COMMAND_PING : Nat := 3

/-- `WMFS_RING_COMMAND_SHUTDOWN`. -/
def COMMAND_SHUTDOWN : Nat := 4

/-- `WMFS_RING_COMPLETION_INVOKE`. -/
def COMPLETION_INVOKE : Nat := 257

/-- `WMFS_RING_COMPLETION_PLAN_OUTPUTS`. -/
def COMPLETION_PLAN_OUTPUTS : Nat := 258

/-- `WMFS_RING_COMPLETION_PONG`. -/
def COMPLETION_PONG : Nat := 259

/-- `WMFS_RING_COMPLETION_SHUTDOWN`. -/
def COMPLETION_SHUTDOWN : Nat := 260

/-- `WMFS_RING_STATUS_OK`. -/
def STATUS_OK : Nat := 1

/-- `WMFS_RING_STATUS_INTERNAL_ERROR`. -/
def STATUS_INTERNAL_ERROR : Nat := 5

/-- `WMFS_RING_RECORD_FLAG_PROFILE`. -/
def RECORD_FLAG_PROFILE : Nat := 1

/-- `completion_kind`. -/
def completionKind (commandKind : Nat) : Option Nat :=
  if commandKind = COMMAND_INVOKE then some COMPLETION_INVOKE
  else if commandKind = COMMAND_PLAN_OUTPUTS then some COMPLETION_PLAN_OUTPUTS
  else if commandKind = COMMAND_PING then some COMPLETION_PONG
  else if commandKind = COMMAND_SHUTDOWN then some COMPLETION_SHUTDOWN
  else none

/-- The flags of a command as `submit_ring` publishes them. -/
def profileFlags (flags : Nat) (profiled : Bool) : Nat :=
  if profiled then flags ||| RECORD_FLAG_PROFILE
  else flags &&& (2 ^ 32 - 1 - RECORD_FLAG_PROFILE)

/-- The command as `submit_ring` publishes it. -/
def publishedCommand (command : Record) (submissionId : Nat) (profiled : Bool) : Record :=
  (command.store 16 8 submissionId).store 4 4 (profileFlags command.flags profiled)

/-! ### Errors -/

/-- What `submit_ring` and `consume_completions` throw. `corrupt` and `system` come out of the
operations of a ring, `system` with the text of a `std::system_error`. -/
inductive Error where
  | deadlineNotPositive
  | unknownCommandKind
  | submissionIdOverflow
  | commandRingDeadline
  | commandRingClosed
  | completionRingTimedOut
  | completionRingClosed
  | unknownSubmission
  | identityMismatch
  | completionDeadline
  | corrupt (reason : Corrupt)
  | system (text : String)
  deriving DecidableEq, Repr

/-- The text of the exception. -/
def Error.what : Error → String
  | .deadlineNotPositive => "Native ring deadline must be positive"
  | .unknownCommandKind => "Unknown native ring command kind"
  | .submissionIdOverflow => "Native ring submission ID overflow"
  | .commandRingDeadline => "Native command ring deadline expired"
  | .commandRingClosed => "Native command ring closed"
  | .completionRingTimedOut => "Native completion ring timed out"
  | .completionRingClosed => "Native completion ring closed"
  | .unknownSubmission => "Native completion has unknown submission ID"
  | .identityMismatch => "Native completion identity does not match command"
  | .completionDeadline => "Native ring completion deadline expired"
  | .corrupt reason => reason.what
  | .system text => text

/-! ### State -/

/-- `PendingSubmission`. -/
structure Submission where
  completion : Record
  error : Option Error
  expectedKind : Nat
  expectedFlags : Nat
  invocationId : Nat
  operationId : Nat
  completed : Bool

/-- Where a call of `submit_ring` is.

* `idle`: it has not been made.
* `rejected`: it has thrown before its submission was in the map.
* `locking`: its submission has been put into the map; it waits for `producer_mutex`.
* `pushing`: it has `producer_mutex`.
* `erasing`: its push has failed; it is about to take its submission out of the map.
* `failing`: it is about to call `fail_ring`.
* `marking`: it is in the loop of `fail_ring`.
* `waiting`: it waits for its completion. -/
inductive CallPc where
  | idle
  | rejected (error : Error)
  | locking
  | pushing
  | erasing (error : Error)
  | failing (error : Error)
  | marking (error : Error)
  | waiting
  | returned (completion : Record)
  | failed (error : Error)

/-- Where the completion thread is. `looking` and `delivering` have the number of the record
among those popped.

* `looking`: it has popped a record.
* `delivering`: it has taken the submission of the record out of the map. -/
inductive ThreadPc where
  | popping
  | looking (index : Nat) (completion : Record)
  | delivering (index : Nat) (completion : Record) (handle : Nat)
  | failing (error : Error)
  | marking
  | exited

/-- Who runs `fail_ring`: a call, or the completion thread. -/
abbrev Runner : Type := Option Nat

/-- The dispatcher.

* `calls`: where each call is.
* `commands`: the command of a call, as it is published.
* `submissions`: the submission of a call, which the threads share.
* `producer`: the owner of `producer_mutex`.
* `failed`: the submissions that a running `fail_ring` still has to complete.
* `pushed`, `popped`: the records pushed and popped.
* `deliveries`: which popped record was delivered to which submission. -/
structure State where
  calls : Nat → CallPc
  commands : Nat → Record
  submissions : Nat → Submission
  pending : List (Nat × Nat)
  nextSubmission : Nat
  ringError : Option Error
  producer : Option Nat
  failed : List (Runner × Nat)
  thread : ThreadPc
  pushed : List Record
  popped : List Record
  deliveries : List (Nat × Nat)

/-- A new `PendingSubmission`. -/
def Submission.init : Submission where
  completion := Record.zero
  error := none
  expectedKind := 0
  expectedFlags := 0
  invocationId := 0
  operationId := 0
  completed := false

/-- A new session. -/
def State.init : State where
  calls := fun _ => .idle
  commands := fun _ => Record.zero
  submissions := fun _ => .init
  pending := []
  nextSubmission := 1
  ringError := none
  producer := none
  failed := []
  thread := .popping
  pushed := []
  popped := []
  deliveries := []

/-- The call goes on to `pc`. -/
def State.goto (s : State) (handle : Nat) (pc : CallPc) : State :=
  { s with calls := Function.update s.calls handle pc }

/-- The submission of a call changes. -/
def State.modifySubmission (s : State) (handle : Nat) (f : Submission → Submission) : State :=
  { s with submissions := Function.update s.submissions handle (f (s.submissions handle)) }

/-! ### `submit_ring` -/

/-- `pending.emplace`, which does nothing when the key is there. -/
def emplace (pending : List (Nat × Nat)) (submissionId handle : Nat) : List (Nat × Nat) :=
  if pending.any fun item => item.1 == submissionId then pending
  else (submissionId, handle) :: pending

/-- `pending.erase`. -/
def erase (pending : List (Nat × Nat)) (submissionId : Nat) : List (Nat × Nat) :=
  pending.filter fun item => item.1 != submissionId

/-- The submission of a command, as it is put into the map. -/
def newSubmission (command : Record) (kind : Nat) : Submission :=
  { Submission.init with
    expectedKind := kind
    expectedFlags := command.flags
    invocationId := command.invocationId
    operationId := command.operationId }

/-- `submit_ring` up to the end of its first critical section. -/
def register (s : State) (handle : Nat) (command : Record) (profiled positive : Bool) :
    Option State :=
  match s.calls handle with
  | .idle =>
    -- The deadline and the kind are checked without a lock.
    if !positive then some (s.goto handle (.rejected .deadlineNotPositive))
    else match completionKind command.kind with
      | none => some (s.goto handle (.rejected .unknownCommandKind))
      | some kind =>
        match s.ringError with
        | some error => some (s.goto handle (.rejected error))
        | none =>
          -- `next_submission` is zero after it has wrapped, and then no id is given out any more.
          if s.nextSubmission = 0 then
            some (s.goto handle (.rejected .submissionIdOverflow))
          else
            let submissionId := s.nextSubmission
            -- Id, flags and entry of the map are set in one critical section.
            let command := publishedCommand command submissionId profiled
            some { s.goto handle .locking with
              commands := Function.update s.commands handle command
              submissions := Function.update s.submissions handle (newSubmission command kind)
              nextSubmission := (submissionId + 1) % 2 ^ 64
              pending := emplace s.pending submissionId handle }
  | _ => none

/-- The call takes `producer_mutex`. -/
def lockProducer (s : State) (handle : Nat) : Option State :=
  match s.calls handle, s.producer with
  | .locking, none => some { s.goto handle .pushing with producer := some handle }
  | _, _ => none

/-- The outcome of `try_push` and `push`. The mutex is released in both cases. -/
def push (s : State) (handle : Nat) (outcome : Option Error) : Option State :=
  match s.calls handle, outcome with
  | .pushing, none => some { s.goto handle .waiting with
      producer := none
      pushed := s.pushed ++ [s.commands handle] }
  | .pushing, some error => some { s.goto handle (.erasing error) with producer := none }
  | _, _ => none

/-- The first critical section of the handler of a failed push. -/
def eraseOwn (s : State) (handle : Nat) : Option State :=
  match s.calls handle with
  | .erasing error => some { s.goto handle (.failing error) with
      pending := erase s.pending (s.commands handle).submissionId }
  | _ => none

/-- `wait_until` returns false. -/
def expire (s : State) (handle : Nat) : Option State :=
  match s.calls handle with
  | .waiting =>
    -- The predicate of `wait_until` is tested once more when the deadline expires.
    if (s.submissions handle).completed then none
    else some (s.goto handle (.failing .completionDeadline))
  | _ => none

/-- `wait_until` returns true, and the call returns or throws. -/
def wake (s : State) (handle : Nat) : Option State :=
  match s.calls handle with
  | .waiting =>
    if (s.submissions handle).completed then
      match (s.submissions handle).error with
      | some error => some (s.goto handle (.failed error))
      | none => some (s.goto handle (.returned (s.submissions handle).completion))
    else none
  | _ => none

/-! ### `fail_ring` -/

/-- The critical section of `fail_ring`. -/
def failRing (s : State) (runner : Runner) (error : Error) : State :=
  { s with
    -- The first error stays.
    ringError := some (s.ringError.getD error)
    failed := s.failed ++ s.pending.map fun item => (runner, item.2)
    pending := [] }

/-- A call or the completion thread enters `fail_ring`. -/
def failBegin (s : State) : Runner → Option State
  | some handle =>
    match s.calls handle with
    | .failing error => some ((failRing s (some handle) error).goto handle (.marking error))
    | _ => none
  | none =>
    match s.thread with
    | .failing error => some { failRing s none error with thread := .marking }
    | _ => none

/-- The loop of `fail_ring` completes one submission. -/
def mark (s : State) (runner : Runner) (handle : Nat) : Option State :=
  if (runner, handle) ∈ s.failed then
    -- `ring_error`, which may be another error than the one of this caller.
    some { s.modifySubmission handle
        (fun submission => { submission with error := s.ringError, completed := true }) with
      failed := s.failed.erase (runner, handle) }
  else none

/-- `fail_ring` returns, and its caller throws or exits. -/
def failEnd (s : State) (runner : Runner) : Option State :=
  if s.failed.any fun entry => entry.1 == runner then none
  else match runner with
    | some handle =>
      match s.calls handle with
      | .marking error => some (s.goto handle (.failed error))
      | _ => none
    | none =>
      match s.thread with
      | .marking => some { s with thread := .exited }
      | _ => none

/-! ### `consume_completions` -/

/-- The comparison of a completion with the submission of its id. -/
def identifies (completion : Record) (submission : Submission) : Bool :=
  completion.kind == submission.expectedKind && completion.flags == submission.expectedFlags &&
    completion.invocationId == submission.invocationId &&
    completion.operationId == submission.operationId &&
    decide (STATUS_OK ≤ completion.status) && decide (completion.status ≤ STATUS_INTERNAL_ERROR) &&
    (completion.kind == COMPLETION_PLAN_OUTPUTS || completion.plannedOutputCount == 0) &&
    completion.tensorCount == 0 && completion.scalarCount == 0

/-- `pop` returns a record, or it fails. -/
def pop (s : State) (outcome : Except Error Record) : Option State :=
  match s.thread, outcome with
  | .popping, .ok completion => some { s with
      thread := .looking s.popped.length completion
      popped := s.popped ++ [completion] }
  | .popping, .error error => some { s with thread := .failing error }
  | _, _ => none

/-- The critical section of `consume_completions`. -/
def lookup (s : State) : Option State :=
  match s.thread with
  | .looking index completion =>
    match s.pending.find? fun item => item.1 == completion.submissionId with
    -- The exceptions of the critical section are caught at the end of `consume_completions`.
    | none => some { s with thread := .failing .unknownSubmission }
    | some (submissionId, handle) =>
      if identifies completion (s.submissions handle) then
        some { s with
          -- `pending.erase(item)`: from here on only this thread can complete the submission.
          pending := erase s.pending submissionId
          thread := .delivering index completion handle }
      else some { s with thread := .failing .identityMismatch }
  | _ => none

/-- The completion thread completes the submission. -/
def deliver (s : State) : Option State :=
  match s.thread with
  | .delivering index completion handle =>
    some { s.modifySubmission handle
        (fun submission => { submission with completion := completion, completed := true }) with
      thread := .popping
      deliveries := (index, handle) :: s.deliveries }
  | _ => none

/-! ### The machine -/

/-- The labels. `outcome` is what an operation of a ring does: a push succeeds with `none`. -/
inductive Act where
  | register (handle : Nat) (command : Record) (profiled positive : Bool)
  | lockProducer (handle : Nat)
  | push (handle : Nat) (outcome : Option Error)
  | eraseOwn (handle : Nat)
  | expire (handle : Nat)
  | wake (handle : Nat)
  | failBegin (runner : Runner)
  | mark (runner : Runner) (handle : Nat)
  | failEnd (runner : Runner)
  | pop (outcome : Except Error Record)
  | lookup
  | deliver

/-- One step. -/
def step (s : State) : Act → Option State
  | .register handle command profiled positive => register s handle command profiled positive
  | .lockProducer handle => lockProducer s handle
  | .push handle outcome => push s handle outcome
  | .eraseOwn handle => eraseOwn s handle
  | .expire handle => expire s handle
  | .wake handle => wake s handle
  | .failBegin runner => failBegin s runner
  | .mark runner handle => mark s runner handle
  | .failEnd runner => failEnd s runner
  | .pop outcome => pop s outcome
  | .lookup => lookup s
  | .deliver => deliver s

/-- The dispatcher as a machine. -/
def dispatcherMachine : Machine State Act := ⟨.init, step⟩

end Wmfs.Session
