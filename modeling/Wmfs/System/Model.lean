import Wmfs.Access.Model
import Wmfs.Memory.Model

/-!
# `Wmfs.System.Model`: isolated invocations over one buffer manager

`WorkerSession.invoke` (`transport/worker_process.py`) on any number of sessions that share
one `BufferManager`. A session has one worker process. An invocation is one call of
`_submit_invocation_direct` or `_submit_invocation_profiled`. Its number is also the number of
its `reserve_access` call.

The state has the two parts of the buffer manager, access leases (`Wmfs.Access`) and memory
(`Wmfs.Memory`), with every step of theirs. This module adds what connects them:

* An invocation binds its managed arguments, reserves access to them, and inside the `with`
  block allocates memory for copies and outputs, and submits commands, one at a time. A
  command names allocations. It is outstanding until its completion is received.
* `submit_ring` may raise while the command is outstanding: its deadline expires, or the ring
  fails. The session is invalidated, the exception leaves the `with` block, which releases the
  lease, and then `close` stops the worker.
* The frames of an invocation reference the tensors of its arguments and of its own
  allocations. They do so until the invocation has returned or raised: a caught exception keeps
  them through its traceback. A storage is released when nothing references it.
* An allocation that an invocation has made is not known to other threads before it returns.

A worker may stop at any time. Asynchronous exceptions are not modelled.
-/

set_option autoImplicit false

namespace Wmfs.System

open Wmfs.Lib Wmfs.Memory

/-- `_access_key` of a managed tensor. -/
def accessKey (buffer : SharedBuffer) : Access.AccessKey :=
  ⟨buffer.region, buffer.generation, buffer.allocationId⟩

/-- A session: `_invalidated`, and whether its worker process has stopped. -/
structure Session where
  invalidated : Bool
  stopped : Bool
  deriving DecidableEq, Repr

/-- Where an invocation is. While it is `running`, its `reserve_access` call says more. -/
inductive Phase where
  | idle
  | running
  | over
  deriving DecidableEq, Repr

/-- An invocation.

* `args`: the managed arguments.
* `own`: the allocations that it has made.
* `command`: the buffers that its outstanding command names.
* `raised`: `submit_ring` has raised while the command was outstanding. -/
structure Invocation where
  session : Nat
  args : List SharedBuffer
  own : List SharedBuffer
  command : Option (List SharedBuffer)
  raised : Bool
  phase : Phase
  deriving DecidableEq, Repr

/-- An invocation that has not begun. -/
def Invocation.idle : Invocation := ⟨0, [], [], none, false, .idle⟩

/-- The buffers whose storage the frames of the invocation reference. -/
def Invocation.refs (invocation : Invocation) : List SharedBuffer :=
  invocation.args ++ invocation.own

/-- The manager, the sessions, and the invocations. `begun` lists the invocations that have
begun. -/
structure State where
  access : Access.State
  memory : Memory.State
  sessions : Nat → Session
  invocations : Nat → Invocation
  begun : List Nat

/-- A new manager with its sessions. -/
def State.init : State where
  access := .init
  memory := .init
  sessions := fun _ => ⟨false, false⟩
  invocations := fun _ => .idle
  begun := []

/-- Replace an invocation. -/
def State.set (s : State) (id : Nat) (invocation : Invocation) : State :=
  { s with invocations := Function.update s.invocations id invocation }

/-- The labels.

* `bind`: `bind_invocation` finds a managed argument.
* `access`: a critical section of the access leases.
* `create`: `share_input` copies an argument, or `materialize_output` allocates an output.
* `publish`: a command that names `buffers` is pushed.
* `complete`: its completion is received.
* `fail`: `submit_ring` raises.
* `drop`: the frame of `_invoke_direct` ends, and references an allocation no more.
* `leave`: the invocation returns or raises.
* `stop`: the worker process of a session stops.
* `memory`: a critical section of the memory, or a finalizer. -/
inductive Act where
  | begin (id session : Nat)
  | bind (id : Nat) (buffer : SharedBuffer)
  | access (act : Access.Act)
  | create (id byteLength allocationId region : Nat)
  | publish (id : Nat) (buffers : List SharedBuffer)
  | complete (id : Nat)
  | fail (id : Nat)
  | drop (id : Nat) (buffer : SharedBuffer)
  | leave (id : Nat)
  | stop (session : Nat)
  | memory (act : Memory.Act)
  | close
  deriving DecidableEq, Repr

/-- What the invocation does before a critical section of its access lease. A lease is
released at the end of the `with` block, after the submission has returned or raised. -/
def State.accessAllowed (s : State) : Access.Act → Bool
  | .reserve id reads writes => decide ((s.invocations id).phase = .running ∧
      ∀ key ∈ reads ++ writes, ∃ buffer ∈ (s.invocations id).args, accessKey buffer = key)
  | .reserveStale id => decide ((s.invocations id).phase = .running)
  | .wake _ => true
  | .interrupt _ => false
  | .release id => decide ((s.invocations id).command = none ∨ (s.invocations id).raised = true)
  | .releaseAccess _ => true
  | .close => false

/-- The finalizer of a storage runs when no invocation references it. `close` of the manager is
a label of its own. -/
def State.memoryAllowed (s : State) : Memory.Act → Bool
  | .storageReleased allocationId => decide (∀ id ∈ s.begun,
      ∀ buffer ∈ (s.invocations id).refs, buffer.allocationId ≠ allocationId)
  | .closeBegin => false
  | _ => true

/-- The `reserve_access` call of the invocation has returned a lease. -/
def State.inside (s : State) (id : Nat) : Prop :=
  (s.invocations id).phase = .running ∧ (s.access.calls id).pc = .leased ∧
    (s.invocations id).command = none ∧ (s.invocations id).raised = false

instance (s : State) (id : Nat) : Decidable (s.inside id) :=
  inferInstanceAs (Decidable (_ ∧ _))

/-- The `with` block is behind the invocation. -/
def State.outside (s : State) (id : Nat) : Bool :=
  match (s.access.calls id).pc with
  | .waiting | .leased | .releasing => false
  | _ => true

/-- One step. -/
def step (cfg : Config) (s : State) : Act → Option State
  | .begin id session =>
    if (s.invocations id).phase = .idle ∧ (s.sessions session).invalidated = false then
      some { s.set id ⟨session, [], [], none, false, .running⟩ with begun := id :: s.begun }
    else none
  | .bind id buffer =>
    if (s.invocations id).phase = .running ∧ (s.access.calls id).pc = .idle ∧
        s.memory.isLive buffer = true ∧
        ∀ other ∈ s.begun, other ≠ id → buffer ∉ (s.invocations other).own then
      some (s.set id { s.invocations id with args := buffer :: (s.invocations id).args })
    else none
  | .access act =>
    if s.accessAllowed act then
      (Access.step s.access act).map fun access => { s with access := access }
    else none
  | .create id byteLength allocationId region =>
    if s.inside id then
      (Memory.step cfg s.memory (.allocate byteLength allocationId region)).map fun memory =>
        match (allocate cfg s.memory byteLength allocationId region).2 with
        | .error _ => { s with memory := memory }
        | .ok buffer => { s.set id { s.invocations id with
            own := buffer :: (s.invocations id).own } with memory := memory }
    else none
  | .publish id buffers =>
    if s.inside id ∧ ∀ buffer ∈ buffers, buffer ∈ (s.invocations id).own ∨
        (buffer ∈ (s.invocations id).args ∧
          (accessKey buffer ∈ (s.access.calls id).reads ∨
            accessKey buffer ∈ (s.access.calls id).writes)) then
      some (s.set id { s.invocations id with command := some buffers })
    else none
  | .complete id =>
    if (s.invocations id).command ≠ none ∧ (s.invocations id).raised = false then
      some (s.set id { s.invocations id with command := none })
    else none
  | .fail id =>
    if (s.invocations id).command ≠ none ∧ (s.invocations id).raised = false then
      some { s.set id { s.invocations id with raised := true } with
        sessions := Function.update s.sessions (s.invocations id).session
          { s.sessions (s.invocations id).session with invalidated := true } }
    else none
  | .drop id buffer =>
    if (s.invocations id).command = none ∧ (s.invocations id).raised = false then
      some (s.set id { s.invocations id with own := (s.invocations id).own.erase buffer })
    else none
  | .leave id =>
    if (s.invocations id).phase = .running ∧ s.outside id = true ∧
        ((s.invocations id).command = none ∨ (s.invocations id).raised = true) then
      some (s.set id { s.invocations id with args := [], own := [], phase := .over })
    else none
  | .stop session =>
    some { s with
      sessions := Function.update s.sessions session { s.sessions session with stopped := true } }
  | .memory act =>
    if s.memoryAllowed act then
      (Memory.step cfg s.memory act).map fun memory => { s with memory := memory }
    else none
  | .close =>
    some { s with
      access := { s.access with closed := true }
      memory := { s.memory with closed := true } }

/-- Invocations over one manager as a machine. -/
def systemMachine (cfg : Config) : Machine State Act := ⟨.init, step cfg⟩

end Wmfs.System
