import Wmfs.Lib.Dict
import Wmfs.Lib.Transition

/-!
# `Wmfs.Access.Model`: access leases of the buffer manager

The part of `BufferManager` (`memory/buffers.py`) that grants read and write access:
`reserve_access`, `_grant_access_waiters`, `_can_grant_access`, `_release_access`,
`_release_access_locked`, and `BufferAccessLease.release`.

One step of the machine is one critical section of the manager's lock. A `reserve_access`
call is named by a `CallId`, which also names its `_AccessWaiter` object and the lease that
it returns. `wait` releases the lock, so a waiting call takes two or more steps: `reserve`
up to its first wait, then one `wake` for each return of `wait`, or an `interrupt` when an
exception is raised inside `wait`.

`deque.remove(waiter)` removes the first element that is the waiter or equals it, and
`_AccessWaiter` is a dataclass: two waiters are equal when their `accesses` dictionaries
and their `granted` flags are. `waiterEq` is this comparison.

`started` lists the calls in the order in which they began, and `grants` records each grant
with the waiters that stood ahead in the queue at that moment. No step reads them.
-/

set_option autoImplicit false

namespace Wmfs.Access

open Wmfs.Lib

/-- `_AccessKey`: buffer id, generation and allocation id. -/
structure AccessKey where
  bufferId : Nat
  generation : Nat
  allocationId : Nat
  deriving DecidableEq, Repr

/-- The dictionary from keys to `writable`. -/
abbrev Accesses : Type := AList fun _ : AccessKey => Bool

/-- `_AccessState`. -/
structure AccessState where
  readers : Int
  writer : Bool
  deriving DecidableEq, Repr

/-- `_access_states`. A missing key is `none`. -/
abbrev AccessStates : Type := AccessKey → Option AccessState

/-- The name of one `reserve_access` call, of its waiter and of its lease. -/
abbrev CallId : Type := Nat

/-- Where a `reserve_access` call is, and after its return, where its lease is.

* `waiting`: inside `wait`.
* `leased`: the call has returned a lease, and the lease has not been released.
* `releasing`: `release` has cleared `_manager` and has not entered `_release_access` yet.
* `cancelled`: the call has released the accesses that it had been granted, and has raised.
* `failed`: the call has raised without having been granted anything. -/
inductive CallPc where
  | idle
  | waiting
  | leased
  | releasing
  | released
  | cancelled
  | failed
  deriving DecidableEq, Repr

/-- One `reserve_access` call: its arguments, the `granted` flag of its waiter, and where it
is. A call without keys has no waiter; its flag is set when it returns. -/
structure Call where
  reads : List AccessKey
  writes : List AccessKey
  granted : Bool
  pc : CallPc
  deriving DecidableEq, Repr

/-- `accesses.setdefault(key, False)` for each read. -/
def addRead (accesses : Accesses) (key : AccessKey) : Accesses :=
  if key ∈ accesses then accesses else accesses.insert key false

/-- The dictionary that `reserve_access` builds: reads first, then writes, which override. -/
def buildAccesses (reads writes : List AccessKey) : Accesses :=
  writes.foldl (fun accesses key => accesses.insert key true) (reads.foldl addRead ∅)

/-- The `accesses` of a call's waiter and of its lease. -/
def Call.accesses (call : Call) : Accesses := buildAccesses call.reads call.writes

/-- The name of a call that has not begun. -/
def Call.idle : Call := ⟨[], [], false, .idle⟩

/-- One grant: the waiter, and the waiters ahead of it in the queue when it was granted. -/
structure Grant where
  call : CallId
  ahead : List CallId
  deriving DecidableEq, Repr

/-- The fields of the manager that concern access, and the calls. -/
structure State where
  closed : Bool
  accessStates : AccessStates
  accessWaiters : List CallId
  calls : CallId → Call
  started : List CallId
  grants : List Grant

/-- A new manager. -/
def State.init : State where
  closed := false
  accessStates := fun _ => none
  accessWaiters := []
  calls := fun _ => .idle
  started := []
  grants := []

/-- The labels. `reserveStale` is a call in which `_access_key` raises. -/
inductive Act where
  | reserve (call : CallId) (reads writes : List AccessKey)
  | reserveStale (call : CallId)
  | wake (call : CallId)
  | interrupt (call : CallId)
  | release (call : CallId)
  | releaseAccess (call : CallId)
  | close
  deriving DecidableEq, Repr

/-- Set the program counter of a call. -/
def State.setPc (s : State) (call : CallId) (pc : CallPc) : State :=
  { s with calls := Function.update s.calls call { s.calls call with pc := pc } }

/-! ### Granting -/

/-- Record one access: `setdefault(key, _AccessState())`, then the assignment. -/
def recordAccess (state : Option AccessState) (writable : Bool) : Option AccessState :=
  let state := state.getD ⟨0, false⟩
  some (if writable then { state with writer := true }
    else { state with readers := state.readers + 1 })

/-- Whether one access is compatible with what is recorded for its key. -/
def compatible (state : Option AccessState) (writable : Bool) : Bool :=
  match state with
  | none => true
  | some state => !(state.writer || (writable && state.readers != 0))

/-- `_can_grant_access`. -/
def canGrantAccess (states : AccessStates) (accesses : Accesses) : Bool :=
  accesses.entries.all fun entry => compatible (states entry.1) entry.2

/-- The comparison that `deque.remove` makes: identity, or dataclass equality. Two
dictionaries are equal when they have the same entries in any order. -/
def waiterEq (calls : CallId → Call) (a b : CallId) : Bool :=
  a == b || (decide ((calls a).accesses.entries.Perm (calls b).accesses.entries) &&
    (calls a).granted == (calls b).granted)

/-- `deque.remove(waiter)`. `none` is the `ValueError` for a missing element. -/
def removeWaiter (calls : CallId → Call) (waiters : List CallId) (call : CallId) :
    Option (List CallId) :=
  if waiters.any fun other => waiterEq calls other call then
    some (waiters.eraseP fun other => waiterEq calls other call)
  else none

/-- The body of the loop of `_grant_access_waiters` for a waiter that is granted. The waiter
is in the queue, so `remove` finds an element. -/
def grantOne (s : State) (call : CallId) : State :=
  let calls := Function.update s.calls call { s.calls call with granted := true }
  { s with
    accessStates := updateAll recordAccess (s.calls call).accesses s.accessStates
    calls := calls
    accessWaiters := (removeWaiter calls s.accessWaiters call).getD s.accessWaiters
    grants := s.grants ++ [⟨call, s.accessWaiters.takeWhile (· != call)⟩] }

/-- The loop of `_grant_access_waiters` over its snapshot of the queue. -/
def grantScan (s : State) (blocked : List AccessKey) : List CallId → State
  | [] => s
  | call :: rest =>
    let accesses := (s.calls call).accesses
    if accesses.keys.all (fun key => key ∉ blocked) && canGrantAccess s.accessStates accesses
    then grantScan (grantOne s call) blocked rest
    else grantScan s (blocked ++ accesses.keys) rest

/-- `_grant_access_waiters`. -/
def grantAccessWaiters (s : State) : State :=
  if s.closed then s else grantScan s [] s.accessWaiters

/-! ### Releasing -/

/-- Drop one access from a state, and the entry when nothing is left. -/
def dropAccess (state : AccessState) (writable : Bool) : Option AccessState :=
  let state := if writable then { state with writer := false }
    else { state with readers := state.readers - 1 }
  if !state.writer && state.readers == 0 then none else some state

/-- The loop of `_release_access_locked`. `false` is the `KeyError` for a missing entry. -/
def releaseEntries (states : AccessStates) :
    List (Sigma fun _ : AccessKey => Bool) → AccessStates × Bool
  | [] => (states, true)
  | entry :: rest =>
    match states entry.1 with
    | none => (states, false)
    | some state =>
      releaseEntries (Function.update states entry.1 (dropAccess state entry.2)) rest

/-- `_release_access_locked` followed by `_grant_access_waiters`, which a `KeyError` skips. -/
def releaseAndGrant (s : State) (accesses : Accesses) : State :=
  let released := releaseEntries s.accessStates accesses.entries
  let s := { s with accessStates := released.1 }
  if released.2 then grantAccessWaiters s else s

/-! ### The critical sections -/

/-- The `except BaseException` path of `reserve_access`. -/
def abort (s : State) (call : CallId) : State :=
  if (s.calls call).granted then
    releaseAndGrant (s.setPc call .cancelled) (s.calls call).accesses
  else match removeWaiter s.calls s.accessWaiters call with
    | none => s.setPc call .failed
    | some waiters => grantAccessWaiters { s.setPc call .failed with accessWaiters := waiters }

/-- The test at the end of an iteration of the wait loop: return a lease, or wait. -/
def leaseIfGranted (s : State) (call : CallId) : State :=
  if (s.calls call).granted then s.setPc call .leased else s

/-- `reserve_access` up to its first wait or its return. -/
def reserve (s : State) (call : CallId) (reads writes : List AccessKey) : Option State :=
  if (s.calls call).pc ≠ .idle then none
  else
    let enter (granted : Bool) (pc : CallPc) : State :=
      { s with
        calls := Function.update s.calls call ⟨reads, writes, granted, pc⟩
        started := s.started ++ [call] }
    if s.closed then some (enter false .failed)
    else if reads.isEmpty && writes.isEmpty then some (enter true .leased)
    else
      let s := enter false .waiting
      let s := { s with accessWaiters := s.accessWaiters ++ [call] }
      some (leaseIfGranted (grantAccessWaiters s) call)

/-- A `reserve_access` call that raises before it queues a waiter. -/
def reserveStale (s : State) (call : CallId) : Option State :=
  if (s.calls call).pc ≠ .idle then none
  else some { s with
    calls := Function.update s.calls call ⟨[], [], false, .failed⟩
    started := s.started ++ [call] }

/-- `wait` returns: the loop tests `granted` and `_closed`, and scans the queue again. -/
def wake (s : State) (call : CallId) : Option State :=
  if (s.calls call).pc ≠ .waiting then none
  else if (s.calls call).granted then some (s.setPc call .leased)
  else if s.closed then some (abort s call)
  else some (leaseIfGranted (grantAccessWaiters s) call)

/-- `wait` raises. -/
def interrupt (s : State) (call : CallId) : Option State :=
  if (s.calls call).pc ≠ .waiting then none else some (abort s call)

/-- `BufferAccessLease.release` up to the call of `_release_access`. A lease whose
`_manager` is cleared returns at once. -/
def release (s : State) (call : CallId) : Option State :=
  match (s.calls call).pc with
  | .leased => some (s.setPc call .releasing)
  | .releasing | .released => some s
  | _ => none

/-- `_release_access`. -/
def releaseAccess (s : State) (call : CallId) : Option State :=
  if (s.calls call).pc ≠ .releasing then none
  else some (releaseAndGrant (s.setPc call .released) (s.calls call).accesses)

/-- One critical section. -/
def step (s : State) : Act → Option State
  | .reserve call reads writes => reserve s call reads writes
  | .reserveStale call => reserveStale s call
  | .wake call => wake s call
  | .interrupt call => interrupt s call
  | .release call => release s call
  | .releaseAccess call => releaseAccess s call
  | .close => some { s with closed := true }

/-- The access leases as a machine. -/
def accessMachine : Machine State Act := ⟨.init, step⟩

end Wmfs.Access
