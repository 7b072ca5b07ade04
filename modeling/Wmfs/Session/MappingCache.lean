import Mathlib.Logic.Function.Basic
import Wmfs.Control.Codec
import Wmfs.Lib.Transition

/-!
# `Wmfs.Session.MappingCache`: the mapping caches of a session and of its worker

The session (`src/native_session.cpp`) keeps a map of the buffers that its worker has mapped,
under the key of buffer id and generation. The worker (`MappedBufferCache` of
`wmfs_plugin/fd_transport.py`) keeps its own, under the buffer id. `map_buffers` and
`retire_buffers` compute the entries that the worker has to apply, and send them in batches
over the control socket. The FD receiver applies a batch entry by entry, and it gives up the
whole cache when an entry is refused. The ring loop of the worker drops the writable mappings
of an invocation before it publishes the completion of its `INVOKE` command, and the session
drops them after it has received that completion.

The session holds its mutex for all of `map_buffers` and `retire_buffers`, and so there is at
most one such `Call`. Every step of the socket is reliable: a transfer that runs into its
deadline ends the session, and is not part of a run. A `MAP` entry comes with the size of the
file that is sent with it.

`invocations` has the state of each invocation of `worker_process.py`. What the callers
guarantee is in the guards of the steps (`State.mapAllowed`): an invocation maps buffers
before its `INVOKE` is submitted, `mapping_from_buffer` makes arena mappings writable, the
sizes match, and the client has retired the other generations of a buffer.
-/

set_option autoImplicit false

namespace Wmfs.Session

open Wmfs.Lib
open Wmfs.Control (MAX_FD_ENTRIES)

namespace Cache

/-- `Mapping`, and `MappedBuffer` with its key. -/
structure Mapping where
  bufferId : Nat
  generation : Nat
  allocationId : Nat
  byteLength : Nat
  writable : Bool
  arena : Bool
  invocationId : Nat
  deriving DecidableEq, Repr

/-- The mapping ends with its invocation. -/
def Mapping.expires (mapping : Mapping) : Bool := mapping.writable && !mapping.arena

/-- The mapping ends with the invocation. -/
def Mapping.expiresWith (mapping : Mapping) (invocationId : Nat) : Bool :=
  mapping.expires && mapping.invocationId == invocationId

/-- An entry of a batch. -/
inductive Entry where
  | map (mapping : Mapping) (fdSize : Nat)
  | retire (mapping : Mapping)
  deriving DecidableEq, Repr

/-! ### The cache of the worker -/

/-- `_buffers` of a `MappedBufferCache`. -/
abbrev Worker : Type := Nat → Option Mapping

/-- Why the worker refuses a batch. -/
inductive CacheError where
  | fdSize
  | remap
  | staleGeneration
  | arenaRetired
  deriving DecidableEq, Repr

/-- The text of the `ValueError`. -/
def CacheError.message : CacheError → String
  | .fdSize => "Transferred FD size does not match its descriptor"
  | .remap => "Existing buffer mapping must be retired before remap"
  | .staleGeneration => "Cannot retire a stale buffer generation"
  | .arenaRetired => "Cannot retire the shared arena mapping"

/-- `MappedBufferCache.add`. -/
def add (worker : Worker) (mapping : Mapping) (fdSize : Nat) : Except CacheError Worker :=
  -- The size of the file is checked before the cache is locked.
  if fdSize ≠ mapping.byteLength then .error .fdSize
  else match worker mapping.bufferId with
    | none => .ok (Function.update worker mapping.bufferId (some mapping))
    | some existing =>
      if existing.generation = mapping.generation ∧ existing.allocationId = mapping.allocationId ∧
          existing.byteLength = mapping.byteLength ∧ existing.writable = mapping.writable ∧
          existing.arena = mapping.arena ∧ existing.invocationId = mapping.invocationId then
        .ok worker
      else .error .remap

/-- `MappedBufferCache.retire`. -/
def retire (worker : Worker) (mapping : Mapping) : Except CacheError Worker :=
  match worker mapping.bufferId with
  -- A buffer that has expired already may be retired.
  | none => .ok worker
  | some existing =>
    if existing.generation ≠ mapping.generation ∨ existing.allocationId ≠ mapping.allocationId then
      .error .staleGeneration
    else if existing.arena then .error .arenaRetired
    else .ok (Function.update worker mapping.bufferId none)

/-- The FD receiver applies one entry. -/
def applyEntry (worker : Worker) : Entry → Except CacheError Worker
  | .map mapping fdSize => add worker mapping fdSize
  | .retire mapping => retire worker mapping

/-- `MappedBufferCache.finish_invocation`. -/
def finishInvocation (worker : Worker) (invocationId : Nat) : Worker := fun bufferId =>
  (worker bufferId).filter fun mapping => !mapping.expiresWith invocationId

/-! ### The cache of the session -/

/-- `mappings` of the session. -/
abbrev Client : Type := List Mapping

/-- The mapping has the key `(bufferId, generation)`. -/
def Mapping.hasKey (mapping : Mapping) (bufferId generation : Nat) : Bool :=
  mapping.bufferId == bufferId && mapping.generation == generation

/-- `mappings.find`. -/
def find (client : Client) (bufferId generation : Nat) : Option Mapping :=
  client.find? fun mapping => mapping.hasKey bufferId generation

/-- `mappings[key] = mapping`. -/
def assign (client : Client) (mapping : Mapping) : Client :=
  mapping :: client.filter fun other => !other.hasKey mapping.bufferId mapping.generation

/-- `mappings.erase` for the key of each mapping of `retired`. -/
def eraseAll (client : Client) (retired : List Mapping) : Client :=
  client.filter fun mapping =>
    !retired.any fun other => mapping.hasKey other.bufferId other.generation

/-- The expiry after an `INVOKE` completion. -/
def expire (client : Client) (invocationId : Nat) : Client :=
  client.filter fun mapping => !mapping.expiresWith invocationId

/-- The loop of `map_buffers`: the client cache afterwards and the entries to transfer. -/
def planMaps (client : Client) : List (Mapping × Nat) → Client × List Entry
  | [] => (client, [])
  | (mapping, fdSize) :: rest =>
    match find client mapping.bufferId mapping.generation with
    | none =>
      let planned := planMaps (assign client mapping) rest
      (planned.1, .map mapping fdSize :: planned.2)
    | some existing =>
      -- `mapping_required`: a read-only mapping is upgraded, and nothing else is sent again.
      if !existing.writable && mapping.writable then
        let planned := planMaps (assign client mapping) rest
        (planned.1, .retire existing :: .map mapping fdSize :: planned.2)
      else planMaps client rest

/-- The loop of `retire_buffers`: the mappings to retire. -/
def planRetires (client : Client) (mappings : List Mapping) : List Mapping :=
  mappings.filterMap fun mapping =>
    (find client mapping.bufferId mapping.generation).filter fun existing => !existing.arena

/-! ### State -/

/-- Where an invocation is.

* `active`: it may map buffers, and submit `PLAN_OUTPUTS` commands.
* `mapping`: it is in `map_buffers`.
* `aborting`: it is in `abort_invocation`, with the mappings that it has found.
* `published`: its `INVOKE` command has been pushed.
* `finished`: the worker has finished the invocation, and the session waits for the completion.
* `abandoned`: `submit_ring` has thrown before the worker has finished the invocation.
* `stranded`: `submit_ring` has thrown, and the worker has finished the invocation.
* `lost`: the push of its `INVOKE` command has failed.
* `done`: it is over, and has left no mapping that expires with it. -/
inductive Invocation where
  | idle
  | active
  | mapping
  | aborting (expired : List Mapping)
  | published
  | finished
  | abandoned
  | stranded
  | lost
  | done
  deriving DecidableEq, Repr

/-- A running `map_buffers` or `retire_buffers`.

* `batch`: the entries of the batch that the worker has still to apply.
* `queued`: the entries that have not been sent.
* `retired`: what `retire_buffers` erases from the client cache at its end.
* `caller`: the invocation that is in `map_buffers` or `abort_invocation`. -/
structure Call where
  batch : List Entry
  queued : List Entry
  retired : List Mapping
  caller : Option Nat
  deriving DecidableEq, Repr

/-- The two caches, the running call, the invocations, and the error of a refused batch. -/
structure State where
  client : Client
  worker : Worker
  call : Option Call
  invocations : Nat → Invocation
  rejected : Option CacheError

/-- A new session. -/
def State.init : State where
  client := []
  worker := fun _ => none
  call := none
  invocations := fun _ => .idle
  rejected := none

/-- The invocation goes on to `invocation`. -/
def State.goto (s : State) (invocationId : Nat) (invocation : Invocation) : State :=
  { s with invocations := Function.update s.invocations invocationId invocation }

/-! ### Calls -/

/-- What the callers guarantee of the arguments of `map_buffers`. -/
def State.mapAllowed (s : State) (invocationId : Nat) (items : List (Mapping × Nat)) : Prop :=
  (∀ item ∈ items, item.1.invocationId = invocationId ∧ (item.1.arena = true → item.1.writable = true) ∧
    item.2 = item.1.byteLength ∧
    ∀ mapping ∈ s.client, mapping.bufferId = item.1.bufferId →
      mapping.generation = item.1.generation) ∧
  items.Pairwise fun a b => a.1.bufferId = b.1.bufferId → a.1.generation = b.1.generation

instance (s : State) (invocationId : Nat) (items : List (Mapping × Nat)) :
    Decidable (s.mapAllowed invocationId items) :=
  inferInstanceAs (Decidable (_ ∧ _))

/-- `map_buffers` up to its first transfer. -/
def mapBuffers (s : State) (invocationId : Nat) (items : List (Mapping × Nat)) : Option State :=
  match s.call, s.invocations invocationId with
  | none, .active =>
    if s.mapAllowed invocationId items then
      -- The client cache is written before the transfer.
      let planned := planMaps s.client items
      if planned.2.isEmpty then some s
      else some { s.goto invocationId .mapping with
        client := planned.1
        call := some ⟨[], planned.2, [], some invocationId⟩ }
    else none
  | _, _ => none

/-- `retire_buffers` up to its first transfer. -/
def retireBuffers (s : State) (mappings : List Mapping) (caller : Option Nat) : Option State :=
  match s.call with
  | some _ => none
  | none =>
    let active := planRetires s.client mappings
    if active.isEmpty then
      match caller with
      | some invocationId => some (s.goto invocationId .done)
      | none => some s
    else some { s with call := some ⟨[], active.map .retire, active, caller⟩ }

/-- The first critical section of `abort_invocation`. -/
def abortInvocation (s : State) (invocationId : Nat) : Option State :=
  match s.call, s.invocations invocationId with
  | none, .active => some (s.goto invocationId
      (.aborting (s.client.filter fun mapping => mapping.expiresWith invocationId)))
  | _, _ => none

/-- The session sends the next batch, after the last one has been acknowledged. -/
def send (s : State) : Option State :=
  match s.call with
  | some ⟨[], entry :: queued, retired, caller⟩ => some { s with
      call := some ⟨(entry :: queued).take MAX_FD_ENTRIES, (entry :: queued).drop MAX_FD_ENTRIES,
        retired, caller⟩ }
  | _ => none

/-- The caller of a call that has returned. -/
def State.resume (s : State) : Option Nat → State
  | none => s
  | some invocationId =>
    match s.invocations invocationId with
    | .mapping => s.goto invocationId .active
    | .aborting _ => s.goto invocationId .done
    | _ => s

/-- The FD receiver applies the next entry. A refused entry invalidates the cache, and the
call throws. -/
def applyNext (s : State) : Option State :=
  match s.call with
  | some ⟨entry :: batch, queued, retired, caller⟩ =>
    match applyEntry s.worker entry with
    | .ok worker => some { s with
        worker := worker
        call := some ⟨batch, queued, retired, caller⟩ }
    -- `invalidate` closes the whole cache.
    | .error error => some ({ s with
        worker := fun _ => none
        call := none
        rejected := some error }.resume caller)
  | _ => none

/-- The last batch has been acknowledged, and the call returns. -/
def endCall (s : State) : Option State :=
  match s.call with
  | some ⟨[], [], retired, caller⟩ =>
    -- `retire_buffers` erases after the worker has acknowledged.
    some ({ s with client := eraseAll s.client retired, call := none }.resume caller)
  | _ => none

/-! ### Commands -/

/-- The worker takes the `INVOKE` command from its ring and finishes the invocation. -/
def finish (s : State) (invocationId : Nat) : Option State :=
  match s.invocations invocationId with
  | .published => some { s.goto invocationId .finished with
      worker := finishInvocation s.worker invocationId }
  | .abandoned => some { s.goto invocationId .stranded with
      worker := finishInvocation s.worker invocationId }
  | _ => none

/-- `submit_ring` receives the completion of the `INVOKE` command. -/
def complete (s : State) (invocationId : Nat) : Option State :=
  match s.call, s.invocations invocationId with
  | none, .finished => some { s.goto invocationId .done with
      client := expire s.client invocationId }
  | _, _ => none

/-- `submit_ring` throws. -/
def fail (s : State) (invocationId : Nat) : Option State :=
  match s.invocations invocationId with
  -- The push has failed, and no completion will come.
  | .active => some (s.goto invocationId .lost)
  | .published => some (s.goto invocationId .abandoned)
  | .finished => some (s.goto invocationId .stranded)
  | _ => none

/-! ### The machine -/

/-- The labels. `begin` is `_invocation_id`, whose counter returns no id that is in use. -/
inductive Act where
  | begin (invocationId : Nat)
  | mapBuffers (invocationId : Nat) (items : List (Mapping × Nat))
  | planOutputs (invocationId : Nat)
  | retireBuffers (mappings : List Mapping)
  | abortInvocation (invocationId : Nat)
  | abortRetire (invocationId : Nat)
  | send
  | applyNext
  | endCall
  | publish (invocationId : Nat)
  | finish (invocationId : Nat)
  | complete (invocationId : Nat)
  | fail (invocationId : Nat)
  deriving DecidableEq, Repr

/-- One step. -/
def step (s : State) : Act → Option State
  | .begin invocationId =>
    match s.invocations invocationId with
    | .idle => some (s.goto invocationId .active)
    | .done => some (s.goto invocationId .active)
    | _ => none
  | .mapBuffers invocationId items => mapBuffers s invocationId items
  -- A `PLAN_OUTPUTS` command reads the cache of the worker and changes neither.
  | .planOutputs invocationId => if s.invocations invocationId = .active then some s else none
  | .retireBuffers mappings => retireBuffers s mappings none
  | .abortInvocation invocationId => abortInvocation s invocationId
  | .abortRetire invocationId =>
    match s.invocations invocationId with
    | .aborting expired => retireBuffers s expired (some invocationId)
    | _ => none
  | .send => send s
  | .applyNext => applyNext s
  | .endCall => endCall s
  | .publish invocationId =>
    match s.invocations invocationId with
    | .active => some (s.goto invocationId .published)
    | _ => none
  | .finish invocationId => finish s invocationId
  | .complete invocationId => complete s invocationId
  | .fail invocationId => fail s invocationId

/-- The two caches as a machine. -/
def cacheMachine : Machine State Act := ⟨.init, step⟩

end Cache

end Wmfs.Session
