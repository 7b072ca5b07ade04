import Wmfs.Control.Codec
import Wmfs.Session.MappingCache

/-!
# `Wmfs.Session.Transfer`: batches of mappings and their descriptors

`Session::Impl::transfer` and `transfer_batched` of `native_session.cpp`, and the receiver
`FdReceiver._serve` of `wmfs_plugin/fd_transport.py` that applies their batches. A packet carries
an array of descriptors, and nothing in an entry says which of them is its own: the sender and the
receiver both count the `MAP` entries. The sender has a second cursor into the descriptors of all
batches, and must close each of them, whatever happens.

A packet is modelled by what it says. The kernel keeps the order of the descriptors of a packet,
and gives the receiver descriptors of its own for the same files. A transfer can fail at the
socket: the packet is not sent, or the worker does not receive it, or the acknowledgement does not
arrive. Memory does not run out.
-/

set_option autoImplicit false

namespace Wmfs.Session.Transfer

open Wmfs.Lib
open Wmfs.Control (FdEntry FdEntryKind MAX_FD_ENTRIES MAX_PACKET_BYTES)
open Wmfs.Session.Cache (Mapping Worker CacheError)

/-! ### Packets -/

/-- The entry of `transfer` for a value. -/
def entryOf (value : Mapping) (map : Bool) : FdEntry where
  kind := if map then .map else .retire
  bufferId := value.bufferId
  generation := value.generation
  allocationId := value.allocationId
  invocationId := if map then value.invocationId else 0
  byteLength := value.byteLength
  flags :=
    if map then
      ((if value.writable then 1 else 0 : Nat) ||| (if value.arena then 2 else 0 : Nat) : Nat)
    else 0

/-- What the receiver reads of an entry. `FdFlag.WRITABLE` is 1 and `FdFlag.ARENA` is 2. -/
def mappingOf (entry : FdEntry) : Mapping where
  bufferId := entry.bufferId.toNat
  generation := entry.generation.toNat
  allocationId := entry.allocationId.toNat
  byteLength := entry.byteLength.toNat
  writable := entry.flags.toNat.testBit 0
  arena := entry.flags.toNat.testBit 1
  invocationId := entry.invocationId.toNat

section
variable {Fd : Type}

/-- `wmfs_control_fd_batch_v1`, its entries, and the descriptors that travel with the packet. -/
structure Message (Fd : Type) where
  requestId : UInt64
  transferId : UInt64
  sessionGeneration : UInt64
  entryCount : UInt16
  fdCount : UInt16
  entries : List FdEntry
  fds : List Fd

/-- The number of `MAP` entries. -/
def mapCount (entries : List FdEntry) : Nat := entries.countP fun entry => entry.kind = .map

/-- The checks on an entry, of the encoder and of the decoder. -/
def entryValid (entry : FdEntry) : Bool :=
  entry.flags.toNat / 4 = 0 ∧ (entry.kind = .retire → entry.flags = 0)

/-- `wmfs_control_encode_fd_batch_v1` does not refuse the batch. -/
def encodes (message : Message Fd) : Bool :=
  message.entryCount ≠ 0 ∧ message.entryCount.toNat ≤ MAX_FD_ENTRIES ∧
    (∀ entry ∈ message.entries, entryValid entry) ∧
    UInt16.ofNat (mapCount message.entries) = message.fdCount ∧
    32 + message.entryCount.toNat * 48 ≤ MAX_PACKET_BYTES - 32

/-! ### The receiver -/

/-- A call of `MappedBufferCache` by the receiver. -/
inductive CacheCall (Fd : Type) where
  | add (mapping : Mapping) (fd : Fd)
  | retire (bufferId generation allocationId : Nat)
  deriving DecidableEq, Repr

/-- The mapping and the descriptor of an `add`. -/
def CacheCall.added : CacheCall Fd → Option (Mapping × Fd)
  | add mapping fd => some (mapping, fd)
  | retire .. => none

/-- Why the receiver refuses a batch. -/
inductive ServeError where
  | sessionGeneration
  | indexError
  /-- `os.fstat` or `mmap.mmap` fails. -/
  | osError
  | cache (error : CacheError)
  deriving DecidableEq, Repr

/-- A `FdReceiver`, with the calls of its cache and the descriptors that it has closed. -/
structure Receiver (Fd : Type) where
  sessionGeneration : UInt64
  running : Bool
  cache : Worker
  calls : List (CacheCall Fd)
  closed : List Fd

/-- The variables of the loop over the entries. A `-1` of `received_fds` is a `none`. -/
structure Serving (Fd : Type) where
  receiver : Receiver Fd
  received : List (Option Fd)
  fdIndex : Nat

/-- `MappedBufferCache.add`, for a file of this size. There is no size when the file cannot be
mapped. -/
def addFile (cache : Worker) (mapping : Mapping) (fileSize : Option Nat) :
    Except ServeError Worker :=
  match fileSize with
  | none => .error .osError
  | some size => (Cache.add cache mapping size).mapError .cache

/-- The branch of the loop for a `MAP` entry. -/
def applyMap (file : Fd → Option Nat) (s : Serving Fd) (mapping : Mapping) :
    Serving Fd × Except ServeError Unit :=
  match s.received[s.fdIndex]? with
  | some (some fd) =>
    -- `add` closes the descriptor in any case.
    let receiver :=
      { s.receiver with
        calls := s.receiver.calls ++ [.add mapping fd]
        closed := s.receiver.closed ++ [fd] }
    let s := { s with receiver, fdIndex := s.fdIndex + 1 }
    match addFile receiver.cache mapping (file fd) with
    | .error error => (s, .error error)
    | .ok cache =>
      ({ s with
          receiver := { receiver with cache }
          received := s.received.set (s.fdIndex - 1) none }, .ok ())
  | _ => (s, .error .indexError)

/-- The branch of the loop for a `RETIRE` entry. -/
def applyRetire (s : Serving Fd) (mapping : Mapping) : Serving Fd × Except ServeError Unit :=
  let receiver :=
    { s.receiver with
      calls := s.receiver.calls ++
        [.retire mapping.bufferId mapping.generation mapping.allocationId] }
  match Cache.retire receiver.cache mapping with
  | .error error => ({ s with receiver }, .error (.cache error))
  | .ok cache => ({ s with receiver := { receiver with cache } }, .ok ())

/-- An iteration of the loop over the entries. -/
def applyEntry (file : Fd → Option Nat) (s : Serving Fd) (entry : FdEntry) :
    Serving Fd × Except ServeError Unit :=
  match entry.kind with
  | .map => applyMap file s (mappingOf entry)
  | .retire => applyRetire s (mappingOf entry)

/-- The loop over the entries. -/
def applyEntries (file : Fd → Option Nat) (s : Serving Fd) :
    List FdEntry → Serving Fd × Except ServeError Unit
  | [] => (s, .ok ())
  | entry :: entries =>
    match applyEntry file s entry with
    | (s, .error error) => (s, .error error)
    | (s, .ok ()) => applyEntries file s entries

/-- `recvmsg_strict` and `decode_fd_batch` accept the packet. -/
def decodes (message : Message Fd) : Bool :=
  message.entries.length = message.entryCount.toNat ∧ message.entryCount ≠ 0 ∧
    message.entryCount.toNat ≤ MAX_FD_ENTRIES ∧
    (∀ entry ∈ message.entries, entryValid entry) ∧
    mapCount message.entries = message.fdCount.toNat ∧
    message.fds.length = message.fdCount.toNat

/-- An iteration of `_serve`, and whether it acknowledges the batch with `OK`. The cache of a
receiver that refuses a batch is invalidated. -/
def serve (file : Fd → Option Nat) (receiver : Receiver Fd) (message : Message Fd) :
    Receiver Fd × Option Bool :=
  if ¬ decodes message then
    -- A `ProtocolError`. There is no acknowledgement.
    ({ receiver with
        running := false
        cache := fun _ => none
        closed := receiver.closed ++ message.fds }, none)
  else
    let s : Serving Fd := ⟨receiver, message.fds.map some, 0⟩
    let (s, result) :=
      if message.sessionGeneration ≠ receiver.sessionGeneration then
        (s, .error .sessionGeneration)
      else applyEntries file s message.entries
    match result with
    | .ok () => (s.receiver, some true)
    | .error _ =>
      ({ s.receiver with
          running := false
          cache := fun _ => none
          closed := s.receiver.closed ++ s.received.filterMap id }, some false)

/-! ### The sender -/

/-- What becomes of a packet at the socket.

* `sendFails`: `sendmsg` does not send it.
* `unreceived`: the worker does not receive it.
* `served`: the worker receives it, and the acknowledgement arrives or not. -/
inductive Fate where
  | sendFails
  | unreceived
  | served (acknowledged : Bool)
  deriving DecidableEq, Repr

/-- The exceptions of `transfer`. -/
inductive Failure where
  | batchSize
  | encode
  | send
  | acknowledgement
  | rejected
  deriving DecidableEq, Repr

/-- A session, with the packets that it has sent and the descriptors that it has closed, and the
receiver at the other end of its socket. -/
structure Sender (Fd : Type) where
  generation : UInt64
  nextTransfer : UInt64
  nextRequest : UInt64
  sent : List (Message Fd)
  closed : List Fd
  receiver : Receiver Fd

/-- The packet of `transfer`. -/
def Sender.message (s : Sender Fd) (values : List Mapping) (maps : List Bool) (fds : List Fd) :
    Message Fd where
  requestId := s.nextRequest
  transferId := s.nextTransfer
  sessionGeneration := s.generation
  entryCount := UInt16.ofNat values.length
  fdCount := UInt16.ofNat (maps.count true)
  entries := List.zipWith entryOf values maps
  fds := fds

/-- A receiver that has stopped does not read packets. -/
def deliver (file : Fd → Option Nat) (receiver : Receiver Fd) (message : Message Fd) :
    Receiver Fd × Option Bool :=
  if receiver.running then serve file receiver message else (receiver, none)

/-- The acknowledgement is awaited. -/
def await (acknowledged : Bool) (acknowledgement : Option Bool) : Except Failure Unit :=
  match acknowledgement with
  | some ok =>
    if ¬ acknowledged then .error .acknowledgement
    else if ok then .ok ()
    else .error .rejected
  | none => .error .acknowledgement

/-- `transfer`. It closes the descriptors behind `sendmsg`. -/
def transfer (file : Fd → Option Nat) (s : Sender Fd) (values : List Mapping) (maps : List Bool)
    (fds : List Fd) (fate : Fate) : Sender Fd × Except Failure Unit :=
  if values.length = 0 ∨ values.length > MAX_FD_ENTRIES then (s, .error .batchSize)
  else
    let message := s.message values maps fds
    let s := { s with nextTransfer := s.nextTransfer + 1, nextRequest := s.nextRequest + 1 }
    if ¬ encodes message then (s, .error .encode)
    else
      let s := { s with closed := s.closed ++ fds }
      match fate with
      | .sendFails => (s, .error .send)
      | .unreceived => ({ s with sent := s.sent ++ [message] }, .error .acknowledgement)
      | .served acknowledged =>
        let (receiver, acknowledgement) := deliver file s.receiver message
        ({ s with sent := s.sent ++ [message], receiver }, await acknowledged acknowledgement)

/-- The elements from `first` to `last`. -/
def range {α : Type} (items : List α) (first last : Nat) : List α :=
  (items.drop first).take (last - first)

/-- The loop of `transfer_batched`. The packet of batch `n` meets `fates n`. -/
def transferLoop (file : Fd → Option Nat) (fates : Nat → Fate) (values : List Mapping)
    (maps : List Bool) (fds : List Fd) (s : Sender Fd) (offset fdIndex batches : Nat) :
    Sender Fd × Except Failure Nat :=
  if offset < values.length then
    let last := min values.length (offset + MAX_FD_ENTRIES)
    let batchMaps := range maps offset last
    let count := batchMaps.count true
    let batchFds := range fds fdIndex (fdIndex + count)
    let fdIndex := fdIndex + count
    match transfer file s (range values offset last) batchMaps batchFds (fates batches) with
    | (s, .error error) => ({ s with closed := s.closed ++ fds.drop fdIndex }, .error error)
    | (s, .ok ()) =>
      transferLoop file fates values maps fds s (offset + MAX_FD_ENTRIES) fdIndex (batches + 1)
  else (s, .ok batches)
termination_by values.length - offset
decreasing_by
  rw [MAX_FD_ENTRIES]
  omega

/-- `transfer_batched`. -/
def transferBatched (file : Fd → Option Nat) (fates : Nat → Fate) (s : Sender Fd)
    (values : List Mapping) (maps : List Bool) (fds : List Fd) :
    Sender Fd × Except Failure Nat :=
  transferLoop file fates values maps fds s 0 0 0

end

end Wmfs.Session.Transfer
