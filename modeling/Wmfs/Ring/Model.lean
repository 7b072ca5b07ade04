import Wmfs.Lib.Transition
import Wmfs.Ring.Record

/-!
# `Wmfs.Ring.Model`: the shared-memory ring as a step machine

One ring has one producer, one consumer and any number of closers. They share the header
counters, the record slots and two eventfds. Each endpoint is either the native one of
`src/ring.cpp` (`RingProducer`, `RingConsumer`) or the Python `RingEndpoint` of
`transport/ring.py`; `Config` says which.

One step of the machine is one access to shared memory or to an eventfd, followed by the
local computation up to the next access. The slot copies are `memcpy` calls on memory that
the other process can access, so they are modelled byte by byte: a torn record would be
visible. The program counters name the point at which the endpoint stopped.

* `RingProducer::try_push`: `enter` (validation, closed flag), `loadProducer`,
  `loadConsumer`, `copy` (one step for each byte, then the store of `producer + 1`),
  `notify`.
* `RingProducer::push`: the `first` try, `recheck` (closed flag), `drain`, the `second`
  try, `recheck`, `wait`.
* `RingConsumer::try_pop` and `pop`: the same points on the other counter. The space
  eventfd is written only when the counters loaded before the store were `capacity` apart.
* `RingEndpoint.push` and `pop`: no closed check before the attempt; `_wait` checks the
  closed flag (`recheck`), polls (`wait`) and then drains (`read`).

Counters are the `uint64_t` values of the header. They are compared as unsigned integers,
and a store keeps the low 64 bits. An eventfd is a counter that saturates at `2 ^ 64 - 2`:
the write that would exceed it fails with `EAGAIN`, which `notify` ignores.

`published` and `popped` record the history of the run: the records in the order in which
the producer counter was advanced over them, and the records in the order in which the
consumer counter was. No step reads them.
-/

set_option autoImplicit false

namespace Wmfs.Ring

open Wmfs.Lib

/-- `std::numeric_limits<std::uint64_t>::max()`. -/
def UINT64_MAX : Nat := 2 ^ 64 - 1

/-- The implementation behind an endpoint. -/
inductive Endpoint where
  | native
  | python
  deriving DecidableEq, Repr

/-- What is fixed when the ring is created and its endpoints are opened. The capacity is a
`uint32_t` and the generation a `uint64_t`. `decodes` says which records the Python
`decode(data, generation)` accepts. The results about the ring hold for every such
function. -/
structure Config where
  capacity : Nat
  generation : Nat
  producer : Endpoint
  consumer : Endpoint
  decodes : Record → Bool
  capacity_pos : 0 < capacity
  capacity_lt : capacity < 2 ^ 32
  generation_lt : generation < 2 ^ 64

/-- One is a generation. -/
theorem one_lt_generations : 1 < 2 ^ 64 := by decide

/-- The mutable fields of `wmfs_ring_header_v1`. -/
structure Header where
  producer : Nat
  consumer : Nat
  closed : Bool
  deriving DecidableEq, Repr

/-- What a push or a pop returned: `unavailable` is the `false` of `try_push` and `try_pop`. -/
inductive Outcome where
  | success
  | unavailable
  | timeout
  | closed
  deriving DecidableEq, Repr

/-- Which attempt is running: one called on its own, or the first or second of `push`/`pop`.
The Python loop has a single attempt, which is `first`. -/
inductive Attempt where
  | only
  | first
  | second
  deriving DecidableEq, Repr

/-- What an endpoint raises. -/
inductive RingFailure where
  | corrupt (reason : Corrupt)
  | undecodable
  | closedRing
  deriving DecidableEq, Repr

/-- Where the producer is. -/
inductive ProducerPc where
  | ready (last : Option Outcome)
  | enter (attempt : Attempt) (record : Record)
  | loadProducer (attempt : Attempt) (record : Record)
  | loadConsumer (attempt : Attempt) (record : Record) (producer : Nat)
  | copy (attempt : Attempt) (record : Record) (producer copied : Nat)
  | notify
  | recheck (attempt : Attempt) (record : Record)
  | drain (record : Record)
  | wait (record : Record)
  | read (record : Record)
  | raised (failure : RingFailure)

/-- Where the consumer is. -/
inductive ConsumerPc where
  | ready (last : Option Outcome)
  | loadProducer (attempt : Attempt)
  | loadConsumer (attempt : Attempt) (producer : Nat)
  | copy (attempt : Attempt) (producer consumer copied : Nat) (buffer : Record)
  | notify
  | recheck (attempt : Attempt)
  | drain
  | wait
  | read
  | raised (failure : RingFailure)

/-- The state of one ring. `closeData` and `closeSpace` count the `close` calls that have
set the flag and still have to write the data eventfd, and those that still have to write
the space eventfd. -/
structure State where
  header : Header
  slots : Nat → Record
  dataFd : Nat
  spaceFd : Nat
  producer : ProducerPc
  consumer : ConsumerPc
  closeData : Nat
  closeSpace : Nat
  published : List Record
  popped : List Record

/-- The labels: who moves, and what the caller or the clock decides. -/
inductive Act where
  | callTryPush (record : Record)
  | callPush (record : Record)
  | producer
  | producerTimeout
  | callTryPop
  | callPop
  | consumer
  | consumerTimeout
  | closeFlag
  | closeNotifyData
  | closeNotifySpace

/-- An eventfd write of 1. -/
def eventfdWrite (count : Nat) : Nat := if count < 2 ^ 64 - 2 then count + 1 else count

/-- `validate_counters`. -/
def validateCounters (capacity producer consumer : Nat) : Except Corrupt Unit :=
  if producer < consumer ∨ producer - consumer > capacity then .error .impossibleCounters
  else .ok ()

/-- The check that the consumer makes on its copy of a record. -/
def Config.checkPopped (cfg : Config) (record : Record) : Except RingFailure Unit :=
  match cfg.consumer with
  | .native => (validateRecordGeneration record cfg.generation).mapError .corrupt
  | .python => if cfg.decodes record then .ok () else .error .undecodable

/-- `RingOwner::create`: a zeroed ring with both eventfds at zero. -/
def init : State where
  header := ⟨0, 0, false⟩
  slots := fun _ _ => 0
  dataFd := 0
  spaceFd := 0
  producer := .ready none
  consumer := .ready none
  closeData := 0
  closeSpace := 0
  published := []
  popped := []

/-! ### The producer -/

/-- Where the producer goes when the attempt found no space, or found the ring closed. -/
def failedPush (attempt : Attempt) (record : Record) : ProducerPc :=
  match attempt with
  | .only => .ready (some .unavailable)
  | .first => .recheck .first record
  | .second => .recheck .second record

/-- The local part of an attempt, after both counters have been loaded. -/
def checkPush (cfg : Config) (attempt : Attempt) (record : Record) (producer consumer : Nat) :
    ProducerPc :=
  match validateCounters cfg.capacity producer consumer with
  | .error reason => .raised (.corrupt reason)
  | .ok () =>
    match cfg.producer with
    | .native =>
      -- The full test comes before the overflow test.
      if producer - consumer = cfg.capacity then failedPush attempt record
      else if producer = UINT64_MAX then .raised (.corrupt .producerCounterOverflow)
      else .copy attempt record producer 0
    | .python =>
      if producer - consumer < cfg.capacity then .copy attempt record producer 0
      else failedPush attempt record

/-- The closed check between two attempts: `impl_->closed()` in `push`, or the first line of
`_wait`. -/
def recheckPush (cfg : Config) (closed : Bool) (attempt : Attempt) (record : Record) :
    ProducerPc :=
  match cfg.producer, closed, attempt with
  | .native, true, _ => .ready (some .closed)
  | .native, false, .second => .wait record
  | .native, false, _ => .drain record
  -- `_wait` raises on a closed ring and has no second attempt before its poll.
  | .python, true, _ => .raised .closedRing
  | .python, false, _ => .wait record

/-- One step of the producer. -/
def producerStep (cfg : Config) (s : State) : Option State :=
  match s.producer with
  | .ready _ => none
  | .enter attempt record =>
    -- `try_push` tests the closed flag before it validates the record. A closed ring is a failed
    -- attempt, and `push` finds out why in its own closed check.
    if s.header.closed then some { s with producer := failedPush attempt record }
    else match validateRecordGeneration record cfg.generation with
      | .error reason => some { s with producer := .raised (.corrupt reason) }
      | .ok () => some { s with producer := .loadProducer attempt record }
  | .loadProducer attempt record =>
    some { s with producer := .loadConsumer attempt record s.header.producer }
  | .loadConsumer attempt record producer =>
    some { s with producer := checkPush cfg attempt record producer s.header.consumer }
  | .copy attempt record producer copied =>
    -- The `memcpy` into the slot, a byte at a time, then the release store of `producer + 1`.
    let slot := producer % cfg.capacity
    if h : copied < RECORD_SIZE then
      some { s with
        slots := Function.update s.slots slot
          (Function.update (s.slots slot) ⟨copied, h⟩ (record ⟨copied, h⟩))
        producer := .copy attempt record producer (copied + 1) }
    else
      some { s with
        header := { s.header with producer := (producer + 1) % 2 ^ 64 }
        producer := .notify
        published := s.published ++ [record] }
  | .notify =>
    some { s with dataFd := eventfdWrite s.dataFd, producer := .ready (some .success) }
  | .recheck attempt record =>
    some { s with producer := recheckPush cfg s.header.closed attempt record }
  -- A drain reads the counter of the eventfd, which resets it.
  | .drain record => some { s with spaceFd := 0, producer := .enter .second record }
  | .wait record =>
    -- `poll` returns only once the eventfd is nonzero.
    if s.spaceFd = 0 then none
    else match cfg.producer with
      | .native => some { s with producer := .enter .first record }
      | .python => some { s with producer := .read record }
  -- `_wait` drains after its poll, and the Python loop starts again with the counters.
  | .read record => some { s with spaceFd := 0, producer := .loadProducer .first record }
  -- The exception reaches the caller, who may call again.
  | .raised _ => some { s with producer := .ready none }

/-- The deadline of the wait expires. -/
def producerTimeout (s : State) : Option State :=
  match s.producer with
  | .wait _ => some { s with producer := .ready (some .timeout) }
  | _ => none

/-- A caller enters `try_push`. The Python endpoint has no such method. -/
def callTryPush (cfg : Config) (record : Record) (s : State) : Option State :=
  match s.producer, cfg.producer with
  | .ready _, .native => some { s with producer := .enter .only record }
  | _, _ => none

/-- A caller enters `push`. -/
def callPush (cfg : Config) (record : Record) (s : State) : Option State :=
  match s.producer, cfg.producer with
  | .ready _, .native => some { s with producer := .enter .first record }
  | .ready _, .python => some { s with producer := .loadProducer .first record }
  | _, _ => none

/-! ### The consumer -/

/-- Where the consumer goes when the attempt found the ring empty. -/
def failedPop (attempt : Attempt) : ConsumerPc :=
  match attempt with
  | .only => .ready (some .unavailable)
  | .first => .recheck .first
  | .second => .recheck .second

/-- The local part of an attempt, after both counters have been loaded. -/
def checkPop (cfg : Config) (attempt : Attempt) (producer consumer : Nat) : ConsumerPc :=
  match validateCounters cfg.capacity producer consumer with
  | .error reason => .raised (.corrupt reason)
  | .ok () =>
    if producer = consumer then failedPop attempt
    else match cfg.consumer with
      | .native =>
        if consumer = UINT64_MAX then .raised (.corrupt .consumerCounterOverflow)
        else .copy attempt producer consumer 0 (fun _ => 0)
      | .python => .copy attempt producer consumer 0 (fun _ => 0)

/-- The closed check between two attempts. -/
def recheckPop (cfg : Config) (closed : Bool) (attempt : Attempt) : ConsumerPc :=
  match cfg.consumer, closed, attempt with
  | .native, true, _ => .ready (some .closed)
  | .native, false, .second => .wait
  | .native, false, _ => .drain
  | .python, true, _ => .raised .closedRing
  | .python, false, _ => .wait

/-- Whether a pop that loaded these counters writes the space eventfd after its store. The
native consumer does so only when it saw the ring full. -/
def notifiesSpace (cfg : Config) (producer consumer : Nat) : Bool :=
  match cfg.consumer with
  | .native => producer - consumer = cfg.capacity
  | .python => true

/-- One step of the consumer. -/
def consumerStep (cfg : Config) (s : State) : Option State :=
  match s.consumer with
  | .ready _ => none
  | .loadProducer attempt =>
    some { s with consumer := .loadConsumer attempt s.header.producer }
  | .loadConsumer attempt producer =>
    some { s with consumer := checkPop cfg attempt producer s.header.consumer }
  | .copy attempt producer consumer copied buffer =>
    if h : copied < RECORD_SIZE then
      let value := s.slots (consumer % cfg.capacity) ⟨copied, h⟩
      some { s with
        consumer := .copy attempt producer consumer (copied + 1)
          (Function.update buffer ⟨copied, h⟩ value) }
    -- The copy is checked before the store: a record that fails stays in the ring.
    else match cfg.checkPopped buffer with
      | .error failure => some { s with consumer := .raised failure }
      | .ok () =>
        some { s with
          header := { s.header with consumer := (consumer + 1) % 2 ^ 64 }
          -- The decision uses the counters from before the copy.
          consumer := if notifiesSpace cfg producer consumer then .notify
            else .ready (some .success)
          popped := s.popped ++ [buffer] }
  | .notify =>
    some { s with spaceFd := eventfdWrite s.spaceFd, consumer := .ready (some .success) }
  | .recheck attempt => some { s with consumer := recheckPop cfg s.header.closed attempt }
  | .drain => some { s with dataFd := 0, consumer := .loadProducer .second }
  | .wait =>
    if s.dataFd = 0 then none
    else match cfg.consumer with
      | .native => some { s with consumer := .loadProducer .first }
      | .python => some { s with consumer := .read }
  | .read => some { s with dataFd := 0, consumer := .loadProducer .first }
  | .raised _ => some { s with consumer := .ready none }

/-- The deadline of the wait expires. -/
def consumerTimeout (s : State) : Option State :=
  match s.consumer with
  | .wait => some { s with consumer := .ready (some .timeout) }
  | _ => none

/-- A caller enters `try_pop`. -/
def callTryPop (cfg : Config) (s : State) : Option State :=
  match s.consumer, cfg.consumer with
  | .ready _, .native => some { s with consumer := .loadProducer .only }
  | _, _ => none

/-- A caller enters `pop`. -/
def callPop (s : State) : Option State :=
  match s.consumer with
  | .ready _ => some { s with consumer := .loadProducer .first }
  | _ => none

/-! ### Closing -/

/-- `close_header`: the closed flag is set and never cleared. -/
def closeFlag (s : State) : State :=
  { s with header := { s.header with closed := true }, closeData := s.closeData + 1 }

/-- The data notification of a `close` that has set the flag. -/
def closeNotifyData (s : State) : Option State :=
  if s.closeData = 0 then none
  else some { s with
    dataFd := eventfdWrite s.dataFd
    closeData := s.closeData - 1
    closeSpace := s.closeSpace + 1 }

/-- The space notification of a `close` that has made its data notification. -/
def closeNotifySpace (s : State) : Option State :=
  if s.closeSpace = 0 then none
  else some { s with spaceFd := eventfdWrite s.spaceFd, closeSpace := s.closeSpace - 1 }

/-- One step of the ring. -/
def step (cfg : Config) (s : State) : Act → Option State
  | .callTryPush record => callTryPush cfg record s
  | .callPush record => callPush cfg record s
  | .producer => producerStep cfg s
  | .producerTimeout => producerTimeout s
  | .callTryPop => callTryPop cfg s
  | .callPop => callPop s
  | .consumer => consumerStep cfg s
  | .consumerTimeout => consumerTimeout s
  | .closeFlag => some (closeFlag s)
  | .closeNotifyData => closeNotifyData s
  | .closeNotifySpace => closeNotifySpace s

/-- The ring as a machine. -/
def machine (cfg : Config) : Machine State Act := ⟨init, step cfg⟩

end Wmfs.Ring
