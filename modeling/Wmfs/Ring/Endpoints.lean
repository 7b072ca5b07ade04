import Wmfs.Ring.Model
import Wmfs.Ring.Canonical

/-!
# `Wmfs.Ring.Endpoints`: the two implementations of a ring endpoint

Either end of a ring is the native endpoint of `src/ring.cpp` or the Python `RingEndpoint`, of
which the runtime and the SDK of the plugins hold a copy each. The copies differ in the names of
two variables. This module compares one attempt of the two implementations on a header that
nobody changes meanwhile: what `try_push`, `push`, `try_pop` and `pop` do up to the point at
which they return, raise or wait.

* `RingProducer.tryPush` validates the header, then tests the closed flag, then validates the
  record and the counters. A counter at its maximum is reported and not wrapped.
* `RingEndpoint.push` validates the counters and publishes when there is space. It reads the
  flags only in `_wait`, so a closed ring with space takes the record.

`attempts_agree_iff` says on which headers the two implementations agree. The first part of the
module shows that the bytes of `encode` pass the native check of a record, so that an attempt
of either kind can be made with them.
-/

set_option autoImplicit false

namespace Wmfs.Ring.Endpoints

open Wmfs.Lib
open Wmfs.Ring.Codec hiding RECORD_SIZE Record

/-! ### Encoded records as ring records -/

/-- The bytes of a buffer as a ring record. -/
def image (data : List UInt8) : Record := fun index => data.getD index.val 0

/-- A byte of the image of a buffer. -/
theorem byte_image {data : List UInt8} (hsize : data.length = RECORD_SIZE) (offset : Nat) :
    (image data).byte offset = (data.getD offset 0).toNat := by
  unfold Record.byte image
  split
  · rfl
  · rename_i hout
    rw [List.getD_eq_getElem?_getD, List.getElem?_eq_none (by omega)]
    rfl

/-- A field of the image of a buffer is the little-endian value of its bytes. -/
theorem load_image {data : List UInt8} (hsize : data.length = RECORD_SIZE) (size : Nat) :
    ∀ offset, offset + size ≤ data.length →
      (image data).load offset size = ofLe (slice data offset size) := by
  induction size with
  | zero =>
    intro offset _
    simp [Record.load, slice, ofLe]
  | succ size ih =>
    intro offset hroom
    have hlt : offset < data.length := by omega
    have hslice : slice data offset (size + 1) = data[offset] :: slice data (offset + 1) size := by
      unfold slice
      rw [List.drop_eq_getElem_cons hlt, List.take_succ_cons]
    rw [Record.load, ih (offset + 1) (by omega), byte_image hsize, hslice, ofLe,
      List.getD_eq_getElem?_getD, List.getElem?_eq_getElem hlt]
    rfl

/-- Zeros have the value zero. -/
theorem ofLe_zeros (size : Nat) : ofLe (zeros size) = 0 := by
  induction size with
  | zero => rfl
  | succ size ih =>
    show ofLe (0 :: zeros size) = 0
    rw [ofLe, ih]
    rfl

/-- A field of the image of a buffer is the value that `unpack_from` reads there. -/
theorem load_eq_unpackFrom {data : List UInt8} (hsize : data.length = RECORD_SIZE)
    {format : List Field} {offset index : Nat} {f : Field}
    (hfield : format[index]? = some f) (hsigned : f.signed = false)
    (hroom : offset + formatSize format ≤ data.length) :
    ((image data).load (offset + formatSize (format.take index)) f.width : Int) =
      (unpackFrom format data offset).getD index 0 := by
  have hwidth : formatSize (format.take index) + f.width ≤ formatSize format :=
    formatSize_take_add_le hfield
  rw [load_image hsize _ _ (by omega), unpackFrom, List.getD_eq_getElem?_getD,
    getElem?_unpack hfield hsigned (by rw [length_slice hroom]), slice_slice _ _ hwidth]
  rfl

/-- A reserved field that `unpack_from` reads as zero. -/
theorem reserved_eq_zero {data : List UInt8} (hsize : data.length = RECORD_SIZE)
    {format : List Field} {offset index inner : Nat} {f : Field}
    (hzero : (unpackFrom format data offset).getD index 0 = 0)
    (hfield : format[index]? = some f) (hsigned : f.signed = false)
    (hinner : formatSize (format.take index) = inner)
    (hroom : offset + formatSize format ≤ data.length) :
    (image data).load (offset + inner) f.width = 0 := by
  have hread := load_eq_unpackFrom hsize hfield hsigned hroom
  rw [hinner, hzero] at hread
  exact Int.ofNat_inj.mp hread

/-- A field inside an area of zeros is zero. -/
theorem load_eq_zero {data : List UInt8} (hsize : data.length = RECORD_SIZE)
    {offset size inner width : Nat} (hroom : offset + size ≤ data.length)
    (hzero : slice data offset size = zeros size) (hinner : inner + width ≤ size) :
    (image data).load (offset + inner) width = 0 := by
  have hfield : slice data (offset + inner) width = zeros width := by
    rw [← slice_slice data offset hinner, hzero, slice, zeros, List.drop_replicate,
      List.take_replicate, min_eq_left (by omega)]
    rfl
  rw [load_image hsize _ _ (by omega), hfield, ofLe_zeros]

/-- An area of zeros is one for the native check. -/
theorem allZero_image {data : List UInt8} (hsize : data.length = RECORD_SIZE)
    {offset size : Nat} (hzero : slice data offset size = zeros size) :
    (image data).allZero offset size = true := by
  simp only [Record.allZero, List.all_eq_true, List.mem_range, beq_iff_eq]
  intro index hindex
  have hbyte : (slice data offset size)[index]? = (zeros size)[index]? := by rw [hzero]
  rw [slice, List.getElem?_take_of_lt hindex, List.getElem?_drop, zeros,
    List.getElem?_replicate_of_lt hindex] at hbyte
  rw [byte_image hsize, List.getD_eq_getElem?_getD, hbyte]
  rfl

/-- A reserved field that is zero in the used slots of an array is zero in all of them. -/
theorem reserved_eq_zero_of_slots {α : Type} {slotImage : α → Except Exn (List UInt8)}
    {base size : Nat} {items : List α} {data : List UInt8}
    (hsize : data.length = RECORD_SIZE) (hroom : base + 16 * size ≤ data.length)
    (hslots : Slots slotImage base size items data) {inner width : Nat}
    (hinner : inner + width ≤ size)
    (hused : ∀ index < items.length, (image data).load (base + index * size + inner) width = 0)
    {index : Nat} (hindex : index < 16) :
    (image data).load (base + index * size + inner) width = 0 := by
  by_cases hlt : index < items.length
  · exact hused index hlt
  -- The slot is `index - items.length` slots into the zeros behind the used ones.
  obtain ⟨behind, rfl⟩ := Nat.exists_eq_add_of_le (Nat.le_of_not_lt hlt)
  have hunused : items.length * size + (16 - items.length) * size = 16 * size := by
    rw [← Nat.add_mul]
    congr 1
    omega
  have hslot : behind * size + size ≤ (16 - items.length) * size := by
    rw [← Nat.succ_mul]
    exact Nat.mul_le_mul_right size (by omega)
  rw [Nat.add_mul, ← Nat.add_assoc, Nat.add_assoc]
  exact load_eq_zero hsize (by omega) hslots.2 (by omega)

variable {Obj : Type} [PyObject Obj]

/-- The fields of the header of an encoded record, as the native check reads them. -/
theorem header_of_encoded {record : Codec.Record Obj} {data : List UInt8}
    (h : Encoded record data) :
    ((image data).sessionGeneration : Int) = record.generation ∧
      (image data).tensorCount = record.tensors.length ∧
      (image data).scalarCount = record.scalars.length ∧
      (image data).plannedOutputCount = record.outputs.length ∧
      (image data).load 46 2 = 0 ∧ (image data).load 48 4 = 0 := by
  have hroom : 0 + formatSize RECORD_HEADER ≤ data.length := by
    rw [h.size]
    decide
  have hfield : ∀ (index offset : Nat) (f : Field) (value : Int),
      RECORD_HEADER[index]? = some f → f.signed = false →
      formatSize (RECORD_HEADER.take index) = offset →
      (headerValues record).getD index 0 = value →
      ((image data).load offset f.width : Int) = value := by
    intro index offset f value hf hsigned hoffset hvalue
    have hread := load_eq_unpackFrom h.size hf hsigned hroom
    rwa [Nat.zero_add, hoffset, h.header, hvalue] at hread
  have hgeneration := hfield 2 8 .Q record.generation rfl rfl rfl rfl
  have htensors := hfield 7 40 .H record.tensors.length rfl rfl rfl rfl
  have hscalars := hfield 8 42 .H record.scalars.length rfl rfl rfl rfl
  have houtputs := hfield 9 44 .H record.outputs.length rfl rfl rfl rfl
  have hreserved0 := hfield 10 46 .H 0 rfl rfl rfl rfl
  have hreserved1 := hfield 11 48 .I 0 rfl rfl rfl rfl
  exact ⟨hgeneration, Int.ofNat_inj.mp htensors, Int.ofNat_inj.mp hscalars,
    Int.ofNat_inj.mp houtputs, Int.ofNat_inj.mp hreserved0, Int.ofNat_inj.mp hreserved1⟩

/-- The reserved fields of the descriptors of an encoded record are zero. -/
theorem reserved_of_encoded {record : Codec.Record Obj} {data : List UInt8}
    (h : Encoded record data) {index : Nat} (hindex : index < 16) :
    (image data).tensorReserved0 index = 0 ∧ (image data).scalarReserved0 index = 0 ∧
      (image data).outputReserved0 index = 0 := by
  have hdata : data.length = 16384 := h.size
  have hcounts := h.counts
  refine ⟨?_, ?_, ?_⟩
  · show (image data).load (TENSORS + index * TENSOR_SIZE + 54) 2 = 0
    refine reserved_eq_zero_of_slots h.size (by rw [hdata]; decide) h.tensors (by decide) ?_ hindex
    intro i hi
    have hroom : TENSORS + i * TENSOR_SIZE + TENSOR_SIZE ≤ data.length := by
      rw [hdata, TENSORS, TENSOR_SIZE]
      omega
    have hhead := (padding_of_decodeTensor
      ((decodeTensor_ok_iff hroom).mpr (h.tensors.1 i hi))).1
    exact reserved_eq_zero h.size hhead (f := .H) rfl rfl rfl
      (le_trans (Nat.add_le_add_left (by decide) _) hroom)
  · show (image data).load (SCALARS + index * SCALAR_SIZE + 20) 4 = 0
    refine reserved_eq_zero_of_slots h.size (by rw [hdata]; decide) h.scalars (by decide) ?_ hindex
    intro i hi
    have hroom : SCALARS + i * SCALAR_SIZE + SCALAR_SIZE ≤ data.length := by
      rw [hdata, SCALARS, SCALAR_SIZE]
      omega
    obtain ⟨kind, bits, text, _, _, hhead, _⟩ := slot_of_scalarImage hroom (h.scalars.1 i hi)
    have hzero : (unpackFrom SCALAR_HEAD data (SCALARS + i * SCALAR_SIZE)).getD 5 0 = 0 := by
      rw [hhead]
      rfl
    exact reserved_eq_zero h.size hzero (f := .I) rfl rfl rfl
      (le_trans (Nat.add_le_add_left (by decide) _) hroom)
  · show (image data).load (OUTPUTS + index * OUTPUT_SIZE + 12) 4 = 0
    refine reserved_eq_zero_of_slots h.size (by rw [hdata]; decide) h.outputs (by decide) ?_ hindex
    intro i hi
    have hroom : OUTPUTS + i * OUTPUT_SIZE + OUTPUT_SIZE ≤ data.length := by
      rw [hdata, OUTPUTS, OUTPUT_SIZE]
      omega
    have hhead := (padding_of_decodeOutput
      ((decodeOutput_ok_iff hroom).mpr (h.outputs.1 i hi))).2.1
    exact reserved_eq_zero h.size hhead (f := .I) rfl rfl rfl
      (le_trans (Nat.add_le_add_left (by decide) _) hroom)

/-- The reserved field of the error area of an encoded record is zero. -/
theorem errorReserved_of_encoded {record : Codec.Record Obj} {data : List UInt8}
    (h : Encoded record data) : (image data).errorReserved0 = 0 := by
  have hroom : ERROR_OFFSET + 1104 ≤ data.length := by
    rw [h.size]
    decide
  obtain ⟨encodedType, encodedMessage, _, _, himage⟩ := h.error
  have hhead := ((errorImage_ok_iff hroom (List.length_take_le _ _)).mp himage).1
  have hzero : (unpackFrom ERROR_HEAD data ERROR_OFFSET).getD 3 0 = 0 := by
    rw [hhead]
    rfl
  show (image data).load (ERROR_OFFSET + 12) 4 = 0
  exact reserved_eq_zero h.size hzero (f := .I) rfl rfl rfl
    (le_trans (Nat.add_le_add_left (by decide) _) hroom)

/-- A field that is zero in every descriptor of an array. -/
theorem any_ne_zero_eq_false {field : Nat → Nat} (h : ∀ index < 16, field index = 0) :
    ((List.range 16).any fun index => field index != 0) = false := by
  rw [List.any_eq_false]
  intro index hindex
  rw [h index (List.mem_range.mp hindex)]
  decide

/-- What `encode` makes of a record of the session passes the native check. -/
theorem validateRecordGeneration_image {record : Codec.Record Obj} {data : List UInt8}
    {generation : Nat} (h : Encoded record data) (hgeneration : record.generation = generation) :
    validateRecordGeneration (image data) generation = .ok () := by
  obtain ⟨hsession, htensors, hscalars, houtputs, hreserved0, hreserved1⟩ := header_of_encoded h
  have hsame : (image data).sessionGeneration = generation := by
    rw [hgeneration] at hsession
    exact Int.ofNat_inj.mp hsession
  have hcounts : ¬ ((image data).tensorCount > MAX_TENSORS ∨ (image data).scalarCount > MAX_SCALARS ∨
      (image data).plannedOutputCount > MAX_PLANNED_OUTPUTS) := by
    have hbounds := h.counts
    rw [htensors, hscalars, houtputs, MAX_TENSORS, MAX_SCALARS, MAX_PLANNED_OUTPUTS]
    omega
  have hheader : (image data).allZero 52 76 = true := allZero_image h.size h.reserved
  have htail : (image data).allZero 13072 3312 = true := allZero_image h.size h.tail
  have htensor := any_ne_zero_eq_false fun index hindex => (reserved_of_encoded h hindex).1
  have hscalar := any_ne_zero_eq_false fun index hindex => (reserved_of_encoded h hindex).2.1
  have houtput := any_ne_zero_eq_false fun index hindex => (reserved_of_encoded h hindex).2.2
  have herror := errorReserved_of_encoded h
  unfold validateRecordGeneration
  rw [if_neg (by simp [hsame]), if_neg hcounts,
    if_neg (by rw [hreserved0, hreserved1, hheader, htail]; decide),
    if_neg (by rw [htensor]; decide), if_neg (by rw [hscalar]; decide),
    if_neg (by rw [houtput]; decide), if_neg (by rw [herror]; decide)]

/-! ### One attempt -/

/-- The header as an attempt finds it. The other fields were compared with the configuration
when the endpoint was opened. -/
structure SharedHeader extends Header where
  initialized : Bool
  producer_lt : producer < 2 ^ 64
  consumer_lt : consumer < 2 ^ 64

/-- What an attempt raises. -/
inductive Fault where
  /-- `corrupt("header flags")`. -/
  | headerFlags
  | corrupt (reason : Corrupt)
  /-- The Python `decode` raised. -/
  | undecodable
  deriving DecidableEq, Repr

/-- A record that was copied into its slot, and the producer counter stored after it. -/
structure Published where
  slot : Nat
  record : Record
  producer : Nat

/-- A record that was copied from its slot, and the consumer counter stored after it. -/
structure Taken where
  slot : Nat
  record : Record
  consumer : Nat

/-- How an attempt ends that raises nothing: with the record moved, at the wait, or with the
report that the ring is closed. -/
inductive Attempted (Moved : Type) where
  | moved (record : Moved)
  | waiting
  | closed

/-- The record of an attempt that moved one. -/
def Attempted.moved? {Moved : Type} : Attempted Moved → Option Moved
  | .moved record => some record
  | .waiting => none
  | .closed => none

/-- `EndpointStorage::validate`. -/
def validate (header : SharedHeader) : Except Fault Unit :=
  if header.initialized then .ok () else .error .headerFlags

/-- The counters of the header, once `validate_counters` or `_counters` accepted them. -/
def checkCounters (cfg : Config) (header : SharedHeader) : Except Fault Unit :=
  (validateCounters cfg.capacity header.producer header.consumer).mapError .corrupt

/-- `RingProducer::try_push`. -/
def RingProducer.tryPush (cfg : Config) (header : SharedHeader) (record : Record) :
    Except Fault (Option Published) := do
  validate header
  if header.closed then
    return none
  else
    (validateRecordGeneration record cfg.generation).mapError .corrupt
    checkCounters cfg header
    if header.producer - header.consumer = cfg.capacity then
      return none
    else if header.producer = UINT64_MAX then
      throw (.corrupt .producerCounterOverflow)
    else
      return some ⟨header.producer % cfg.capacity, record, header.producer + 1⟩

/-- `RingConsumer::try_pop`. -/
def RingConsumer.tryPop (cfg : Config) (header : SharedHeader) (slots : Nat → Record) :
    Except Fault (Option Taken) := do
  validate header
  checkCounters cfg header
  if header.producer = header.consumer then
    return none
  else if header.consumer = UINT64_MAX then
    throw (.corrupt .consumerCounterOverflow)
  else
    let slot := header.consumer % cfg.capacity
    (validateRecordGeneration (slots slot) cfg.generation).mapError .corrupt
    return some ⟨slot, slots slot, header.consumer + 1⟩

/-- One pass of the loops of `RingProducer::push` and `RingConsumer::pop`, up to `wait_event`.
Between the two tries the eventfd is drained, which changes nothing that they read. -/
def nativeLoop {Moved : Type} (header : SharedHeader) (attempt : Except Fault (Option Moved)) :
    Except Fault (Attempted Moved) := do
  match ← attempt with
  | some record => return .moved record
  | none =>
    if header.closed then
      return .closed
    match ← attempt with
    | some record => return .moved record
    | none => return if header.closed then .closed else .waiting

/-- `RingProducer::push`, up to its wait. -/
def RingProducer.push (cfg : Config) (header : SharedHeader) (record : Record) :
    Except Fault (Attempted Published) :=
  nativeLoop header (RingProducer.tryPush cfg header record)

/-- `RingConsumer::pop`, up to its wait. -/
def RingConsumer.pop (cfg : Config) (header : SharedHeader) (slots : Nat → Record) :
    Except Fault (Attempted Taken) :=
  nativeLoop header (RingConsumer.tryPop cfg header slots)

/-- `RingEndpoint._wait`, up to its poll, at an endpoint that was not interrupted itself. -/
def RingEndpoint.wait {Moved : Type} (header : SharedHeader) : Attempted Moved :=
  if header.closed then .closed else .waiting

/-- The loop of `RingEndpoint.push` on an encoded record, up to its wait. The counter is stored
through a `c_uint64`. -/
def RingEndpoint.publish (cfg : Config) (header : SharedHeader) (payload : Record) :
    Except Fault (Attempted Published) := do
  checkCounters cfg header
  if header.producer - header.consumer < cfg.capacity then
    return .moved ⟨header.producer % cfg.capacity, payload, (header.producer + 1) % 2 ^ 64⟩
  else
    return RingEndpoint.wait header

/-- `RingEndpoint.push`. What `encode` raises leaves it before the first attempt. -/
def RingEndpoint.push (cfg : Config) (header : SharedHeader) (record : Codec.Record Obj) :
    Except Exn (Except Fault (Attempted Published)) := do
  let payload ← encode record
  return RingEndpoint.publish cfg header (image payload)

/-- The record that `push_profiled` publishes at the time `now` of its clock. -/
def stamped (record : Codec.Record Obj) (now : UInt64) : Codec.Record Obj :=
  { record with profile := record.profile.set 0 now.toNat }

/-- `RingEndpoint.push_profiled`. The profile is packed again over the payload. -/
def RingEndpoint.pushProfiled (cfg : Config) (header : SharedHeader) (record : Codec.Record Obj)
    (now : UInt64) : Except Exn (Except Fault (Attempted Published)) := do
  let payload ← encode record
  match checkCounters cfg header with
  | .error fault => return .error fault
  | .ok () =>
    if header.producer - header.consumer < cfg.capacity then
      let payload ← packInto PROFILE payload PROFILE_OFFSET (stamped record now).profile
      return .ok (.moved ⟨header.producer % cfg.capacity, image payload,
        (header.producer + 1) % 2 ^ 64⟩)
    else
      return .ok (RingEndpoint.wait header)

/-- `RingEndpoint.pop`, up to its wait. -/
def RingEndpoint.pop (cfg : Config) (header : SharedHeader) (slots : Nat → Record) :
    Except Fault (Attempted Taken) := do
  checkCounters cfg header
  if header.producer ≠ header.consumer then
    let slot := header.consumer % cfg.capacity
    if cfg.decodes (slots slot) then
      return .moved ⟨slot, slots slot, (header.consumer + 1) % 2 ^ 64⟩
    else
      throw .undecodable
  else
    return RingEndpoint.wait header

/-! ### When the attempts agree -/

/-- The two verdicts on the counters. -/
theorem checkCounters_cases (cfg : Config) (header : SharedHeader) :
    (checkCounters cfg header = .ok () ∧ header.consumer ≤ header.producer ∧
      header.producer ≤ header.consumer + cfg.capacity) ∨
    (checkCounters cfg header = .error (.corrupt .impossibleCounters) ∧
      (header.producer < header.consumer ∨
        header.consumer + cfg.capacity < header.producer)) := by
  unfold checkCounters validateCounters
  split
  · exact Or.inr ⟨rfl, by omega⟩
  · exact Or.inl ⟨rfl, by omega, by omega⟩

/-- A try that fails once fails twice: the loop reports the ring closed or waits. -/
theorem nativeLoop_eq {Moved : Type} (header : SharedHeader)
    (attempt : Except Fault (Option Moved)) :
    nativeLoop header attempt = attempt.map fun
      | some record => .moved record
      | none => RingEndpoint.wait header := by
  unfold nativeLoop RingEndpoint.wait
  cases attempt with
  | error fault => rfl
  | ok found =>
    cases found with
    | some record => rfl
    | none => cases header.closed <;> rfl

/-- What `RingProducer::push` does with a record that passes its check. -/
theorem RingProducer.push_eq {cfg : Config} {header : SharedHeader} {record : Record}
    (hrecord : validateRecordGeneration record cfg.generation = .ok ()) :
    RingProducer.push cfg header record =
      if header.initialized = false then .error .headerFlags
      else if header.closed then .ok .closed
      else (checkCounters cfg header).bind fun _ =>
        if header.producer - header.consumer = cfg.capacity then .ok .waiting
        else if header.producer = UINT64_MAX then .error (.corrupt .producerCounterOverflow)
        else .ok (.moved ⟨header.producer % cfg.capacity, record, header.producer + 1⟩) := by
  rw [RingProducer.push, nativeLoop_eq, RingProducer.tryPush, validate, RingEndpoint.wait]
  cases header.initialized with
  | false => rfl
  | true =>
    cases header.closed with
    | true => rfl
    | false =>
      rw [hrecord]
      cases checkCounters cfg header with
      | error fault => rfl
      | ok _ =>
        by_cases hfull : header.producer - header.consumer = cfg.capacity
        · simp only [if_pos hfull]
          rfl
        by_cases hmax : header.producer = UINT64_MAX
        · simp only [if_neg hfull, if_pos hmax]
          rfl
        · simp only [if_neg hfull, if_neg hmax]
          rfl

/-- The headers on which both implementations do the same: initialized, and full when closed,
and not about to wrap the producer counter when open. -/
def Compatible (cfg : Config) (header : SharedHeader) : Prop :=
  header.initialized = true ∧
  (header.closed = true → header.producer = header.consumer + cfg.capacity) ∧
  (header.closed = false → header.producer = UINT64_MAX →
    header.consumer + cfg.capacity ≤ UINT64_MAX)

/-- What the Python push does with an encoded record: it looks at the counters alone, and at the
closed flag only when there is no space. -/
theorem RingEndpoint.publish_eq (cfg : Config) (header : SharedHeader) (payload : Record) :
    RingEndpoint.publish cfg header payload =
      (checkCounters cfg header).bind fun _ =>
        if header.producer - header.consumer < cfg.capacity then
          .ok (.moved ⟨header.producer % cfg.capacity, payload, (header.producer + 1) % 2 ^ 64⟩)
        else .ok (RingEndpoint.wait header) := by
  rw [RingEndpoint.publish]
  cases checkCounters cfg header with
  | error fault => rfl
  | ok _ =>
    rw [Result.ok_bind, Except.bind]
    split <;> rfl

/-- On a closed ring the native push reports it, and the Python push does so when the ring is
full. -/
theorem publish_eq_closed_iff {cfg : Config} {header : SharedHeader} (payload : Record)
    (hclosed : header.closed = true) :
    RingEndpoint.publish cfg header payload = .ok .closed ↔
      header.producer = header.consumer + cfg.capacity := by
  rw [RingEndpoint.publish_eq, RingEndpoint.wait, if_pos hclosed]
  obtain ⟨hcounters, hle, hroom⟩ | ⟨hcounters, himpossible⟩ := checkCounters_cases cfg header
  · rw [hcounters, Except.bind]
    by_cases hspace : header.producer - header.consumer < cfg.capacity
    · rw [if_pos hspace]
      simp only [Except.ok.injEq, reduceCtorEq, false_iff]
      omega
    · rw [if_neg hspace]
      simp only [true_iff]
      omega
  · rw [hcounters, Except.bind]
    simp only [reduceCtorEq, false_iff]
    omega

/-- On an open ring the pushes agree unless the producer counter is at its maximum and a record
would still fit. -/
theorem publish_eq_open_iff {cfg : Config} {header : SharedHeader} (payload : Record)
    (hclosed : header.closed = false) :
    (RingEndpoint.publish cfg header payload = (checkCounters cfg header).bind fun _ =>
        if header.producer - header.consumer = cfg.capacity then .ok .waiting
        else if header.producer = UINT64_MAX then .error (.corrupt .producerCounterOverflow)
        else .ok (.moved ⟨header.producer % cfg.capacity, payload, header.producer + 1⟩)) ↔
      (header.producer = UINT64_MAX → header.consumer + cfg.capacity ≤ UINT64_MAX) := by
  have hproducer := header.producer_lt
  have hconsumer := header.consumer_lt
  have hmaximum : UINT64_MAX = 2 ^ 64 - 1 := rfl
  have hwait : (RingEndpoint.wait header : Attempted Published) = .waiting := by
    rw [RingEndpoint.wait, hclosed]
    rfl
  rw [RingEndpoint.publish_eq, hwait]
  obtain ⟨hcounters, hle, hroom⟩ | ⟨hcounters, himpossible⟩ := checkCounters_cases cfg header
  · rw [hcounters, Except.bind, Except.bind]
    by_cases hspace : header.producer - header.consumer < cfg.capacity
    · rw [if_pos hspace, if_neg (by omega)]
      by_cases hmax : header.producer = UINT64_MAX
      · rw [if_pos hmax]
        simp only [reduceCtorEq, false_iff]
        omega
      · have hwrap : (header.producer + 1) % 2 ^ 64 = header.producer + 1 :=
          Nat.mod_eq_of_lt (by omega)
        rw [if_neg hmax, hwrap]
        simp only [true_iff]
        omega
    · rw [if_neg hspace, if_pos (by omega)]
      simp only [true_iff]
      omega
  · rw [hcounters, Except.bind, Except.bind]
    simp only [true_iff]
    omega

/-- The Python push does not look at the initialized flag. -/
theorem publish_ne_headerFlags (cfg : Config) (header : SharedHeader) (payload : Record) :
    RingEndpoint.publish cfg header payload ≠ .error .headerFlags := by
  rw [RingEndpoint.publish_eq]
  obtain ⟨hcounters, _⟩ | ⟨hcounters, _⟩ := checkCounters_cases cfg header
  · rw [hcounters, Except.bind]
    split <;> simp
  · rw [hcounters, Except.bind]
    simp

/-- The pushes agree on the compatible headers, and on no others. -/
theorem publish_eq_push_iff {cfg : Config} {header : SharedHeader} {record : Record}
    (hrecord : validateRecordGeneration record cfg.generation = .ok ()) :
    RingEndpoint.publish cfg header record = RingProducer.push cfg header record ↔
      Compatible cfg header := by
  rw [RingProducer.push_eq hrecord, Compatible]
  cases hinitialized : header.initialized with
  | false =>
    rw [if_pos rfl]
    simpa using publish_ne_headerFlags cfg header record
  | true =>
    rw [if_neg (by decide)]
    cases hclosed : header.closed with
    | true =>
      rw [if_pos rfl, publish_eq_closed_iff record hclosed]
      simp
    | false =>
      rw [if_neg (by decide), publish_eq_open_iff record hclosed]
      simp

/-- A record that both implementations accept. -/
structure Accepted (cfg : Config) (record : Record) : Prop where
  native : validateRecordGeneration record cfg.generation = .ok ()
  python : cfg.decodes record = true

/-- What `RingConsumer::pop` does when the next record passes its check. -/
theorem RingConsumer.pop_eq {cfg : Config} {header : SharedHeader} {slots : Nat → Record}
    (hslot : header.producer ≠ header.consumer →
      Accepted cfg (slots (header.consumer % cfg.capacity))) :
    RingConsumer.pop cfg header slots =
      if header.initialized = false then .error .headerFlags
      else RingEndpoint.pop cfg header slots := by
  have hproducer := header.producer_lt
  have hmaximum : UINT64_MAX = 2 ^ 64 - 1 := rfl
  rw [RingConsumer.pop, nativeLoop_eq, RingConsumer.tryPop, validate, RingEndpoint.pop]
  cases header.initialized with
  | false => rfl
  | true =>
    obtain ⟨hcounters, hle, hroom⟩ | ⟨hcounters, _⟩ := checkCounters_cases cfg header
    · rw [hcounters]
      by_cases hempty : header.producer = header.consumer
      · simp only [if_pos hempty, if_neg (not_not.mpr hempty)]
        rfl
      · -- The consumer is behind a producer below the maximum, so its counter does not wrap.
        have hwrap : (header.consumer + 1) % 2 ^ 64 = header.consumer + 1 :=
          Nat.mod_eq_of_lt (by omega)
        have hmax : ¬ header.consumer = UINT64_MAX := by omega
        have haccepted := hslot hempty
        simp only [if_neg hempty, if_neg hmax, if_pos hempty, hwrap, haccepted.native,
          haccepted.python]
        rfl
    · rw [hcounters]
      rfl

/-- The Python pop does not look at the initialized flag. -/
theorem RingEndpoint.pop_ne_headerFlags (cfg : Config) (header : SharedHeader)
    (slots : Nat → Record) : RingEndpoint.pop cfg header slots ≠ .error .headerFlags := by
  rw [RingEndpoint.pop]
  obtain ⟨hcounters, _⟩ | ⟨hcounters, _⟩ := checkCounters_cases cfg header
  · rw [hcounters, Result.ok_bind]
    split
    · dsimp only
      split
      · intro h; cases h
      · intro h; cases h
    · intro h; cases h
  · rw [hcounters, Result.error_bind]
    intro h
    cases h

/-- The pops agree on the initialized headers, and on no others. -/
theorem pop_eq_pop_iff {cfg : Config} {header : SharedHeader} {slots : Nat → Record}
    (hslot : header.producer ≠ header.consumer →
      Accepted cfg (slots (header.consumer % cfg.capacity))) :
    RingEndpoint.pop cfg header slots = RingConsumer.pop cfg header slots ↔
      header.initialized = true := by
  rw [RingConsumer.pop_eq hslot]
  cases header.initialized with
  | false => simpa using RingEndpoint.pop_ne_headerFlags cfg header slots
  | true => simp

/-! ### The attempts of the step machine -/

/-- Where the producer of the step machine goes after an attempt with this outcome. -/
def afterAttempt (record : Record) (producer : Nat) :
    Except Fault (Attempted Published) → ProducerPc
  | .ok (.moved _) => .copy .first record producer 0
  | .ok _ => .recheck .first record
  | .error (.corrupt reason) => .raised (.corrupt reason)
  | .error _ => .raised .undecodable

/-- The Python producer of the step machine makes the attempt of `RingEndpoint.push`. -/
theorem checkPush_python {cfg : Config} (hpython : cfg.producer = .python)
    (header : SharedHeader) (record : Record) :
    checkPush cfg .first record header.producer header.consumer =
      afterAttempt record header.producer (RingEndpoint.publish cfg header record) := by
  rw [RingEndpoint.publish_eq, checkPush, checkCounters, hpython]
  cases validateCounters cfg.capacity header.producer header.consumer with
  | error reason => rfl
  | ok _ =>
    show (if _ then _ else _) = afterAttempt _ _ (if _ then _ else _)
    by_cases hspace : header.producer - header.consumer < cfg.capacity
    · rw [if_pos hspace, if_pos hspace]
      rfl
    · rw [if_neg hspace, if_neg hspace, RingEndpoint.wait]
      cases header.closed <;> rfl

/-- The native producer of the step machine, past its closed check, makes the attempt of
`RingProducer::push`. -/
theorem checkPush_native {cfg : Config} (hnative : cfg.producer = .native)
    {header : SharedHeader} (hinitialized : header.initialized = true)
    (hopen : header.closed = false) {record : Record}
    (hrecord : validateRecordGeneration record cfg.generation = .ok ()) :
    checkPush cfg .first record header.producer header.consumer =
      afterAttempt record header.producer (RingProducer.push cfg header record) := by
  rw [RingProducer.push_eq hrecord, checkPush, checkCounters, hnative, hinitialized, hopen]
  cases validateCounters cfg.capacity header.producer header.consumer with
  | error reason => rfl
  | ok _ =>
    show (if _ then _ else _) = afterAttempt _ _ (if _ then _ else _)
    by_cases hfull : header.producer - header.consumer = cfg.capacity
    · rw [if_pos hfull, if_pos hfull]
      rfl
    · rw [if_neg hfull, if_neg hfull]
      split <;> rfl

/-! ### The profiled push -/

omit [PyObject Obj] in
/-- The profile of an encoded record can be packed with any time in its first place. -/
theorem exists_structPack_stamped {record : Codec.Record Obj} {profile : List UInt8}
    (h : structPack PROFILE record.profile = .ok profile) (now : UInt64) :
    ∃ bytes, structPack PROFILE (stamped record now).profile = .ok bytes := by
  have hholds := holds_of_structPack h
  have hnow : Field.Q.Holds now.toNat := by
    rw [Field.holds_Q_iff]
    exact ⟨by omega, by exact_mod_cast now.toNat_lt⟩
  have hstamped : List.Forall₂ Field.Holds PROFILE (stamped record now).profile := by
    show List.Forall₂ Field.Holds PROFILE (record.profile.set 0 now.toNat)
    cases hprofile : record.profile with
    | nil => rw [hprofile] at hholds; cases hholds
    | cons first rest =>
      rw [hprofile] at hholds
      exact List.Forall₂.cons hnow (List.forall₂_cons.mp hholds).2
  obtain ⟨bytes, hbytes⟩ := Option.isSome_iff_exists.mp (isSome_pack_iff.mpr hstamped)
  exact ⟨bytes, structPack_ok_iff.mpr hbytes⟩

/-- The payload that `push_profiled` packs its profile over is the encoding of the stamped
record. -/
theorem encode_stamped {record : Codec.Record Obj} {payload : List UInt8}
    (h : encode record = .ok payload) (now : UInt64) :
    ∃ bytes, packInto PROFILE payload PROFILE_OFFSET (stamped record now).profile = .ok bytes ∧
      encode (stamped record now) = .ok bytes := by
  rw [encode_eq_image, recordImage_ok_iff] at h
  obtain ⟨hgeneration, hsubmission, hcounts, hlength, header, tensors, scalars, outputs, profile,
    encodedType, encodedMessage, error, hheader, htensors, hscalars, houtputs, hprofile, htype,
    hmessage, herror, hdata⟩ := h
  obtain ⟨bytes, hbytes⟩ := exists_structPack_stamped hprofile now
  have htensorsLength : (padTo 4992 tensors).length = 4992 :=
    length_padTo (length_of_concatArray length_of_tensorImage htensors hcounts.1)
  have hscalarsLength : (padTo 4480 scalars).length = 4480 :=
    length_padTo (length_of_concatArray length_of_scalarImage hscalars hcounts.2.1)
  have houtputsLength : (padTo 2304 outputs).length = 2304 :=
    length_padTo (length_of_concatArray length_of_outputImage houtputs hcounts.2.2)
  have hfront : (header ++ zeros 76 ++ padTo 4992 tensors ++ padTo 4480 scalars ++
      padTo 2304 outputs).length = PROFILE_OFFSET := by
    rw [List.length_append, List.length_append, List.length_append, List.length_append,
      length_of_structPack hheader, length_zeros, htensorsLength, hscalarsLength, houtputsLength]
    rfl
  have hpayload : payload = (header ++ zeros 76 ++ padTo 4992 tensors ++ padTo 4480 scalars ++
      padTo 2304 outputs) ++ profile ++ (error ++ zeros 3312) := by
    rw [hdata]
    simp only [List.flatten_cons, List.flatten_nil, List.append_assoc, List.append_nil]
  refine ⟨(header ++ zeros 76 ++ padTo 4992 tensors ++ padTo 4480 scalars ++
    padTo 2304 outputs) ++ bytes ++ (error ++ zeros 3312), ?_, ?_⟩
  · rw [packInto, hbytes, Result.ok_bind, hpayload, ← hfront, splice_middle]
    · rfl
    · rw [length_of_structPack hbytes, length_of_structPack hprofile]
  · rw [encode_eq_image, recordImage_ok_iff]
    refine ⟨hgeneration, hsubmission, hcounts, ?_, header, tensors, scalars, outputs, bytes,
      encodedType, encodedMessage, error, hheader, htensors, hscalars, houtputs, hbytes, htype,
      hmessage, herror, ?_⟩
    · show (record.profile.set 0 (now.toNat : Int)).length = 8
      rw [List.length_set, hlength]
    · simp only [List.flatten_cons, List.flatten_nil, List.append_assoc, List.append_nil]

/-- The profiled push is the push of the stamped record. -/
theorem RingEndpoint.pushProfiled_eq (cfg : Config) (header : SharedHeader)
    {record : Codec.Record Obj} {payload : List UInt8} (h : encode record = .ok payload)
    (now : UInt64) :
    RingEndpoint.pushProfiled cfg header record now =
      RingEndpoint.push cfg header (stamped record now) := by
  obtain ⟨bytes, hpack, hencode⟩ := encode_stamped h now
  rw [RingEndpoint.pushProfiled, RingEndpoint.push, h, hencode, Result.ok_bind, Result.ok_bind,
    RingEndpoint.publish_eq]
  cases checkCounters cfg header with
  | error fault => rfl
  | ok _ =>
    show (if _ then _ else _) = _
    by_cases hspace : header.producer - header.consumer < cfg.capacity
    · rw [if_pos hspace, hpack, Result.ok_bind, Except.bind, if_pos hspace]
    · rw [if_neg hspace, Except.bind, if_neg hspace]

/-! ### The endpoints -/

/-- One attempt of each method of the Python endpoint has the outcome of its native counterpart:
the same record moved to or from the same slot with the same counter stored, the wait, the
report that the ring is closed, or the same report of corruption. -/
structure AttemptsAgree (cfg : Config) (header : SharedHeader) (slots : Nat → Record)
    (record : Codec.Record Obj) : Prop where
  push : ∃ payload, encode record = .ok payload ∧
    RingEndpoint.push cfg header record = .ok (RingProducer.push cfg header (image payload)) ∧
    (RingEndpoint.publish cfg header (image payload)).map Attempted.moved? =
      RingProducer.tryPush cfg header (image payload)
  pushProfiled : ∀ now, ∃ payload, encode (stamped record now) = .ok payload ∧
    RingEndpoint.pushProfiled cfg header record now =
      .ok (RingProducer.push cfg header (image payload))
  pop : RingEndpoint.pop cfg header slots = RingConsumer.pop cfg header slots ∧
    (RingEndpoint.pop cfg header slots).map Attempted.moved? =
      RingConsumer.tryPop cfg header slots

/-- The result of a try can be read off the loop around it. -/
theorem map_moved?_nativeLoop {Moved : Type} (header : SharedHeader)
    (attempt : Except Fault (Option Moved)) :
    (nativeLoop header attempt).map Attempted.moved? = attempt := by
  rw [nativeLoop_eq]
  cases attempt with
  | error fault => rfl
  | ok found =>
    cases found with
    | some record => rfl
    | none =>
      show Except.ok (Attempted.moved? (RingEndpoint.wait header)) = _
      unfold RingEndpoint.wait
      cases header.closed <;> rfl

/-- **The endpoints.** For every record of the session that `encode` accepts, and with a next
record that both implementations accept if the ring is not empty, the two implementations have the same
outcome on the compatible headers and on no others. -/
theorem attempts_agree_iff (cfg : Config) (header : SharedHeader) (slots : Nat → Record)
    (record : Codec.Record Obj) (payload : List UInt8) (hencode : encode record = .ok payload)
    (hgeneration : record.generation = cfg.generation)
    (hslot : header.producer ≠ header.consumer →
      Accepted cfg (slots (header.consumer % cfg.capacity))) :
    AttemptsAgree cfg header slots record ↔ Compatible cfg header := by
  have hpush : RingEndpoint.push cfg header record =
      .ok (RingEndpoint.publish cfg header (image payload)) := by
    rw [RingEndpoint.push, hencode]
    rfl
  have hvalid : validateRecordGeneration (image payload) cfg.generation = .ok () :=
    validateRecordGeneration_image (encode_ok_iff.mp hencode) hgeneration
  constructor
  · intro h
    obtain ⟨bytes, hbytes, hagree, _⟩ := h.push
    rw [hencode, Except.ok.injEq] at hbytes
    rw [hpush, ← hbytes, Except.ok.injEq] at hagree
    exact (publish_eq_push_iff hvalid).mp hagree
  · intro h
    have hagree := (publish_eq_push_iff hvalid).mpr h
    have hpop := (pop_eq_pop_iff hslot).mpr h.1
    refine ⟨⟨payload, hencode, by rw [hpush, hagree], ?_⟩, ?_, hpop, ?_⟩
    · rw [hagree, RingProducer.push, map_moved?_nativeLoop]
    · intro now
      obtain ⟨bytes, _, hstamped⟩ := encode_stamped hencode now
      have hvalid' : validateRecordGeneration (image bytes) cfg.generation = .ok () :=
        validateRecordGeneration_image (encode_ok_iff.mp hstamped) hgeneration
      refine ⟨bytes, hstamped, ?_⟩
      rw [RingEndpoint.pushProfiled_eq cfg header hencode, RingEndpoint.push, hstamped,
        Result.ok_bind, (publish_eq_push_iff hvalid').mpr h]
      rfl
    · rw [hpop, RingConsumer.pop, map_moved?_nativeLoop]

/-- The bytes of the image of a buffer. -/
theorem ofFn_image {data : List UInt8} (hsize : data.length = RECORD_SIZE) :
    List.ofFn (image data) = data := by
  apply List.ext_getElem
  · rw [List.length_ofFn, hsize]
  · intro index hleft hright
    rw [List.getElem_ofFn]
    show data.getD index 0 = data[index]
    rw [List.getD_eq_getElem?_getD, List.getElem?_eq_getElem hright]
    rfl

/-- The Python `decode` accepts the bytes of a record. -/
def pythonDecodes (generation : Int) (bytes : Record) : Bool :=
  (decode (List.ofFn bytes) generation : Except Exn (Codec.Record Value)).isOk

/-- A ring of four slots with the Python codec behind it. -/
def ringOfFour : Config where
  capacity := 4
  generation := 1
  producer := .python
  consumer := .python
  decodes := pythonDecodes 1
  capacity_pos := by decide
  capacity_lt := by decide
  generation_lt := one_lt_generations

/-- Both implementations accept the encoding of a record without texts and scalars. -/
theorem accepted_errorRecord {payload : List UInt8} (h : encode (errorRecord []) = .ok payload) :
    Accepted ringOfFour (image payload) := by
  have hencoded := encode_ok_iff.mp h
  refine ⟨validateRecordGeneration_image hencoded rfl, ?_⟩
  obtain ⟨scalars, _, hdecode⟩ := decode_of_fits hencoded
    (by intro item hitem; cases hitem) ⟨[], rfl, by decide⟩ ⟨[], rfl, by decide⟩
  have hdecodes : pythonDecodes 1 (image payload) = true := by
    rw [pythonDecodes, ofFn_image hencoded.size]
    exact congrArg Except.isOk hdecode
  simp only [ringOfFour, hdecodes]

/-- A header with the given flag and two records in the ring. -/
def headerOfTwo (closed : Bool) : SharedHeader where
  producer := 5
  consumer := 3
  closed := closed
  initialized := true
  producer_lt := by decide
  consumer_lt := by decide

/-- The endpoints agree on an open ring with two records. -/
theorem attempts_agree_open_ring : ∃ payload, encode (errorRecord []) = .ok payload ∧
    AttemptsAgree ringOfFour (headerOfTwo false) (fun _ => image payload) (errorRecord []) := by
  obtain ⟨payload, hencode⟩ := encode_errorRecord_nil
  refine ⟨payload, hencode, ?_⟩
  rw [attempts_agree_iff ringOfFour (headerOfTwo false) _ _ payload hencode rfl
    fun _ => accepted_errorRecord hencode]
  exact ⟨rfl, by decide, by decide⟩

/-- The Python push publishes into a closed ring, which the native push reports as closed. -/
theorem closed_ring_takes_record : ∃ payload, encode (errorRecord []) = .ok payload ∧
    Accepted ringOfFour (image payload) ∧
    ¬ AttemptsAgree ringOfFour (headerOfTwo true) (fun _ => image payload) (errorRecord []) ∧
    RingEndpoint.push ringOfFour (headerOfTwo true) (errorRecord []) =
      .ok (.ok (.moved ⟨1, image payload, 6⟩)) ∧
    RingProducer.push ringOfFour (headerOfTwo true) (image payload) = .ok .closed := by
  obtain ⟨payload, hencode⟩ := encode_errorRecord_nil
  have hpython : RingEndpoint.push ringOfFour (headerOfTwo true) (errorRecord []) =
      .ok (.ok (.moved ⟨1, image payload, 6⟩)) := by
    rw [RingEndpoint.push, hencode]
    rfl
  have hnative : RingProducer.push ringOfFour (headerOfTwo true) (image payload) =
      .ok .closed := rfl
  refine ⟨payload, hencode, accepted_errorRecord hencode, ?_, hpython, hnative⟩
  intro h
  obtain ⟨bytes, hbytes, hagree, _⟩ := h.push
  rw [hencode, Except.ok.injEq] at hbytes
  rw [hpython, ← hbytes, hnative] at hagree
  simp only [Except.ok.injEq, reduceCtorEq] at hagree

end Wmfs.Ring.Endpoints
