import Wmfs.Ring.Calls

/-!
# `Wmfs.Ring.Fifo`: the ring is a FIFO queue

`Inv` relates the counters, the slots and the two program counters to the history of the
run. The counters are the lengths of the two histories, and the slot of every unread sequence
number holds the record that was published under it. A producer in the middle of a copy
loaded a consumer counter that was at most the present one, so the slot it writes is not
the slot of an unread record (`mod_ne_of_lt`). A consumer in the middle of a copy reads the
slot of an unread record, which the producer does not write.

`inv_step` preserves `Inv` as long as the histories stay below `2 ^ 64` records. The native
producer refuses to pass that bound, and `native_published_lt` shows that a native ring
never does. The Python producer has no such check.

The consumer checks its copy before it advances its counter: a native one with
`validate_record_generation`, a Python one with `decode`. So a published record is returned only if
it passes. One that fails makes the pop raise and stays the oldest unread record
(`unread_rejected`), and pops return all that come before it (`unread_drained`). What a native
producer publishes passes the check of a native consumer.

`fifoLaw_of_reachable` assembles the result for all four pairs of endpoints, in terms of the calls
that returned success.
-/

set_option autoImplicit false

namespace Wmfs.Ring

open Wmfs.Lib

/-! ### The invariant -/

/-- What the producer's validation says about a record: the native producer publishes only
records that `validate_record_generation` accepts. -/
def Accepted (cfg : Config) (record : Record) : Prop :=
  cfg.producer = .native → validateRecordGeneration record cfg.generation = .ok ()

/-- The producer's loaded counter is current, and during a copy the slot it writes is free
and holds the bytes copied so far. -/
def ProducerOk (cfg : Config) (header : Header) (slots : Nat → Record) : ProducerPc → Prop
  | .loadProducer _ record => Accepted cfg record
  | .loadConsumer _ record producer => Accepted cfg record ∧ producer = header.producer
  | .copy _ record producer copied =>
    Accepted cfg record ∧ producer = header.producer ∧
    producer < header.consumer + cfg.capacity ∧
    (cfg.producer = .native → producer < UINT64_MAX) ∧
    copied ≤ RECORD_SIZE ∧
    ∀ i : Fin RECORD_SIZE, i.val < copied → slots (producer % cfg.capacity) i = record i
  | .read _ => cfg.producer = .python
  | .raised failure => failure ≠ .corrupt .impossibleCounters ∧
    (failure = .corrupt .producerCounterOverflow → header.producer = UINT64_MAX)
  | _ => True

/-- The consumer's loaded counters bracket an unread record, and during a copy its buffer
holds the bytes of that record's slot. -/
def ConsumerOk (cfg : Config) (header : Header) (slots : Nat → Record) : ConsumerPc → Prop
  | .loadConsumer _ producer => header.consumer ≤ producer ∧ producer ≤ header.producer
  | .copy _ producer consumer copied buffer =>
    consumer = header.consumer ∧ consumer < producer ∧ producer ≤ header.producer ∧
    copied ≤ RECORD_SIZE ∧
    ∀ i : Fin RECORD_SIZE, i.val < copied → buffer i = slots (consumer % cfg.capacity) i
  | .raised failure => failure ≠ .corrupt .impossibleCounters ∧
    failure ≠ .corrupt .consumerCounterOverflow ∧
    (cfg.producer = .native → cfg.consumer = .python)
  | _ => True

/-- The invariant of the ring. -/
structure Inv (cfg : Config) (s : State) : Prop where
  producer_eq : s.header.producer = s.published.length
  consumer_le : s.header.consumer ≤ s.header.producer
  distance : s.header.producer ≤ s.header.consumer + cfg.capacity
  popped_eq : s.popped = s.published.take s.header.consumer
  slot : ∀ j, s.header.consumer ≤ j → j < s.header.producer →
    s.published[j]? = some (s.slots (j % cfg.capacity))
  accepted : ∀ record ∈ s.published, Accepted cfg record
  producerOk : ProducerOk cfg s.header s.slots s.producer
  consumerOk : ConsumerOk cfg s.header s.slots s.consumer

/-- Two sequence numbers less than `capacity` apart have different slots. -/
theorem mod_ne_of_lt {capacity i j : Nat} (hij : i < j) (hlt : j < i + capacity) :
    i % capacity ≠ j % capacity := by
  intro heq
  -- Equal slots would make the distance a positive multiple of the capacity.
  obtain ⟨k, hk⟩ : capacity ∣ j - i :=
    (Nat.modEq_iff_dvd' hij.le).mp heq
  have hpos : 0 < k := by
    rcases Nat.eq_zero_or_pos k with h0 | h0
    · subst h0; omega
    · exact h0
  have hle : capacity ≤ capacity * k := Nat.le_mul_of_pos_right capacity hpos
  omega

/-- `validate_counters` accepts counters at most `capacity` apart. -/
theorem validateCounters_ok {capacity producer consumer : Nat} (hle : consumer ≤ producer)
    (hdist : producer ≤ consumer + capacity) :
    validateCounters capacity producer consumer = .ok () := by
  unfold validateCounters
  rw [if_neg (by omega)]

/-- Other slots than those of unread records do not matter to the consumer. -/
theorem ConsumerOk.of_slots {cfg : Config} {header : Header} {slots slots' : Nat → Record}
    {pc : ConsumerPc} (h : ConsumerOk cfg header slots pc)
    (hslots : ∀ j, header.consumer ≤ j → j < header.producer →
      slots' (j % cfg.capacity) = slots (j % cfg.capacity)) :
    ConsumerOk cfg header slots' pc := by
  cases pc with
  | copy attempt producer consumer copied buffer =>
    obtain ⟨rfl, hcp, hpp, hle, hbuf⟩ := h
    refine ⟨rfl, hcp, hpp, hle, fun i hi => ?_⟩
    -- The consumer copies from the slot of the oldest unread record.
    rw [hslots _ (Nat.le_refl _) (by omega)]
    exact hbuf i hi
  | _ => exact h

/-- The consumer does not depend on how far the producer counter has advanced. -/
theorem ConsumerOk.of_producer {cfg : Config} {header : Header} {slots : Nat → Record}
    {pc : ConsumerPc} (h : ConsumerOk cfg header slots pc) {producer : Nat}
    (hle : header.producer ≤ producer) :
    ConsumerOk cfg { header with producer := producer } slots pc := by
  cases pc with
  | loadConsumer attempt p => exact ⟨h.1, h.2.trans hle⟩
  | copy attempt p consumer copied buffer =>
    obtain ⟨hc, hcp, hpp, hrest⟩ := h
    exact ⟨hc, hcp, hpp.trans hle, hrest⟩
  | _ => exact h

/-- An advance of the consumer counter only adds free slots. -/
theorem ProducerOk.of_consumer {cfg : Config} {header : Header} {slots : Nat → Record}
    {pc : ProducerPc} (h : ProducerOk cfg header slots pc) {consumer : Nat}
    (hle : header.consumer ≤ consumer) :
    ProducerOk cfg { header with consumer := consumer } slots pc := by
  cases pc with
  | copy attempt record producer copied =>
    obtain ⟨hr, hp, hfree, hrest⟩ := h
    exact ⟨hr, hp, hfree.trans_le (Nat.add_le_add_right hle _), hrest⟩
  | _ => exact h

/-- The invariant holds at the beginning. -/
theorem inv_init (cfg : Config) : Inv cfg init where
  producer_eq := rfl
  consumer_le := Nat.le_refl _
  distance := Nat.zero_le _
  popped_eq := rfl
  slot j _ hj := absurd hj (Nat.not_lt_zero j)
  accepted record h := by simp [init] at h
  producerOk := trivial
  consumerOk := trivial

/-! ### What each step preserves -/

section
variable {cfg : Config} {s t : State}

/-- A failed attempt leaves the producer without a loaded counter. -/
theorem inv_failedPush (h : Inv cfg s) (attempt : Attempt) (record : Record) :
    Inv cfg { s with producer := failedPush attempt record } := by
  cases attempt <;> exact { h with producerOk := trivial }

/-- The local part of a push attempt. The counters pass their validation, and the attempt
starts to copy only when a slot is free. -/
theorem inv_checkPush (h : Inv cfg s) (attempt : Attempt) (record : Record)
    (hrec : Accepted cfg record) (hb : s.published.length < 2 ^ 64) :
    Inv cfg { s with
      producer := checkPush cfg attempt record s.header.producer s.header.consumer } := by
  have hlt : s.header.producer ≤ UINT64_MAX := by
    rw [h.producer_eq]; unfold UINT64_MAX; omega
  -- Both endpoints start their copy with a free slot. The native one has also checked that the
  -- counter can be advanced.
  have hcopy : s.header.producer - s.header.consumer ≠ cfg.capacity →
      (cfg.producer = .native → s.header.producer < UINT64_MAX) →
      Inv cfg { s with producer := .copy attempt record s.header.producer 0 } := by
    intro hfull hmax
    have hc := h.consumer_le
    have hd := h.distance
    exact { h with
      producerOk := ⟨hrec, rfl, show s.header.producer < s.header.consumer + _ by omega, hmax,
        Nat.zero_le _, fun i hi => absurd hi (Nat.not_lt_zero _)⟩ }
  unfold checkPush
  rw [validateCounters_ok h.consumer_le h.distance]
  cases hp : cfg.producer with
  | native =>
    simp only
    split
    · exact inv_failedPush h attempt record
    · rename_i hfull
      split
      · rename_i hmax
        exact { h with producerOk := ⟨by simp, fun _ => hmax⟩ }
      · rename_i hmax
        exact hcopy hfull fun _ => by omega
  | python =>
    simp only
    split
    · rename_i hspace
      exact hcopy (by omega) (by simp [hp])
    · exact inv_failedPush h attempt record

/-- The closed check of a push. -/
theorem inv_recheckPush (h : Inv cfg s) (attempt : Attempt) (record : Record) :
    Inv cfg { s with producer := recheckPush cfg s.header.closed attempt record } := by
  refine { h with producerOk := ?_ }
  simp only [recheckPush]
  split <;> simp [ProducerOk]

/-- Copying one byte. The slot is not the slot of an unread record. -/
theorem inv_copyByte (h : Inv cfg s) {attempt : Attempt} {record : Record}
    {producer copied : Nat} (hpc : s.producer = .copy attempt record producer copied)
    (hlt : copied < RECORD_SIZE) :
    Inv cfg { s with
      slots := Function.update s.slots (producer % cfg.capacity)
        (Function.update (s.slots (producer % cfg.capacity)) ⟨copied, hlt⟩
          (record ⟨copied, hlt⟩))
      producer := .copy attempt record producer (copied + 1) } := by
  have hpo := h.producerOk
  rw [hpc] at hpo
  obtain ⟨hrec, rfl, hfree, hmax, -, hbytes⟩ := hpo
  -- The sequence number being written is less than `capacity` above every unread one.
  have hother : ∀ j, s.header.consumer ≤ j → j < s.header.producer →
      j % cfg.capacity ≠ s.header.producer % cfg.capacity := fun j hc hj =>
    mod_ne_of_lt hj (by omega)
  refine { h with slot := ?_, producerOk := ?_, consumerOk := ?_ }
  · intro j hc hj
    simp only [Function.update_of_ne (hother j hc hj)]
    exact h.slot j hc hj
  · refine ⟨hrec, rfl, hfree, hmax, hlt, fun i hi => ?_⟩
    simp only [Function.update_self]
    by_cases hic : i = ⟨copied, hlt⟩
    · subst hic
      simp
    · have hi' : i.val < copied := by
        have hne : i.val ≠ copied := fun he => hic (Fin.ext he)
        omega
      rw [Function.update_of_ne hic]
      exact hbytes i hi'
  · refine h.consumerOk.of_slots fun j hc hj => ?_
    exact Function.update_of_ne (hother j hc hj) _ _

/-- The store of `producer + 1` publishes the record in the slot. -/
theorem inv_publish (h : Inv cfg s) {attempt : Attempt} {record : Record}
    {producer copied : Nat} (hpc : s.producer = .copy attempt record producer copied)
    (hdone : ¬ copied < RECORD_SIZE) (hb : s.published.length + 1 < 2 ^ 64) :
    Inv cfg { s with
      header := { s.header with producer := (producer + 1) % 2 ^ 64 }
      producer := .notify
      published := s.published ++ [record] } := by
  have hpo := h.producerOk
  rw [hpc] at hpo
  obtain ⟨hrec, rfl, hfree, -, -, hbytes⟩ := hpo
  have heq := h.producer_eq
  have hcle := h.consumer_le
  have hmod : (s.header.producer + 1) % 2 ^ 64 = s.header.producer + 1 :=
    Nat.mod_eq_of_lt (by omega)
  -- All bytes have been copied, so the slot is the record.
  have hslot : s.slots (s.header.producer % cfg.capacity) = record :=
    funext fun i => hbytes i (by have := i.isLt; omega)
  refine
    { producer_eq := by rw [hmod, List.length_append, heq]; rfl
      consumer_le := by simp only [hmod]; omega
      distance := by simp only [hmod]; omega
      popped_eq := ?_
      slot := ?_
      accepted := ?_
      producerOk := trivial
      consumerOk := ?_ }
  -- The pops are a prefix of what was published before.
  · show s.popped = (s.published ++ [record]).take s.header.consumer
    rw [h.popped_eq, List.take_append_of_le_length (by omega)]
  · intro j hc hj
    simp only [hmod] at hc hj
    -- An old sequence number keeps its record. The new one has the record just copied.
    rcases Nat.lt_or_ge j s.header.producer with hlt | hge
    · rw [List.getElem?_append_left (by omega)]
      exact h.slot j hc hlt
    · have hj' : j = s.published.length := by omega
      subst hj'
      simp [← heq, hslot]
  · intro r hr
    rcases List.mem_append.mp hr with hr | hr
    · exact h.accepted r hr
    · rw [List.mem_singleton.mp hr]
      exact hrec
  · exact h.consumerOk.of_producer (by simp only [hmod]; omega)

/-- The local part of a pop attempt. -/
theorem inv_checkPop (h : Inv cfg s) (attempt : Attempt) (producer : Nat)
    (hlow : s.header.consumer ≤ producer) (hhigh : producer ≤ s.header.producer)
    (hb : s.published.length < 2 ^ 64) :
    Inv cfg { s with consumer := checkPop cfg attempt producer s.header.consumer } := by
  have hcopy : producer ≠ s.header.consumer →
      Inv cfg { s with consumer := .copy attempt producer s.header.consumer 0 fun _ => 0 } := by
    intro hne
    exact { h with
      consumerOk := ⟨rfl, by show s.header.consumer < producer; omega, hhigh, Nat.zero_le _,
        fun i hi => absurd hi (Nat.not_lt_zero _)⟩ }
  have hd := h.distance
  have heq := h.producer_eq
  unfold checkPop
  rw [validateCounters_ok hlow (by omega)]
  simp only
  split
  · cases attempt <;> exact { h with consumerOk := trivial }
  · rename_i hne
    cases hcons : cfg.consumer with
    | native =>
      simp only
      -- The consumer counter is below the producer's, which has not wrapped.
      rw [if_neg (by unfold UINT64_MAX; omega)]
      exact hcopy hne
    | python => exact hcopy hne

/-- Copying one byte out of the slot of an unread record. -/
theorem inv_readByte (h : Inv cfg s) {attempt : Attempt} {producer consumer copied : Nat}
    {buffer : Record} (hpc : s.consumer = .copy attempt producer consumer copied buffer)
    (hlt : copied < RECORD_SIZE) :
    Inv cfg { s with
      consumer := .copy attempt producer consumer (copied + 1)
        (Function.update buffer ⟨copied, hlt⟩
          (s.slots (consumer % cfg.capacity) ⟨copied, hlt⟩)) } := by
  have hco := h.consumerOk
  rw [hpc] at hco
  obtain ⟨hc, hcp, hpp, -, hbuf⟩ := hco
  refine { h with consumerOk := ⟨hc, hcp, hpp, hlt, fun i hi => ?_⟩ }
  by_cases hic : i = ⟨copied, hlt⟩
  · subst hic
    simp
  · have hi' : i.val < copied := by
      have hne : i.val ≠ copied := fun he => hic (Fin.ext he)
      omega
    rw [Function.update_of_ne hic]
    exact hbuf i hi'

/-- A complete copy is the record published under the consumer's sequence number. -/
theorem buffer_eq_published (h : Inv cfg s) {attempt : Attempt}
    {producer consumer copied : Nat} {buffer : Record}
    (hpc : s.consumer = .copy attempt producer consumer copied buffer)
    (hdone : ¬ copied < RECORD_SIZE) :
    s.published[s.header.consumer]? = some buffer := by
  have hco := h.consumerOk
  rw [hpc] at hco
  obtain ⟨rfl, hcp, hpp, -, hbuf⟩ := hco
  -- The buffer has the bytes of the slot, and the slot has the published record.
  rw [h.slot _ (Nat.le_refl _) (by omega)]
  exact congrArg some (funext fun i => (hbuf i (by have := i.isLt; omega)).symm)

/-- The store of `consumer + 1` consumes the oldest unread record. -/
theorem inv_consume (h : Inv cfg s) {attempt : Attempt} {producer consumer copied : Nat}
    {buffer : Record} (hpc : s.consumer = .copy attempt producer consumer copied buffer)
    (hdone : ¬ copied < RECORD_SIZE) (hb : s.published.length < 2 ^ 64) :
    Inv cfg { s with
      header := { s.header with consumer := (consumer + 1) % 2 ^ 64 }
      consumer := if notifiesSpace cfg producer consumer then .notify
        else .ready (some .success)
      popped := s.popped ++ [buffer] } := by
  have hpub := buffer_eq_published h hpc hdone
  have hco := h.consumerOk
  rw [hpc] at hco
  obtain ⟨rfl, hcp, hpp, -, -⟩ := hco
  have heq := h.producer_eq
  have hd := h.distance
  have hmod : (s.header.consumer + 1) % 2 ^ 64 = s.header.consumer + 1 :=
    Nat.mod_eq_of_lt (by omega)
  refine
    { producer_eq := heq
      consumer_le := by simp only [hmod]; omega
      distance := by simp only [hmod]; omega
      popped_eq := ?_
      slot := ?_
      accepted := h.accepted
      producerOk := ?_
      consumerOk := ?_ }
  · simp only [hmod]
    -- The prefix grows by the record at its end.
    rw [List.take_add_one, hpub, h.popped_eq]
    rfl
  · intro j hc hj
    simp only [hmod] at hc
    exact h.slot j (by omega) hj
  · exact h.producerOk.of_consumer (by simp only [hmod]; omega)
  · show ConsumerOk _ _ _ (if notifiesSpace cfg producer s.header.consumer then _ else _)
    split <;> trivial

/-- A native consumer accepts every record of a native producer. -/
theorem checkPopped_ok_of_native (h : Inv cfg s) (hprod : cfg.producer = .native)
    (hcons : cfg.consumer = .native) {record : Record} (hmem : record ∈ s.published) :
    cfg.checkPopped record = .ok () := by
  unfold Config.checkPopped
  rw [hcons]
  simp only
  rw [h.accepted record hmem hprod]
  rfl

/-- The check of a popped record does not blame the counters. -/
theorem isCounter_of_checkPopped {record : Record} {reason : Corrupt}
    (h : cfg.checkPopped record = .error (.corrupt reason)) : reason.isCounter = false := by
  unfold Config.checkPopped at h
  split at h
  · rcases hval : validateRecordGeneration record cfg.generation with other | ok
    · rw [hval] at h
      cases h
      exact isCounter_of_validateRecordGeneration hval
    · rw [hval] at h
      cases h
  · split at h <;> cases h

/-- A copy that fails its check comes from a Python endpoint on one side. -/
theorem inv_rejectPopped (h : Inv cfg s) {attempt : Attempt} {producer consumer copied : Nat}
    {buffer : Record} {failure : RingFailure}
    (hpc : s.consumer = .copy attempt producer consumer copied buffer)
    (hdone : ¬ copied < RECORD_SIZE) (hcheck : cfg.checkPopped buffer = .error failure) :
    Inv cfg { s with consumer := .raised failure } := by
  have hmem : buffer ∈ s.published :=
    List.mem_of_getElem? (buffer_eq_published h hpc hdone)
  refine { h with consumerOk := ⟨?_, ?_, fun hprod => ?_⟩ }
  · rintro rfl
    cases isCounter_of_checkPopped hcheck
  · rintro rfl
    cases isCounter_of_checkPopped hcheck
  -- Two native endpoints make the same check, so that the copy would have passed.
  · cases hcons : cfg.consumer with
    | python => rfl
    | native =>
      rw [checkPopped_ok_of_native h hprod hcons hmem] at hcheck
      cases hcheck

/-! ### One step of the ring -/

/-- A producer step preserves the invariant while the published history stays below
`2 ^ 64` records. -/
theorem inv_producerStep (h : Inv cfg s) (hs : producerStep cfg s = some t)
    (hb : t.published.length < 2 ^ 64) : Inv cfg t := by
  have hpo := h.producerOk
  cases hpc : s.producer with
  | ready last => simp [producerStep, hpc] at hs
  | enter attempt record =>
    simp only [producerStep, hpc] at hs
    split at hs
    · cases hs
      exact inv_failedPush h attempt record
    · split at hs
      · rename_i reason hval
        cases hs
        refine { h with producerOk := ⟨?_, ?_⟩ }
        all_goals
          rintro heq
          cases heq
          cases isCounter_of_validateRecordGeneration hval
      · rename_i hval
        cases hs
        exact { h with producerOk := fun _ => hval }
  | loadProducer attempt record =>
    rw [hpc] at hpo
    simp only [producerStep, hpc, Option.some.injEq] at hs
    subst hs
    exact { h with producerOk := ⟨hpo, rfl⟩ }
  | loadConsumer attempt record producer =>
    rw [hpc] at hpo
    obtain ⟨hrec, rfl⟩ := hpo
    simp only [producerStep, hpc, Option.some.injEq] at hs
    subst hs
    -- The consumer counter is read now, and the loaded producer counter is still current.
    exact inv_checkPush h attempt record hrec hb
  | copy attempt record producer copied =>
    simp only [producerStep, hpc] at hs
    split at hs
    · rename_i hlt
      cases hs
      exact inv_copyByte h hpc hlt
    · rename_i hdone
      cases hs
      exact inv_publish h hpc hdone (by simpa using hb)
  | notify =>
    simp only [producerStep, hpc, Option.some.injEq] at hs
    subst hs
    exact { h with producerOk := trivial }
  | recheck attempt record =>
    simp only [producerStep, hpc, Option.some.injEq] at hs
    subst hs
    exact inv_recheckPush h attempt record
  | drain record =>
    simp only [producerStep, hpc, Option.some.injEq] at hs
    subst hs
    exact { h with producerOk := trivial }
  | wait record =>
    simp only [producerStep, hpc] at hs
    split at hs
    · cases hs
    · split at hs
      · cases hs
        exact { h with producerOk := trivial }
      · rename_i hpython
        cases hs
        exact { h with producerOk := hpython }
  | read record =>
    rw [hpc] at hpo
    -- Only the Python endpoint drains after its wait, and it does not validate again.
    have hpython : cfg.producer = .python := hpo
    simp only [producerStep, hpc, Option.some.injEq] at hs
    subst hs
    exact { h with producerOk := fun hnative => absurd hnative (by simp [hpython]) }
  | raised failure =>
    simp only [producerStep, hpc, Option.some.injEq] at hs
    subst hs
    exact { h with producerOk := trivial }

/-- A consumer step preserves the invariant. -/
theorem inv_consumerStep (h : Inv cfg s) (hs : consumerStep cfg s = some t)
    (hb : s.published.length < 2 ^ 64) : Inv cfg t := by
  have hco := h.consumerOk
  cases hpc : s.consumer with
  | ready last => simp [consumerStep, hpc] at hs
  | loadProducer attempt =>
    simp only [consumerStep, hpc, Option.some.injEq] at hs
    subst hs
    exact { h with consumerOk := ⟨h.consumer_le, Nat.le_refl _⟩ }
  | loadConsumer attempt producer =>
    rw [hpc] at hco
    simp only [consumerStep, hpc, Option.some.injEq] at hs
    subst hs
    exact inv_checkPop h attempt producer hco.1 hco.2 hb
  | copy attempt producer consumer copied buffer =>
    simp only [consumerStep, hpc] at hs
    split at hs
    · rename_i hlt
      cases hs
      exact inv_readByte h hpc hlt
    · rename_i hdone
      split at hs
      · rename_i failure hcheck
        cases hs
        exact inv_rejectPopped h hpc hdone hcheck
      · cases hs
        exact inv_consume h hpc hdone hb
  | notify =>
    simp only [consumerStep, hpc, Option.some.injEq] at hs
    subst hs
    exact { h with consumerOk := trivial }
  | recheck attempt =>
    simp only [consumerStep, hpc, Option.some.injEq] at hs
    subst hs
    refine { h with consumerOk := ?_ }
    simp only [recheckPop]
    split <;> simp_all [ConsumerOk]
  | drain =>
    simp only [consumerStep, hpc, Option.some.injEq] at hs
    subst hs
    exact { h with consumerOk := trivial }
  | wait =>
    simp only [consumerStep, hpc] at hs
    split at hs
    · cases hs
    · split at hs <;> cases hs <;> exact { h with consumerOk := trivial }
  | read =>
    simp only [consumerStep, hpc, Option.some.injEq] at hs
    subst hs
    exact { h with consumerOk := trivial }
  | raised failure =>
    simp only [consumerStep, hpc, Option.some.injEq] at hs
    subst hs
    exact { h with consumerOk := trivial }

/-- A step either leaves the published history alone, or it is the producer's store, which
appends the record that the producer was copying. -/
theorem published_step {a : Act} (hs : step cfg s a = some t) :
    t.published = s.published ∨
      ∃ attempt record producer copied, s.producer = .copy attempt record producer copied ∧
        ¬ copied < RECORD_SIZE ∧ t.published = s.published ++ [record] := by
  cases a with
  | producer =>
    cases hpc : s.producer with
    | copy attempt record producer copied =>
      simp only [step, producerStep, hpc] at hs
      split at hs
      · cases hs
        exact Or.inl rfl
      · rename_i hdone
        cases hs
        exact Or.inr ⟨attempt, record, producer, copied, rfl, hdone, rfl⟩
    | _ =>
      simp only [step, producerStep, hpc] at hs
      repeat' split at hs
      all_goals first | cases hs; exact Or.inl rfl | cases hs
  | consumer =>
    simp only [step, consumerStep] at hs
    repeat' split at hs
    all_goals first | cases hs; exact Or.inl rfl | cases hs
  | _ =>
    simp only [step, callTryPush, callPush, producerTimeout, callTryPop, callPop,
      consumerTimeout, closeFlag, closeNotifyData, closeNotifySpace] at hs
    repeat' split at hs
    all_goals first | cases hs; exact Or.inl rfl | cases hs

/-- Nothing is ever removed from the published history. -/
theorem published_length_le {a : Act} (hs : step cfg s a = some t) :
    s.published.length ≤ t.published.length := by
  rcases published_step hs with heq | ⟨_, _, _, _, _, _, heq⟩ <;> simp [heq]

/-- Every step preserves the invariant while the published history stays below `2 ^ 64`
records. -/
theorem inv_step (h : Inv cfg s) {a : Act} (hs : step cfg s a = some t)
    (hb : t.published.length < 2 ^ 64) : Inv cfg t := by
  have hb' : s.published.length < 2 ^ 64 := (published_length_le hs).trans_lt hb
  cases a with
  | producer => exact inv_producerStep h hs hb
  | consumer => exact inv_consumerStep h hs hb'
  | callPush record =>
    simp only [step, callPush] at hs
    split at hs
    · cases hs
      exact { h with producerOk := trivial }
    · rename_i hpython
      cases hs
      exact { h with producerOk := fun hnative => absurd hnative (by simp [hpython]) }
    · cases hs
  | callTryPush record =>
    simp only [step, callTryPush] at hs
    split at hs <;> cases hs
    exact { h with producerOk := trivial }
  | producerTimeout =>
    simp only [step, producerTimeout] at hs
    split at hs <;> cases hs
    exact { h with producerOk := trivial }
  | callTryPop =>
    simp only [step, callTryPop] at hs
    split at hs <;> cases hs
    exact { h with consumerOk := trivial }
  | callPop =>
    simp only [step, callPop] at hs
    split at hs <;> cases hs
    exact { h with consumerOk := trivial }
  | consumerTimeout =>
    simp only [step, consumerTimeout] at hs
    split at hs <;> cases hs
    exact { h with consumerOk := trivial }
  | closeFlag =>
    simp only [step, closeFlag, Option.some.injEq] at hs
    subst hs
    refine { h with producerOk := ?_, consumerOk := ?_ }
    · exact h.producerOk.of_consumer (Nat.le_refl _)
    · exact h.consumerOk.of_producer (Nat.le_refl _)
  | closeNotifyData =>
    simp only [step, closeNotifyData] at hs
    split at hs <;> cases hs
    exact { h with }
  | closeNotifySpace =>
    simp only [step, closeNotifySpace] at hs
    split at hs <;> cases hs
    exact { h with }

end

/-! ### Runs -/

/-- The invariant holds in every reached state with fewer than `2 ^ 64` published
records. -/
theorem inv_of_reachable {cfg : Config} {s : State} (h : (machine cfg).Reachable s)
    (hb : s.published.length < 2 ^ 64) : Inv cfg s := by
  -- The bound is about the last state, and the history only grows.
  refine h.invariant (I := fun s => s.published.length < 2 ^ 64 → Inv cfg s)
    (fun _ => inv_init cfg) ?_ hb
  intro s a t ih _ hs hb
  exact inv_step (ih ((published_length_le hs).trans_lt hb)) hs hb

/-- A native producer refuses to advance the counter past its maximum. -/
theorem native_published_lt_step {cfg : Config} (hnative : cfg.producer = .native) {s t : State}
    (hinv : Inv cfg s) (hb : s.published.length < 2 ^ 64) {a : Act} (hs : step cfg s a = some t) :
    t.published.length < 2 ^ 64 := by
  rcases published_step hs with heq | ⟨attempt, record, producer, copied, hpc, _, heq⟩
  · rw [heq]
    exact hb
  · -- A native copy started below the maximum, so that its store does not reach the bound.
    have hpo := hinv.producerOk
    rw [hpc] at hpo
    have hmax := hpo.2.2.2.1 hnative
    have hcur := hpo.2.1
    have hlen := hinv.producer_eq
    rw [heq, List.length_append, List.length_singleton]
    unfold UINT64_MAX at hmax
    omega

/-- A native producer never publishes more than `2 ^ 64 - 1` records. -/
theorem native_published_lt {cfg : Config} (hnative : cfg.producer = .native) {s : State}
    (h : (machine cfg).Reachable s) : s.published.length < 2 ^ 64 := by
  have hboth : s.published.length < 2 ^ 64 ∧ Inv cfg s := by
    refine h.invariant (I := fun s => s.published.length < 2 ^ 64 ∧ Inv cfg s)
      ⟨by simp [machine, init], inv_init cfg⟩ ?_
    rintro s a t ⟨hb, hinv⟩ _ hs
    have hb' := native_published_lt_step hnative hinv hb hs
    exact ⟨hb', inv_step hinv hs hb'⟩
  exact hboth.1

/-- The same of a run from any state in which the invariant holds. -/
theorem native_published_lt_exec {cfg : Config} (hnative : cfg.producer = .native) {s t : State}
    (hinv : Inv cfg s) (hb : s.published.length < 2 ^ 64) {as : List Act}
    (hrun : (machine cfg).exec s as = some t) : t.published.length < 2 ^ 64 := by
  induction as generalizing s with
  | nil =>
    cases hrun
    exact hb
  | cons a as ih =>
    rw [Machine.exec_cons, Option.bind_eq_some_iff] at hrun
    obtain ⟨u, hstep, hrest⟩ := hrun
    have hb' := native_published_lt_step hnative hinv hb hstep
    exact ih (inv_step hinv hstep hb') hb' hrest

/-! ### A push that runs on its own -/

/-- The producer's copy runs to its end. -/
theorem exec_writeBytes (cfg : Config) (s : State) (attempt : Attempt) (record : Record)
    (producer : Nat) : ∀ (n copied : Nat) (slots : Nat → Record), copied + n = RECORD_SIZE →
      ∃ slots', (machine cfg).exec
          { s with slots := slots, producer := .copy attempt record producer copied }
          (List.replicate n .producer) =
        some { s with
          slots := slots'
          producer := .copy attempt record producer RECORD_SIZE } := by
  -- Induction on the number of bytes that are left.
  intro n
  induction n with
  | zero =>
    intro copied slots hsum
    obtain rfl : copied = RECORD_SIZE := hsum
    exact ⟨slots, rfl⟩
  | succ n ih =>
    intro copied slots hsum
    have hlt : copied < RECORD_SIZE := by omega
    obtain ⟨slots', hrun⟩ := ih (copied + 1) (Function.update slots (producer % cfg.capacity)
      (Function.update (slots (producer % cfg.capacity)) ⟨copied, hlt⟩ (record ⟨copied, hlt⟩)))
      (by omega)
    refine ⟨slots', ?_⟩
    rw [List.replicate_succ, Machine.exec_cons]
    simp only [machine, step, producerStep, dif_pos hlt, Option.bind_some]
    exact hrun

/-- A push into an open native ring with a free slot publishes the record. -/
theorem exec_push {cfg : Config} {s : State} (hnative : cfg.producer = .native) {last : Option Outcome}
    (hready : s.producer = .ready last) (hopen : s.header.closed = false) {record : Record}
    (hrecord : validateRecordGeneration record cfg.generation = .ok ())
    (hle : s.header.consumer ≤ s.header.producer)
    (hfree : s.header.producer < s.header.consumer + cfg.capacity)
    (hmax : s.header.producer < UINT64_MAX) :
    ∃ as slots, (machine cfg).exec s as = some { s with
      header := { s.header with producer := s.header.producer + 1 }
      slots := slots
      dataFd := eventfdWrite s.dataFd
      producer := .ready (some .success)
      published := s.published ++ [record] } := by
  -- The closed flag and the two counters, after which the attempt starts its copy.
  have hstart : (machine cfg).exec s [.callPush record, .producer, .producer, .producer] =
      some { s with producer := .copy .first record s.header.producer 0 } := by
    simp only [Machine.exec, machine, step, callPush, hready, hnative, Option.bind_some,
      producerStep, hopen, Bool.false_eq_true, if_false, hrecord, checkPush,
      validateCounters_ok hle hfree.le]
    rw [if_neg (by omega), if_neg (by omega)]
  obtain ⟨slots, hcopy⟩ := exec_writeBytes cfg s .first record s.header.producer RECORD_SIZE 0
    s.slots (Nat.zero_add _)
  -- The store and the notification.
  have hstore : (machine cfg).exec { s with
      slots := slots
      producer := .copy .first record s.header.producer RECORD_SIZE }
      [.producer, .producer] = some { s with
        header := { s.header with producer := (s.header.producer + 1) % 2 ^ 64 }
        slots := slots
        dataFd := eventfdWrite s.dataFd
        producer := .ready (some .success)
        published := s.published ++ [record] } := by
    simp only [Machine.exec, machine, step, producerStep, Nat.lt_irrefl, dite_false,
      Option.bind_some]
  have hmod : (s.header.producer + 1) % 2 ^ 64 = s.header.producer + 1 := by
    unfold UINT64_MAX at hmax
    exact Nat.mod_eq_of_lt (by omega)
  rw [hmod] at hstore
  exact ⟨_, slots, Machine.exec_trans hstart (Machine.exec_trans hcopy hstore)⟩

/-! ### A pop that runs on its own -/

/-- The consumer's copy runs to its end. -/
theorem exec_readBytes (cfg : Config) (s : State) (attempt : Attempt)
    (producer consumer : Nat) : ∀ (n copied : Nat) (buffer : Record),
      copied + n = RECORD_SIZE →
      ∃ buffer', (machine cfg).exec
          { s with consumer := .copy attempt producer consumer copied buffer }
          (List.replicate n .consumer) =
        some { s with
          consumer := .copy attempt producer consumer RECORD_SIZE buffer' } := by
  -- As for the producer, but the bytes go to the local buffer.
  intro n
  induction n with
  | zero =>
    intro copied buffer hsum
    obtain rfl : copied = RECORD_SIZE := hsum
    exact ⟨buffer, rfl⟩
  | succ n ih =>
    intro copied buffer hsum
    have hlt : copied < RECORD_SIZE := by omega
    obtain ⟨buffer', hrun⟩ := ih (copied + 1) (Function.update buffer ⟨copied, hlt⟩
      (s.slots (consumer % cfg.capacity) ⟨copied, hlt⟩)) (by omega)
    refine ⟨buffer', ?_⟩
    rw [List.replicate_succ, Machine.exec_cons]
    simp only [machine, step, consumerStep, dif_pos hlt, Option.bind_some]
    exact hrun

/-- The labels of a pop that nobody interrupts. -/
def IsPop (a : Act) : Prop := a = .callPop ∨ a = .consumer

/-- The run of a pop up to its store consists of pop labels. -/
theorem isPop_of_mem_run (n : Nat) :
    ∀ a ∈ ([.callPop, .consumer, .consumer] ++ List.replicate n .consumer) ++ [.consumer],
      IsPop a := by
  intro a ha
  simp only [List.mem_append, List.mem_cons, List.mem_replicate, List.not_mem_nil,
    or_false] at ha
  unfold IsPop
  tauto

/-- A run only appends to the published history. -/
theorem published_length_le_exec {cfg : Config} {s t : State} {as : List Act}
    (hrun : (machine cfg).exec s as = some t) : s.published.length ≤ t.published.length := by
  induction as generalizing s with
  | nil =>
    cases hrun
    exact Nat.le_refl _
  | cons a as ih =>
    rw [Machine.exec_cons, Option.bind_eq_some_iff] at hrun
    obtain ⟨u, hstep, hrest⟩ := hrun
    exact (published_length_le hstep).trans (ih hrest)

/-- Every step of a run preserves the invariant while the published history stays below `2 ^ 64`
records. -/
theorem inv_exec {cfg : Config} {s t : State} (h : Inv cfg s) {as : List Act}
    (hrun : (machine cfg).exec s as = some t) (hb : t.published.length < 2 ^ 64) : Inv cfg t := by
  induction as generalizing s with
  | nil =>
    cases hrun
    exact h
  | cons a as ih =>
    rw [Machine.exec_cons, Option.bind_eq_some_iff] at hrun
    obtain ⟨u, hstep, hrest⟩ := hrun
    have hle := published_length_le_exec hrest
    exact ih (inv_step h hstep (Nat.lt_of_le_of_lt hle hb)) hrest

/-- With an unread record in the ring, a pop copies the oldest one, whether or not the ring is
closed: no step of the pop reads the closed flag before it. -/
theorem exec_copied {cfg : Config} {s : State} (hinv : Inv cfg s)
    (hb : s.published.length < 2 ^ 64) {last : Option Outcome}
    (hready : s.consumer = .ready last) {record : Record}
    (hunread : s.published[s.popped.length]? = some record) :
    (machine cfg).exec s ([.callPop, .consumer, .consumer] ++ List.replicate RECORD_SIZE .consumer) =
      some { s with
        consumer := .copy .first s.header.producer s.header.consumer RECORD_SIZE record } := by
  have hcle := hinv.consumer_le
  have hplen := hinv.producer_eq
  have hpop : s.popped.length = s.header.consumer := by
    rw [hinv.popped_eq, List.length_take]
    omega
  rw [hpop] at hunread
  have hlt : s.header.consumer < s.header.producer := by
    rw [hplen]
    exact (List.getElem?_eq_some_iff.mp hunread).1
  -- The two loads: the attempt finds the ring non-empty and starts its copy.
  have hstart : (machine cfg).exec s [.callPop, .consumer, .consumer] = some { s with
      consumer := .copy .first s.header.producer s.header.consumer 0 fun _ => 0 } := by
    simp only [Machine.exec, machine, step, callPop, hready, Option.bind_some, consumerStep,
      Option.some.injEq, checkPop, validateCounters_ok hcle hinv.distance]
    rw [if_neg (by omega)]
    cases cfg.consumer with
    | python => rfl
    | native => simp only [if_neg (show s.header.consumer ≠ UINT64_MAX by
        unfold UINT64_MAX; omega)]
  obtain ⟨buffer, hcopy⟩ := exec_readBytes cfg s .first s.header.producer s.header.consumer
    RECORD_SIZE 0 (fun _ => 0) (Nat.zero_add _)
  have hcopied := Machine.exec_trans hstart hcopy
  -- The complete copy is the record, by the invariant of the state it was made in.
  have hinv' := inv_exec hinv hcopied hb
  have hbuf : buffer = record := by
    have hpub := buffer_eq_published hinv' rfl (Nat.lt_irrefl _)
    exact Option.some.inj (hpub.symm.trans hunread)
  subst hbuf
  exact hcopied

/-- An unread record that passes the consumer's check is returned by the next pop. -/
theorem unread_returned {cfg : Config} {s : State} (hinv : Inv cfg s)
    (hb : s.published.length < 2 ^ 64) {last : Option Outcome}
    (hready : s.consumer = .ready last) {record : Record}
    (hunread : s.published[s.popped.length]? = some record)
    (hcheck : cfg.checkPopped record = .ok ()) :
    ∃ as t, (∀ a ∈ as, IsPop a) ∧ (machine cfg).exec s as = some t ∧
      t.consumer = .ready (some .success) ∧ t.popped = s.popped ++ [record] ∧
      t.published = s.published := by
  have hcopied := exec_copied hinv hb hready hunread
  -- The store, and after it the notification if one is due.
  have hlast : (machine cfg).step { s with
      consumer := .copy .first s.header.producer s.header.consumer RECORD_SIZE record }
      .consumer = some { s with
        header := { s.header with consumer := (s.header.consumer + 1) % 2 ^ 64 }
        consumer := if notifiesSpace cfg s.header.producer s.header.consumer then .notify
          else .ready (some .success)
        popped := s.popped ++ [record] } := by
    simp only [machine, step, consumerStep, Nat.lt_irrefl, dite_false, hcheck]
  have hdone := Machine.exec_trans hcopied (Machine.exec_single hlast)
  have hpops := isPop_of_mem_run RECORD_SIZE
  by_cases hnotify : notifiesSpace cfg s.header.producer s.header.consumer = true
  · rw [if_pos hnotify] at hdone
    have hwrite := Machine.exec_trans hdone (Machine.exec_single (M := machine cfg)
      (a := .consumer) rfl)
    refine ⟨_, _, ?_, hwrite, rfl, rfl, rfl⟩
    intro a ha
    rcases List.mem_append.mp ha with ha | ha
    · exact hpops a ha
    · exact Or.inr (List.mem_singleton.mp ha)
  · rw [if_neg hnotify] at hdone
    exact ⟨_, _, hpops, hdone, rfl, rfl, rfl⟩

/-- An unread record that fails the consumer's check makes the next pop raise, and stays in the
ring. -/
theorem unread_rejected {cfg : Config} {s : State} (hinv : Inv cfg s)
    (hb : s.published.length < 2 ^ 64) {last : Option Outcome}
    (hready : s.consumer = .ready last) {record : Record} {failure : RingFailure}
    (hunread : s.published[s.popped.length]? = some record)
    (hcheck : cfg.checkPopped record = .error failure) :
    ∃ as, (∀ a ∈ as, IsPop a) ∧
      (machine cfg).exec s as = some { s with consumer := .raised failure } := by
  have hlast : (machine cfg).step { s with
      consumer := .copy .first s.header.producer s.header.consumer RECORD_SIZE record }
      .consumer = some { s with consumer := .raised failure } := by
    simp only [machine, step, consumerStep, Nat.lt_irrefl, dite_false, hcheck]
  exact ⟨_, isPop_of_mem_run RECORD_SIZE,
    Machine.exec_trans (exec_copied hinv hb hready hunread) (Machine.exec_single hlast)⟩

/-- Pops return all the unread records that come before the first one that fails the check. -/
theorem unread_drained {cfg : Config} (passing rest : List Record)
    (hcheck : ∀ record ∈ passing, cfg.checkPopped record = .ok ()) {s : State} (hinv : Inv cfg s)
    (hb : s.published.length < 2 ^ 64) {last : Option Outcome} (hready : s.consumer = .ready last)
    (hunread : s.published = s.popped ++ (passing ++ rest)) :
    ∃ as t, (∀ a ∈ as, IsPop a) ∧ (machine cfg).exec s as = some t ∧
      (∃ last, t.consumer = .ready last) ∧ t.popped = s.popped ++ passing := by
  -- Induction on the records that pass, one pop for each.
  induction passing generalizing s last with
  | nil => exact ⟨[], s, by simp, rfl, ⟨last, hready⟩, (List.append_nil _).symm⟩
  | cons record passing ih =>
    have hget : s.published[s.popped.length]? = some record := by
      rw [hunread]
      simp
    obtain ⟨as, t, hpops, hrun, hreturned, hpopped, hpublished⟩ :=
      unread_returned hinv hb hready hget (hcheck record List.mem_cons_self)
    have hb' : t.published.length < 2 ^ 64 := by rw [hpublished]; exact hb
    obtain ⟨bs, u, hpops', hrun', hready', hpopped'⟩ :=
      ih (fun r hr => hcheck r (List.mem_cons_of_mem _ hr)) (inv_exec hinv hrun hb') hb' hreturned
        (by rw [hpublished, hunread, hpopped]; simp)
    refine ⟨as ++ bs, u, ?_, Machine.exec_trans hrun hrun', hready', ?_⟩
    · intro a ha
      rcases List.mem_append.mp ha with ha | ha
      · exact hpops a ha
      · exact hpops' a ha
    · rw [hpopped', hpopped, List.append_assoc]
      rfl

/-! ### The FIFO law -/

/-- The law of the ring in one state, with what its callers have been told.

* `pushes`, `pops`: the histories of the ring are the records of the calls that returned success,
  and of a call that has made its store and has still to return.
* `isPrefix`: the pops return the published records in order, whole.
* `counters`: the counters count the two histories and stay within `capacity`.
* `no_overwrite`: a producer that is writing a slot is not writing the slot of an unread
  record.
* `producer_sound`, `consumer_sound`: no counter error is raised.
* `unread`: the next pop returns the oldest unread record, also after a close. The record
  has to pass the check that the consumer makes on its copy.
* `rejected`: a record that fails the check makes the pop raise, and the ring stays as it was.
* `drained`: pops return all unread records before the first one that fails.
* `native`: with native endpoints on both sides every published record passes the check, pops raise
  nothing at all, and all published records are returned. -/
structure FifoLaw (cfg : Config) (s : State) (calls : Calls) : Prop where
  pushes : s.published = calls.pushed ++ stored calls s.producer
  pops : s.popped = calls.returned ++ taken calls s.consumer
  isPrefix : s.popped <+: s.published
  counters : s.header.producer = s.published.length ∧ s.header.consumer = s.popped.length ∧
    s.header.consumer ≤ s.header.producer ∧
    s.header.producer - s.header.consumer ≤ cfg.capacity
  no_overwrite : ∀ attempt record producer copied,
    s.producer = .copy attempt record producer copied →
    ∀ j, s.header.consumer ≤ j → j < s.header.producer →
      j % cfg.capacity ≠ producer % cfg.capacity
  producer_sound : s.producer ≠ .raised (.corrupt .impossibleCounters) ∧
    s.producer ≠ .raised (.corrupt .producerCounterOverflow)
  consumer_sound : s.consumer ≠ .raised (.corrupt .impossibleCounters) ∧
    s.consumer ≠ .raised (.corrupt .consumerCounterOverflow)
  unread : ∀ last record, s.consumer = .ready last →
    s.published[calls.returned.length]? = some record → cfg.checkPopped record = .ok () →
    ∃ as t seen, (∀ a ∈ as, IsPop a) ∧ (watched cfg).exec (s, calls) as = some (t, seen) ∧
      t.consumer = .ready (some .success) ∧ seen.returned = calls.returned ++ [record]
  rejected : ∀ last record failure, s.consumer = .ready last →
    s.published[calls.returned.length]? = some record → cfg.checkPopped record = .error failure →
    ∃ as seen, (∀ a ∈ as, IsPop a) ∧
      (watched cfg).exec (s, calls) as = some ({ s with consumer := .raised failure }, seen)
  drained : ∀ last passing rest, s.consumer = .ready last →
    s.published = calls.returned ++ (passing ++ rest) →
    (∀ record ∈ passing, cfg.checkPopped record = .ok ()) →
    ∃ as t seen, (∀ a ∈ as, IsPop a) ∧ (watched cfg).exec (s, calls) as = some (t, seen) ∧
      seen.returned = calls.returned ++ passing
  native : cfg.producer = .native → cfg.consumer = .native →
    (∀ failure, s.consumer ≠ .raised failure) ∧
    (∀ record ∈ s.published, cfg.checkPopped record = .ok ()) ∧
    ∀ last, s.consumer = .ready last → ∃ as t seen, (∀ a ∈ as, IsPop a) ∧
      (watched cfg).exec (s, calls) as = some (t, seen) ∧ seen.returned = s.published

/-- A pop that runs on its own, and what its caller is told. -/
theorem watched_pop {cfg : Config} {stored₀ taken₀ records : List Record} {s t : State}
    {calls : Calls} (htied : Tied stored₀ taken₀ s calls) {last last' : Option Outcome}
    (hready : s.consumer = .ready last) {as : List Act}
    (hrun : (machine cfg).exec s as = some t) (hready' : t.consumer = .ready last')
    (hpopped : t.popped = s.popped ++ records) :
    ∃ seen, (watched cfg).exec (s, calls) as = some (t, seen) ∧
      seen.returned = calls.returned ++ records := by
  obtain ⟨seen, hseen⟩ := exec_watched hrun calls
  refine ⟨seen, hseen, ?_⟩
  -- The consumer is ready before and after, so that every pop has returned.
  have hbefore := htied.popped
  have hafter := (tied_exec htied hseen).popped
  rw [hready] at hbefore
  rw [hready', hpopped, ← List.append_assoc, hbefore] at hafter
  simpa [taken] using hafter.symm

/-- The FIFO law holds in every state that a run reaches with fewer than `2 ^ 64 - 1`
published records, for every capacity and every pair of endpoints. -/
theorem fifoLaw_of_reachable (cfg : Config) (s : State) (calls : Calls)
    (h : (watched cfg).Reachable (s, calls)) (hb : s.published.length < 2 ^ 64 - 1) :
    FifoLaw cfg s calls := by
  have hb' : s.published.length < 2 ^ 64 := by omega
  have htied := tied_of_reachable h
  have hinv := inv_of_reachable (reachable_of_watched h) hb'
  have hcle := hinv.consumer_le
  have hdist := hinv.distance
  have hplen := hinv.producer_eq
  have hpushes : s.published = calls.pushed ++ stored calls s.producer := htied.published
  have hpops : s.popped = calls.returned ++ taken calls s.consumer := htied.popped
  -- A consumer that is ready has returned every record that it popped.
  have hreturned : ∀ last, s.consumer = .ready last → calls.returned = s.popped := by
    intro last hready
    rw [hpops, hready]
    exact (List.append_nil _).symm
  have hdrained : ∀ last passing rest, s.consumer = .ready last →
      s.published = calls.returned ++ (passing ++ rest) →
      (∀ record ∈ passing, cfg.checkPopped record = .ok ()) →
      ∃ as t seen, (∀ a ∈ as, IsPop a) ∧ (watched cfg).exec (s, calls) as = some (t, seen) ∧
        seen.returned = calls.returned ++ passing := by
    intro last passing rest hready hunread hcheck
    rw [hreturned last hready] at hunread
    obtain ⟨as, t, hpop, hrun, ⟨last', hready'⟩, hpopped⟩ :=
      unread_drained passing rest hcheck hinv hb' hready hunread
    obtain ⟨seen, hseen, heq⟩ := watched_pop htied hready hrun hready' hpopped
    exact ⟨as, t, seen, hpop, hseen, heq⟩
  have hprefix : s.popped <+: s.published := by
    rw [hinv.popped_eq]
    exact List.take_prefix _ _
  refine
    { pushes := hpushes
      pops := hpops
      isPrefix := hprefix
      counters := ⟨hplen, ?_, hcle, by omega⟩
      no_overwrite := ?_
      producer_sound := ?_
      consumer_sound := ?_
      unread := ?_
      rejected := ?_
      drained := hdrained
      native := ?_ }
  · rw [hinv.popped_eq, List.length_take]
    omega
  · intro attempt record producer copied hpc j hc hj
    have hpo := hinv.producerOk
    rw [hpc] at hpo
    obtain ⟨-, rfl, hfree, -⟩ := hpo
    exact mod_ne_of_lt hj (by omega)
  · have hpo := hinv.producerOk
    refine ⟨fun hpc => ?_, fun hpc => ?_⟩ <;> rw [hpc] at hpo
    · exact hpo.1 rfl
    · have hmax := hpo.2 rfl
      unfold UINT64_MAX at hmax
      omega
  · have hco := hinv.consumerOk
    refine ⟨fun hpc => ?_, fun hpc => ?_⟩ <;> rw [hpc] at hco
    · exact hco.1 rfl
    · exact hco.2.1 rfl
  · intro last record hready hunread hcheck
    rw [hreturned last hready] at hunread
    obtain ⟨as, t, hpop, hrun, hready', hpopped, -⟩ :=
      unread_returned hinv hb' hready hunread hcheck
    obtain ⟨seen, hseen, heq⟩ := watched_pop htied hready hrun hready' hpopped
    exact ⟨as, t, seen, hpop, hseen, hready', heq⟩
  · intro last record failure hready hunread hcheck
    rw [hreturned last hready] at hunread
    obtain ⟨as, hpop, hrun⟩ := unread_rejected hinv hb' hready hunread hcheck
    obtain ⟨seen, hseen⟩ := exec_watched hrun calls
    exact ⟨as, seen, hpop, hseen⟩
  · intro hprod hcons
    have hpass : ∀ record ∈ s.published, cfg.checkPopped record = .ok () :=
      fun record hmem => checkPopped_ok_of_native hinv hprod hcons hmem
    refine ⟨fun failure hpc => ?_, hpass, fun last hready => ?_⟩
    · have hco := hinv.consumerOk
      rw [hpc] at hco
      exact absurd (hco.2.2 hprod) (by simp [hcons])
    · obtain ⟨unread, hunread⟩ := hprefix
      rw [← hreturned last hready] at hunread
      obtain ⟨as, t, seen, hpop, hseen, heq⟩ := hdrained last unread [] hready
        (by rw [List.append_nil, hunread])
        (fun record hmem => hpass record (by rw [← hunread]; exact List.mem_append_right _ hmem))
      exact ⟨as, t, seen, hpop, hseen, heq.trans hunread⟩

/-- A native ring of two slots. -/
def ringOfTwo : Config where
  capacity := 2
  generation := 1
  producer := .native
  consumer := .native
  decodes := fun _ => true
  capacity_pos := by decide
  capacity_lt := by decide
  generation_lt := one_lt_generations

/-- A run in which one push returns success and the ring is closed after it. -/
theorem fifoLaw_ringOfTwo :
    ∃ s calls, (watched ringOfTwo).Reachable (s, calls) ∧ calls.pushed = [Record.blank 1] ∧
      calls.returned = [] ∧ s.header.closed = true ∧ FifoLaw ringOfTwo s calls := by
  have hblank : validateRecordGeneration (Record.blank 1) ringOfTwo.generation = .ok () :=
    validateRecordGeneration_blank 1 (by decide)
  obtain ⟨as, slots, hpush⟩ := exec_push (s := init) rfl rfl rfl hblank (Nat.le_refl _)
    (by decide) (by decide)
  have hclose := Machine.exec_trans hpush (Machine.exec_single (a := .closeFlag) rfl)
  obtain ⟨calls, hrun⟩ := exec_watched hclose Calls.none
  have hreach := Machine.reachable_of_exec (M := watched ringOfTwo) hrun
  have hlaw := fifoLaw_of_reachable ringOfTwo _ calls hreach (show 1 < 2 ^ 64 - 1 by norm_num)
  -- Both endpoints are ready, so that the histories are those of the callers.
  have hpushed : [Record.blank 1] = calls.pushed ++ [] := hlaw.pushes
  have hreturned : [] = calls.returned ++ [] := hlaw.pops
  rw [List.append_nil] at hpushed hreturned
  exact ⟨_, calls, hreach, hpushed.symm, hreturned.symm, rfl, hlaw⟩

end Wmfs.Ring
