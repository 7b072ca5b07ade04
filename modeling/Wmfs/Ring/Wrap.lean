import Wmfs.Ring.Fifo

/-!
# `Wmfs.Ring.Wrap`: the counters at the end of their range

A ring may be in any consistent state, with counters as large as 64 bits allow. The endpoints
compare the counters as unsigned integers (`validate_counters`, `_counters`), so they take
`producer < consumer` for a corrupt ring. The protocol document lets the counters wrap. The native
endpoints do not: a push at the largest counter is refused (`producer counter overflow`), with the
ring as it was, and every record that was published and passes the check of the consumer can still
be popped. The law of the ring holds from every consistent state (`wrapLaw_of_run`).

The Python producer has no such test. Its store wraps the counter to 0, and from then on both
endpoints find the counters impossible (`counters_do_not_wrap`).

No step reads the two histories. So a run from a state in the middle of a stream is a run behind
a history that has made up records for what was popped before (`pad`).
-/

set_option autoImplicit false

namespace Wmfs.Ring

open Wmfs.Lib

/-! ### Runs from a state in the middle -/

/-- The records that the ring holds. -/
def unread (cfg : Config) (s : State) : List Record :=
  (List.range (s.header.producer - s.header.consumer)).map fun i =>
    s.slots ((s.header.consumer + i) % cfg.capacity)

/-- A consistent state: the counters are at most `capacity` apart, a native producer would accept
what the ring holds, and the endpoints are anywhere, with current counters. Its histories are
empty. -/
structure Consistent (cfg : Config) (s : State) : Prop where
  consumer_le : s.header.consumer ≤ s.header.producer
  distance : s.header.producer ≤ s.header.consumer + cfg.capacity
  producer_lt : s.header.producer < 2 ^ 64
  accepted : ∀ record ∈ unread cfg s, Accepted cfg record
  producerOk : ProducerOk cfg s.header s.slots s.producer
  consumerOk : ConsumerOk cfg s.header s.slots s.consumer
  published_eq : s.published = []
  popped_eq : s.popped = []

/-- A history before the state. -/
def pad (published popped : List Record) (s : State) : State :=
  { s with published := published ++ s.published, popped := popped ++ s.popped }

section
variable (cfg : Config) (published popped : List Record)

/-- The producer does the same behind more history. -/
theorem producerStep_pad (s : State) :
    producerStep cfg (pad published popped s) =
      (producerStep cfg s).map (pad published popped) := by
  unfold producerStep
  dsimp only [pad]
  cases s.producer with
  | enter attempt record =>
    by_cases hclosed : s.header.closed = true
    · simp only [hclosed, if_true, Option.map_some, pad]
    · simp only [hclosed, Bool.false_eq_true, if_false]
      cases validateRecordGeneration record cfg.generation <;> rfl
  | copy attempt record producer copied =>
    by_cases hcopied : copied < RECORD_SIZE
    · simp only [hcopied, dif_pos, Option.map_some, pad]
    · -- The store appends to the published history.
      simp only [hcopied, dif_neg, not_false_eq_true, Option.map_some, pad, List.append_assoc]
  | wait record =>
    by_cases hempty : s.spaceFd = 0
    · simp only [hempty, if_true, Option.map_none]
    · simp only [hempty, if_false]
      cases cfg.producer <;> rfl
  | _ => rfl

/-- The consumer does the same behind more history. -/
theorem consumerStep_pad (s : State) :
    consumerStep cfg (pad published popped s) =
      (consumerStep cfg s).map (pad published popped) := by
  unfold consumerStep
  dsimp only [pad]
  cases s.consumer with
  | copy attempt producer consumer copied buffer =>
    by_cases hcopied : copied < RECORD_SIZE
    · simp only [hcopied, dif_pos, Option.map_some, pad]
    · simp only [hcopied, dif_neg, not_false_eq_true]
      cases cfg.checkPopped buffer with
      | error failure => rfl
      | ok _ => simp only [Option.map_some, pad, List.append_assoc]
  | wait =>
    by_cases hempty : s.dataFd = 0
    · simp only [hempty, if_true, Option.map_none]
    · simp only [hempty, if_false]
      cases cfg.consumer <;> rfl
  | _ => rfl

/-- No step reads the histories. -/
theorem step_pad (s : State) (a : Act) :
    step cfg (pad published popped s) a = (step cfg s a).map (pad published popped) := by
  cases a with
  | producer => exact producerStep_pad cfg published popped s
  | consumer => exact consumerStep_pad cfg published popped s
  | closeFlag => rfl
  | closeNotifyData =>
    simp only [step, closeNotifyData, pad]
    by_cases hzero : s.closeData = 0 <;> simp [hzero, pad]
  | closeNotifySpace =>
    simp only [step, closeNotifySpace, pad]
    by_cases hzero : s.closeSpace = 0 <;> simp [hzero, pad]
  | callPush record =>
    simp only [step, callPush, pad]
    cases s.producer <;> cases cfg.producer <;> rfl
  | callTryPush record =>
    simp only [step, callTryPush, pad]
    cases s.producer <;> cases cfg.producer <;> rfl
  | producerTimeout =>
    simp only [step, producerTimeout, pad]
    cases s.producer <;> rfl
  | callPop =>
    simp only [step, callPop, pad]
    cases s.consumer <;> rfl
  | callTryPop =>
    simp only [step, callTryPop, pad]
    cases s.consumer <;> cases cfg.consumer <;> rfl
  | consumerTimeout =>
    simp only [step, consumerTimeout, pad]
    cases s.consumer <;> rfl

/-- Two states are equal when they are equal behind a history. -/
theorem pad_injective {s t : State} (h : pad published popped s = pad published popped t) :
    s = t := by
  simp only [pad, State.mk.injEq, List.append_cancel_left_eq] at h
  cases s
  cases t
  simpa using h

/-- Nor does a run. -/
theorem exec_pad (s : State) (as : List Act) :
    (machine cfg).exec (pad published popped s) as =
      ((machine cfg).exec s as).map (pad published popped) := by
  induction as generalizing s with
  | nil => rfl
  | cons a as ih =>
    rw [Machine.exec_cons, Machine.exec_cons]
    show (step cfg (pad published popped s) a).bind _ = _
    rw [step_pad]
    show ((step cfg s a).map _).bind _ = ((step cfg s a).bind _).map _
    cases step cfg s a with
    | none => rfl
    | some t => exact ih t

end

/-! ### The history behind a consistent state -/

section
variable {cfg : Config} {s₀ s : State}

/-- Made up records, as many as have been popped. -/
def before (cfg : Config) (s₀ : State) : List Record :=
  List.replicate s₀.header.consumer (Record.blank cfg.generation)

/-- The history has the length of the consumer counter. -/
theorem before_length : (before cfg s₀).length = s₀.header.consumer := List.length_replicate

/-- The unread records are those between the counters. -/
theorem unread_length :
    (unread cfg s₀).length = s₀.header.producer - s₀.header.consumer := by
  rw [unread, List.length_map, List.length_range]

/-- With this history the invariant of the ring holds. -/
theorem Consistent.inv (h : Consistent cfg s₀) :
    Inv cfg (pad (before cfg s₀ ++ unread cfg s₀) (before cfg s₀) s₀) := by
  have hle := h.consumer_le
  have hlength : (before cfg s₀ ++ unread cfg s₀).length = s₀.header.producer := by
    rw [List.length_append, before_length, unread_length]
    omega
  exact {
    producer_eq := by
      show _ = (_ ++ s₀.published).length
      rw [h.published_eq, List.append_nil, hlength]
      rfl
    consumer_le := hle
    distance := h.distance
    popped_eq := by
      show _ ++ s₀.popped = (_ ++ s₀.published).take s₀.header.consumer
      rw [h.popped_eq, h.published_eq, List.append_nil, List.append_nil,
        ← @before_length cfg s₀, List.take_left]
    slot := by
      intro j hconsumer hproducer
      change s₀.header.consumer ≤ j at hconsumer
      change j < s₀.header.producer at hproducer
      show (_ ++ s₀.published)[j]? = some (s₀.slots (j % cfg.capacity))
      rw [h.published_eq, List.append_nil,
        List.getElem?_append_right (by rw [before_length]; exact hconsumer), before_length, unread,
        List.getElem?_map, List.getElem?_range (by omega), Option.map_some,
        Nat.add_sub_cancel' hconsumer]
    accepted := by
      intro record hmem
      rw [show (pad _ _ s₀).published = _ ++ s₀.published from rfl, h.published_eq,
        List.append_nil] at hmem
      rcases List.mem_append.mp hmem with hmem | hmem
      · rw [List.eq_of_mem_replicate hmem]
        exact fun _ => validateRecordGeneration_blank cfg.generation cfg.generation_lt
      · exact h.accepted record hmem
    producerOk := h.producerOk
    consumerOk := h.consumerOk }

/-- A run keeps the invariant behind the history. A native producer does not pass the largest
counter. -/
theorem Consistent.inv_of_run (h : Consistent cfg s₀) {as : List Act}
    (hrun : (machine cfg).exec s₀ as = some s)
    (hb : cfg.producer = .python → s₀.header.producer + s.published.length < 2 ^ 64) :
    Inv cfg (pad (before cfg s₀ ++ unread cfg s₀) (before cfg s₀) s) ∧
      (before cfg s₀ ++ unread cfg s₀ ++ s.published).length < 2 ^ 64 := by
  have hle := h.consumer_le
  have hlength : (before cfg s₀ ++ unread cfg s₀).length = s₀.header.producer := by
    rw [List.length_append, before_length, unread_length]
    omega
  have hpadded : (machine cfg).exec (pad (before cfg s₀ ++ unread cfg s₀) (before cfg s₀) s₀) as =
      some (pad (before cfg s₀ ++ unread cfg s₀) (before cfg s₀) s) := by
    rw [exec_pad, hrun, Option.map_some]
  have hbound : (before cfg s₀ ++ unread cfg s₀ ++ s.published).length < 2 ^ 64 := by
    cases hproducer : cfg.producer with
    | python =>
      have hb := hb hproducer
      rw [List.length_append, hlength]
      exact hb
    | native =>
      have hstart : (before cfg s₀ ++ unread cfg s₀ ++ s₀.published).length < 2 ^ 64 := by
        rw [h.published_eq, List.append_nil, hlength]
        exact h.producer_lt
      exact native_published_lt_exec hproducer h.inv hstart hpadded
  exact ⟨inv_exec h.inv hpadded hbound, hbound⟩

/-! ### The law -/

/-- The law of the ring in a state of a run from `s₀`, with what the callers have been told since.

* `pushes`, `pops`: the histories are the records of the calls that returned success, up to the
  calls that had made their store when the run began and those that have still to return.
* `isPrefix`: the pops return what the ring held and what has been published since, in order.
* `counters`: the counters count the two histories, stay within `capacity` and do not wrap.
* `no_overwrite`: a producer that is writing a slot is not writing that of an unread record.
* `sound`: the counters are never found impossible, and only the largest one is refused.
* `refused`: a native push at the largest counter is refused, and the ring stays as it was.
* `drained`: pops return all unread records before the first one that fails the check of the
  consumer.
* `rejected`: a record that fails the check makes the pop raise, and the ring stays as it was.
* `native`: with native endpoints on both sides every record passes the check, and pops return all
  of them. -/
structure WrapLaw (cfg : Config) (s₀ : State) (calls₀ : Calls) (s : State) (calls : Calls) :
    Prop where
  pushes : stored calls₀ s₀.producer ++ s.published = calls.pushed ++ stored calls s.producer
  pops : taken calls₀ s₀.consumer ++ s.popped = calls.returned ++ taken calls s.consumer
  isPrefix : s.popped <+: unread cfg s₀ ++ s.published
  counters : s.header.producer = s₀.header.producer + s.published.length ∧
    s.header.consumer = s₀.header.consumer + s.popped.length ∧
    s.header.consumer ≤ s.header.producer ∧
    s.header.producer - s.header.consumer ≤ cfg.capacity ∧ s.header.producer < 2 ^ 64
  no_overwrite : ∀ attempt record producer copied,
    s.producer = .copy attempt record producer copied →
    ∀ j, s.header.consumer ≤ j → j < s.header.producer →
      j % cfg.capacity ≠ producer % cfg.capacity
  sound : s.producer ≠ .raised (.corrupt .impossibleCounters) ∧
    s.consumer ≠ .raised (.corrupt .impossibleCounters) ∧
    s.consumer ≠ .raised (.corrupt .consumerCounterOverflow) ∧
    (s.producer = .raised (.corrupt .producerCounterOverflow) → s.header.producer = UINT64_MAX)
  refused : cfg.producer = .native → ∀ attempt record producer,
    s.producer = .loadConsumer attempt record producer → s.header.producer = UINT64_MAX →
    s.header.producer - s.header.consumer < cfg.capacity →
    step cfg s .producer =
      some { s with producer := .raised (.corrupt .producerCounterOverflow) }
  drained : ∀ last passing rest, s.consumer = .ready last →
    unread cfg s₀ ++ s.published = s.popped ++ (passing ++ rest) →
    (∀ record ∈ passing, cfg.checkPopped record = .ok ()) →
    ∃ as t seen, (∀ a ∈ as, IsPop a) ∧ (watched cfg).exec (s, calls) as = some (t, seen) ∧
      seen.returned = calls.returned ++ passing ∧ t.popped = s.popped ++ passing
  rejected : ∀ last record failure, s.consumer = .ready last →
    (unread cfg s₀ ++ s.published)[s.popped.length]? = some record →
    cfg.checkPopped record = .error failure →
    ∃ as seen, (∀ a ∈ as, IsPop a) ∧
      (watched cfg).exec (s, calls) as = some ({ s with consumer := .raised failure }, seen)
  native : cfg.producer = .native → cfg.consumer = .native →
    (∀ failure, s.consumer ≠ .raised failure) ∧
    (∀ record ∈ unread cfg s₀ ++ s.published, cfg.checkPopped record = .ok ()) ∧
    ∀ last, s.consumer = .ready last → ∃ as t seen, (∀ a ∈ as, IsPop a) ∧
      (watched cfg).exec (s, calls) as = some (t, seen) ∧
      t.popped = unread cfg s₀ ++ s.published

/-- A run of pops behind the history is one of the ring. -/
theorem exec_of_pad {before popped : List Record} {as : List Act} {u : State}
    (h : (machine cfg).exec (pad before popped s) as = some u) :
    ∃ t, (machine cfg).exec s as = some t ∧ u = pad before popped t := by
  rw [exec_pad] at h
  obtain ⟨t, ht, rfl⟩ := Option.map_eq_some_iff.mp h
  exact ⟨t, ht, rfl⟩

section
variable {held popped : List Record}

/-- Behind a history too, pops return all unread records before the first that fails the check. -/
theorem drained_of_pad {stored₀ taken₀ : List Record} {calls : Calls}
    (htied : Tied stored₀ taken₀ s calls) (hinv : Inv cfg (pad (popped ++ held) popped s))
    (hbound : (popped ++ held ++ s.published).length < 2 ^ 64) {last : Option Outcome}
    (hready : s.consumer = .ready last) (passing rest : List Record)
    (hsplit : held ++ s.published = s.popped ++ (passing ++ rest))
    (hcheck : ∀ record ∈ passing, cfg.checkPopped record = .ok ()) :
    ∃ as t seen, (∀ a ∈ as, IsPop a) ∧ (watched cfg).exec (s, calls) as = some (t, seen) ∧
      seen.returned = calls.returned ++ passing ∧ t.popped = s.popped ++ passing := by
  have hpadded : popped ++ held ++ s.published = (popped ++ s.popped) ++ (passing ++ rest) := by
    rw [List.append_assoc, hsplit, ← List.append_assoc]
  obtain ⟨as, u, hpops, hexec, ⟨last', hready'⟩, hgrown⟩ :=
    unread_drained passing rest hcheck hinv hbound hready hpadded
  -- The pops behind the history are pops of the ring.
  obtain ⟨t, hexec', rfl⟩ := exec_of_pad hexec
  change popped ++ t.popped = (popped ++ s.popped) ++ passing at hgrown
  rw [List.append_assoc] at hgrown
  have hgrown := List.append_cancel_left hgrown
  obtain ⟨seen, hseen, hreturned⟩ := watched_pop htied hready hexec' hready' hgrown
  exact ⟨as, t, seen, hpops, hseen, hreturned, hgrown⟩

/-- Behind a history too, a record that fails the check makes the pop raise. -/
theorem rejected_of_pad (calls : Calls) (hinv : Inv cfg (pad (popped ++ held) popped s))
    (hbound : (popped ++ held ++ s.published).length < 2 ^ 64) {last : Option Outcome}
    (hready : s.consumer = .ready last) {record : Record} {failure : RingFailure}
    (hget : (held ++ s.published)[s.popped.length]? = some record)
    (hcheck : cfg.checkPopped record = .error failure) :
    ∃ as seen, (∀ a ∈ as, IsPop a) ∧
      (watched cfg).exec (s, calls) as = some ({ s with consumer := .raised failure }, seen) := by
  have hget' : (popped ++ held ++ s.published)[(popped ++ s.popped).length]? = some record := by
    rw [List.append_assoc, List.length_append, List.getElem?_append_right (by omega),
      Nat.add_sub_cancel_left]
    exact hget
  obtain ⟨as, hpops, hexec⟩ := unread_rejected hinv hbound hready hget' hcheck
  have hexec' : (machine cfg).exec s as = some { s with consumer := .raised failure } := by
    obtain ⟨t, ht, heq⟩ := exec_of_pad hexec
    have heq : pad (popped ++ held) popped { s with consumer := .raised failure } =
      pad (popped ++ held) popped t := heq
    rw [ht, pad_injective _ _ heq]
  obtain ⟨seen, hseen⟩ := exec_watched hexec' calls
  exact ⟨as, seen, hpops, hseen⟩

end

/-- The law holds in every state of every run from a consistent state, also of one whose counters
are at the end of their range, unless a Python producer publishes at the largest counter. -/
theorem wrapLaw_of_run (cfg : Config) (s₀ s : State) (calls₀ calls : Calls)
    (h : Consistent cfg s₀) (hbegins : Begins s₀ calls₀) (as : List Act)
    (hrun : (watched cfg).exec (s₀, calls₀) as = some (s, calls))
    (hb : cfg.producer = .python → s₀.header.producer + s.published.length < 2 ^ 64) :
    WrapLaw cfg s₀ calls₀ s calls := by
  have htied := tied_exec hbegins.tied hrun
  have hring : (machine cfg).exec s₀ as = some s := Machine.exec_of_observed hrun
  obtain ⟨hinv, hbound⟩ := h.inv_of_run hring hb
  have hle := h.consumer_le
  have hproducer : s.header.producer = s₀.header.producer + s.published.length := by
    have heq : s.header.producer =
        (before cfg s₀ ++ unread cfg s₀ ++ s.published).length := hinv.producer_eq
    rw [List.length_append, List.length_append, before_length, unread_length] at heq
    omega
  have hcle : s.header.consumer ≤ s.header.producer := hinv.consumer_le
  have hdistance : s.header.producer ≤ s.header.consumer + cfg.capacity := hinv.distance
  have hpopped : before cfg s₀ ++ s.popped =
      (before cfg s₀ ++ unread cfg s₀ ++ s.published).take s.header.consumer := hinv.popped_eq
  have hconsumer : s.header.consumer = s₀.header.consumer + s.popped.length := by
    have hlength := congrArg List.length hpopped
    rw [List.length_append, before_length, List.length_take, List.length_append,
      List.length_append, before_length, unread_length] at hlength
    omega
  have hpo : ProducerOk cfg s.header s.slots s.producer := hinv.producerOk
  have hco : ConsumerOk cfg s.header s.slots s.consumer := hinv.consumerOk
  have hprefix : s.popped <+: unread cfg s₀ ++ s.published := by
    -- The made up records are the first ones of both histories.
    rw [← List.prefix_append_right_inj (before cfg s₀), ← List.append_assoc, hpopped]
    exact List.take_prefix _ _
  exact {
    pushes := htied.published
    pops := htied.popped
    isPrefix := hprefix
    counters := ⟨hproducer, hconsumer, hcle, by omega, by
      rw [List.length_append, List.length_append, before_length, unread_length] at hbound
      omega⟩
    no_overwrite := by
      intro attempt record producer copied hpc j hc hj
      rw [hpc] at hpo
      obtain ⟨-, rfl, hfree, -⟩ := hpo
      exact mod_ne_of_lt hj (by omega)
    sound := by
      refine ⟨fun hpc => ?_, fun hpc => ?_, fun hpc => ?_, fun hpc => ?_⟩
      · rw [hpc] at hpo
        exact hpo.1 rfl
      · rw [hpc] at hco
        exact hco.1 rfl
      · rw [hpc] at hco
        exact hco.2.1 rfl
      · rw [hpc] at hpo
        exact hpo.2 rfl
    refused := by
      intro hnative attempt record producer hpc hmax hspace
      rw [hpc] at hpo
      obtain ⟨-, rfl⟩ := hpo
      show producerStep cfg s = _
      simp only [producerStep, hpc, checkPush, validateCounters_ok hcle hdistance, hnative]
      rw [if_neg (by omega), if_pos hmax]
    drained := fun _ passing rest hready hsplit hcheck =>
      drained_of_pad htied hinv hbound hready passing rest hsplit hcheck
    rejected := fun _ _ _ hready hget hcheck =>
      rejected_of_pad calls hinv hbound hready hget hcheck
    native := by
      intro hprod hcons
      have hpass : ∀ record ∈ unread cfg s₀ ++ s.published, cfg.checkPopped record = .ok () := by
        intro record hmem
        refine checkPopped_ok_of_native hinv hprod hcons ?_
        show record ∈ before cfg s₀ ++ unread cfg s₀ ++ s.published
        rw [List.append_assoc]
        exact List.mem_append_right _ hmem
      refine ⟨fun failure hpc => ?_, hpass, fun last hready => ?_⟩
      · rw [hpc] at hco
        exact absurd (hco.2.2 hprod) (by simp [hcons])
      · obtain ⟨rest, hrest⟩ := hprefix
        obtain ⟨as, t, seen, hpops, hseen, -, hgrown⟩ := drained_of_pad htied hinv hbound hready
          rest [] (by rw [List.append_nil, hrest])
          (fun record hmem => hpass record (by rw [← hrest]; exact List.mem_append_right _ hmem))
        exact ⟨as, t, seen, hpops, hseen, hgrown.trans hrest⟩ }

end

/-! ### The counters do not wrap -/

/-- The law that the document states: the endpoints do not take the counters of a consistent ring
for corrupt, whatever is pushed and popped. -/
def CountersWrap (cfg : Config) : Prop :=
  ∀ s₀ s as, Consistent cfg s₀ → (machine cfg).exec s₀ as = some s →
    s.popped <+: unread cfg s₀ ++ s.published ∧
    s.producer ≠ .raised (.corrupt .producerCounterOverflow) ∧
    s.consumer ≠ .raised (.corrupt .impossibleCounters)

/-- An empty ring whose counters are the largest ones. -/
def atMaximum : State :=
  { init with header := { producer := UINT64_MAX, consumer := UINT64_MAX, closed := false } }

/-- The sample state is consistent. -/
theorem consistent_atMaximum (cfg : Config) : Consistent cfg atMaximum where
  consumer_le := Nat.le_refl _
  distance := Nat.le_add_right _ _
  producer_lt := by decide
  accepted := by
    intro record hmem
    rw [unread, show atMaximum.header.producer - atMaximum.header.consumer = 0 from rfl] at hmem
    cases hmem
  producerOk := trivial
  consumerOk := trivial
  published_eq := rfl
  popped_eq := rfl

/-- Nobody is in the middle of a call. -/
theorem begins_atMaximum : Begins atMaximum Calls.none where
  calling := by
    intro record hrecord
    change none = some record at hrecord
    cases hrecord
  published := rfl
  popped := rfl
  pushed := rfl
  returned := rfl

/-- A push of the native producer, which refuses the largest counter. -/
theorem exec_refused_atMaximum {cfg : Config} (hnative : cfg.producer = .native) {record : Record}
    (hrecord : validateRecordGeneration record cfg.generation = .ok ()) :
    (machine cfg).exec atMaximum [.callPush record, .producer, .producer, .producer] =
      some { atMaximum with producer := .raised (.corrupt .producerCounterOverflow) } := by
  have hcapacity := cfg.capacity_pos
  simp only [Machine.exec, machine, step, callPush, atMaximum, init, hnative, Option.bind_some,
    producerStep, Bool.false_eq_true, if_false, hrecord, checkPush,
    validateCounters_ok (Nat.le_refl _) (Nat.le_add_right _ _)]
  rw [if_neg (by omega), if_pos trivial]

/-- A push of the Python producer, which wraps the largest counter. -/
theorem exec_push_atMaximum {cfg : Config} (hpython : cfg.producer = .python) (record : Record) :
    ∃ as slots, (machine cfg).exec atMaximum as = some { atMaximum with
      header := { atMaximum.header with producer := 0 }
      slots := slots
      dataFd := eventfdWrite atMaximum.dataFd
      producer := .ready (some .success)
      published := [record] } := by
  have hcapacity := cfg.capacity_pos
  have hstart : (machine cfg).exec atMaximum [.callPush record, .producer, .producer] =
      some { atMaximum with producer := .copy .first record UINT64_MAX 0 } := by
    simp only [Machine.exec, machine, step, callPush, atMaximum, init, hpython, Option.bind_some,
      producerStep, checkPush, validateCounters_ok (Nat.le_refl _) (Nat.le_add_right _ _)]
    rw [if_pos (by omega)]
  obtain ⟨slots, hcopy⟩ := exec_writeBytes cfg atMaximum .first record UINT64_MAX RECORD_SIZE 0
    atMaximum.slots (Nat.zero_add _)
  have hstore : (machine cfg).exec { atMaximum with
      slots := slots
      producer := .copy .first record UINT64_MAX RECORD_SIZE }
      [.producer, .producer] = some { atMaximum with
        header := { atMaximum.header with producer := 0 }
        slots := slots
        dataFd := eventfdWrite atMaximum.dataFd
        producer := .ready (some .success)
        published := [record] } := by
    simp only [Machine.exec, machine, step, producerStep, Nat.lt_irrefl, dite_false,
      Option.bind_some]
    rfl
  exact ⟨_, slots, Machine.exec_trans hstart (Machine.exec_trans hcopy hstore)⟩

/-- A ring of three slots, with these endpoints. -/
def ringOfThree (endpoint : Endpoint) : Config where
  capacity := 3
  generation := 1
  producer := endpoint
  consumer := endpoint
  decodes := fun _ => true
  capacity_pos := by decide
  capacity_lt := by decide
  generation_lt := one_lt_generations

/-- The native producer refuses a push at the largest counter, and the law holds there. -/
theorem wrapLaw_atMaximum : ∃ s calls, s.producer = .raised (.corrupt .producerCounterOverflow) ∧
    calls.pushed = [] ∧ WrapLaw (ringOfThree .native) atMaximum Calls.none s calls := by
  have hrun := @exec_refused_atMaximum (ringOfThree .native) rfl _
    (validateRecordGeneration_blank 1 (by decide))
  obtain ⟨calls, hwatched⟩ := exec_watched hrun Calls.none
  have hlaw := wrapLaw_of_run _ atMaximum _ _ calls (consistent_atMaximum _)
    begins_atMaximum _ hwatched (fun hpython => by cases hpython)
  have hpushed : [] = calls.pushed ++ [] := hlaw.pushes
  rw [List.append_nil] at hpushed
  exact ⟨_, calls, rfl, hpushed.symm, hlaw⟩

/-- The native producer refuses to push at the largest counter. The Python producer pushes a
record there, and then the Python consumer finds the counters impossible. -/
theorem counters_do_not_wrap :
    ¬ CountersWrap (ringOfThree .native) ∧ ¬ CountersWrap (ringOfThree .python) := by
  constructor
  · intro h
    have hrun := @exec_refused_atMaximum (ringOfThree .native) rfl _
      (validateRecordGeneration_blank 1 (by decide))
    exact (h atMaximum _ _ (consistent_atMaximum _) hrun).2.1 rfl
  · intro h
    obtain ⟨as, slots, hpush⟩ := @exec_push_atMaximum (ringOfThree .python) rfl
      (Record.blank 1)
    have hpop := @Machine.exec_trans _ _ _ _ _ _ _ [.callPop, .consumer, .consumer] hpush rfl
    exact (h atMaximum _ _ (consistent_atMaximum _) hpop).2.2 rfl

end Wmfs.Ring
