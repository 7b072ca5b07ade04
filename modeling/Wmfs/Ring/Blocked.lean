import Wmfs.Ring.Endpoints
import Wmfs.Ring.Fifo

/-!
# `Wmfs.Ring.Blocked`: a record that the consumer does not accept

The consumer checks its copy before it advances its counter. A record that fails the check is
therefore not consumed: every later pop reads it again and raises again, and nothing behind it is
ever returned (`blocked_exec`).

Between native endpoints this does not happen, as `fifoLaw_of_reachable` shows. The Python producer
publishes whatever `encode` accepts, and `encode` cuts the texts of an error on bytes. A text whose
last byte of room is the first of a character cannot be decoded (`Wmfs.Ring.Truncation`), and its
record blocks the ring (`split_character_blocks`).
-/

set_option autoImplicit false

namespace Wmfs.Ring

open Wmfs.Lib

/-- Every record that a push published can still be returned, whatever is done for it. -/
def EveryRecordReturned (cfg : Config) : Prop :=
  ∀ s calls, (watched cfg).Reachable (s, calls) → s.published.length < 2 ^ 64 - 1 →
    ∀ last record, s.consumer = .ready last → s.published[calls.returned.length]? = some record →
      ∃ as t seen, (watched cfg).exec (s, calls) as = some (t, seen) ∧
        seen.returned = calls.returned ++ [record]

section
variable {cfg : Config} {s t : State} {calls : Calls}

/-- A step either leaves the popped history alone, or it is the consumer's store, which appends a
copy that has passed the check. -/
theorem popped_step {a : Act} (hs : step cfg s a = some t) :
    t.popped = s.popped ∨
      ∃ attempt producer consumer copied buffer,
        s.consumer = .copy attempt producer consumer copied buffer ∧ ¬ copied < RECORD_SIZE ∧
        cfg.checkPopped buffer = .ok () := by
  cases a with
  | consumer =>
    cases hpc : s.consumer with
    | copy attempt producer consumer copied buffer =>
      simp only [step, consumerStep, hpc] at hs
      split at hs
      · cases hs
        exact Or.inl rfl
      · rename_i hdone
        split at hs
        · cases hs
          exact Or.inl rfl
        · rename_i hcheck
          exact Or.inr ⟨attempt, producer, consumer, copied, buffer, rfl, hdone, hcheck⟩
    | _ =>
      simp only [step, consumerStep, hpc] at hs
      repeat' split at hs
      all_goals first | cases hs; exact Or.inl rfl | cases hs
  | producer =>
    simp only [step, producerStep] at hs
    repeat' split at hs
    all_goals first | cases hs; exact Or.inl rfl | cases hs
  | _ =>
    simp only [step, callTryPush, callPush, producerTimeout, callTryPop, callPop,
      consumerTimeout, closeFlag, closeNotifyData, closeNotifySpace] at hs
    repeat' split at hs
    all_goals first | cases hs; exact Or.inl rfl | cases hs

/-- The first record that was published has not been consumed, nor anything else. -/
structure Blocked (cfg : Config) (failing : Record) (s : State) : Prop where
  inv : Inv cfg s
  first : s.published[0]? = some failing
  popped : s.popped = []

/-- The counter of the consumer is still zero. -/
theorem Blocked.consumer_eq {failing : Record} (h : Blocked cfg failing s) :
    s.header.consumer = 0 := by
  have htake := congrArg List.length h.inv.popped_eq
  have hle := h.inv.consumer_le
  have hproducer := h.inv.producer_eq
  rw [h.popped, List.length_take, List.length_nil] at htake
  obtain ⟨hpos, -⟩ := List.getElem?_eq_some_iff.mp h.first
  omega

/-- A record that fails the check stays, whoever takes the step. -/
theorem blocked_step {failing : Record} {failure : RingFailure}
    (hcheck : cfg.checkPopped failing = .error failure) (h : Blocked cfg failing s) {a : Act}
    (hs : step cfg s a = some t) : Blocked cfg failing t := by
  have hconsumer := h.consumer_eq
  obtain ⟨hpos, -⟩ := List.getElem?_eq_some_iff.mp h.first
  -- The ring holds everything that was published, so that the history is short.
  have hbound : t.published.length < 2 ^ 64 := by
    have hdistance := h.inv.distance
    have hproducer := h.inv.producer_eq
    have hcapacity := cfg.capacity_lt
    rcases published_step hs with heq | ⟨_, _, _, _, _, _, heq⟩
    · rw [heq]
      omega
    · rw [heq, List.length_append, List.length_singleton]
      omega
  refine ⟨inv_step h.inv hs hbound, ?_, ?_⟩
  · rcases published_step hs with heq | ⟨_, _, _, _, _, _, heq⟩
    · rw [heq]
      exact h.first
    · rw [heq, List.getElem?_append_left hpos]
      exact h.first
  · rcases popped_step hs with heq | ⟨_, _, _, _, buffer, hpc, hdone, hpass⟩
    · rw [heq]
      exact h.popped
    · -- A complete copy is one of the failing record.
      have hbuffer := buffer_eq_published h.inv hpc hdone
      rw [hconsumer, h.first] at hbuffer
      rw [← Option.some.inj hbuffer, hcheck] at hpass
      cases hpass

/-- No run gets past the record. -/
theorem blocked_exec {failing : Record} {failure : RingFailure}
    (hcheck : cfg.checkPopped failing = .error failure) (h : Blocked cfg failing s)
    {as : List Act} (hrun : (machine cfg).exec s as = some t) : t.popped = [] := by
  have hblocked : Blocked cfg failing t := by
    refine Machine.invariant_exec (I := Blocked cfg failing) ?_ h hrun
    intro u a v hu hs
    exact blocked_step hcheck hu hs
  exact hblocked.popped

/-- A pop returns no more than what the consumer has consumed. -/
theorem returned_nil (htied : Tied [] [] s calls) (hpopped : s.popped = []) :
    calls.returned = [] := by
  have htie := htied.popped
  rw [hpopped, List.append_nil] at htie
  exact (List.append_eq_nil_iff.mp htie.symm).1

/-- A push of a Python producer into a ring with a free slot publishes the record, whatever it
holds. -/
theorem exec_pushPython (hpython : cfg.producer = .python) {last : Option Outcome}
    (hready : s.producer = .ready last) (record : Record)
    (hle : s.header.consumer ≤ s.header.producer)
    (hfree : s.header.producer < s.header.consumer + cfg.capacity)
    (hmax : s.header.producer < UINT64_MAX) :
    ∃ as slots, (machine cfg).exec s as = some { s with
      header := { s.header with producer := s.header.producer + 1 }
      slots := slots
      dataFd := eventfdWrite s.dataFd
      producer := .ready (some .success)
      published := s.published ++ [record] } := by
  -- The two counters, after which the attempt starts its copy.
  have hstart : (machine cfg).exec s [.callPush record, .producer, .producer] =
      some { s with producer := .copy .first record s.header.producer 0 } := by
    simp only [Machine.exec, machine, step, callPush, hready, hpython, Option.bind_some,
      producerStep, checkPush, validateCounters_ok hle hfree.le]
    rw [if_pos (by omega)]
  obtain ⟨slots, hcopy⟩ := exec_writeBytes cfg s .first record s.header.producer RECORD_SIZE 0
    s.slots (Nat.zero_add _)
  have hmod : (s.header.producer + 1) % 2 ^ 64 = s.header.producer + 1 := by
    unfold UINT64_MAX at hmax
    exact Nat.mod_eq_of_lt (by omega)
  -- The store and the notification.
  have hstore : (machine cfg).exec { s with
      slots := slots
      producer := .copy .first record s.header.producer RECORD_SIZE }
      [.producer, .producer] = some { s with
        header := { s.header with producer := s.header.producer + 1 }
        slots := slots
        dataFd := eventfdWrite s.dataFd
        producer := .ready (some .success)
        published := s.published ++ [record] } := by
    simp only [Machine.exec, machine, step, producerStep, Nat.lt_irrefl, dite_false,
      Option.bind_some, hmod]
  exact ⟨_, slots, Machine.exec_trans hstart (Machine.exec_trans hcopy hstore)⟩

end

namespace Endpoints

open Wmfs.Ring.Codec hiding RECORD_SIZE Record

/-- An error type of 65 bytes whose last character starts at byte 63. -/
def splitText : Wmfs.Lib.Utf8.Text := List.replicate 63 0x61 ++ [0xE9]

/-- `encode` accepts an error type that is cut inside a character, and `decode` refuses it. -/
theorem splitText_undecodable : ∃ payload, encode (errorRecord splitText) = .ok payload ∧
    ringOfFour.checkPopped (image payload) = .error .undecodable := by
  obtain ⟨base, hbase⟩ := encode_errorRecord_nil
  have htype : Utf8.encode (errorRecord splitText).errorType =
      some (List.replicate 63 0x61 ++ [0xC3, 0xA9]) := by decide
  have hmessage : Utf8.encode (errorRecord splitText).errorMessage = some [] := by decide
  obtain ⟨payload, hpayload⟩ :=
    @exists_encode_of_texts _ _ (errorRecord splitText) base _ _ hbase htype hmessage
  refine ⟨payload, hpayload, ?_⟩
  have hencoded := encode_ok_iff.mp hpayload
  obtain ⟨scalars, hdecode⟩ := decode_of_texts hencoded htype hmessage
  -- Byte 63 is the first of the two bytes of the last character.
  have hcut : decodeText ((List.replicate 63 (0x61 : UInt8) ++ [0xC3, 0xA9]).take 64) =
      .error .unicodeDecodeError := by decide
  rw [hcut] at hdecode
  have hdecodes : pythonDecodes 1 (image payload) = false := by
    rw [pythonDecodes, ofFn_image hencoded.size]
    exact congrArg Except.isOk hdecode
  simp only [Config.checkPopped, ringOfFour, hdecodes, Bool.false_eq_true, if_false]

/-- A Python push returns success for a record whose error type is cut inside a character, and the
ring is closed after it. No run returns the record: every pop raises, and nothing is popped. -/
theorem split_character_blocks : ∃ payload s calls,
    encode (errorRecord splitText) = .ok payload ∧
    (watched ringOfFour).Reachable (s, calls) ∧ calls.pushed = [image payload] ∧
    s.header.closed = true ∧
    (∀ as t seen, (watched ringOfFour).exec (s, calls) as = some (t, seen) →
      seen.returned = []) ∧
    ¬ EveryRecordReturned ringOfFour := by
  obtain ⟨payload, hpayload, hcheck⟩ := splitText_undecodable
  obtain ⟨as, slots, hpush⟩ := @exec_pushPython ringOfFour init rfl _ rfl (image payload)
    (Nat.le_refl _) (by decide) (by decide)
  have hclose := Machine.exec_trans hpush (Machine.exec_single (a := .closeFlag) rfl)
  obtain ⟨s, hrun, hproducer, hconsumer, hpublished, hpopped, hclosed⟩ :
      ∃ s, (machine ringOfFour).exec init (as ++ [.closeFlag]) = some s ∧
        s.producer = .ready (some .success) ∧ s.consumer = .ready none ∧
        s.published = [image payload] ∧ s.popped = [] ∧ s.header.closed = true :=
    ⟨_, hclose, rfl, rfl, rfl, rfl, rfl⟩
  obtain ⟨calls, hwatched⟩ := exec_watched hrun Calls.none
  have hreach := Machine.reachable_of_exec (M := watched ringOfFour) hwatched
  have htied := tied_of_reachable hreach
  have hinv := inv_exec (inv_init ringOfFour) hrun (by rw [hpublished]; norm_num)
  have hpushed : calls.pushed = [image payload] := by
    have htie := htied.published
    rw [hpublished, hproducer] at htie
    simpa [stored] using htie.symm
  have hreturned := returned_nil htied hpopped
  have hnever : ∀ bs t seen, (watched ringOfFour).exec (s, calls) bs = some (t, seen) →
      seen.returned = [] := by
    intro bs t seen hexec
    have hring : (machine ringOfFour).exec s bs = some t := Machine.exec_of_observed hexec
    exact returned_nil (tied_exec htied hexec)
      (blocked_exec hcheck ⟨hinv, by rw [hpublished]; rfl, hpopped⟩ hring)
  refine ⟨payload, s, calls, hpayload, hreach, hpushed, hclosed, hnever, ?_⟩
  intro hlaw
  obtain ⟨bs, t, seen, hexec, hgrown⟩ := hlaw s calls hreach (by rw [hpublished]; norm_num)
    none (image payload) hconsumer (by rw [hreturned, hpublished]; rfl)
  rw [hnever bs t seen hexec, hreturned] at hgrown
  cases hgrown

end Endpoints

end Wmfs.Ring
