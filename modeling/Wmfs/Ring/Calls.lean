import Wmfs.Ring.Model

/-!
# `Wmfs.Ring.Calls`: what the callers of a ring see

The histories `published` and `popped` of the model grow at the stores of the two counters. A
caller knows less: a push has succeeded when it returns, and a pop has read a record when it
returns it. `Calls` collects what the callers are told along a run. It takes the record of a push
from the call and the record of a pop from the buffer of the consumer, and it counts a call only
when it returns success.

A call that has made its store and still has to write its eventfd is in one history and not yet in
the other. That is the only difference (`Tied`), in every run and whatever the other parties do
meanwhile: `tied_step` shows it for one step, `tied_exec` for a run.
-/

set_option autoImplicit false

namespace Wmfs.Ring

open Wmfs.Lib

/-- What the callers have been told.

* `record` is the argument of the latest push.
* `pushed` are the arguments of the pushes that returned success.
* `buffer` is the latest copy of the consumer.
* `returned` are the records of the pops that returned success. -/
structure Calls where
  record : Record
  pushed : List Record
  buffer : Record
  returned : List Record

/-- Nobody has called yet. -/
def Calls.none : Calls where
  record := fun _ => 0
  pushed := []
  buffer := fun _ => 0
  returned := []

/-- A step of the producer ends a push when it leaves it ready. -/
def Calls.seeProducer (after : ProducerPc) (calls : Calls) : Calls :=
  match after with
  | .ready (some .success) => { calls with pushed := calls.pushed ++ [calls.record] }
  | _ => calls

/-- The record that the consumer has copied before a step. -/
def Calls.seeBuffer (before : ConsumerPc) (calls : Calls) : Calls :=
  match before with
  | .copy _ _ _ _ buffer => { calls with buffer := buffer }
  | _ => calls

/-- A step of the consumer ends a pop when it leaves it ready. -/
def Calls.seeConsumer (after : ConsumerPc) (calls : Calls) : Calls :=
  match after with
  | .ready (some .success) => { calls with returned := calls.returned ++ [calls.buffer] }
  | _ => calls

/-- What the callers see of a step from `s` to `t`. -/
def Calls.see (s : State) (a : Act) (t : State) (calls : Calls) : Calls :=
  match a with
  | .callPush record => { calls with record := record }
  | .callTryPush record => { calls with record := record }
  | .producer => calls.seeProducer t.producer
  | .consumer => (calls.seeBuffer s.consumer).seeConsumer t.consumer
  | _ => calls

/-- The ring with its callers. -/
def watched (cfg : Config) : Machine (State × Calls) Act :=
  (machine cfg).observed Calls.none Calls.see

/-- The callers can watch every run of the ring. -/
theorem exec_watched {cfg : Config} {s t : State} {as : List Act}
    (hrun : (machine cfg).exec s as = some t) (calls : Calls) :
    ∃ seen, (watched cfg).exec (s, calls) as = some (t, seen) :=
  Machine.exec_observed (machine cfg) Calls.none Calls.see hrun calls

/-- A state that the callers have watched is a state of the ring. -/
theorem reachable_of_watched {cfg : Config} {s : State} {calls : Calls}
    (h : (watched cfg).Reachable (s, calls)) : (machine cfg).Reachable s := by
  unfold watched at h
  have hreach : (machine cfg).Reach (fun _ _ => True) (s, calls).1 := Machine.Reach.of_observed h
  exact hreach

/-- The record of the push under way, before its store. -/
def ProducerPc.record : ProducerPc → Option Record
  | .ready _ => none
  | .enter _ record => some record
  | .loadProducer _ record => some record
  | .loadConsumer _ record _ => some record
  | .copy _ record _ _ => some record
  | .notify => none
  | .recheck _ record => some record
  | .drain record => some record
  | .wait record => some record
  | .read record => some record
  | .raised _ => none

/-- The record of a push that has stored its counter and has not returned. -/
def stored (calls : Calls) : ProducerPc → List Record
  | .notify => [calls.record]
  | _ => []

/-- The record of a pop that has stored its counter and has not returned. -/
def taken (calls : Calls) : ConsumerPc → List Record
  | .notify => [calls.buffer]
  | _ => []

/-- The histories of the ring are those of its callers and the calls that have made their store.
`stored₀` and `taken₀` are the calls that had made it when the history began. -/
structure Tied (stored₀ taken₀ : List Record) (s : State) (calls : Calls) : Prop where
  calling : ∀ record, s.producer.record = some record → calls.record = record
  published : stored₀ ++ s.published = calls.pushed ++ stored calls s.producer
  popped : taken₀ ++ s.popped = calls.returned ++ taken calls s.consumer

/-- A history begins in a state, perhaps in the middle of a push and of a pop. The callers have been
told nothing yet. -/
structure Begins (s : State) (calls : Calls) : Prop where
  calling : ∀ record, s.producer.record = some record → calls.record = record
  published : s.published = []
  popped : s.popped = []
  pushed : calls.pushed = []
  returned : calls.returned = []

/-- At the start the only records are those of the calls that have made their store. -/
theorem Begins.tied {s : State} {calls : Calls} (h : Begins s calls) :
    Tied (stored calls s.producer) (taken calls s.consumer) s calls where
  calling := h.calling
  published := by rw [h.published, h.pushed, List.append_nil, List.nil_append]
  popped := by rw [h.popped, h.returned, List.append_nil, List.nil_append]

/-- Nothing has happened yet. -/
theorem tied_init : Tied [] [] init Calls.none :=
  @Begins.tied init Calls.none
    { calling := by
        intro record hrecord
        change none = some record at hrecord
        cases hrecord
      published := rfl
      popped := rfl
      pushed := rfl
      returned := rfl }

section
variable {cfg : Config} {stored₀ taken₀ : List Record} {s t : State} {calls : Calls}

/-- The producer moves on, with the same record or without one, and neither returns success nor
makes its store. -/
theorem Tied.setProducer (h : Tied stored₀ taken₀ s calls) (pc : ProducerPc)
    (hold : stored calls s.producer = []) (hnew : stored calls pc = [])
    (hsee : calls.seeProducer pc = calls)
    (hrecord : ∀ record, pc.record = some record → calls.record = record) :
    Tied stored₀ taken₀ { s with producer := pc } (calls.seeProducer pc) := by
  rw [hsee]
  have hpublished := h.published
  rw [hold] at hpublished
  exact {
    calling := hrecord
    published := by rw [hnew]; exact hpublished
    popped := h.popped }

/-- A failed attempt keeps the record. -/
theorem Tied.failedPush (h : Tied stored₀ taken₀ s calls) {attempt : Attempt} {record : Record}
    (hold : stored calls s.producer = []) (hrecord : calls.record = record) :
    Tied stored₀ taken₀ { s with producer := failedPush attempt record }
      (calls.seeProducer (Ring.failedPush attempt record)) := by
  refine h.setProducer _ hold ?_ ?_ ?_ <;> cases attempt <;>
    simp [Ring.failedPush, stored, Calls.seeProducer, ProducerPc.record, hrecord]

/-- The local part of an attempt keeps the record. -/
theorem Tied.checkPush (h : Tied stored₀ taken₀ s calls) {attempt : Attempt} {record : Record}
    (producer consumer : Nat) (hold : stored calls s.producer = [])
    (hrecord : calls.record = record) :
    Tied stored₀ taken₀ { s with producer := checkPush cfg attempt record producer consumer }
      (calls.seeProducer (Ring.checkPush cfg attempt record producer consumer)) := by
  unfold Ring.checkPush
  repeat' split
  all_goals first
    | exact h.failedPush hold hrecord
    | exact h.setProducer _ hold rfl rfl (by simp [ProducerPc.record, hrecord])

/-- The closed check keeps the record. -/
theorem Tied.recheckPush (h : Tied stored₀ taken₀ s calls) {attempt : Attempt} {record : Record}
    (closed : Bool) (hold : stored calls s.producer = [])
    (hrecord : calls.record = record) :
    Tied stored₀ taken₀ { s with producer := recheckPush cfg closed attempt record }
      (calls.seeProducer (Ring.recheckPush cfg closed attempt record)) := by
  unfold Ring.recheckPush
  split <;> exact h.setProducer _ hold rfl rfl (by simp [ProducerPc.record, hrecord])

/-- A step of the producer. Its store moves a record into the history of the ring, and its return
moves that record into the history of the callers. -/
theorem tied_producerStep (h : Tied stored₀ taken₀ s calls) (hs : producerStep cfg s = some t) :
    Tied stored₀ taken₀ t (calls.seeProducer t.producer) := by
  have hcalling := h.calling
  have hpublished := h.published
  cases hpc : s.producer with
  | ready last => simp [producerStep, hpc] at hs
  | enter attempt record =>
    have hold : stored calls s.producer = [] := by rw [hpc]; rfl
    have hrecord : calls.record = record := hcalling record (by rw [hpc]; rfl)
    simp only [producerStep, hpc] at hs
    split at hs
    · cases hs
      exact h.failedPush hold hrecord
    · split at hs <;> cases hs
      · exact h.setProducer _ hold rfl rfl (by simp [ProducerPc.record])
      · exact h.setProducer _ hold rfl rfl (by simpa [ProducerPc.record] using hrecord)
  | loadProducer attempt record =>
    simp only [producerStep, hpc, Option.some.injEq] at hs
    subst hs
    exact h.setProducer _ (by rw [hpc]; rfl) rfl rfl (by simpa [ProducerPc.record, hpc] using hcalling)
  | loadConsumer attempt record producer =>
    simp only [producerStep, hpc, Option.some.injEq] at hs
    subst hs
    exact h.checkPush producer s.header.consumer (by rw [hpc]; rfl)
      (hcalling record (by rw [hpc]; rfl))
  | copy attempt record producer copied =>
    simp only [producerStep, hpc] at hs
    split at hs
    · cases hs
      exact { h with
        calling := fun record' hrecord' => hcalling record' (by rw [hpc]; exact hrecord')
        published := by rw [hpc] at hpublished; exact hpublished }
    · cases hs
      -- The record of the store is the argument of the call.
      have hrecord : calls.record = record := hcalling record (by rw [hpc]; rfl)
      rw [hpc] at hpublished
      exact {
        calling := fun record' hrecord' => by cases hrecord'
        published := by
          show stored₀ ++ (s.published ++ [record]) = calls.pushed ++ [calls.record]
          rw [← List.append_assoc, hpublished, hrecord]
          simp [stored]
        popped := h.popped }
  | notify =>
    simp only [producerStep, hpc, Option.some.injEq] at hs
    subst hs
    rw [hpc] at hpublished
    exact {
      calling := fun record' hrecord' => by cases hrecord'
      published := by
        show stored₀ ++ s.published = (calls.pushed ++ [calls.record]) ++ []
        rw [hpublished, List.append_nil]
        rfl
      popped := h.popped }
  | recheck attempt record =>
    simp only [producerStep, hpc, Option.some.injEq] at hs
    subst hs
    exact h.recheckPush s.header.closed (by rw [hpc]; rfl)
      (hcalling record (by rw [hpc]; rfl))
  | drain record =>
    simp only [producerStep, hpc, Option.some.injEq] at hs
    subst hs
    have hmoved := h.setProducer (.enter .second record) (by rw [hpc]; rfl) rfl rfl
      (by simpa [ProducerPc.record, hpc] using hcalling)
    exact { hmoved with }
  | wait record =>
    simp only [producerStep, hpc] at hs
    split at hs
    · cases hs
    · split at hs <;> cases hs <;>
        exact h.setProducer _ (by rw [hpc]; rfl) rfl rfl (by simpa [ProducerPc.record, hpc] using hcalling)
  | read record =>
    simp only [producerStep, hpc, Option.some.injEq] at hs
    subst hs
    have hmoved := h.setProducer (.loadProducer .first record) (by rw [hpc]; rfl) rfl rfl
      (by simpa [ProducerPc.record, hpc] using hcalling)
    exact { hmoved with }
  | raised failure =>
    simp only [producerStep, hpc, Option.some.injEq] at hs
    subst hs
    exact h.setProducer _ (by rw [hpc]; rfl) rfl rfl (by simp [ProducerPc.record])

/-- The consumer moves on, and neither returns success nor makes its store. -/
theorem Tied.setConsumer (h : Tied stored₀ taken₀ s calls) (pc : ConsumerPc)
    (hold : taken calls s.consumer = []) (hnew : taken calls pc = [])
    (hsee : calls.seeConsumer pc = calls) :
    Tied stored₀ taken₀ { s with consumer := pc } (calls.seeConsumer pc) := by
  rw [hsee]
  have hpopped := h.popped
  rw [hold] at hpopped
  exact {
    calling := h.calling
    published := h.published
    popped := by rw [hnew]; exact hpopped }

/-- The copy of the consumer plays no part before it is returned. -/
theorem Tied.seeBuffer (h : Tied stored₀ taken₀ s calls) :
    Tied stored₀ taken₀ s (calls.seeBuffer s.consumer) := by
  have hpopped := h.popped
  cases hpc : s.consumer with
  | copy attempt producer consumer copied buffer =>
    rw [hpc] at hpopped
    exact {
      calling := h.calling
      published := h.published
      popped := by rw [hpc]; exact hpopped }
  | _ => exact h

/-- A failed attempt of the consumer. -/
theorem Tied.failedPop (h : Tied stored₀ taken₀ s calls) (attempt : Attempt)
    (hold : taken calls s.consumer = []) :
    Tied stored₀ taken₀ { s with consumer := failedPop attempt }
      (calls.seeConsumer (Ring.failedPop attempt)) := by
  cases attempt <;> exact h.setConsumer _ hold rfl rfl

/-- A step of the consumer, as for the producer. -/
theorem tied_consumerStep (h : Tied stored₀ taken₀ s calls) (hs : consumerStep cfg s = some t) :
    Tied stored₀ taken₀ t ((calls.seeBuffer s.consumer).seeConsumer t.consumer) := by
  have hseen := h.seeBuffer
  have hpopped := hseen.popped
  cases hpc : s.consumer with
  | ready last => simp [consumerStep, hpc] at hs
  | loadProducer attempt =>
    rw [hpc] at hseen
    simp only [consumerStep, hpc, Option.some.injEq] at hs
    subst hs
    exact hseen.setConsumer _ (by rw [hpc]; rfl) rfl rfl
  | loadConsumer attempt producer =>
    rw [hpc] at hseen
    have hold : taken (calls.seeBuffer (.loadConsumer attempt producer)) s.consumer = [] := by
      rw [hpc]; rfl
    simp only [consumerStep, hpc, Option.some.injEq] at hs
    subst hs
    unfold checkPop
    repeat' split
    all_goals first
      | exact hseen.failedPop attempt hold
      | exact hseen.setConsumer _ hold rfl rfl
  | copy attempt producer consumer copied buffer =>
    rw [hpc] at hseen hpopped
    have hold : taken (calls.seeBuffer (.copy attempt producer consumer copied buffer))
        s.consumer = [] := by rw [hpc]; rfl
    simp only [consumerStep, hpc] at hs
    split at hs
    · cases hs
      exact hseen.setConsumer _ hold rfl rfl
    · split at hs
      · cases hs
        exact hseen.setConsumer _ hold rfl rfl
      · cases hs
        -- The pop returns the copy now, or after its write of the eventfd.
        have hgrow : taken₀ ++ (s.popped ++ [buffer]) = calls.returned ++ [buffer] := by
          rw [← List.append_assoc, hpopped]
          simp [taken, Calls.seeBuffer]
        by_cases hnotify : notifiesSpace cfg producer consumer = true
        · simp only [hnotify, if_true]
          exact { calling := hseen.calling, published := hseen.published, popped := hgrow }
        · simp only [hnotify]
          exact {
            calling := hseen.calling
            published := hseen.published
            popped := by
              show _ = (calls.returned ++ [buffer]) ++ []
              rw [List.append_nil]
              exact hgrow }
  | notify =>
    rw [hpc] at hseen hpopped
    simp only [consumerStep, hpc, Option.some.injEq] at hs
    subst hs
    exact {
      calling := hseen.calling
      published := hseen.published
      popped := by
        show taken₀ ++ s.popped = (calls.returned ++ [calls.buffer]) ++ []
        rw [List.append_nil]
        exact hpopped }
  | recheck attempt =>
    rw [hpc] at hseen
    simp only [consumerStep, hpc, Option.some.injEq] at hs
    subst hs
    unfold recheckPop
    split <;> exact hseen.setConsumer _ (by rw [hpc]; rfl) rfl rfl
  | drain =>
    rw [hpc] at hseen
    simp only [consumerStep, hpc, Option.some.injEq] at hs
    subst hs
    have hmoved := hseen.setConsumer (.loadProducer .second) (by rw [hpc]; rfl) rfl rfl
    exact { hmoved with }
  | wait =>
    rw [hpc] at hseen
    simp only [consumerStep, hpc] at hs
    split at hs
    · cases hs
    · split at hs <;> cases hs <;> exact hseen.setConsumer _ (by rw [hpc]; rfl) rfl rfl
  | read =>
    rw [hpc] at hseen
    simp only [consumerStep, hpc, Option.some.injEq] at hs
    subst hs
    have hmoved := hseen.setConsumer (.loadProducer .first) (by rw [hpc]; rfl) rfl rfl
    exact { hmoved with }
  | raised failure =>
    rw [hpc] at hseen
    simp only [consumerStep, hpc, Option.some.injEq] at hs
    subst hs
    exact hseen.setConsumer _ (by rw [hpc]; rfl) rfl rfl

/-- A new push replaces the record of the last one, which has returned. -/
theorem Tied.callPush (h : Tied stored₀ taken₀ s calls) {last : Option Outcome}
    (hready : s.producer = .ready last) {record : Record} {pc : ProducerPc}
    (hpc : pc.record = some record) (hnew : ∀ calls : Calls, stored calls pc = []) :
    Tied stored₀ taken₀ { s with producer := pc } { calls with record := record } := by
  have hpublished := h.published
  rw [hready] at hpublished
  exact {
    calling := fun record' hrecord' => by
      change pc.record = some record' at hrecord'
      rw [hpc] at hrecord'
      exact Option.some.inj hrecord'
    published := by rw [hnew]; exact hpublished
    popped := h.popped }

/-- Every step of the ring keeps the two histories together. -/
theorem tied_step (h : Tied stored₀ taken₀ s calls) {a : Act} (hs : step cfg s a = some t) :
    Tied stored₀ taken₀ t (calls.see s a t) := by
  cases a with
  | producer =>
    simp only [step] at hs
    exact tied_producerStep h hs
  | consumer =>
    simp only [step] at hs
    exact tied_consumerStep h hs
  | callPush record =>
    simp only [step, Ring.callPush] at hs
    split at hs
    · rename_i hready _
      cases hs
      exact h.callPush hready rfl fun _ => rfl
    · rename_i hready _
      cases hs
      exact h.callPush hready rfl fun _ => rfl
    · cases hs
  | callTryPush record =>
    simp only [step, callTryPush] at hs
    split at hs
    · rename_i hready _
      cases hs
      exact h.callPush hready rfl fun _ => rfl
    · cases hs
  | producerTimeout =>
    simp only [step, producerTimeout] at hs
    split at hs
    · rename_i record hwait
      cases hs
      exact h.setProducer (.ready (some .timeout)) (by rw [hwait]; rfl) rfl rfl
        (by simp [ProducerPc.record])
    · cases hs
  | callTryPop =>
    simp only [step, callTryPop] at hs
    split at hs
    · rename_i hready _
      cases hs
      exact h.setConsumer (.loadProducer .only) (by rw [hready]; rfl) rfl rfl
    · cases hs
  | callPop =>
    simp only [step, callPop] at hs
    split at hs
    · rename_i hready
      cases hs
      exact h.setConsumer (.loadProducer .first) (by rw [hready]; rfl) rfl rfl
    · cases hs
  | consumerTimeout =>
    simp only [step, consumerTimeout] at hs
    split at hs
    · rename_i hwait
      cases hs
      exact h.setConsumer (.ready (some .timeout)) (by rw [hwait]; rfl) rfl rfl
    · cases hs
  | closeFlag =>
    simp only [step, closeFlag, Option.some.injEq] at hs
    subst hs
    exact { h with }
  | closeNotifyData =>
    simp only [step, closeNotifyData] at hs
    split at hs <;> cases hs
    exact { h with }
  | closeNotifySpace =>
    simp only [step, closeNotifySpace] at hs
    split at hs <;> cases hs
    exact { h with }

/-- Every run keeps the two histories together. -/
theorem tied_exec (h : Tied stored₀ taken₀ s calls) {as : List Act} {seen : Calls}
    (hrun : (watched cfg).exec (s, calls) as = some (t, seen)) :
    Tied stored₀ taken₀ t seen := by
  refine Machine.invariant_exec (I := fun state => Tied stored₀ taken₀ state.1 state.2) ?_ h hrun
  intro state a next htied hs
  obtain ⟨hstep, hsee⟩ := Machine.step_of_observed hs
  rw [hsee]
  exact tied_step htied hstep

/-- In every state that the callers reach, the histories are those of the calls. -/
theorem tied_of_reachable (h : (watched cfg).Reachable (s, calls)) : Tied [] [] s calls := by
  refine h.invariant (I := fun state => Tied [] [] state.1 state.2) tied_init ?_
  intro state a next htied _ hs
  obtain ⟨hstep, hsee⟩ := Machine.step_of_observed hs
  rw [hsee]
  exact tied_step htied hstep

end

end Wmfs.Ring
