import Wmfs.Ring.Fifo

/-!
# `Wmfs.Ring.Wakeup`: parked endpoints of the native ring

`RingProducer::push` parks in `wait_event` on the space eventfd after two failed attempts
with a drain between them. `RingConsumer::pop` parks on the data eventfd in the same way.
The producer writes the data eventfd after every publication, so a parked consumer with an
unread record always has a notification on its way (`dataOk_step`).

The consumer writes the space eventfd only when the counters that it loaded before its
copy were `capacity` apart. The producer can fill the ring between that load and the
consumer's store. It then finds the ring full twice, parks with the space eventfd at
zero, and the store that frees a slot writes nothing. `lostSpaceWakeup_reachable` builds
this run for every capacity from 2 on. With capacity 1 a pop always sees the ring full.

`SawFull` names the branch that is safe: a pop whose store frees a slot of a full ring
loaded its counters when the ring was already full. In runs whose steps all satisfy it, no
wakeup is lost.
-/

set_option autoImplicit false

namespace Wmfs.Ring

open Wmfs.Lib

/-- The consumer has begun a pop that will still write the space eventfd. -/
def SpaceNotifyPending (cfg : Config) (s : State) : Prop :=
  match s.consumer with
  | .copy _ producer consumer _ _ => notifiesSpace cfg producer consumer = true
  | .notify => True
  | _ => False

/-- The producer has begun a push that will still write the data eventfd. -/
def DataNotifyPending (s : State) : Prop :=
  match s.producer with
  | .copy _ _ _ _ => True
  | .notify => True
  | _ => False

/-- The producer is parked with the space eventfd at zero although a slot is free, and no
write of the space eventfd is on its way. -/
def LostSpaceWakeup (cfg : Config) (s : State) : Prop :=
  (∃ record, s.producer = .wait record) ∧ s.spaceFd = 0 ∧
    s.header.producer - s.header.consumer < cfg.capacity ∧ ¬ SpaceNotifyPending cfg s

/-- The consumer is parked with the data eventfd at zero although a record is unread, and no
write of the data eventfd is on its way. -/
def LostDataWakeup (s : State) : Prop :=
  s.consumer = .wait ∧ s.dataFd = 0 ∧ s.header.producer ≠ s.header.consumer ∧
    ¬ DataNotifyPending s

/-- No wakeup is lost in the state `s`. -/
def NoLostWakeup (cfg : Config) (s : State) : Prop :=
  ¬ LostSpaceWakeup cfg s ∧ ¬ LostDataWakeup s

/-- A consumer step that stores `consumer + 1` while the ring is full belongs to a pop that
loaded its counters when the ring was already full. -/
def SawFull (cfg : Config) (s : State) (a : Act) : Prop :=
  a = .consumer → ∀ attempt producer consumer copied buffer,
    s.consumer = .copy attempt producer consumer copied buffer → ¬ copied < RECORD_SIZE →
    s.header.producer - s.header.consumer = cfg.capacity →
    producer - consumer = cfg.capacity

/-- The same ring with native endpoints on both sides. -/
def Config.native (cfg : Config) : Config := { cfg with producer := .native, consumer := .native }

/-! ### The invariant of parked endpoints -/

/-- What a producer that found the ring full after its drain relies on: the ring is still
full, or a notification is due, or it has arrived. -/
def SpaceOk (cfg : Config) (s : State) : Prop :=
  s.header.producer - s.header.consumer = cfg.capacity ∨ s.consumer = .notify ∨ s.spaceFd ≠ 0

/-- What a consumer that loaded the producer counter `seen` after its drain relies on: the
counter is still `seen`, or a notification is due, or it has arrived. -/
def DataOk (seen : Nat) (s : State) : Prop :=
  s.header.producer = seen ∨ s.producer = .notify ∨ s.dataFd ≠ 0

/-- The producer relies on `SpaceOk` from its second failed attempt on. That attempt also
fails when the ring is closed, but then the closed check that follows returns. -/
structure SpaceInv (cfg : Config) (s : State) : Prop where
  wait : ∀ record, s.producer = .wait record → SpaceOk cfg s
  recheck : ∀ record, s.producer = .recheck .second record →
    s.header.closed = true ∨ SpaceOk cfg s

/-- The consumer relies on `DataOk` from the first load of its second attempt on. -/
structure DataInv (s : State) : Prop where
  load : ∀ seen, s.consumer = .loadConsumer .second seen → DataOk seen s
  recheck : s.consumer = .recheck .second → DataOk s.header.consumer s
  wait : s.consumer = .wait → DataOk s.header.consumer s

/-- A written eventfd is nonzero. -/
theorem eventfdWrite_ne_zero (count : Nat) : eventfdWrite count ≠ 0 := by
  unfold eventfdWrite
  split <;> omega

section
variable {cfg : Config} {s t : State}

/-- A step that changes neither the header, nor the space eventfd, nor whether the consumer
is about to notify keeps `SpaceOk`. -/
theorem SpaceOk.of_eq (h : SpaceOk cfg s) (hheader : t.header = s.header)
    (hfd : t.spaceFd = s.spaceFd) (hpc : s.consumer = .notify → t.consumer = .notify) :
    SpaceOk cfg t := by
  rcases h with h | h | h
  · exact Or.inl (by rw [hheader]; exact h)
  · exact Or.inr (Or.inl (hpc h))
  · exact Or.inr (Or.inr (by rw [hfd]; exact h))

/-- A step that changes neither the counters, nor the data eventfd, nor whether the producer
is about to notify keeps `DataOk`. -/
theorem DataOk.of_eq {seen : Nat} (h : DataOk seen s) (hheader : t.header = s.header)
    (hfd : t.dataFd = s.dataFd) (hpc : s.producer = .notify → t.producer = .notify) :
    DataOk seen t := by
  rcases h with h | h | h
  · exact Or.inl (by rw [hheader]; exact h)
  · exact Or.inr (Or.inl (hpc h))
  · exact Or.inr (Or.inr (by rw [hfd]; exact h))

/-- The consumer keeps `SpaceOk` when its pops see the full ring. -/
theorem spaceOk_consumerStep (hnative : cfg.consumer = .native)
    (hsaw : SawFull cfg s .consumer) (hs : consumerStep cfg s = some t)
    (h : SpaceOk cfg s) : SpaceOk cfg t := by
  cases hpc : s.consumer with
  | copy attempt producer consumer copied buffer =>
    have hno : s.consumer = .notify → t.consumer = .notify := by simp [hpc]
    simp only [consumerStep, hpc] at hs
    split at hs
    · cases hs
      exact h.of_eq rfl rfl hno
    · rename_i hdone
      split at hs
      · cases hs
        exact h.of_eq rfl rfl hno
      · cases hs
        rcases h with h | h | h
        · -- The store frees a slot of a full ring, so a notification follows.
          have hfull := hsaw rfl attempt producer consumer copied buffer hpc hdone h
          refine Or.inr (Or.inl ?_)
          simp [notifiesSpace, hnative, hfull]
        · rw [hpc] at h
          cases h
        · exact Or.inr (Or.inr h)
  | notify =>
    simp only [consumerStep, hpc, Option.some.injEq] at hs
    -- The notification that was due arrives.
    subst hs
    exact Or.inr (Or.inr (eventfdWrite_ne_zero _))
  | _ =>
    have hno : s.consumer = .notify → t.consumer = .notify := by simp [hpc]
    simp only [consumerStep, hpc] at hs
    repeat' split at hs
    all_goals
      cases hs
      try exact h.of_eq rfl rfl hno

/-- Every step of a party other than the producer keeps `SpaceOk`. -/
theorem spaceOk_step (hnative : cfg.consumer = .native) {a : Act}
    (hsaw : SawFull cfg s a) (hs : step cfg s a = some t) (hother : a ≠ .producer)
    (h : SpaceOk cfg s) : SpaceOk cfg t := by
  cases a with
  | producer => exact absurd rfl hother
  | consumer => exact spaceOk_consumerStep hnative hsaw hs h
  | closeNotifySpace =>
    simp only [step, closeNotifySpace] at hs
    split at hs <;> cases hs
    exact Or.inr (Or.inr (eventfdWrite_ne_zero _))
  | callTryPop =>
    simp only [step, callTryPop] at hs
    split at hs <;> cases hs
    rename_i hpc _
    exact h.of_eq rfl rfl (by simp [hpc])
  | callPop =>
    simp only [step, callPop] at hs
    split at hs <;> cases hs
    rename_i hpc
    exact h.of_eq rfl rfl (by simp [hpc])
  | consumerTimeout =>
    simp only [step, consumerTimeout] at hs
    split at hs <;> cases hs
    rename_i hpc
    exact h.of_eq rfl rfl (by simp [hpc])
  | _ =>
    simp only [step, callTryPush, callPush, producerTimeout, closeFlag, closeNotifyData] at hs
    repeat' split at hs
    all_goals
      cases hs
      try exact h

/-- The producer keeps `DataOk`: it writes the data eventfd after every publication. -/
theorem dataOk_producerStep {seen : Nat} (hs : producerStep cfg s = some t)
    (h : DataOk seen s) : DataOk seen t := by
  cases hpc : s.producer with
  | copy attempt record producer copied =>
    have hno : s.producer = .notify → t.producer = .notify := by simp [hpc]
    simp only [producerStep, hpc] at hs
    split at hs
    · cases hs
      exact h.of_eq rfl rfl hno
    -- The store changes the counter, and the notification is due at once.
    · cases hs
      exact Or.inr (Or.inl rfl)
  | notify =>
    simp only [producerStep, hpc, Option.some.injEq] at hs
    subst hs
    exact Or.inr (Or.inr (eventfdWrite_ne_zero _))
  | _ =>
    have hno : s.producer = .notify → t.producer = .notify := by simp [hpc]
    simp only [producerStep, hpc] at hs
    repeat' split at hs
    all_goals
      cases hs
      try exact h.of_eq rfl rfl hno

/-- Every step of a party other than the consumer keeps `DataOk`. -/
theorem dataOk_step {seen : Nat} {a : Act} (hs : step cfg s a = some t)
    (hother : a ≠ .consumer) (h : DataOk seen s) : DataOk seen t := by
  cases a with
  | consumer => exact absurd rfl hother
  | producer =>
    have hs' : producerStep cfg s = some t := hs
    exact dataOk_producerStep hs' h
  | closeNotifyData =>
    simp only [step, closeNotifyData] at hs
    split at hs <;> cases hs
    exact Or.inr (Or.inr (eventfdWrite_ne_zero _))
  | callTryPush record =>
    simp only [step, callTryPush] at hs
    split at hs <;> cases hs
    rename_i hpc _
    exact h.of_eq rfl rfl (by simp [hpc])
  | callPush record =>
    simp only [step, callPush] at hs
    split at hs <;> cases hs
    all_goals
      rename_i hpc _
      exact h.of_eq rfl rfl (by simp [hpc])
  | producerTimeout =>
    simp only [step, producerTimeout] at hs
    split at hs <;> cases hs
    rename_i hpc
    exact h.of_eq rfl rfl (by simp [hpc])
  | _ =>
    simp only [step, callTryPop, callPop, consumerTimeout, closeFlag, closeNotifySpace] at hs
    repeat' split at hs
    all_goals
      cases hs
      try exact h

/-! ### Where a parked endpoint came from -/

/-- Steps other than the producer's do not move the producer to a point inside a push. -/
theorem producer_eq_of_ne {a : Act} (hs : step cfg s a = some t) (hother : a ≠ .producer) :
    t.producer = s.producer ∨ (∃ last, t.producer = .ready last) ∨
      (∃ attempt record, t.producer = .enter attempt record) ∨
      ∃ attempt record, t.producer = .loadProducer attempt record := by
  cases a with
  | producer => exact absurd rfl hother
  | consumer =>
    simp only [step, consumerStep] at hs
    repeat' split at hs
    all_goals first | cases hs; exact Or.inl rfl | cases hs
  | _ =>
    simp only [step, callTryPush, callPush, producerTimeout, callTryPop, callPop,
      consumerTimeout, closeFlag, closeNotifyData, closeNotifySpace] at hs
    repeat' split at hs
    all_goals
      cases hs
      try simp

/-- Steps other than the consumer's leave its counter alone, and do not move it to a point
inside a pop. -/
theorem consumer_eq_of_ne {a : Act} (hs : step cfg s a = some t) (hother : a ≠ .consumer) :
    t.header.consumer = s.header.consumer ∧ (t.consumer = s.consumer ∨
      (∃ last, t.consumer = .ready last) ∨ ∃ attempt, t.consumer = .loadProducer attempt) := by
  cases a with
  | consumer => exact absurd rfl hother
  | producer =>
    simp only [step, producerStep] at hs
    repeat' split at hs
    all_goals first | cases hs; exact ⟨rfl, Or.inl rfl⟩ | cases hs
  | _ =>
    simp only [step, callTryPush, callPush, producerTimeout, callTryPop, callPop,
      consumerTimeout, closeFlag, closeNotifyData, closeNotifySpace] at hs
    repeat' split at hs
    all_goals
      cases hs
      try simp

/-- A native producer parks right after the closed check that follows its second attempt. -/
theorem producerStep_wait (hnative : cfg.producer = .native) (hs : producerStep cfg s = some t)
    {record : Record} (hw : t.producer = .wait record) :
    s.producer = .recheck .second record ∧ s.header.closed = false ∧
      t = { s with producer := .wait record } := by
  cases hpc : s.producer with
  | recheck attempt record' =>
    simp only [producerStep, hpc, Option.some.injEq] at hs
    subst hs
    cases hclosed : s.header.closed <;> cases attempt <;>
      simp_all [recheckPush]
  | loadConsumer attempt record' producer =>
    simp only [producerStep, hpc, Option.some.injEq] at hs
    subst hs
    simp only [checkPush, hnative, failedPush] at hw
    repeat' split at hw
    all_goals cases hw
  | enter attempt record' =>
    simp only [producerStep, hpc, failedPush] at hs
    repeat' split at hs
    all_goals
      cases hs
      cases hw
  | _ =>
    simp only [producerStep, hpc] at hs
    repeat' split at hs
    all_goals
      cases hs
      try cases hw

/-- The second attempt of a native push fails on a closed ring or on a full one. -/
theorem producerStep_recheck (hnative : cfg.producer = .native) (hinv : Inv cfg s)
    (hs : producerStep cfg s = some t) {record : Record}
    (hw : t.producer = .recheck .second record) :
    t.header = s.header ∧
      (s.header.closed = true ∨ s.header.producer - s.header.consumer = cfg.capacity) := by
  cases hpc : s.producer with
  | loadConsumer attempt record' producer =>
    have hpo := hinv.producerOk
    rw [hpc] at hpo
    obtain ⟨-, rfl⟩ := hpo
    simp only [producerStep, hpc, Option.some.injEq] at hs
    subst hs
    simp only [checkPush, hnative] at hw
    split at hw
    · cases hw
    · split at hw
      · rename_i hfull
        exact ⟨rfl, Or.inr hfull⟩
      · split at hw <;> cases hw
  | enter attempt record' =>
    simp only [producerStep, hpc] at hs
    split at hs
    · rename_i hclosed
      cases hs
      exact ⟨rfl, Or.inl hclosed⟩
    · split at hs <;> cases hs <;> cases hw
  | recheck attempt record' =>
    simp only [producerStep, hpc, Option.some.injEq, recheckPush, hnative] at hs
    subst hs
    simp only at hw
    split at hw <;> cases hw
  | _ =>
    simp only [producerStep, hpc] at hs
    repeat' split at hs
    all_goals
      cases hs
      try cases hw

/-- The points of a pop from the first load of its second attempt to the wait. -/
def ConsumerPc.late : ConsumerPc → Bool
  | .loadConsumer .second _ => true
  | .recheck .second => true
  | .wait => true
  | _ => false

/-- A consumer step to one of these points starts where an attempt loads or where the closed
flag is checked. -/
theorem consumerStep_late (hs : consumerStep cfg s = some t) (hlate : t.consumer.late = true) :
    (∃ attempt, s.consumer = .loadProducer attempt) ∨
      (∃ attempt producer, s.consumer = .loadConsumer attempt producer) ∨
      ∃ attempt, s.consumer = .recheck attempt := by
  cases hpc : s.consumer with
  | loadProducer attempt => exact Or.inl ⟨attempt, rfl⟩
  | loadConsumer attempt producer => exact Or.inr (Or.inl ⟨attempt, producer, rfl⟩)
  | recheck attempt => exact Or.inr (Or.inr ⟨attempt, rfl⟩)
  | copy attempt producer consumer copied buffer =>
    simp only [consumerStep, hpc] at hs
    split at hs
    · cases hs
      cases hlate
    · split at hs
      · cases hs
        cases hlate
      · cases hs
        -- A pop that has stored is over, or it notifies.
        simp only at hlate
        split at hlate <;> cases hlate
  | _ =>
    simp only [consumerStep, hpc] at hs
    repeat' split at hs
    all_goals
      cases hs
      try cases hlate

/-- A native consumer parks right after the closed check that follows its second attempt. -/
theorem consumerStep_wait (hnative : cfg.consumer = .native) (hs : consumerStep cfg s = some t)
    (hw : t.consumer = .wait) :
    s.consumer = .recheck .second ∧ t = { s with consumer := .wait } := by
  rcases consumerStep_late hs (by rw [hw]; rfl) with
    ⟨attempt, hpc⟩ | ⟨attempt, producer, hpc⟩ | ⟨attempt, hpc⟩
  · simp only [consumerStep, hpc, Option.some.injEq] at hs
    subst hs
    cases hw
  · simp only [consumerStep, hpc, Option.some.injEq] at hs
    subst hs
    simp only [checkPop, hnative, failedPop] at hw
    repeat' split at hw
    all_goals cases hw
  · simp only [consumerStep, hpc, Option.some.injEq] at hs
    subst hs
    cases hclosed : s.header.closed <;> cases attempt <;> simp_all [recheckPop]

/-- The second attempt of a native pop fails when the loaded producer counter is the
consumer counter. -/
theorem consumerStep_recheck (hnative : cfg.consumer = .native)
    (hs : consumerStep cfg s = some t) (hw : t.consumer = .recheck .second) :
    s.consumer = .loadConsumer .second s.header.consumer ∧
      t = { s with consumer := .recheck .second } := by
  rcases consumerStep_late hs (by rw [hw]; rfl) with
    ⟨attempt, hpc⟩ | ⟨attempt, producer, hpc⟩ | ⟨attempt, hpc⟩
  · simp only [consumerStep, hpc, Option.some.injEq] at hs
    subst hs
    cases hw
  · simp only [consumerStep, hpc, Option.some.injEq] at hs
    subst hs
    simp only [checkPop, hnative] at hw ⊢
    split at hw
    · cases hw
    · split at hw
      · rename_i hempty
        subst hempty
        cases attempt <;> simp_all [failedPop]
      · split at hw <;> cases hw
  · simp only [consumerStep, hpc, Option.some.injEq, recheckPop, hnative] at hs
    subst hs
    simp only at hw
    split at hw <;> cases hw

/-- The second attempt of a pop starts from the current producer counter. -/
theorem consumerStep_load (hnative : cfg.consumer = .native)
    (hs : consumerStep cfg s = some t) {seen : Nat}
    (hw : t.consumer = .loadConsumer .second seen) :
    t.header = s.header ∧ seen = s.header.producer := by
  rcases consumerStep_late hs (by rw [hw]; rfl) with
    ⟨attempt, hpc⟩ | ⟨attempt, producer, hpc⟩ | ⟨attempt, hpc⟩
  · simp only [consumerStep, hpc, Option.some.injEq] at hs
    subst hs
    cases hw
    exact ⟨rfl, rfl⟩
  · simp only [consumerStep, hpc, Option.some.injEq] at hs
    subst hs
    simp only [checkPop, hnative, failedPop] at hw
    repeat' split at hw
    all_goals cases hw
  · simp only [consumerStep, hpc, Option.some.injEq, recheckPop, hnative] at hs
    subst hs
    simp only at hw
    split at hw <;> cases hw

/-! ### What one step preserves -/

/-- The closed flag is never cleared. -/
theorem closed_step {a : Act} (hs : step cfg s a = some t) (h : s.header.closed = true) :
    t.header.closed = true := by
  cases a with
  | producer =>
    simp only [step, producerStep] at hs
    repeat' split at hs
    all_goals first | cases hs; exact h | cases hs
  | consumer =>
    simp only [step, consumerStep] at hs
    repeat' split at hs
    all_goals first | cases hs; exact h | cases hs
  | closeFlag =>
    simp only [step, closeFlag, Option.some.injEq] at hs
    subst hs
    rfl
  | _ =>
    simp only [step, callTryPush, callPush, producerTimeout, callTryPop, callPop,
      consumerTimeout, closeNotifyData, closeNotifySpace] at hs
    repeat' split at hs
    all_goals first | cases hs; exact h | cases hs

/-- Steps that satisfy `SawFull` preserve the producer's invariant. -/
theorem spaceInv_step (hproducer : cfg.producer = .native) (hconsumer : cfg.consumer = .native)
    (hinv : Inv cfg s) (h : SpaceInv cfg s) {a : Act} (hsaw : SawFull cfg s a)
    (hs : step cfg s a = some t) : SpaceInv cfg t := by
  by_cases ha : a = .producer
  · subst ha
    have hs' : producerStep cfg s = some t := hs
    refine ⟨fun record hw => ?_, fun record hw => ?_⟩
    · obtain ⟨hpc, hopen, rfl⟩ := producerStep_wait hproducer hs' hw
      -- The producer parks only when the closed check has found the ring open.
      rcases h.recheck record hpc with hclosed | hok
      · rw [hopen] at hclosed
        cases hclosed
      · exact hok.of_eq rfl rfl id
    -- The second attempt failed just now: the ring is closed, or it is full.
    · obtain ⟨hheader, hwhy⟩ := producerStep_recheck hproducer hinv hs' hw
      unfold SpaceOk
      rw [hheader]
      exact hwhy.imp id Or.inl
  -- The other parties keep what the producer relies on.
  · have hpc := producer_eq_of_ne hs ha
    refine ⟨fun record hw => ?_, fun record hw => ?_⟩
    · have hold : s.producer = .wait record := by simpa [hw, eq_comm] using hpc
      exact spaceOk_step hconsumer hsaw hs ha (h.wait record hold)
    · have hold : s.producer = .recheck .second record := by simpa [hw, eq_comm] using hpc
      rcases h.recheck record hold with hclosed | hok
      · exact Or.inl (closed_step hs hclosed)
      · exact Or.inr (spaceOk_step hconsumer hsaw hs ha hok)

/-- Every step preserves the consumer's invariant. -/
theorem dataInv_step (hconsumer : cfg.consumer = .native) (h : DataInv s) {a : Act}
    (hs : step cfg s a = some t) : DataInv t := by
  by_cases ha : a = .consumer
  · subst ha
    have hs' : consumerStep cfg s = some t := hs
    refine ⟨fun seen hw => ?_, fun hw => ?_, fun hw => ?_⟩
    -- The counter has been loaded just now.
    · obtain ⟨hheader, rfl⟩ := consumerStep_load hconsumer hs' hw
      exact Or.inl (by rw [hheader])
    -- The attempt found the loaded counter equal to its own one.
    · obtain ⟨hpc, rfl⟩ := consumerStep_recheck hconsumer hs' hw
      exact (h.load _ hpc).of_eq rfl rfl id
    · obtain ⟨hpc, rfl⟩ := consumerStep_wait hconsumer hs' hw
      exact (h.recheck hpc).of_eq rfl rfl id
  · obtain ⟨hcounter, hpc⟩ := consumer_eq_of_ne hs ha
    refine ⟨fun seen hw => ?_, fun hw => ?_, fun hw => ?_⟩
    · have hold : s.consumer = .loadConsumer .second seen := by simpa [hw, eq_comm] using hpc
      exact dataOk_step hs ha (h.load seen hold)
    · have hold : s.consumer = .recheck .second := by simpa [hw, eq_comm] using hpc
      rw [hcounter]
      exact dataOk_step hs ha (h.recheck hold)
    · have hold : s.consumer = .wait := by simpa [hw, eq_comm] using hpc
      rw [hcounter]
      exact dataOk_step hs ha (h.wait hold)

/-- The producer's invariant excludes a lost space wakeup. -/
theorem SpaceInv.not_lost (h : SpaceInv cfg s) : ¬ LostSpaceWakeup cfg s := by
  rintro ⟨⟨record, hpc⟩, hfd, hspace, hnone⟩
  rcases h.wait record hpc with hfull | hnotify | hready
  · omega
  · exact hnone (by simp [SpaceNotifyPending, hnotify])
  · exact hready hfd

/-- The consumer's invariant excludes a lost data wakeup. -/
theorem DataInv.not_lost (h : DataInv s) : ¬ LostDataWakeup s := by
  rintro ⟨hpc, hfd, hunread, hnone⟩
  rcases h.wait hpc with hempty | hnotify | hready
  · exact hunread hempty
  · exact hnone (by simp [DataNotifyPending, hnotify])
  · exact hready hfd

/-- With one slot, a pop that stores while the ring is full has seen it full: the two
counters that it loaded differ, and at most one record is ever unread. -/
theorem sawFull_of_capacity_one (hone : cfg.capacity = 1) (hinv : Inv cfg s) (a : Act) :
    SawFull cfg s a := by
  intro _ attempt producer consumer copied buffer hpc _ hfull
  have hco := hinv.consumerOk
  rw [hpc] at hco
  -- `consumer < producer ≤ consumer + 1` for the loaded counters.
  obtain ⟨rfl, hlt, hle, -⟩ := hco
  omega

end

/-! ### Runs -/

section
variable {cfg : Config} {s : State}

/-- In every run of a native ring, no data wakeup is lost. -/
theorem not_lostData_of_reachable (hconsumer : cfg.consumer = .native)
    (h : (machine cfg).Reachable s) : ¬ LostDataWakeup s := by
  have hinit : DataInv init := by constructor <;> simp [init]
  have hdata : DataInv s := h.invariant (I := DataInv) hinit fun _ _ _ hdata _ hs =>
    dataInv_step hconsumer hdata hs
  exact hdata.not_lost

/-- In every run of a native ring whose pops see the full ring, no space wakeup is lost. -/
theorem not_lostSpace_of_sawFull (hproducer : cfg.producer = .native)
    (hconsumer : cfg.consumer = .native) (h : (machine cfg).Reach (SawFull cfg) s) :
    ¬ LostSpaceWakeup cfg s := by
  have hinit : SpaceInv cfg init := by constructor <;> simp [init]
  refine SpaceInv.not_lost (h.invariant_of_reach (I := SpaceInv cfg) hinit ?_)
  intro u a v hreach hspace hsaw hs
  have hreach' := hreach.reachable
  have hinv := inv_of_reachable hreach' (native_published_lt hproducer hreach')
  exact spaceInv_step hproducer hconsumer hinv hspace hsaw hs

/-- With one slot, every run is one whose pops see the full ring. -/
theorem reach_sawFull_of_capacity_one (hproducer : cfg.producer = .native)
    (hone : cfg.capacity = 1) (h : (machine cfg).Reachable s) :
    (machine cfg).Reach (SawFull cfg) s := by
  induction h with
  | start => exact .start
  -- The condition on the step follows from the invariant of its source.
  | @next u v a hreach _ hs ih =>
    have hinv := inv_of_reachable hreach (native_published_lt hproducer hreach)
    exact ih.next (sawFull_of_capacity_one hone hinv a) hs

end

/-! ### The run that loses a wakeup -/

section
variable {cfg : Config} {s : State}

/-- A push into a full open native ring drains the space eventfd and parks. -/
theorem exec_park (hnative : cfg.producer = .native) {last : Option Outcome}
    (hready : s.producer = .ready last) (hopen : s.header.closed = false) {record : Record}
    (hrecord : validateRecordGeneration record cfg.generation = .ok ())
    (hfull : s.header.producer = s.header.consumer + cfg.capacity) :
    (machine cfg).exec s (.callPush record :: List.replicate 9 .producer) =
      some { s with spaceFd := 0, producer := .wait record } := by
  have hcounters : validateCounters cfg.capacity s.header.producer s.header.consumer = .ok () :=
    validateCounters_ok (by omega) hfull.le
  have hdist : s.header.producer - s.header.consumer = cfg.capacity := by omega
  simp only [List.replicate_succ, List.replicate_zero, Machine.exec, machine, step, callPush,
    hready, hnative, Option.bind_some, producerStep, hopen, Bool.false_eq_true, if_false,
    hrecord, checkPush, hcounters, hdist, if_true, failedPush, recheckPush]

/-- A native ring can be filled to any level. -/
theorem reachable_filled (hnative : cfg.producer = .native) (n : Nat) (hn : n ≤ cfg.capacity) :
    ∃ t, (machine cfg).Reachable t ∧ t.header = ⟨n, 0, false⟩ ∧ t.spaceFd = 0 ∧
      t.consumer = .ready none ∧ ∃ last, t.producer = .ready last := by
  induction n with
  | zero => exact ⟨init, .start, rfl, rfl, rfl, none, rfl⟩
  | succ n ih =>
    obtain ⟨t, hreach, hheader, hfd, hcons, last, hprod⟩ := ih (by omega)
    have hcap := cfg.capacity_lt
    obtain ⟨as, slots, hrun⟩ := exec_push hnative hprod (by rw [hheader])
      (validateRecordGeneration_blank cfg.generation cfg.generation_lt)
      (by rw [hheader]; simp) (by rw [hheader]; simp; omega)
      (by rw [hheader]; simp only [UINT64_MAX]; omega)
    refine ⟨_, hreach.exec (fun _ _ _ => trivial) hrun, ?_, hfd, hcons, _, rfl⟩
    simp [hheader]

/-- A `try_pop` of a ring with `n` records and no pop before it copies the oldest record,
and remembers that it saw `n` records. -/
theorem exec_tryPop_copied (hnative : cfg.consumer = .native) {last : Option Outcome}
    (hready : s.consumer = .ready last) {n : Nat} (hheader : s.header = ⟨n, 0, false⟩)
    (hpos : 0 < n) (hn : n ≤ cfg.capacity) :
    ∃ as buffer, (machine cfg).exec s as =
      some { s with consumer := .copy .only n 0 RECORD_SIZE buffer } := by
  have hstart : (machine cfg).exec s [.callTryPop, .consumer, .consumer] =
      some { s with consumer := .copy .only n 0 0 fun _ => 0 } := by
    simp only [Machine.exec, machine, step, callTryPop, hready, hnative, Option.bind_some,
      consumerStep, hheader, checkPop,
      validateCounters_ok (Nat.zero_le n) (show n ≤ 0 + cfg.capacity by omega)]
    rw [if_neg (by omega), if_neg (by unfold UINT64_MAX; omega)]
  obtain ⟨buffer, hcopy⟩ := exec_readBytes cfg s .only n 0 RECORD_SIZE 0 (fun _ => 0)
    (Nat.zero_add _)
  exact ⟨_, buffer, Machine.exec_trans hstart hcopy⟩

/-- For every capacity from 2 on, a run of the native ring loses a space wakeup. The
consumer has copied a record after loading counters `capacity - 1` apart. The producer then
fills the ring and parks. -/
theorem lostSpaceWakeup_reachable (hproducer : cfg.producer = .native)
    (hconsumer : cfg.consumer = .native) (htwo : 2 ≤ cfg.capacity) :
    ∃ t, (machine cfg).Reachable t ∧ LostSpaceWakeup cfg t := by
  have hblank := validateRecordGeneration_blank cfg.generation cfg.generation_lt
  have hcap := cfg.capacity_lt
  -- The consumer loads its counters and copies when one slot is free.
  obtain ⟨s, hreach, hheader, hfd, hcons, last, hprod⟩ :=
    reachable_filled hproducer (cfg.capacity - 1) (by omega)
  obtain ⟨pops, buffer, hpop⟩ := exec_tryPop_copied hconsumer hcons hheader (by omega) (by omega)
  have hreach₁ := hreach.exec (fun _ _ _ => trivial) hpop
  -- The consumer stays in the middle of its pop while the producer fills the last slot.
  obtain ⟨pushes, slots, hpush⟩ := exec_push
    (s := { s with consumer := .copy .only (cfg.capacity - 1) 0 RECORD_SIZE buffer })
    hproducer hprod (by simp [hheader]) hblank (by simp [hheader])
    (by simp only [hheader]; omega) (by simp only [hheader, UINT64_MAX]; omega)
  have hreach₂ := hreach₁.exec (fun _ _ _ => trivial) hpush
  -- The next push finds the ring full twice and parks.
  have hpark := exec_park hproducer
    (s := { s with
      header := { s.header with producer := s.header.producer + 1 }
      slots := slots
      dataFd := eventfdWrite s.dataFd
      producer := .ready (some .success)
      consumer := .copy .only (cfg.capacity - 1) 0 RECORD_SIZE buffer
      published := s.published ++ [Record.blank cfg.generation] })
    rfl (by simp [hheader]) hblank (by simp only [hheader]; omega)
  have hreach₃ := hreach₂.exec (fun _ _ _ => trivial) hpark
  -- The copied record is one that the producer validated, so the pop stores.
  have hinv := inv_of_reachable hreach₃ (native_published_lt hproducer hreach₃)
  have hcheck : cfg.checkPopped buffer = .ok () := by
    refine checkPopped_ok_of_native hinv hproducer hconsumer ?_
    exact List.mem_of_getElem? (buffer_eq_published hinv rfl (Nat.lt_irrefl _))
  -- The pop did not see the ring full, so that it does not notify.
  have hquiet : notifiesSpace cfg (cfg.capacity - 1) 0 = false := by
    simp only [notifiesSpace, hconsumer, decide_eq_false_iff_not]
    omega
  refine ⟨_, hreach₃.next trivial (a := .consumer) (t := ?_) ?_, ?_⟩
  · exact { s with
      header := { s.header with producer := s.header.producer + 1, consumer := 1 }
      slots := slots
      dataFd := eventfdWrite s.dataFd
      spaceFd := 0
      producer := .wait (Record.blank cfg.generation)
      consumer := .ready (some .success)
      published := s.published ++ [Record.blank cfg.generation]
      popped := s.popped ++ [buffer] }
  · simp only [machine, step, consumerStep, Nat.lt_irrefl, dite_false, hcheck, hquiet,
      Bool.false_eq_true, if_false]
    rfl
  · refine ⟨⟨_, rfl⟩, rfl, ?_, ?_⟩
    · simp only [hheader]
      omega
    · simp [SpaceNotifyPending]

end

/-! ### When no wakeup is lost -/

/-- The native ring never loses a data wakeup. It never loses a space wakeup exactly when it
has one slot. With more slots, no wakeup is lost in the runs in which every pop that stores
into a full ring has seen it full. -/
theorem noLostWakeup_iff (cfg : Config) :
    (∀ s, (machine cfg.native).Reachable s → ¬ LostDataWakeup s) ∧
    ((∀ s, (machine cfg.native).Reachable s → NoLostWakeup cfg.native s) ↔ cfg.capacity = 1) ∧
    ∀ s, (machine cfg.native).Reach (SawFull cfg.native) s → NoLostWakeup cfg.native s := by
  have hdata : ∀ s, (machine cfg.native).Reachable s → ¬ LostDataWakeup s := fun s h =>
    not_lostData_of_reachable rfl h
  have hsaw : ∀ s, (machine cfg.native).Reach (SawFull cfg.native) s →
      NoLostWakeup cfg.native s := fun s h =>
    ⟨not_lostSpace_of_sawFull rfl rfl h, hdata s h.reachable⟩
  refine ⟨hdata, ⟨fun hall => ?_, fun hone s h => ?_⟩, hsaw⟩
  · by_contra hne
    have htwo : 2 ≤ cfg.native.capacity := by
      have hpos := cfg.capacity_pos
      show 2 ≤ cfg.capacity
      omega
    obtain ⟨t, hreach, hlost⟩ := lostSpaceWakeup_reachable rfl rfl htwo
    exact (hall t hreach).1 hlost
  · exact hsaw s (reach_sawFull_of_capacity_one rfl hone h)

/-- The native ring of two slots loses a wakeup. -/
theorem ringOfTwo_loses_wakeup :
    ∃ s, (machine ringOfTwo).Reachable s ∧ ¬ NoLostWakeup ringOfTwo s := by
  have htwo : 2 ≤ ringOfTwo.capacity := by decide
  obtain ⟨t, hreach, hlost⟩ := lostSpaceWakeup_reachable rfl rfl htwo
  exact ⟨t, hreach, fun hno => hno.1 hlost⟩

end Wmfs.Ring
