import Wmfs.Log.Logger

/-!
# `Wmfs.Log.Accounting`: what becomes of the records of a logger

Every call of `log` at an enabled level should end as a delivered record or in the drop count of a
synthetic one, and the numbers of the records should rise. `Law` says this of a state in the
middle of a run. `Kept` is the condition under which a step keeps the law, and `law_iff` shows that
it is exact: the first step that does not meet it leaves a state without the law.

Three places of the source break the law. `bind` copies the two integers, so the drops of a copy
are never reported, and the copies give the same numbers twice. The `except` clause of
`AsyncLogger._send` adds `dropped + 1` when the record fails behind its report, so that drop count
is reported again. The one of `InProcessLogger._run` adds nothing.
-/

set_option autoImplicit false

namespace Wmfs.Log.Logger

open Wmfs.Lib

/-! ### The law -/

/-- The records that the sender has in hand. -/
def Sender.inHand : Sender → Nat
  | .waiting => 0
  | .reporting _ _ => 1
  | .delivering _ _ => 1
  | .failed _ => 0

/-- The drops that the sender has taken over and has not reported. -/
def Sender.pending : Sender → Nat
  | .waiting => 0
  | .reporting _ dropped => dropped
  | .delivering _ _ => 0
  | .failed lost => lost

/-- The drops that the sender has reported in front of the record in hand. -/
def Sender.reported : Sender → Nat
  | .delivering _ dropped => dropped
  | _ => 0

/-- The sum of the drop counts of the delivered synthetic records. -/
def State.reported (s : State) : Int := (s.reports.map LogRecord.droppedBefore).sum

/-- The records that are accounted for: delivered, queued or in hand, reported as dropped, or in
the drop count of the sender. -/
def State.accounted (s : State) : Int :=
  s.delivered.length + (s.queue.length + s.sender.inHand) + s.reported +
    (s.root.dropped + s.sender.pending)

/-- The numbers of the records increase. -/
def Increasing (records : List LogRecord) : Prop :=
  (records.map LogRecord.sequence).Pairwise (· < ·)

/-- The law of the logger. -/
structure Law (s : State) : Prop where
  calls_eq : (s.calls : Int) = s.accounted
  accepted : Increasing s.accepted
  queue : Increasing s.queue

/-- No record has a larger number than the last one of this copy. -/
def Current (s : State) (copy : Copy) : Prop :=
  ∀ record ∈ s.accepted, record.sequence ≤ copy.sequence

/-- The condition on a step. A call of `log` that finds the queue full is one of the first logger,
and the copy whose record goes into the queue has the latest number. A delivery fails only for an
`AsyncLogger`, and not behind the report of the record. -/
def Kept (options : Options) (s : State) : Action → Prop
  | .log logger level _ _ _ _ _ => level ≥ options.level →
    (isFull options.capacity s.queue = true → logger = none) ∧
    (admits options.capacity s.queue level = true →
      ∀ copy, s.logger? logger = some copy → Current s copy)
  | .deliverReport _ fails => fails = true → options.kind = .async
  | .deliver fails => fails = true → options.kind = .async ∧ s.sender.reported = 0
  | _ => True

/-! ### One step -/

/-- The accounted records less the calls. -/
def State.balance (s : State) : Int := s.accounted - s.calls

/-- What a step adds to the balance. -/
def drift (options : Options) (s : State) : Action → Int
  | .log logger level _ _ _ _ _ =>
    if level ≥ options.level ∧ isFull options.capacity s.queue = true ∧ logger ≠ none then -1 else 0
  | .deliverReport _ fails =>
    if fails = true ∧ options.kind = .inProcess then -(1 + s.sender.pending) else 0
  | .deliver fails =>
    match fails, options.kind with
    | true, .async => s.sender.reported
    | true, .inProcess => -1
    | false, _ => 0
  | _ => 0

section
variable {options : Options} {s t : State}

/-- A call of `log` adds to the drop count of its copy. -/
theorem log_dropped {logger : LoggerId} {copy : Copy} (record : LogRecord)
    (hcopy : s.logger? logger = some copy) :
    (s.log options logger copy record).root.dropped = s.root.dropped +
      if isFull options.capacity s.queue = true ∧ logger = none then 1 else 0 := by
  unfold State.log
  cases logger with
  | none =>
    cases hcopy
    simp [State.setLogger, enqueue_dropped]
  | some index => simp [State.setLogger]

/-- The sender is not one of the copies. -/
@[simp] theorem setLogger_sender (copy : Copy) (logger : LoggerId) :
    (s.setLogger copy logger).sender = s.sender := by
  cases logger <;> rfl

/-- The delivered records are not one of the copies. -/
@[simp] theorem setLogger_delivered (copy : Copy) (logger : LoggerId) :
    (s.setLogger copy logger).delivered = s.delivered := by
  cases logger <;> rfl

/-- The reports are not one of the copies. -/
@[simp] theorem setLogger_reports (copy : Copy) (logger : LoggerId) :
    (s.setLogger copy logger).reports = s.reports := by
  cases logger <;> rfl

/-- A call of `log`: the record is in the queue, or a record is in the drop count of the copy. -/
theorem log_balance {logger : LoggerId} {copy : Copy} (record : LogRecord)
    (hcopy : s.logger? logger = some copy) :
    (s.log options logger copy record).balance = s.balance +
      if isFull options.capacity s.queue = true ∧ logger ≠ none then -1 else 0 := by
  have hlength := enqueue_length options.capacity s.queue record options.capacity.pos
  have hdropped := @log_dropped options s logger copy record hcopy
  have hqueue : (s.log options logger copy record).queue =
    (enqueue options.capacity s.queue record).queue := rfl
  have hcalls : (s.log options logger copy record).calls = s.calls + 1 := rfl
  have hsender : (s.log options logger copy record).sender = s.sender := setLogger_sender _ _
  have hdelivered : (s.log options logger copy record).delivered = s.delivered :=
    setLogger_delivered _ _
  have hreports : (s.log options logger copy record).reports = s.reports := setLogger_reports _ _
  unfold State.balance State.accounted State.reported
  rw [hdropped, hqueue, hcalls, hsender, hdelivered, hreports]
  by_cases hfull : isFull options.capacity s.queue = true
  · by_cases hroot : logger = none
    · simp [hfull, hroot] at hlength ⊢
      omega
    · simp [hfull, hroot] at hlength ⊢
      omega
  · simp [hfull] at hlength ⊢
    omega

/-- The sender takes a record, and the drop count of the logger. -/
theorem take_balance {record : LogRecord} {queue : List LogRecord} (hsender : s.sender = .waiting)
    (hqueue : s.queue = record :: queue) :
    ({ s with
      root := { s.root with dropped := 0 }
      queue
      sender := if s.root.dropped = 0 then .delivering record 0
        else .reporting record s.root.dropped } : State).balance = s.balance := by
  unfold State.balance State.accounted State.reported
  rw [hsender, hqueue, List.length_cons]
  dsimp only
  split
  next hzero =>
    simp only [hzero, Sender.inHand, Sender.pending]
    omega
  next hne =>
    simp only [Sender.inHand, Sender.pending]
    omega

/-- A delivery raises: what the sender had is lost, up to what its handler adds. -/
theorem raise_balance (dropped : Nat) :
    ({ s with sender := .raise options dropped } : State).balance = s.balance -
      (s.sender.inHand + s.sender.pending) +
        if options.kind = .async then dropped + 1 else 0 := by
  unfold State.balance State.accounted State.reported Sender.raise
  cases options.kind with
  | async =>
    simp only [Sender.inHand, Sender.pending, if_true]
    omega
  | inProcess =>
    simp only [Sender.inHand, Sender.pending, if_neg, reduceCtorEq, not_false_eq_true]
    omega

/-- What a step adds to the balance is its drift. -/
theorem step_balance {a : Action} (hs : step options s a = some t) :
    t.balance = s.balance + drift options s a := by
  cases a with
  | log logger level message category fields timeNs context =>
    rw [step] at hs
    cases hcopy : s.logger? logger with
    | none =>
      rw [hcopy] at hs
      cases hs
    | some copy =>
      rw [hcopy] at hs
      dsimp only at hs
      split at hs
      next hlevel =>
        cases hs
        rw [log_balance _ hcopy]
        simp [drift, hlevel]
      next hlevel =>
        cases hs
        simp [drift, hlevel]
  | bind logger fields =>
    rw [step] at hs
    cases hcopy : s.logger? logger with
    | none =>
      rw [hcopy] at hs
      cases hs
    | some copy =>
      rw [hcopy] at hs
      cases hs
      exact (Int.add_zero _).symm
  | take =>
    rw [step] at hs
    split at hs
    next record queue hsender hqueue =>
      cases hs
      rw [take_balance hsender hqueue]
      exact (Int.add_zero _).symm
    next => cases hs
  | deliverReport timeNs fails =>
    rw [step] at hs
    split at hs
    next record dropped hsender =>
      cases fails with
      | true =>
        cases hs
        rw [raise_balance, drift, hsender]
        cases options.kind with
        | async =>
          simp [Sender.inHand, Sender.pending]
          omega
        | inProcess =>
          simp [Sender.inHand, Sender.pending]
          omega
      | false =>
        cases hs
        -- The count moves from the sender into the report.
        simp [drift, State.balance, State.accounted, State.reported, hsender, Sender.inHand,
          Sender.pending, report]
        omega
    next => cases hs
  | deliver fails =>
    rw [step] at hs
    split at hs
    next record dropped hsender =>
      cases fails with
      | true =>
        cases hs
        rw [raise_balance]
        dsimp only [drift]
        cases options.kind with
        | async =>
          simp [hsender, Sender.inHand, Sender.pending, Sender.reported]
        | inProcess =>
          simp [hsender, Sender.inHand, Sender.pending]
          omega
      | false =>
        cases hs
        simp [drift, State.balance, State.accounted, State.reported, hsender, Sender.inHand,
          Sender.pending]
        omega
    next => cases hs
  | restore =>
    rw [step] at hs
    split at hs
    next lost hsender =>
      cases hs
      simp [drift, State.balance, State.accounted, State.reported, hsender, Sender.inHand,
        Sender.pending]
    next => cases hs

/-- The record that a step puts into the queue. -/
def entering (options : Options) (s : State) : Action → List LogRecord
  | .log logger level message category fields timeNs context =>
    match s.logger? logger with
    | some copy =>
      if level ≥ options.level ∧ admits options.capacity s.queue level = true then
        [copy.record level message category fields timeNs context]
      else []
    | none => []
  | _ => []

/-- What a step does to the records that have been accepted, and to those in the queue. -/
theorem step_accepted {a : Action} (hs : step options s a = some t) :
    t.accepted = s.accepted ++ entering options s a ∧
      (s.queue.Sublist s.accepted → t.queue.Sublist t.accepted) := by
  cases a with
  | log logger level message category fields timeNs context =>
    rw [step] at hs
    cases hcopy : s.logger? logger with
    | none =>
      rw [hcopy] at hs
      cases hs
    | some copy =>
      rw [hcopy] at hs
      dsimp only at hs
      split at hs
      next hlevel =>
        cases hs
        have haccepted : (s.log options logger copy
            (copy.record level message category fields timeNs context)).accepted =
              s.accepted ++ if admits options.capacity s.queue level = true then
                [copy.record level message category fields timeNs context] else [] := by
          show s.accepted ++ _ = _
          rw [enqueue_accepted]
          rfl
        constructor
        · rw [haccepted]
          simp [entering, hcopy, hlevel]
        · intro hsublist
          rw [haccepted]
          exact enqueue_sublist _ _ _ hsublist
      next hlevel =>
        cases hs
        constructor
        · simp [entering, hcopy, hlevel]
        · exact id
  | bind logger fields =>
    rw [step] at hs
    cases hcopy : s.logger? logger with
    | none =>
      rw [hcopy] at hs
      cases hs
    | some copy =>
      rw [hcopy] at hs
      cases hs
      exact ⟨(List.append_nil _).symm, id⟩
  | take =>
    rw [step] at hs
    split at hs
    next record queue _ hqueue =>
      cases hs
      constructor
      · exact (List.append_nil _).symm
      · intro hsublist
        rw [hqueue] at hsublist
        exact (List.sublist_cons_self record queue).trans hsublist
    next => cases hs
  | deliverReport timeNs fails =>
    rw [step] at hs
    split at hs
    next =>
      split at hs <;> cases hs <;> exact ⟨(List.append_nil _).symm, id⟩
    next => cases hs
  | deliver fails =>
    rw [step] at hs
    split at hs
    next =>
      split at hs <;> cases hs <;> exact ⟨(List.append_nil _).symm, id⟩
    next => cases hs
  | restore =>
    rw [step] at hs
    split at hs
    next =>
      cases hs
      exact ⟨(List.append_nil _).symm, id⟩
    next => cases hs

/-! ### Runs -/

/-- Another record at the end. -/
theorem increasing_append_singleton {records : List LogRecord} {record : LogRecord} :
    Increasing (records ++ [record]) ↔
      Increasing records ∧ ∀ before ∈ records, before.sequence < record.sequence := by
  unfold Increasing
  rw [List.map_append, List.pairwise_append]
  simp

/-- The condition on a step: it has no drift, and the record that it puts into the queue has the
largest number. -/
theorem kept_iff {a : Action} (hs : step options s a = some t) (haccepted : Increasing s.accepted) :
    Kept options s a ↔ drift options s a = 0 ∧ Increasing t.accepted := by
  rw [(step_accepted hs).1]
  cases a with
  | log logger level message category fields timeNs context =>
    rw [step] at hs
    cases hcopy : s.logger? logger with
    | none =>
      rw [hcopy] at hs
      cases hs
    | some copy =>
      by_cases hlevel : level ≥ options.level
      · have hnumber : Increasing (s.accepted ++ entering options s
            (.log logger level message category fields timeNs context)) ↔
              (admits options.capacity s.queue level = true → Current s copy) := by
          simp only [entering, hcopy, hlevel, true_and]
          split
          next hadmits =>
            rw [increasing_append_singleton]
            simp only [haccepted, true_and, hadmits, true_implies]
            apply forall₂_congr
            intro record _
            show record.sequence < (copy.sequence : Int) + 1 ↔ _
            exact Int.lt_add_one_iff
          next hadmits => simp [haccepted, hadmits]
        rw [hnumber]
        simp only [Kept, drift, hlevel, true_implies, true_and, hcopy, Option.some.injEq,
          forall_eq']
        by_cases hfull : isFull options.capacity s.queue = true
        · simp [hfull]
        · simp [hfull]
      · simp [Kept, drift, entering, hcopy, hlevel, haccepted]
  | deliverReport timeNs fails =>
    cases fails <;> cases hkind : options.kind <;>
      simp [Kept, drift, entering, haccepted, hkind]
    omega
  | deliver fails =>
    cases fails <;> cases hkind : options.kind <;>
      simp [Kept, drift, entering, haccepted, hkind]
  | _ => simp [Kept, drift, entering, haccepted]

/-- The law, with what keeps the numbers of the queue in order. -/
structure Inv (s : State) : Prop where
  balance : s.balance = 0
  accepted : Increasing s.accepted
  sublist : s.queue.Sublist s.accepted

/-- The invariant is the law. -/
theorem Inv.law (h : Inv s) : Law s where
  calls_eq := by
    have hbalance := h.balance
    unfold State.balance at hbalance
    omega
  accepted := h.accepted
  queue := List.Pairwise.sublist (h.sublist.map _) h.accepted

/-- The step that keeps the law. -/
theorem inv_step {a : Action} (h : Inv s) (hkept : Kept options s a)
    (hs : step options s a = some t) : Inv t := by
  obtain ⟨hdrift, haccepted⟩ := (kept_iff hs h.accepted).mp hkept
  exact {
    balance := by rw [step_balance hs, h.balance, hdrift]; rfl
    accepted := haccepted
    sublist := (step_accepted hs).2 h.sublist }

/-- The law holds behind a step exactly when the step meets the condition. -/
theorem law_step_iff {a : Action} (h : Inv s) (hs : step options s a = some t) :
    Law t ↔ Kept options s a := by
  constructor
  · intro hlaw
    rw [kept_iff hs h.accepted]
    have hbalance : t.balance = 0 := by
      have hcalls := hlaw.calls_eq
      unfold State.balance
      omega
    rw [step_balance hs, h.balance, Int.zero_add] at hbalance
    exact ⟨hbalance, hlaw.accepted⟩
  · intro hkept
    exact (inv_step h hkept hs).law

/-- The runs under the condition keep the invariant. -/
theorem inv_of_reach {bound : Fields} (h : (machine options bound).Reach (Kept options) s) :
    Inv s := by
  refine h.invariant (I := Inv) ?_ ?_
  · exact { balance := rfl, accepted := List.Pairwise.nil, sublist := List.Sublist.slnil }
  · intro s a t hinv hkept hs
    exact inv_step hinv hkept hs

end

/-- In every run whose steps meet the condition, the law holds at every moment. The first step of
a run that does not meet it leaves a state without the law. -/
theorem law_iff (options : Options) (bound : Fields) (s : State)
    (h : (machine options bound).Reach (Kept options) s) :
    Law s ∧ ∀ a t, (machine options bound).step s a = some t → (Law t ↔ Kept options s a) :=
  ⟨(inv_of_reach h).law, fun _ _ hs => law_step_iff (inv_of_reach h) hs⟩

/-! ### Single runs -/

/-- A call of `log` with an empty message. -/
def plain (logger : LoggerId) : Action :=
  .log logger 20 [] [] .empty 0 { session := 0, submission := 0, invocation := 0, operation := 0 }

/-- An `AsyncLogger` with a queue of this many places. -/
def queueOf (capacity : ℕ+) : Options where
  kind := .async
  level := 10
  capacity

/-- Its state behind these steps. -/
def behind (actions : List Action) : State :=
  ((machine (queueOf 1) .empty).exec (initial .empty) actions).getD (initial .empty)

/-- A call of the first logger keeps the condition where no record has a later number. -/
theorem kept_plain {s : State} (hcurrent : Current s s.root) :
    Kept (queueOf 1) s (plain none) := by
  intro _
  refine ⟨fun _ => rfl, ?_⟩
  rintro _ copy hcopy
  cases hcopy
  exact hcurrent

/-- A run with a copy, a dropped record and a failed report: the law holds, and the next step
keeps it exactly under the condition. -/
theorem law_iff_failedReport :
    let s := behind [.bind none .empty, plain none, plain none, .take, .deliverReport 0 true]
    s.sender = .failed 2 ∧ s.derived.length = 1 ∧ Law s ∧
      ∀ a t, (machine (queueOf 1) .empty).step s a = some t → (Law t ↔ Kept (queueOf 1) s a) := by
  intro s
  have hbind : (machine (queueOf 1) .empty).Reach (Kept (queueOf 1))
      (behind [.bind none .empty]) := .next (a := .bind none .empty) .start trivial rfl
  have hfirst : (machine (queueOf 1) .empty).Reach (Kept (queueOf 1))
      (behind [.bind none .empty, plain none]) :=
    hbind.next (a := plain none) (kept_plain fun _ hrecord => by cases hrecord) rfl
  have hcurrent : Current (behind [.bind none .empty, plain none])
      (behind [.bind none .empty, plain none]).root := by
    unfold Current
    decide
  have hsecond : (machine (queueOf 1) .empty).Reach (Kept (queueOf 1))
      (behind [.bind none .empty, plain none, plain none]) :=
    hfirst.next (a := plain none) (kept_plain hcurrent) rfl
  have htake : (machine (queueOf 1) .empty).Reach (Kept (queueOf 1))
      (behind [.bind none .empty, plain none, plain none, .take]) :=
    hsecond.next (a := .take) trivial rfl
  have hfailed : (machine (queueOf 1) .empty).Reach (Kept (queueOf 1)) s :=
    htake.next (a := .deliverReport 0 true) (fun _ => rfl) rfl
  exact ⟨rfl, rfl, law_iff (queueOf 1) .empty s hfailed⟩

/-- A run of a logger with this capacity ends in a state without the law. -/
def Breaks (capacity : ℕ+) (run : List Action) : Prop :=
  ∃ s, (machine (queueOf capacity) .empty).exec (initial .empty) run = some s ∧ ¬ Law s

/-- A run whose calls are not accounted for breaks the law. -/
theorem breaks_of_calls {capacity : ℕ+} {run : List Action}
    (h : ((machine (queueOf capacity) .empty).exec (initial .empty) run).map
      (fun s => decide ((s.calls : Int) ≠ s.accounted)) = some true) : Breaks capacity run := by
  obtain ⟨s, hs, hne⟩ := Machine.exists_of_exec _ _ h
  exact ⟨s, hs, fun hlaw => of_decide_eq_true hne hlaw.calls_eq⟩

/-- The three ways to break the law of an `AsyncLogger`: a full queue drops a record of a copy, a
copy gives a number again, and a delivery fails behind the report of its record. -/
theorem law_breaks :
    Breaks 1 [.bind none .empty, plain none, plain (some 0)] ∧
    Breaks 2 [.bind none .empty, plain none, plain (some 0)] ∧
    Breaks 1 [plain none, plain none, .take, .deliverReport 0 false, .deliver true] := by
  refine ⟨breaks_of_calls (by decide +kernel), ?_, breaks_of_calls (by decide +kernel)⟩
  have hrun : ((machine (queueOf 2) .empty).exec (initial .empty)
      [.bind none .empty, plain none, plain (some 0)]).map
        (fun s => decide (s.accepted.map LogRecord.sequence = [1, 1])) = some true := by
    decide +kernel
  obtain ⟨s, hs, hnumbers⟩ := Machine.exists_of_exec _ _ hrun
  refine ⟨s, hs, ?_⟩
  intro hlaw
  have haccepted := hlaw.accepted
  rw [Increasing, of_decide_eq_true hnumbers] at haccepted
  exact absurd haccepted (by decide)

end Wmfs.Log.Logger
