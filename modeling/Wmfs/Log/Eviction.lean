import Wmfs.Lib.TopK
import Wmfs.Log.Logger

/-!
# `Wmfs.Log.Eviction`: which records a full queue keeps

Three functions put a record into a bounded queue: `AsyncLogger.log` (`wmfs_plugin/logging.py`),
`InProcessLogger.log` (`wmfs/logging.py`) and `LogSink::enqueue` (`src/reference_worker.cpp`). Each
branches on the length of the queue and makes an arrival of `Lib.TopK` (`offer_enqueue`,
`InProcess.offer_enqueue`, `LogSinkQueue.offer_enqueue`). While the sender takes nothing out, the queue
so has the records of the highest levels, the later ones first, in the order in which they were
logged (`queue_keepsGreatest`).
-/

set_option autoImplicit false

namespace Wmfs.Log

open Wmfs.Lib
open Wmfs.Lib.Utf8 (Text)
open Wmfs.Lib.TopK (IsFirstLowest Offer Offers KeepsGreatest)

/-! ### The functions -/

/-- The branch of `InProcessLogger.log` on the length of the queue. -/
def InProcess.enqueue (capacity : Nat) (queue : List LogRecord) (record : LogRecord) : Enqueued :=
  if queue.length = capacity then
    let lowest := lowest (queue.map LogRecord.level)
    match queue[lowest]? with
    | some other =>
      if other.level ≤ record.level then
        { queue := queue.eraseIdx lowest ++ [record], accepted := true, dropped := true }
      else { queue, accepted := false, dropped := true }
    -- `min` of an empty sequence raises, and the call ends.
    | none => { queue, accepted := false, dropped := false }
  else { queue := queue ++ [record], accepted := true, dropped := false }

namespace Native

/-- `LogSink::Item`. -/
structure Item where
  level : UInt32
  bytes : List UInt8
  deriving DecidableEq, Repr

/-- What `enqueue` reads and writes of a `LogSink`. -/
structure LogSinkQueue where
  capacity : UInt64
  dropped : UInt64
  queue : List Item
  closing : Bool
  deriving DecidableEq, Repr

/-- The loop of `std::min_element` behind the first element: the index of the smallest one so far,
that element, and the index of the next one. -/
def minElementFrom (smallest : Nat) (value : Item) (index : Nat) : List Item → Nat × Item
  | [] => (smallest, value)
  | item :: items =>
    if item.level < value.level then minElementFrom index item (index + 1) items
    else minElementFrom smallest value (index + 1) items

/-- `std::min_element` by the level, and `none` for `queue.end()`. -/
def minElement : List Item → Option (Nat × Item)
  | [] => none
  | item :: items => some (minElementFrom 0 item 1 items)

/-- `LogSink::enqueue`. -/
def LogSinkQueue.enqueue (sink : LogSinkQueue) (item : Item) : LogSinkQueue :=
  if sink.closing then sink
  else if sink.queue.length = sink.capacity.toNat then
    match minElement sink.queue with
    | some (index, lowest) =>
      if lowest.level ≤ item.level then
        { sink with
          queue := sink.queue.eraseIdx index ++ [item]
          dropped := sink.dropped + 1 }
      else { sink with dropped := sink.dropped + 1 }
    | none => { sink with dropped := sink.dropped + 1 }
  else { sink with queue := sink.queue ++ [item] }

end Native

/-! ### The first record of the lowest level -/

/-- What stands at the position of the lowest level. -/
theorem lowest_spec {levels : List Int} (h : levels ≠ []) :
    ∃ least, levels[lowest levels]? = some least ∧ (∀ level ∈ levels, least ≤ level) ∧
      ∀ i < lowest levels, ∀ level, levels[i]? = some level → least < level := by
  induction levels with
  | nil => exact absurd rfl h
  | cons level levels ih =>
    cases levels with
    | nil => exact ⟨level, rfl, by simp, fun i h => absurd h (Nat.not_lt_zero i)⟩
    | cons next levels =>
      obtain ⟨least, hget, hle, hfirst⟩ := ih (List.cons_ne_nil _ _)
      have hgetD : (next :: levels).getD (lowest (next :: levels)) 0 = least := by
        rw [List.getD_eq_getElem?_getD, hget]
        rfl
      unfold lowest
      simp only [hgetD]
      split
      · rename_i hlt
        refine ⟨least, hget, List.forall_mem_cons.mpr ⟨hlt.le, hle⟩, ?_⟩
        intro i hi other hother
        cases i with
        | zero =>
          cases hother
          exact hlt
        | succ i => exact hfirst i (by omega) other hother
      · rename_i hnot
        refine ⟨level, rfl, List.forall_mem_cons.mpr ⟨le_refl level, ?_⟩,
          fun i h => absurd h (Nat.not_lt_zero i)⟩
        intro other hother
        exact (not_lt.mp hnot).trans (hle other hother)

/-- `lowest` is the index of the first record of the lowest level. -/
theorem isFirstLowest_lowest {queue : List LogRecord} (h : queue ≠ []) :
    ∃ record, IsFirstLowest LogRecord.level queue (lowest (queue.map LogRecord.level)) record := by
  obtain ⟨least, hget, hle, hfirst⟩ := lowest_spec (List.map_eq_nil_iff.not.mpr h)
  rw [List.getElem?_map] at hget
  obtain ⟨record, hrecord, rfl⟩ := Option.map_eq_some_iff.mp hget
  refine ⟨record, hrecord, ?_, ?_⟩
  · intro other hother
    exact hle _ (List.mem_map_of_mem hother)
  · intro i hi other hother
    exact hfirst i hi _ (by rw [List.getElem?_map, hother]; rfl)

/-- The loop of `std::min_element` goes on from the first lowest element of what it has seen. -/
theorem Native.isFirstLowest_minElementFrom {seen : List Native.Item} {smallest : Nat}
    {value : Native.Item} (items : List Native.Item)
    (h : IsFirstLowest (fun item : Native.Item => item.level.toNat) seen smallest value) :
    IsFirstLowest (fun item : Native.Item => item.level.toNat) (seen ++ items)
      (minElementFrom smallest value seen.length items).1
      (minElementFrom smallest value seen.length items).2 := by
  induction items generalizing seen smallest value with
  | nil =>
    rw [List.append_nil]
    exact h
  | cons item items ih =>
    have hindex := (List.getElem?_eq_some_iff.mp h.get).1
    have hsplit : seen ++ item :: items = (seen ++ [item]) ++ items := by simp
    have hlength : (seen ++ [item]).length = seen.length + 1 := by simp
    rw [minElementFrom, hsplit, ← hlength]
    split
    · rename_i hlt
      rw [UInt32.lt_iff_toNat_lt] at hlt
      apply ih
      refine ⟨by simp, ?_, ?_⟩
      · intro other hother
        rw [List.mem_append, List.mem_singleton] at hother
        rcases hother with hother | rfl
        · exact hlt.le.trans (h.le other hother)
        · exact le_refl _
      · intro i hi other hother
        rw [List.getElem?_append_left hi] at hother
        exact hlt.trans_le (h.le other (List.mem_of_getElem? hother))
    · rename_i hnot
      rw [UInt32.lt_iff_toNat_lt, not_lt] at hnot
      apply ih
      refine ⟨by rw [List.getElem?_append_left hindex]; exact h.get, ?_, ?_⟩
      · intro other hother
        rw [List.mem_append, List.mem_singleton] at hother
        rcases hother with hother | rfl
        · exact h.le other hother
        · exact hnot
      · intro i hi other hother
        rw [List.getElem?_append_left (by omega)] at hother
        exact h.first i hi other hother

/-- `std::min_element` finds the first element of the lowest level. -/
theorem Native.isFirstLowest_minElement {items : List Native.Item} (h : items ≠ []) :
    ∃ index value, minElement items = some (index, value) ∧
      IsFirstLowest (fun item : Native.Item => item.level.toNat) items index value := by
  cases items with
  | nil => exact absurd rfl h
  | cons item items =>
    have hone : IsFirstLowest (fun item : Native.Item => item.level.toNat) [item] 0 item :=
      ⟨rfl, by simp, nofun⟩
    exact ⟨_, _, rfl, Native.isFirstLowest_minElementFrom items hone⟩

/-! ### Arrivals -/

section
variable {capacity : Nat} {queue : List LogRecord}

/-- A queue that is full is not empty. -/
theorem ne_nil_of_full {α : Type} {queue : List α} {capacity : Nat} (hcapacity : 0 < capacity)
    (hfull : queue.length = capacity) : queue ≠ [] := by
  rintro rfl
  exact absurd hfull hcapacity.ne

/-- `AsyncLogger.log` makes an arrival. -/
theorem offer_enqueue (hcapacity : 0 < capacity) (hlength : queue.length ≤ capacity)
    (record : LogRecord) : Offer LogRecord.level capacity queue record
      (enqueue capacity queue record).queue (enqueue capacity queue record).dropped := by
  rw [enqueue]
  cases hroom : isFull capacity queue with
  | false =>
    rw [isFull, decide_eq_false_iff_not] at hroom
    exact .push (by omega)
  | true =>
    have hfull : queue.length = capacity := by
      rw [isFull, decide_eq_true_iff] at hroom
      omega
    obtain ⟨lowest, hlowest⟩ := isFirstLowest_lowest (ne_nil_of_full hcapacity hfull)
    have hreplaces : replaces queue record.level = decide (lowest.level ≤ record.level) := by
      rw [replaces, hlowest.get]
    rw [hreplaces]
    by_cases hle : lowest.level ≤ record.level
    · rw [if_pos rfl, if_pos (decide_eq_true hle)]
      exact .replace hfull hlowest hle
    · rw [if_pos rfl, if_neg (by rwa [decide_eq_true_iff])]
      refine .refuse hfull ?_
      intro other hother
      exact (not_le.mp hle).trans_le (hlowest.le other hother)

/-- The queue does not get longer than it may be. -/
theorem enqueue_length_le (hcapacity : 0 < capacity) (hlength : queue.length ≤ capacity)
    (record : LogRecord) : (enqueue capacity queue record).queue.length ≤ capacity := by
  have hnext := enqueue_length capacity queue record hcapacity
  by_cases hfull : isFull capacity queue = true
  · rw [if_pos hfull] at hnext
    omega
  · rw [if_neg hfull] at hnext
    rw [isFull, decide_eq_true_iff] at hfull
    omega

/-- While the queue is not longer than it may be, the two comparisons of its length agree. -/
theorem InProcess.enqueue_eq (hcapacity : 0 < capacity) (hlength : queue.length ≤ capacity)
    (record : LogRecord) : InProcess.enqueue capacity queue record =
      Log.enqueue capacity queue record := by
  rw [InProcess.enqueue, Log.enqueue, isFull]
  by_cases hfull : queue.length = capacity
  · obtain ⟨lowest, hlowest⟩ := isFirstLowest_lowest (ne_nil_of_full hcapacity hfull)
    rw [if_pos hfull, if_pos (decide_eq_true hfull.ge), replaces, hlowest.get]
    by_cases hle : lowest.level ≤ record.level
    · simp [hlowest.get, hle]
    · simp [hlowest.get, hle]
  · rw [if_neg hfull, if_neg (by rw [decide_eq_true_iff]; omega)]

end

/-- A step leaves the queue of a logger at most as long as it may be. -/
theorem Logger.queue_length_step {options : Logger.Options} {s t : Logger.State}
    {a : Logger.Action} (hlength : s.queue.length ≤ options.capacity)
    (h : Logger.step options s a = some t) : t.queue.length ≤ options.capacity := by
  cases a with
  | log logger level message category fields timeNs context =>
    simp only [Logger.step] at h
    split at h
    · cases h
    · split at h
      · cases h
        exact enqueue_length_le options.capacity.pos hlength _
      · cases h
        exact hlength
  | bind logger fields =>
    simp only [Logger.step] at h
    split at h
    · cases h
    · cases h
      exact hlength
  | take =>
    simp only [Logger.step] at h
    split at h
    · next record queue hsender hqueue =>
      cases h
      rw [hqueue, List.length_cons] at hlength
      exact Nat.le_of_succ_le hlength
    · cases h
  | deliverReport timeNs fails =>
    simp only [Logger.step] at h
    split at h
    · split at h
      all_goals
        cases h
        exact hlength
    · cases h
  | deliver fails =>
    simp only [Logger.step] at h
    split at h
    · split at h
      all_goals
        cases h
        exact hlength
    · cases h
  | restore =>
    simp only [Logger.step] at h
    split at h
    · cases h
      exact hlength
    · cases h

/-- In every run the two comparisons of the length agree. -/
theorem InProcess.enqueue_reached {options : Logger.Options} {bound : Fields} {s : Logger.State}
    (h : (Logger.machine options bound).Reachable s) (record : LogRecord) :
    InProcess.enqueue options.capacity s.queue record =
      Log.enqueue options.capacity s.queue record := by
  have hlength : s.queue.length ≤ options.capacity := by
    refine h.invariant (I := fun s => s.queue.length ≤ (options.capacity : Nat)) (Nat.zero_le _) ?_
    exact fun _ _ _ hlength _ hstep => Logger.queue_length_step hlength hstep
  exact InProcess.enqueue_eq options.capacity.pos hlength record

/-- `LogSink::enqueue` makes an arrival. -/
theorem Native.LogSinkQueue.offer_enqueue {sink : Native.LogSinkQueue} (hopen : sink.closing = false)
    (hcapacity : 0 < sink.capacity.toNat) (hlength : sink.queue.length ≤ sink.capacity.toNat)
    (item : Native.Item) : ∃ dropped : Bool,
      Offer (fun item : Native.Item => item.level.toNat) sink.capacity.toNat sink.queue item
        (sink.enqueue item).queue dropped ∧
      sink.enqueue item = { sink with
        queue := (sink.enqueue item).queue
        dropped := sink.dropped + UInt64.ofNat dropped.toNat } := by
  rw [LogSinkQueue.enqueue, hopen, if_neg Bool.false_ne_true]
  by_cases hfull : sink.queue.length = sink.capacity.toNat
  · obtain ⟨index, lowest, hmin, hlowest⟩ :=
      Native.isFirstLowest_minElement (ne_nil_of_full hcapacity hfull)
    rw [if_pos hfull, hmin]
    by_cases hle : lowest.level ≤ item.level
    · refine ⟨true, ?_, ?_⟩
      · simp only [if_pos hle]
        exact .replace hfull hlowest (UInt32.le_iff_toNat_le.mp hle)
      · simp only [if_pos hle]
        rfl
    · refine ⟨true, ?_, ?_⟩
      · simp only [if_neg hle]
        refine .refuse hfull ?_
        intro other hother
        rw [UInt32.le_iff_toNat_le, not_le] at hle
        exact hle.trans_le (hlowest.le other hother)
      · simp only [if_neg hle]
        rfl
  · refine ⟨false, ?_, ?_⟩
    · rw [if_neg hfull]
      exact .push (by omega)
    · rw [if_neg hfull]
      simp

/-! ### Sequences of calls -/

namespace Logger

/-- The arguments of a call of `log`, with the clock and the context that it reads. -/
structure Call where
  level : Int
  message : Text
  category : Text
  fields : Fields
  timeNs : Int
  context : LogContext

/-- The step of the call on a logger. -/
def Call.action (call : Call) (logger : LoggerId) : Action :=
  .log logger call.level call.message call.category call.fields call.timeNs call.context

/-- The calls, one after the other. -/
def logAll (options : Options) (logger : LoggerId) (s : State) (calls : List Call) :
    Option State :=
  calls.foldlM (fun s call => step options s (call.action logger)) s

/-- The records that the calls make, in their order. -/
def Copy.records (copy : Copy) : List Call → List LogRecord
  | [] => []
  | call :: calls =>
    copy.record call.level call.message call.category call.fields call.timeNs call.context ::
      { copy with sequence := copy.sequence + 1 }.records calls

end Logger

/-- The queue of an `InProcessLogger` and its drop count after records have been logged. -/
def InProcess.logAll (capacity : Nat) (start : List LogRecord × Nat) (records : List LogRecord) :
    List LogRecord × Nat :=
  records.foldl (fun state record =>
    let enqueued := InProcess.enqueue capacity state.1 record
    (enqueued.queue, state.2 + if enqueued.dropped then 1 else 0)) start

/-- A logger that is set is there. -/
theorem Logger.logger?_setLogger {s : Logger.State} {logger : Logger.LoggerId}
    {copy : Logger.Copy} (h : s.logger? logger = some copy) (other : Logger.Copy) :
    (s.setLogger other logger).logger? logger = some other := by
  cases logger with
  | none => rfl
  | some index =>
    have hindex : s.derived[index]? = some copy := h
    show (s.derived.set index other)[index]? = some other
    rw [List.getElem?_set_self (List.getElem?_eq_some_iff.mp hindex).1]

/-- There is a record for each call. -/
theorem Logger.length_records (copy : Logger.Copy) (calls : List Logger.Call) :
    (copy.records calls).length = calls.length := by
  induction calls generalizing copy with
  | nil => rfl
  | cons call calls ih => rw [Copy.records, List.length_cons, ih, List.length_cons]

/-- The drop count of a copy is not in its records. -/
theorem Logger.records_congr {copy other : Logger.Copy} (hbound : copy.bound = other.bound)
    (hsequence : copy.sequence = other.sequence) (calls : List Logger.Call) :
    copy.records calls = other.records calls := by
  induction calls generalizing copy other with
  | nil => rfl
  | cons call calls ih =>
    rw [Copy.records, Copy.records, Copy.record, Copy.record, hbound, hsequence]
    congr 1
    exact ih rfl rfl

/-- Every call is an arrival, and counts what it drops on its own logger. -/
theorem Logger.offers_logAll {options : Logger.Options} {logger : Logger.LoggerId}
    {s : Logger.State} {copy : Logger.Copy} {calls : List Logger.Call} {arrived : List LogRecord}
    {count : Nat} (hcopy : s.logger? logger = some copy)
    (henabled : ∀ call ∈ calls, options.level ≤ call.level)
    (hoffers : Offers LogRecord.level options.capacity arrived s.queue count) :
    ∃ s' copy' count', logAll options logger s calls = some s' ∧
      s'.logger? logger = some copy' ∧
      Offers LogRecord.level options.capacity (arrived ++ copy.records calls) s'.queue count' ∧
      copy'.dropped + count = copy.dropped + count' ∧
      InProcess.logAll options.capacity (s.queue, copy.dropped) (copy.records calls) =
        (s'.queue, copy'.dropped) := by
  induction calls generalizing s copy arrived count with
  | nil =>
    refine ⟨s, copy, count, rfl, hcopy, ?_, rfl, rfl⟩
    rw [Copy.records, List.append_nil]
    exact hoffers
  | cons call calls ih =>
    rw [List.forall_mem_cons] at henabled
    have hlength := hoffers.keepsGreatest.1.length_le
    let record := copy.record call.level call.message call.category call.fields call.timeNs
      call.context
    let next := s.log options logger copy record
    let dropped := (enqueue options.capacity s.queue record).dropped
    let copy' : Copy := { copy with
      sequence := copy.sequence + 1
      dropped := copy.dropped + if dropped then 1 else 0 }
    have hstep : step options s (call.action logger) = some next := by
      simp only [Call.action, step, hcopy]
      exact if_pos henabled.1
    have hnext : next.logger? logger = some copy' := logger?_setLogger hcopy copy'
    have hoffer := offer_enqueue options.capacity.pos hlength record
    have hinProcess := InProcess.enqueue_eq options.capacity.pos hlength record
    obtain ⟨s', final, count', hrun, hfinal, hoffers', hcount, hlogAll⟩ :=
      ih hnext henabled.2 (hoffers.snoc hoffer)
    have hcopies : copy.records (call :: calls) = record :: copy'.records calls :=
      congrArg (record :: ·)
        (@records_congr { copy with sequence := copy.sequence + 1 } copy' rfl rfl calls)
    refine ⟨s', final, count', ?_, hfinal, ?_, ?_, ?_⟩
    · rw [logAll, List.foldlM_cons, hstep]
      exact hrun
    · rw [hcopies, ← List.singleton_append, ← List.append_assoc]
      exact hoffers'
    · have hnumber : copy'.dropped = copy.dropped + dropped.toNat := by
        show copy.dropped + (if dropped then 1 else 0) = _
        cases dropped <;> rfl
      have hcount : final.dropped + (count + dropped.toNat) = copy'.dropped + count' := hcount
      omega
    · rw [hcopies, InProcess.logAll, List.foldl_cons]
      show InProcess.logAll _ (_, _) _ = _
      rw [hinProcess]
      exact hlogAll

/-- Every `enqueue` is an arrival, and counts what it drops. -/
theorem Native.LogSinkQueue.offers_enqueue {sink : Native.LogSinkQueue} (items : List Native.Item)
    {arrived : List Native.Item} {count : Nat} (hopen : sink.closing = false)
    (hcapacity : 0 < sink.capacity.toNat)
    (hoffers : Offers (fun item : Native.Item => item.level.toNat) sink.capacity.toNat arrived
      sink.queue count) :
    ∃ extra, Offers (fun item : Native.Item => item.level.toNat) sink.capacity.toNat
        (arrived ++ items) (items.foldl LogSinkQueue.enqueue sink).queue (count + extra) ∧
      (items.foldl LogSinkQueue.enqueue sink).dropped = sink.dropped + UInt64.ofNat extra := by
  induction items generalizing sink arrived count with
  | nil =>
    refine ⟨0, ?_, (UInt64.add_zero _).symm⟩
    rw [List.append_nil]
    exact hoffers
  | cons item items ih =>
    obtain ⟨dropped, hoffer, hnext⟩ :=
      offer_enqueue hopen hcapacity hoffers.keepsGreatest.1.length_le item
    have hclosing : (sink.enqueue item).closing = false := by
      rw [hnext]
      exact hopen
    have hsame : (sink.enqueue item).capacity = sink.capacity := by rw [hnext]
    have hdropped : (sink.enqueue item).dropped = sink.dropped + UInt64.ofNat dropped.toNat := by
      rw [hnext]
    obtain ⟨extra, hrest, hcount⟩ := ih hclosing (by rw [hsame]; exact hcapacity)
      (by rw [hsame]; exact hoffers.snoc hoffer)
    refine ⟨dropped.toNat + extra, ?_, ?_⟩
    · rw [hsame, List.append_assoc, Nat.add_assoc] at hrest
      exact hrest
    · rw [List.foldl_cons, hcount, hdropped, UInt64.ofNat_add, UInt64.add_assoc]

/-- **A full queue keeps the greatest records.** Calls of `log` at an enabled level on one logger,
which starts with an empty queue and whose sender takes nothing, leave the greatest records in the
order in which they were logged. The drop count grows by the number of the others. The same is true
of the two comparisons of the length in Python, and of `LogSink::enqueue`, whose drop count is an
`uint64_t`. -/
theorem queue_keepsGreatest (options : Logger.Options) (s : Logger.State)
    (logger : Logger.LoggerId) (copy : Logger.Copy) (calls : List Logger.Call)
    (sink : Native.LogSinkQueue) (items : List Native.Item)
    (hcopy : s.logger? logger = some copy) (hqueue : s.queue = [])
    (henabled : ∀ call ∈ calls, options.level ≤ call.level)
    (hopen : sink.closing = false) (hcapacity : 0 < sink.capacity.toNat)
    (hempty : sink.queue = []) :
    (∃ s' copy', Logger.logAll options logger s calls = some s' ∧
      s'.logger? logger = some copy' ∧
      KeepsGreatest LogRecord.level options.capacity (copy.records calls) s'.queue ∧
      copy'.dropped = copy.dropped + (calls.length - min (options.capacity : Nat) calls.length) ∧
      InProcess.logAll options.capacity ([], copy.dropped) (copy.records calls) =
        (s'.queue, copy'.dropped)) ∧
    KeepsGreatest (fun item : Native.Item => item.level.toNat) sink.capacity.toNat items
      (items.foldl Native.LogSinkQueue.enqueue sink).queue ∧
    (items.foldl Native.LogSinkQueue.enqueue sink).dropped = sink.dropped +
      UInt64.ofNat (items.length - min sink.capacity.toNat items.length) := by
  refine ⟨?_, ?_⟩
  · have hstart : Offers LogRecord.level options.capacity [] s.queue 0 := by
      rw [hqueue]
      exact .nil
    obtain ⟨s', copy', count, hrun, hlogger, hoffers, hcount, hlogAll⟩ :=
      Logger.offers_logAll hcopy henabled hstart
    obtain ⟨hkeeps, hnumber⟩ := hoffers.keepsGreatest
    rw [List.nil_append] at hkeeps hnumber
    rw [Logger.length_records] at hnumber
    rw [hqueue] at hlogAll
    exact ⟨s', copy', hrun, hlogger, hkeeps, by omega, hlogAll⟩
  · have hstart : Offers (fun item : Native.Item => item.level.toNat) sink.capacity.toNat []
        sink.queue 0 := by
      rw [hempty]
      exact .nil
    obtain ⟨extra, hoffers, hcount⟩ :=
      Native.LogSinkQueue.offers_enqueue items hopen hcapacity hstart
    obtain ⟨hkeeps, hnumber⟩ := hoffers.keepsGreatest
    rw [List.nil_append] at hkeeps hnumber
    rw [Nat.zero_add] at hnumber
    exact ⟨hkeeps, by rw [hcount, hnumber]⟩

/-- Two calls on a logger with one place, and three items for a sink with one place. -/
theorem queue_keepsGreatest_one :
    KeepsGreatest (fun item : Native.Item => item.level.toNat) 1 [⟨30, []⟩, ⟨20, []⟩, ⟨30, [0]⟩]
      ([⟨30, []⟩, ⟨20, []⟩, ⟨30, [0]⟩].foldl Native.LogSinkQueue.enqueue ⟨1, 0, [], false⟩).queue :=
  (queue_keepsGreatest { kind := .async, level := 20, capacity := 1 } (Logger.initial .empty) none
    { bound := .empty, dropped := 0, sequence := 0 }
    [⟨20, [], [], .empty, 0, ⟨0, 0, 0, 0⟩⟩, ⟨40, [], [], .empty, 0, ⟨0, 0, 0, 0⟩⟩]
    ⟨1, 0, [], false⟩ [⟨30, []⟩, ⟨20, []⟩, ⟨30, [0]⟩] rfl rfl (by simp) rfl (by decide) rfl).2.1

end Wmfs.Log
