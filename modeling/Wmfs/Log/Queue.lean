import Wmfs.Log.Codec

/-!
# `Wmfs.Log.Queue`: the bounded queue of a logger

What `log` does to the queue under the lock of the logger, in `AsyncLogger.log` of
`wmfs_plugin/logging.py` and in `InProcessLogger.log` of `wmfs/logging.py`. A record that finds the
queue full takes the place of the first one of the lowest level, unless that level is higher than
its own. One record is dropped either way.
-/

set_option autoImplicit false

namespace Wmfs.Log

/-- `min(range(len(levels)), key=lambda index: levels[index])`: the first index of the lowest
level. -/
def lowest : List Int → Nat
  | [] => 0
  | [_] => 0
  | level :: levels =>
    let index := lowest levels
    if levels.getD index 0 < level then index + 1 else 0

/-- The lowest level is at a position of the queue. -/
theorem lowest_lt {levels : List Int} (h : levels ≠ []) : lowest levels < levels.length := by
  induction levels with
  | nil => exact absurd rfl h
  | cons level levels ih =>
    cases levels with
    | nil => exact Nat.zero_lt_one
    | cons next levels =>
      have hlt := ih (List.cons_ne_nil _ _)
      unfold lowest
      dsimp only
      split
      · exact Nat.succ_lt_succ hlt
      · exact Nat.succ_pos _

/-- What becomes of a record and of the queue. -/
structure Enqueued where
  queue : List LogRecord
  accepted : Bool
  dropped : Bool

/-- The queue has no room for another record. -/
def isFull (capacity : Nat) (queue : List LogRecord) : Bool := queue.length ≥ capacity

/-- A full queue takes a record of this level, in the place of another one. -/
def replaces (queue : List LogRecord) (level : Int) : Bool :=
  match queue[lowest (queue.map LogRecord.level)]? with
  | some record => record.level ≤ level
  | none => false

/-- The branch of `log` on the length of the queue. -/
def enqueue (capacity : Nat) (queue : List LogRecord) (record : LogRecord) : Enqueued :=
  if isFull capacity queue then
    if replaces queue record.level then
      { queue := queue.eraseIdx (lowest (queue.map LogRecord.level)) ++ [record]
        accepted := true
        dropped := true }
    else { queue, accepted := false, dropped := true }
  else { queue := queue ++ [record], accepted := true, dropped := false }

/-- The queue takes a record of this level. -/
def admits (capacity : Nat) (queue : List LogRecord) (level : Int) : Bool :=
  !isFull capacity queue || replaces queue level

section
variable (capacity : Nat) (queue : List LogRecord) (record : LogRecord)

/-- A record goes into the queue when the queue admits its level. -/
theorem enqueue_accepted :
    (enqueue capacity queue record).accepted = admits capacity queue record.level := by
  unfold enqueue admits
  cases isFull capacity queue
  · rfl
  · cases replaces queue record.level <;> rfl

/-- A record is dropped when the queue is full. -/
theorem enqueue_dropped : (enqueue capacity queue record).dropped = isFull capacity queue := by
  unfold enqueue
  cases isFull capacity queue
  · rfl
  · cases replaces queue record.level <;> rfl

/-- A record goes into the queue, or it is dropped, or another one is. -/
theorem enqueue_length (hcapacity : 0 < capacity) :
    (enqueue capacity queue record).queue.length + (if isFull capacity queue then 1 else 0) =
      queue.length + 1 := by
  unfold enqueue
  cases hfull : isFull capacity queue with
  | false => simp
  | true =>
    cases hreplaces : replaces queue record.level with
    | false => simp
    | true =>
      have hne : queue ≠ [] := by
        intro hnil
        have hle : capacity ≤ queue.length := of_decide_eq_true hfull
        rw [hnil] at hle
        exact absurd hle (by simpa using hcapacity.ne')
      have hlt : lowest (queue.map LogRecord.level) < queue.length := by
        have hlt := @lowest_lt (queue.map LogRecord.level)
          (fun hnil => hne (List.map_eq_nil_iff.mp hnil))
        rwa [List.length_map] at hlt
      simp only [if_true, List.length_append, List.length_singleton, List.length_eraseIdx, hlt]
      omega

/-- The records of the queue keep their order, and the new one is behind them. -/
theorem enqueue_sublist {accepted : List LogRecord} (h : queue.Sublist accepted) :
    (enqueue capacity queue record).queue.Sublist
      (accepted ++ if admits capacity queue record.level then [record] else []) := by
  unfold enqueue admits
  cases isFull capacity queue with
  | false => exact h.append (List.Sublist.refl _)
  | true =>
    cases replaces queue record.level with
    | false =>
      show queue.Sublist (accepted ++ [])
      rw [List.append_nil]
      exact h
    | true => exact ((List.eraseIdx_sublist _ _).trans h).append (List.Sublist.refl _)

end

end Wmfs.Log
