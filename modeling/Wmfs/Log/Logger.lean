import Wmfs.Lib.Transition
import Wmfs.Log.Queue

/-!
# `Wmfs.Log.Logger`: a logger, its bound copies and its sender

`AsyncLogger` (`wmfs_plugin/logging.py`) is the logger of a worker, and `InProcessLogger`
(`wmfs/logging.py`) the one of a bundled plugin. `log` puts a record into the queue, and a thread
takes it out and delivers it. `bind` copies `__dict__`. So the copies share the queue and the
lock, but `_dropped` and `_sequence` are integers, and each copy has its own from then on. The
sender is a method of the first logger and reads that one's.

A step is one critical section of `_condition`, or one delivery. A call of `log` is one step, and
its message and category are texts: `str`, which the source calls inside the lock behind
`_sequence += 1`, does not raise on them. The clock, the context variable and the outcome of a
delivery are in the label of the step. A delivery that fails leaves nothing behind. `close` is not
modelled.

`AsyncLogger.log` compares the length of the queue by `>=`, and `InProcessLogger.log` by `==`. Both
are `enqueue` here, because no queue gets longer than its capacity (`InProcess.enqueue_reached`).
-/

set_option autoImplicit false

namespace Wmfs.Log

open Wmfs.Lib
open Wmfs.Lib.Utf8 (Text)

/-- `FLAG_SYNTHETIC`. -/
def FLAG_SYNTHETIC : Int := 2

/-- `fields[name] = value`: the value changes in its place, or it is a new entry at the end. -/
def Fields.set (fields : Fields) (name : Text) (value : LogValue) : Fields :=
  if h : name ∈ fields.entries.map Prod.fst then
    { entries := fields.entries.map fun entry =>
        if entry.1 = name then (name, value) else entry
      nodup := by
        have hnames : (fields.entries.map fun entry =>
            if entry.1 = name then (name, value) else entry).map Prod.fst =
              fields.entries.map Prod.fst := by
          rw [List.map_map]
          apply List.map_congr_left
          intro entry _
          show (if entry.1 = name then (name, value) else entry).1 = entry.1
          split
          · exact Eq.symm ‹_›
          · rfl
        rw [hnames]
        exact fields.nodup }
  else fields.push name value h

/-- `{**bound, **fields}`. -/
def Fields.merge (bound fields : Fields) : Fields :=
  fields.entries.foldl (fun merged entry => merged.set entry.1 entry.2) bound

example (a b : Text) (v w : LogValue) (h : a ≠ b) :
    ((Fields.empty.set a v).set b w).merge (Fields.empty.set a w) =
      (Fields.empty.set a w).set b w := by
  simp [Fields.merge, Fields.set, Fields.push, Fields.empty, h, h.symm]

namespace Logger

/-- The two classes. -/
inductive Kind where
  | async
  | inProcess
  deriving DecidableEq, Repr

/-- What the constructor takes of the options, which admit no queue without a place. -/
structure Options where
  kind : Kind
  level : Int
  capacity : ℕ+

/-- What each copy of a logger has for itself: `_bound`, `_dropped` and `_sequence`. -/
structure Copy where
  bound : Fields
  dropped : Nat
  sequence : Nat
  deriving DecidableEq

/-- Where the sender is.

* `waiting`: for a record, or for the lock.
* `reporting`: it has taken a record, with a drop count that is not 0, and delivers the report.
* `delivering`: it delivers the record. It has reported this many drops before.
* `failed`: a delivery has raised, and it waits for the lock to add this many drops. -/
inductive Sender where
  | waiting
  | reporting (record : LogRecord) (dropped : Nat)
  | delivering (record : LogRecord) (dropped : Nat)
  | failed (lost : Nat)
  deriving DecidableEq

/-- A logger with the copies that `bind` has made of it. `calls`, `accepted`, `delivered` and
`reports` are the history: the number of calls of `log` at an enabled level, the records that went
into the queue, the records that have been delivered and the synthetic ones. -/
structure State where
  root : Copy
  derived : List Copy
  queue : List LogRecord
  sender : Sender
  calls : Nat
  accepted : List LogRecord
  delivered : List LogRecord
  reports : List LogRecord

/-- A new logger with these bound fields. -/
def initial (bound : Fields) : State where
  root := { bound, dropped := 0, sequence := 0 }
  derived := []
  queue := []
  sender := .waiting
  calls := 0
  accepted := []
  delivered := []
  reports := []

/-- The first logger, or one of its copies. -/
abbrev LoggerId : Type := Option Nat

/-- The logger with this number: the first one, or a copy. -/
def State.logger? (s : State) : LoggerId → Option Copy
  | none => some s.root
  | some index => s.derived[index]?

/-- The state with another value of this logger. -/
def State.setLogger (s : State) (copy : Copy) : LoggerId → State
  | none => { s with root := copy }
  | some index => { s with derived := s.derived.set index copy }

/-- A step: a call of `log` or `bind`, or one of the sender. -/
inductive Action where
  | log (logger : LoggerId) (level : Int) (message category : Text) (fields : Fields)
      (timeNs : Int) (context : LogContext)
  | bind (logger : LoggerId) (fields : Fields)
  | take
  | deliverReport (timeNs : Int) (fails : Bool)
  | deliver (fails : Bool)
  | restore

/-- The record that `log` makes. -/
def Copy.record (copy : Copy) (level : Int) (message category : Text) (fields : Fields)
    (timeNs : Int) (context : LogContext) : LogRecord where
  level
  message
  category
  fields := copy.bound.merge fields
  sequence := copy.sequence + 1
  timeNs
  context
  flags := 0
  droppedBefore := 0

/-- `log` with a record of its copy at an enabled level. -/
def State.log (options : Options) (s : State) (logger : LoggerId) (copy : Copy)
    (record : LogRecord) : State :=
  let enqueued := enqueue options.capacity s.queue record
  let copy := { copy with
    sequence := copy.sequence + 1
    dropped := copy.dropped + if enqueued.dropped then 1 else 0 }
  { s.setLogger copy logger with
    queue := enqueued.queue
    calls := s.calls + 1
    accepted := s.accepted ++ if enqueued.accepted then [record] else [] }

/-- `f"dropped {dropped} plugin log records"`. -/
def reportMessage (dropped : Nat) : Text :=
  Utf8.ofString s!"dropped {dropped} plugin log records"

/-- The synthetic record in front of a record. -/
def report (record : LogRecord) (dropped : Nat) (timeNs : Int) : LogRecord where
  level := 30
  message := reportMessage dropped
  category := Utf8.ofString "wmfs.logging"
  fields := .empty
  sequence := record.sequence
  timeNs
  context := record.context
  flags := FLAG_SYNTHETIC
  droppedBefore := dropped

/-- The `except` clause of the sender. `InProcessLogger._run` has only `pass`. -/
def Sender.raise (options : Options) (dropped : Nat) : Sender :=
  match options.kind with
  | .async => .failed (dropped + 1)
  | .inProcess => .waiting

/-- The record that is delivered. `InProcessLogger._run` makes a copy with the drop count. -/
def outgoing (options : Options) (record : LogRecord) (dropped : Nat) : LogRecord :=
  match options.kind with
  | .async => record
  | .inProcess => { record with droppedBefore := dropped }

/-- What a step does, and `none` where it is not enabled. -/
def step (options : Options) (s : State) : Action → Option State
  | .log logger level message category fields timeNs context =>
    match s.logger? logger with
    | none => none
    | some copy =>
      if level ≥ options.level then
        some (s.log options logger copy
          (copy.record level message category fields timeNs context))
      else some s
  | .bind logger fields =>
    match s.logger? logger with
    | none => none
    | some copy =>
      some { s with derived := s.derived ++ [{ copy with bound := copy.bound.merge fields }] }
  | .take =>
    match s.sender, s.queue with
    | .waiting, record :: queue =>
      let dropped := s.root.dropped
      some { s with
        root := { s.root with dropped := 0 }
        queue
        sender := if dropped = 0 then .delivering record 0 else .reporting record dropped }
    | _, _ => none
  | .deliverReport timeNs fails =>
    match s.sender with
    | .reporting record dropped =>
      if fails then some { s with sender := .raise options dropped }
      else some { s with
        sender := .delivering record dropped
        reports := s.reports ++ [report record dropped timeNs] }
    | _ => none
  | .deliver fails =>
    match s.sender with
    | .delivering record dropped =>
      if fails then some { s with sender := .raise options dropped }
      else some { s with
        sender := .waiting
        delivered := s.delivered ++ [outgoing options record dropped] }
    | _ => none
  | .restore =>
    match s.sender with
    | .failed lost => some { s with
        root := { s.root with dropped := s.root.dropped + lost }
        sender := .waiting }
    | _ => none

/-- A logger with its copies and its sender. -/
def machine (options : Options) (bound : Fields) : Machine State Action where
  init := initial bound
  step := step options

end Logger

end Wmfs.Log
