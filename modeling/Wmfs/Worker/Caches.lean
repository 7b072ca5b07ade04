import Wmfs.Session.MappingCache

/-!
# `Wmfs.Worker.Caches`: the two mapping caches of a worker

A Python worker keeps its mappings in the `MappedBufferCache` of
`wmfs_plugin/fd_transport.py`, and the native worker in the class of the same name of
`src/reference_mapped_buffers.cpp`. The Python cache is the one of
`Wmfs.Session.MappingCache`, and this module sets the native one beside it.

The caches differ when a buffer that is mapped is mapped again. The Python cache accepts the
request when all attributes are those of the mapping that it holds. The native cache does not
look at the byte length and the invocation, takes a read-only request for a writable mapping,
and ignores the allocation of an arena (`coversExisting`). A request that either cache accepts
or refuses in this way leaves the cache as it was, and so the caches hold the same mappings
after every run (`caches_agree_iff`, first part). They give the same verdicts on exactly the
runs in which no request is covered by a mapping that it differs from (second part).
-/

set_option autoImplicit false

namespace Wmfs.Worker.Caches

open Wmfs.Session.Cache (CacheError Mapping Worker add finishInvocation)

/-- Why a cache refuses an operation. -/
inductive Refusal where
  /-- `mmap` refuses an empty file in Python, and the native cache a byte length of zero. -/
  | empty
  | cache (error : CacheError)
  deriving DecidableEq, Repr

/-- The operations on a cache. A map request comes with a file of its byte length. -/
inductive Op where
  | map (mapping : Mapping)
  | retire (bufferId generation allocationId : Nat)
  | finishInvocation (invocationId : Nat)
  | close
  deriving DecidableEq, Repr

/-- An empty cache. -/
def empty : Worker := fun _ => none

/-! ### The Python cache -/

namespace Python

/-- `MappedBufferCache.add`, with a file of the byte length. -/
def add (cache : Worker) (mapping : Mapping) : Except Refusal Worker :=
  if mapping.byteLength = 0 then .error .empty
  else (Session.Cache.add cache mapping mapping.byteLength).mapError .cache

/-- `MappedBufferCache.retire`. -/
def retire (cache : Worker) (bufferId generation allocationId : Nat) : Except Refusal Worker :=
  match cache bufferId with
  | none => .ok cache
  | some existing =>
    if existing.generation ≠ generation ∨ existing.allocationId ≠ allocationId then
      .error (.cache .staleGeneration)
    else if existing.arena then .error (.cache .arenaRetired)
    else .ok (Function.update cache bufferId none)

/-- One call of a method of the Python cache. -/
def step (cache : Worker) : Op → Except Refusal Worker
  | .map mapping => add cache mapping
  | .retire bufferId generation allocationId => retire cache bufferId generation allocationId
  | .finishInvocation invocationId => .ok (finishInvocation cache invocationId)
  | .close => .ok empty

end Python

/-! ### The native cache -/

namespace Native

/-- The native cache takes the request as one for the mapping `current` that it holds. -/
def coversExisting (current spec : Mapping) : Bool :=
  current.generation == spec.generation && (current.writable || !spec.writable) &&
    current.arena == spec.arena && (spec.arena || current.allocationId == spec.allocationId)

/-- `MappedBufferCache::map`, with a file of the byte length. -/
def map (cache : Worker) (spec : Mapping) : Except Refusal Worker :=
  if spec.byteLength = 0 then .error .empty
  else match cache spec.bufferId with
    | some current =>
      if coversExisting current spec then .ok cache else .error (.cache .remap)
    | none => .ok (Function.update cache spec.bufferId (some spec))

/-- `MappedBufferCache::retire`. -/
def retire (cache : Worker) (bufferId generation allocationId : Nat) : Except Refusal Worker :=
  match cache bufferId with
  | none => .ok cache
  | some spec =>
    if spec.generation ≠ generation ∨ spec.allocationId ≠ allocationId then
      .error (.cache .staleGeneration)
    else if spec.arena then .error (.cache .arenaRetired)
    else .ok (Function.update cache bufferId none)

/-- `MappedBufferCache::finish_invocation`. -/
def finishInvocation (cache : Worker) (invocationId : Nat) : Worker := fun bufferId =>
  match cache bufferId with
  | none => none
  | some spec =>
    if spec.writable && !spec.arena && spec.invocationId == invocationId then none else some spec

/-- One call of a method of the native cache. -/
def step (cache : Worker) : Op → Except Refusal Worker
  | .map spec => map cache spec
  | .retire bufferId generation allocationId => retire cache bufferId generation allocationId
  | .finishInvocation invocationId => .ok (finishInvocation cache invocationId)
  | .close => .ok empty

end Native

/-! ### Runs -/

/-- The cache after an operation: a refused one leaves it as it was. -/
def after (step : Worker → Op → Except Refusal Worker) (cache : Worker) (op : Op) : Worker :=
  match step cache op with
  | .ok next => next
  | .error _ => cache

/-- The cache after a list of operations. -/
def run (step : Worker → Op → Except Refusal Worker) (cache : Worker) (ops : List Op) : Worker :=
  ops.foldl (after step) cache

/-- Which operations of the list are accepted, and the cache after each. -/
def trace (step : Worker → Op → Except Refusal Worker) :
    Worker → List Op → List (Bool × Worker)
  | _, [] => []
  | cache, op :: ops =>
    ((step cache op).isOk, after step cache op) :: trace step (after step cache op) ops

/-- The two mappings have the attributes that the Python cache compares. -/
def SameAttributes (existing mapping : Mapping) : Prop :=
  existing.generation = mapping.generation ∧ existing.allocationId = mapping.allocationId ∧
    existing.byteLength = mapping.byteLength ∧ existing.writable = mapping.writable ∧
    existing.arena = mapping.arena ∧ existing.invocationId = mapping.invocationId

instance (existing mapping : Mapping) : Decidable (SameAttributes existing mapping) :=
  inferInstanceAs (Decidable (_ ∧ _))

/-- The operation maps a buffer again that the cache holds with another attribute, in the way
that the native cache takes for the same mapping. -/
def LooseRemap (cache : Worker) : Op → Prop
  | .map mapping => mapping.byteLength ≠ 0 ∧ ∃ existing, cache mapping.bufferId = some existing ∧
    Native.coversExisting existing mapping = true ∧ ¬ SameAttributes existing mapping
  | _ => False

/-! ### One operation -/

/-- A mapping with the same attributes covers the request. -/
theorem coversExisting_of_sameAttributes {existing mapping : Mapping}
    (h : SameAttributes existing mapping) : Native.coversExisting existing mapping = true := by
  obtain ⟨hgeneration, hallocation, _, hwritable, harena, _⟩ := h
  rw [Native.coversExisting, hgeneration, hallocation, hwritable, harena]
  cases mapping.writable <;> cases mapping.arena <;> simp

/-- `finish_invocation` drops the same mappings from both caches. -/
theorem finishInvocation_eq (cache : Worker) (invocationId : Nat) :
    Native.finishInvocation cache invocationId = finishInvocation cache invocationId := by
  funext bufferId
  rw [Native.finishInvocation, finishInvocation]
  cases cache bufferId with
  | none => rfl
  | some spec =>
    rw [Option.filter_some]
    show (if spec.expiresWith invocationId then none else some spec) = _
    cases spec.expiresWith invocationId <;> rfl

/-- What the Python cache does with a request for a buffer that it holds. -/
theorem Python.add_of_existing {cache : Worker} {mapping existing : Mapping}
    (hlength : mapping.byteLength ≠ 0) (hexisting : cache mapping.bufferId = some existing) :
    (SameAttributes existing mapping → Python.add cache mapping = .ok cache) ∧
      (¬ SameAttributes existing mapping →
        Python.add cache mapping = .error (.cache .remap)) := by
  unfold Python.add Session.Cache.add
  rw [if_neg hlength, if_neg (not_not.mpr rfl), hexisting]
  constructor
  · intro hsame
    show Except.mapError _ (if SameAttributes existing mapping then _ else _) = _
    rw [if_pos hsame]
    rfl
  · intro hdiffers
    show Except.mapError _ (if SameAttributes existing mapping then _ else _) = _
    rw [if_neg hdiffers]
    rfl

/-- A request for a buffer that is not mapped has the same result in both caches. -/
theorem Python.add_eq_map_of_unmapped {cache : Worker} {mapping : Mapping}
    (hunmapped : cache mapping.bufferId = none) :
    Python.add cache mapping = Native.map cache mapping := by
  unfold Python.add Session.Cache.add Native.map
  rw [hunmapped, if_neg (not_not.mpr rfl)]
  split <;> rfl

/-- One operation leaves the two caches alike, and both give the same verdict on it unless it is
a loose remap. -/
theorem step_agrees (cache : Worker) (op : Op) :
    after Python.step cache op = after Native.step cache op ∧
      ((Python.step cache op).isOk = (Native.step cache op).isOk ↔ ¬ LooseRemap cache op) := by
  cases op with
  | map mapping =>
    by_cases hlength : mapping.byteLength = 0
    · simp [after, Python.step, Native.step, Python.add, Native.map, LooseRemap, hlength]
    cases hexisting : cache mapping.bufferId with
    | none =>
      have hsame := Python.add_eq_map_of_unmapped hexisting
      simp [after, Python.step, Native.step, LooseRemap, hsame, hexisting]
    | some existing =>
      have hnative : Native.map cache mapping =
          if Native.coversExisting existing mapping then .ok cache
          else .error (.cache .remap) := by
        rw [Native.map, if_neg hlength, hexisting]
      obtain ⟨haccept, hrefuse⟩ := Python.add_of_existing hlength hexisting
      by_cases hsame : SameAttributes existing mapping
      · have hcovers := coversExisting_of_sameAttributes hsame
        simp [after, Python.step, Native.step, LooseRemap, haccept hsame, hnative, hcovers,
          hexisting, hsame]
      · cases hcovers : Native.coversExisting existing mapping with
        | false =>
          simp [after, Python.step, Native.step, LooseRemap, hrefuse hsame, hnative, hcovers,
            hexisting, Except.isOk, Except.toBool]
        | true =>
          simp [after, Python.step, Native.step, LooseRemap, hrefuse hsame, hnative, hcovers,
            hexisting, hsame, hlength, Except.isOk, Except.toBool]
  | retire bufferId generation allocationId =>
    exact ⟨rfl, iff_of_true rfl id⟩
  | finishInvocation invocationId =>
    have hsame : Native.step cache (.finishInvocation invocationId) =
        Python.step cache (.finishInvocation invocationId) := by
      rw [Native.step, Python.step, finishInvocation_eq]
    exact ⟨by rw [after, after, hsame], iff_of_true (by rw [hsame]) id⟩
  | close => exact ⟨rfl, iff_of_true rfl id⟩

/-! ### The caches -/

/-- After every run the two caches hold the same mappings. -/
theorem run_agrees (cache : Worker) (ops : List Op) :
    run Python.step cache ops = run Native.step cache ops := by
  induction ops generalizing cache with
  | nil => rfl
  | cons op ops ih =>
    show run Python.step (after Python.step cache op) ops =
      run Native.step (after Native.step cache op) ops
    rw [(step_agrees cache op).1, ih]

/-- The caches have the same trace when no operation of the run is a loose remap. -/
theorem trace_eq_iff (cache : Worker) (ops : List Op) :
    trace Python.step cache ops = trace Native.step cache ops ↔
      ∀ before op rest, ops = before ++ op :: rest →
        ¬ LooseRemap (run Native.step cache before) op := by
  induction ops generalizing cache with
  | nil => simp [trace]
  | cons op ops ih =>
    obtain ⟨hafter, hverdict⟩ := step_agrees cache op
    rw [trace, trace, List.cons.injEq, Prod.mk.injEq, hverdict, hafter, ih]
    constructor
    · intro ⟨⟨hfirst, _⟩, hrest⟩ before other rest hops
      cases before with
      | nil =>
        cases hops
        exact hfirst
      | cons head before =>
        cases hops
        exact hrest before other rest rfl
    · intro h
      refine ⟨⟨h [] op ops rfl, rfl⟩, ?_⟩
      intro before other rest hops
      exact h (op :: before) other rest (by rw [hops]; rfl)

/-- **The two caches of a worker.** From the empty cache, the same operations leave the same
mappings with the same attributes in both caches, and both accept and refuse the same operations
exactly when no operation maps a buffer again that is held with another attribute and that the
native cache takes for the same. -/
theorem caches_agree_iff (ops : List Op) :
    run Python.step empty ops = run Native.step empty ops ∧
      (trace Python.step empty ops = trace Native.step empty ops ↔
        ∀ before op rest, ops = before ++ op :: rest →
          ¬ LooseRemap (run Native.step empty before) op) :=
  ⟨run_agrees empty ops, trace_eq_iff empty ops⟩

/-- A buffer that is mapped writable for an invocation. -/
def writableFor (invocationId : Nat) : Mapping where
  bufferId := 1
  generation := 1
  allocationId := 1
  byteLength := 16
  writable := true
  arena := false
  invocationId := invocationId

/-- The native cache accepts a writable mapping for a second invocation, which the Python cache
refuses. It goes on under the first one, whose end drops it. -/
theorem native_remaps_for_other_invocation :
    trace Python.step empty [.map (writableFor 1), .map (writableFor 2)] ≠
        trace Native.step empty [.map (writableFor 1), .map (writableFor 2)] ∧
      (trace Python.step empty [.map (writableFor 1), .map (writableFor 2)]).map Prod.fst =
        [true, false] ∧
      (trace Native.step empty [.map (writableFor 1), .map (writableFor 2)]).map Prod.fst =
        [true, true] ∧
      run Native.step empty [.map (writableFor 1), .map (writableFor 2),
        .finishInvocation 1] 1 = none := by
  have hpython : (trace Python.step empty
      [.map (writableFor 1), .map (writableFor 2)]).map Prod.fst = [true, false] := by decide
  have hnative : (trace Native.step empty
      [.map (writableFor 1), .map (writableFor 2)]).map Prod.fst = [true, true] := by decide
  refine ⟨?_, hpython, hnative, by decide⟩
  intro h
  rw [h, hnative] at hpython
  exact absurd hpython (by decide)

end Wmfs.Worker.Caches
