import Mathlib.Algebra.GroupWithZero.Nat
import Mathlib.Data.List.Sort
import Wmfs.Lib.Extents
import Wmfs.Lib.Transition

/-!
# `Wmfs.Memory.Model`: the memory of the buffer manager

The part of `BufferManager` (`memory/buffers.py`) that owns shared memory: `empty`,
`_storage_released`, `_collect`, `close`, and the two allocators behind them. In `pooled` mode
every allocation has a memory region of its own, and released regions go back to a pool. In
`arena` mode all allocations are extents of one region.

A region is named by its buffer id, which `_new_region` draws fresh. `regions` has the regions
created so far. `_active` is a dictionary from allocation ids, modelled by the list of its
buffers. `_free` is a dictionary from byte lengths to stacks of regions, modelled by one list
with the most recently cached region first: `available.pop()` takes the first one of the
right length.

One step is one critical section of the manager's lock, or one action of a collection
outside of it: a call of a recipient's `retire_buffers`, or the reset of a region. Only one
collection runs at a time, because `_collect` holds `_collection_lock`. The identifiers that
`secrets.randbits` returns are part of the label. The failure of an operating system call
(`memfd_create`, `ftruncate`, `mmap`) is not modelled.

`given`, `acknowledged`, `refused` and `resets` record the history of the run. No step reads
them.
-/

set_option autoImplicit false

namespace Wmfs.Memory

open Wmfs.Lib

/-- `mode`. -/
inductive Mode where
  | pooled
  | arena
  deriving DecidableEq, Repr

/-- `_ARENA_ALIGNMENT`. -/
def ARENA_ALIGNMENT : Nat := 64

/-- The largest generation. -/
def MAX_GENERATION : Nat := 0xFFFFFFFF

/-- The arguments of a manager that `__init__` accepts. -/
structure Config where
  mode : Mode
  arenaBytes : Nat
  maxCachedBuffers : Nat
  maxCachedBytes : Nat
  arenaBytes_pos : 0 < arenaBytes
  arenaBytes_aligned : ARENA_ALIGNMENT ∣ arenaBytes

/-- The sample size is positive. -/
theorem sixtyFour_pos : 0 < 64 := by decide

/-- The sample size is aligned. -/
theorem aligned_sixtyFour : ARENA_ALIGNMENT ∣ 64 := by decide

/-- The identity of a `BufferRecipient`. -/
abbrev RecipientId : Type := Nat

/-- `_MemoryRegion`. Its id is the key under which `regions` holds it. -/
structure Region where
  generation : Nat
  byteLength : Nat
  recipients : List RecipientId
  closed : Bool
  deriving DecidableEq, Repr

/-- `SharedBuffer`. `region` is the id of its region. -/
structure SharedBuffer where
  region : Nat
  generation : Nat
  allocationId : Nat
  offset : Nat
  byteLength : Nat
  arena : Bool
  deriving DecidableEq, Repr

/-- The region that a collection is reclaiming, and whether it has been reset. -/
structure Reclaiming where
  region : Nat
  reset : Bool
  deriving DecidableEq, Repr

/-- A running `_release_pooled_many`.

* `pending`: the rest of `by_recipient`.
* `failed`: `failed_regions`.
* `todo`: the buffers that the second loop still has to handle.
* `current`: the region inside `_reset_or_release_region`. -/
structure Collection where
  pending : List (RecipientId × List SharedBuffer)
  failed : List Nat
  todo : List SharedBuffer
  current : Option Reclaiming
  deriving DecidableEq, Repr

/-- One reset, with the recipients registered on the region before it and those of them that
had returned from `retire_buffers`. -/
structure Reset where
  region : Nat
  recipients : List RecipientId
  acknowledged : List RecipientId
  deriving DecidableEq, Repr

/-- The fields of the manager that concern memory, the running collection, and the history.

* `given`: the buffers handed out, most recent first.
* `acknowledged`: for each region, the recipients that have returned from `retire_buffers`
  since its last reset.
* `refused`: the regions for which a recipient has raised.
* `resets`: the resets, most recent first. -/
structure State where
  closed : Bool
  regions : Nat → Option Region
  active : List SharedBuffer
  released : List Nat
  free : List Nat
  cachedBytes : Nat
  arenaRegion : Option Nat
  arenaFree : List Extent
  collecting : Option Collection
  given : List SharedBuffer
  acknowledged : Nat → List RecipientId
  refused : List Nat
  resets : List Reset

/-- A new manager. -/
def State.init : State where
  closed := false
  regions := fun _ => none
  active := []
  released := []
  free := []
  cachedBytes := 0
  arenaRegion := none
  arenaFree := []
  collecting := none
  given := []
  acknowledged := fun _ => []
  refused := []
  resets := []

/-- `_align`. -/
def align (value alignment : Nat) : Nat := (value + alignment - 1) / alignment * alignment

/-! ### Regions -/

/-- The byte length of a region that exists. -/
def State.regionBytes (s : State) (region : Nat) : Nat :=
  ((s.regions region).map Region.byteLength).getD 0

/-- The generation of a region that exists. -/
def State.generation (s : State) (region : Nat) : Nat :=
  ((s.regions region).map Region.generation).getD 0

/-- Change a region that exists. -/
def State.modifyRegion (s : State) (region : Nat) (f : Region → Region) : State :=
  { s with regions := Function.update s.regions region ((s.regions region).map f) }

/-- `_new_region`. -/
def newRegion (s : State) (region byteLength : Nat) : State :=
  { s with regions := Function.update s.regions region (some ⟨1, byteLength, [], false⟩) }

/-- `_MemoryRegion.close`. -/
def closeRegion (s : State) (region : Nat) : State :=
  s.modifyRegion region fun r => { r with closed := true }

/-- `_MemoryRegion.reset`, which is called on an open region below the last generation. -/
def resetRegion (s : State) (region : Nat) : State :=
  { s.modifyRegion region (fun r => { r with generation := r.generation + 1, recipients := [] })
    with
    acknowledged := Function.update s.acknowledged region []
    resets := ⟨region, ((s.regions region).map Region.recipients).getD [],
      s.acknowledged region⟩ :: s.resets }

/-- `SharedBuffer._ensure_current`: whether the handle may still be used. -/
def ensureCurrent (s : State) (buffer : SharedBuffer) : Bool :=
  buffer.generation == s.generation buffer.region

/-! ### Allocation -/

/-- Why `empty` raises. -/
inductive AllocationError where
  | closed
  | exhausted (requested arenaBytes : Nat)
  deriving DecidableEq, Repr

/-- The text of the exception. -/
def AllocationError.message : AllocationError → String
  | .closed => "Buffer manager is closed"
  | .exhausted requested arenaBytes =>
    "Shared-memory arena exhausted; requested " ++ toString requested ++ " of " ++
      toString arenaBytes ++ " bytes"

/-- The loop of `_allocate_arena`: cut `required` bytes off the first extent that is long
enough, and return their offset. -/
def takeFirstFit (required : Nat) : List Extent → Option (Nat × List Extent)
  | [] => none
  | (offset, length) :: rest =>
    if length < required then
      (takeFirstFit required rest).map fun taken => (taken.1, (offset, length) :: taken.2)
    else if length > required then
      some (offset, (offset + required, length - required) :: rest)
    else some (offset, rest)

/-- The first lines of `_allocate_arena`: the first call creates the region. -/
def ensureArena (cfg : Config) (s : State) (region : Nat) : State :=
  match s.arenaRegion with
  | some _ => s
  | none => { newRegion s region cfg.arenaBytes with
      arenaRegion := some region
      arenaFree := [(0, cfg.arenaBytes)] }

/-- `_allocate_arena`. A call that fails may have created the region. -/
def allocateArena (cfg : Config) (s : State) (byteLength allocationId region : Nat) :
    State × Except AllocationError SharedBuffer :=
  let s := ensureArena cfg s region
  let required := align byteLength ARENA_ALIGNMENT
  match takeFirstFit required s.arenaFree with
  | none => (s, .error (.exhausted required cfg.arenaBytes))
  | some (offset, free) =>
    let owner := s.arenaRegion.getD region
    ({ s with arenaFree := free },
      .ok ⟨owner, s.generation owner, allocationId, offset, byteLength, true⟩)

/-- `_allocate_pooled`. -/
def allocatePooled (s : State) (byteLength allocationId region : Nat) : State × SharedBuffer :=
  match s.free.find? fun r => s.regionBytes r == byteLength with
  | some cached =>
    ({ s with
        free := s.free.eraseP fun r => s.regionBytes r == byteLength
        cachedBytes := s.cachedBytes - byteLength },
      ⟨cached, s.generation cached, allocationId, 0, byteLength, false⟩)
  | none => (newRegion s region byteLength, ⟨region, 1, allocationId, 0, byteLength, false⟩)

/-- The end of `empty`: the allocation becomes active. -/
def activate (s : State) (buffer : SharedBuffer) : State :=
  { s with active := buffer :: s.active, given := buffer :: s.given }

/-- The critical section of `empty`, with the buffer or the exception. -/
def allocate (cfg : Config) (s : State) (byteLength allocationId region : Nat) :
    State × Except AllocationError SharedBuffer :=
  if s.closed then (s, .error .closed)
  else match cfg.mode with
    | .arena =>
      match allocateArena cfg s byteLength allocationId region with
      | (s, .error e) => (s, .error e)
      | (s, .ok buffer) => (activate s buffer, .ok buffer)
    | .pooled =>
      let allocated := allocatePooled s byteLength allocationId region
      (activate allocated.1 allocated.2, .ok allocated.2)

/-! ### Collection -/

/-- The loop that coalesces: `last` is `merged[-1]`. -/
def mergeFrom (last : Extent) : List Extent → List Extent
  | [] => [last]
  | (offset, size) :: rest =>
    if last.1 + last.2 = offset then mergeFrom (last.1, last.2 + size) rest
    else last :: mergeFrom (offset, size) rest

/-- The merge loop of `_release_arena`. -/
def mergeExtents : List Extent → List Extent
  | [] => []
  | extent :: rest => mergeFrom extent rest

/-- The order in which Python sorts pairs. -/
def extentLe (a b : Extent) : Prop := a.1 < b.1 ∨ (a.1 = b.1 ∧ a.2 ≤ b.2)

instance : DecidableRel extentLe := fun a b =>
  inferInstanceAs (Decidable (a.1 < b.1 ∨ (a.1 = b.1 ∧ a.2 ≤ b.2)))

/-- The extent of a live arena allocation. -/
def SharedBuffer.extent (buffer : SharedBuffer) : Extent :=
  (buffer.offset, align buffer.byteLength ARENA_ALIGNMENT)

/-- `_release_arena`. -/
def releaseArena (s : State) (buffer : SharedBuffer) : State :=
  let s := { s with
    arenaFree := mergeExtents ((s.arenaFree ++ [buffer.extent]).insertionSort extentLe) }
  match s.closed && s.active.isEmpty, s.arenaRegion with
  | true, some region => { closeRegion s region with arenaRegion := none }
  | _, _ => s

/-- The loop of `_collect` over the ids that it takes from the queue. The second component
is `pooled`. -/
def drain (s : State) : List Nat → State × List SharedBuffer
  | [] => (s, [])
  | allocationId :: rest =>
    match s.active.find? fun buffer => buffer.allocationId == allocationId with
    | none => drain s rest
    | some buffer =>
      let s := { s with
        active := s.active.eraseP fun buffer => buffer.allocationId == allocationId }
      if buffer.arena then drain (releaseArena s buffer) rest
      else
        let drained := drain s rest
        (drained.1, buffer :: drained.2)

/-- An id without an active allocation is skipped. -/
theorem drain_of_none {s : State} {allocationId : Nat} (ids : List Nat)
    (hfind : s.active.find? (fun buffer => buffer.allocationId == allocationId) = none) :
    drain s (allocationId :: ids) = drain s ids := by
  simp only [drain, hfind]

/-- The recipients of a buffer's region. -/
def State.recipients (s : State) (region : Nat) : List RecipientId :=
  ((s.regions region).map Region.recipients).getD []

/-- `by_recipient`: for each recipient of some region, the buffers to retire. -/
def byRecipient (s : State) (buffers : List SharedBuffer) :
    List (RecipientId × List SharedBuffer) :=
  (buffers.flatMap fun buffer => s.recipients buffer.region).dedup.map fun recipient =>
    (recipient, buffers.filter fun buffer => recipient ∈ s.recipients buffer.region)

/-- The start of a collection: the queue is drained under the lock, and the pooled buffers
are grouped by recipient. -/
def collectBegin (s : State) : Option State :=
  match s.collecting with
  | some _ => none
  | none =>
    let drained := drain { s with released := [] } s.released
    some { drained.1 with
      collecting := some ⟨byRecipient drained.1 drained.2, [], drained.2, none⟩ }

/-- The next recipient's `retire_buffers` returns (`ok`) or raises. -/
def retire (s : State) (ok : Bool) : Option State :=
  match s.collecting with
  | some ⟨(recipient, buffers) :: pending, failed, todo, current⟩ =>
    let regions := buffers.map SharedBuffer.region
    if ok then
      some { s with
        acknowledged := fun region =>
          if region ∈ regions then recipient :: s.acknowledged region
          else s.acknowledged region
        collecting := some ⟨pending, failed, todo, current⟩ }
    else
      some { s with
        refused := regions ++ s.refused
        collecting := some ⟨pending, regions ++ failed, todo, current⟩ }
  | _ => none

/-- The second loop of `_release_pooled_many`, up to the reset of the next region. -/
def reclaim (s : State) : Option State :=
  match s.collecting with
  | some ⟨[], failed, buffer :: todo, none⟩ =>
    let s := { s with collecting := some ⟨[], failed, todo, none⟩ }
    if buffer.region ∈ failed then some (closeRegion s buffer.region)
    else if s.closed || s.generation buffer.region == MAX_GENERATION then
      some (closeRegion s buffer.region)
    else some { s with collecting := some ⟨[], failed, todo, some ⟨buffer.region, false⟩⟩ }
  | _ => none

/-- The reset of the region that is being reclaimed. -/
def reset (s : State) : Option State :=
  match s.collecting with
  | some ⟨[], failed, todo, some ⟨region, false⟩⟩ =>
    some { resetRegion s region with
      collecting := some ⟨[], failed, todo, some ⟨region, true⟩⟩ }
  | _ => none

/-- The last critical section of `_reset_or_release_region`. -/
def cache (cfg : Config) (s : State) : Option State :=
  match s.collecting with
  | some ⟨[], failed, todo, some ⟨region, true⟩⟩ =>
    let s := { s with collecting := some ⟨[], failed, todo, none⟩ }
    if s.closed || s.free.length ≥ cfg.maxCachedBuffers ||
        s.cachedBytes + s.regionBytes region > cfg.maxCachedBytes then
      some (closeRegion s region)
    else some { s with
      free := region :: s.free
      cachedBytes := s.cachedBytes + s.regionBytes region }
  | _ => none

/-- The end of a collection. -/
def collectEnd (s : State) : Option State :=
  match s.collecting with
  | some ⟨[], _, [], none⟩ => some { s with collecting := none }
  | _ => none

/-- The last critical section of `close`. -/
def closeEnd (s : State) : State :=
  let s := { s.free.foldl closeRegion s with free := [], cachedBytes := 0 }
  match s.arenaRegion, s.active with
  | some region, [] => { closeRegion s region with arenaRegion := none }
  | _, _ => s

/-- Closing regions leaves the other fields of the state alone. -/
theorem foldl_closeRegion_eq : ∀ (regions : List Nat) (s : State),
    regions.foldl closeRegion s = { s with regions := (regions.foldl closeRegion s).regions } := by
  intro regions
  induction regions with
  | nil => intro s; rfl
  | cons region regions ih =>
    intro s
    rw [List.foldl_cons, ih]
    rfl

/-! ### The machine -/

/-- The labels.

* `allocate`: the critical section of `empty`, with the ids that it draws.
* `storageReleased`: the finalizer of a storage runs. It runs once, while the allocation is
  active.
* `register`: `register_recipient` on a live buffer. -/
inductive Act where
  | allocate (byteLength allocationId region : Nat)
  | storageReleased (allocationId : Nat)
  | register (buffer : SharedBuffer) (recipient : RecipientId)
  | collectBegin
  | retire (ok : Bool)
  | reclaim
  | reset
  | cache
  | collectEnd
  | closeBegin
  | closeEnd
  deriving DecidableEq, Repr

/-- The storage of the allocation has not been released. -/
def State.isLive (s : State) (buffer : SharedBuffer) : Bool :=
  decide (buffer ∈ s.active) && decide (buffer.allocationId ∉ s.released)

/-- `register_recipient`. -/
def register (s : State) (buffer : SharedBuffer) (recipient : RecipientId) : State :=
  if !ensureCurrent s buffer || buffer.arena then s
  else s.modifyRegion buffer.region fun r =>
    { r with recipients := if recipient ∈ r.recipients then r.recipients
        else recipient :: r.recipients }

/-- One step. -/
def step (cfg : Config) (s : State) : Act → Option State
  | .allocate byteLength allocationId region =>
    -- The ids are nonzero and not in use, and the shape of a tensor is positive.
    if 0 < byteLength ∧ allocationId ≠ 0 ∧ (∀ buffer ∈ s.active, buffer.allocationId ≠ allocationId)
        ∧ region ≠ 0 ∧ s.regions region = none then
      some (allocate cfg s byteLength allocationId region).1
    else none
  | .storageReleased allocationId =>
    if (∃ buffer ∈ s.active, buffer.allocationId = allocationId) ∧ allocationId ∉ s.released then
      some { s with released := s.released ++ [allocationId] }
    else none
  | .register buffer recipient =>
    if s.isLive buffer then some (register s buffer recipient) else none
  | .collectBegin => collectBegin s
  | .retire ok => retire s ok
  | .reclaim => reclaim s
  | .reset => reset s
  | .cache => cache cfg s
  | .collectEnd => collectEnd s
  | .closeBegin => some { s with closed := true }
  | .closeEnd => if s.closed then some (closeEnd s) else none

/-- The memory of a manager as a machine. -/
def memoryMachine (cfg : Config) : Machine State Act := ⟨.init, step cfg⟩

/-! ### Steps that move no allocation -/

/-- The registrations, the steps of a collection after its start, and the start of `close`. -/
def Act.quiet : Act → Bool
  | .register _ _ | .retire _ | .reclaim | .reset | .cache | .collectEnd | .closeBegin => true
  | .allocate _ _ _ | .storageReleased _ | .collectBegin | .closeEnd => false

/-- Two states with the same allocations, the same released storages and the same arena. -/
structure SameAllocations (s t : State) : Prop where
  active : t.active = s.active
  released : t.released = s.released
  arenaRegion : t.arenaRegion = s.arenaRegion
  arenaFree : t.arenaFree = s.arenaFree

/-- A quiet step leaves the allocations alone. -/
theorem sameAllocations_of_quiet {cfg : Config} {s t : State} {act : Act}
    (hquiet : act.quiet = true) (hs : step cfg s act = some t) : SameAllocations s t := by
  cases act with
  | allocate | storageReleased | collectBegin | closeEnd => cases hquiet
  | register buffer recipient =>
    simp only [step] at hs
    split at hs <;> cases hs
    unfold register
    split <;> exact ⟨rfl, rfl, rfl, rfl⟩
  | retire ok =>
    simp only [step, retire] at hs
    split at hs
    · split at hs <;> cases hs <;> exact ⟨rfl, rfl, rfl, rfl⟩
    · cases hs
  | reclaim =>
    -- The region is closed, because a recipient failed or because it cannot be reset, or kept.
    simp only [step, reclaim] at hs
    split at hs
    · split at hs
      · cases hs
        exact ⟨rfl, rfl, rfl, rfl⟩
      · split at hs <;> cases hs <;> exact ⟨rfl, rfl, rfl, rfl⟩
    · cases hs
  | reset =>
    simp only [step, reset] at hs
    split at hs <;> cases hs
    exact ⟨rfl, rfl, rfl, rfl⟩
  | cache =>
    simp only [step, cache] at hs
    split at hs
    · split at hs <;> cases hs <;> exact ⟨rfl, rfl, rfl, rfl⟩
    · cases hs
  | collectEnd =>
    simp only [step, collectEnd] at hs
    split at hs <;> cases hs
    exact ⟨rfl, rfl, rfl, rfl⟩
  | closeBegin =>
    cases hs
    exact ⟨rfl, rfl, rfl, rfl⟩

end Wmfs.Memory
