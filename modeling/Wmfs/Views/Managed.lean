import Wmfs.Invocation.Outputs
import Wmfs.Memory.Placement
import Wmfs.Views.Validation

/-!
# `Wmfs.Views.Managed`: the descriptor of a managed view

`BufferManager.managed` (`memory/buffers.py`) describes a view of a live allocation to the worker.
The geometry of a `torch.Tensor` counts elements from the start of its storage, which is the start
of the allocation. That of a descriptor counts bytes from the start of the region, which may have
other allocations.

`managed_denotes` says that the two agree on every element, that the worker accepts the
descriptor, and that its bytes are those of the allocation. A view with an element outside of the
allocation is refused: the bound that `managed` checks is the last byte of the last element.
-/

set_option autoImplicit false

namespace Wmfs.Views

open Wmfs.Lib
open Wmfs.Lib.Strided (InShape position reach)
open Wmfs.Invocation (Tensor Buffer ManagedTensor Manager managed viewOf valueError)

/-- A strided view in memory of the CPU. Its dtype is supported, and the size of an element is that
of the dtype. -/
structure StridedView (tensor : Tensor) : Prop where
  cpu : tensor.cpu = true
  strided : tensor.strided = true
  dtype : Invocation.ITEM_SIZES.lookup tensor.dtype = some tensor.elementSize
  rank : 0 < tensor.shape.length ∧ tensor.shape.length ≤ 16
  positive : ∀ dimension ∈ tensor.shape, 0 < dimension
  nonneg : ∀ stride ∈ tensor.strides, 0 ≤ stride

/-- The address of an element in the region: the storage starts where the allocation does. -/
def elementAddress (buffer : Buffer) (tensor : Tensor) (index : List Int) : Int :=
  buffer.offset + (tensor.storageOffset + position index tensor.strides) * tensor.elementSize

/-- All elements of the view lie in the storage. -/
def InStorage (buffer : Buffer) (tensor : Tensor) : Prop :=
  ∀ index, InShape index tensor.sizes →
    buffer.offset ≤ elementAddress buffer tensor index ∧
      elementAddress buffer tensor index + tensor.elementSize ≤ buffer.offset + buffer.byteLength

/-- The descriptor denotes the view, in a region of this length. -/
structure Denotes (length : Nat) (buffer : Buffer) (tensor : Tensor) (item : ManagedTensor) :
    Prop where
  bufferId : item.descriptor.bufferId = buffer.region
  dtype : item.descriptor.dtype = tensor.dtype
  shape : item.descriptor.shape = tensor.sizes
  accepted : ∃ itemSize, ITEM_SIZES.lookup item.descriptor.dtype = some itemSize ∧
    validateView length item.descriptor.offset item.descriptor.byteLength itemSize
      item.descriptor.shape item.descriptor.strides = .ok ()
  addresses : ∀ index, InShape index tensor.sizes →
    item.descriptor.offset + position index item.descriptor.strides =
      elementAddress buffer tensor index
  inside : (buffer.offset : Int) ≤ item.descriptor.offset ∧
    item.descriptor.offset + item.descriptor.byteLength ≤ buffer.offset + buffer.byteLength

section
variable {buffer : Buffer} {tensor : Tensor}

/-- `offset` of the descriptor. -/
def viewOffset (buffer : Buffer) (tensor : Tensor) : Int :=
  buffer.offset + tensor.storageOffset * tensor.elementSize

/-- The address of an element, from the offset of its view. -/
theorem elementAddress_eq (buffer : Buffer) (tensor : Tensor) (index : List Int) :
    elementAddress buffer tensor index =
      viewOffset buffer tensor + position index tensor.byteStrides := by
  rw [elementAddress, viewOffset, Tensor.byteStrides, Strided.position_mul]
  ring

/-- The sizes of a strided view are positive. -/
theorem StridedView.sizes_pos (h : StridedView tensor) :
    ∀ dimension ∈ tensor.sizes, 0 < dimension := by
  intro dimension hmem
  obtain ⟨size, hsize, rfl⟩ := List.mem_map.mp hmem
  exact Int.natCast_pos.mpr (h.positive size hsize)

/-- The strides of a strided view are not negative. -/
theorem StridedView.byteStrides_nonneg (h : StridedView tensor) :
    ∀ stride ∈ tensor.byteStrides, 0 ≤ stride := by
  intro stride hmem
  obtain ⟨unit, hunit, rfl⟩ := List.mem_map.mp hmem
  exact Int.mul_nonneg (h.nonneg unit hunit) (Int.natCast_nonneg _)

/-- The bytes of a view without an empty dimension. -/
theorem StridedView.byteLength_eq (h : StridedView tensor) :
    tensor.byteLength = tensor.elementSize + reach tensor.sizes tensor.byteStrides := by
  have hprod : tensor.shape.prod ≠ 0 := by
    intro hzero
    have hmem := List.prod_eq_zero_iff.mp hzero
    exact absurd (h.positive 0 hmem) (lt_irrefl 0)
  rw [Tensor.byteLength, if_neg hprod, reach, ← List.map_uncurry_zip_eq_zipWith]
  rfl

/-- A view lies in its storage when the bytes of its descriptor end there. -/
theorem StridedView.inStorage_iff (h : StridedView tensor) :
    InStorage buffer tensor ↔
      viewOffset buffer tensor + tensor.byteLength ≤ buffer.offset + buffer.byteLength := by
  rw [h.byteLength_eq]
  constructor
  · -- The last element ends where the descriptor does.
    intro hall
    obtain ⟨index, hindex, hlast⟩ :=
      Strided.exists_position_eq_reach h.sizes_pos tensor.byteStrides
    have hend := (hall index hindex).2
    rw [elementAddress_eq, hlast] at hend
    omega
  · intro hend index hindex
    obtain ⟨hnonneg, hle⟩ := Strided.position_le_reach hindex h.byteStrides_nonneg
    have hstart : (buffer.offset : Int) ≤ viewOffset buffer tensor := by
      have hskip : (0 : Int) ≤ tensor.storageOffset * tensor.elementSize := by positivity
      rw [viewOffset]
      omega
    rw [elementAddress_eq]
    omega

/-- `managed` of a view of a live allocation. -/
theorem StridedView.managed_eq (h : StridedView tensor) {manager : Manager}
    (hlease : tensor.lease = some buffer.allocationId)
    (hactive : manager.active buffer.allocationId = some buffer) :
    managed manager tensor = viewOf buffer tensor >>= fun item => pure (some item) := by
  have hfirst : ¬ (tensor.cpu = false ∨ tensor.strided = false ∨ tensor.lease = none) := by
    simp [h.cpu, h.strided, hlease]
  have hstrides : ¬ ∃ stride ∈ tensor.strides, stride < 0 := by
    intro ⟨stride, hmem, hneg⟩
    exact absurd (h.nonneg stride hmem) (not_le.mpr hneg)
  have hfound : manager.allocationOf tensor = some buffer := by
    simp [Manager.allocationOf, h.cpu, h.strided, hlease, hactive]
  unfold managed
  rw [if_neg hfirst]
  simp only [raiseIf, if_neg hstrides, Result.ok_bind, hfound]

/-- The table of the manager and that of the worker have the same sizes. -/
theorem itemSizes_agree {dtype : String} {size : Nat}
    (h : Invocation.ITEM_SIZES.lookup dtype = some size) :
    ∃ itemSize : ℕ+, ITEM_SIZES.lookup dtype = some itemSize ∧ (itemSize : Nat) = size ∧
      size ∣ Memory.ARENA_ALIGNMENT ∧ dtype ∈ Invocation.ITEM_SIZES.map Prod.fst := by
  have hmem : (dtype, size) ∈ Invocation.ITEM_SIZES :=
    (lookup_eq_some_iff_mem (by decide)).mp h
  have hall : ∀ entry ∈ Invocation.ITEM_SIZES, ∃ itemSize ∈ ITEM_SIZES.lookup entry.1,
      (itemSize : Nat) = entry.2 ∧ entry.2 ∣ Memory.ARENA_ALIGNMENT := by decide
  obtain ⟨itemSize, hlookup, heq, hdvd⟩ := hall _ hmem
  exact ⟨itemSize, hlookup, heq, hdvd, List.mem_map_of_mem hmem⟩

/-- The managed tensor of a view. -/
def viewItem (buffer : Buffer) (tensor : Tensor) : ManagedTensor where
  descriptor :=
    { bufferId := buffer.region
      generation := buffer.generation
      allocationId := buffer.allocationId
      offset := viewOffset buffer tensor
      byteLength := tensor.byteLength
      dtype := tensor.dtype
      shape := tensor.sizes
      strides := tensor.byteStrides }
  buffer := buffer

/-- The end of `managed` checks that the view lies in its storage. -/
theorem StridedView.viewOf_eq (h : StridedView tensor) [Decidable (InStorage buffer tensor)] :
    viewOf buffer tensor =
      if InStorage buffer tensor then .ok (viewItem buffer tensor)
      else .error (valueError "Tensor view exceeds its managed allocation") := by
  obtain ⟨-, -, -, -, hdtype⟩ := itemSizes_agree h.dtype
  have hstart : ¬ viewOffset buffer tensor < buffer.offset := by
    have hskip : (0 : Int) ≤ tensor.storageOffset * tensor.elementSize := by positivity
    rw [viewOffset]
    omega
  have hbad : (viewOffset buffer tensor < buffer.offset ∨
      viewOffset buffer tensor + tensor.byteLength > buffer.offset + buffer.byteLength) ↔
        ¬ InStorage buffer tensor := by
    rw [h.inStorage_iff, or_iff_right hstart, gt_iff_lt, not_le]
  show (raiseIf (viewOffset buffer tensor < buffer.offset ∨
      viewOffset buffer tensor + tensor.byteLength > buffer.offset + buffer.byteLength) _ >>=
    fun _ => raiseIf (tensor.dtype ∉ Invocation.ITEM_SIZES.map Prod.fst) _ >>=
      fun _ => .ok (viewItem buffer tensor)) = _
  by_cases hstorage : InStorage buffer tensor
  · rw [if_pos hstorage, raiseIf, if_neg (hbad.not.mpr (not_not.mpr hstorage)), Result.ok_bind,
      raiseIf, if_neg (not_not.mpr hdtype), Result.ok_bind]
  · rw [if_neg hstorage, raiseIf, if_pos (hbad.mpr hstorage)]
    rfl

/-- The descriptor of a view in its storage denotes it. -/
theorem StridedView.denotes (h : StridedView tensor) {s : Memory.State} {length : Nat}
    (hplaced : Memory.Placed s buffer.toSharedBuffer)
    (hlength : s.lengths buffer.region = some length) (hstorage : InStorage buffer tensor) :
    Denotes length buffer tensor (viewItem buffer tensor) := by
  obtain ⟨itemSize, hlookup, hitem, hdvd, -⟩ := itemSizes_agree h.dtype
  have hend := h.inStorage_iff.mp hstorage
  have hbytes := h.byteLength_eq
  have hrequired : required itemSize tensor.sizes tensor.byteStrides = tensor.byteLength := by
    rw [required, hitem, hbytes]
  have hskip : (0 : Int) ≤ tensor.storageOffset * tensor.elementSize := by positivity
  have hregion : buffer.offset + buffer.byteLength ≤ length := by
    obtain ⟨other, hother, hle⟩ := hplaced.inside
    rw [hlength] at hother
    cases hother
    exact hle
  have hunits : ∀ stride ∈ tensor.byteStrides, ((itemSize : Nat) : Int) ∣ stride := by
    intro stride hmem
    obtain ⟨unit, -, rfl⟩ := List.mem_map.mp hmem
    rw [hitem]
    exact Dvd.intro_left unit rfl
  have haligned : ((itemSize : Nat) : Int) ∣ viewOffset buffer tensor := by
    rw [hitem, viewOffset]
    exact Int.dvd_add (Int.natCast_dvd_natCast.mpr (hdvd.trans hplaced.aligned))
      (Dvd.intro_left _ rfl)
  have hpositive : 0 < tensor.byteLength := by
    have hreach := (Strided.position_le_reach (Strided.inShape_last h.sizes_pos)
      h.byteStrides_nonneg)
    have hsize := itemSize.pos
    omega
  have hstart : (buffer.offset : Int) ≤ viewOffset buffer tensor := by
    rw [viewOffset]
    omega
  refine ⟨rfl, rfl, rfl, ⟨itemSize, hlookup, ?_⟩, ?_, hstart, hend⟩
  · apply validateView_iff.mpr
    refine ⟨⟨?_, ?_, h.sizes_pos, haligned, hpositive, h.byteStrides_nonneg, hunits⟩, ?_,
      hrequired.le⟩
    · show 0 < tensor.sizes.length ∧ tensor.sizes.length ≤ 16
      rw [Tensor.sizes, List.length_map]
      exact h.rank
    · show tensor.byteStrides.length = tensor.sizes.length
      rw [Tensor.byteStrides, Tensor.sizes, List.length_map, List.length_map, tensor.rank_eq]
    · show 0 ≤ viewOffset buffer tensor ∧ viewOffset buffer tensor + tensor.byteLength ≤ length
      omega
  · intro index _
    exact (elementAddress_eq buffer tensor index).symm

end

/-- The descriptor of a view of a live allocation denotes the view: the worker accepts it, it has
the addresses of the elements, and its bytes are those of the allocation. A view that leaves its
storage is refused. -/
theorem managed_denotes (cfg : Memory.Config) (s : Memory.State)
    (hreach : (Memory.memoryMachine cfg).Reachable s) (allocationId region : Nat) (buffer : Buffer)
    (tensor : Tensor) (hview : StridedView tensor)
    (hlease : tensor.lease = some buffer.allocationId)
    (hactive : (Manager.ofState cfg s allocationId region).active buffer.allocationId
      = some buffer) :
    (InStorage buffer tensor → ∃ item length, s.lengths buffer.region = some length ∧
      managed (Manager.ofState cfg s allocationId region) tensor = .ok (some item) ∧
      Denotes length buffer tensor item) ∧
    (¬ InStorage buffer tensor →
      managed (Manager.ofState cfg s allocationId region) tensor =
        .error (valueError "Tensor view exceeds its managed allocation")) := by
  classical
  have hlive : buffer.toSharedBuffer ∈ s.active := by
    obtain ⟨shared, hfound, hshared⟩ := Option.bind_eq_some_iff.mp hactive
    rw [Buffer.toSharedBuffer_of_ofShared hshared]
    exact List.mem_of_find?_eq_some hfound
  have hplaced := Memory.placed_of_reachable hreach hlive
  rw [hview.managed_eq hlease hactive, hview.viewOf_eq]
  constructor
  · intro hstorage
    obtain ⟨length, hlength, -⟩ := hplaced.inside
    refine ⟨viewItem buffer tensor, length, hlength, ?_, hview.denotes hplaced hlength hstorage⟩
    rw [if_pos hstorage, Result.ok_bind]
    rfl
  · intro hstorage
    rw [if_neg hstorage]
    rfl

/-- A pooled manager. -/
def pooledConfig : Memory.Config where
  mode := .pooled
  arenaBytes := 64
  maxCachedBuffers := 1
  maxCachedBytes := 64
  arenaBytes_pos := Memory.sixtyFour_pos
  arenaBytes_aligned := Memory.aligned_sixtyFour

/-- It has allocated 24 bytes. -/
def allocatedState : Memory.State := (Memory.allocate pooledConfig .init 24 1 7).1

/-- A buffer of the pool. -/
def allocatedBuffer : Buffer :=
  ⟨⟨7, 1, 1, 0, 24, false⟩, by decide, by decide, by decide, by decide⟩

/-- Its second and its fourth number. -/
def everySecond : Tensor where
  dtype := "float32"
  shape := [2]
  strides := [2]
  storageOffset := 1
  elementSize := 4
  cpu := true
  strided := true
  requiresGrad := false
  inference := false
  lease := some 1
  rank_eq := rfl
  shape_lt := Invocation.two_lt_dimensions

/-- The state with that buffer is reachable. -/
theorem allocatedState_reachable : (Memory.memoryMachine pooledConfig).Reachable allocatedState :=
  Machine.Reach.next (a := .allocate 24 1 7) .start trivial rfl

/-- Every second element is a strided view. -/
theorem everySecond_stridedView : StridedView everySecond where
  cpu := rfl
  strided := rfl
  dtype := by decide
  rank := by decide
  positive := by decide
  nonneg := by decide

/-- The descriptor of every second number. -/
theorem managed_denotes_everySecond : ∃ item length,
    allocatedState.lengths allocatedBuffer.region = some length ∧
    managed (Manager.ofState pooledConfig allocatedState 2 8) everySecond = .ok (some item) ∧
    Denotes length allocatedBuffer everySecond item :=
  (managed_denotes pooledConfig allocatedState allocatedState_reachable 2 8 allocatedBuffer
    everySecond everySecond_stridedView rfl (by decide)).1
    (everySecond_stridedView.inStorage_iff.mpr (by decide))

end Wmfs.Views
