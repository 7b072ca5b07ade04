import Wmfs.Lib.MixedRadix
import Wmfs.Views.Managed

/-!
# `Wmfs.Views.Fresh`: the descriptor of a new tensor

`BufferManager.empty` (`memory/buffers.py`) allocates the bytes of a new tensor and describes it
to the worker. `_contiguous_strides` goes over the shape from its end, and what it returns are the
row-major strides (`contiguousStrides_eq`). So the elements are numbered by their positions, and
the tensor takes each byte of its allocation once (`fresh_tiles`). The length of the allocation,
a product, is the sum that `_validate_view` of the worker computes.
-/

set_option autoImplicit false

namespace Wmfs.Views

open Wmfs.Lib
open Wmfs.Lib.Strided (InShape position reach weights cells)
open Wmfs.Invocation (ManagedTensor Manager elementCount contiguousStrides empty)

/-- The address of a byte of an element, which is counted from the start of the element. -/
def byteAddress (offset : Int) (byteStrides : List Int) (cell : List Int × Int) : Int :=
  offset + (position cell.1 byteStrides + cell.2)

/-- The view has each byte of a range in exactly one element, and no other byte. -/
def Tiles (offset byteLength : Int) (itemSize : ℕ+) (shape byteStrides : List Int) : Prop :=
  Set.BijOn (byteAddress offset byteStrides) (cells (itemSize : Nat) shape)
    (Set.Ico offset (offset + byteLength))

/-- The number of elements is the product of the sizes. -/
theorem elementCount_eq (shape : List Int) : elementCount shape = shape.prod :=
  List.prod_eq_foldl.symm

/-- The loop of `_contiguous_strides`. -/
theorem contiguousLoop_eq (shape : List Int) :
    shape.foldr (fun dimension strides => strides.headD 1 * dimension :: strides) [1] =
      shape.prod :: weights shape := by
  induction shape with
  | nil => rfl
  | cons dimension shape ih =>
    rw [List.foldr_cons, ih, List.headD_cons, List.prod_cons, weights, mul_comm]

/-- `_contiguous_strides` returns the row-major strides. -/
theorem contiguousStrides_eq {shape : List Int} (hne : shape ≠ []) :
    contiguousStrides shape = weights shape := by
  cases shape with
  | nil => exact absurd rfl hne
  | cons dimension shape => exact contiguousLoop_eq shape

section
variable {shape : List Int}

/-- The number of bytes is what the worker requires. -/
theorem byteLength_eq_required (hne : shape ≠ []) (itemSize : ℕ+) :
    elementCount shape * (itemSize : Nat) =
      required itemSize shape ((contiguousStrides shape).map (· * ((itemSize : Nat) : Int))) := by
  rw [required, Strided.reach_mul, contiguousStrides_eq hne, elementCount_eq,
    ← Strided.reach_weights shape]
  ring

/-- A row-major view tiles its bytes. -/
theorem tiles_contiguous (hne : shape ≠ []) (hpos : ∀ dimension ∈ shape, 0 < dimension)
    (offset : Int) (itemSize : ℕ+) :
    Tiles offset (elementCount shape * (itemSize : Nat)) itemSize shape
      ((contiguousStrides shape).map (· * ((itemSize : Nat) : Int))) := by
  have hitem : (0 : Int) < (itemSize : Nat) := by exact_mod_cast itemSize.pos
  have hcells := Strided.bijOn_cells hitem hpos
  rw [contiguousStrides_eq hne, elementCount_eq]
  -- The addresses are the positions, moved by the offset.
  have hmove : Set.BijOn (offset + ·) (Set.Ico 0 (shape.prod * (itemSize : Nat)))
      (Set.Ico offset (offset + shape.prod * (itemSize : Nat))) := by
    constructor
    · intro byte ⟨hlow, hhigh⟩
      show offset ≤ offset + byte ∧ offset + byte < offset + shape.prod * (itemSize : Nat)
      omega
    constructor
    · intro byte _ other _ heq
      exact Int.add_left_cancel heq
    · intro byte ⟨hlow, hhigh⟩
      exact ⟨byte - offset, ⟨by omega, by omega⟩, show offset + (byte - offset) = byte by omega⟩
  exact hmove.comp hcells

/-- **A new tensor tiles its allocation.** The positions of the elements are the numbers below the
element count, each for one element. For every item size the bytes of the elements are the bytes of
the allocation, each once, and their number is what the worker requires. The descriptor that
`BufferManager.empty` makes has these bytes. -/
theorem fresh_tiles (shape : List Int) (hne : shape ≠ []) (hpos : ∀ dimension ∈ shape, 0 < dimension) :
    Set.BijOn (fun index => position index (contiguousStrides shape)) {index | InShape index shape}
        (Set.Ico 0 (elementCount shape)) ∧
    (∀ (offset : Int) (itemSize : ℕ+),
      let byteStrides := (contiguousStrides shape).map (· * ((itemSize : Nat) : Int))
      Tiles offset (elementCount shape * (itemSize : Nat)) itemSize shape byteStrides ∧
        elementCount shape * (itemSize : Nat) = required itemSize shape byteStrides) ∧
    ∀ (manager : Manager) (dtype shown : String) (item : ManagedTensor),
      empty manager shape dtype shown = .ok item →
      ∃ itemSize, ITEM_SIZES.lookup dtype = some itemSize ∧ item.descriptor.dtype = dtype ∧
        item.descriptor.shape = shape ∧
        Tiles item.descriptor.offset item.descriptor.byteLength itemSize item.descriptor.shape
          item.descriptor.strides ∧
        item.descriptor.byteLength =
          required itemSize item.descriptor.shape item.descriptor.strides := by
  refine ⟨?_, ?_, ?_⟩
  · rw [contiguousStrides_eq hne, elementCount_eq]
    exact Strided.bijOn_position hpos
  · intro offset itemSize
    exact ⟨tiles_contiguous hne hpos offset itemSize, byteLength_eq_required hne itemSize⟩
  · intro manager dtype shown item h
    unfold empty at h
    cases hsize : Invocation.ITEM_SIZES.lookup dtype with
    | none => rw [hsize] at h; cases h
    | some size =>
      obtain ⟨itemSize, hlookup, hitem, -⟩ := itemSizes_agree hsize
      rw [hsize] at h
      simp only [Result.bind_ok_iff] at h
      obtain ⟨_, _, buffer, _, heq⟩ := h
      cases heq
      subst hitem
      exact ⟨itemSize, hlookup, rfl, rfl, tiles_contiguous hne hpos buffer.offset itemSize,
        byteLength_eq_required hne itemSize⟩

end

/-- A shape of two rows and three columns. -/
theorem fresh_tiles_matrix :
    Set.BijOn (fun index => position index [3, 1]) {index | InShape index [2, 3]}
      (Set.Ico 0 6) :=
  (fresh_tiles [2, 3] (by decide) (by decide)).1

end Wmfs.Views
