import Mathlib.Data.PNat.Basic
import Wmfs.Invocation.Metadata
import Wmfs.Lib.Strided

/-!
# `Wmfs.Views.Validation`: which views of a buffer a worker accepts

`_validate_view` of `wmfs_plugin/fd_transport.py`. A tensor descriptor comes from another process.
The worker makes a view of mapped memory from it, and this check is all that keeps the view inside
the mapping.

The check computes one sum, the bytes that the view needs behind its offset. It is the position of
the last element and the bytes of that element, so it bounds every element, and it is reached.
`validateView_iff` says what the check decides, and `validateView_exact` what this means for the
elements, in both directions.
-/

set_option autoImplicit false

namespace Wmfs.Views

open Wmfs.Lib
open Wmfs.Lib.Strided (InShape position reach)
open Wmfs.Invocation (Exn valueError MAX_RANK)

/-- One is not zero. -/
theorem neZero_one : NeZero 1 := ⟨by decide⟩

/-- Four is not zero. -/
theorem neZero_four : NeZero 4 := ⟨by decide⟩

/-- Eight is not zero. -/
theorem neZero_eight : NeZero 8 := ⟨by decide⟩

attribute [local instance] neZero_one neZero_four neZero_eight

/-- `_ITEM_SIZES`. -/
def ITEM_SIZES : List (String × ℕ+) := [("float32", 4), ("float64", 8), ("int64", 8), ("uint8", 1)]

/-- `required`: the bytes that the view needs. -/
def required (itemSize : ℕ+) (shape byteStrides : List Int) : Int :=
  (itemSize : Nat) + reach shape byteStrides

/-- `_validate_view`. The item size is that of a dtype. -/
def validateView (bufferLength offset byteLength : Int) (itemSize : ℕ+)
    (shape byteStrides : List Int) : Except Exn Unit := do
  raiseIf (shape = [] ∨ shape.length > MAX_RANK ∨ ∃ dimension ∈ shape, dimension ≤ 0)
    (valueError "Tensor shape must be non-empty and positive")
  raiseIf (shape.length ≠ byteStrides.length)
    (valueError "Tensor shape and strides have different ranks")
  raiseIf (offset < 0 ∨ offset % (itemSize : Nat) ≠ 0)
    (valueError "Tensor offset is not dtype-aligned")
  raiseIf (byteLength ≤ 0 ∨ offset + byteLength > bufferLength)
    (valueError "Tensor byte range exceeds its mapped buffer")
  raiseIf (∃ stride ∈ byteStrides, stride < 0 ∨ stride % (itemSize : Nat) ≠ 0)
    (valueError "Tensor strides must be non-negative and dtype-aligned")
  raiseIf (required itemSize shape byteStrides > byteLength)
    (valueError "Tensor strides exceed its declared byte range")

/-- A descriptor of positive rank that is well formed by itself: what the check demands of the
shape, the strides, the offset and the length before it compares them with each other. -/
structure WellFormed (offset byteLength : Int) (itemSize : ℕ+) (shape byteStrides : List Int) :
    Prop where
  rank : 0 < shape.length ∧ shape.length ≤ 16
  strides_rank : byteStrides.length = shape.length
  positive : ∀ dimension ∈ shape, 0 < dimension
  aligned : ((itemSize : Nat) : Int) ∣ offset
  length_pos : 0 < byteLength
  strides_nonneg : ∀ stride ∈ byteStrides, 0 ≤ stride
  strides_aligned : ∀ stride ∈ byteStrides, ((itemSize : Nat) : Int) ∣ stride

section
variable {bufferLength offset byteLength : Int} {itemSize : ℕ+} {shape byteStrides : List Int}

/-- What the check decides. -/
theorem validateView_iff :
    validateView bufferLength offset byteLength itemSize shape byteStrides = .ok () ↔
      WellFormed offset byteLength itemSize shape byteStrides ∧
        (0 ≤ offset ∧ offset + byteLength ≤ bufferLength) ∧
        required itemSize shape byteStrides ≤ byteLength := by
  simp only [validateView, Result.check_bind_ok_iff, raiseIf_ok_iff, not_or, not_exists, not_and,
    not_lt, not_le, not_not, ← Int.dvd_iff_emod_eq_zero, gt_iff_lt]
  constructor
  · rintro ⟨⟨hne, hrank, hpositive⟩, hstrides, ⟨hnonneg, haligned⟩, ⟨hlength, hend⟩, hall, hroom⟩
    refine ⟨⟨⟨List.length_pos_iff.mpr hne, hrank⟩, hstrides.symm, hpositive, haligned, hlength,
      fun stride hmem => (hall stride hmem).1, fun stride hmem => (hall stride hmem).2⟩,
      ⟨hnonneg, hend⟩, hroom⟩
  · rintro ⟨h, ⟨hnonneg, hend⟩, hroom⟩
    exact ⟨⟨List.length_pos_iff.mp h.rank.1, h.rank.2, h.positive⟩, h.strides_rank.symm,
      ⟨hnonneg, h.aligned⟩, ⟨h.length_pos, hend⟩,
      fun stride hmem => ⟨h.strides_nonneg stride hmem, h.strides_aligned stride hmem⟩, hroom⟩

/-- The elements of a well formed view stand at multiples of the item size, from the offset on and
within the bytes that it needs. -/
theorem WellFormed.element (h : WellFormed offset byteLength itemSize shape byteStrides)
    {index : List Int} (hindex : InShape index shape) :
    ((itemSize : Nat) : Int) ∣ offset + position index byteStrides ∧
      offset ≤ offset + position index byteStrides ∧
      offset + position index byteStrides + (itemSize : Nat)
        ≤ offset + required itemSize shape byteStrides := by
  obtain ⟨hnonneg, hle⟩ := Strided.position_le_reach hindex h.strides_nonneg
  refine ⟨Int.dvd_add h.aligned (Strided.dvd_position h.strides_aligned index), ?_, ?_⟩
  · omega
  · rw [required]
    omega

/-- The byte belongs to an element of the view. -/
def Addresses (offset : Int) (itemSize : ℕ+) (shape byteStrides : List Int) (byte : Int) : Prop :=
  ∃ index, InShape index shape ∧ offset + position index byteStrides ≤ byte ∧
    byte < offset + position index byteStrides + (itemSize : Nat)

/-- The last byte that a well formed view needs belongs to an element. -/
theorem WellFormed.addresses_last (h : WellFormed offset byteLength itemSize shape byteStrides) :
    Addresses offset itemSize shape byteStrides
      (offset + required itemSize shape byteStrides - 1) := by
  obtain ⟨index, hindex, hlast⟩ := Strided.exists_position_eq_reach h.positive byteStrides
  have hitem := itemSize.pos
  refine ⟨index, hindex, ?_, ?_⟩
  · rw [hlast, required]
    omega
  · rw [hlast, required]
    omega

/-- The check is sound: every element of an accepted view starts at a multiple of its size, and
lies inside the byte range and inside the buffer. It is also exact: when it refuses a well formed
descriptor, some element has a byte outside of the byte range, or the range exceeds the buffer. -/
theorem validateView_exact (bufferLength offset byteLength : Int) (itemSize : ℕ+)
    (shape byteStrides : List Int) :
    (validateView bufferLength offset byteLength itemSize shape byteStrides = .ok () →
      ∀ index, InShape index shape →
        ((itemSize : Nat) : Int) ∣ offset + position index byteStrides ∧
        (offset ≤ offset + position index byteStrides ∧
          offset + position index byteStrides + (itemSize : Nat) ≤ offset + byteLength) ∧
        (0 ≤ offset + position index byteStrides ∧
          offset + position index byteStrides + (itemSize : Nat) ≤ bufferLength)) ∧
    (WellFormed offset byteLength itemSize shape byteStrides →
      validateView bufferLength offset byteLength itemSize shape byteStrides ≠ .ok () →
      (∃ byte, Addresses offset itemSize shape byteStrides byte ∧
        ¬ (offset ≤ byte ∧ byte < offset + byteLength)) ∨
      ¬ (0 ≤ offset ∧ offset + byteLength ≤ bufferLength)) := by
  constructor
  · intro hok index hindex
    obtain ⟨h, ⟨hnonneg, hend⟩, hroom⟩ := validateView_iff.mp hok
    obtain ⟨haligned, hstart, hstop⟩ := h.element hindex
    exact ⟨haligned, ⟨hstart, by omega⟩, by omega, by omega⟩
  · intro h hrefused
    rw [ne_eq, validateView_iff, not_and, not_and_or] at hrefused
    rcases hrefused h with hrange | hroom
    · exact Or.inr hrange
    · left
      refine ⟨_, h.addresses_last, ?_⟩
      omega

/-- A view of every second element, and one whose last element leaves the byte range. -/
example : validateView 64 8 24 4 [2, 2] [16, 4] = .ok () ∧
    validateView 64 8 24 4 [2, 3] [16, 4] ≠ .ok () := by decide

end

end Wmfs.Views
