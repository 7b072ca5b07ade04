import Mathlib.Algebra.BigOperators.Group.List.Basic
import Mathlib.Algebra.Order.Ring.Int
import Mathlib.Data.Int.ConditionallyCompleteOrder
import Mathlib.Data.List.Forall2
import Mathlib.Tactic.Ring

/-!
# `Wmfs.Lib.Strided`: positions of a strided view

A view of rank `n` has a shape and as many strides. `position` is where a multi-index of the shape
stands, and `reach` is the position of the last one. With strides that are not negative, every
position is between 0 and `reach` (`position_le_reach`), and some multi-index stands at `reach`
itself when no dimension is empty (`exists_position_eq_reach`). So a range has room for all
positions exactly when it has room for `reach`.

Shapes, strides and indices are lists of integers. Nothing here refers to a particular program.
-/

set_option autoImplicit false

namespace Wmfs.Lib.Strided

/-- A multi-index of the shape. -/
def InShape (index shape : List Int) : Prop :=
  List.Forall₂ (fun i dimension => 0 ≤ i ∧ i < dimension) index shape

/-- The position of a multi-index. -/
def position (index strides : List Int) : Int :=
  (List.zipWith (fun i stride => i * stride) index strides).sum

/-- The position of the last multi-index. -/
def reach (shape strides : List Int) : Int :=
  (List.zipWith (fun dimension stride => (dimension - 1) * stride) shape strides).sum

/-- Without an index the position is zero. -/
@[simp] theorem position_nil (strides : List Int) : position [] strides = 0 := rfl

/-- Without a dimension the reach is zero. -/
@[simp] theorem reach_nil (strides : List Int) : reach [] strides = 0 := rfl

/-- The position, from that of the inner index. -/
@[simp] theorem position_cons (i : Int) (index : List Int) (stride : Int) (strides : List Int) :
    position (i :: index) (stride :: strides) = i * stride + position index strides := by
  simp [position]

/-- The reach, from that of the inner shape. -/
@[simp] theorem reach_cons (dimension : Int) (shape : List Int) (stride : Int)
    (strides : List Int) :
    reach (dimension :: shape) (stride :: strides) =
      (dimension - 1) * stride + reach shape strides := by
  simp [reach]

/-- The positions of a view begin at 0 and end at its reach. -/
theorem position_le_reach {index shape strides : List Int} (hindex : InShape index shape)
    (hstrides : ∀ stride ∈ strides, 0 ≤ stride) :
    0 ≤ position index strides ∧ position index strides ≤ reach shape strides := by
  induction hindex generalizing strides with
  | nil => simp
  | @cons i dimension index shape hi _ ih =>
    cases strides with
    | nil => simp [position, reach]
    | cons stride strides =>
      rw [List.forall_mem_cons] at hstrides
      obtain ⟨hnonneg, hle⟩ := ih hstrides.2
      have hfirst : 0 ≤ i * stride := Int.mul_nonneg hi.1 hstrides.1
      have hlast : i * stride ≤ (dimension - 1) * stride :=
        Int.mul_le_mul_of_nonneg_right (by omega) hstrides.1
      rw [position_cons, reach_cons]
      omega

/-- The last multi-index of a shape without an empty dimension. -/
theorem inShape_last {shape : List Int} (hshape : ∀ dimension ∈ shape, 0 < dimension) :
    InShape (shape.map fun dimension => dimension - 1) shape := by
  induction shape with
  | nil => exact .nil
  | cons dimension shape ih =>
    rw [List.forall_mem_cons] at hshape
    have hlast : 0 ≤ dimension - 1 ∧ dimension - 1 < dimension := by omega
    exact .cons hlast (ih hshape.2)

/-- It stands at the reach. -/
theorem position_last (shape strides : List Int) :
    position (shape.map fun dimension => dimension - 1) strides = reach shape strides := by
  rw [position, reach, List.zipWith_map_left]

/-- Some multi-index stands at the reach. -/
theorem exists_position_eq_reach {shape : List Int} (hshape : ∀ dimension ∈ shape, 0 < dimension)
    (strides : List Int) :
    ∃ index, InShape index shape ∧ position index strides = reach shape strides :=
  ⟨_, inShape_last hshape, position_last shape strides⟩

/-- Strides with a common factor have positions with this factor. -/
theorem dvd_position {factor : Int} {strides : List Int}
    (hstrides : ∀ stride ∈ strides, factor ∣ stride) (index : List Int) :
    factor ∣ position index strides := by
  induction index generalizing strides with
  | nil => simp
  | cons i index ih =>
    cases strides with
    | nil => simp [position]
    | cons stride strides =>
      rw [List.forall_mem_cons] at hstrides
      rw [position_cons]
      exact Int.dvd_add (Dvd.dvd.mul_left hstrides.1 i) (ih hstrides.2)

/-- A unit for the strides is a unit for the positions. -/
theorem position_mul (index strides : List Int) (unit : Int) :
    position index (strides.map (· * unit)) = position index strides * unit := by
  induction index generalizing strides with
  | nil => simp
  | cons i index ih =>
    cases strides with
    | nil => simp [position]
    | cons stride strides =>
      rw [List.map_cons, position_cons, position_cons, ih]
      ring

/-- The reach in smaller units. -/
theorem reach_mul (shape strides : List Int) (unit : Int) :
    reach shape (strides.map (· * unit)) = reach shape strides * unit := by
  rw [← position_last, ← position_last, position_mul]

end Wmfs.Lib.Strided
