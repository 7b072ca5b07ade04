import Mathlib.Algebra.Order.Ring.Int
import Mathlib.Data.Set.Function
import Mathlib.Data.Set.Prod
import Mathlib.Tactic.Linarith
import Wmfs.Lib.Strided

/-!
# `Wmfs.Lib.MixedRadix`: row-major strides

`weights shape` are the strides of a row-major layout: the stride of an axis is the number of
positions that the axes behind it have.

* `bijOn_digits`: a number below `m * n` is a number below `m` and one below `n`, in one way.
* `bijOn_position`: with row-major strides, the multi-indices of a shape stand at the positions
  from 0 on, each at its own.
* `reach_weights`: the last of them stands at the last position.
* `bijOn_cells`: when every element takes `unit` positions, the elements lie side by side.

Nothing here refers to a particular program.
-/

set_option autoImplicit false

namespace Wmfs.Lib.Strided

/-- The row-major strides of a shape. -/
def weights : List Int → List Int
  | [] => []
  | _ :: shape => shape.prod :: weights shape

/-- A number below `m * n` has a digit below `m`, in units of `n`, and a digit below `n`. -/
theorem bijOn_digits {α β : Type} {f : α → Int} {g : β → Int} {s : Set α} {t : Set β} {m n : Int}
    (hn : 0 < n) (hf : Set.BijOn f s (Set.Ico 0 m)) (hg : Set.BijOn g t (Set.Ico 0 n)) :
    Set.BijOn (fun p : α × β => f p.1 * n + g p.2) (s ×ˢ t) (Set.Ico 0 (m * n)) := by
  -- The two digits are the quotient and the remainder.
  have hquotient : ∀ a ∈ s, ∀ b ∈ t, (f a * n + g b) / n = f a ∧ (f a * n + g b) % n = g b := by
    intro a _ b hb
    obtain ⟨hnonneg, hlt⟩ := hg.mapsTo hb
    rw [Int.add_comm, Int.add_mul_ediv_right _ _ hn.ne', Int.add_mul_emod_self_right,
      Int.ediv_eq_zero_of_lt hnonneg hlt, Int.emod_eq_of_lt hnonneg hlt]
    exact ⟨Int.zero_add _, rfl⟩
  constructor
  · rintro ⟨a, b⟩ ⟨ha, hb⟩
    obtain ⟨hfirst, hfirstLt⟩ : 0 ≤ f a ∧ f a < m := hf.mapsTo ha
    obtain ⟨hsecond, hsecondLt⟩ : 0 ≤ g b ∧ g b < n := hg.mapsTo hb
    have hlow : 0 ≤ f a * n := Int.mul_nonneg hfirst hn.le
    have hhigh : (f a + 1) * n ≤ m * n := Int.mul_le_mul_of_nonneg_right hfirstLt hn.le
    rw [Int.add_mul, Int.one_mul] at hhigh
    show 0 ≤ f a * n + g b ∧ f a * n + g b < m * n
    omega
  constructor
  · rintro ⟨a, b⟩ ⟨ha, hb⟩ ⟨a', b'⟩ ⟨ha', hb'⟩ heq
    have heq : f a * n + g b = f a' * n + g b' := heq
    obtain ⟨hfirst, hsecond⟩ := hquotient a ha b hb
    obtain ⟨hfirst', hsecond'⟩ := hquotient a' ha' b' hb'
    rw [heq] at hfirst hsecond
    exact Prod.ext (hf.injOn ha ha' (hfirst.symm.trans hfirst'))
      (hg.injOn hb hb' (hsecond.symm.trans hsecond'))
  · rintro value ⟨hnonneg, hlt⟩
    obtain ⟨a, ha, hfirst⟩ := hf.surjOn
      ⟨Int.ediv_nonneg hnonneg hn.le, Int.ediv_lt_of_lt_mul hn hlt⟩
    obtain ⟨b, hb, hsecond⟩ := hg.surjOn
      ⟨Int.emod_nonneg value hn.ne', Int.emod_lt_of_pos value hn⟩
    refine ⟨(a, b), ⟨ha, hb⟩, ?_⟩
    show f a * n + g b = value
    rw [hfirst, hsecond, Int.mul_comm]
    exact Int.mul_ediv_add_emod value n

/-- A product of positive sizes is positive. -/
theorem prod_pos {shape : List Int} (hshape : ∀ dimension ∈ shape, 0 < dimension) :
    0 < shape.prod := by
  induction shape with
  | nil => exact Int.one_pos
  | cons dimension shape ih =>
    rw [List.forall_mem_cons] at hshape
    rw [List.prod_cons]
    exact Int.mul_pos hshape.1 (ih hshape.2)

/-- The multi-indices of a shape are numbered by their positions. -/
theorem bijOn_position {shape : List Int} (hshape : ∀ dimension ∈ shape, 0 < dimension) :
    Set.BijOn (fun index => position index (weights shape)) {index | InShape index shape}
      (Set.Ico 0 shape.prod) := by
  induction shape with
  | nil =>
    constructor
    · intro index hindex
      cases hindex
      exact ⟨le_refl 0, Int.one_pos⟩
    constructor
    · intro index hindex other hother _
      cases hindex
      cases hother
      rfl
    · rintro value ⟨hnonneg, hlt⟩
      rw [List.prod_nil] at hlt
      exact ⟨[], .nil, show 0 = value by omega⟩
  | cons dimension shape ih =>
    rw [List.forall_mem_cons] at hshape
    -- The axis in front is the first digit, and the position in the others the second.
    have hdigits := bijOn_digits (prod_pos hshape.2) (Set.bijOn_id (Set.Ico 0 dimension))
      (ih hshape.2)
    have hcons : ∀ i index, position (i :: index) (weights (dimension :: shape)) =
        i * shape.prod + position index (weights shape) := fun i index => position_cons i index _ _
    rw [List.prod_cons]
    constructor
    · intro index hindex
      cases hindex with
      | cons hi hrest =>
        show position _ _ ∈ _
        rw [hcons]
        exact hdigits.mapsTo (Set.mk_mem_prod hi hrest)
    constructor
    · intro index hindex other hother heq
      cases hindex with
      | cons hi hrest =>
        cases hother with
        | cons hj hrest' =>
          have heq : position _ _ = position _ _ := heq
          rw [hcons, hcons] at heq
          cases hdigits.injOn (Set.mk_mem_prod hi hrest) (Set.mk_mem_prod hj hrest') heq
          rfl
    · intro value hvalue
      obtain ⟨⟨i, index⟩, ⟨hi, hindex⟩, heq⟩ := hdigits.surjOn hvalue
      exact ⟨i :: index, .cons hi hindex, (hcons i index).trans heq⟩

/-- The last multi-index stands at the last position. -/
theorem reach_weights (shape : List Int) : reach shape (weights shape) + 1 = shape.prod := by
  induction shape with
  | nil => rfl
  | cons dimension shape ih =>
    rw [weights, reach_cons, List.prod_cons, ← ih]
    ring

/-- The positions that the elements take, when each takes `unit` of them. -/
def cells (unit : Int) (shape : List Int) : Set (List Int × Int) :=
  {index | InShape index shape} ×ˢ Set.Ico 0 unit

/-- Elements of `unit` positions lie side by side, without a gap and without an overlap. -/
theorem bijOn_cells {shape : List Int} {unit : Int} (hunit : 0 < unit)
    (hshape : ∀ dimension ∈ shape, 0 < dimension) :
    Set.BijOn (fun cell : List Int × Int =>
        position cell.1 ((weights shape).map (· * unit)) + cell.2)
      (cells unit shape) (Set.Ico 0 (shape.prod * unit)) := by
  have hdigits := bijOn_digits hunit (bijOn_position hshape) (Set.bijOn_id (Set.Ico 0 unit))
  simp only [position_mul]
  exact hdigits

end Wmfs.Lib.Strided
