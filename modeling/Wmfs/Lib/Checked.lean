import Mathlib.Algebra.BigOperators.Group.List.Basic
import Mathlib.Algebra.GroupWithZero.Nat
import Mathlib.Data.Nat.Basic
import Wmfs.Lib.Result

/-!
# `Wmfs.Lib.Checked`: unsigned arithmetic that refuses to wrap

An addition and a multiplication of 64-bit integers that fail when the result does not fit. Each
succeeds exactly with the exact result (`add_ok_iff`, `multiply_ok_iff`), and so does a chain of
them (`addProducts_ok_iff`): no value on the way fails by itself when the total fits.

Nothing here refers to a particular program.
-/

set_option autoImplicit false

namespace Wmfs.Lib.Checked

section
variable {ε : Type} (overflow : ε)

/-- The largest value. -/
def MAX : UInt64 := 18446744073709551615

/-- The sum, or the exception on an overflow. -/
def add (left right : UInt64) : Except ε UInt64 :=
  if right > MAX - left then .error overflow else .ok (left + right)

/-- The product, or the exception on an overflow. -/
def multiply (left right : UInt64) : Except ε UInt64 :=
  if left ≠ 0 ∧ right > MAX / left then .error overflow else .ok (left * right)

/-- `total = total + left * right` for each pair. -/
def addProducts (total : UInt64) (pairs : List (UInt64 × UInt64)) : Except ε UInt64 :=
  pairs.foldlM (fun total pair => do add overflow total (← multiply overflow pair.1 pair.2)) total

variable {overflow}

/-- The greatest word. -/
theorem toNat_MAX : MAX.toNat = 2 ^ 64 - 1 := rfl

/-- The distance to the greatest word. -/
theorem toNat_MAX_sub (left : UInt64) : (MAX - left).toNat = 2 ^ 64 - 1 - left.toNat := by
  have hlt := left.toNat_lt
  have hle : left ≤ MAX := by
    rw [UInt64.le_iff_toNat_le, toNat_MAX]
    omega
  rw [UInt64.toNat_sub_of_le _ _ hle, toNat_MAX]

/-- A sum succeeds exactly when it is the sum. -/
theorem add_ok_iff {left right total : UInt64} :
    add overflow left right = .ok total ↔ total.toNat = left.toNat + right.toNat := by
  have hleft := left.toNat_lt
  have htotal := total.toNat_lt
  unfold add
  split
  · next hover =>
    rw [gt_iff_lt, UInt64.lt_iff_toNat_lt, toNat_MAX_sub] at hover
    constructor
    · intro h
      cases h
    · intro h
      omega
  · next hfits =>
    rw [gt_iff_lt, UInt64.lt_iff_toNat_lt, toNat_MAX_sub] at hfits
    have hexact : (left + right).toNat = left.toNat + right.toNat := by
      rw [UInt64.toNat_add, Nat.mod_eq_of_lt (by omega)]
    rw [Except.ok.injEq, ← UInt64.toNat_inj, hexact, eq_comm]

/-- A product succeeds exactly when it is the product. -/
theorem multiply_ok_iff {left right total : UInt64} :
    multiply overflow left right = .ok total ↔ total.toNat = left.toNat * right.toNat := by
  have htotal := total.toNat_lt
  unfold multiply
  split
  · next hover =>
    obtain ⟨hne, hover⟩ := hover
    have hpos : 0 < left.toNat := by
      rw [Nat.pos_iff_ne_zero]
      intro h
      exact hne (UInt64.toNat_inj.mp h)
    rw [gt_iff_lt, UInt64.lt_iff_toNat_lt, UInt64.toNat_div, toNat_MAX,
      Nat.div_lt_iff_lt_mul hpos, Nat.mul_comm] at hover
    constructor
    · intro h
      cases h
    · intro h
      omega
  · next hfits =>
    have hlt : left.toNat * right.toNat < 2 ^ 64 := by
      rcases Nat.eq_zero_or_pos left.toNat with hzero | hpos
      · rw [hzero, Nat.zero_mul]
        decide
      · have hne : left ≠ 0 := by
          intro h
          rw [h] at hpos
          exact absurd hpos (by decide)
        have hle := mt (And.intro hne) hfits
        rw [gt_iff_lt, UInt64.lt_iff_toNat_lt, UInt64.toNat_div, toNat_MAX,
          Nat.div_lt_iff_lt_mul hpos, Nat.mul_comm] at hle
        omega
    have hexact : (left * right).toNat = left.toNat * right.toNat := by
      rw [UInt64.toNat_mul, Nat.mod_eq_of_lt hlt]
    rw [Except.ok.injEq, ← UInt64.toNat_inj, hexact, eq_comm]

/-- One of them succeeds when its result fits. -/
theorem exists_eq_toNat {n : Nat} (h : n < 2 ^ 64) : ∃ total : UInt64, total.toNat = n :=
  ⟨UInt64.ofNat n, UInt64.toNat_ofNat_of_lt h⟩

/-- A chain succeeds exactly when it is the exact total. -/
theorem addProducts_ok_iff {total result : UInt64} {pairs : List (UInt64 × UInt64)} :
    addProducts overflow total pairs = .ok result ↔
      result.toNat = total.toNat + (pairs.map fun pair => pair.1.toNat * pair.2.toNat).sum := by
  induction pairs generalizing total with
  | nil =>
    show Except.ok total = Except.ok result ↔ _
    rw [Except.ok.injEq, ← UInt64.toNat_inj, eq_comm]
    rfl
  | cons pair pairs ih =>
    rw [addProducts, List.foldlM_cons, List.map_cons, List.sum_cons]
    simp only [Result.bind_ok_iff, add_ok_iff, multiply_ok_iff]
    constructor
    · intro ⟨next, ⟨product, hproduct, hnext⟩, hrest⟩
      have hresult := ih.mp hrest
      omega
    · intro hresult
      -- The sum up to here and the product are not larger than the total.
      have hlt := result.toNat_lt
      obtain ⟨product, hproduct⟩ :=
        exists_eq_toNat (n := pair.1.toNat * pair.2.toNat) (by omega)
      obtain ⟨next, hnext⟩ := exists_eq_toNat (n := total.toNat + product.toNat) (by omega)
      refine ⟨next, ⟨product, hproduct, hnext⟩, ih.mpr ?_⟩
      omega

end

end Wmfs.Lib.Checked
