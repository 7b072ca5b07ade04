import Mathlib.Data.List.Basic
import Mathlib.Data.List.Perm.Basic

/-!
# `Wmfs.Lib.Extents`: lists of extents of an address range

An extent is an offset and a length. `coverage exts byte` counts the extents that contain the
byte, so `Tiles n exts` says that every byte below `n` lies in exactly one extent and no other
byte lies in any. Coverage does not depend on the order of the list (`coverage_perm`), and
cutting an extent in two does not change it (`coverage_cut`).

`Ordered` extents follow each other without overlap. `Separated` extents also leave a gap
between any two. A separated tiling is one extent (`eq_singleton_of_tiles`). `Consecutive`
extents leave no gap, so that those from zero on are an ordered tiling
(`Consecutive.ordered`, `Consecutive.tiles`).

Nothing here refers to a particular program.
-/

set_option autoImplicit false

namespace Wmfs.Lib

/-- An offset and a length. -/
abbrev Extent : Type := Nat × Nat

/-- The extent contains the byte. -/
def covers (byte : Nat) (extent : Extent) : Bool :=
  decide (extent.1 ≤ byte ∧ byte < extent.1 + extent.2)

/-- The number of extents that contain the byte. -/
def coverage (extents : List Extent) (byte : Nat) : Nat := extents.countP (covers byte)

/-- Every byte below `n` is in exactly one extent, and no other byte is in any. -/
def Tiles (n : Nat) (extents : List Extent) : Prop :=
  ∀ byte, coverage extents byte = if byte < n then 1 else 0

/-- The extents follow each other without overlap. -/
def Ordered (extents : List Extent) : Prop := extents.Pairwise fun a b => a.1 + a.2 ≤ b.1

/-- The extents follow each other with a gap between any two. -/
def Separated (extents : List Extent) : Prop := extents.Pairwise fun a b => a.1 + a.2 < b.1

/-- No extent is empty. -/
def Positive (extents : List Extent) : Prop := ∀ extent ∈ extents, 0 < extent.2

/-- No extents cover nothing. -/
theorem coverage_nil (byte : Nat) : coverage [] byte = 0 := rfl

/-- The first extent and the others. -/
theorem coverage_cons (extent : Extent) (extents : List Extent) (byte : Nat) :
    coverage (extent :: extents) byte = coverage extents byte + (covers byte extent).toNat := by
  rw [coverage, List.countP_cons, coverage]
  cases covers byte extent <;> rfl

/-- The coverage of two lists adds up. -/
theorem coverage_append (extents extents' : List Extent) (byte : Nat) :
    coverage (extents ++ extents') byte = coverage extents byte + coverage extents' byte :=
  List.countP_append

/-- Coverage does not depend on the order. -/
theorem coverage_perm {extents extents' : List Extent} (h : extents.Perm extents') (byte : Nat) :
    coverage extents byte = coverage extents' byte :=
  h.countP_eq _

/-- An extent covers what its two parts cover. -/
theorem coverage_cut (offset left right byte : Nat) :
    (covers byte (offset, left + right)).toNat =
      (covers byte (offset, left)).toNat + (covers byte (offset + left, right)).toNat := by
  by_cases h₁ : covers byte (offset, left) = true
  · have h₂ : covers byte (offset + left, right) = false := by
      simp only [covers, decide_eq_true_eq, decide_eq_false_iff_not] at h₁ ⊢
      omega
    have h : covers byte (offset, left + right) = true := by
      simp only [covers, decide_eq_true_eq] at h₁ ⊢
      omega
    rw [h, h₁, h₂]
    rfl
  · have heq : covers byte (offset, left + right) = covers byte (offset + left, right) := by
      simp only [covers, decide_eq_true_eq, decide_eq_decide] at h₁ ⊢
      omega
    have hnot : covers byte (offset, left) = false := by simpa using h₁
    rw [heq, hnot]
    simp

/-- A tiling of the same bytes. -/
theorem Tiles.of_coverage {n : Nat} {extents extents' : List Extent} (h : Tiles n extents)
    (heq : ∀ byte, coverage extents' byte = coverage extents byte) : Tiles n extents' :=
  fun byte => (heq byte).trans (h byte)

/-- An extent that is alone covers its bytes once. -/
theorem tiles_singleton (n : Nat) : Tiles n [(0, n)] := by
  intro byte
  rw [coverage_cons, coverage_nil, covers]
  by_cases h : byte < n <;> simp [h]

/-- A byte of an extent of the list is covered. -/
theorem coverage_pos {extents : List Extent} {extent : Extent} (hmem : extent ∈ extents)
    {byte : Nat} (hle : extent.1 ≤ byte) (hlt : byte < extent.1 + extent.2) :
    0 < coverage extents byte :=
  List.countP_pos_iff.mpr ⟨extent, hmem, by simp [covers, hle, hlt]⟩

/-- A byte outside every extent is not covered. -/
theorem coverage_eq_zero {extents : List Extent} {byte : Nat}
    (h : ∀ extent ∈ extents, byte < extent.1 ∨ extent.1 + extent.2 ≤ byte) :
    coverage extents byte = 0 := by
  refine List.countP_eq_zero.mpr fun extent hmem => ?_
  have hout := h extent hmem
  simp only [covers, decide_eq_true_eq]
  omega

/-- The extents of a tiling lie in the range. -/
theorem Tiles.le {n : Nat} {extents : List Extent} (h : Tiles n extents) {extent : Extent}
    (hmem : extent ∈ extents) (hpos : 0 < extent.2) : extent.1 + extent.2 ≤ n := by
  have hcovered : 0 < coverage extents (extent.1 + extent.2 - 1) :=
    coverage_pos hmem (by omega) (by omega)
  rw [h] at hcovered
  by_contra hgt
  rw [if_neg (by omega)] at hcovered
  omega

/-- Extents that cover no byte twice do not overlap. -/
theorem disjoint_of_coverage : ∀ {extents : List Extent}, Positive extents →
    (∀ byte, coverage extents byte ≤ 1) →
    extents.Pairwise fun a b => a.1 + a.2 ≤ b.1 ∨ b.1 + b.2 ≤ a.1 := by
  intro extents
  induction extents with
  | nil => intro _ _; exact List.Pairwise.nil
  | cons a extents ih =>
    intro hpos hcover
    have hrest : ∀ byte, coverage extents byte ≤ 1 := by
      intro byte
      have hboth := hcover byte
      rw [coverage_cons] at hboth
      omega
    refine List.Pairwise.cons (fun b hb => ?_)
      (ih (fun e he => hpos e (List.mem_cons_of_mem a he)) hrest)
    by_contra hoverlap
    rw [not_or] at hoverlap
    have hposA := hpos a (by simp)
    have hposB := hpos b (by simp [hb])
    -- The later of the two starts lies in both extents.
    have hboth := hcover (max a.1 b.1)
    have hb' : 0 < coverage extents (max a.1 b.1) := coverage_pos hb (by omega) (by omega)
    have ha' : covers (max a.1 b.1) a = true := by
      simp only [covers, decide_eq_true_eq]
      omega
    rw [coverage_cons, ha'] at hboth
    simp only [Bool.toNat_true] at hboth
    omega

/-- A separated tiling of a range is the whole range. -/
theorem eq_singleton_of_tiles {n : Nat} {extents : List Extent} (hn : 0 < n)
    (htiles : Tiles n extents) (hsep : Separated extents) (hpos : Positive extents) :
    extents = [(0, n)] := by
  rcases extents with _ | ⟨extent, rest⟩
  · have hzero := htiles 0
    rw [coverage_nil, if_pos hn] at hzero
    cases hzero
  · obtain ⟨hgap, -⟩ := List.pairwise_cons.mp hsep
    have hposE := hpos extent (by simp)
    have hle := htiles.le (by simp : extent ∈ extent :: rest) hposE
    -- Byte 0 is covered, and only the first extent can cover it.
    have hstart : extent.1 = 0 := by
      by_contra hne
      have hzero := htiles 0
      rw [coverage_eq_zero, if_pos hn] at hzero
      · cases hzero
      · intro other hother
        rcases List.mem_cons.mp hother with rfl | hrest
        · omega
        · have := hgap other hrest
          omega
    -- The byte after the first extent lies in the gap.
    have hend : n ≤ extent.2 := by
      by_contra hlt
      have hbyte := htiles extent.2
      rw [coverage_eq_zero, if_pos (by omega)] at hbyte
      · cases hbyte
      · intro other hother
        rcases List.mem_cons.mp hother with rfl | hrest
        · omega
        · have := hgap other hrest
          omega
    have hnil : rest = [] := by
      rcases rest with _ | ⟨other, rest⟩
      · rfl
      · have hother := htiles.le (by simp : other ∈ extent :: other :: rest) (hpos other (by simp))
        have := hgap other (by simp)
        omega
    rw [hnil]
    have heq : extent = (0, n) := Prod.ext hstart (by omega)
    rw [heq]

/-! ### Extents without gaps -/

/-- The extents follow each other without a gap, from `start` to `stop`. -/
def Consecutive : Nat → List Extent → Nat → Prop
  | start, [], stop => start = stop
  | start, extent :: extents, stop =>
    extent.1 = start ∧ Consecutive (start + extent.2) extents stop

/-- Two stretches in sequence. -/
theorem Consecutive.append {start middle stop : Nat} {extents extents' : List Extent}
    (h : Consecutive start extents middle) (h' : Consecutive middle extents' stop) :
    Consecutive start (extents ++ extents') stop := by
  induction extents generalizing start with
  | nil =>
    cases h
    exact h'
  | cons extent extents ih =>
    obtain ⟨hstart, h⟩ := h
    exact ⟨hstart, ih h⟩

/-- Consecutive extents lie between their ends. -/
theorem Consecutive.inside {start stop : Nat} {extents : List Extent}
    (h : Consecutive start extents stop) :
    start ≤ stop ∧ ∀ extent ∈ extents, start ≤ extent.1 ∧ extent.1 + extent.2 ≤ stop := by
  induction extents generalizing start with
  | nil =>
    cases h
    simp
  | cons extent extents ih =>
    obtain ⟨hstart, h⟩ := h
    obtain ⟨hstop, hrest⟩ := ih h
    refine ⟨by omega, ?_⟩
    intro e he
    rcases List.mem_cons.mp he with rfl | he
    · omega
    · have := hrest e he
      omega

/-- Consecutive extents are ordered. -/
theorem Consecutive.ordered {start stop : Nat} {extents : List Extent}
    (h : Consecutive start extents stop) : Ordered extents := by
  induction extents generalizing start with
  | nil => exact List.Pairwise.nil
  | cons extent extents ih =>
    obtain ⟨hstart, h⟩ := h
    apply List.Pairwise.cons
    · intro e he
      have := (h.inside.2 e he).1
      omega
    · exact ih h

/-- Consecutive extents cover the bytes between their ends once. -/
theorem Consecutive.coverage {start stop : Nat} {extents : List Extent}
    (h : Consecutive start extents stop) (byte : Nat) :
    coverage extents byte = if start ≤ byte ∧ byte < stop then 1 else 0 := by
  induction extents generalizing start with
  | nil =>
    cases h
    rw [coverage_nil, if_neg (by omega)]
  | cons extent extents ih =>
    obtain ⟨hstart, h⟩ := h
    have hstop := h.inside.1
    rw [coverage_cons, ih h, covers]
    by_cases hfirst : extent.1 ≤ byte ∧ byte < extent.1 + extent.2
    · rw [if_neg (by omega), if_pos (by omega)]
      simp [hfirst]
    · simp only [hfirst, decide_false, Bool.toNat_false, Nat.add_zero]
      congr 1
      rw [eq_iff_iff]
      omega

/-- Consecutive extents from zero on are a tiling. -/
theorem Consecutive.tiles {n : Nat} {extents : List Extent} (h : Consecutive 0 extents n) :
    Tiles n extents := by
  intro byte
  rw [h.coverage]
  simp

end Wmfs.Lib
