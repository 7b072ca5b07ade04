import Mathlib.Data.List.Basic
import Mathlib.Data.List.InsertIdx
import Mathlib.Data.List.Pairwise
import Mathlib.Order.Basic
import Mathlib.Order.Lattice
import Mathlib.Tactic.Common

/-!
# `Wmfs.Lib.TopK`: a bounded queue that keeps the greatest elements

Elements arrive one after the other and have levels. A queue with `capacity` places takes every
element while it has room. When it is full, the new element takes the place of the first one of the
lowest level, unless that level is higher than its own. `Offer` is one arrival, and `Offers` a
sequence of them, with the number of elements that were dropped.

Whatever was dropped along the way, the queue then has the elements that are greatest in the order
of the level and then of the arrival, in the order of their arrival (`Offers.keepsGreatest`). The
positions of the elements in the sequence tell equal elements apart.

Nothing here refers to a particular program.
-/

set_option autoImplicit false

namespace Wmfs.Lib.TopK

section
variable {α β : Type} [LinearOrder β] (level : α → β)

/-- An element that arrived at a position is greater than another one: it has a higher level, or
it has the same level and arrived later. -/
def Outranks (x y : α × Nat) : Prop :=
  level y.1 < level x.1 ∨ level y.1 = level x.1 ∧ y.2 < x.2

/-- The part of the sequence that is greatest, in its order. -/
structure Greatest (capacity : Nat) (arrived : List α) (kept : List (α × Nat)) : Prop where
  sublist : kept.Sublist arrived.zipIdx
  length : kept.length = min capacity arrived.length
  outranks : ∀ x ∈ kept, ∀ y ∈ arrived.zipIdx, y ∉ kept → Outranks level x y

/-- The queue has the greatest elements of the sequence, in its order. -/
def KeepsGreatest (capacity : Nat) (arrived queue : List α) : Prop :=
  ∃ kept, Greatest level capacity arrived kept ∧ queue = kept.map Prod.fst

/-- The index of the first element of the lowest level. -/
structure IsFirstLowest (queue : List α) (index : Nat) (lowest : α) : Prop where
  get : queue[index]? = some lowest
  le : ∀ other ∈ queue, level lowest ≤ level other
  first : ∀ i < index, ∀ other, queue[i]? = some other → level lowest < level other

/-- What the arrival of an element does to the queue, and whether an element is dropped. -/
inductive Offer (capacity : Nat) (queue : List α) (x : α) : List α → Bool → Prop
  | push (room : queue.length < capacity) : Offer capacity queue x (queue ++ [x]) false
  | refuse (full : queue.length = capacity) (higher : ∀ other ∈ queue, level x < level other) :
      Offer capacity queue x queue true
  | replace {index : Nat} {lowest : α} (full : queue.length = capacity)
      (isFirst : IsFirstLowest level queue index lowest) (le : level lowest ≤ level x) :
      Offer capacity queue x (queue.eraseIdx index ++ [x]) true

/-- A sequence of arrivals at an empty queue, and the number of dropped elements. -/
inductive Offers (capacity : Nat) : List α → List α → Nat → Prop
  | nil : Offers capacity [] [] 0
  | snoc {arrived queue queue' : List α} {x : α} {count : Nat} {dropped : Bool}
      (before : Offers capacity arrived queue count)
      (offer : Offer level capacity queue x queue' dropped) :
      Offers capacity (arrived ++ [x]) queue' (count + dropped.toNat)

end

section
variable {α β : Type} [LinearOrder β] {level : α → β}

/-- The ranking is transitive. -/
theorem Outranks.trans {x y z : α × Nat} (hxy : Outranks level x y) (hyz : Outranks level y z) :
    Outranks level x z := by
  rcases hxy with hxy | ⟨hxy, hlater⟩
  · rcases hyz with hyz | ⟨hyz, _⟩
    · exact Or.inl (hyz.trans hxy)
    · exact Or.inl (hyz.trans_lt hxy)
  · rcases hyz with hyz | ⟨hyz, hlater'⟩
    · exact Or.inl (hyz.trans_eq hxy)
    · exact Or.inr ⟨hyz.trans hxy, Nat.lt_trans hlater' hlater⟩

/-- The positions of a part of the sequence ascend. -/
theorem ascending {arrived : List α} {kept : List (α × Nat)} (h : kept.Sublist arrived.zipIdx) :
    kept.Pairwise fun x y => x.2 < y.2 := by
  have hall : arrived.zipIdx.Pairwise fun x y => x.2 < y.2 := by
    rw [List.pairwise_iff_getElem]
    intro i j _ _ hlt
    rw [List.getElem_zipIdx, List.getElem_zipIdx]
    show 0 + i < 0 + j
    omega
  exact hall.sublist h

section
variable {capacity : Nat} {arrived : List α} {kept : List (α × Nat)} {x : α}

/-- The numbered arrivals with one more. -/
theorem mem_zipIdx_concat {y : α × Nat} :
    y ∈ (arrived ++ [x]).zipIdx ↔ y ∈ arrived.zipIdx ∨ y = (x, arrived.length) := by
  rw [List.zipIdx_append, List.mem_append]
  simp

/-- Every earlier element has an earlier position. -/
theorem lt_length_of_mem {y : α × Nat} (h : y ∈ arrived.zipIdx) : y.2 < arrived.length := by
  have := List.mem_zipIdx h
  omega

/-- A queue with room has everything that arrived. -/
theorem Greatest.eq_of_room (h : Greatest level capacity arrived kept)
    (hroom : kept.length < capacity) : kept = arrived.zipIdx := by
  apply h.sublist.eq_of_length
  have hlength := h.length
  rw [List.length_zipIdx]
  omega

/-- With room for it the arrival is kept. -/
theorem Greatest.push (h : Greatest level capacity arrived kept) (hroom : kept.length < capacity) :
    Greatest level capacity (arrived ++ [x]) (kept ++ [(x, arrived.length)]) := by
  have hall := h.eq_of_room hroom
  have hsame : (arrived ++ [x]).zipIdx = kept ++ [(x, arrived.length)] := by
    rw [List.zipIdx_append, hall]
    simp
  constructor
  · rw [hsame]
  · have hlength := h.length
    simp only [List.length_append, List.length_singleton]
    omega
  · intro _ _ y hy hnot
    rw [hsame] at hy
    exact absurd hy hnot

/-- An arrival below all of the kept ones is not kept. -/
theorem Greatest.refuse (h : Greatest level capacity arrived kept) (hfull : kept.length = capacity)
    (hhigher : ∀ y ∈ kept, level x < level y.1) :
    Greatest level capacity (arrived ++ [x]) kept := by
  constructor
  · rw [List.zipIdx_append]
    exact h.sublist.trans (List.sublist_append_left _ _)
  · have hlength := h.length
    simp only [List.length_append, List.length_singleton]
    omega
  · intro z hz y hy hnot
    rcases mem_zipIdx_concat.mp hy with hy | rfl
    · exact h.outranks z hz y hy hnot
    · exact Or.inl (hhigher z hz)

/-- Otherwise it replaces the first of the lowest. -/
theorem Greatest.replace (h : Greatest level capacity arrived kept) {index : Nat}
    {lowest : α × Nat} (hfull : kept.length = capacity) (hget : kept[index]? = some lowest)
    (hle : ∀ y ∈ kept, level lowest.1 ≤ level y.1)
    (hfirst : ∀ i < index, ∀ y, kept[i]? = some y → level lowest.1 < level y.1)
    (hlow : level lowest.1 ≤ level x) :
    Greatest level capacity (arrived ++ [x])
      (kept.eraseIdx index ++ [(x, arrived.length)]) := by
  have hmem : lowest ∈ kept := List.mem_of_getElem? hget
  have hbefore : lowest.2 < arrived.length := lt_length_of_mem (h.sublist.subset hmem)
  -- What stays is greater than what goes, and so is the new element.
  have hnew : Outranks level (x, arrived.length) lowest := by
    rcases hlow.lt_or_eq with hlt | heq
    · exact Or.inl hlt
    · exact Or.inr ⟨heq, hbefore⟩
  have hstay : ∀ z ∈ kept.eraseIdx index, Outranks level z lowest := by
    intro z hz
    obtain ⟨i, hne, hi⟩ := List.mem_eraseIdx_iff_getElem?.mp hz
    rcases Nat.lt_or_gt_of_ne hne with hlt | hgt
    · exact Or.inl (hfirst i hlt z hi)
    · rcases (hle z (List.mem_of_getElem? hi)).lt_or_eq with hlt | heq
      · exact Or.inl hlt
      · refine Or.inr ⟨heq, ?_⟩
        obtain ⟨hindex, rfl⟩ := List.getElem?_eq_some_iff.mp hget
        obtain ⟨hz', rfl⟩ := List.getElem?_eq_some_iff.mp hi
        exact List.pairwise_iff_getElem.mp (ascending h.sublist) index i hindex hz' hgt
  constructor
  · rw [List.zipIdx_append]
    simp only [List.zipIdx_singleton, Nat.zero_add]
    exact ((List.eraseIdx_sublist _ _).trans h.sublist).append (List.Sublist.refl _)
  · have hlength := h.length
    have hindex := (List.getElem?_eq_some_iff.mp hget).1
    simp only [List.length_append, List.length_singleton, List.length_eraseIdx, if_pos hindex]
    omega
  · intro z hz y hy hnot
    rw [List.mem_append, List.mem_singleton, not_or] at hnot
    rw [List.mem_append, List.mem_singleton] at hz
    have hlowest : Outranks level z lowest := by
      rcases hz with hz | rfl
      · exact hstay z hz
      · exact hnew
    rcases mem_zipIdx_concat.mp hy with hy | rfl
    · by_cases hkept : y ∈ kept
      · -- It was in the queue, so it is the one that was erased.
        obtain ⟨i, hi⟩ := List.mem_iff_getElem?.mp hkept
        by_cases hsame : i = index
        · rw [hsame, hget] at hi
          cases hi
          exact hlowest
        · exact absurd (List.mem_eraseIdx_iff_getElem?.mpr ⟨i, hsame, hi⟩) hnot.1
      · exact hlowest.trans (h.outranks lowest hmem y hy hkept)
    · exact absurd rfl hnot.2

end

/-- An arrival keeps the greatest elements. -/
theorem KeepsGreatest.offer {capacity : Nat} {arrived queue queue' : List α} {x : α}
    {dropped : Bool} (h : KeepsGreatest level capacity arrived queue)
    (hoffer : Offer level capacity queue x queue' dropped) :
    KeepsGreatest level capacity (arrived ++ [x]) queue' := by
  obtain ⟨kept, hkept, rfl⟩ := h
  cases hoffer with
  | push room =>
    rw [List.length_map] at room
    exact ⟨_, hkept.push room, by rw [List.map_append]; rfl⟩
  | refuse full higher =>
    rw [List.length_map] at full
    refine ⟨_, hkept.refuse full ?_, rfl⟩
    intro y hy
    exact higher y.1 (List.mem_map_of_mem hy)
  | @replace index lowest full isFirst le =>
    rw [List.length_map] at full
    have hget := isFirst.get
    rw [List.getElem?_map] at hget
    obtain ⟨entry, hentry, rfl⟩ := Option.map_eq_some_iff.mp hget
    refine ⟨_, hkept.replace full hentry ?_ ?_ le, ?_⟩
    · intro y hy
      exact isFirst.le y.1 (List.mem_map_of_mem hy)
    · intro i hi y hy
      exact isFirst.first i hi y.1 (by rw [List.getElem?_map, hy]; rfl)
    · rw [List.map_append, List.eraseIdx_map]
      rfl

/-- An element is dropped when the queue is full, and a full queue stays full. -/
theorem Offer.count {capacity : Nat} {queue queue' : List α} {x : α} {dropped : Bool}
    (h : Offer level capacity queue x queue' dropped) :
    queue'.length + dropped.toNat = queue.length + 1 := by
  cases h with
  | push room => simp
  | refuse full higher => rfl
  | replace full isFirst le =>
    have hindex := (List.getElem?_eq_some_iff.mp isFirst.get).1
    simp only [List.length_append, List.length_singleton, List.length_eraseIdx, if_pos hindex,
      Bool.toNat_true]
    omega

/-- A queue has no more elements than places. -/
theorem KeepsGreatest.length_le {capacity : Nat} {arrived queue : List α}
    (h : KeepsGreatest level capacity arrived queue) : queue.length ≤ capacity := by
  obtain ⟨kept, hkept, rfl⟩ := h
  rw [List.length_map, hkept.length]
  exact Nat.min_le_left _ _

/-- **The greatest elements stay.** After any sequence of arrivals the queue has the greatest
elements in the order of their arrival, and all the others were dropped. -/
theorem Offers.keepsGreatest {capacity : Nat} {arrived queue : List α} {count : Nat}
    (h : Offers level capacity arrived queue count) :
    KeepsGreatest level capacity arrived queue ∧
      count = arrived.length - min capacity arrived.length := by
  have hcount : queue.length + count = arrived.length := by
    induction h with
    | nil => rfl
    | snoc before offer ih =>
      have hone := offer.count
      rw [List.length_append, List.length_singleton]
      omega
  have hkeeps : KeepsGreatest level capacity arrived queue := by
    clear hcount
    induction h with
    | nil =>
      refine ⟨[], ⟨List.nil_sublist _, ?_, nofun⟩, rfl⟩
      simp
    | snoc before offer ih => exact ih.offer offer
  refine ⟨hkeeps, ?_⟩
  obtain ⟨kept, hkept, rfl⟩ := hkeeps
  have hlength := hkept.length
  rw [List.length_map] at hcount
  omega

end

end Wmfs.Lib.TopK
