import Mathlib.Data.List.Nodup
import Mathlib.Data.List.Perm.Basic

/-!
# `Wmfs.Lib.Slots`: filling the empty slots of a list

Some slots of a list are empty. Entries, each for the slot at its index, fill them one after the
other. When the indices are those of the empty slots, each once, every slot has a value behind
this (`none_notMem_fill`), the slots that had one keep it, and the order of the entries does not
matter (`fill_perm`).

Nothing here refers to a particular program.
-/

set_option autoImplicit false

namespace Wmfs.Lib.Slots

universe u

variable {α : Type u}

/-- The slots behind the entries. -/
def fill (entries : List (Nat × α)) (slots : List (Option α)) : List (Option α) :=
  entries.foldl (fun slots entry => slots.set entry.1 (some entry.2)) slots

/-- The indices of the entries are those of the empty slots, each once. -/
structure Exact (entries : List (Nat × α)) (slots : List (Option α)) : Prop where
  distinct : (entries.map Prod.fst).Nodup
  empty_iff : ∀ index, index ∈ entries.map Prod.fst ↔ slots[index]? = some none

/-- Nothing is filled in. -/
@[simp] theorem fill_nil (slots : List (Option α)) : fill [] slots = slots := rfl

/-- The first entry is filled in first. -/
@[simp] theorem fill_cons (entry : Nat × α) (entries : List (Nat × α)) (slots : List (Option α)) :
    fill (entry :: entries) slots = fill entries (slots.set entry.1 (some entry.2)) := rfl

/-- Filling keeps the number of slots. -/
@[simp] theorem length_fill (entries : List (Nat × α)) (slots : List (Option α)) :
    (fill entries slots).length = slots.length := by
  induction entries generalizing slots with
  | nil => rfl
  | cons entry entries ih => rw [fill_cons, ih, List.length_set]

/-- A slot without an entry stays as it is. -/
theorem getElem?_fill_of_notMem {entries : List (Nat × α)} {index : Nat}
    (h : index ∉ entries.map Prod.fst) (slots : List (Option α)) :
    (fill entries slots)[index]? = slots[index]? := by
  induction entries generalizing slots with
  | nil => rfl
  | cons entry entries ih =>
    rw [List.map_cons, List.mem_cons, not_or] at h
    rw [fill_cons, ih h.2, List.getElem?_set_ne (Ne.symm h.1)]

/-- A slot with one entry has its value. -/
theorem getElem?_fill_of_mem {entries : List (Nat × α)} (hdistinct : (entries.map Prod.fst).Nodup)
    {index : Nat} {a : α} (h : (index, a) ∈ entries) {slots : List (Option α)}
    (hindex : index < slots.length) : (fill entries slots)[index]? = some (some a) := by
  induction entries generalizing slots with
  | nil => cases h
  | cons entry entries ih =>
    rw [List.map_cons, List.nodup_cons] at hdistinct
    rcases List.mem_cons.mp h with rfl | h
    · -- No later entry is for this slot.
      rw [fill_cons, getElem?_fill_of_notMem hdistinct.1, List.getElem?_set_self hindex]
    · rw [fill_cons]
      exact ih hdistinct.2 h (by rwa [List.length_set])

/-- The index of an entry is that of a slot. -/
theorem Exact.lt_length {entries : List (Nat × α)} {slots : List (Option α)}
    (h : Exact entries slots) {index : Nat} {a : α} (hmem : (index, a) ∈ entries) :
    index < slots.length := by
  have hempty := (h.empty_iff index).mp (List.mem_map_of_mem hmem)
  exact (List.getElem?_eq_some_iff.mp hempty).1

/-- A slot of the filled list. -/
theorem Exact.getElem?_fill {entries : List (Nat × α)} {slots : List (Option α)}
    (h : Exact entries slots) {index : Nat} {a : α} (hmem : (index, a) ∈ entries) :
    (fill entries slots)[index]? = some (some a) :=
  getElem?_fill_of_mem h.distinct hmem (h.lt_length hmem)

/-- No slot is empty behind exact entries. -/
theorem Exact.none_notMem_fill {entries : List (Nat × α)} {slots : List (Option α)}
    (h : Exact entries slots) : none ∉ fill entries slots := by
  intro hnone
  obtain ⟨index, hindex⟩ := List.mem_iff_getElem?.mp hnone
  by_cases hmem : index ∈ entries.map Prod.fst
  · obtain ⟨⟨_, a⟩, hentry, rfl⟩ := List.mem_map.mp hmem
    rw [h.getElem?_fill hentry] at hindex
    cases hindex
  · rw [getElem?_fill_of_notMem hmem] at hindex
    exact hmem ((h.empty_iff index).mpr hindex)

/-- Being exact does not depend on the order. -/
theorem Exact.perm {entries entries' : List (Nat × α)} {slots : List (Option α)}
    (h : Exact entries slots) (hperm : entries.Perm entries') : Exact entries' slots where
  distinct := ((hperm.map Prod.fst).nodup_iff).mp h.distinct
  empty_iff index := by rw [← h.empty_iff index, (hperm.map Prod.fst).mem_iff]

/-- The order of exact entries does not matter. -/
theorem Exact.fill_perm {entries entries' : List (Nat × α)} {slots : List (Option α)}
    (h : Exact entries slots) (hperm : entries.Perm entries') :
    fill entries' slots = fill entries slots := by
  apply List.ext_getElem?
  intro index
  by_cases hmem : index ∈ entries.map Prod.fst
  · obtain ⟨⟨_, a⟩, hentry, rfl⟩ := List.mem_map.mp hmem
    rw [h.getElem?_fill hentry, (h.perm hperm).getElem?_fill (hperm.mem_iff.mp hentry)]
  · have hmem' : index ∉ entries'.map Prod.fst := by rwa [← (hperm.map Prod.fst).mem_iff]
    rw [getElem?_fill_of_notMem hmem, getElem?_fill_of_notMem hmem']

/-- A list without an empty slot has its values at the indices of the slots. -/
theorem getElem?_filterMap_id {slots : List (Option α)} (h : none ∉ slots) (index : Nat) :
    (slots.filterMap id)[index]? = (slots[index]?).join := by
  induction slots generalizing index with
  | nil => rfl
  | cons slot slots ih =>
    rw [List.mem_cons, not_or] at h
    cases slot with
    | none => exact absurd rfl h.1
    | some a =>
      show (a :: slots.filterMap id)[index]? = _
      cases index with
      | zero => rfl
      | succ index => exact ih h.2 index

end Wmfs.Lib.Slots
