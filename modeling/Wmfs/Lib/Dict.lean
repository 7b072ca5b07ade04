import Mathlib.Data.List.AList
import Mathlib.Logic.Function.Basic

/-!
# `Wmfs.Lib.Dict`: loops over a dictionary, lookups in a list, and counts

A Python `dict` is modelled by Mathlib's `AList`, which carries the proof that its keys are
distinct. `updateAll` is the loop `for key, value in m.items(): g[key] = f(g[key], value)`.
Because the keys are distinct, the result at a key depends only on the entry of that key
(`updateAll_apply`), and not on the order of the loop.

`exists_split_of_find` is the loop that takes the first match out of a list. `lookup_swap_iff`
is the inverse of a constant table. `countP_update` is the counting rule for a family of objects of which one changes.

Nothing here refers to a particular program.
-/

set_option autoImplicit false

namespace Wmfs.Lib

universe u v w

section
variable {κ : Type u} {β : Type v} {γ : Type w} [DecidableEq κ]

/-- Replace the value of `g` at each key of `m` by `f` of the value and the entry of `m`. -/
def updateAll (f : γ → β → γ) (m : AList fun _ : κ => β) (g : κ → γ) : κ → γ :=
  m.entries.foldl (fun g entry => Function.update g entry.1 (f (g entry.1) entry.2)) g

/-- The loop of `updateAll` over a list of entries leaves other keys alone. -/
theorem foldl_update_of_notMem (f : γ → β → γ) (k : κ) :
    ∀ (entries : List (Sigma fun _ : κ => β)) (g : κ → γ), k ∉ entries.keys →
      entries.foldl (fun g entry => Function.update g entry.1 (f (g entry.1) entry.2)) g k =
        g k := by
  intro entries
  induction entries with
  | nil => intro g _; rfl
  | cons entry entries ih =>
    intro g hk
    rw [List.keys_cons, List.mem_cons, not_or] at hk
    rw [List.foldl_cons, ih _ hk.2, Function.update_of_ne hk.1]

/-- The loop of `updateAll` over entries with distinct keys, read at one key. -/
theorem foldl_update_apply (f : γ → β → γ) (k : κ) :
    ∀ (entries : List (Sigma fun _ : κ => β)) (g : κ → γ), entries.NodupKeys →
      entries.foldl (fun g entry => Function.update g entry.1 (f (g entry.1) entry.2)) g k =
        (entries.dlookup k).elim (g k) (f (g k)) := by
  intro entries
  induction entries with
  | nil => intro g _; rfl
  | cons entry entries ih =>
    intro g hnodup
    obtain ⟨k', b⟩ := entry
    rw [List.nodupKeys_cons] at hnodup
    obtain ⟨hnotMem, hnodup⟩ := hnodup
    rw [List.foldl_cons]
    by_cases hk : k = k'
    · subst hk
      rw [foldl_update_of_notMem f k entries _ hnotMem, List.dlookup_cons_eq]
      simp
    · have hlookup : List.dlookup k (⟨k', b⟩ :: entries) = entries.dlookup k :=
        List.dlookup_cons_ne entries ⟨k', b⟩ hk
      rw [ih _ hnodup, hlookup, Function.update_of_ne hk]

/-- What `updateAll` does at one key. -/
theorem updateAll_apply (f : γ → β → γ) (m : AList fun _ : κ => β) (g : κ → γ) (k : κ) :
    updateAll f m g k = (m.lookup k).elim (g k) (f (g k)) :=
  foldl_update_apply f k m.entries g m.nodupKeys

end

section
variable {κ : Type u} {β : Type v} [DecidableEq κ]

/-- The values of a dictionary after an insertion. -/
theorem exists_lookup_insert (m : AList fun _ : κ => β) (k : κ) (b c : β) :
    (∃ k', (m.insert k b).lookup k' = some c) ↔
      b = c ∨ ∃ k', k' ≠ k ∧ m.lookup k' = some c := by
  constructor
  · rintro ⟨k', h⟩
    by_cases hk : k' = k
    · subst hk
      rw [AList.lookup_insert, Option.some.injEq] at h
      exact Or.inl h
    · rw [AList.lookup_insert_ne hk] at h
      exact Or.inr ⟨k', hk, h⟩
  · rintro (rfl | ⟨k', hk, h⟩)
    · exact ⟨k, AList.lookup_insert m⟩
    · exact ⟨k', by rw [AList.lookup_insert_ne hk, h]⟩

/-- The values of a dictionary after a deletion. -/
theorem exists_lookup_erase (m : AList fun _ : κ => β) (k : κ) (c : β) :
    (∃ k', (m.erase k).lookup k' = some c) ↔ ∃ k', k' ≠ k ∧ m.lookup k' = some c := by
  constructor
  · rintro ⟨k', h⟩
    have hk : k' ≠ k := by
      rintro rfl
      rw [AList.lookup_erase] at h
      cases h
    rw [AList.lookup_erase_ne hk] at h
    exact ⟨k', hk, h⟩
  · rintro ⟨k', hk, h⟩
    exact ⟨k', by rw [AList.lookup_erase_ne hk, h]⟩

/-- The values of a dictionary. -/
theorem mem_values_iff (m : AList fun _ : κ => β) (b : β) :
    b ∈ m.entries.map Sigma.snd ↔ ∃ k, m.lookup k = some b := by
  constructor
  · intro h
    obtain ⟨⟨k, _⟩, hmem, rfl⟩ := List.mem_map.mp h
    exact ⟨k, AList.mem_lookup_iff.mpr hmem⟩
  · rintro ⟨k, h⟩
    exact List.mem_map.mpr ⟨⟨k, b⟩, AList.mem_lookup_iff.mp h, rfl⟩

end

/-- The first element that satisfies `p`, found and taken out of the list. -/
theorem exists_split_of_find {α : Type u} {p : α → Bool} {l : List α} {a : α}
    (h : l.find? p = some a) :
    p a = true ∧ ∃ before after, l = before ++ a :: after ∧ l.eraseP p = before ++ after := by
  obtain ⟨hfound, before, after, hsplit, hbefore⟩ := List.find?_eq_some_iff_append.mp h
  refine ⟨hfound, before, after, hsplit, ?_⟩
  rw [hsplit, List.eraseP_append_right _ (by simpa using hbefore), List.eraseP_cons_of_pos hfound]

/-- A table with distinct keys holds exactly the entries that it returns. -/
theorem lookup_eq_some_iff_mem {α : Type u} {β : Type v} [DecidableEq α] {table : List (α × β)}
    (h : (table.map Prod.fst).Nodup) {a : α} {b : β} :
    table.lookup a = some b ↔ (a, b) ∈ table := by
  induction table with
  | nil => simp
  | cons entry table ih =>
    obtain ⟨a', b'⟩ := entry
    rw [List.map_cons, List.nodup_cons] at h
    rw [List.lookup_cons, List.mem_cons]
    by_cases ha : a = a'
    · subst ha
      have hnotMem : (a, b) ∉ table := fun hmem => h.1 (List.mem_map.mpr ⟨_, hmem, rfl⟩)
      simp [hnotMem, eq_comm]
    · have hne : (a == a') = false := by simpa using ha
      rw [hne]
      simp only [ih h.2, Prod.mk.injEq, ha, false_and, false_or]

/-- The inverse table of a table with distinct keys and distinct values. -/
theorem lookup_swap_iff {α : Type u} {β : Type v} [DecidableEq α] [DecidableEq β]
    {table : List (α × β)} (hkeys : (table.map Prod.fst).Nodup)
    (hvalues : (table.map Prod.snd).Nodup) {a : α} {b : β} :
    (table.map Prod.swap).lookup b = some a ↔ table.lookup a = some b := by
  have hswap : ((table.map Prod.swap).map Prod.fst).Nodup := by
    rw [List.map_map]
    exact hvalues
  rw [lookup_eq_some_iff_mem hkeys, lookup_eq_some_iff_mem hswap, List.mem_map]
  constructor
  · intro ⟨entry, hmem, hentry⟩
    rwa [show (a, b) = entry by rw [← Prod.swap_swap entry, hentry]; rfl]
  · intro hmem
    exact ⟨(a, b), hmem, rfl⟩

section
variable {α : Type u} {β : Type v} [DecidableEq α]

/-- A change of an object outside the list does not change a count. -/
theorem countP_update_of_notMem {l : List α} {a : α} (ha : a ∉ l) (g : α → β) (b : β)
    (p : β → Bool) :
    l.countP (fun x => p (Function.update g a b x)) = l.countP fun x => p (g x) := by
  refine List.countP_congr fun x hx => ?_
  have hne : x ≠ a := by
    rintro rfl
    exact ha hx
  rw [Function.update_of_ne hne]

/-- A change of one object of the list changes a count by that object's contribution. -/
theorem countP_update {l : List α} (hl : l.Nodup) {a : α} (ha : a ∈ l) (g : α → β) (b : β)
    (p : β → Bool) :
    l.countP (fun x => p (Function.update g a b x)) + (p (g a)).toNat =
      l.countP (fun x => p (g x)) + (p b).toNat := by
  induction l with
  | nil => cases ha
  | cons x l ih =>
    rw [List.nodup_cons] at hl
    obtain ⟨hx, hl⟩ := hl
    rw [List.countP_cons, List.countP_cons]
    by_cases hxa : x = a
    · subst hxa
      rw [countP_update_of_notMem hx, Function.update_self]
      cases p b <;> cases p (g x) <;> rfl
    · have ha' : a ∈ l := by
        rcases List.mem_cons.mp ha with heq | hmem
        · exact absurd heq.symm hxa
        · exact hmem
      have hcount := ih hl ha'
      rw [Function.update_of_ne hxa]
      omega

end

end Wmfs.Lib
