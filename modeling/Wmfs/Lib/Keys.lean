import Mathlib.Data.List.Nodup

/-!
# `Wmfs.Lib.Keys`: lists whose items have distinct keys

A list of items with distinct keys is what a dictionary is built from. A search for a key then finds
the one item that has it, from either end of the list.

Nothing here refers to a particular program.
-/

set_option autoImplicit false

namespace Wmfs.Lib

/-- Among distinct keys, a search finds an item when it has the key. -/
theorem find?_eq_some_iff_of_nodup {α β : Type} [DecidableEq β] {items : List α} {f : α → β}
    (hnodup : (items.map f).Nodup) {key : β} {item : α} :
    (items.find? fun candidate => f candidate = key) = some item ↔ item ∈ items ∧ f item = key := by
  constructor
  · intro h
    have hkey := List.find?_some h
    exact ⟨List.mem_of_find?_eq_some h, of_decide_eq_true hkey⟩
  · intro ⟨hmem, hkey⟩
    cases hfound : items.find? fun candidate => f candidate = key with
    | none =>
      have hnone := List.find?_eq_none.mp hfound item hmem
      exact absurd (decide_eq_true hkey) hnone
    | some found =>
      have hfoundKey := List.find?_some hfound
      have hfoundKey : f found = key := of_decide_eq_true hfoundKey
      have heq := List.inj_on_of_nodup_map hnodup (List.mem_of_find?_eq_some hfound) hmem
        (hfoundKey.trans hkey.symm)
      rw [heq]

/-- Among distinct keys, it does not matter from which end a search goes. -/
theorem find?_reverse_of_nodup {α β : Type} [DecidableEq β] {items : List α} {f : α → β}
    (hnodup : (items.map f).Nodup) (key : β) :
    (items.reverse.find? fun candidate => f candidate = key) =
      items.find? fun candidate => f candidate = key := by
  have hreverse : (items.reverse.map f).Nodup := by
    rw [List.map_reverse]
    exact List.nodup_reverse.mpr hnodup
  apply Option.ext
  intro item
  rw [find?_eq_some_iff_of_nodup hreverse, find?_eq_some_iff_of_nodup hnodup, List.mem_reverse]

end Wmfs.Lib
