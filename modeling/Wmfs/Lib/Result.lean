import Mathlib.Data.List.Forall2
import Mathlib.Logic.Basic

/-!
# `Wmfs.Lib.Result`: steps that may fail

Rules for `Except`: when a sequence of steps succeeds, when a loop over a list does, and what
the loop returns then. A `raiseIf` is a check that raises, and `zipStrict` is the `zip` that
refuses lists of different lengths.

Nothing here refers to a particular program.
-/

set_option autoImplicit false

namespace Wmfs.Lib

/-- An exception ends the computation. -/
theorem Result.error_bind {ε α β : Type} (e : ε) (second : α → Except ε β) :
    Except.error e >>= second = .error e := rfl

/-- A result goes to the next step. -/
theorem Result.ok_bind {ε α β : Type} (middle : α) (second : α → Except ε β) :
    Except.ok middle >>= second = second middle := rfl

/-- Two steps succeed when the first one does and the second does on its result. -/
theorem Result.bind_ok_iff {ε α β : Type} {first : Except ε α} {second : α → Except ε β}
    {result : β} : first >>= second = .ok result ↔
      ∃ middle, first = .ok middle ∧ second middle = .ok result := by
  cases first with
  | error e =>
    constructor
    · intro h; cases h
    · intro ⟨_, h, _⟩; cases h
  | ok middle =>
    constructor
    · intro h; exact ⟨middle, rfl, h⟩
    · intro ⟨_, h, hresult⟩; cases h; exact hresult

/-- A step that only checks and then the rest succeed when both do. -/
theorem Result.check_bind_ok_iff {ε α : Type} {check : Except ε Unit} {rest : Except ε α}
    {result : α} : (check >>= fun _ => rest) = .ok result ↔ check = .ok () ∧ rest = .ok result := by
  rw [Result.bind_ok_iff]
  constructor
  · intro ⟨_, hcheck, hrest⟩
    exact ⟨hcheck, hrest⟩
  · intro ⟨hcheck, hrest⟩
    exact ⟨(), hcheck, hrest⟩

section
variable {ε α β : Type}

/-- `if bad: raise error`. -/
def raiseIf (bad : Prop) [Decidable bad] (error : ε) : Except ε Unit :=
  if bad then .error error else .ok ()

/-- A check passes when the fault is absent. -/
@[simp] theorem raiseIf_ok_iff {bad : Prop} [Decidable bad] {error : ε} {u : Unit} :
    raiseIf bad error = .ok u ↔ ¬ bad := by
  unfold raiseIf
  split <;> simp_all

/-- `zip(xs, ys, strict=True)`. -/
def zipStrict (error : ε) (xs : List α) (ys : List β) : Except ε (List (α × β)) :=
  if xs.length = ys.length then .ok (xs.zip ys) else .error error

/-- `zip` with `strict` pairs lists of one length. -/
@[simp] theorem zipStrict_ok_iff {error : ε} {xs : List α} {ys : List β} {pairs : List (α × β)} :
    zipStrict error xs ys = .ok pairs ↔ xs.length = ys.length ∧ xs.zip ys = pairs := by
  unfold zipStrict
  split <;> simp_all

/-- A loop that only checks succeeds when every check does. -/
theorem Result.forM_ok_iff {check : α → Except ε Unit} {items : List α} {u : Unit} :
    forM items check = .ok u ↔ ∀ item ∈ items, check item = .ok () := by
  induction items with
  | nil => simp [pure, Except.pure]
  | cons item items ih =>
    rw [List.forM_cons, Result.bind_ok_iff, List.forall_mem_cons]
    constructor
    · intro ⟨_, hitem, hitems⟩
      exact ⟨hitem, ih.mp hitems⟩
    · intro ⟨hitem, hitems⟩
      exact ⟨(), hitem, ih.mpr hitems⟩

/-- A loop that collects results succeeds with them when every step succeeds with its own. -/
theorem Result.mapM_ok_iff {f : α → Except ε β} {items : List α} {results : List β} :
    items.mapM f = .ok results ↔ List.Forall₂ (fun item result => f item = .ok result) items
      results := by
  induction items generalizing results with
  | nil =>
    rw [List.forall₂_nil_left_iff]
    show Except.ok [] = Except.ok results ↔ _
    rw [Except.ok.injEq, eq_comm]
  | cons item items ih =>
    rw [List.mapM_cons, Result.bind_ok_iff, List.forall₂_cons_left_iff]
    constructor
    · intro ⟨first, hfirst, hrest⟩
      obtain ⟨rest, hmapM, heq⟩ := Result.bind_ok_iff.mp hrest
      cases heq
      exact ⟨first, rest, hfirst, ih.mp hmapM, rfl⟩
    · intro ⟨first, rest, hfirst, hrest, heq⟩
      refine ⟨first, hfirst, Result.bind_ok_iff.mpr ⟨rest, ih.mpr hrest, ?_⟩⟩
      rw [heq]
      rfl

/-- A loop whose steps all succeed collects their results. -/
theorem Result.mapM_map_eq_ok {γ : Type} {f : β → Except ε γ} {g : α → β} {result : α → γ}
    {items : List α} (h : ∀ item ∈ items, f (g item) = .ok (result item)) :
    (items.map g).mapM f = .ok (items.map result) := by
  rw [Result.mapM_ok_iff, List.forall₂_map_left_iff, List.forall₂_map_right_iff]
  exact List.forall₂_same.mpr h

/-- Each result of a loop comes from one of its items. -/
theorem Result.exists_of_mem_mapM {f : α → Except ε β} {items : List α} {results : List β}
    (h : items.mapM f = .ok results) {result : β} (hmem : result ∈ results) :
    ∃ item ∈ items, f item = .ok result := by
  have hall := Result.mapM_ok_iff.mp h
  clear h
  induction hall with
  | nil => cases hmem
  | cons hfirst _ ih =>
    rcases List.mem_cons.mp hmem with rfl | hrest
    · exact ⟨_, List.mem_cons_self, hfirst⟩
    · obtain ⟨item, hitem, heq⟩ := ih hrest
      exact ⟨item, List.mem_cons_of_mem _ hitem, heq⟩

/-- A loop that collects results succeeds when every step does. -/
theorem Result.exists_mapM_ok_iff {f : α → Except ε β} {items : List α} :
    (∃ results, items.mapM f = .ok results) ↔ ∀ item ∈ items, ∃ result, f item = .ok result := by
  induction items with
  | nil => simp [pure, Except.pure]
  | cons item items ih =>
    rw [List.forall_mem_cons, ← ih]
    constructor
    · intro ⟨results, h⟩
      obtain ⟨first, rest, hfirst, hrest, _⟩ :=
        List.forall₂_cons_left_iff.mp (Result.mapM_ok_iff.mp h)
      exact ⟨⟨first, hfirst⟩, rest, Result.mapM_ok_iff.mpr hrest⟩
    · intro ⟨⟨first, hfirst⟩, rest, hrest⟩
      exact ⟨first :: rest, Result.mapM_ok_iff.mpr (.cons hfirst (Result.mapM_ok_iff.mp hrest))⟩

/-- Lists that are related item by item satisfy related conditions together. -/
theorem forall_mem_iff_of_forall₂ {R : α → β → Prop} {P : α → Prop} {Q : β → Prop}
    (hR : ∀ {a b}, R a b → (P a ↔ Q b)) {as : List α} {bs : List β}
    (h : List.Forall₂ R as bs) : (∀ a ∈ as, P a) ↔ ∀ b ∈ bs, Q b := by
  induction h with
  | nil => simp
  | cons hfirst _ ih => rw [List.forall_mem_cons, List.forall_mem_cons, hR hfirst, ih]

/-- A condition on the items of a list that does not depend on their positions. -/
theorem forall_mem_zipIdx_iff {P : α × Nat → Prop} {Q : α → Prop} {items : List α}
    (h : ∀ item ∈ items, ∀ index < items.length, (P (item, index) ↔ Q item)) :
    (∀ entry ∈ items.zipIdx, P entry) ↔ ∀ item ∈ items, Q item := by
  constructor
  · intro hall item hmem
    obtain ⟨index, hindex, hitem⟩ := List.getElem_of_mem hmem
    refine (h item hmem index hindex).mp (hall _ ?_)
    rw [List.mk_mem_zipIdx_iff_getElem?, List.getElem?_eq_getElem hindex, hitem]
  · intro hall (item, index) hentry
    rw [List.mk_mem_zipIdx_iff_getElem?] at hentry
    have hindex := (List.getElem?_eq_some_iff.mp hentry).1
    have hmem := List.mem_of_getElem? hentry
    exact (h item hmem index hindex).mpr (hall item hmem)

end

end Wmfs.Lib
