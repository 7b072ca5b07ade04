import Wmfs.Lib.Result

/-!
# `Wmfs.Lib.Raises`: the exceptions of steps that may fail

`Raises P step` says that a step fails with an exception of the kind `P`. Each rule says when a
composition of steps raises one: a sequence raises what its first step raises, or what the rest
raises after the first step has succeeded. A loop raises what one of its passes raises after all
passes before it have succeeded.

Nothing here refers to a particular program.
-/

set_option autoImplicit false

namespace Wmfs.Lib

variable {ε α β : Type} {P : ε → Prop}

/-- The step fails with an exception of this kind. -/
def Raises (P : ε → Prop) (step : Except ε α) : Prop := ∃ e, step = .error e ∧ P e

/-- A result raises nothing. -/
@[simp] theorem not_raises_ok {a : α} : ¬ Raises P (.ok a : Except ε α) := by
  intro ⟨e, h, _⟩
  cases h

/-- `pure` raises nothing. -/
@[simp] theorem not_raises_pure {a : α} : ¬ Raises P (pure a : Except ε α) := not_raises_ok

/-- An exception is the one that is raised. -/
@[simp] theorem raises_error_iff {e : ε} : Raises P (.error e : Except ε α) ↔ P e := by
  constructor
  · intro ⟨_, h, hP⟩
    cases h
    exact hP
  · intro hP
    exact ⟨e, rfl, hP⟩

/-- What a sequence of steps raises. -/
theorem raises_bind_iff {first : Except ε α} {second : α → Except ε β} :
    Raises P (first >>= second) ↔
      Raises P first ∨ ∃ a, first = .ok a ∧ Raises P (second a) := by
  cases first with
  | error e =>
    rw [Result.error_bind, raises_error_iff, raises_error_iff]
    constructor
    · intro hP
      exact .inl hP
    · intro h
      rcases h with hP | ⟨a, h, _⟩
      · exact hP
      · cases h
  | ok a =>
    rw [Result.ok_bind]
    constructor
    · intro h
      exact .inr ⟨a, rfl, h⟩
    · intro h
      rcases h with h | ⟨_, h, hsecond⟩
      · exact absurd h not_raises_ok
      · cases h
        exact hsecond

/-- A sequence of steps whose first step raises nothing of this kind. -/
theorem raises_bind_iff_of_not {first : Except ε α} {second : α → Except ε β}
    (hfirst : ¬ Raises P first) :
    Raises P (first >>= second) ↔ ∃ a, first = .ok a ∧ Raises P (second a) := by
  rw [raises_bind_iff, or_iff_right hfirst]

/-- A sequence of steps that raise nothing of this kind. -/
theorem not_raises_bind {first : Except ε α} {second : α → Except ε β}
    (hfirst : ¬ Raises P first) (hsecond : ∀ a, first = .ok a → ¬ Raises P (second a)) :
    ¬ Raises P (first >>= second) := by
  rw [raises_bind_iff_of_not hfirst]
  intro ⟨a, h, hraises⟩
  exact hsecond a h hraises

/-- A function of the result raises nothing. -/
@[simp] theorem raises_map_iff {f : α → β} {step : Except ε α} :
    Raises P (step.map f) ↔ Raises P step := by
  cases step with
  | error e => rw [Except.map, raises_error_iff, raises_error_iff]
  | ok a =>
    constructor
    · intro h
      exact absurd h not_raises_ok
    · intro h
      exact absurd h not_raises_ok

/-- The same with `<$>`. -/
@[simp] theorem raises_fmap_iff {f : α → β} {step : Except ε α} :
    Raises P (f <$> step) ↔ Raises P step := raises_map_iff

/-- A check raises its error when the fault is present. -/
@[simp] theorem raises_raiseIf_iff {bad : Prop} [Decidable bad] {error : ε} :
    Raises P (raiseIf bad error) ↔ bad ∧ P error := by
  unfold raiseIf
  split
  · rename_i hbad
    rw [raises_error_iff]
    exact (and_iff_right hbad).symm
  · rename_i hbad
    constructor
    · intro h
      exact absurd h not_raises_ok
    · intro ⟨h, _⟩
      exact absurd h hbad

/-- A loop that collects results raises what one of its passes raises, all passes before it having
succeeded. -/
theorem raises_mapM_iff {f : α → Except ε β} {items : List α} :
    Raises P (items.mapM f) ↔ ∃ before item after, items = before ++ item :: after ∧
      (∀ earlier ∈ before, ∃ result, f earlier = .ok result) ∧ Raises P (f item) := by
  induction items with
  | nil =>
    constructor
    · intro h
      exact absurd h not_raises_pure
    · intro ⟨before, item, after, h, _⟩
      cases before <;> cases h
  | cons first rest ih =>
    rw [List.mapM_cons, raises_bind_iff]
    constructor
    · intro h
      rcases h with hfirst | ⟨result, hresult, hrest⟩
      · exact ⟨[], first, rest, rfl, by simp, hfirst⟩
      · have hloop : Raises P (rest.mapM f) := by
          rcases raises_bind_iff.mp hrest with hloop | ⟨_, _, hdone⟩
          · exact hloop
          · exact absurd hdone not_raises_pure
        obtain ⟨before, item, after, heq, hbefore, hitem⟩ := ih.mp hloop
        refine ⟨first :: before, item, after, by rw [heq, List.cons_append], ?_, hitem⟩
        exact List.forall_mem_cons.mpr ⟨⟨result, hresult⟩, hbefore⟩
    · intro ⟨before, item, after, heq, hbefore, hitem⟩
      cases before with
      | nil =>
        cases heq
        exact .inl hitem
      | cons earlier before =>
        cases heq
        obtain ⟨⟨result, hresult⟩, hbefore⟩ := List.forall_mem_cons.mp hbefore
        refine .inr ⟨result, hresult, raises_bind_iff.mpr (.inl (ih.mpr ?_))⟩
        exact ⟨before, item, after, rfl, hbefore, hitem⟩

/-- A loop whose passes fail with this kind only raises one exactly when a pass does not
succeed. -/
theorem raises_mapM_iff_of_forall {f : α → Except ε β} {items : List α}
    (h : ∀ item e, f item = .error e → P e) :
    Raises P (items.mapM f) ↔ ¬ ∀ item ∈ items, ∃ result, f item = .ok result := by
  rw [← Result.exists_mapM_ok_iff]
  cases hloop : items.mapM f with
  | ok results =>
    constructor
    · intro hraises
      exact absurd hraises not_raises_ok
    · intro hnot
      exact absurd ⟨results, rfl⟩ hnot
  | error e =>
    rw [raises_error_iff]
    constructor
    · intro _ ⟨results, hresults⟩
      cases hresults
    · intro _
      -- The exception of the loop is the exception of a pass.
      have hexact : Raises (· = e) (items.mapM f) := ⟨e, hloop, rfl⟩
      obtain ⟨_, item, _, _, _, found, hitem, rfl⟩ := raises_mapM_iff.mp hexact
      exact h item found hitem

/-- A loop that only checks is a loop that collects results and drops them. -/
theorem forM_eq_map_mapM {check : α → Except ε Unit} {items : List α} :
    forM items check = (items.mapM check).map fun _ => () := by
  induction items with
  | nil => rfl
  | cons first rest ih =>
    rw [List.forM_cons, List.mapM_cons, ih]
    cases check first with
    | error e => rfl
    | ok u =>
      rw [Result.ok_bind, Result.ok_bind]
      cases rest.mapM check <;> rfl

/-- A loop that only checks raises what one of its passes raises, all passes before it having
succeeded. -/
theorem raises_forM_iff {check : α → Except ε Unit} {items : List α} :
    Raises P (forM items check) ↔ ∃ before item after, items = before ++ item :: after ∧
      (∀ earlier ∈ before, check earlier = .ok ()) ∧ Raises P (check item) := by
  rw [forM_eq_map_mapM, raises_map_iff, raises_mapM_iff]
  have hunit : ∀ item, (∃ result, check item = .ok result) ↔ check item = .ok () := by
    intro item
    exact ⟨fun ⟨_, h⟩ => h, fun h => ⟨(), h⟩⟩
  simp only [hunit]

/-- A loop over numbered items whose passes do not depend on the numbers. -/
theorem raises_forM_zipIdx_iff {check : α × Nat → Except ε Unit} {bad good : α → Prop}
    {items : List α} (hbad : ∀ entry, Raises P (check entry) ↔ bad entry.1)
    (hgood : ∀ entry, check entry = .ok () ↔ good entry.1) :
    Raises P (forM items.zipIdx check) ↔ ∃ before item after, items = before ++ item :: after ∧
      (∀ earlier ∈ before, good earlier) ∧ bad item := by
  rw [raises_forM_iff]
  constructor
  · intro ⟨before, entry, after, heq, hbefore, hentry⟩
    refine ⟨before.map Prod.fst, entry.1, after.map Prod.fst, ?_, ?_, (hbad entry).mp hentry⟩
    · rw [← List.map_cons, ← List.map_append, ← heq, List.zipIdx_map_fst]
    · intro earlier hearlier
      obtain ⟨numbered, hmem, rfl⟩ := List.mem_map.mp hearlier
      exact (hgood numbered).mp (hbefore numbered hmem)
  · intro ⟨before, item, after, heq, hbefore, hitem⟩
    refine ⟨before.zipIdx, (item, before.length), after.zipIdx (before.length + 1), ?_, ?_,
      (hbad _).mpr hitem⟩
    · rw [heq, List.zipIdx_append, List.zipIdx_cons, Nat.zero_add]
    · intro (earlier, index) hearlier
      exact (hgood _).mpr (hbefore earlier (List.fst_mem_of_mem_zipIdx hearlier))

/-- A loop raises nothing of this kind when none of its passes does. -/
theorem not_raises_mapM {f : α → Except ε β} {items : List α}
    (h : ∀ item ∈ items, ¬ Raises P (f item)) : ¬ Raises P (items.mapM f) := by
  rw [raises_mapM_iff]
  intro ⟨before, item, after, heq, _, hitem⟩
  rw [heq] at h
  exact h item (List.mem_append_right _ List.mem_cons_self) hitem

/-- A loop raises nothing when no check does. -/
theorem not_raises_forM {check : α → Except ε Unit} {items : List α}
    (h : ∀ item ∈ items, ¬ Raises P (check item)) : ¬ Raises P (forM items check) := by
  rw [forM_eq_map_mapM, raises_map_iff]
  exact not_raises_mapM h

end Wmfs.Lib
