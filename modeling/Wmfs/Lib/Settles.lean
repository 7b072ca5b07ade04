import Wmfs.Lib.Result

/-!
# `Wmfs.Lib.Settles`: computations with one way to fail

`Settles failing error good outcome` says that a computation fails with `error` when `failing`
holds, and that otherwise it returns a `good` value. So `failing` is exactly when it fails, and it
has no other error. The rules combine such computations in sequence and in a loop: a sequence
fails when one of its parts does.

Nothing here refers to a particular program.
-/

set_option autoImplicit false

namespace Wmfs.Lib

section
variable {ε α β : Type}

/-- The outcome is `error` when `failing` holds, and a good value otherwise. -/
def Settles (failing : Prop) (error : ε) (good : α → Prop) (outcome : Except ε α) : Prop :=
  (¬ failing ∧ ∃ a, outcome = .ok a ∧ good a) ∨ (failing ∧ outcome = .error error)

variable {failing failing' : Prop} {error : ε} {good : α → Prop} {good' : β → Prop}

/-- A computation that does not fail. -/
theorem Settles.ok {a : α} (hgood : good a) (hfailing : ¬ failing) :
    Settles failing error good (.ok a) := Or.inl ⟨hfailing, a, rfl, hgood⟩

/-- The condition of a failure may be rephrased. -/
theorem Settles.of_iff {outcome : Except ε α} (h : Settles failing error good outcome)
    (hiff : failing ↔ failing') : Settles failing' error good outcome := by
  rwa [← propext hiff]

/-- The property of the result may be weakened. -/
theorem Settles.imp {outcome : Except ε α} {better : α → Prop}
    (h : Settles failing error good outcome) (himp : ∀ a, good a → better a) :
    Settles failing error better outcome := by
  rcases h with ⟨hfailing, a, rfl, hgood⟩ | ⟨hfailing, rfl⟩
  · exact .ok (himp a hgood) hfailing
  · exact Or.inr ⟨hfailing, rfl⟩

/-- Two computations in sequence fail when one of them does. -/
theorem Settles.bind {first : Except ε α} {second : α → Except ε β}
    (h : Settles failing error good first)
    (hsecond : ∀ a, good a → Settles failing' error good' (second a)) :
    Settles (failing ∨ failing') error good' (first >>= second) := by
  rcases h with ⟨hfailing, a, rfl, hgood⟩ | ⟨hfailing, rfl⟩
  · rw [Result.ok_bind]
    apply (hsecond a hgood).of_iff
    rw [or_iff_right hfailing]
  · exact Or.inr ⟨Or.inl hfailing, rfl⟩

/-- One pass of a loop that collects results, and the passes behind it. -/
theorem Settles.cons {first : Except ε β} {rest : Except ε (List β)} {R : α → β → Prop}
    {item : α} {items : List α} (hfirst : Settles failing error (R item) first)
    (hrest : Settles failing' error (List.Forall₂ R items) rest) :
    Settles (failing ∨ failing') error (List.Forall₂ R (item :: items))
      (first >>= fun result => rest >>= fun results => pure (result :: results)) := by
  apply hfirst.bind
  intro result hresult
  have hall : Settles (failing' ∨ False) error (List.Forall₂ R (item :: items))
      (rest >>= fun results => pure (result :: results)) := by
    apply hrest.bind
    intro results hresults
    exact .ok (.cons hresult hresults) not_false
  exact hall.of_iff (or_false _).to_iff

/-- What every pass of a loop guarantees of its own result. -/
theorem forall_mem_of_forall₂ {P : β → Prop} {items : List α} {results : List β}
    (h : List.Forall₂ (fun _ result => P result) items results) : ∀ result ∈ results, P result := by
  induction h with
  | nil => simp
  | cons hfirst _ ih => exact List.forall_mem_cons.mpr ⟨hfirst, ih⟩

/-- A loop fails when one of its passes does. -/
theorem Settles.mapM {f : α → Except ε β} {fails : α → Prop} {R : α → β → Prop}
    {items : List α} (h : ∀ item ∈ items, Settles (fails item) error (R item) (f item)) :
    Settles (∃ item ∈ items, fails item) error (List.Forall₂ R items) (items.mapM f) := by
  induction items with
  | nil => exact .ok .nil (by simp)
  | cons item items ih =>
    rw [List.forall_mem_cons] at h
    rw [List.mapM_cons]
    apply (h.1.cons (ih h.2)).of_iff
    simp only [List.mem_cons, exists_eq_or_imp]

end

end Wmfs.Lib
