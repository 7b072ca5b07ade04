import Mathlib.Data.List.Basic
import Mathlib.Logic.Basic

/-!
# `Wmfs.Lib.Transition`: runs of a labelled step function

A `Machine` is an initial state and a partial step function. The label of a step carries
every choice that the step makes: which party moves, which value the environment supplies,
whether a wait times out. `step s a = none` says that `a` is not enabled in `s`. A run is
therefore a list of labels, and `exec` evaluates one.

`Reach ok s` says that some run ends in `s` and that every step of it satisfies `ok`, a
condition on the state before the step and on its label. `Reachable` drops the condition.
`Reach.invariant` is the induction rule: a predicate that holds initially and that every
allowed step preserves holds in every state reached. `Reach.exec` builds reachable states
from a list of labels.

`observed` runs a machine with an observer beside it, which sees every step and changes nothing.
The runs of the two machines are the same (`exec_observed`, `Reach.of_observed`).

Nothing here refers to a particular program.
-/

set_option autoImplicit false

namespace Wmfs.Lib

universe u v w x

/-- An initial state and a partial step function with labels. -/
structure Machine (σ : Type u) (ε : Type v) where
  init : σ
  step : σ → ε → Option σ

namespace Machine

variable {σ : Type u} {ε : Type v} (M : Machine σ ε)

/-- The states at the end of a run whose steps all satisfy `ok`. -/
inductive Reach (ok : σ → ε → Prop) : σ → Prop where
  | start : Reach ok M.init
  | next {s t : σ} {a : ε} : Reach ok s → ok s a → M.step s a = some t → Reach ok t

/-- The states at the end of a run. -/
def Reachable : σ → Prop := M.Reach fun _ _ => True

/-- The state at the end of the run `as` from `s`, or `none` when a label is not enabled. -/
def exec (s : σ) : List ε → Option σ
  | [] => some s
  | a :: as => (M.step s a).bind fun t => exec t as

variable {M}

/-- The invariant rule. `I` holds initially, and a step that satisfies `ok` preserves it. -/
theorem Reach.invariant {ok : σ → ε → Prop} {I : σ → Prop} (hinit : I M.init)
    (hstep : ∀ s a t, I s → ok s a → M.step s a = some t → I t) {s : σ}
    (h : M.Reach ok s) : I s := by
  induction h with
  | start => exact hinit
  | next _ hok hs ih => exact hstep _ _ _ ih hok hs

/-- The invariant rule when the step may also use that its source is reached. -/
theorem Reach.invariant_of_reach {ok : σ → ε → Prop} {I : σ → Prop} (hinit : I M.init)
    (hstep : ∀ s a t, M.Reach ok s → I s → ok s a → M.step s a = some t → I t) {s : σ}
    (h : M.Reach ok s) : I s := by
  induction h with
  | start => exact hinit
  | next hr hok hs ih => exact hstep _ _ _ hr ih hok hs

/-- A weaker condition allows more runs. -/
theorem Reach.mono {ok ok' : σ → ε → Prop} (himp : ∀ s a, ok s a → ok' s a) {s : σ}
    (h : M.Reach ok s) : M.Reach ok' s := by
  induction h with
  | start => exact .start
  | next _ hok hs ih => exact .next ih (himp _ _ hok) hs

/-- A condition that holds along the runs of another one. -/
theorem Reach.strengthen {ok ok' : σ → ε → Prop} (himp : ∀ s a, M.Reach ok s → ok s a → ok' s a)
    {s : σ} (h : M.Reach ok s) : M.Reach ok' s := by
  induction h with
  | start => exact .start
  | next hr hok hs ih => exact .next ih (himp _ _ hr hok) hs

/-- Every restricted run is a run. -/
theorem Reach.reachable {ok : σ → ε → Prop} {s : σ} (h : M.Reach ok s) : M.Reachable s :=
  h.mono fun _ _ _ => trivial

/-- The projection rule: when every step of `M` is a step of `N` or invisible to it, runs of `M`
project to runs of `N`. -/
theorem Reach.project {τ : Type w} {δ : Type x} {N : Machine τ δ} {ok : σ → ε → Prop}
    {okN : τ → δ → Prop} (f : σ → τ) (hinit : f M.init = N.init)
    (hstep : ∀ s a t, ok s a → M.step s a = some t →
      f t = f s ∨ ∃ b, okN (f s) b ∧ N.step (f s) b = some (f t)) {s : σ}
    (h : M.Reach ok s) : N.Reach okN (f s) := by
  induction h with
  | start =>
    rw [hinit]
    exact .start
  | next _ hok hs ih =>
    rcases hstep _ _ _ hok hs with heq | ⟨b, hb, hN⟩
    · rw [heq]
      exact ih
    · exact .next ih hb hN

/-- The first step of a run, and the rest. -/
theorem exec_cons (s : σ) (a : ε) (as : List ε) :
    M.exec s (a :: as) = (M.step s a).bind fun t => M.exec t as := rfl

/-- A run of two parts goes through the state at the end of the first. -/
theorem exec_append (s : σ) (as bs : List ε) :
    M.exec s (as ++ bs) = (M.exec s as).bind fun t => M.exec t bs := by
  induction as generalizing s with
  | nil => rfl
  | cons a as ih =>
    simp only [List.cons_append, exec_cons]
    cases M.step s a with
    | none => rfl
    | some t => exact ih t

/-- Two runs in sequence. -/
theorem exec_trans {s t u : σ} {as bs : List ε} (h₁ : M.exec s as = some t)
    (h₂ : M.exec t bs = some u) : M.exec s (as ++ bs) = some u := by
  rw [exec_append, h₁]
  exact h₂

/-- One step as a run. -/
theorem exec_single {s t : σ} {a : ε} (h : M.step s a = some t) : M.exec s [a] = some t := by
  simp [exec, h]

/-- A run from a reached state reaches its last state. -/
theorem Reach.exec {ok : σ → ε → Prop} {s t : σ} {as : List ε} (h : M.Reach ok s)
    (hok : ∀ u, ∀ a ∈ as, ok u a) (he : M.exec s as = some t) : M.Reach ok t := by
  induction as generalizing s with
  | nil =>
    cases he
    exact h
  | cons a as ih =>
    rw [exec_cons, Option.bind_eq_some_iff] at he
    obtain ⟨u, hu, he⟩ := he
    exact ih (h.next (hok s a (by simp)) hu) (fun v b hb => hok v b (by simp [hb])) he

/-- A run from the initial state reaches its last state. -/
theorem reachable_of_exec {t : σ} {as : List ε} (he : M.exec M.init as = some t) :
    M.Reachable t :=
  Reach.exec .start (fun _ _ _ => trivial) he

/-- A concrete run, evaluated: a test `p` of its last state gives that state. -/
theorem exists_of_exec (p : σ → Bool) {s : σ} (as : List ε)
    (h : (M.exec s as).map p = some true) : ∃ t, M.exec s as = some t ∧ p t = true :=
  Option.map_eq_some_iff.mp h

/-! ### Observers -/

section
variable {ω : Type w} (M) (start : ω) (see : σ → ε → σ → ω → ω)

/-- The machine with an observer, who sees the state before a step, its label and the state after
it. -/
def observed : Machine (σ × ω) ε where
  init := (M.init, start)
  step state a := (M.step state.1 a).map fun t => (t, see state.1 a t state.2)

/-- The observer can follow every run. -/
theorem exec_observed {s t : σ} {as : List ε} (h : M.exec s as = some t) (seen : ω) :
    ∃ seen', (M.observed start see).exec (s, seen) as = some (t, seen') := by
  induction as generalizing s seen with
  | nil =>
    cases h
    exact ⟨seen, rfl⟩
  | cons a as ih =>
    rw [exec_cons, Option.bind_eq_some_iff] at h
    obtain ⟨u, hu, hrest⟩ := h
    obtain ⟨seen', hseen⟩ := ih hrest (see s a u seen)
    refine ⟨seen', ?_⟩
    have hstep : (M.observed start see).step (s, seen) a = some (u, see s a u seen) := by
      simp only [observed, hu, Option.map_some]
    rw [exec_cons, hstep, Option.bind_some]
    exact hseen

variable {M start see}

/-- A step of the machine with the observer is one of the machine. -/
theorem step_of_observed {state next : σ × ω} {a : ε}
    (h : (M.observed start see).step state a = some next) :
    M.step state.1 a = some next.1 ∧ next.2 = see state.1 a next.1 state.2 := by
  obtain ⟨t, ht, rfl⟩ := Option.map_eq_some_iff.mp h
  exact ⟨ht, rfl⟩

/-- A run with the observer is a run. -/
theorem exec_of_observed {state next : σ × ω} {as : List ε}
    (h : (M.observed start see).exec state as = some next) :
    M.exec state.1 as = some next.1 := by
  induction as generalizing state with
  | nil =>
    cases h
    rfl
  | cons a as ih =>
    rw [exec_cons, Option.bind_eq_some_iff] at h
    obtain ⟨u, hu, hrest⟩ := h
    rw [exec_cons, (step_of_observed hu).1, Option.bind_some]
    exact ih hrest

/-- The states that the observer sees are reached. -/
theorem Reach.of_observed {ok : σ → ε → Prop} {state : σ × ω}
    (h : (M.observed start see).Reach (fun state a => ok state.1 a) state) :
    M.Reach ok state.1 :=
  h.project Prod.fst rfl fun _ a _ hok hs => Or.inr ⟨a, hok, (step_of_observed hs).1⟩

/-- What holds at the start of a run and is preserved by every step holds at its end. -/
theorem invariant_exec {I : σ → Prop} (hstep : ∀ s a t, I s → M.step s a = some t → I t)
    {s t : σ} {as : List ε} (h : I s) (hrun : M.exec s as = some t) : I t := by
  induction as generalizing s with
  | nil =>
    cases hrun
    exact h
  | cons a as ih =>
    rw [exec_cons, Option.bind_eq_some_iff] at hrun
    obtain ⟨u, hu, hrest⟩ := hrun
    exact ih (hstep _ _ _ h hu) hrest

end

end Machine

end Wmfs.Lib
