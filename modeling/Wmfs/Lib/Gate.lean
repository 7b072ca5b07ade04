import Mathlib.Logic.Relation
import Wmfs.Lib.Dict

/-!
# `Wmfs.Lib.Gate`: a gate that counts who is inside

Parties enter through a gate and leave again, and the gate counts those inside. A party may shut
the gate. From then on nobody enters, the party waits until the last one inside has left
(`drain`), does its work, and opens the gate again (`reopen`).

`Step` has the steps of a run, and `Valid` is what every run keeps (`Valid.step`). The count is
exact, at most one party shuts the gate at a time, and nobody is inside while the gate is
drained.

Nothing here refers to a particular program.
-/

set_option autoImplicit false

namespace Wmfs.Lib.Gate

universe u

/-- What a party does at the gate.

* `inside`: the gate counts it.
* `draining`: it has shut the gate, and waits.
* `drained`: it has waited. -/
inductive Role where
  | outside
  | inside
  | draining
  | drained
  deriving DecidableEq, Repr

namespace Role

/-- The gate counts the party. -/
def counted : Role → Bool
  | inside => true
  | _ => false

/-- The party has shut the gate. -/
def shuts : Role → Bool
  | draining | drained => true
  | _ => false

/-- A party outside is not counted. -/
@[simp] theorem counted_outside : outside.counted = false := rfl

/-- A party inside is counted. -/
@[simp] theorem counted_inside : inside.counted = true := rfl

/-- A party that drains the gate is not counted. -/
@[simp] theorem counted_draining : draining.counted = false := rfl

/-- A party that has drained the gate is not counted. -/
@[simp] theorem counted_drained : drained.counted = false := rfl

/-- A party outside does not shut the gate. -/
@[simp] theorem shuts_outside : outside.shuts = false := rfl

/-- A party inside does not shut the gate. -/
@[simp] theorem shuts_inside : inside.shuts = false := rfl

/-- A party that drains the gate shuts it. -/
@[simp] theorem shuts_draining : draining.shuts = true := rfl

/-- A party that has drained the gate shuts it. -/
@[simp] theorem shuts_drained : drained.shuts = true := rfl

end Role

/-- A gate. `parties` lists the parties that have come. -/
@[ext]
structure State (ι : Type u) where
  shut : Bool
  count : Int
  roles : ι → Role
  parties : List ι

variable {ι : Type u}

section
variable [DecidableEq ι]

/-- The state after a party has taken another role. -/
abbrev State.setRole (s : State ι) (i : ι) (role : Role) : State ι :=
  { s with roles := Function.update s.roles i role }

/-- The steps of a run. -/
inductive Step : State ι → State ι → Prop where
  | arrive {s : State ι} (i : ι) (hnew : i ∉ s.parties) :
    Step s { s with parties := i :: s.parties }
  | enter {s : State ι} (i : ι) (hcame : i ∈ s.parties) (hrole : s.roles i = .outside)
      (hopen : s.shut = false) :
    Step s { s.setRole i .inside with count := s.count + 1 }
  | leave {s : State ι} (i : ι) (hrole : s.roles i = .inside) :
    Step s { s.setRole i .outside with count := s.count - 1 }
  | shut {s : State ι} (i : ι) (hcame : i ∈ s.parties) (hrole : s.roles i = .outside)
      (hopen : s.shut = false) :
    Step s { s.setRole i .draining with shut := true }
  | drain {s : State ι} (i : ι) (hrole : s.roles i = .draining) (hzero : s.count = 0) :
    Step s (s.setRole i .drained)
  | reopen {s : State ι} (i : ι) (hrole : s.roles i = .drained) :
    Step s { s.setRole i .outside with shut := false }

end

/-- A step to a state that is spelled in another way. -/
theorem Step.of_eq [DecidableEq ι] {s t u : State ι} (h : Step s t) (heq : t = u) : Step s u :=
  heq ▸ h

/-- What every run keeps. -/
structure Valid (s : State ι) : Prop where
  nodup : s.parties.Nodup
  came : ∀ i, s.roles i ≠ .outside → i ∈ s.parties
  count_eq : s.count = s.parties.countP fun i => (s.roles i).counted
  shut_eq : s.parties.countP (fun i => (s.roles i).shuts) = s.shut.toNat
  empty : ∀ i, s.roles i = .drained → s.count = 0

namespace Valid

variable {s : State ι}

/-- Two elements of a list in which at most one satisfies a predicate. -/
theorem eq_of_countP_le_one {p : ι → Bool} {l : List ι} (hcount : l.countP p ≤ 1) {i j : ι}
    (hi : i ∈ l) (hj : j ∈ l) (hpi : p i = true) (hpj : p j = true) : i = j := by
  have hmemi : i ∈ l.filter p := List.mem_filter.mpr ⟨hi, hpi⟩
  have hmemj : j ∈ l.filter p := List.mem_filter.mpr ⟨hj, hpj⟩
  rw [List.countP_eq_length_filter] at hcount
  match l.filter p, hcount, hmemi, hmemj with
  | [x], _, hmemi, hmemj =>
    rw [List.mem_singleton] at hmemi hmemj
    rw [hmemi, hmemj]

/-- At most one party has shut the gate. -/
theorem closer_unique (h : Valid s) {i j : ι} (hi : (s.roles i).shuts = true)
    (hj : (s.roles j).shuts = true) : i = j := by
  have hcame : ∀ k, (s.roles k).shuts = true → k ∈ s.parties := by
    intro k hk
    apply h.came
    intro houtside
    rw [houtside] at hk
    cases hk
  have hcount : s.parties.countP (fun i => (s.roles i).shuts) ≤ 1 := by
    rw [h.shut_eq]
    cases s.shut <;> decide
  exact eq_of_countP_le_one hcount (hcame i hi) (hcame j hj) hi hj

/-- The gate is shut while a party has shut it. -/
theorem shut_of_shuts (h : Valid s) {i : ι} (hi : (s.roles i).shuts = true) : s.shut = true := by
  have hcame : i ∈ s.parties := by
    apply h.came
    intro houtside
    rw [houtside] at hi
    cases hi
  have hpos : 0 < s.parties.countP fun i => (s.roles i).shuts :=
    List.countP_pos_iff.mpr ⟨i, hcame, hi⟩
  rw [h.shut_eq] at hpos
  cases hshut : s.shut with
  | false => simp [hshut] at hpos
  | true => rfl

/-- Some party has shut a gate that is shut. -/
theorem exists_shuts (h : Valid s) (hshut : s.shut = true) : ∃ i, (s.roles i).shuts = true := by
  have hcount := h.shut_eq
  rw [hshut] at hcount
  have hpos : 0 < s.parties.countP fun i => (s.roles i).shuts := by
    rw [hcount]
    decide
  obtain ⟨i, -, hi⟩ := List.countP_pos_iff.mp hpos
  exact ⟨i, hi⟩

/-- Nobody is inside when the count is zero. -/
theorem notCounted_of_zero (h : Valid s) (hzero : s.count = 0) (i : ι) :
    (s.roles i).counted = false := by
  by_contra hcounted
  rw [Bool.not_eq_false] at hcounted
  have hcame : i ∈ s.parties := by
    apply h.came
    intro houtside
    rw [houtside] at hcounted
    cases hcounted
  have hpos : 0 < s.parties.countP fun i => (s.roles i).counted :=
    List.countP_pos_iff.mpr ⟨i, hcame, hcounted⟩
  have heq := h.count_eq
  omega

/-- A party that has not come is outside. -/
theorem outside_of_notMem (h : Valid s) {i : ι} (hnew : i ∉ s.parties) : s.roles i = .outside := by
  by_contra hrole
  exact hnew (h.came i hrole)

variable [DecidableEq ι] {t : State ι}

/-- How a count changes with the role of one party. -/
theorem countP_setRole (h : Valid s) {i : ι} (hcame : i ∈ s.parties) {old : Role}
    (hold : s.roles i = old) (role : Role) (p : Role → Bool) :
    s.parties.countP (fun j => p (Function.update s.roles i role j)) + (p old).toNat =
      s.parties.countP (fun j => p (s.roles j)) + (p role).toNat := by
  rw [← hold]
  exact countP_update h.nodup hcame s.roles role p

/-- A party that takes another role has come before. -/
theorem came_setRole (h : Valid s) {i : ι} (hcame : i ∈ s.parties) (role : Role) :
    ∀ j, Function.update s.roles i role j ≠ .outside → j ∈ s.parties := by
  intro j hj
  by_cases hji : j = i
  · exact hji ▸ hcame
  · rw [Function.update_of_ne hji] at hj
    exact h.came j hj

/-- A party that has drained the gate did so before the step of another party. -/
theorem drained_of_update {roles : ι → Role} {i j : ι} {role : Role} (hrole : role ≠ .drained)
    (hj : Function.update roles i role j = .drained) : roles j = .drained := by
  by_cases hji : j = i
  · rw [hji, Function.update_self] at hj
    exact absurd hj hrole
  · rwa [Function.update_of_ne hji] at hj

/-- A party takes another role, and the gate changes as the two roles say. -/
theorem changeRole (h : Valid s) {i : ι} (hcame : i ∈ s.parties) {old : Role}
    (hold : s.roles i = old) (role : Role) {shut : Bool} {count : Int}
    (hcount : count + old.counted.toNat = s.count + role.counted.toNat)
    (hshut : shut.toNat + old.shuts.toNat = s.shut.toNat + role.shuts.toNat)
    (hempty : ∀ j, Function.update s.roles i role j = .drained → count = 0) :
    Valid ⟨shut, count, Function.update s.roles i role, s.parties⟩ := by
  have hcounted := h.countP_setRole hcame hold role Role.counted
  have hshuts := h.countP_setRole hcame hold role Role.shuts
  have hcountEq := h.count_eq
  have hshutEq := h.shut_eq
  constructor
  · exact h.nodup
  · exact h.came_setRole hcame role
  · show count = (s.parties.countP fun j => (Function.update s.roles i role j).counted : Nat)
    omega
  · show (s.parties.countP fun j => (Function.update s.roles i role j).shuts) = shut.toNat
    omega
  · exact hempty

/-- A step keeps what every run keeps. -/
theorem step (h : Valid s) (hstep : Step s t) : Valid t := by
  cases hstep with
  | arrive i hnew =>
    have houtside := h.outside_of_notMem hnew
    constructor
    · exact List.nodup_cons.mpr ⟨hnew, h.nodup⟩
    · exact fun j hj => List.mem_cons_of_mem _ (h.came j hj)
    · show s.count = ((i :: s.parties).countP fun j => (s.roles j).counted : Nat)
      rw [List.countP_cons, houtside, h.count_eq]
      rfl
    · show (i :: s.parties).countP (fun j => (s.roles j).shuts) = s.shut.toNat
      rw [List.countP_cons, houtside, h.shut_eq]
      rfl
    · exact h.empty
  | enter i hcame hrole hopen =>
    apply h.changeRole hcame hrole .inside
    · simp
    · simp
    · -- A drained gate is shut.
      intro j hj
      have hdrained := drained_of_update (by decide) hj
      have hclosed : s.shut = true := h.shut_of_shuts (i := j) (by rw [hdrained]; rfl)
      rw [hopen] at hclosed
      cases hclosed
  | leave i hrole =>
    apply h.changeRole (h.came i (by rw [hrole]; decide)) hrole .outside
    · simp
    · simp
    · -- The party was inside, so nobody had drained the gate.
      intro j hj
      have hdrained := drained_of_update (by decide) hj
      have hnobody := h.notCounted_of_zero (h.empty j hdrained) i
      rw [hrole] at hnobody
      cases hnobody
  | shut i hcame hrole hopen =>
    apply h.changeRole hcame hrole .draining
    · simp
    · simp [hopen]
    · exact fun j hj => h.empty j (drained_of_update (by decide) hj)
  | drain i hrole hzero =>
    apply h.changeRole (h.came i (by rw [hrole]; decide)) hrole .drained
    · simp
    · simp
    · exact fun _ _ => hzero
  | reopen i hrole =>
    have hclosed : s.shut = true := h.shut_of_shuts (i := i) (by rw [hrole]; rfl)
    apply h.changeRole (h.came i (by rw [hrole]; decide)) hrole .outside
    · simp
    · simp [hclosed]
    · exact fun j hj => h.empty j (drained_of_update (by decide) hj)

/-- Several steps keep what every run keeps. -/
theorem steps (h : Valid s) (hsteps : Relation.ReflTransGen Step s t) : Valid t := by
  induction hsteps with
  | refl => exact h
  | tail _ hstep ih => exact ih.step hstep

end Valid

end Wmfs.Lib.Gate
