import Mathlib.Data.Finset.Basic
import Mathlib.Data.List.AList
import Wmfs.Lib.Dict

/-!
# `Wmfs.Lib.KeyedPool`: a pool with one resource for each key

Parties share a pool of resources. The pool publishes at most one resource under a key. A party
that needs the resource of a key and finds none marks the key, creates the resource outside the
lock, and then publishes it. A party that uses the pool is in flight. A resource may be dropped
from the pool once it is retired.

The pool closes in two phases. After `startClose` no party gets into flight and no key is
marked. The closing party waits until nobody is in flight and no key is marked, takes all
published resources (`snapshot`), and retires them. A party that has created a resource in the
meantime retires it itself.

`Step` has the steps of a run, and `Valid` is what every run keeps (`Valid.step`). Its main
field is `settled`: each resource is published, retired, or held by a party.

Nothing here refers to a particular program.
-/

set_option autoImplicit false

namespace Wmfs.Lib.KeyedPool

universe u v

/-- The phase of a pool. -/
inductive Phase where
  | opened
  | closing
  | closed
  deriving DecidableEq, Repr

/-- What a party has of the pool.

* `marking`: it has marked a key and knows of no resource.
* `holding`: it has marked the key and knows of a resource that nobody else knows of.
* `inFlight`: the pool counts it.
* `closing`: it closes the pool and waits.
* `retiring`: it has taken the published resources out of the pool.
* `emptied`: it has retired them. -/
inductive Role (κ : Type u) where
  | outside
  | marking (key : κ)
  | holding (key : κ) (id : Nat)
  | inFlight
  | closing
  | retiring (ids : List Nat)
  | emptied
  deriving DecidableEq, Repr

namespace Role

variable {κ : Type u}

/-- The key that the party has marked. -/
def mark : Role κ → Option κ
  | marking key | holding key _ => some key
  | _ => none

/-- The resources that only the party knows of. -/
def held : Role κ → List Nat
  | holding _ id => [id]
  | retiring ids => ids
  | _ => []

/-- The pool counts the party. -/
def flies : Role κ → Bool
  | inFlight => true
  | _ => false

/-- The party closes the pool. -/
def closes : Role κ → Bool
  | closing | retiring _ | emptied => true
  | _ => false

/-- The party has taken the published resources. -/
def empties : Role κ → Bool
  | retiring _ | emptied => true
  | _ => false

end Role

/-- A pool. Resources have the numbers below `count`. `keyOf` is the key a resource was created
for. `parties` lists the parties that have come. -/
structure State (κ : Type u) (ι : Type v) where
  phase : Phase
  roles : ι → Role κ
  parties : List ι
  count : Nat
  keyOf : Nat → κ
  retired : Nat → Bool
  published : AList fun _ : κ => Nat
  creating : Finset κ
  inflight : Int

section
variable {κ : Type u} {ι : Type v} [DecidableEq ι]

/-- Who has marked a key after one party has taken another role. -/
theorem exists_mark_update (roles : ι → Role κ) (i : ι) (role : Role κ) (key : κ) :
    (∃ j, (Function.update roles i role j).mark = some key) ↔
      role.mark = some key ∨ ∃ j, j ≠ i ∧ (roles j).mark = some key :=
  Function.exists_update_iff roles fun _ r => r.mark = some key

/-- Who holds a resource after one party has taken another role. -/
theorem exists_held_update (roles : ι → Role κ) (i : ι) (role : Role κ) (id : Nat) :
    (∃ j, id ∈ (Function.update roles i role j).held) ↔
      id ∈ role.held ∨ ∃ j, j ≠ i ∧ id ∈ (roles j).held :=
  Function.exists_update_iff roles fun _ r => id ∈ r.held

/-- Who has emptied the pool after one party has taken another role. -/
theorem exists_empties_update (roles : ι → Role κ) (i : ι) (role : Role κ) :
    (∃ j, (Function.update roles i role j).empties = true) ↔
      role.empties = true ∨ ∃ j, j ≠ i ∧ (roles j).empties = true :=
  Function.exists_update_iff roles fun _ r => r.empties = true

end

variable {κ : Type u} {ι : Type v} [DecidableEq κ] [DecidableEq ι]

namespace State

/-- The state after a party has taken another role. -/
abbrev setRole (s : State κ ι) (i : ι) (role : Role κ) : State κ ι :=
  { s with roles := Function.update s.roles i role }

/-- The state with a new resource. -/
abbrev create (s : State κ ι) (key : κ) : State κ ι :=
  { s with
    count := s.count + 1
    keyOf := Function.update s.keyOf s.count key
    retired := Function.update s.retired s.count false }

/-- The state after the resources `ids` have been retired. -/
abbrev retire (s : State κ ι) (ids : List Nat) : State κ ι :=
  { s with retired := fun id => decide (id ∈ ids) || s.retired id }

/-- The published resources. -/
def values (s : State κ ι) : List Nat := s.published.entries.map Sigma.snd

omit [DecidableEq ι] in
/-- The published items. -/
theorem mem_values (s : State κ ι) (id : Nat) :
    id ∈ s.values ↔ ∃ key, s.published.lookup key = some id :=
  mem_values_iff s.published id

/-- A party has taken the published resources, or the pool is closed. -/
def Emptied (s : State κ ι) : Prop := s.phase = .closed ∨ ∃ i, (s.roles i).empties = true

end State

/-- An empty pool. -/
def State.init (keyOf : Nat → κ) (retired : Nat → Bool) : State κ ι where
  phase := .opened
  roles := fun _ => .outside
  parties := []
  count := 0
  keyOf := keyOf
  retired := retired
  published := ∅
  creating := ∅
  inflight := 0

/-- A step of a pool. -/
inductive Step : State κ ι → State κ ι → Prop where
  | enter {s : State κ ι} (i : ι) (hi : i ∉ s.parties) :
      Step s { s with parties := i :: s.parties }
  | adopt {s : State κ ι} (key : κ) (hphase : s.phase = .opened)
      (hfree : s.published.lookup key = none) (hmark : key ∉ s.creating) :
      Step s { s.create key with published := s.published.insert key s.count }
  | mark {s : State κ ι} (i : ι) (key : κ) (hi : i ∈ s.parties) (hrole : s.roles i = .outside)
      (hphase : s.phase = .opened) (hfree : s.published.lookup key = none)
      (hmark : key ∉ s.creating) :
      Step s { s.setRole i (.marking key) with creating := insert key s.creating }
  | create {s : State κ ι} (i : ι) (key : κ) (hrole : s.roles i = .marking key) :
      Step s ((s.create key).setRole i (.holding key s.count))
  | unmark {s : State κ ι} (i : ι) (key : κ) (hrole : s.roles i = .marking key) :
      Step s { s.setRole i .outside with creating := s.creating.erase key }
  | publish {s : State κ ι} (i : ι) (key : κ) (id : Nat) (hrole : s.roles i = .holding key id)
      (hphase : s.phase = .opened) :
      Step s { s.setRole i .inFlight with
        published := s.published.insert key id
        creating := s.creating.erase key
        inflight := s.inflight + 1 }
  | retireHeld {s : State κ ι} (i : ι) (key : κ) (id : Nat)
      (hrole : s.roles i = .holding key id) :
      Step s ((s.retire [id]).setRole i (.marking key))
  | fly {s : State κ ι} (i : ι) (hi : i ∈ s.parties) (hrole : s.roles i = .outside)
      (hphase : s.phase = .opened) :
      Step s { s.setRole i .inFlight with inflight := s.inflight + 1 }
  | land {s : State κ ι} (i : ι) (hrole : s.roles i = .inFlight) :
      Step s { s.setRole i .outside with inflight := s.inflight - 1 }
  | retire {s : State κ ι} (id : Nat) : Step s (s.retire [id])
  | drop {s : State κ ι} (key : κ) (id : Nat) (hkey : s.published.lookup key = some id)
      (hretired : s.retired id = true) :
      Step s { s with published := s.published.erase key }
  | startClose {s : State κ ι} (i : ι) (hi : i ∈ s.parties) (hrole : s.roles i = .outside)
      (hphase : s.phase = .opened) :
      Step s { s.setRole i .closing with phase := .closing }
  | snapshot {s : State κ ι} (i : ι) (hrole : s.roles i = .closing) (hflight : s.inflight = 0)
      (hmarks : s.creating = ∅) :
      Step s { s.setRole i (.retiring s.values) with published := ∅ }
  | retireAll {s : State κ ι} (i : ι) (ids : List Nat) (hrole : s.roles i = .retiring ids) :
      Step s ((s.retire ids).setRole i .emptied)
  | finishClose {s : State κ ι} (i : ι) (hrole : s.roles i = .emptied) :
      Step s { s.setRole i .outside with phase := .closed }

/-- What every run of a pool keeps. -/
structure Valid (s : State κ ι) : Prop where
  nodup : s.parties.Nodup
  absent : ∀ i, i ∉ s.parties → s.roles i = .outside
  inflight_eq : s.inflight = s.parties.countP fun i => (s.roles i).flies
  mem_creating : ∀ key, key ∈ s.creating ↔ ∃ i, (s.roles i).mark = some key
  mark_unique : ∀ i j key, (s.roles i).mark = some key → (s.roles j).mark = some key → i = j
  mark_free : ∀ key, key ∈ s.creating → s.published.lookup key = none
  published_lt : ∀ key id, s.published.lookup key = some id → id < s.count
  published_key : ∀ key id, s.published.lookup key = some id → s.keyOf id = key
  held_key : ∀ i key id, s.roles i = .holding key id → id < s.count ∧ s.keyOf id = key
  held_lt : ∀ i, ∀ id ∈ (s.roles i).held, id < s.count
  held_free : ∀ i, ∀ id ∈ (s.roles i).held, ∀ key, s.published.lookup key ≠ some id
  held_unique : ∀ i j id, id ∈ (s.roles i).held → id ∈ (s.roles j).held → i = j
  settled : ∀ id < s.count, (∃ key, s.published.lookup key = some id) ∨ s.retired id = true ∨
    ∃ i, id ∈ (s.roles i).held
  closer_phase : ∀ i, (s.roles i).closes = true → s.phase = .closing
  closer_unique : ∀ i j, (s.roles i).closes = true → (s.roles j).closes = true → i = j
  emptied : s.Emptied → s.published = ∅ ∧ s.creating = ∅ ∧ s.inflight = 0

omit [DecidableEq ι] in
/-- An empty pool is valid. -/
theorem valid_init (keyOf : Nat → κ) (retired : Nat → Bool) :
    Valid (State.init keyOf retired : State κ ι) where
  nodup := List.nodup_nil
  absent _ _ := rfl
  inflight_eq := rfl
  mem_creating key := by simp [State.init, Role.mark]
  mark_unique i j key h := by cases h
  mark_free key _ := AList.lookup_empty key
  published_lt key id h := by simp [State.init] at h
  published_key key id h := by simp [State.init] at h
  held_key i key id h := by cases h
  held_lt i id h := by cases h
  held_free i id h := by cases h
  held_unique i j id h := by cases h
  settled id h := absurd h (Nat.not_lt_zero id)
  closer_phase i h := by cases h
  closer_unique i j h := by cases h
  emptied _ := ⟨rfl, rfl, rfl⟩

attribute [local grind =] Role.mark Role.held Role.flies Role.closes Role.empties
  Function.update_apply AList.lookup_insert AList.lookup_insert_ne AList.lookup_erase
  AList.lookup_erase_ne AList.lookup_empty State.mem_values

namespace Valid

variable {s t : State κ ι}

/-- A party that is not outside is counted. -/
theorem mem_parties (hv : Valid s) {i : ι} (hi : s.roles i ≠ .outside) : i ∈ s.parties := by
  by_contra hnot
  exact hi (hv.absent i hnot)

/-- The number of parties in flight after one party has taken another role. -/
theorem countP_setRole (hv : Valid s) {i : ι} (hi : i ∈ s.parties) (role : Role κ) :
    ((s.parties.countP fun j => (Function.update s.roles i role j).flies : Nat) : Int) =
      s.inflight + role.flies.toNat - (s.roles i).flies.toNat := by
  have hcount := Lib.countP_update hv.nodup hi s.roles role Role.flies
  have hinflight := hv.inflight_eq
  omega

/-- A role of the same kind keeps the count. -/
theorem countP_same (hv : Valid s) {i : ι} (hi : s.roles i ≠ .outside) {role : Role κ}
    (hsame : role.flies = (s.roles i).flies) :
    s.inflight = (s.parties.countP fun j => (Function.update s.roles i role j).flies : Nat) := by
  rw [hv.countP_setRole (hv.mem_parties hi), hsame]
  omega

/-- A step keeps the list of parties. -/
theorem step_callers (hv : Valid s) (h : Step s t) :
    t.parties.Nodup ∧ ∀ i, i ∉ t.parties → t.roles i = .outside := by
  have hnodup := hv.nodup
  have habsent := hv.absent
  cases h <;> grind

/-- A step keeps the count of those in flight. -/
theorem step_inflight (hv : Valid s) (h : Step s t) :
    t.inflight = t.parties.countP fun i => (t.roles i).flies := by
  have hinflight := hv.inflight_eq
  cases h with
  | enter i hi =>
    have hrole := hv.absent i hi
    show s.inflight = ((i :: s.parties).countP fun j => (s.roles j).flies : Nat)
    rw [List.countP_cons, hrole]
    simpa [Role.flies] using hinflight
  | adopt key => exact hinflight
  | mark i key hi hrole =>
    show s.inflight = _
    rw [hv.countP_setRole hi, hrole]
    simp [Role.flies]
  | create i key hrole => exact hv.countP_same (by simp [hrole]) (by simp [hrole, Role.flies])
  | unmark i key hrole => exact hv.countP_same (by simp [hrole]) (by simp [hrole, Role.flies])
  | publish i key id hrole =>
    show s.inflight + 1 = _
    rw [hv.countP_setRole (hv.mem_parties (by simp [hrole])), hrole]
    simp [Role.flies]
  | retireHeld i key id hrole =>
    exact hv.countP_same (by simp [hrole]) (by simp [hrole, Role.flies])
  | fly i hi hrole =>
    show s.inflight + 1 = _
    rw [hv.countP_setRole hi, hrole]
    simp [Role.flies]
  | land i hrole =>
    show s.inflight - 1 = _
    rw [hv.countP_setRole (hv.mem_parties (by simp [hrole])), hrole]
    simp [Role.flies]
  | retire id => exact hinflight
  | drop key id => exact hinflight
  | startClose i hi hrole =>
    show s.inflight = _
    rw [hv.countP_setRole hi, hrole]
    simp [Role.flies]
  | snapshot i hrole => exact hv.countP_same (by simp [hrole]) (by simp [hrole, Role.flies])
  | retireAll i ids hrole => exact hv.countP_same (by simp [hrole]) (by simp [hrole, Role.flies])
  | finishClose i hrole => exact hv.countP_same (by simp [hrole]) (by simp [hrole, Role.flies])

/-- Who has marked a key. `unmark` and `publish` take away the mark of the party that has it,
and `mark_unique` says that no other party has it. -/
theorem step_mem_creating (hv : Valid s) (h : Step s t) (key : κ) :
    key ∈ t.creating ↔ ∃ i, (t.roles i).mark = some key := by
  have hmem := hv.mem_creating
  have hunique := hv.mark_unique
  cases h <;> (try simp only [exists_mark_update]) <;> grind

/-- A step keeps the marks of the creations apart. -/
theorem step_mark_unique (hv : Valid s) (h : Step s t) :
    ∀ i j key, (t.roles i).mark = some key → (t.roles j).mark = some key → i = j := by
  have hmem := hv.mem_creating
  have hunique := hv.mark_unique
  cases h <;> grind

/-- A key with a creation is not published. -/
theorem step_mark_free (hv : Valid s) (h : Step s t) :
    ∀ key, key ∈ t.creating → t.published.lookup key = none := by
  have hmem := hv.mem_creating
  have hunique := hv.mark_unique
  have hfree := hv.mark_free
  cases h <;> grind

/-- What is published exists and has its key. -/
theorem step_published (hv : Valid s) (h : Step s t) :
    ∀ key id, t.published.lookup key = some id → id < t.count ∧ t.keyOf id = key := by
  have hlt := hv.published_lt
  have hkey := hv.published_key
  have hheld := hv.held_key
  cases h <;> grind

/-- What is held exists and has its key. -/
theorem step_held_key (hv : Valid s) (h : Step s t) :
    ∀ i key id, t.roles i = .holding key id → id < t.count ∧ t.keyOf id = key := by
  have hheld := hv.held_key
  cases h <;> grind

/-- `snapshot` takes what is published, and what is held is not published. -/
theorem step_held_free (hv : Valid s) (h : Step s t) :
    ∀ i, ∀ id ∈ (t.roles i).held, id < t.count ∧ ∀ key, t.published.lookup key ≠ some id := by
  have hlt := hv.held_lt
  have hfree := hv.held_free
  have hunique := hv.held_unique
  have hpublished := hv.published_lt
  cases h <;> grind

/-- One party alone holds an item. -/
theorem step_held_unique (hv : Valid s) (h : Step s t) :
    ∀ i j id, id ∈ (t.roles i).held → id ∈ (t.roles j).held → i = j := by
  have hlt := hv.held_lt
  have hfree := hv.held_free
  have hunique := hv.held_unique
  cases h <;> grind

/-- A new resource is held, or published. `publish` replaces nothing, because a marked key is
free, and `drop` takes out a retired resource. -/
theorem step_settled (hv : Valid s) (h : Step s t) :
    ∀ id < t.count, (∃ key, t.published.lookup key = some id) ∨ t.retired id = true ∨
      ∃ i, id ∈ (t.roles i).held := by
  have hsettled := hv.settled
  have hfree := hv.mark_free
  have hmem := hv.mem_creating
  cases h <;>
    (try simp only [exists_held_update, exists_lookup_insert, exists_lookup_erase]) <;> grind

/-- The pool is closing while a party closes it. -/
theorem step_closer_phase (hv : Valid s) (h : Step s t) :
    ∀ i, (t.roles i).closes = true → t.phase = .closing := by
  have hphase := hv.closer_phase
  have hunique := hv.closer_unique
  cases h <;> grind

/-- One party alone closes the pool. -/
theorem step_closer_unique (hv : Valid s) (h : Step s t) :
    ∀ i j, (t.roles i).closes = true → (t.roles j).closes = true → i = j := by
  have hphase := hv.closer_phase
  have hunique := hv.closer_unique
  cases h <;> grind

omit [DecidableEq ι] in
/-- An emptied pool is not open. -/
theorem not_opened (hv : Valid s) (h : s.Emptied) : s.phase ≠ .opened := by
  have hphase := hv.closer_phase
  rcases h with hclosed | ⟨i, hi⟩
  · simp [hclosed]
  · have hcloses : (s.roles i).closes = true := by
      cases hrole : s.roles i <;> simp_all [Role.empties, Role.closes]
    simp [hphase i hcloses]

/-- In an emptied pool nobody is in flight. -/
theorem flies_of_emptied (hv : Valid s) (h : s.Emptied) (i : ι) : (s.roles i).flies = false := by
  have hzero : s.parties.countP (fun j => (s.roles j).flies) = 0 := by
    have heq := hv.inflight_eq
    rw [(hv.emptied h).2.2] at heq
    omega
  rw [List.countP_eq_zero] at hzero
  by_cases hi : i ∈ s.parties
  · simpa using hzero i hi
  · simp [hv.absent i hi, Role.flies]

omit [DecidableEq ι] in
/-- In an emptied pool nobody has marked a key. -/
theorem mark_of_emptied (hv : Valid s) (h : s.Emptied) (i : ι) (key : κ) :
    (s.roles i).mark ≠ some key := by
  intro hmark
  have hmem := (hv.mem_creating key).mpr ⟨i, hmark⟩
  simp [(hv.emptied h).2.1] at hmem

omit [DecidableEq κ] in
/-- A party that takes no published resource has not emptied the pool. -/
theorem emptied_of_setRole {i : ι} {role : Role κ} (hrole : role.empties = false)
    (h : (s.setRole i role).Emptied) : s.Emptied := by
  rcases h with hclosed | hsome
  · exact Or.inl hclosed
  · rcases (exists_empties_update s.roles i role).mp hsome with htrue | ⟨j, -, hj⟩
    · simp [hrole] at htrue
    · exact Or.inr ⟨j, hj⟩

/-- The steps that add to the pool need it open, or are made by a party that has marked a key
or is in flight. Neither is so in an emptied pool. -/
theorem step_emptied (hv : Valid s) (h : Step s t) (he : t.Emptied) :
    t.published = ∅ ∧ t.creating = ∅ ∧ t.inflight = 0 := by
  cases h with
  | enter i => exact hv.emptied he
  | adopt key hphase => exact absurd hphase (hv.not_opened he)
  | mark i key hi hrole hphase =>
    exact absurd hphase (hv.not_opened (emptied_of_setRole rfl he))
  | create i key hrole =>
    have hs : s.Emptied := emptied_of_setRole rfl he
    exact absurd (by simp [hrole, Role.mark]) (hv.mark_of_emptied hs i key)
  | unmark i key hrole =>
    have hs : s.Emptied := emptied_of_setRole rfl he
    exact absurd (by simp [hrole, Role.mark]) (hv.mark_of_emptied hs i key)
  | publish i key id hrole hphase =>
    exact absurd hphase (hv.not_opened (emptied_of_setRole rfl he))
  | retireHeld i key id hrole =>
    have hs : s.Emptied := emptied_of_setRole rfl he
    exact absurd (by simp [hrole, Role.mark]) (hv.mark_of_emptied hs i key)
  | fly i hi hrole hphase =>
    exact absurd hphase (hv.not_opened (emptied_of_setRole rfl he))
  | land i hrole =>
    have hs : s.Emptied := emptied_of_setRole rfl he
    have hflies := hv.flies_of_emptied hs i
    simp [hrole, Role.flies] at hflies
  | retire id => exact hv.emptied he
  | drop key id hkey =>
    have hempty := (hv.emptied he).1
    simp [hempty] at hkey
  | startClose i hi hrole hphase =>
    rcases he with hclosed | hsome
    · simp at hclosed
    · exact absurd hphase (hv.not_opened (emptied_of_setRole rfl (Or.inr hsome)))
  | snapshot i hrole hflight hmarks => exact ⟨rfl, hmarks, hflight⟩
  | retireAll i ids hrole => exact hv.emptied (Or.inr ⟨i, by simp [hrole, Role.empties]⟩)
  | finishClose i hrole => exact hv.emptied (Or.inr ⟨i, by simp [hrole, Role.empties]⟩)

/-- A step of a valid pool leads to a valid pool. -/
theorem step (hv : Valid s) (h : Step s t) : Valid t where
  nodup := (hv.step_callers h).1
  absent := (hv.step_callers h).2
  inflight_eq := hv.step_inflight h
  mem_creating := hv.step_mem_creating h
  mark_unique := hv.step_mark_unique h
  mark_free := hv.step_mark_free h
  published_lt key id hkey := (hv.step_published h key id hkey).1
  published_key key id hkey := (hv.step_published h key id hkey).2
  held_key := hv.step_held_key h
  held_lt i id hid := (hv.step_held_free h i id hid).1
  held_free i id hid := (hv.step_held_free h i id hid).2
  held_unique := hv.step_held_unique h
  settled := hv.step_settled h
  closer_phase := hv.step_closer_phase h
  closer_unique := hv.step_closer_unique h
  emptied := hv.step_emptied h

end Valid

end Wmfs.Lib.KeyedPool
