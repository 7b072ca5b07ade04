import Mathlib.Logic.Function.Basic
import Wmfs.Lib.Result

/-!
# `Wmfs.Lib.Memo`: a bounded cache of results

A memo keeps results of a computation under the keys that they were computed from, the least
recently used first. A call returns the result that is kept, or it computes one and keeps it, and
drops the first when there are more than `limit`. An error is not kept.

When every entry of a memo is the result for its key (`Sound`), a call returns what the computation
returns, and the memo behind it is sound too (`Sound.call`). So a memo that begins empty cannot be
seen from outside.

A table has owners, each with a memo for a computation that depends on the owner. A call for one of
them returns what the computation without a memo returns (`Coherent.callAt`).

Nothing here refers to a particular program.
-/

set_option autoImplicit false

namespace Wmfs.Lib.Memo

section
variable {κ ν ε : Type}

/-- A call: the result, and the entries behind it. -/
def call [DecidableEq κ] (limit : Nat) (compute : κ → Except ε ν) (entries : List (κ × ν)) (key : κ) :
    Except ε ν × List (κ × ν) :=
  match entries.find? fun entry => entry.1 = key with
  | some entry =>
    -- The entry moves to the end.
    (.ok entry.2, (entries.eraseP fun entry => entry.1 = key) ++ [entry])
  | none =>
    match compute key with
    | .error error => (.error error, entries)
    | .ok value =>
      let entries := entries ++ [(key, value)]
      (.ok value, if entries.length > limit then entries.tail else entries)

/-- Every entry is the result for its key. -/
def Sound (compute : κ → Except ε ν) (entries : List (κ × ν)) : Prop :=
  ∀ entry ∈ entries, compute entry.1 = .ok entry.2

/-- An empty memo is sound. -/
theorem sound_nil (compute : κ → Except ε ν) : Sound compute [] := by
  intro entry hmem
  cases hmem

/-- A memo with one more computed entry is sound. -/
theorem Sound.append {compute : κ → Except ε ν} {entries : List (κ × ν)}
    (h : Sound compute entries) {entry : κ × ν} (hentry : compute entry.1 = .ok entry.2) :
    Sound compute (entries ++ [entry]) := by
  intro other hmem
  rcases List.mem_append.mp hmem with hmem | hmem
  · exact h other hmem
  · rw [List.mem_singleton] at hmem
    rw [hmem]
    exact hentry

/-- A memo with fewer entries is sound. -/
theorem Sound.subset {compute : κ → Except ε ν} {entries entries' : List (κ × ν)}
    (h : Sound compute entries) (hsubset : entries' ⊆ entries) : Sound compute entries' :=
  fun entry hmem => h entry (hsubset hmem)

/-- A sound memo returns what the computation returns, and stays sound. -/
theorem Sound.call [DecidableEq κ] {compute : κ → Except ε ν} {entries : List (κ × ν)}
    (h : Sound compute entries) (limit : Nat) (key : κ) :
    (Memo.call limit compute entries key).1 = compute key ∧
      Sound compute (Memo.call limit compute entries key).2 := by
  unfold Memo.call
  cases hfound : entries.find? fun entry => entry.1 = key with
  | some entry =>
    have hmem := List.mem_of_find?_eq_some hfound
    have hkey : entry.1 = key := by simpa using List.find?_some hfound
    have hentry := h entry hmem
    refine ⟨?_, (h.subset (List.eraseP_sublist).subset).append hentry⟩
    rw [← hkey, hentry]
  | none =>
    cases hvalue : compute key with
    | error error => exact ⟨rfl, h⟩
    | ok value =>
      have hnew : Sound compute (entries ++ [(key, value)]) := h.append hvalue
      refine ⟨rfl, ?_⟩
      show Sound compute (if _ then _ else _)
      split
      · exact hnew.subset (List.tail_sublist _).subset
      · exact hnew

end

/-! ### A table of memos -/

/-- An owner: what its computation depends on, and its memo. -/
structure Owner (σ κ ν : Type) where
  spec : σ
  entries : List (κ × ν)
  deriving DecidableEq, Repr

section
variable {ι σ κ ν ε : Type}

/-- A call for an owner, which first makes a key of it. -/
def callAt [DecidableEq ι] [DecidableEq κ] (limit : Nat) (compute : σ → κ → Except ε ν)
    (missing : ε) (owners : ι → Option (Owner σ κ ν)) (id : ι) (keyOf : σ → Except ε κ) :
    Except ε ν × (ι → Option (Owner σ κ ν)) :=
  match owners id with
  | none => (.error missing, owners)
  | some owner =>
    match keyOf owner.spec with
    | .error error => (.error error, owners)
    | .ok key =>
      let (result, entries) := call limit (compute owner.spec) owner.entries key
      (result, Function.update owners id (some { owner with entries }))

/-- The call without a memo. -/
def direct (compute : σ → κ → Except ε ν) (missing : ε) (specs : ι → Option σ) (id : ι)
    (keyOf : σ → Except ε κ) : Except ε ν :=
  match specs id with
  | none => .error missing
  | some spec => do
    let key ← keyOf spec
    compute spec key

/-- When the direct computation has a result, and which. -/
theorem direct_ok_iff {compute : σ → κ → Except ε ν} {missing : ε} {specs : ι → Option σ} {id : ι}
    {keyOf : σ → Except ε κ} {value : ν} :
    direct compute missing specs id keyOf = .ok value ↔
      ∃ spec, specs id = some spec ∧ ∃ key, keyOf spec = .ok key ∧
        compute spec key = .ok value := by
  unfold direct
  cases specs id with
  | none =>
    constructor
    · intro h
      cases h
    · intro ⟨_, h, _⟩
      cases h
  | some spec =>
    rw [Result.bind_ok_iff]
    constructor
    · intro h
      exact ⟨spec, rfl, h⟩
    · intro ⟨_, hspec, h⟩
      cases hspec
      exact h

/-- The owners of a table, with empty memos. -/
def fresh (specs : ι → Option σ) : ι → Option (Owner σ κ ν) :=
  fun id => (specs id).map fun spec => { spec, entries := [] }

/-- The table has these owners, and their memos are sound. -/
structure Coherent (compute : σ → κ → Except ε ν) (specs : ι → Option σ)
    (owners : ι → Option (Owner σ κ ν)) : Prop where
  spec : ∀ id, (owners id).map Owner.spec = specs id
  sound : ∀ id owner, owners id = some owner → Sound (compute owner.spec) owner.entries

/-- Without entries all memos are coherent. -/
theorem coherent_fresh (compute : σ → κ → Except ε ν) (specs : ι → Option σ) :
    Coherent compute specs (fresh specs) := by
  constructor
  · intro id
    cases hspec : specs id <;> simp [fresh, hspec]
  · intro id owner howner
    obtain ⟨spec, -, rfl⟩ := Option.map_eq_some_iff.mp howner
    exact sound_nil (compute spec)

/-- An owner gets other entries. -/
theorem Coherent.update [DecidableEq ι] {compute : σ → κ → Except ε ν} {specs : ι → Option σ}
    {owners : ι → Option (Owner σ κ ν)} (h : Coherent compute specs owners) {id : ι}
    {owner : Owner σ κ ν} (howner : owners id = some owner) {entries : List (κ × ν)}
    (hentries : Sound (compute owner.spec) entries) :
    Coherent compute specs (Function.update owners id (some { owner with entries })) := by
  have hspec := h.spec id
  rw [howner] at hspec
  constructor
  · intro other
    by_cases hother : other = id
    · rw [hother, Function.update_self, ← hspec]
      rfl
    · rw [Function.update_of_ne hother]
      exact h.spec other
  · intro other owner' howner'
    by_cases hother : other = id
    · rw [hother, Function.update_self] at howner'
      cases howner'
      exact hentries
    · rw [Function.update_of_ne hother] at howner'
      exact h.sound other owner' howner'

/-- A table without a history returns the same. -/
theorem Coherent.callAt [DecidableEq ι] [DecidableEq κ] {compute : σ → κ → Except ε ν}
    {specs : ι → Option σ} {owners : ι → Option (Owner σ κ ν)}
    (h : Coherent compute specs owners) (limit : Nat) (missing : ε) (id : ι)
    (keyOf : σ → Except ε κ) :
    (Memo.callAt limit compute missing owners id keyOf).1 = direct compute missing specs id keyOf ∧
      Coherent compute specs (Memo.callAt limit compute missing owners id keyOf).2 := by
  have hspec := h.spec id
  unfold Memo.callAt direct
  cases howner : owners id with
  | none =>
    rw [howner] at hspec
    rw [← hspec]
    exact ⟨rfl, h⟩
  | some owner =>
    rw [howner] at hspec
    rw [← hspec]
    dsimp only [Option.map_some]
    cases hkey : keyOf owner.spec with
    | error error => exact ⟨rfl, h⟩
    | ok key =>
      obtain ⟨hresult, hsound⟩ := (h.sound id owner howner).call limit key
      exact ⟨hresult, h.update howner hsound⟩

end

end Wmfs.Lib.Memo
