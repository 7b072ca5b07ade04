import Wmfs.Lib.Gate
import Wmfs.Runtime.Requests

/-!
# `Wmfs.Runtime.Close`: closing is a barrier

The calls of a runtime pass a gate (`Wmfs.Lib.Gate`): `_accept_work` enters, `_finish_work`
leaves, and `close` shuts the gate, waits for `_active_work` to be zero, and opens it again.
`gate_of_trans` says that every step of a call is a run of the gate.

On top of it, `Owned` says who answers for the isolated backends: the runtime for the one that
it has published, and a `discover_plugins` for the one that it makes, publishes, or replaces.
`barrier_of_reachable` has both together.
-/

set_option autoImplicit false

namespace Wmfs.Runtime

open Wmfs.Lib (Gate.Role Gate.Valid Gate.Step)
open Wmfs.Lib

variable {naming : Naming}

/-! ### The gate -/

/-- What a call does at the gate. -/
def Pc.role : Pc → Gate.Role
  | .working _ _ | .discovering | .found _ | .preparing _ _ _ _ | .starting _ _ | .created _ _
  | .rejected _ | .validated _ _ | .replaced _ | .finishing _ => .inside
  | .closeWaiting => .draining
  | .closing _ _ => .drained
  | .idle | .closeJoining _ | .done _ => .outside

/-- The gate of a runtime. -/
def State.gate (s : State) : Gate.State CallId :=
  ⟨s.phase == .closing, s.activeWork, Pc.role ∘ s.calls, s.started⟩

/-- The calls that have been made are those that are not idle. -/
def State.Arrived (s : State) : Prop := ∀ c, s.calls c = .idle ↔ c ∉ s.started

section
variable {s t : State} {call : CallId}

/-- An open runtime is not closing. -/
theorem phase_beq_of_opened (h : s.phase = .opened) : (s.phase == .closing) = false := by
  rw [h]
  rfl

/-- The roles after a call has gone on at `pc`. -/
theorem roles_move (s : State) (call : CallId) (pc : Pc) :
    Function.update (Pc.role ∘ s.calls) call pc.role =
      Pc.role ∘ Function.update s.calls call pc :=
  (Function.comp_update ..).symm

/-- A call that takes no other role does not change the gate. -/
theorem gate_of_role (pc : Pc) (hrole : pc.role = (s.calls call).role)
    (hphase : t.phase = s.phase) (hactive : t.activeWork = s.activeWork)
    (hcalls : t.calls = Function.update s.calls call pc) (hstarted : t.started = s.started) :
    Relation.ReflTransGen Gate.Step s.gate t.gate := by
  have hroles : Pc.role ∘ t.calls = Pc.role ∘ s.calls := by
    rw [hcalls, ← roles_move, hrole]
    exact Function.update_eq_self ..
  unfold State.gate
  rw [hphase, hactive, hroles, hstarted]

/-- Steps that only move a call keep its role. -/
theorem Moves.role {pc pc' : Pc} (h : Moves naming s pc pc') : pc'.role = pc.role := by
  cases h <;> rfl

/-- A new call arrives at the gate. -/
theorem gate_arrive (harrived : s.Arrived) (hidle : s.calls call = .idle) :
    Gate.Step s.gate { s.gate with parties := call :: s.started } :=
  .arrive call ((harrived call).mp hidle)

/-- A new call is accepted. -/
theorem gate_accept (harrived : s.Arrived) (hidle : s.calls call = .idle)
    (hphase : s.phase = .opened) (pc : Pc) (hpc : pc.role = .inside) :
    Relation.ReflTransGen Gate.Step s.gate ((s.accept call).move call pc).gate := by
  refine .tail (.single (gate_arrive harrived hidle)) ?_
  have henter := Gate.Step.enter (s := { s.gate with parties := call :: s.started }) call
    (List.mem_cons_self ..) (by simp [State.gate, hidle, Pc.role]) (phase_beq_of_opened hphase)
  refine henter.of_eq (Gate.State.ext rfl rfl ?_ rfl)
  rw [← hpc]
  exact roles_move s call pc

/-- What a step of a call does at the gate. -/
theorem gate_of_trans (harrived : s.Arrived) {pc : Pc} (hpc : s.calls call = pc)
    (h : Trans naming s call pc t) : Relation.ReflTransGen Gate.Step s.gate t.gate := by
  have hrole : (Pc.role ∘ s.calls) call = pc.role := by
    rw [← hpc]
    rfl
  cases h with
  | refuse e hphase =>
    refine .single ((gate_arrive harrived hpc).of_eq (Gate.State.ext rfl rfl ?_ rfl))
    show Pc.role ∘ s.calls = Pc.role ∘ Function.update s.calls call (.done (.error e))
    rw [← roles_move]
    exact (Function.update_eq_self_iff.mpr hrole.symm).symm
  | abandon e hphase =>
    -- The call enters and leaves.
    refine .tail (gate_accept harrived hpc hphase .discovering rfl) ?_
    have hleave := Gate.Step.leave (s := ((s.accept call).move call .discovering).gate) call
      (by simp [State.gate, Pc.role])
    refine hleave.of_eq (Gate.State.ext rfl rfl ?_ rfl)
    show Function.update (Pc.role ∘ Function.update s.calls call .discovering) call .outside = _
    rw [← roles_move, Function.update_idem]
    exact roles_move s call (.done (.error e))
  | accept backend operation core hphase =>
    exact gate_accept harrived hpc hphase (.working backend operation) rfl
  | discover hphase => exact gate_accept harrived hpc hphase .discovering rfl
  | move _ pc' hmoves =>
    exact gate_of_role pc' (by rw [hmoves.role, hpc]) rfl rfl rfl rfl
  | construct prepared configured loaded =>
    exact gate_of_role (.starting prepared s.heap.isolatedCount) (by rw [hpc]; rfl)
      rfl rfl rfl rfl
  | started manifests backend registry =>
    exact gate_of_role (.created manifests backend) (by rw [hpc]; rfl) rfl rfl rfl rfl
  | closeIsolated _ backend result hkind =>
    have hinside : (Pc.finishing result).role = pc.role := by
      rcases hkind with ⟨manifests, rfl⟩ | rfl | rfl <;> rfl
    exact gate_of_role (.finishing result) (by rw [hpc, hinside]) rfl rfl rfl rfl
  | publish manifests backend =>
    exact gate_of_role (.replaced s.core.isolated) (by rw [hpc]; rfl) rfl rfl rfl rfl
  | finish result =>
    have hleave := Gate.Step.leave (s := s.gate) call hrole
    exact .single (hleave.of_eq
      (Gate.State.ext rfl rfl (roles_move s call (.done result)) rfl))
  | close hphase =>
    refine .tail (.single (gate_arrive harrived hpc)) ?_
    have hshut := Gate.Step.shut (s := { s.gate with parties := call :: s.started }) call
      (List.mem_cons_self ..) hrole (phase_beq_of_opened hphase)
    exact hshut.of_eq (Gate.State.ext rfl rfl (roles_move s call .closeWaiting) rfl)
  | join hphase =>
    refine .single ((gate_arrive harrived hpc).of_eq (Gate.State.ext rfl rfl ?_ rfl))
    show Pc.role ∘ s.calls =
      Pc.role ∘ Function.update s.calls call (.closeJoining s.closeGeneration)
    rw [← roles_move]
    exact (Function.update_eq_self_iff.mpr hrole.symm).symm
  | drain hzero =>
    have hdrain := Gate.Step.drain (s := s.gate) call hrole hzero
    exact .single (hdrain.of_eq
      (Gate.State.ext rfl rfl (roles_move s call (.closing s.core.backends false)) rfl))
  | closeBackend backend rest raised raised' =>
    exact gate_of_role (.closing rest raised') (by rw [hpc]; rfl) rfl rfl rfl rfl
  | reset raised =>
    have hreopen := Gate.Step.reopen (s := s.gate) call hrole
    exact .single (hreopen.of_eq (Gate.State.ext rfl rfl (roles_move s call (.done _)) rfl))

end

/-! ### The isolated backends -/

/-- The isolated backend for which a `discover_plugins` answers. -/
def Pc.holds : Pc → Option Nat
  | .starting _ backend | .created _ backend | .rejected backend | .validated _ backend =>
    some backend
  | .replaced previous => previous
  | _ => none

/-- A `close` that has closed the published isolated backend. -/
def Pc.hasClosed (pc : Pc) (backend : Nat) : Bool :=
  match pc with
  | .closing rest _ => !rest.contains (.isolated backend)
  | _ => false

/-- Somebody answers for the isolated backend: a `discover_plugins`, or the runtime. -/
def State.Pending (s : State) (id : Nat) : Prop :=
  (∃ c, (s.calls c).holds = some id) ∨
    (s.core.isolated = some id ∧ ∀ c, (s.calls c).hasClosed id = false)

/-- The accounts of the isolated backends.

* `held_unique`, `held_ne`: one party answers for a backend.
* `pending_zero`, `settled_one`: a backend is closed exactly once, when nobody answers for it any
  more. -/
structure State.Owned (s : State) : Prop where
  current_lt : ∀ id, s.core.isolated = some id → id < s.heap.isolatedCount
  held_lt : ∀ c id, (s.calls c).holds = some id → id < s.heap.isolatedCount
  held_unique : ∀ c c' id, (s.calls c).holds = some id → (s.calls c').holds = some id → c = c'
  held_ne : ∀ c id, (s.calls c).holds = some id → s.core.isolated ≠ some id
  pending_zero : ∀ id < s.heap.isolatedCount, s.Pending id → (s.heap.isolated id).closes = 0
  settled_one : ∀ id < s.heap.isolatedCount, ¬s.Pending id → (s.heap.isolated id).closes = 1

/-- What every run keeps. `rest`: a `close` has a part of the backends left. -/
structure State.Inv (s : State) : Prop where
  arrived : s.Arrived
  gate : Gate.Valid s.gate
  rest : ∀ c backends raised, s.calls c = .closing backends raised → backends <:+ s.core.backends
  owned : s.Owned

section
variable {s t : State} {call : CallId}

/-- The accounts depend on who answers for the published backend and on who holds the others. -/
theorem State.Owned.congr (h : s.Owned) (hcurrent : t.core.isolated = s.core.isolated)
    (hcount : t.heap.isolatedCount = s.heap.isolatedCount)
    (hcloses : ∀ id, (t.heap.isolated id).closes = (s.heap.isolated id).closes)
    (hholds : ∀ c, (t.calls c).holds = (s.calls c).holds)
    (hclosed : ∀ c id, s.core.isolated = some id →
      (t.calls c).hasClosed id = (s.calls c).hasClosed id) : t.Owned := by
  have hpending : ∀ id, t.Pending id ↔ s.Pending id := by
    intro id
    unfold State.Pending
    simp only [hholds, hcurrent]
    refine or_congr Iff.rfl (and_congr_right fun hid => forall_congr' fun c => ?_)
    rw [hclosed c id hid]
  constructor
  · rw [hcurrent, hcount]
    exact h.current_lt
  · simp only [hholds, hcount]
    exact h.held_lt
  · simp only [hholds]
    exact h.held_unique
  · simp only [hholds, hcurrent]
    exact h.held_ne
  · intro id hid hp
    rw [hcloses]
    exact h.pending_zero id (hcount ▸ hid) ((hpending id).mp hp)
  · intro id hid hp
    rw [hcloses]
    exact h.settled_one id (hcount ▸ hid) (fun hs => hp ((hpending id).mpr hs))

/-- A call that goes on and holds the same backend. -/
theorem State.Owned.move (h : s.Owned) (call : CallId) (pc : Pc)
    (hcalls : t.calls = Function.update s.calls call pc)
    (hcurrent : t.core.isolated = s.core.isolated)
    (hcount : t.heap.isolatedCount = s.heap.isolatedCount)
    (hcloses : ∀ id, (t.heap.isolated id).closes = (s.heap.isolated id).closes)
    (hholds : pc.holds = (s.calls call).holds)
    (hclosed : ∀ id, s.core.isolated = some id →
      pc.hasClosed id = (s.calls call).hasClosed id) : t.Owned := by
  apply h.congr hcurrent hcount hcloses
  · intro c
    rw [hcalls]
    by_cases hc : c = call
    · rw [hc, Function.update_self, hholds]
    · rw [Function.update_of_ne hc]
  · intro c id hid
    rw [hcalls]
    by_cases hc : c = call
    · rw [hc, Function.update_self, hclosed id hid]
    · rw [Function.update_of_ne hc]

/-- Who holds a backend after a call has gone on. -/
theorem exists_holds_move (s : State) (call : CallId) (pc : Pc) (id : Nat) :
    (∃ c, (Function.update s.calls call pc c).holds = some id) ↔
      pc.holds = some id ∨ ∃ c, c ≠ call ∧ (s.calls c).holds = some id :=
  Function.exists_update_iff s.calls fun _ pc => pc.holds = some id

/-- Which calls have closed a backend after a call has gone on. -/
theorem forall_hasClosed_move (s : State) (call : CallId) (pc : Pc) (id : Nat) :
    (∀ c, (Function.update s.calls call pc c).hasClosed id = false) ↔
      pc.hasClosed id = false ∧ ∀ c, c ≠ call → (s.calls c).hasClosed id = false :=
  Function.forall_update_iff s.calls fun _ pc => pc.hasClosed id = false

/-- A `discover_plugins` makes a backend. -/
theorem State.Owned.construct (h : s.Owned) (manifests : List PluginManifest)
    (hfree : (s.calls call).holds = none) (hcloser : ∀ id, (s.calls call).hasClosed id = false) :
    (s.constructIsolated call manifests).Owned := by
  have hnew : ∀ c id, (Function.update s.calls call (.starting manifests s.heap.isolatedCount) c).holds
      = some id → (c = call ∧ id = s.heap.isolatedCount) ∨ (s.calls c).holds = some id := by
    intro c id hid
    by_cases hc : c = call
    · rw [hc, Function.update_self] at hid
      exact Or.inl ⟨hc, (Option.some.inj hid).symm⟩
    · rw [Function.update_of_ne hc] at hid
      exact Or.inr hid
  have hpending : ∀ id, (s.constructIsolated call manifests).Pending id ↔
      id = s.heap.isolatedCount ∨ s.Pending id := by
    intro id
    show ((∃ c, (Function.update s.calls call _ c).holds = some id) ∨ (s.core.isolated = some id ∧
      ∀ c, (Function.update s.calls call _ c).hasClosed id = false)) ↔ _
    rw [exists_holds_move, forall_hasClosed_move]
    unfold State.Pending
    grind [Pc.holds, Pc.hasClosed]
  constructor
  · intro id hid
    exact Nat.lt_succ_of_lt (h.current_lt id hid)
  · intro c id hid
    rcases hnew c id hid with ⟨-, rfl⟩ | hold
    · exact Nat.lt_succ_self _
    · exact Nat.lt_succ_of_lt (h.held_lt c id hold)
  · intro c c' id hc hc'
    rcases hnew c id hc with ⟨rfl, rfl⟩ | hold
    · rcases hnew c' _ hc' with ⟨rfl, -⟩ | hold'
      · rfl
      · exact absurd (h.held_lt c' _ hold') (Nat.lt_irrefl _)
    · rcases hnew c' id hc' with ⟨rfl, rfl⟩ | hold'
      · exact absurd (h.held_lt c _ hold) (Nat.lt_irrefl _)
      · exact h.held_unique c c' id hold hold'
  · intro c id hc hid
    rcases hnew c id hc with ⟨-, rfl⟩ | hold
    · exact absurd (h.current_lt _ hid) (Nat.lt_irrefl _)
    · exact h.held_ne c id hold hid
  · intro id hid hp
    show (Function.update s.heap.isolated s.heap.isolatedCount _ id).closes = 0
    by_cases heq : id = s.heap.isolatedCount
    · rw [heq, Function.update_self]
    · rw [Function.update_of_ne heq]
      have hlt : id < s.heap.isolatedCount := Nat.lt_of_le_of_ne (Nat.le_of_lt_succ hid) heq
      exact h.pending_zero id hlt (((hpending id).mp hp).resolve_left heq)
  · intro id hid hp
    rw [hpending, not_or] at hp
    show (Function.update s.heap.isolated s.heap.isolatedCount _ id).closes = 1
    rw [Function.update_of_ne hp.1]
    exact h.settled_one id (Nat.lt_of_le_of_ne (Nat.le_of_lt_succ hid) hp.1) hp.2

/-- A backend is closed, and nobody answers for it any more. -/
theorem State.Owned.close (h : s.Owned) {id : Nat} (hpending : s.Pending id)
    (hcurrent : t.core.isolated = s.core.isolated)
    (hheap : t.heap = s.heap.close (.isolated id))
    (hholds : ∀ c other, (t.calls c).holds = some other →
      (s.calls c).holds = some other ∧ other ≠ id)
    (hsettled : ∀ other, t.Pending other ↔ s.Pending other ∧ other ≠ id) : t.Owned := by
  have hcount : t.heap.isolatedCount = s.heap.isolatedCount := by
    rw [hheap]
    rfl
  have hisolated : t.heap.isolated = Function.update s.heap.isolated id
      { s.heap.isolated id with closes := (s.heap.isolated id).closes + 1 } := by
    rw [hheap]
    rfl
  constructor
  · rw [hcurrent, hcount]
    exact h.current_lt
  · intro c other hc
    rw [hcount]
    exact h.held_lt c other (hholds c other hc).1
  · intro c c' other hc hc'
    exact h.held_unique c c' other (hholds c other hc).1 (hholds c' other hc').1
  · intro c other hc
    rw [hcurrent]
    exact h.held_ne c other (hholds c other hc).1
  · intro other hother hp
    rw [hcount] at hother
    rw [hsettled] at hp
    rw [hisolated, Function.update_of_ne hp.2]
    exact h.pending_zero other hother hp.1
  · intro other hother hp
    rw [hcount] at hother
    rw [hsettled, not_and_or, not_not] at hp
    rw [hisolated]
    by_cases heq : other = id
    · subst heq
      rw [Function.update_self, h.pending_zero other hother hpending]
    · rw [Function.update_of_ne heq]
      exact h.settled_one other hother (hp.resolve_right heq)

/-- A `discover_plugins` closes the backend that it holds. -/
theorem State.Owned.closeHeld (h : s.Owned) {id : Nat} (result : Except Failure Unit)
    (hheld : (s.calls call).holds = some id) (hcloser : ∀ id, (s.calls call).hasClosed id = false) :
    ({ s.move call (.finishing result) with heap := s.heap.close (.isolated id) } : State).Owned := by
  refine h.close (Or.inl ⟨call, hheld⟩) rfl rfl ?_ ?_
  · intro c other hc
    by_cases hcall : c = call
    · simp [hcall, Pc.holds] at hc
    · have hother : (s.calls c).holds = some other := by simpa [hcall] using hc
      refine ⟨hother, ?_⟩
      rintro rfl
      exact hcall (h.held_unique c call other hother hheld)
  · intro other
    show ((∃ c, (Function.update s.calls call _ c).holds = some other) ∨
      (s.core.isolated = some other ∧
        ∀ c, (Function.update s.calls call _ c).hasClosed other = false)) ↔ _
    rw [exists_holds_move, forall_hasClosed_move]
    unfold State.Pending
    have hne := h.held_ne call
    have hunique := h.held_unique call
    grind [Pc.holds, Pc.hasClosed]

/-- A `discover_plugins` publishes its backend, and answers for the one before. -/
theorem State.Owned.publish (h : s.Owned) {id : Nat} (manifests : List PluginManifest)
    (hheld : (s.calls call).holds = some id) (hcloser : ∀ c id, (s.calls c).hasClosed id = false) :
    (s.publish call manifests id).Owned := by
  have hholds : ∀ c other, (Function.update s.calls call (.replaced s.core.isolated) c).holds =
      some other → (c = call ∧ s.core.isolated = some other) ∨
        (c ≠ call ∧ (s.calls c).holds = some other) := by
    intro c other hc
    by_cases hcall : c = call
    · rw [hcall, Function.update_self] at hc
      exact Or.inl ⟨hcall, hc⟩
    · rw [Function.update_of_ne hcall] at hc
      exact Or.inr ⟨hcall, hc⟩
  have hpending : ∀ other, (s.publish call manifests id).Pending other ↔ s.Pending other := by
    intro other
    show ((∃ c, (Function.update s.calls call _ c).holds = some other) ∨ (some id = some other ∧
      ∀ c, (Function.update s.calls call _ c).hasClosed other = false)) ↔ _
    rw [exists_holds_move, forall_hasClosed_move]
    unfold State.Pending
    have hunique := h.held_unique call
    grind [Pc.holds, Pc.hasClosed]
  constructor
  · intro other hother
    rw [← Option.some.inj hother]
    exact h.held_lt call id hheld
  · intro c other hc
    rcases hholds c other hc with ⟨-, hcurrent⟩ | ⟨-, hold⟩
    · exact h.current_lt other hcurrent
    · exact h.held_lt c other hold
  · intro c c' other hc hc'
    rcases hholds c other hc with ⟨rfl, hcurrent⟩ | ⟨-, hold⟩
    · rcases hholds c' other hc' with ⟨rfl, -⟩ | ⟨-, hold'⟩
      · rfl
      · exact absurd hcurrent (h.held_ne c' other hold')
    · rcases hholds c' other hc' with ⟨rfl, hcurrent'⟩ | ⟨-, hold'⟩
      · exact absurd hcurrent' (h.held_ne c other hold)
      · exact h.held_unique c c' other hold hold'
  · intro c other hc hother
    have heq : id = other := Option.some.inj hother
    subst heq
    rcases hholds c id hc with ⟨-, hcurrent⟩ | ⟨hcall, hold⟩
    · exact h.held_ne call id hheld hcurrent
    · exact hcall (h.held_unique c call id hold hheld)
  · exact fun other hother hp => h.pending_zero other hother ((hpending other).mp hp)
  · exact fun other hother hp =>
      h.settled_one other hother fun hs => hp ((hpending other).mpr hs)

/-- A `close` closes the next backend. -/
theorem State.Inv.closeBackend (h : s.Inv) {backend : BackendRef} {rest : List BackendRef}
    {raised : Bool} (raised' : Bool) (hpc : s.calls call = .closing (backend :: rest) raised) :
    ({ s.move call (.closing rest raised') with heap := s.heap.close backend } : State).Owned := by
  have hsuffix := h.rest call _ _ hpc
  have hcloser : ∀ c id, c ≠ call → (s.calls c).hasClosed id = false := by
    intro c id hne
    by_contra hclosed
    have hshuts : (s.gate.roles c).shuts = true := by
      show (s.calls c).role.shuts = true
      cases hc : s.calls c <;> simp_all [Pc.hasClosed, Pc.role]
    have hshuts' : (s.gate.roles call).shuts = true := by
      show (s.calls call).role.shuts = true
      rw [hpc]
      rfl
    exact hne (h.gate.closer_unique hshuts hshuts')
  cases backend with
  | bundled b =>
    refine h.owned.move call (.closing rest raised') rfl rfl rfl (fun _ => rfl) ?_ ?_
    · rw [hpc]
      rfl
    · intro id _
      rw [hpc]
      simp [Pc.hasClosed]
  | isolated b =>
    -- The isolated backend is the last one.
    have hlast : s.core.isolated = some b ∧ rest = [] := by
      cases hcurrent : s.core.isolated with
      | none =>
        simp [Core.backends, hcurrent, List.suffix_cons_iff] at hsuffix
      | some b' =>
        simp [Core.backends, hcurrent, List.suffix_cons_iff] at hsuffix
        exact ⟨by rw [hsuffix.1], hsuffix.2⟩
    obtain ⟨hcurrent, rfl⟩ := hlast
    have hnobody : ∀ c, (s.calls c).holds ≠ some b := fun c hc => h.owned.held_ne c b hc hcurrent
    have hpending : s.Pending b := by
      refine Or.inr ⟨hcurrent, ?_⟩
      intro c
      by_cases hc : c = call
      · rw [hc, hpc]
        simp [Pc.hasClosed]
      · exact hcloser c b hc
    refine h.owned.close hpending rfl rfl ?_ ?_
    · intro c other hc
      by_cases hcall : c = call
      · simp [hcall, Pc.holds] at hc
      · have hother : (s.calls c).holds = some other := by simpa [hcall] using hc
        exact ⟨hother, fun heq => hnobody c (heq ▸ hother)⟩
    · intro other
      show ((∃ c, (Function.update s.calls call _ c).holds = some other) ∨
        (s.core.isolated = some other ∧
          ∀ c, (Function.update s.calls call _ c).hasClosed other = false)) ↔ _
      rw [exists_holds_move, forall_hasClosed_move]
      unfold State.Pending
      grind [Pc.holds, Pc.hasClosed]

/-- Nobody works while a `close` closes the backends. -/
theorem State.Inv.drained (h : s.Inv) {backends : List BackendRef} {raised : Bool}
    (hpc : s.calls call = .closing backends raised) :
    s.activeWork = 0 ∧ ∀ c, (s.calls c).role.counted = false := by
  have hdrained : s.gate.roles call = .drained := by
    show (s.calls call).role = .drained
    rw [hpc]
    rfl
  have hzero : s.gate.count = 0 := h.gate.empty call hdrained
  exact ⟨hzero, h.gate.notCounted_of_zero hzero⟩

/-- A call that is not counted holds no backend. -/
theorem holds_eq_none_of_counted {pc : Pc} (h : pc.role.counted = false) : pc.holds = none := by
  cases pc <;> simp_all [Pc.role, Pc.holds]

/-- Behind the last backend every isolated backend has been closed once. -/
theorem State.Inv.closes_one (h : s.Inv) {raised : Bool} (hpc : s.calls call = .closing [] raised)
    {id : Nat} (hid : id < s.heap.isolatedCount) : (s.heap.isolated id).closes = 1 := by
  apply h.owned.settled_one id hid
  rintro (⟨c, hc⟩ | ⟨-, hclosed⟩)
  · rw [holds_eq_none_of_counted ((h.drained hpc).2 c)] at hc
    cases hc
  · have hcall := hclosed call
    rw [hpc] at hcall
    cases hcall

/-- The accounts after `close` has reset the runtime. -/
theorem State.Inv.reset (h : s.Inv) {raised : Bool} (hpc : s.calls call = .closing [] raised) :
    (s.reset call raised).Owned := by
  have hnone : ∀ c, ((s.reset call raised).calls c).holds = none := by
    intro c
    show (Function.update s.calls call _ c).holds = none
    by_cases hc : c = call
    · rw [hc, Function.update_self]
      rfl
    · rw [Function.update_of_ne hc]
      exact holds_eq_none_of_counted ((h.drained hpc).2 c)
  constructor
  · intro id hid
    cases hid
  · intro c id hc
    rw [hnone] at hc
    cases hc
  · intro c c' id hc
    rw [hnone] at hc
    cases hc
  · intro c id hc
    rw [hnone] at hc
    cases hc
  · rintro id - (⟨c, hc⟩ | ⟨hid, -⟩)
    · rw [hnone] at hc
      cases hc
    · cases hid
  · intro id hid _
    exact h.closes_one hpc hid

/-- Nobody has closed a backend while a call works. -/
theorem State.Inv.hasClosed_of_counted (h : s.Inv) (hcounted : (s.calls call).role.counted = true)
    (c : CallId) (id : Nat) : (s.calls c).hasClosed id = false := by
  cases hc : s.calls c with
  | closing backends raised =>
    have hnot := (h.drained hc).2 call
    rw [hcounted] at hnot
    cases hnot
  | _ => rfl

/-- Steps that only move a call keep what it holds. -/
theorem Moves.holds {pc pc' : Pc} (h : Moves naming s pc pc') :
    pc'.holds = pc.holds ∧ ∀ id, pc'.hasClosed id = pc.hasClosed id := by
  cases h <;> exact ⟨rfl, fun _ => rfl⟩

/-- A step of a call keeps the accounts. -/
theorem State.Inv.owned_of_trans (h : s.Inv) {pc : Pc} (hpc : s.calls call = pc)
    (htrans : Trans naming s call pc t) : t.Owned := by
  have hkeep := h.owned.move (t := t) call
  cases htrans with
  | refuse e | abandon e =>
    exact hkeep _ rfl rfl rfl (fun _ => rfl) (by rw [hpc]; rfl) (fun _ _ => by rw [hpc]; rfl)
  | accept backend operation core _ _ hmarked =>
    have hcurrent : core.isolated = s.core.isolated := by
      cases hmarked with
      | operation name =>
        unfold Core.markInitialized
        split <;> rfl
      | tensor => rfl
    exact hkeep _ rfl hcurrent rfl (fun _ => rfl) (by rw [hpc]; rfl) (fun _ _ => by rw [hpc]; rfl)
  | discover =>
    exact hkeep _ rfl rfl rfl (fun _ => rfl) (by rw [hpc]; rfl) (fun _ _ => by rw [hpc]; rfl)
  | move _ pc' hmoves =>
    exact hkeep _ rfl rfl rfl (fun _ => rfl) (by rw [hpc]; exact hmoves.holds.1)
      (fun id _ => by rw [hpc]; exact hmoves.holds.2 id)
  | construct prepared configured loaded =>
    exact h.owned.construct prepared (by rw [hpc]; rfl) (fun _ => by rw [hpc]; rfl)
  | started manifests backend registry =>
    refine hkeep _ rfl rfl rfl ?_ ?_ ?_
    · intro id
      show (Function.update s.heap.isolated backend _ id).closes = _
      by_cases hid : id = backend
      · rw [hid, Function.update_self]
      · rw [Function.update_of_ne hid]
    · rw [hpc]
      rfl
    · intro _ _
      rw [hpc]
      rfl
  | closeIsolated _ backend result hkind =>
    apply h.owned.closeHeld result
    · rw [hpc]
      rcases hkind with ⟨manifests, rfl⟩ | rfl | rfl <;> rfl
    · intro id
      rw [hpc]
      rcases hkind with ⟨manifests, rfl⟩ | rfl | rfl <;> rfl
  | publish manifests backend =>
    apply h.owned.publish manifests (by rw [hpc]; rfl)
    exact h.hasClosed_of_counted (by rw [hpc]; rfl)
  | finish result | close | join =>
    exact hkeep _ rfl rfl rfl (fun _ => rfl) (by rw [hpc]; rfl) (fun _ _ => by rw [hpc]; rfl)
  | drain =>
    refine hkeep _ rfl rfl rfl (fun _ => rfl) (by rw [hpc]; rfl) ?_
    intro id hid
    rw [hpc]
    simp [Pc.hasClosed, Core.backends, hid]
  | closeBackend backend rest raised raised' => exact h.closeBackend raised' hpc
  | reset raised => exact h.reset hpc

/-- A step of a call keeps the list of calls. -/
theorem State.Inv.arrived_of_trans (h : s.Inv) {pc : Pc} (hpc : s.calls call = pc)
    (htrans : Trans naming s call pc t) : t.Arrived := by
  have hnew : ∀ {pc' : Pc}, pc = .idle → pc' ≠ .idle →
      ∀ c, Function.update s.calls call pc' c = .idle ↔ c ∉ call :: s.started := by
    intro pc' _ hpc' c
    rw [List.mem_cons, not_or]
    by_cases hc : c = call
    · simp [hc, hpc']
    · simp [hc, h.arrived c]
  have hold : ∀ {pc' : Pc}, pc ≠ .idle → pc' ≠ .idle →
      ∀ c, Function.update s.calls call pc' c = .idle ↔ c ∉ s.started := by
    intro pc' hidle hpc' c
    by_cases hc : c = call
    · subst hc
      rw [Function.update_self, ← h.arrived c, hpc]
      simp [hidle, hpc']
    · rw [Function.update_of_ne hc]
      exact h.arrived c
  cases htrans with
  | move _ pc' hmoves => cases hmoves <;> exact hold (by simp) (by simp)
  | closeIsolated _ backend result hkind =>
    apply hold _ (by simp)
    rcases hkind with ⟨manifests, rfl⟩ | rfl | rfl <;> simp
  | refuse | abandon | accept | discover | close | join => exact hnew rfl (by simp)
  | _ => exact hold (by simp) (by simp)

/-- A `close` that has waited is the only one. -/
theorem State.Inv.closing_unique (h : s.Inv) {c c' : CallId} {backends backends' : List BackendRef}
    {raised raised' : Bool} (hc : s.calls c = .closing backends raised)
    (hc' : s.calls c' = .closing backends' raised') : c = c' := by
  apply h.gate.closer_unique
  · show (s.calls c).role.shuts = true
    rw [hc]
    rfl
  · show (s.calls c').role.shuts = true
    rw [hc']
    rfl

/-- No call closes backends while a runtime is open. -/
theorem State.Inv.not_closing (h : s.Inv) (hphase : s.phase = .opened) (c : CallId)
    (backends : List BackendRef) (raised : Bool) : s.calls c ≠ .closing backends raised := by
  intro hc
  have hshut := h.gate.shut_of_shuts (i := c) (by
    show (s.calls c).role.shuts = true
    rw [hc]
    rfl)
  rw [show s.gate.shut = false from phase_beq_of_opened hphase] at hshut
  cases hshut

/-- A step of a call keeps the list of backends that a `close` has left. -/
theorem State.Inv.rest_of_trans (h : s.Inv) {pc : Pc} (hpc : s.calls call = pc)
    (htrans : Trans naming s call pc t) (c : CallId) (backends : List BackendRef) (raised : Bool)
    (hc : t.calls c = .closing backends raised) : backends <:+ t.core.backends := by
  -- Another call closes, or this call does something else.
  have hkeep : ∀ {pc' : Pc}, pc' ≠ .closing backends raised →
      Function.update s.calls call pc' c = .closing backends raised →
        s.calls c = .closing backends raised := by
    intro pc' hpc' hupdate
    by_cases hcall : c = call
    · rw [hcall, Function.update_self] at hupdate
      exact absurd hupdate hpc'
    · rwa [Function.update_of_ne hcall] at hupdate
  cases htrans with
  | accept backend operation core _ _ hmarked =>
    have hbackends : core.backends = s.core.backends := by
      cases hmarked with
      | operation name =>
        unfold Core.markInitialized
        split <;> rfl
      | tensor => rfl
    show backends <:+ core.backends
    rw [hbackends]
    exact h.rest c backends raised (hkeep (by simp) hc)
  | move _ pc' hmoves => exact h.rest c backends raised (hkeep (by cases hmoves <;> simp) hc)
  | publish manifests backend =>
    -- The call works, so nobody closes.
    have hclosing := hkeep (by simp) hc
    have hnot := (h.drained hclosing).2 call
    rw [hpc] at hnot
    cases hnot
  | drain =>
    by_cases hcall : c = call
    · rw [hcall] at hc
      have heq : s.core.backends = backends := by
        simp only [Function.update_self, Pc.closing.injEq] at hc
        exact hc.1
      exact heq ▸ List.suffix_refl _
    · exact h.rest c backends raised (by simpa [hcall] using hc)
  | closeBackend backend rest first second =>
    by_cases hcall : c = call
    · rw [hcall] at hc
      have heq : rest = backends := by
        simp only [Function.update_self, Pc.closing.injEq] at hc
        exact hc.1
      rw [← heq]
      exact (List.suffix_cons _ _).trans (h.rest call _ _ hpc)
    · exact h.rest c backends raised (by simpa [hcall] using hc)
  | reset first =>
    have hclosing := hkeep (by simp) hc
    have hcall : c = call := h.closing_unique hclosing hpc
    rw [hcall] at hc
    simp [State.reset] at hc
  | _ => exact h.rest c backends raised (hkeep (by simp) hc)

/-- A step keeps what every run keeps. -/
theorem State.Inv.preserved (h : s.Inv) {a : Act} (hstep : step naming s a = some t) : t.Inv := by
  rcases trans_of_step hstep with ⟨request, -, rfl⟩ | ⟨call, -, htrans⟩
  · have hrequested : Requested naming s request _ := requested request
    obtain ⟨hphase, hactive, hcalls, hstarted, -⟩ := hrequested.frame
    obtain ⟨hcurrent, hisolated, hcount⟩ := hrequested.isolated
    constructor
    · intro c
      rw [hcalls, hstarted]
      exact h.arrived c
    · unfold State.gate
      rw [hphase, hactive, hcalls, hstarted]
      exact h.gate
    · intro c backends raised hc
      rw [hcalls] at hc
      rcases hrequested.opened with heq | hopened
      · rw [heq]
        exact h.rest c backends raised hc
      · exact absurd hc (h.not_closing hopened c backends raised)
    · apply h.owned.congr hcurrent hcount
      · intro id
        rw [hisolated]
      · intro c
        rw [hcalls]
      · intro c id _
        rw [hcalls]
  · exact ⟨h.arrived_of_trans rfl htrans, h.gate.steps (gate_of_trans h.arrived rfl htrans),
      h.rest_of_trans rfl htrans, h.owned_of_trans rfl htrans⟩

/-- The invariant holds of a new runtime. -/
theorem inv_init : State.init.Inv := by
  constructor
  · intro c
    simp [State.init]
  · constructor
    · exact List.nodup_nil
    · intro c hc
      exact absurd rfl hc
    · rfl
    · rfl
    · intro c hc
      cases hc
  · intro c backends raised hc
    cases hc
  · constructor
    · intro id hid
      cases hid
    · intro c id hc
      cases hc
    · intro c c' id hc
      cases hc
    · intro c id hc
      cases hc
    · intro id hid
      exact absurd hid (Nat.not_lt_zero id)
    · intro id hid
      exact absurd hid (Nat.not_lt_zero id)

/-- The calls and the isolated backends of a runtime are accounted for in every run. -/
theorem inv_of_reachable (h : (runtimeMachine naming).Reachable s) : s.Inv :=
  h.invariant inv_init fun _ _ _ hi _ hstep => hi.preserved hstep

end

/-! ### The barrier -/

/-- The call has been accepted and has not finished. -/
def Pc.works (pc : Pc) : Bool := pc.role.counted

/-- The call is a `close` that has taken the backends. -/
def Pc.pastWait (pc : Pc) : Bool := decide (pc.role = .drained)

/-- The state is that of a new runtime, except for the two generations, and every isolated backend
that there has ever been has been closed exactly once. -/
structure ResetOf (s t : State) : Prop where
  core : t.core = .new t.core.bundled
  bundled : t.heap.bundled t.core.bundled = .new .auto
  opened : t.phase = .opened
  idle : t.activeWork = 0
  closeGeneration : t.closeGeneration = s.closeGeneration + 1
  operationGeneration : t.operationGeneration = s.operationGeneration + 1
  closed : ∀ id < t.heap.isolatedCount, (t.heap.isolated id).closes = 1

/-- The fields of the runtime stay as they are. -/
structure SameFields (s t : State) : Prop where
  core : t.core = s.core
  phase : t.phase = s.phase
  closeGeneration : t.closeGeneration = s.closeGeneration
  operationGeneration : t.operationGeneration = s.operationGeneration

/-- Closing is a barrier.

* `active`: `_active_work` counts the calls that have been accepted and have not finished.
* `one_closer`, `closing_iff`: one call at a time closes the runtime, and the runtime is closing
  as long.
* `drained`: from the moment a `close` has taken the backends, no call works.
* `frozen`: until it resets the runtime no call is accepted, and no field changes.
* `reopens`: a runtime that is closing opens by a reset only.
* `closed_once`: an isolated backend is closed at most once, and not while it is published and
  the runtime is open. -/
structure State.Barrier (naming : Naming) (s : State) : Prop where
  active : s.activeWork = s.started.countP fun c => (s.calls c).works
  one_closer : ∀ c c', (s.calls c).role.shuts = true → (s.calls c').role.shuts = true → c = c'
  closing_iff : s.phase = .closing ↔ ∃ c, (s.calls c).role.shuts = true
  drained : ∀ c, (s.calls c).pastWait = true →
    s.activeWork = 0 ∧ ∀ c', (s.calls c').works = false
  frozen : ∀ c a t, (s.calls c).pastWait = true → step naming s a = some t →
    (SameFields s t ∧ t.activeWork = 0 ∧ (t.calls c).pastWait = true) ∨
      ResetOf s t
  reopens : ∀ a t, s.phase = .closing → step naming s a = some t → t.phase = .opened →
    ResetOf s t
  closed_once : ∀ id < s.heap.isolatedCount, (s.heap.isolated id).closes ≤ 1 ∧
    (s.phase = .opened → s.core.isolated = some id → (s.heap.isolated id).closes = 0)

section
variable {s t : State}

/-- What the last step of a `close` leaves. -/
theorem State.Inv.resetOf (h : s.Inv) {call : CallId} {raised : Bool}
    (hpc : s.calls call = .closing [] raised) : ResetOf s (s.reset call raised) where
  core := rfl
  bundled := Function.update_self ..
  opened := rfl
  idle := (h.drained hpc).1
  closeGeneration := rfl
  operationGeneration := rfl
  closed _ hid := h.closes_one hpc hid

/-- A call behind the wait closes the backends. -/
theorem exists_closing_of_pastWait {pc : Pc} (h : pc.pastWait = true) :
    ∃ backends raised, pc = .closing backends raised := by
  cases pc <;> simp_all [Pc.pastWait, Pc.role]

/-- A step while a `close` closes the backends. -/
theorem State.Inv.frozen (h : s.Inv) {c : CallId} {a : Act} (hwait : (s.calls c).pastWait = true)
    (hstep : step naming s a = some t) :
    (SameFields s t ∧ t.activeWork = 0 ∧ (t.calls c).pastWait = true) ∨
      ResetOf s t := by
  obtain ⟨backends, raised, hc⟩ := exists_closing_of_pastWait hwait
  obtain ⟨hzero, hnobody⟩ := h.drained hc
  have hclosing : s.phase ≠ .opened := fun hopened => h.not_closing hopened c backends raised hc
  rcases trans_of_step hstep with ⟨request, -, rfl⟩ | ⟨call, -, htrans⟩
  · have hrequested : Requested naming s request _ := requested request
    rw [hrequested.opened.resolve_right hclosing]
    exact Or.inl ⟨⟨rfl, rfl, rfl, rfl⟩, hzero, hwait⟩
  · -- The closing call, or another one that neither works nor closes.
    have hother : ∀ {pc' : Pc}, (s.calls call).pastWait = false →
        (Function.update s.calls call pc' c).pastWait = true := by
      intro pc' hnot
      have hne : c ≠ call := by
        rintro rfl
        rw [hwait] at hnot
        cases hnot
      rwa [Function.update_of_ne hne]
    have hidle := hnobody call
    generalize hpc : s.calls call = pc at htrans hidle hother
    cases htrans with
    | refuse | join => exact Or.inl ⟨⟨rfl, rfl, rfl, rfl⟩, hzero, hother rfl⟩
    | abandon _ hopened | accept _ _ _ hopened | discover hopened | close hopened =>
      exact absurd hopened hclosing
    | move _ pc' hmoves =>
      cases hmoves with
      | joined => exact Or.inl ⟨⟨rfl, rfl, rfl, rfl⟩, hzero, hother rfl⟩
      | _ => cases hidle
    | closeIsolated _ backend result hkind =>
      rcases hkind with ⟨manifests, rfl⟩ | rfl | rfl <;> cases hidle
    | drain =>
      have hcall : c = call := h.gate.closer_unique (s := s.gate)
        (by show (s.calls c).role.shuts = true; rw [hc]; rfl)
        (by show (s.calls call).role.shuts = true; rw [hpc]; rfl)
      rw [hcall, hpc] at hc
      cases hc
    | closeBackend backend rest =>
      have hcall := h.closing_unique hc hpc
      refine Or.inl ⟨⟨rfl, rfl, rfl, rfl⟩, hzero, ?_⟩
      rw [hcall]
      simp [Pc.pastWait, Pc.role]
    | reset => exact Or.inr (h.resetOf hpc)
    | _ => cases hidle

/-- A runtime that is closing opens by a reset only. -/
theorem State.Inv.reopens (h : s.Inv) {a : Act} (hphase : s.phase = .closing)
    (hstep : step naming s a = some t) (hopened : t.phase = .opened) : ResetOf s t := by
  have hclosing : s.phase ≠ .opened := by
    rw [hphase]
    decide
  rcases trans_of_step hstep with ⟨request, -, rfl⟩ | ⟨call, -, htrans⟩
  · have hrequested : Requested naming s request _ := requested request
    rw [hrequested.frame.1] at hopened
    exact absurd hopened hclosing
  · generalize hpc : s.calls call = pc at htrans
    cases htrans with
    | reset raised => exact h.resetOf hpc
    | close => cases hopened
    | _ => exact absurd hopened hclosing

/-- **Closing is a barrier** in every run. -/
theorem barrier_of_reachable (h : (runtimeMachine naming).Reachable s) : s.Barrier naming := by
  have hinv := inv_of_reachable h
  constructor
  · exact hinv.gate.count_eq
  · exact fun c c' hc hc' => hinv.gate.closer_unique hc hc'
  · constructor
    · intro hphase
      apply hinv.gate.exists_shuts
      show (s.phase == .closing) = true
      rw [hphase]
      rfl
    · rintro ⟨c, hc⟩
      have hshut : (s.phase == .closing) = true := hinv.gate.shut_of_shuts (i := c) hc
      exact eq_of_beq hshut
  · intro c hc
    obtain ⟨backends, raised, hclosing⟩ := exists_closing_of_pastWait hc
    exact hinv.drained hclosing
  · exact fun c a t hwait hstep => hinv.frozen hwait hstep
  · exact fun a t hphase hstep hopened => hinv.reopens hphase hstep hopened
  · intro id hid
    constructor
    · by_cases hpending : s.Pending id
      · rw [hinv.owned.pending_zero id hid hpending]
        exact Nat.zero_le 1
      · rw [hinv.owned.settled_one id hid hpending]
    · intro hopened hcurrent
      apply hinv.owned.pending_zero id hid (Or.inr ⟨hcurrent, ?_⟩)
      intro c
      cases hc : s.calls c with
      | closing backends raised => exact absurd hc (hinv.not_closing hopened c backends raised)
      | _ => rfl

/-- A `close` that has closed all backends. -/
theorem barrier_closing :
    ∃ s : State, (s.calls 1).pastWait = true ∧ s.heap.isolatedCount = 1 ∧ s.Barrier plainNaming := by
  obtain ⟨s, hrun, htest⟩ :=
    Machine.exists_of_exec (M := runtimeMachine plainNaming) (s := State.init)
      (fun s => (s.calls 1).pastWait && s.heap.isolatedCount == 1) closingRun (by decide)
  rw [Bool.and_eq_true, beq_iff_eq] at htest
  exact ⟨s, htest.1, htest.2, barrier_of_reachable (Machine.reachable_of_exec hrun)⟩

end

end Wmfs.Runtime
