import Wmfs.Runtime.Close

/-!
# `Wmfs.Runtime.Generation`: one generation, one catalog

`resolve_operation` gives the generation in which it has found an operation, and
`invoke_registered` refuses any other generation. `catalog_of_generation` says what the counter
promises: whenever two states of a run in which the runtime is open have the same generation, they
have the same registry and the same operation names, however many calls lie between them.

A step either increases the generation, or closes the runtime, or keeps the catalog
(`catalogStep`). A runtime that opens again has increased it.
-/

set_option autoImplicit false

namespace Wmfs.Runtime

open Wmfs.Lib

variable {naming : Naming} {s t : State} {call : CallId}

/-- The catalog of a runtime that is open, as it was. -/
structure SameCatalog (s t : State) : Prop where
  opened : t.phase = .opened
  registry : t.core.registry = s.core.registry
  names : t.operationNames = s.operationNames

/-- What later states of a run have of the catalog of `s`. -/
inductive CatalogKept (s t : State) : Prop where
  | newer (hlt : s.operationGeneration < t.operationGeneration)
  | closing (heq : t.operationGeneration = s.operationGeneration) (hphase : t.phase = .closing)
  | same (heq : t.operationGeneration = s.operationGeneration) (hsame : SameCatalog s t)

/-- The names depend on the registry and on the names of the selected backend. -/
theorem operationNames_eq (hregistry : t.core.registry = s.core.registry)
    (hselected : t.core.selected = s.core.selected)
    (hnames : ∀ backend, s.core.selected = some backend →
      t.heap.operationNames backend = s.heap.operationNames backend) :
    t.operationNames = s.operationNames := by
  unfold State.operationNames
  rw [hregistry, hselected]
  cases hbackend : s.core.selected with
  | none => rfl
  | some backend =>
    show _ ∪ t.heap.operationNames backend = _ ∪ s.heap.operationNames backend
    rw [hnames backend hbackend]

/-- A step that keeps the core and the names of the backends keeps the catalog. -/
theorem catalogKept_of_core (hphase : s.phase = .opened) (hopened : t.phase = s.phase)
    (hgeneration : t.operationGeneration = s.operationGeneration)
    (hregistry : t.core.registry = s.core.registry)
    (hselected : t.core.selected = s.core.selected)
    (hnames : ∀ backend, s.core.selected = some backend →
      t.heap.operationNames backend = s.heap.operationNames backend) : CatalogKept s t :=
  .same hgeneration ⟨hopened.trans hphase, hregistry,
    operationNames_eq hregistry hselected hnames⟩

/-- The isolated backend that is selected is the published one. -/
theorem selected_isolated {core : Core} {id : Nat} (h : core.selected = some (.isolated id)) :
    core.isolated = some id := by
  unfold Core.selected at h
  rw [Option.bind_eq_some_iff] at h
  obtain ⟨name, -, hname⟩ := h
  cases name with
  | bundled => cases hname
  | isolated =>
    cases hcurrent : core.isolated with
    | none => simp [Core.backend, hcurrent] at hname
    | some other =>
      simp only [Core.backend, hcurrent, Option.map_some, Option.some.injEq,
        BackendRef.isolated.injEq] at hname
      rw [hname]

/-- An `initialize` that raises changes the initialized providers only. -/
theorem initializeBundled_error {heap heap' : Heap} {id : Nat} {host : Host}
    {manifests : List PluginManifest} {registry : OperationRegistry} {e : Failure}
    (h : heap.initializeBundled id host manifests registry = (heap', .error e)) :
    ∃ initialized providers, heap' = { heap with
      bundled := Function.update heap.bundled id
        { heap.bundled id with initialized := initialized }
      providers := providers } := by
  unfold Heap.initializeBundled at h
  have hcases := initializeProviders_cases host manifests registry (heap.bundled id) heap.providers
  generalize (heap.bundled id).initializeProviders host manifests registry heap.providers = result
    at h hcases
  obtain ⟨backend, providers, result⟩ := result
  dsimp only at h
  rw [Prod.mk.injEq] at h
  obtain ⟨rfl, rfl⟩ := h
  cases hcases with
  | refused => exact ⟨(heap.bundled id).initialized, heap.providers, rfl⟩
  | rolledBack => exact ⟨_, _, rfl⟩

/-- An `initialize` that raises does not change the names of a backend. -/
theorem initializeBundled_error_names {heap heap' : Heap} {id : Nat} {host : Host}
    {manifests : List PluginManifest} {registry : OperationRegistry} {e : Failure}
    (h : heap.initializeBundled id host manifests registry = (heap', .error e))
    (backend : BackendRef) : heap'.operationNames backend = heap.operationNames backend := by
  obtain ⟨initialized, providers, rfl⟩ := initializeBundled_error h
  cases backend with
  | isolated other => rfl
  | bundled other =>
    show (Function.update heap.bundled id _ other).names = (heap.bundled other).names
    by_cases hother : other = id
    · rw [hother, Function.update_self]
    · rw [Function.update_of_ne hother]

/-- A request keeps the catalog or gives it a new generation. -/
theorem Requested.catalogKept {request : Request} {r : State × Except Failure Unit}
    (h : Requested naming s request r) (hphase : s.phase = .opened) : CatalogKept s r.1 := by
  -- The end of `use_backend` compares the names.
  have hselect : ∀ (u : State) (name : BackendName), u.phase = s.phase →
      u.operationGeneration = s.operationGeneration → u.core.registry = s.core.registry →
        CatalogKept s (u.select name s.operationNames) := by
    intro u name hopened hgeneration hregistry
    unfold State.select
    dsimp only
    split
    next => exact .newer (by rw [← hgeneration]; exact Nat.lt_succ_self _)
    next hnames =>
      exact .same hgeneration ⟨hopened.trans hphase, hregistry, not_not.mp hnames⟩
  have hkeep : ∀ core : Core, core.registry = s.core.registry →
      core.selected = s.core.selected → CatalogKept s { s with core := core } :=
    fun core hregistry hselected =>
      catalogKept_of_core hphase rfl rfl hregistry hselected fun _ _ => rfl
  cases h with
  | raised => exact hkeep s.core rfl rfl
  | rolledBack _ _ _ _ heap e _ _ hinit =>
    exact catalogKept_of_core hphase rfl rfl rfl rfl
      fun backend _ => initializeBundled_error_names hinit backend
  | loaded | reloaded => exact .newer (Nat.lt_succ_self _)
  | misconfigured | configured | configuredLogging | memory | deadlines => exact hkeep _ rfl rfl
  | bundled _ implementation _ hname hfree =>
    -- The backend that is replaced is not selected.
    have hselected : ∀ b, s.core.selected ≠ some (.bundled b) := by
      intro b hb
      unfold Core.selected at hb
      rw [Option.bind_eq_some_iff] at hb
      obtain ⟨name, hbackend, hb⟩ := hb
      cases name with
      | bundled => exact hname hbackend
      | isolated =>
        cases hcurrent : s.core.isolated <;> simp [Core.backend, hcurrent] at hb
    refine catalogKept_of_core hphase rfl rfl rfl ?_ ?_
    · unfold Core.selected
      cases hbackend : s.core.backendName with
      | none => rfl
      | some name =>
        cases name with
        | bundled => exact absurd hbackend hname
        | isolated => rfl
    · intro backend hbackend
      cases backend with
      | bundled b => exact absurd hbackend (hselected b)
      | isolated b => rfl
  | selectBundled host heap _ hinit => exact hselect _ .bundled rfl rfl rfl
  | selectIsolated host _ hfound => exact hselect s .isolated rfl rfl rfl

/-- A step of a call keeps the catalog or gives it a new generation. -/
theorem State.Inv.catalogKept (h : s.Inv) (hphase : s.phase = .opened) {pc : Pc}
    (hpc : s.calls call = pc) (htrans : Trans naming s call pc t) : CatalogKept s t := by
  -- The published backend is neither new nor held by the call.
  have hnew : ∀ backend, s.core.selected = some backend →
      ∀ id, backend = .isolated id → id ≠ s.heap.isolatedCount := by
    rintro backend hbackend id rfl rfl
    exact Nat.lt_irrefl _ (h.owned.current_lt _ (selected_isolated hbackend))
  have hother : ∀ {held : Nat}, (s.calls call).holds = some held → ∀ backend,
      s.core.selected = some backend → ∀ id, backend = .isolated id → id ≠ held := by
    rintro held hheld backend hbackend id rfl rfl
    exact h.owned.held_ne call id hheld (selected_isolated hbackend)
  have hkeep : t.phase = s.phase → t.operationGeneration = s.operationGeneration →
      t.core.registry = s.core.registry → t.core.selected = s.core.selected →
        t.heap = s.heap → CatalogKept s t := by
    intro hopened hgeneration hregistry hselected hheap
    apply catalogKept_of_core hphase hopened hgeneration hregistry hselected
    rw [hheap]
    exact fun _ _ => rfl
  cases htrans with
  | refuse _ hclosed => exact absurd hphase hclosed
  | accept backend operation core _ _ hmarked =>
    cases hmarked with
    | operation name =>
      refine hkeep rfl rfl ?_ ?_ rfl
      · show (s.core.markInitialized name).registry = s.core.registry
        unfold Core.markInitialized
        split <;> rfl
      · show (s.core.markInitialized name).selected = s.core.selected
        unfold Core.markInitialized
        split <;> rfl
    | tensor => exact hkeep rfl rfl rfl rfl rfl
  | construct prepared configured loaded =>
    refine catalogKept_of_core hphase rfl rfl rfl rfl ?_
    intro backend hbackend
    cases backend with
    | bundled b => rfl
    | isolated b =>
      have hb := hnew _ hbackend b rfl
      show ((Function.update s.heap.isolated s.heap.isolatedCount _ b).registry).operationNames = _
      rw [Function.update_of_ne hb]
      rfl
  | started manifests held registry =>
    refine catalogKept_of_core hphase rfl rfl rfl rfl ?_
    intro backend hbackend
    cases backend with
    | bundled b => rfl
    | isolated b =>
      have hheld : (s.calls call).holds = some held := by
        rw [hpc]
        rfl
      have hb := hother hheld _ hbackend b rfl
      show ((Function.update s.heap.isolated held _ b).registry).operationNames = _
      rw [Function.update_of_ne hb]
      rfl
  | closeIsolated _ closed result =>
    refine catalogKept_of_core hphase rfl rfl rfl rfl ?_
    intro backend _
    cases backend with
    | bundled b => rfl
    | isolated b =>
      show ((Function.update s.heap.isolated closed _ b).registry).operationNames = _
      by_cases hb : b = closed
      · rw [hb, Function.update_self]
        rfl
      · rw [Function.update_of_ne hb]
        rfl
  | publish | reset => exact .newer (Nat.lt_succ_self _)
  | close => exact .closing rfl rfl
  | closeBackend backend rest raised =>
    exact absurd hpc (h.not_closing hphase call _ _)
  | _ => exact hkeep rfl rfl rfl rfl rfl

/-- A step of a runtime that is open. -/
theorem State.Inv.catalogStep (h : s.Inv) (hphase : s.phase = .opened) {a : Act}
    (hstep : step naming s a = some t) : CatalogKept s t := by
  rcases trans_of_step hstep with ⟨request, -, rfl⟩ | ⟨call, -, htrans⟩
  · have hrequested : Requested naming s request _ := requested request
    exact hrequested.catalogKept hphase
  · exact h.catalogKept hphase rfl htrans

/-- While the runtime is closing, the generation stays, and it increases with the reset. -/
theorem State.Inv.closingStep (h : s.Inv) (hphase : s.phase = .closing) {a : Act}
    (hstep : step naming s a = some t) :
    s.operationGeneration < t.operationGeneration ∨
      t.operationGeneration = s.operationGeneration ∧ t.phase = .closing := by
  cases hopened : t.phase with
  | opened =>
    left
    rw [(h.reopens hphase hstep hopened).operationGeneration]
    exact Nat.lt_succ_self _
  | closing =>
    rcases trans_of_step hstep with ⟨request, -, rfl⟩ | ⟨call, -, htrans⟩
    · have hrequested : Requested naming s request _ := requested request
      rcases hrequested.opened with hsame | hopen
      · exact Or.inr ⟨by rw [hsame], rfl⟩
      · rw [hphase] at hopen
        cases hopen
    · generalize s.calls call = pc at htrans
      cases htrans with
      | publish => exact Or.inl (Nat.lt_succ_self _)
      | reset => cases hopened
      | _ => exact Or.inr ⟨rfl, rfl⟩

/-- What a whole run keeps of a catalog. -/
theorem catalogKept_of_exec :
    ∀ (as : List Act) (u : State), u.Inv → CatalogKept s u →
      (runtimeMachine naming).exec u as = some t → CatalogKept s t := by
  intro as
  induction as with
  | nil =>
    intro u _ hkept hexec
    cases hexec
    exact hkept
  | cons a as ih =>
    intro u hu hkept hexec
    rw [Machine.exec_cons, Option.bind_eq_some_iff] at hexec
    obtain ⟨v, hstep, hexec⟩ := hexec
    have hstep' : step naming u a = some v := hstep
    apply ih v (hu.preserved hstep') _ hexec
    cases hkept with
    | newer hlt =>
      -- The generation never decreases.
      cases huphase : u.phase with
      | opened =>
        cases hu.catalogStep huphase hstep' with
        | newer hlt' => exact .newer (hlt.trans hlt')
        | closing heq | same heq => exact .newer (heq ▸ hlt)
      | closing =>
        rcases hu.closingStep huphase hstep' with hlt' | ⟨heq, -⟩
        · exact .newer (hlt.trans hlt')
        · exact .newer (heq ▸ hlt)
    | closing heq huphase =>
      rcases hu.closingStep huphase hstep' with hlt | ⟨heq', hclosing⟩
      · exact .newer (heq ▸ hlt)
      · exact .closing (heq'.trans heq) hclosing
    | same heq hsame =>
      cases hu.catalogStep hsame.opened hstep' with
      | newer hlt => exact .newer (heq ▸ hlt)
      | closing heq' hclosing => exact .closing (heq'.trans heq) hclosing
      | same heq' hsame' =>
        exact .same (heq'.trans heq) ⟨hsame'.opened, hsame'.registry.trans hsame.registry,
          hsame'.names.trans hsame.names⟩

/-- **One generation, one catalog.** Two states of a run in which the runtime is open and that
have one generation have the same registry and the same names, and they resolve every operation in
the same way. -/
theorem catalog_of_generation {as : List Act} (hs : (runtimeMachine naming).Reachable s)
    (hrun : (runtimeMachine naming).exec s as = some t) (hphase : s.phase = .opened)
    (hopened : t.phase = .opened)
    (hgeneration : t.operationGeneration = s.operationGeneration) :
    t.core.registry = s.core.registry ∧ t.operationNames = s.operationNames ∧
      ∀ name, t.resolveOperation name = s.resolveOperation name := by
  have hinv := inv_of_reachable hs
  have hkept := catalogKept_of_exec as s hinv (.same rfl ⟨hphase, rfl, rfl⟩) hrun
  cases hkept with
  | newer hlt =>
    rw [hgeneration] at hlt
    exact absurd hlt (Nat.lt_irrefl _)
  | closing _ hclosing =>
    rw [hopened] at hclosing
    cases hclosing
  | same _ hsame =>
    refine ⟨hsame.registry, hsame.names, ?_⟩
    intro name
    unfold State.resolveOperation
    have hvisible : t.isVisible name = s.isVisible name := by
      cases name with
      | short name =>
        show decide (name ∈ t.operationNames) = decide (name ∈ s.operationNames)
        rw [hsame.names]
      | qualified plugin name =>
        show ((t.core.registry.visible _).isSome) = ((s.core.registry.visible _).isSome)
        rw [hsame.registry]
    rw [hvisible, hgeneration, hsame.registry]

/-- A registered call that is accepted finds the operation that its caller has resolved, however
many calls lie in between. -/
theorem invokeRegistered_resolved {as : List Act} (hs : (runtimeMachine naming).Reachable s)
    (hrun : (runtimeMachine naming).exec s as = some t) (hphase : s.phase = .opened)
    {name : OperationName} {generation : Nat} {metadata : Option Manifest.OperationMetadata}
    (hresolved : s.resolveOperation name = .ok (generation, metadata)) {backend : BackendRef}
    (haccepted : (t.invokeRegistered call name generation).calls call =
      .working backend (some name)) :
    t.resolveOperation name = .ok (generation, metadata) ∧ t.core.selected = some backend := by
  have hgeneration : generation = s.operationGeneration := by
    unfold State.resolveOperation at hresolved
    split at hresolved
    · cases hresolved
      rfl
    · cases hresolved
  unfold State.invokeRegistered at haccepted
  split at haccepted
  next => simp at haccepted
  next hopened =>
    dsimp only at haccepted
    split at haccepted
    next => simp at haccepted
    next hcurrent =>
      split at haccepted
      next => simp at haccepted
      next =>
        split at haccepted
        next => simp at haccepted
        next selected hselected =>
          have hbackend : selected = backend := by simpa using haccepted
          have hsame : t.operationGeneration = s.operationGeneration := by
            rw [← hgeneration]
            exact (not_not.mp hcurrent).symm
          obtain ⟨-, -, hresolve⟩ :=
            catalog_of_generation hs hrun hphase (not_not.mp hopened) hsame
          rw [hresolve name, hresolved, ← hbackend]
          exact ⟨rfl, hselected⟩

/-- A tensor is constructed between the two calls. -/
theorem invokeRegistered_resolved_plain :
    (selectedState.constructTensor 0).resolveOperation (.short "constant") =
        .ok (1, some plainOperation) ∧
      (selectedState.constructTensor 0).core.selected = some (.bundled 0) := by
  have hrun : (runtimeMachine plainNaming).exec selectedState [.constructTensor 0] =
      some (selectedState.constructTensor 0) := rfl
  have hresolved : selectedState.resolveOperation (.short "constant") =
      .ok (1, some plainOperation) := rfl
  have haccepted : ((selectedState.constructTensor 0).invokeRegistered 1 (.short "constant")
      1).calls 1 = .working (.bundled 0) (some (.short "constant")) := rfl
  exact invokeRegistered_resolved reachable_selectedState hrun rfl hresolved haccepted

end Wmfs.Runtime
