import Wmfs.Runtime.Generation

/-!
# `Wmfs.Runtime.Atomic`: configuration calls that raise

A call with one critical section that raises leaves the runtime as it was, with one exception:
`configure_plugin` stores the configuration before it checks the type of `logging`. The hard case
is `BundledBackend.initialize`, which undoes its loop when a hook raises. `rollback_startAll` says
that it takes out exactly the providers that it has put in, as long as no shutdown raises.
-/

set_option autoImplicit false

namespace Wmfs.Runtime

variable {naming : Naming} {s t : State}

/-- Taking out the provider that was put in last. -/
theorem erase_insert_of_new {initialized : Initialized} {name : String}
    (provider : InitializedProvider) (hnew : initialized.lookup name = none) :
    (initialized.insert name provider).erase name = initialized := by
  have hnotMem : name ∉ initialized := AList.lookup_eq_none.mp hnew
  apply AList.ext
  show List.kerase name (⟨name, provider⟩ :: List.kerase name initialized.entries) = _
  rw [List.kerase_of_notMem_keys hnotMem]
  simp

/-- The rollback of a loop undoes it, and then goes on with the names before. -/
theorem rollback_startAll {host : Host} (hstops : ∀ name, host.stops name = true) (e : Failure)
    {providers : List (PluginManifest × Kind)} {st st' : Starting} {result : Except Failure Unit}
    (h : startAll host providers st = (st', result)) :
    ∃ now, st'.now = now ++ st.now ∧ ∀ rest log, ∃ log',
      rollback host e (now ++ rest) st'.initialized log =
        rollback host e rest st.initialized log' := by
  induction providers generalizing st with
  | nil =>
    cases h
    exact ⟨[], rfl, fun _ log => ⟨log, rfl⟩⟩
  | cons entry providers ih =>
    obtain ⟨manifest, kind⟩ := entry
    simp only [startAll] at h
    split at h
    · next next hone =>
      obtain ⟨now, hnow, hundo⟩ := ih h
      rcases startOne_ok hone with ⟨rfl, -⟩ | ⟨hnew, provider, -, -, rfl⟩
      · exact ⟨now, hnow, hundo⟩
      · refine ⟨now ++ [manifest.name], by simpa using hnow, ?_⟩
        intro rest log
        obtain ⟨log', hrollback⟩ := hundo (manifest.name :: rest) log
        -- The last step takes out the provider of this iteration.
        refine ⟨log'.shutdown provider, ?_⟩
        rw [List.append_assoc, List.singleton_append, hrollback]
        show rollback host e (manifest.name :: rest)
          (st.initialized.insert manifest.name provider) log' = _
        rw [rollback, AList.lookup_insert]
        dsimp only
        rw [if_pos (hstops _), erase_insert_of_new provider hnew]
    · cases h
      exact ⟨[], rfl, fun _ log => ⟨log, rfl⟩⟩

/-- An `initialize` that raises leaves the backends as they were. -/
theorem initializeBundled_undone {heap heap' : Heap} {id : Nat} {host : Host}
    {manifests : List PluginManifest} {registry : OperationRegistry} {e : Failure}
    (hstops : ∀ name, host.stops name = true)
    (h : heap.initializeBundled id host manifests registry = (heap', .error e)) :
    ∃ providers, heap' = { heap with providers := providers } := by
  unfold Heap.initializeBundled at h
  have hcases := initializeProviders_cases host manifests registry (heap.bundled id) heap.providers
  generalize (heap.bundled id).initializeProviders host manifests registry heap.providers = result
    at h hcases
  obtain ⟨backend, providers, result⟩ := result
  dsimp only at h
  rw [Prod.mk.injEq] at h
  obtain ⟨rfl, rfl⟩ := h
  cases hcases with
  | refused =>
    refine ⟨heap.providers, ?_⟩
    rw [Function.update_eq_self]
  | rolledBack entries st cause hmanifests hloop =>
    obtain ⟨now, hnow, hundo⟩ := rollback_startAll hstops cause hloop
    rw [List.append_nil] at hnow
    obtain ⟨log, hrollback⟩ := hundo [] st.log
    rw [List.append_nil, ← hnow] at hrollback
    refine ⟨log, ?_⟩
    rw [hrollback]
    show { heap with
      bundled := Function.update heap.bundled id
        { heap.bundled id with initialized := (heap.bundled id).initialized }
      providers := log } = _
    rw [Function.update_eq_self]

/-- No shutdown of a provider raises while the call undoes an `initialize`. -/
def Request.ShutsDown : Request → Prop
  | .loadPlugins host _ | .useBackend host _ => ∀ name, host.stops name = true
  | _ => True

/-- **Configuration calls are atomic.** A call that raises leaves everything as it was but the log
of the provider sessions that it has begun and ended. The exception is a `configure_plugin` whose
`logging` has another type: it has stored the configuration. -/
theorem request_atomic (request : Request) (hshuts : request.ShutsDown) {e : Failure}
    (h : s.request naming request = (t, .error e)) :
    (∃ providers, t = { s with heap := { s.heap with providers := providers } }) ∨
      ∃ plugin encoded, request = .configurePlugin plugin (some encoded) (some none) ∧
        e = .loggingType ∧ t = { s with core := s.core.configure plugin encoded } := by
  have hrequested : Requested naming s request _ := requested request
  rw [h] at hrequested
  cases hrequested with
  | raised => exact Or.inl ⟨s.heap.providers, rfl⟩
  | rolledBack _ host manifests registry heap _ hrequest _ hinit =>
    have hstops : ∀ name, host.stops name = true := by
      rcases hrequest with ⟨found, rfl⟩ | rfl <;> exact hshuts
    obtain ⟨providers, rfl⟩ := initializeBundled_undone hstops hinit
    exact Or.inl ⟨providers, rfl⟩
  | misconfigured plugin encoded => exact Or.inr ⟨plugin, encoded, rfl, rfl, rfl⟩

/-- A second plugin. -/
def secondManifest : PluginManifest :=
  { plainManifest with metadata := ⟨"second", [plainOperation], nodup_plainOperation⟩ }

/-- Both plugins are loaded. -/
def pairState : State :=
  (State.init.request plainNaming
    (.loadPlugins plainHost (some [plainManifest, secondManifest]))).1

/-- The provider of the second plugin cannot be initialized. -/
def failingHost : Host := { plainHost with starts := fun name => name != "second" }

/-- The provider of the first plugin has begun, and its shutdown has been called. -/
theorem request_atomic_plain :
    ∃ t e, pairState.request plainNaming (.useBackend failingHost "bundled") = (t, .error e) ∧
      t.heap.providers.count = 1 ∧ t.heap.providers.shutdowns 0 = 1 ∧
      ((∃ providers, t = { pairState with
          heap := { pairState.heap with providers := providers } }) ∨
        ∃ plugin encoded, Request.useBackend failingHost "bundled" =
            .configurePlugin plugin (some encoded) (some none) ∧
          e = .loggingType ∧
          t = { pairState with core := pairState.core.configure plugin encoded }) := by
  have hstops : (Request.useBackend failingHost "bundled").ShutsDown := fun _ => rfl
  have hraised : pairState.request plainNaming (.useBackend failingHost "bundled") =
      ((pairState.request plainNaming (.useBackend failingHost "bundled")).1,
        .error (.hook "second")) := rfl
  exact ⟨_, _, hraised, rfl, rfl, request_atomic _ hstops hraised⟩

end Wmfs.Runtime
