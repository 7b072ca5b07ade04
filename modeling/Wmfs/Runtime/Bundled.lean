import Mathlib.Data.List.AList
import Wmfs.Lib.Result
import Wmfs.Runtime.Registry

/-!
# `Wmfs.Runtime.Bundled`: the in-process providers

`BundledBackend.initialize` and `close` (`backends/bundled.py`). A provider is a Python module or
a part of the native module. `initialize` finds the provider of each manifest, builds the
operation table, and calls the `initialize` hook of every provider that it has not yet
initialized. When one raises, it shuts down the providers that it has initialized in this call,
the last one first. A shutdown that raises ends this loop.

A `Host` says what a call meets outside: which providers can be had, and which hooks raise. Each
hook that returns from `initialize` begins a session of the provider. `ProviderLog` numbers the
sessions and counts the calls of their shutdown.
-/

set_option autoImplicit false

namespace Wmfs.Runtime

open Wmfs.Lib

/-- `Literal["python", "native"]`. -/
inductive Kind where
  | python
  | native
  deriving DecidableEq, Repr

/-- `implementation` of a `BundledBackend`. -/
inductive Implementation where
  | auto
  | python
  | native
  deriving DecidableEq, Repr

/-- What `initialize` meets outside the runtime.

* `loads`: the import of `wmfs._bundled` does not raise. `compiled`: its `plugins`.
* `provides`: the provider of the plugin can be imported and has all public operations.
* `hooks`: the Python provider has a callable `initialize`.
* `shutdownHooks`: the Python provider has a callable `shutdown`.
* `starts`: `initialize` of the provider and the constructor of its logger return.
* `stops`: `shutdown` of the provider and `close` of its logger return. -/
structure Host where
  loads : Bool
  compiled : List String
  provides : String → Bool
  hooks : String → Bool
  shutdownHooks : String → Bool
  starts : String → Bool
  stops : String → Bool

/-- `_InitializedProvider`, with the number of its session. Of a Python `provider` the model keeps
whether its `shutdown` is callable (`shutdownHook`). -/
structure InitializedProvider where
  session : Nat
  configuration : String
  hasShutdown : Bool
  kind : Kind
  shutdownHook : Bool
  deriving DecidableEq, Repr

/-- `_shutdown_provider` calls `shutdown`: of every native provider, and of a Python provider that
declares one, if there is one that can be called. -/
def InitializedProvider.declares (provider : InitializedProvider) : Bool :=
  provider.kind == .native || (provider.hasShutdown && provider.shutdownHook)

/-- The sessions of the providers. Those below `count` have begun. `declares` says that the
provider declares a shutdown that can be called, and `shutdowns` counts its calls. -/
structure ProviderLog where
  count : Nat
  declares : Nat → Bool
  shutdowns : Nat → Nat

namespace ProviderLog

/-- No session has begun. -/
def empty : ProviderLog := ⟨0, fun _ => false, fun _ => 0⟩

/-- A session begins. -/
def start (log : ProviderLog) (declares : Bool) : ProviderLog :=
  { log with
    count := log.count + 1
    declares := Function.update log.declares log.count declares }

/-- `_shutdown_provider`. -/
def shutdown (log : ProviderLog) (provider : InitializedProvider) : ProviderLog :=
  if provider.declares then
    { log with shutdowns :=
        Function.update log.shutdowns provider.session (log.shutdowns provider.session + 1) }
  else log

end ProviderLog

/-- `_initialized`. The provider that was initialized last is the first entry. -/
abbrev Initialized : Type := AList fun _ : String => InitializedProvider

/-- `BundledBackend`. `names` is its `operation_names`. `closes` counts the calls of `close`. -/
structure BundledBackend where
  implementation : Implementation
  operations : OperationTable
  names : Finset String
  initialized : Initialized
  closes : Nat

/-- `BundledBackend(implementation)`. -/
def BundledBackend.new (implementation : Implementation) : BundledBackend :=
  ⟨implementation, fun _ => none, ∅, ∅, 0⟩

/-- The provider of a manifest. -/
def providerKind (host : Host) (implementation : Implementation) (manifest : PluginManifest) :
    Except Failure Kind :=
  let kind : Except Failure Kind :=
    -- `compiled` is empty when the native module is not loaded.
    if implementation ≠ .python ∧ manifest.name ∈ host.compiled ∧
        manifest.bundledNamespace.isSome then .ok .native
    else if implementation = .native then .error (.noCompiledProvider manifest.name)
    else if manifest.pythonProvider.isNone then .error (.noPythonProvider manifest.name)
    else .ok .python
  kind.bind fun kind =>
    if host.provides manifest.name then .ok kind else .error (.provider manifest.name)

/-- The state of the loop that initializes providers. `now` is `initialized_now`, the last one
first. -/
structure Starting where
  initialized : Initialized
  log : ProviderLog
  now : List String

/-- The body of the loop. -/
def startOne (host : Host) (manifest : PluginManifest) (kind : Kind) (st : Starting) :
    Except Failure Starting :=
  match st.initialized.lookup manifest.name with
  | some existing =>
    if existing.configuration ≠ manifest.configurationBytes then
      .error (.differentConfiguration manifest.name)
    else .ok st
  | none =>
    if kind = .python ∧ manifest.hasInitialize = true ∧ host.hooks manifest.name = false then
      .error (.noInitializeHook manifest.name)
    else if host.starts manifest.name = false then .error (.hook manifest.name)
    else
      let provider : InitializedProvider :=
        ⟨st.log.count, manifest.configurationBytes, manifest.hasShutdown, kind,
          host.shutdownHooks manifest.name⟩
      .ok {
        initialized := st.initialized.insert manifest.name provider
        log := st.log.start provider.declares
        now := manifest.name :: st.now }

/-- `for manifest in manifests:` of the `try` block. -/
def startAll (host : Host) :
    List (PluginManifest × Kind) → Starting → Starting × Except Failure Unit
  | [], st => (st, .ok ())
  | (manifest, kind) :: rest, st =>
    match startOne host manifest kind st with
    | .ok st' => startAll host rest st'
    | .error e => (st, .error e)

/-- `for name in reversed(initialized_now):`. The name is popped before its provider is shut
down, and a shutdown that raises ends the loop. -/
def rollback (host : Host) (cause : Failure) :
    List String → Initialized → ProviderLog → Initialized × ProviderLog × Failure
  | [], initialized, log => (initialized, log, cause)
  | name :: rest, initialized, log =>
    match initialized.lookup name with
    | none => (initialized, log, cause)
    | some provider =>
      if host.stops name then
        rollback host cause rest (initialized.erase name) (log.shutdown provider)
      else (initialized.erase name, log.shutdown provider, .hook name)

/-- `initialize`. -/
def BundledBackend.initializeProviders (host : Host) (manifests : List PluginManifest)
    (registry : OperationRegistry) (backend : BundledBackend) (log : ProviderLog) :
    BundledBackend × ProviderLog × Except Failure Unit :=
  if backend.implementation ≠ .python ∧ host.loads = false then
    (backend, log, .error .nativeModule)
  else
    match manifests.mapM (fun manifest =>
        (providerKind host backend.implementation manifest).map fun kind => (manifest, kind)) with
    | .error e => (backend, log, .error e)
    | .ok providers =>
      match startAll host providers ⟨backend.initialized, log, []⟩ with
      | (st, .ok ()) =>
        ({ backend with
            operations := bundledTable manifests registry
            names := bundledNames manifests registry
            initialized := st.initialized },
          st.log, .ok ())
      | (st, .error e) =>
        let (initialized, log', cause) := rollback host e st.now st.initialized st.log
        ({ backend with initialized := initialized }, log', .error cause)

/-- `close`. Every provider is shut down, the last one first, whether the shutdowns before it
raise or not. -/
def BundledBackend.close (backend : BundledBackend) (log : ProviderLog) :
    BundledBackend × ProviderLog :=
  ({ backend with
      operations := fun _ => none
      names := ∅
      initialized := ∅
      closes := backend.closes + 1 },
    backend.initialized.entries.foldl (fun log entry => log.shutdown entry.2) log)

/-! ### What `initialize` does

`InitializeCases` lists the ways in which `initialize` ends, and the lemmas behind it say what
its loops do. No later proof unfolds them. -/

/-- How `initialize` ends: before the first hook, after all hooks, or after a hook that raises. -/
inductive InitializeCases (host : Host) (manifests : List PluginManifest)
    (registry : OperationRegistry) (backend : BundledBackend) (log : ProviderLog) :
    BundledBackend × ProviderLog × Except Failure Unit → Prop where
  | refused (e : Failure) :
    InitializeCases host manifests registry backend log (backend, log, .error e)
  | started (providers : List (PluginManifest × Kind)) (st : Starting)
      (hmanifests : providers.map Prod.fst = manifests)
      (hloop : startAll host providers ⟨backend.initialized, log, []⟩ = (st, .ok ())) :
    InitializeCases host manifests registry backend log
      ({ backend with
          operations := bundledTable manifests registry
          names := bundledNames manifests registry
          initialized := st.initialized },
        st.log, .ok ())
  | rolledBack (providers : List (PluginManifest × Kind)) (st : Starting) (e : Failure)
      (hmanifests : providers.map Prod.fst = manifests)
      (hloop : startAll host providers ⟨backend.initialized, log, []⟩ = (st, .error e)) :
    InitializeCases host manifests registry backend log
      ({ backend with initialized := (rollback host e st.now st.initialized st.log).1 },
        (rollback host e st.now st.initialized st.log).2.1,
        .error (rollback host e st.now st.initialized st.log).2.2)

/-- The list of providers has the manifests. -/
theorem map_fst_of_mapM {host : Host} {implementation : Implementation}
    {manifests : List PluginManifest} {providers : List (PluginManifest × Kind)}
    (h : manifests.mapM (fun manifest =>
      (providerKind host implementation manifest).map fun kind => (manifest, kind)) =
        .ok providers) : providers.map Prod.fst = manifests := by
  have hall := Result.mapM_ok_iff.mp h
  clear h
  induction hall with
  | nil => rfl
  | @cons manifest provider _ _ hone _ ih =>
    have hfst : provider.1 = manifest := by
      cases hkind : providerKind host implementation manifest with
      | error e =>
        rw [hkind] at hone
        cases hone
      | ok kind =>
        rw [hkind] at hone
        cases hone
        rfl
    rw [List.map_cons, hfst, ih]

/-- What `initialize` can do. -/
theorem initializeProviders_cases (host : Host) (manifests : List PluginManifest)
    (registry : OperationRegistry) (backend : BundledBackend) (log : ProviderLog) :
    InitializeCases host manifests registry backend log
      (backend.initializeProviders host manifests registry log) := by
  unfold BundledBackend.initializeProviders
  split
  · exact .refused _
  · split
    · exact .refused _
    · next providers hproviders =>
      have hmanifests := map_fst_of_mapM hproviders
      split
      · next st hloop => exact .started providers st hmanifests hloop
      · next st e hloop => exact .rolledBack providers st e hmanifests hloop

/-- The providers after a part of `initialize`: those before are as they were, and the others
have the configuration of their manifest. -/
structure Extends (manifests : List PluginManifest) (old new : Initialized) : Prop where
  kept : ∀ name provider, old.lookup name = some provider → new.lookup name = some provider
  added : ∀ name provider, new.lookup name = some provider →
    old.lookup name = some provider ∨
      ∃ manifest ∈ manifests, manifest.name = name ∧
        provider.configuration = manifest.configurationBytes

/-- The providers extend themselves. -/
theorem Extends.refl (manifests : List PluginManifest) (initialized : Initialized) :
    Extends manifests initialized initialized :=
  ⟨fun _ _ h => h, fun _ _ h => Or.inl h⟩

/-- The same over two steps. -/
theorem Extends.trans {manifests : List PluginManifest} {a b c : Initialized}
    (h₁ : Extends manifests a b) (h₂ : Extends manifests b c) : Extends manifests a c where
  kept name provider h := h₂.kept name provider (h₁.kept name provider h)
  added name provider h := by
    rcases h₂.added name provider h with hb | hnew
    · exact h₁.added name provider hb
    · exact Or.inr hnew

/-- More manifests may be started. -/
theorem Extends.mono {manifests manifests' : List PluginManifest} {a b : Initialized}
    (hsub : ∀ manifest ∈ manifests, manifest ∈ manifests') (h : Extends manifests a b) :
    Extends manifests' a b where
  kept := h.kept
  added name provider hnew := by
    rcases h.added name provider hnew with hold | ⟨manifest, hmem, hname⟩
    · exact Or.inl hold
    · exact Or.inr ⟨manifest, hsub manifest hmem, hname⟩

/-- What the body of the loop does. -/
theorem startOne_ok {host : Host} {manifest : PluginManifest} {kind : Kind} {st st' : Starting}
    (h : startOne host manifest kind st = .ok st') :
    (st' = st ∧ ∃ provider, st.initialized.lookup manifest.name = some provider ∧
        provider.configuration = manifest.configurationBytes) ∨
      (st.initialized.lookup manifest.name = none ∧
        ∃ provider : InitializedProvider, provider.session = st.log.count ∧
          provider.configuration = manifest.configurationBytes ∧
          st' = ⟨st.initialized.insert manifest.name provider, st.log.start provider.declares,
            manifest.name :: st.now⟩) := by
  unfold startOne at h
  split at h
  · next existing hfound =>
    split at h
    · cases h
    · next hsame =>
      cases h
      exact Or.inl ⟨rfl, existing, hfound, not_not.mp hsame⟩
  · next hnew =>
    split at h
    · cases h
    · split at h
      · cases h
      · cases h
        exact Or.inr ⟨hnew, _, rfl, rfl, rfl⟩

/-- The body of the loop leaves the provider of its manifest initialized. -/
theorem startOne_extends {host : Host} {manifest : PluginManifest} {kind : Kind}
    {st st' : Starting} (h : startOne host manifest kind st = .ok st') :
    Extends [manifest] st.initialized st'.initialized ∧
      ∃ provider, st'.initialized.lookup manifest.name = some provider ∧
        provider.configuration = manifest.configurationBytes := by
  rcases startOne_ok h with ⟨rfl, hfound⟩ | ⟨hnew, provider, -, hconfiguration, rfl⟩
  · exact ⟨.refl _ _, hfound⟩
  · refine ⟨⟨?_, ?_⟩, provider, AList.lookup_insert _, hconfiguration⟩
    · intro name other hother
      have hne : name ≠ manifest.name := by
        rintro rfl
        simp [hnew] at hother
      show (st.initialized.insert manifest.name provider).lookup name = some other
      rw [AList.lookup_insert_ne hne, hother]
    · intro name other hother
      by_cases hname : name = manifest.name
      · subst hname
        have heq : provider = other := by simpa using hother
        exact Or.inr ⟨manifest, by simp, rfl, heq ▸ hconfiguration⟩
      · left
        rw [← hother]
        exact (AList.lookup_insert_ne hname).symm

/-- The loop keeps the providers that there are, and adds some of the manifests. -/
theorem startAll_extends {host : Host} {providers : List (PluginManifest × Kind)}
    {st st' : Starting} {result : Except Failure Unit}
    (h : startAll host providers st = (st', result)) :
    Extends (providers.map Prod.fst) st.initialized st'.initialized := by
  induction providers generalizing st with
  | nil =>
    cases h
    exact .refl _ _
  | cons entry providers ih =>
    obtain ⟨manifest, kind⟩ := entry
    simp only [startAll] at h
    split at h
    · next next hone =>
      have hfirst : Extends (manifest :: providers.map Prod.fst) st.initialized next.initialized :=
        (startOne_extends hone).1.mono (by simp)
      exact hfirst.trans ((ih h).mono fun _ => List.mem_cons_of_mem _)
    · cases h
      exact .refl _ _

end Wmfs.Runtime
