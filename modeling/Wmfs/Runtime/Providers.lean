import Mathlib.Logic.Relation
import Wmfs.Runtime.Close

/-!
# `Wmfs.Runtime.Providers`: the sessions of the in-process providers

Every `initialize` of a provider that returns begins a session, and its backend holds it in
`_initialized` until it shuts the provider down. What a `BundledBackend` does is a sequence of
`Turn`s: a session begins, or a provider is taken out of `_initialized` and shut down.

`Sessions` is what every run keeps: no provider is shut down twice, and each session of a provider
that declares a shutdown has been shut down, or one backend holds it. `shutDownOnce_of_reachable`
says so of every run. A Python provider may declare a shutdown and have none that can be called.
Nothing is called then, and its sessions do not count as declaring one. A `close` shuts down the providers of the backend that the runtime has. A backend that
`configure_bundled` has replaced is not closed any more, so `shutdown_exactly_once` is about runs
in which no backend is replaced while it holds a provider.
-/

set_option autoImplicit false

namespace Wmfs.Runtime

open Wmfs.Lib

/-! ### Turns -/

/-- A provider begins a session, or is shut down. -/
inductive Turn : Initialized × ProviderLog → Initialized × ProviderLog → Prop where
  | start (initialized : Initialized) (log : ProviderLog) (name : String)
      (provider : InitializedProvider) (hnew : initialized.lookup name = none)
      (hsession : provider.session = log.count) :
    Turn (initialized, log) (initialized.insert name provider, log.start provider.declares)
  | stop (initialized : Initialized) (log : ProviderLog) (name : String)
      (provider : InitializedProvider) (hfound : initialized.lookup name = some provider) :
    Turn (initialized, log) (initialized.erase name, log.shutdown provider)

/-- The steps that a loop over the providers makes. -/
abbrev Turns : Initialized × ProviderLog → Initialized × ProviderLog → Prop :=
  Relation.ReflTransGen Turn

/-- The loop that initializes providers. -/
theorem turns_startAll {host : Host} {providers : List (PluginManifest × Kind)} {st st' : Starting}
    {result : Except Failure Unit} (h : startAll host providers st = (st', result)) :
    Turns (st.initialized, st.log) (st'.initialized, st'.log) := by
  induction providers generalizing st with
  | nil =>
    cases h
    exact .refl
  | cons entry providers ih =>
    obtain ⟨manifest, kind⟩ := entry
    simp only [startAll] at h
    split at h
    · next next hone =>
      refine Relation.ReflTransGen.trans ?_ (ih h)
      rcases startOne_ok hone with ⟨rfl, -⟩ | ⟨hnew, provider, hsession, -, rfl⟩
      · exact .refl
      · exact .single (.start _ _ _ provider hnew hsession)
    · cases h
      exact .refl

/-- The loop that shuts down the providers of this call. -/
theorem turns_rollback (host : Host) (cause : Failure) (now : List String)
    (initialized : Initialized) (log : ProviderLog) :
    Turns (initialized, log) ((rollback host cause now initialized log).1,
      (rollback host cause now initialized log).2.1) := by
  induction now generalizing initialized log with
  | nil => exact .refl
  | cons name now ih =>
    unfold rollback
    cases hfound : initialized.lookup name with
    | none => exact .refl
    | some provider =>
      have hstop := Turn.stop initialized log name provider hfound
      dsimp only
      split
      · exact .head hstop (ih _ _)
      · exact .single hstop

/-- A whole `initialize`. -/
theorem turns_initializeProviders (host : Host) (manifests : List PluginManifest)
    (registry : OperationRegistry) (backend : BundledBackend) (log : ProviderLog) :
    Turns (backend.initialized, log)
      ((backend.initializeProviders host manifests registry log).1.initialized,
        (backend.initializeProviders host manifests registry log).2.1) := by
  have hcases := initializeProviders_cases host manifests registry backend log
  generalize backend.initializeProviders host manifests registry log = result at hcases
  cases hcases with
  | refused => exact .refl
  | started providers st hmanifests hloop => exact turns_startAll hloop
  | rolledBack providers st e hmanifests hloop =>
    exact (turns_startAll hloop).trans (turns_rollback ..)

/-- A whole `close`. -/
theorem turns_close (backend : BundledBackend) (log : ProviderLog) :
    Turns (backend.initialized, log) ((backend.close log).1.initialized, (backend.close log).2) := by
  show Turns (backend.initialized, log)
    (∅, backend.initialized.entries.foldl (fun log entry => log.shutdown entry.2) log)
  generalize backend.initialized = initialized
  obtain ⟨entries, hnodup⟩ := initialized
  induction entries generalizing log with
  | nil => exact .refl
  | cons entry entries ih =>
    obtain ⟨name, provider⟩ := entry
    have hstop := Turn.stop ⟨⟨name, provider⟩ :: entries, hnodup⟩ log name provider
      (List.dlookup_cons_eq ..)
    have herase : AList.erase name ⟨⟨name, provider⟩ :: entries, hnodup⟩ =
        ⟨entries, (List.nodupKeys_cons.mp hnodup).2⟩ := by
      apply AList.ext
      exact List.kerase_cons_eq rfl
    rw [herase] at hstop
    exact .head hstop (ih _ _)

/-! ### The accounts of the sessions -/

/-- The sessions are accounted for. `held b` has the providers of the backend `b`.

* `below`, `holder`, `declared`: what a backend knows of the sessions that it holds. No two hold
  one session.
* `running`: a session that is held has not been shut down.
* `silent`: a session that has not begun, or that declares no shutdown, is not shut down.
* `stopped`: every other session has been shut down once. -/
structure Sessions (held : Nat → Initialized) (log : ProviderLog) : Prop where
  below : ∀ b name provider, (held b).lookup name = some provider → provider.session < log.count
  holder : ∀ b b' name name' provider provider', (held b).lookup name = some provider →
    (held b').lookup name' = some provider' → provider.session = provider'.session →
      b = b' ∧ name = name'
  declared : ∀ b name provider, (held b).lookup name = some provider →
    log.declares provider.session = provider.declares
  running : ∀ b name provider, (held b).lookup name = some provider →
    log.shutdowns provider.session = 0
  silent : ∀ i, (i < log.count → log.declares i = false) → log.shutdowns i = 0
  stopped : ∀ i < log.count, log.declares i = true →
    (∀ b name provider, (held b).lookup name = some provider → provider.session ≠ i) →
      log.shutdowns i = 1

namespace Sessions

variable {held : Nat → Initialized} {log log' : ProviderLog} {b : Nat}
  {initialized : Initialized}

/-- A turn of one backend keeps the accounts. -/
theorem turn (h : Sessions held log) (hturn : Turn (held b, log) (initialized, log')) :
    Sessions (Function.update held b initialized) log' := by
  generalize hold : (held b, log) = old at hturn
  generalize hnew : (initialized, log') = new at hturn
  cases hturn with
  | start _ _ name provider hfree hsession =>
    cases hold
    cases hnew
    -- The holders are those before, and the new one.
    have hlookup : ∀ c other p,
        (Function.update held b ((held b).insert name provider) c).lookup other = some p →
          (c = b ∧ other = name ∧ p = provider) ∨ (held c).lookup other = some p := by
      intro c other p hp
      by_cases hc : c = b
      · subst hc
        rw [Function.update_self] at hp
        by_cases hother : other = name
        · subst hother
          rw [AList.lookup_insert, Option.some.injEq] at hp
          exact Or.inl ⟨rfl, rfl, hp.symm⟩
        · rw [AList.lookup_insert_ne hother] at hp
          exact Or.inr hp
      · rw [Function.update_of_ne hc] at hp
        exact Or.inr hp
    have hkept : ∀ c other p, (held c).lookup other = some p →
        (Function.update held b ((held b).insert name provider) c).lookup other = some p := by
      intro c other p hp
      by_cases hc : c = b
      · subst hc
        have hother : other ≠ name := by
          rintro rfl
          rw [hfree] at hp
          cases hp
        rw [Function.update_self, AList.lookup_insert_ne hother]
        exact hp
      · rw [Function.update_of_ne hc]
        exact hp
    constructor
    · intro c other p hp
      show p.session < log.count + 1
      rcases hlookup c other p hp with ⟨-, -, rfl⟩ | hp
      · omega
      · exact Nat.lt_succ_of_lt (h.below c other p hp)
    · intro c c' other other' p p' hp hp' hsame
      rcases hlookup c other p hp with ⟨rfl, rfl, rfl⟩ | hold
      · rcases hlookup c' other' p' hp' with ⟨rfl, rfl, rfl⟩ | hold'
        · exact ⟨rfl, rfl⟩
        · have hlt := h.below c' other' p' hold'
          omega
      · rcases hlookup c' other' p' hp' with ⟨rfl, rfl, rfl⟩ | hold'
        · have hlt := h.below c other p hold
          omega
        · exact h.holder c c' other other' p p' hold hold' hsame
    · intro c other p hp
      show Function.update log.declares log.count provider.declares p.session = p.declares
      rcases hlookup c other p hp with ⟨-, -, rfl⟩ | hp
      · rw [hsession, Function.update_self]
      · have hlt := h.below c other p hp
        rw [Function.update_of_ne (by omega)]
        exact h.declared c other p hp
    · intro c other p hp
      show log.shutdowns p.session = 0
      rcases hlookup c other p hp with ⟨-, -, rfl⟩ | hp
      · exact h.silent p.session (by omega)
      · exact h.running c other p hp
    · intro i hi
      show log.shutdowns i = 0
      apply h.silent i
      intro hlt
      have hdeclares : Function.update log.declares log.count provider.declares i = false :=
        hi (Nat.lt_succ_of_lt hlt)
      rwa [Function.update_of_ne (by omega)] at hdeclares
    · intro i hi hdeclares hnobody
      show log.shutdowns i = 1
      have hne : i ≠ log.count := by
        rintro rfl
        refine hnobody b name provider ?_ hsession
        rw [Function.update_self, AList.lookup_insert]
      have hlt : i < log.count := Nat.lt_of_le_of_ne (Nat.le_of_lt_succ hi) hne
      have hdeclares' : Function.update log.declares log.count provider.declares i = true :=
        hdeclares
      rw [Function.update_of_ne hne] at hdeclares'
      exact h.stopped i hlt hdeclares' fun c other p hp => hnobody c other p (hkept c other p hp)
  | stop _ _ name provider hfound =>
    cases hold
    cases hnew
    have hlookup : ∀ c other p,
        (Function.update held b ((held b).erase name) c).lookup other = some p →
          (held c).lookup other = some p ∧ ¬(c = b ∧ other = name) := by
      intro c other p hp
      by_cases hc : c = b
      · subst hc
        rw [Function.update_self] at hp
        by_cases hother : other = name
        · rw [hother, AList.lookup_erase] at hp
          cases hp
        · rw [AList.lookup_erase_ne hother] at hp
          exact ⟨hp, fun hboth => hother hboth.2⟩
      · rw [Function.update_of_ne hc] at hp
        exact ⟨hp, fun hboth => hc hboth.1⟩
    have hkept : ∀ c other p, (held c).lookup other = some p → ¬(c = b ∧ other = name) →
        (Function.update held b ((held b).erase name) c).lookup other = some p := by
      intro c other p hp hne
      by_cases hc : c = b
      · subst hc
        have hother : other ≠ name := fun hother => hne ⟨rfl, hother⟩
        rw [Function.update_self, AList.lookup_erase_ne hother]
        exact hp
      · rw [Function.update_of_ne hc]
        exact hp
    have hcount : (log.shutdown provider).count = log.count := by
      unfold ProviderLog.shutdown
      split <;> rfl
    have hdeclares : (log.shutdown provider).declares = log.declares := by
      unfold ProviderLog.shutdown
      split <;> rfl
    -- Only the session of this provider is shut down.
    have hother : ∀ i, i ≠ provider.session →
        (log.shutdown provider).shutdowns i = log.shutdowns i := by
      intro i hi
      unfold ProviderLog.shutdown
      split
      · exact Function.update_of_ne hi _ _
      · rfl
    have hthis : (log.shutdown provider).shutdowns provider.session =
        provider.declares.toNat := by
      have hzero := h.running b name provider hfound
      unfold ProviderLog.shutdown
      split
      next hdeclared =>
        show Function.update log.shutdowns provider.session _ provider.session = _
        rw [Function.update_self, hzero, hdeclared]
        rfl
      next hdeclared =>
        rw [hzero, Bool.eq_false_iff.mpr hdeclared]
        rfl
    constructor
    · intro c other p hp
      rw [hcount]
      exact h.below c other p (hlookup c other p hp).1
    · intro c c' other other' p p' hp hp'
      exact h.holder c c' other other' p p' (hlookup c other p hp).1 (hlookup c' other' p' hp').1
    · intro c other p hp
      rw [hdeclares]
      exact h.declared c other p (hlookup c other p hp).1
    · intro c other p hp
      obtain ⟨hp, hne⟩ := hlookup c other p hp
      rw [hother _ fun hsame => hne (h.holder c b other name p provider hp hfound hsame)]
      exact h.running c other p hp
    · intro i hi
      rw [hcount, hdeclares] at hi
      by_cases hsession : i = provider.session
      · have hfalse := hi (hsession ▸ h.below b name provider hfound)
        rw [hsession, h.declared b name provider hfound] at hfalse
        rw [hsession, hthis, hfalse]
        rfl
      · rw [hother i hsession]
        exact h.silent i hi
    · intro i hi hdeclared hnobody
      rw [hcount] at hi
      rw [hdeclares] at hdeclared
      by_cases hsession : i = provider.session
      · rw [hsession, h.declared b name provider hfound] at hdeclared
        rw [hsession, hthis, hdeclared]
        rfl
      · rw [hother i hsession]
        apply h.stopped i hi hdeclared
        intro c other p hp
        by_cases hboth : c = b ∧ other = name
        · obtain ⟨rfl, rfl⟩ := hboth
          rw [hfound, Option.some.injEq] at hp
          rw [← hp]
          exact fun heq => hsession heq.symm
        · exact hnobody c other p (hkept c other p hp hboth)

/-- Turns of one backend keep the accounts. -/
theorem turns (h : Sessions held log) (hturns : Turns (held b, log) (initialized, log')) :
    Sessions (Function.update held b initialized) log' := by
  generalize hnew : (initialized, log') = new at hturns
  induction hturns generalizing initialized log' with
  | refl =>
    cases hnew
    rw [Function.update_eq_self]
    exact h
  | @tail middle _ _ hturn ih =>
    obtain ⟨initialized', log''⟩ := middle
    have hmiddle := ih rfl
    subst hnew
    have hself : Function.update held b initialized' b = initialized' := Function.update_self ..
    have hlast := hmiddle.turn (b := b) (by rw [hself]; exact hturn)
    rwa [Function.update_idem] at hlast

end Sessions

/-! ### The runs -/

/-- The initialized providers of each bundled backend. -/
def State.held (s : State) : Nat → Initialized := fun b => (s.heap.bundled b).initialized

/-- What every run keeps. `closed`: a `close` has shut down the providers of the backend that it
has closed. -/
structure State.Accounted (s : State) : Prop where
  sessions : Sessions s.held s.heap.providers
  current : s.core.bundled < s.heap.bundledCount
  fresh : ∀ b, s.heap.bundledCount ≤ b → s.held b = ∅
  closed : ∀ c rest raised, s.calls c = .closing rest raised →
    .bundled s.core.bundled ∉ rest → s.held s.core.bundled = ∅

section
variable {naming : Naming} {s t : State} {call : CallId}

/-- A backend that has taken turns. -/
theorem held_update (heap : Heap) (id : Nat) (backend : BundledBackend) :
    (fun b => (Function.update heap.bundled id backend b).initialized) =
      Function.update (fun b => (heap.bundled b).initialized) id backend.initialized := by
  funext b
  by_cases hb : b = id
  · rw [hb, Function.update_self, Function.update_self]
  · rw [Function.update_of_ne hb, Function.update_of_ne hb]

/-- An `initialize` of a backend keeps the accounts. -/
theorem sessions_initializeBundled {heap heap' : Heap} {id : Nat} {host : Host}
    {manifests : List PluginManifest} {registry : OperationRegistry} {result : Except Failure Unit}
    (hsessions : Sessions (fun b => (heap.bundled b).initialized) heap.providers)
    (h : heap.initializeBundled id host manifests registry = (heap', result)) :
    Sessions (fun b => (heap'.bundled b).initialized) heap'.providers := by
  cases h
  show Sessions (fun b => (Function.update heap.bundled id _ b).initialized) _
  rw [held_update]
  exact hsessions.turns (turns_initializeProviders host manifests registry _ _)

/-- A `close` of a backend keeps the accounts. -/
theorem sessions_close {heap : Heap}
    (hsessions : Sessions (fun b => (heap.bundled b).initialized) heap.providers)
    (backend : BackendRef) :
    Sessions (fun b => ((heap.close backend).bundled b).initialized)
      (heap.close backend).providers := by
  cases backend with
  | isolated id => exact hsessions
  | bundled id =>
    show Sessions (fun b => (Function.update heap.bundled id _ b).initialized) _
    rw [held_update]
    exact hsessions.turns (turns_close _ _)

/-- A new backend holds nothing. -/
theorem held_newBundled {heap : Heap} (implementation : Implementation)
    (hfresh : (heap.bundled heap.bundledCount).initialized = ∅) :
    (fun b => ((heap.newBundled implementation).bundled b).initialized) =
      fun b => (heap.bundled b).initialized := by
  show (fun b => (Function.update heap.bundled heap.bundledCount _ b).initialized) = _
  rw [held_update]
  exact Function.update_eq_self_iff.mpr hfresh.symm

/-- The accounts of a state with the same bundled backends. -/
theorem State.Accounted.congr (h : s.Accounted) (hcurrent : t.core.bundled = s.core.bundled)
    (hbundled : t.heap.bundled = s.heap.bundled)
    (hcount : t.heap.bundledCount = s.heap.bundledCount)
    (hproviders : t.heap.providers = s.heap.providers)
    (hclosing : ∀ c rest raised, t.calls c = .closing rest raised →
      .bundled s.core.bundled ∉ rest → s.held s.core.bundled = ∅) : t.Accounted := by
  have hheld : t.held = s.held := by
    unfold State.held
    rw [hbundled]
  constructor
  · rw [hheld, hproviders]
    exact h.sessions
  · rw [hcurrent, hcount]
    exact h.current
  · rw [hheld, hcount]
    exact h.fresh
  · rw [hheld, hcurrent]
    exact hclosing

/-- An `initialize` of the bundled backend of a runtime that is open. -/
theorem State.Accounted.initialize (h : s.Accounted) (hinv : s.Inv) (hphase : s.phase = .opened)
    {heap : Heap} {host : Host} {manifests : List PluginManifest} {registry : OperationRegistry}
    {result : Except Failure Unit}
    (hinit : s.heap.initializeBundled s.core.bundled host manifests registry = (heap, result))
    (hcurrent : t.core.bundled = s.core.bundled) (hheap : t.heap = heap)
    (hcalls : t.calls = s.calls) : t.Accounted := by
  obtain ⟨-, -, hcount, hother⟩ := initializeBundled_frame hinit
  constructor
  · unfold State.held
    rw [hheap]
    exact sessions_initializeBundled h.sessions hinit
  · rw [hcurrent, hheap, hcount]
    exact h.current
  · intro b hb
    rw [hheap, hcount] at hb
    have hlt := h.current
    unfold State.held
    rw [hheap, hother b (by omega)]
    exact h.fresh b hb
  · intro c rest raised hc
    rw [hcalls] at hc
    exact absurd hc (hinv.not_closing hphase c rest raised)

/-- A request keeps the accounts. -/
theorem State.Accounted.request (h : s.Accounted) (hinv : s.Inv) {request : Request}
    {r : State × Except Failure Unit} (hrequested : Requested naming s request r) :
    r.1.Accounted := by
  cases hrequested with
  | raised => exact h
  | rolledBack _ _ _ _ _ _ _ hphase hinit => exact h.initialize hinv hphase hinit rfl rfl rfl
  | reloaded _ _ _ _ _ _ hphase _ hinit => exact h.initialize hinv hphase hinit rfl rfl rfl
  | selectBundled _ _ hphase hinit =>
    exact h.initialize hinv hphase hinit (by simp) (by simp) (by simp)
  | selectIsolated =>
    exact h.congr (by simp) (by simp) (by simp) (by simp) (by simpa using h.closed)
  | bundled _ implementation hphase =>
    have hheld : State.held { s with heap := s.heap.newBundled implementation } = s.held :=
      held_newBundled implementation (h.fresh _ (Nat.le_refl _))
    constructor
    · show Sessions (State.held { s with heap := s.heap.newBundled implementation }) _
      rw [hheld]
      exact h.sessions
    · exact Nat.lt_succ_self _
    · intro b hb
      show State.held { s with heap := s.heap.newBundled implementation } b = ∅
      rw [hheld]
      exact h.fresh b (Nat.le_of_succ_le hb)
    · intro c rest raised hc
      exact absurd hc (hinv.not_closing hphase c rest raised)
  | _ => exact h.congr rfl rfl rfl rfl h.closed

/-- A step of a call keeps the accounts. -/
theorem State.Accounted.trans (h : s.Accounted) (hinv : s.Inv) {pc : Pc}
    (hpc : s.calls call = pc) (htrans : Trans naming s call pc t) : t.Accounted := by
  -- The calls that close are those before.
  have hkeep : ∀ {pc' : Pc}, (∀ rest raised, pc' ≠ .closing rest raised) →
      ∀ c rest raised, Function.update s.calls call pc' c = .closing rest raised →
        .bundled s.core.bundled ∉ rest → s.held s.core.bundled = ∅ := by
    intro pc' hpc' c rest raised hc
    by_cases hcall : c = call
    · rw [hcall, Function.update_self] at hc
      exact absurd hc (hpc' rest raised)
    · rw [Function.update_of_ne hcall] at hc
      exact h.closed c rest raised hc
  cases htrans with
  | accept backend operation core _ _ hmarked =>
    have hcurrent : core.bundled = s.core.bundled := by
      cases hmarked with
      | operation name =>
        unfold Core.markInitialized
        split <;> rfl
      | tensor => rfl
    exact h.congr hcurrent rfl rfl rfl (hkeep (by simp))
  | move _ pc' hmoves => exact h.congr rfl rfl rfl rfl (hkeep (by cases hmoves <;> simp))
  | drain =>
    refine h.congr rfl rfl rfl rfl ?_
    intro c rest raised hc hrest
    by_cases hcall : c = call
    · rw [hcall] at hc
      simp only [Function.update_self, Pc.closing.injEq] at hc
      rw [← hc.1] at hrest
      simp [Core.backends] at hrest
    · exact h.closed c rest raised (by simpa [hcall] using hc) hrest
  | closeBackend backend rest raised raised' =>
    have hsuffix := hinv.rest call _ _ hpc
    have hsessions := sessions_close h.sessions backend
    cases backend with
    | isolated id =>
      refine h.congr rfl rfl rfl rfl ?_
      intro c others raised'' hc hothers
      by_cases hcall : c = call
      · rw [hcall] at hc
        simp only [Function.update_self, Pc.closing.injEq] at hc
        apply h.closed call _ _ hpc
        rw [List.mem_cons, not_or, hc.1]
        exact ⟨by simp, hothers⟩
      · exact h.closed c others raised'' (by simpa [hcall] using hc) hothers
    | bundled id =>
      -- The bundled backend is the current one.
      have hid : id = s.core.bundled := by
        have hmem := hsuffix.subset (List.mem_cons_self ..)
        cases hcurrent : s.core.isolated <;> simpa [Core.backends, hcurrent] using hmem
      have hempty : ∀ b, ((s.heap.close (.bundled id)).bundled b).initialized =
          if b = id then ∅ else (s.heap.bundled b).initialized := by
        intro b
        show (Function.update s.heap.bundled id _ b).initialized = _
        by_cases hb : b = id
        · rw [hb, Function.update_self, if_pos rfl]
        · rw [Function.update_of_ne hb, if_neg hb]
      constructor
      · exact hsessions
      · exact h.current
      · intro b hb
        have hlt := h.current
        have hcount : s.heap.bundledCount ≤ b := hb
        show ((s.heap.close (.bundled id)).bundled b).initialized = ∅
        rw [hempty, if_neg (by omega)]
        exact h.fresh b hb
      · intro c others raised'' _ _
        show ((s.heap.close (.bundled id)).bundled s.core.bundled).initialized = ∅
        rw [hempty, if_pos hid.symm]
  | reset raised =>
    have hheld : (s.reset call raised).held = s.held :=
      held_newBundled .auto (h.fresh _ (Nat.le_refl _))
    constructor
    · rw [hheld]
      exact h.sessions
    · exact Nat.lt_succ_self _
    · intro b hb
      rw [hheld]
      exact h.fresh b (Nat.le_of_succ_le hb)
    · intro c rest raised' _ _
      rw [hheld]
      exact h.fresh _ (Nat.le_refl _)
  | _ => exact h.congr rfl rfl rfl rfl (hkeep (by simp))

/-- In a new runtime no session has begun. -/
theorem accounted_init : State.init.Accounted := by
  constructor
  · constructor
    · intro b name provider h
      cases h
    · intro b b' name name' provider provider' h
      cases h
    · intro b name provider h
      cases h
    · intro b name provider h
      cases h
    · exact fun _ _ => rfl
    · intro i hi
      exact absurd hi (Nat.not_lt_zero i)
  · exact Nat.zero_lt_one
  · exact fun _ _ => rfl
  · intro c rest raised hc
    cases hc

/-- A step keeps what every run keeps. -/
theorem State.Accounted.preserved (h : s.Accounted) (hinv : s.Inv) {a : Act}
    (hstep : step naming s a = some t) : t.Accounted := by
  rcases trans_of_step hstep with ⟨request, -, rfl⟩ | ⟨call, -, htrans⟩
  · have hrequested : Requested naming s request _ := requested request
    exact h.request hinv hrequested
  · exact h.trans hinv rfl htrans

/-- In every run the sessions are accounted for. -/
theorem accounted_of_reachable (h : (runtimeMachine naming).Reachable s) :
    s.Inv ∧ s.Accounted :=
  h.invariant (I := fun s => s.Inv ∧ s.Accounted) ⟨inv_init, accounted_init⟩
    fun _ _ _ hi _ hstep => ⟨hi.1.preserved hstep, hi.2.preserved hi.1 hstep⟩

/-! ### Backends that are replaced -/

/-- `configure_bundled` replaces the bundled backend. -/
def Replaces (s : State) (a : Act) : Prop :=
  ∃ implementation, a = .request (.configureBundled implementation) ∧
    (s.configureBundled implementation).2 = .ok ()

/-- A step leaves a bundled backend that is not the current one as it was, or without providers. If
it was the current one, the step has replaced it. -/
def KeepsOthers (s : State) (a : Act) (t : State) : Prop :=
  ∀ b, b ≠ t.core.bundled → t.held b = ∅ ∨
    (t.held b = s.held b ∧ (b ≠ s.core.bundled ∨ Replaces s a))

/-- Nothing has happened to the backends. -/
theorem KeepsOthers.of_eq {a : Act} (hcurrent : t.core.bundled = s.core.bundled)
    (hheld : t.held = s.held) : KeepsOthers s a t := by
  intro b hb
  rw [hcurrent] at hb
  exact Or.inr ⟨by rw [hheld], Or.inl hb⟩

/-- A request initializes the current backend only, or replaces it. -/
theorem keepsOthers_request {request : Request} {r : State × Except Failure Unit}
    (hrequested : Requested naming s request r)
    (hraised : ∀ implementation, request = .configureBundled implementation →
      (s.configureBundled implementation).2 = r.2) :
    KeepsOthers s (.request request) r.1 := by
  have hinitialize : ∀ {heap : Heap} {host : Host} {manifests : List PluginManifest}
      {registry : OperationRegistry} {result : Except Failure Unit} {u : State},
      s.heap.initializeBundled s.core.bundled host manifests registry = (heap, result) →
        u.core.bundled = s.core.bundled → u.heap = heap →
          KeepsOthers s (.request request) u := by
    intro heap host manifests registry result u hinit hcurrent hheap b hb
    rw [hcurrent] at hb
    refine Or.inr ⟨?_, Or.inl hb⟩
    unfold State.held
    rw [hheap, (initializeBundled_frame hinit).2.2.2 b hb]
  cases hrequested with
  | rolledBack _ _ _ _ _ _ _ _ hinit => exact hinitialize hinit rfl rfl
  | reloaded _ _ _ _ _ _ _ _ hinit => exact hinitialize hinit rfl rfl
  | selectBundled _ _ _ hinit => exact hinitialize hinit (by simp) (by simp)
  | selectIsolated => exact .of_eq (by simp) (by funext b; simp [State.held])
  | bundled text implementation =>
    intro b hb
    have hne : b ≠ s.heap.bundledCount := hb
    refine Or.inr ⟨?_, Or.inr ⟨text, rfl, hraised text rfl⟩⟩
    show (Function.update s.heap.bundled s.heap.bundledCount _ b).initialized = _
    rw [Function.update_of_ne hne]
    rfl
  | _ => exact .of_eq rfl rfl

/-- A step of a call closes backends, or makes a new one in a `close`. -/
theorem keepsOthers_trans (h : s.Accounted) {pc : Pc} (hpc : s.calls call = pc) {a : Act}
    (htrans : Trans naming s call pc t) : KeepsOthers s a t := by
  cases htrans with
  | accept backend operation core _ _ hmarked =>
    have hcurrent : core.bundled = s.core.bundled := by
      cases hmarked with
      | operation name =>
        unfold Core.markInitialized
        split <;> rfl
      | tensor => rfl
    exact .of_eq hcurrent rfl
  | closeBackend backend rest =>
    cases backend with
    | isolated id => exact .of_eq rfl rfl
    | bundled id =>
      intro b hb
      show (Function.update s.heap.bundled id _ b).initialized = ∅ ∨
        ((Function.update s.heap.bundled id _ b).initialized = _ ∧ _)
      by_cases hid : b = id
      · rw [hid, Function.update_self]
        exact Or.inl rfl
      · rw [Function.update_of_ne hid]
        exact Or.inr ⟨rfl, Or.inl hb⟩
  | reset raised =>
    intro b _
    have hheld : (s.reset call raised).held = s.held :=
      held_newBundled .auto (h.fresh _ (Nat.le_refl _))
    rw [hheld]
    by_cases hcurrent : b = s.core.bundled
    · rw [hcurrent]
      exact Or.inl (h.closed call [] raised hpc (by simp))
    · exact Or.inr ⟨rfl, Or.inl hcurrent⟩
  | _ => exact .of_eq rfl rfl

/-- What a step does to the backends that are not the current one. -/
theorem keepsOthers_step (h : s.Accounted) {a : Act} (hstep : step naming s a = some t) :
    KeepsOthers s a t := by
  rcases trans_of_step hstep with ⟨request, rfl, rfl⟩ | ⟨call, -, htrans⟩
  · have hrequested : Requested naming s request _ := requested request
    refine keepsOthers_request hrequested ?_
    rintro implementation rfl
    rfl
  · exact keepsOthers_trans h rfl htrans

/-! ### Once, and exactly once -/

/-- A bundled backend holds the session. -/
def State.Holds (s : State) (b i : Nat) : Prop :=
  ∃ name provider, (s.held b).lookup name = some provider ∧ provider.session = i

/-- In the run that leads to `s`, `configure_bundled` has replaced the backend `b` while it held the
session. -/
def State.Replaced (naming : Naming) (s : State) (b i : Nat) : Prop :=
  ∃ u v a as, (runtimeMachine naming).Reachable u ∧ u.core.bundled = b ∧ u.Holds b i ∧
    Replaces u a ∧ step naming u a = some v ∧ (runtimeMachine naming).exec v as = some s

/-- The sessions of the providers.

* `once`: no provider is shut down twice in one session.
* `begun`: a provider is shut down only in a session that has begun, and only when it declares a
  shutdown that can be called.
* `held_or_ended`: such a session has been shut down and nobody holds it, or it runs and one
  backend holds it.
* `replaced`: a session that is held by another backend than the current one is held by a backend
  that `configure_bundled` has replaced while it held the session.
* `reset`: when a `close` has reset the runtime, the sessions that still run are held by such
  backends. -/
structure State.ShutDownOnce (naming : Naming) (s : State) : Prop where
  once : ∀ i, s.heap.providers.shutdowns i ≤ 1
  begun : ∀ i, 0 < s.heap.providers.shutdowns i →
    i < s.heap.providers.count ∧ s.heap.providers.declares i = true
  held_or_ended : ∀ i < s.heap.providers.count, s.heap.providers.declares i = true →
    (s.heap.providers.shutdowns i = 1 ∧ ∀ b, ¬s.Holds b i) ∨
      (s.heap.providers.shutdowns i = 0 ∧ ∃! b, s.Holds b i)
  replaced : ∀ b i, b ≠ s.core.bundled → s.Holds b i → s.Replaced naming b i
  reset : ∀ c t, step naming s (.reset c) = some t → ∀ i < t.heap.providers.count,
    t.heap.providers.declares i = true →
      t.heap.providers.shutdowns i = 1 ∨
        ∃ b, b ≠ s.core.bundled ∧ s.Holds b i ∧ s.Replaced naming b i

/-- A backend that is not the current one and holds a session has been replaced with it. -/
theorem replaced_of_reachable (h : (runtimeMachine naming).Reachable s) :
    ∀ b i, b ≠ s.core.bundled → s.Holds b i → s.Replaced naming b i := by
  refine h.invariant_of_reach
    (I := fun s => ∀ b i, b ≠ s.core.bundled → s.Holds b i → s.Replaced naming b i) ?_ ?_
  · intro b i _ hholds
    obtain ⟨name, provider, hfound, -⟩ := hholds
    cases hfound
  · intro u a v hu ih _ hstep b i hb hholds
    have hstep' : step naming u a = some v := hstep
    obtain ⟨name, provider, hfound, hsession⟩ := hholds
    rcases keepsOthers_step (accounted_of_reachable hu).2 hstep' b hb with hempty | ⟨hheld, hold⟩
    · rw [hempty] at hfound
      cases hfound
    · rw [hheld] at hfound
      have hholds : u.Holds b i := ⟨name, provider, hfound, hsession⟩
      by_cases hcurrent : b = u.core.bundled
      · -- The step replaces the backend.
        rcases hold with hne | hreplaces
        · exact absurd hcurrent hne
        · exact ⟨u, v, a, [], hu, hcurrent.symm, hholds, hreplaces, hstep', rfl⟩
      · -- An earlier step has.
        obtain ⟨w, x, a', as, hw, hbundled, hheld', hreplaces, hreplaced, hrun⟩ :=
          ih b i hcurrent hholds
        exact ⟨w, x, a', as ++ [a], hw, hbundled, hheld', hreplaces, hreplaced,
          Machine.exec_trans hrun (Machine.exec_single hstep)⟩

/-- A session has ended, or it is held. -/
theorem Sessions.ended_or_held {held : Nat → Initialized} {log : ProviderLog}
    (h : Sessions held log) {i : Nat} (hi : i < log.count) (hdeclares : log.declares i = true) :
    (log.shutdowns i = 1 ∧
        ∀ b name provider, (held b).lookup name = some provider → provider.session ≠ i) ∨
      ∃ b name provider, (held b).lookup name = some provider ∧ provider.session = i := by
  by_cases hheld : ∃ b name provider, (held b).lookup name = some provider ∧ provider.session = i
  · exact Or.inr hheld
  · have hnobody : ∀ b name provider, (held b).lookup name = some provider →
        provider.session ≠ i := by
      intro b name provider hfound hsession
      exact hheld ⟨b, name, provider, hfound, hsession⟩
    exact Or.inl ⟨h.stopped i hi hdeclares hnobody, hnobody⟩

/-- What the step `reset` meets. -/
theorem closing_of_reset {c : CallId} (h : step naming s (.reset c) = some t) :
    ∃ raised, s.calls c = .closing [] raised ∧ t = s.reset c raised := by
  have hat : stepAt naming s c (s.calls c) (.reset c) = some t := h
  generalize s.calls c = pc at hat
  unfold stepAt at hat
  split at hat <;> simp_all

/-- **No provider is shut down twice**, in every run. -/
theorem shutDownOnce_of_reachable (h : (runtimeMachine naming).Reachable s) :
    s.ShutDownOnce naming := by
  obtain ⟨hinv, haccounted⟩ := accounted_of_reachable h
  have hsessions := haccounted.sessions
  have hcases : ∀ i < s.heap.providers.count, s.heap.providers.declares i = true →
      (s.heap.providers.shutdowns i = 1 ∧ ∀ b, ¬s.Holds b i) ∨
        (s.heap.providers.shutdowns i = 0 ∧ ∃! b, s.Holds b i) := by
    intro i hi hdeclares
    rcases hsessions.ended_or_held hi hdeclares with ⟨hone, hnobody⟩ |
      ⟨b, name, provider, hfound, rfl⟩
    · left
      refine ⟨hone, ?_⟩
      rintro b ⟨name, provider, hfound, hsession⟩
      exact hnobody b name provider hfound hsession
    · right
      refine ⟨hsessions.running b name provider hfound, b, ⟨name, provider, hfound, rfl⟩, ?_⟩
      rintro b' ⟨name', provider', hfound', hsession⟩
      exact (hsessions.holder b' b name' name provider' provider hfound' hfound hsession).1
  constructor
  · intro i
    by_cases hdeclared : i < s.heap.providers.count ∧ s.heap.providers.declares i = true
    · rcases hcases i hdeclared.1 hdeclared.2 with ⟨hone, -⟩ | ⟨hzero, -⟩ <;> omega
    · have hzero := hsessions.silent i fun hi =>
        Bool.eq_false_iff.mpr fun hdeclares => hdeclared ⟨hi, hdeclares⟩
      omega
  · intro i hpos
    by_contra hdeclared
    have hzero := hsessions.silent i fun hi =>
      Bool.eq_false_iff.mpr fun hdeclares => hdeclared ⟨hi, hdeclares⟩
    omega
  · exact hcases
  · exact replaced_of_reachable h
  · intro c t hstep i hi hdeclares
    obtain ⟨raised, hpc, rfl⟩ := closing_of_reset hstep
    rcases hsessions.ended_or_held hi hdeclares with ⟨hone, -⟩ | ⟨b, name, provider, hfound, hsession⟩
    · exact Or.inl hone
    · have hne : b ≠ s.core.bundled := by
        rintro rfl
        rw [haccounted.closed c [] raised hpc (by simp)] at hfound
        cases hfound
      have hholds : s.Holds b i := ⟨name, provider, hfound, hsession⟩
      exact Or.inr ⟨b, hne, hholds, replaced_of_reachable h b i hne hholds⟩

/-- The provider of the plugin is held. -/
theorem shutDownOnce_plain :
    selectedState.heap.providers.count = 1 ∧ selectedState.ShutDownOnce plainNaming :=
  ⟨rfl, shutDownOnce_of_reachable reachable_selectedState⟩

/-- `configure_bundled` replaces no backend that holds a provider. -/
def KeepsProviders (s : State) (a : Act) : Prop :=
  ∀ implementation, a = .request (.configureBundled implementation) →
    (s.configureBundled implementation).2 = .ok () → s.held s.core.bundled = ∅

/-- Only the backend that the runtime has holds providers. -/
def State.Sole (s : State) : Prop := ∀ b, b ≠ s.core.bundled → s.held b = ∅

/-- What the runs that replace no such backend keep. -/
theorem sole_of_reach (h : (runtimeMachine naming).Reach KeepsProviders s) : s.Sole := by
  apply h.invariant_of_reach (fun _ _ => rfl)
  intro s a t hs hsole hkeeps hstep b hb
  obtain ⟨-, haccounted⟩ := accounted_of_reachable hs.reachable
  rcases keepsOthers_step haccounted hstep b hb with hempty | ⟨hheld, hold⟩
  · exact hempty
  · rw [hheld]
    by_cases hcurrent : b = s.core.bundled
    · rcases hold with hne | ⟨implementation, ha, hok⟩
      · exact absurd hcurrent hne
      · rw [hcurrent]
        exact hkeeps implementation ha hok
    · exact hsole b hcurrent

/-- **Every provider is shut down exactly once.** In the runs in which `configure_bundled` replaces
no backend that holds a provider, a `close` leaves every session that any bundled backend has ever
begun, and whose provider declares a shutdown that can be called, with exactly one. -/
theorem shutdown_exactly_once (h : (runtimeMachine naming).Reach KeepsProviders s) {c : CallId}
    (hstep : step naming s (.reset c) = some t) {i : Nat} (hi : i < t.heap.providers.count)
    (hdeclares : t.heap.providers.declares i = true) : t.heap.providers.shutdowns i = 1 := by
  rcases (shutDownOnce_of_reachable h.reachable).reset c t hstep i hi hdeclares with hone |
    ⟨b, hb, hholds, -⟩
  · exact hone
  · obtain ⟨name, provider, hfound, -⟩ := hholds
    rw [sole_of_reach h b hb] at hfound
    cases hfound

/-- A session has begun whose provider declares a shutdown. -/
def State.begun (s : State) : Bool :=
  decide (0 < s.heap.providers.count) && s.heap.providers.declares 0

/-- The provider of the plugin is shut down by the `close`. -/
theorem shutdown_exactly_once_plain :
    ∃ s t : State, step plainNaming s (.reset 1) = some t ∧ 0 < t.heap.providers.count ∧
      t.heap.providers.shutdowns 0 = 1 := by
  obtain ⟨s, hrun, htest⟩ :=
    Machine.exists_of_exec (M := runtimeMachine plainNaming) (s := State.init)
      (fun s => (step plainNaming s (.reset 1)).any State.begun) closingRun (by decide)
  obtain ⟨t, hstep, htest⟩ := (Option.any_eq_true ..).mp htest
  rw [State.begun, Bool.and_eq_true, decide_eq_true_iff] at htest
  have hreach : (runtimeMachine plainNaming).Reach KeepsProviders s := by
    refine Machine.Reach.exec .start ?_ hrun
    -- No step of the run is a `configure_bundled`.
    rintro u a ha implementation rfl
    simp [closingRun] at ha
  exact ⟨s, t, hstep, htest.1, shutdown_exactly_once hreach hstep htest.1 htest.2⟩

end

end Wmfs.Runtime
