import Mathlib.Tactic.Cases
import Wmfs.Session.MappingCache

/-!
# `Wmfs.Session.CacheAgreement`: the two mapping caches agree

`Agree` relates the cache of the session and the cache of the worker when no call is running:
the worker has only mappings that the session has, and a mapping of the session that the
worker does not have is one that has expired with an invocation whose completion is on its
way. While a call is running, the entries that the worker has still to apply stand between
the two. `replay` applies them. The invariant is that the worker accepts them all, and that
the caches agree afterwards.

The worker may finish an invocation in the middle of a batch. `replay_finishInvocation` shows
that this commutes with the rest of the batch, because the invocation that the batch maps for
has not submitted its command yet.
-/

set_option autoImplicit false

namespace Wmfs.Session.Cache

open Wmfs.Lib
open Wmfs.Control (MAX_FD_ENTRIES)

/-! ### Invocations -/

/-- The worker has not finished the invocation. -/
def Invocation.isOpen : Invocation → Bool
  | .active => true
  | .mapping => true
  | .aborting _ => true
  | .published => true
  | .abandoned => true
  | .lost => true
  | _ => false

/-- The worker has finished the invocation, and the session has not expired its mappings. -/
def Invocation.between : Invocation → Bool
  | .finished => true
  | .stranded => true
  | _ => false

/-! ### Agreement -/

/-- The caches agree, up to mappings that have expired at the worker. -/
structure Agree (invocations : Nat → Invocation) (client : Client) (worker : Worker) : Prop where
  worker_client : ∀ bufferId mapping, worker bufferId = some mapping →
    mapping.bufferId = bufferId ∧ mapping ∈ client
  client_worker : ∀ mapping ∈ client, worker mapping.bufferId = some mapping ∨
    (worker mapping.bufferId = none ∧ mapping.expires = true ∧
      (invocations mapping.invocationId).between = true)
  unique : ∀ a ∈ client, ∀ b ∈ client, a.bufferId = b.bufferId → a = b
  arena_writable : ∀ mapping ∈ client, mapping.arena = true → mapping.writable = true
  worker_open : ∀ bufferId mapping, worker bufferId = some mapping → mapping.expires = true →
    (invocations mapping.invocationId).isOpen = true

/-- The worker after it has applied the entries, or `none` when it refuses one. -/
def replay (worker : Worker) : List Entry → Option Worker
  | [] => some worker
  | entry :: rest =>
    match applyEntry worker entry with
    | .ok worker => replay worker rest
    | .error _ => none

section
variable {invocations : Nat → Invocation} {client : Client} {worker worker' : Worker}

/-! ### Keys -/

/-- The key of a mapping. -/
theorem hasKey_iff {mapping : Mapping} {bufferId generation : Nat} :
    mapping.hasKey bufferId generation = true ↔
      mapping.bufferId = bufferId ∧ mapping.generation = generation := by
  simp [Mapping.hasKey]

/-- The mapping that is found is one of the client. -/
theorem mem_of_find {bufferId generation : Nat} {mapping : Mapping}
    (h : find client bufferId generation = some mapping) :
    mapping ∈ client ∧ mapping.bufferId = bufferId ∧ mapping.generation = generation := by
  unfold find at h
  refine ⟨List.mem_of_find?_eq_some h, ?_⟩
  have hkey := List.find?_some h
  exact hasKey_iff.mp hkey

/-- What is left after the retired mappings are erased. -/
theorem mem_eraseAll {retired : List Mapping} {mapping : Mapping} :
    mapping ∈ eraseAll client retired ↔ mapping ∈ client ∧
      ∀ other ∈ retired, ¬(mapping.bufferId = other.bufferId ∧
        mapping.generation = other.generation) := by
  simp only [eraseAll, List.mem_filter, Bool.not_eq_true', List.any_eq_false, hasKey_iff]

/-- An assignment replaces the mapping with the same key. -/
theorem mem_assign {mapping other : Mapping} :
    other ∈ assign client mapping ↔ other = mapping ∨ (other ∈ client ∧
      ¬(other.bufferId = mapping.bufferId ∧ other.generation = mapping.generation)) := by
  simp only [assign, List.mem_cons, List.mem_filter, Bool.not_eq_true', ← Bool.not_eq_true,
    hasKey_iff]

/-- Nothing is erased. -/
theorem eraseAll_nil : eraseAll client [] = client := by
  simp [eraseAll]

/-- The lookup of a mapping of the session finds it. -/
theorem Agree.find_eq (h : Agree invocations client worker) {mapping : Mapping}
    (hmem : mapping ∈ client) : find client mapping.bufferId mapping.generation = some mapping := by
  obtain ⟨found, hfind⟩ : ∃ found, find client mapping.bufferId mapping.generation = some found := by
    refine Option.isSome_iff_exists.mp (List.find?_isSome.mpr ⟨mapping, hmem, ?_⟩)
    exact hasKey_iff.mpr ⟨rfl, rfl⟩
  -- The session has one mapping of a buffer.
  obtain ⟨hfound, hid, -⟩ := mem_of_find hfind
  rw [hfind, h.unique found hfound mapping hmem hid]

/-! ### Retiring -/

/-- The worker accepts the retirement of a mapping that it has, or whose buffer it does not
have. -/
theorem retire_eq_ok {mapping : Mapping} (harena : mapping.arena = false)
    (hsame : ∀ existing, worker mapping.bufferId = some existing → existing = mapping) :
    retire worker mapping = .ok (Function.update worker mapping.bufferId none) := by
  unfold retire
  split
  · rename_i hnone
    rw [← hnone, Function.update_eq_self]
  · rename_i existing hsome
    have heq := hsame existing hsome
    subst heq
    simp [harena]

/-- The worker after a list of retirements. -/
theorem replay_retires : ∀ (retired : List Mapping) (worker : Worker),
    (∀ mapping ∈ retired, mapping.arena = false ∧
      ∀ existing, worker mapping.bufferId = some existing → existing = mapping) →
    replay worker (retired.map .retire) =
      some fun bufferId => if bufferId ∈ retired.map Mapping.bufferId then none
        else worker bufferId := by
  intro retired
  induction retired with
  | nil => intro worker _; simp [replay]
  | cons mapping retired ih =>
    intro worker hall
    have hhead := hall mapping (by simp)
    rw [List.map_cons]
    simp only [replay, applyEntry, retire_eq_ok hhead.1 hhead.2]
    -- The head is retired, and the rest is replayed without its buffer.
    rw [ih (Function.update worker mapping.bufferId none)]
    · congr 1
      funext bufferId
      simp only [List.map_cons, List.mem_cons]
      by_cases heq : bufferId = mapping.bufferId
      · simp [heq]
      · simp [heq]
    · intro other hother
      refine ⟨(hall other (by simp [hother])).1, fun existing hsome => ?_⟩
      by_cases heq : other.bufferId = mapping.bufferId
      · rw [heq, Function.update_self] at hsome
        cases hsome
      · rw [Function.update_of_ne heq] at hsome
        exact (hall other (by simp [hother])).2 existing hsome

/-- Retiring mappings of the session keeps the agreement. -/
theorem Agree.retires (h : Agree invocations client worker) (retired : List Mapping)
    (hretired : ∀ mapping ∈ retired, mapping ∈ client ∧ mapping.arena = false) :
    ∃ worker', replay worker (retired.map .retire) = some worker' ∧
      Agree invocations (eraseAll client retired) worker' := by
  refine ⟨_, replay_retires retired worker fun mapping hmem => ⟨(hretired mapping hmem).2,
    fun existing hsome => ?_⟩, ?_⟩
  -- What the worker has for the buffer is the mapping of the session.
  · obtain ⟨hid, hexisting⟩ := h.worker_client _ _ hsome
    exact h.unique existing hexisting mapping (hretired mapping hmem).1 hid
  refine
    { worker_client := fun bufferId mapping hsome => ?_
      client_worker := fun mapping hmem => ?_
      unique := fun a ha b hb => h.unique a (mem_eraseAll.mp ha).1 b (mem_eraseAll.mp hb).1
      arena_writable := fun mapping hmem => h.arena_writable mapping (mem_eraseAll.mp hmem).1
      worker_open := fun bufferId mapping hsome => ?_ }
  · split at hsome
    · cases hsome
    · rename_i hnot
      obtain ⟨hid, hmem⟩ := h.worker_client _ _ hsome
      refine ⟨hid, mem_eraseAll.mpr ⟨hmem, fun other hother hkey => hnot ?_⟩⟩
      rw [← hid, hkey.1]
      exact List.mem_map_of_mem hother
  · obtain ⟨hclient, hkept⟩ := mem_eraseAll.mp hmem
    -- A retired mapping of the same buffer would be this one.
    have hnot : mapping.bufferId ∉ retired.map Mapping.bufferId := by
      intro hin
      obtain ⟨other, hother, hid⟩ := List.mem_map.mp hin
      have heq := h.unique other (hretired other hother).1 mapping hclient hid
      subst heq
      exact hkept other hother ⟨rfl, rfl⟩
    simp only [hnot, if_false]
    exact h.client_worker mapping hclient
  · split at hsome
    · cases hsome
    · exact h.worker_open bufferId mapping hsome

/-- The mappings that `retire_buffers` sends are those of the session. -/
theorem mem_planRetires {mappings : List Mapping} {mapping : Mapping}
    (h : mapping ∈ planRetires client mappings) : mapping ∈ client ∧ mapping.arena = false := by
  obtain ⟨key, -, hsome⟩ := List.mem_filterMap.mp h
  obtain ⟨hfind, harena⟩ := Option.filter_eq_some_iff.mp hsome
  exact ⟨(mem_of_find hfind).1, by simpa using harena⟩

/-! ### Mapping -/

/-- The worker accepts a mapping of a buffer that it does not have. -/
theorem Agree.map (h : Agree invocations client worker) {mapping : Mapping}
    (hnone : worker mapping.bufferId = none)
    (hgeneration : ∀ other ∈ client, other.bufferId = mapping.bufferId →
      other.generation = mapping.generation)
    (harena : mapping.arena = true → mapping.writable = true)
    (hopen : (invocations mapping.invocationId).isOpen = true) :
    applyEntry worker (.map mapping mapping.byteLength) =
        .ok (Function.update worker mapping.bufferId (some mapping)) ∧
      Agree invocations (assign client mapping)
        (Function.update worker mapping.bufferId (some mapping)) := by
  refine ⟨by simp [applyEntry, add, hnone], ?_⟩
  -- What the assignment keeps of the old cache is about other buffers.
  have hother : ∀ other, other ∈ client →
      ¬(other.bufferId = mapping.bufferId ∧ other.generation = mapping.generation) →
      other.bufferId ≠ mapping.bufferId := fun other hmem hkey hid =>
    hkey ⟨hid, hgeneration other hmem hid⟩
  refine
    { worker_client := fun bufferId other hsome => ?_
      client_worker := fun other hmem => ?_
      unique := fun a ha b hb hid => ?_
      arena_writable := fun other hmem => ?_
      worker_open := fun bufferId other hsome hexpires => ?_ }
  · by_cases heq : bufferId = mapping.bufferId
    · subst heq
      rw [Function.update_self] at hsome
      cases hsome
      exact ⟨rfl, mem_assign.mpr (Or.inl rfl)⟩
    · rw [Function.update_of_ne heq] at hsome
      obtain ⟨hid, hmem⟩ := h.worker_client _ _ hsome
      refine ⟨hid, mem_assign.mpr (Or.inr ⟨hmem, fun hkey => heq ?_⟩)⟩
      rw [← hid]
      exact hkey.1
  · rcases mem_assign.mp hmem with rfl | ⟨hmem, hkey⟩
    · rw [Function.update_self]
      exact Or.inl rfl
    · rw [Function.update_of_ne (hother other hmem hkey)]
      exact h.client_worker other hmem
  · rcases mem_assign.mp ha with ha | ⟨ha, hkeya⟩
    · rcases mem_assign.mp hb with hb | ⟨hb, hkeyb⟩
      · rw [ha, hb]
      · rw [ha] at hid
        exact absurd hid.symm (hother b hb hkeyb)
    · rcases mem_assign.mp hb with hb | ⟨hb, hkeyb⟩
      · rw [hb] at hid
        exact absurd hid (hother a ha hkeya)
      · exact h.unique a ha b hb hid
  · rcases mem_assign.mp hmem with rfl | ⟨hmem, -⟩
    · exact harena
    · exact h.arena_writable other hmem
  · by_cases heq : bufferId = mapping.bufferId
    · subst heq
      rw [Function.update_self] at hsome
      cases hsome
      exact hopen
    · rw [Function.update_of_ne heq] at hsome
      exact h.worker_open _ _ hsome hexpires

/-- A buffer that the session does not have is one that the worker does not have. -/
theorem Agree.worker_none (h : Agree invocations client worker) {bufferId : Nat}
    (hnone : ∀ mapping ∈ client, mapping.bufferId ≠ bufferId) : worker bufferId = none := by
  rcases hw : worker bufferId with _ | mapping
  · rfl
  · obtain ⟨hid, hmem⟩ := h.worker_client _ _ hw
    exact absurd hid (hnone mapping hmem)

/-- Erasing the key before an assignment makes no difference. -/
theorem assign_eraseAll {existing mapping : Mapping} (hid : existing.bufferId = mapping.bufferId)
    (hgeneration : existing.generation = mapping.generation) :
    assign (eraseAll client [existing]) mapping = assign client mapping := by
  unfold assign eraseAll
  rw [List.filter_filter]
  congr 1
  refine List.filter_congr fun other _ => ?_
  simp [hid, hgeneration]

/-- What is required of the arguments of `map_buffers`, with the invocations as they are. -/
structure Mappable (invocations : Nat → Invocation) (client : Client) (item : Mapping × Nat) :
    Prop where
  isOpen : (invocations item.1.invocationId).isOpen = true
  arena : item.1.arena = true → item.1.writable = true
  size : item.2 = item.1.byteLength
  generation : ∀ mapping ∈ client, mapping.bufferId = item.1.bufferId →
    mapping.generation = item.1.generation

/-- An item stays mappable when a mapping of the same call is assigned. -/
theorem Mappable.assign {item : Mapping × Nat} {other : Mapping}
    (h : Mappable invocations client item)
    (hsame : other.bufferId = item.1.bufferId → other.generation = item.1.generation) :
    Mappable invocations (Cache.assign client other) item where
  isOpen := h.isOpen
  arena := h.arena
  size := h.size
  generation := fun mapping hmem hid => by
    rcases mem_assign.mp hmem with rfl | ⟨hmem, -⟩
    · exact hsame hid
    · exact h.generation mapping hmem hid

/-- The worker accepts the entries of `map_buffers`, and the caches agree afterwards. -/
theorem Agree.planMaps : ∀ (items : List (Mapping × Nat)) (client : Client) (worker : Worker),
    Agree invocations client worker → (∀ item ∈ items, Mappable invocations client item) →
    (items.Pairwise fun a b => a.1.bufferId = b.1.bufferId → a.1.generation = b.1.generation) →
    ∃ worker', replay worker (Cache.planMaps client items).2 = some worker' ∧
      Agree invocations (Cache.planMaps client items).1 worker' := by
  intro items
  induction items with
  | nil => intro client worker h _ _; exact ⟨worker, rfl, h⟩
  | cons item rest ih =>
    intro client worker h hitems hpair
    obtain ⟨mapping, fdSize⟩ := item
    rw [List.pairwise_cons] at hpair
    have hitem := hitems (mapping, fdSize) (by simp)
    have hsize : fdSize = mapping.byteLength := hitem.size
    have hrest : ∀ item ∈ rest, Mappable invocations (Cache.assign client mapping) item :=
      fun item hmem => (hitems item (by simp [hmem])).assign (hpair.1 item hmem)
    rcases hfind : find client mapping.bufferId mapping.generation with _ | existing
    · -- The session has no generation of the buffer, and so the worker has none.
      -- A mapping of another generation is excluded by what the callers guarantee.
      have hnone : worker mapping.bufferId = none := by
        refine h.worker_none fun other hmem hid => ?_
        have hkey := List.find?_eq_none.mp hfind other hmem
        exact hkey (hasKey_iff.mpr ⟨hid, hitem.generation other hmem hid⟩)
      obtain ⟨happly, hagree⟩ := h.map hnone hitem.generation hitem.arena hitem.isOpen
      obtain ⟨worker', hreplay, hagree'⟩ := ih _ _ hagree hrest hpair.2
      refine ⟨worker', ?_, ?_⟩
      · simp only [Cache.planMaps, hfind, replay, hsize, happly]
        exact hreplay
      · simp only [Cache.planMaps, hfind]
        exact hagree'
    · obtain ⟨hmem, hid, hgeneration⟩ := mem_of_find hfind
      by_cases hupgrade : (!existing.writable && mapping.writable) = true
      · -- A read-only mapping is retired first. It is not the arena's, and it does not expire.
        have hreadonly : existing.writable = false := by
          simp only [Bool.and_eq_true, Bool.not_eq_true'] at hupgrade
          exact hupgrade.1
        have harena : existing.arena = false := by
          by_contra hne
          have hwritable := h.arena_writable existing hmem (by simpa using hne)
          rw [hreadonly] at hwritable
          cases hwritable
        obtain ⟨between, hretire, hagree⟩ := h.retires [existing] fun other hother => by
          cases List.mem_singleton.mp hother
          exact ⟨hmem, harena⟩
        have hnone : between mapping.bufferId = none := by
          refine hagree.worker_none fun other hother hid' => ?_
          obtain ⟨hother, hkey⟩ := mem_eraseAll.mp hother
          have heq := h.unique other hother existing hmem (hid'.trans hid.symm)
          exact hkey existing (by simp) ⟨by rw [heq], by rw [heq]⟩
        obtain ⟨happly, hassigned⟩ := hagree.map hnone
          (fun other hother => hitem.generation other (mem_eraseAll.mp hother).1) hitem.arena
          hitem.isOpen
        rw [assign_eraseAll hid hgeneration] at hassigned
        obtain ⟨worker', hreplay, hagree'⟩ := ih _ _ hassigned hrest hpair.2
        refine ⟨worker', ?_, ?_⟩
        · have hfirst : applyEntry worker (.retire existing) = .ok between := by
            simp only [List.map_cons, List.map_nil, replay] at hretire
            split at hretire
            · rename_i w hok
              cases hretire
              exact hok
            · cases hretire
          simp only [Cache.planMaps, hfind, hupgrade, if_true, replay, hfirst, hsize, happly]
          exact hreplay
        · simp only [Cache.planMaps, hfind, hupgrade, if_true]
          exact hagree'
      -- The mapping of the session is good enough, and nothing is sent.
      · have hskip : Cache.planMaps client ((mapping, fdSize) :: rest) =
            Cache.planMaps client rest := by
          simp only [Cache.planMaps, hfind, if_neg hupgrade]
        rw [hskip]
        exact ih client worker h (fun item hmem => hitems item (by simp [hmem])) hpair.2

/-- The mappings that `map_buffers` leaves are old ones or its arguments. -/
theorem mem_planMaps : ∀ (items : List (Mapping × Nat)) (client : Client) (mapping : Mapping),
    mapping ∈ (planMaps client items).1 → mapping ∈ client ∨ ∃ item ∈ items, item.1 = mapping := by
  intro items
  induction items with
  | nil => intro client mapping hmem; exact Or.inl hmem
  | cons item rest ih =>
    intro client mapping hmem
    obtain ⟨added, fdSize⟩ := item
    have hassigned : mapping ∈ (planMaps (assign client added) rest).1 →
        mapping ∈ client ∨ ∃ item ∈ (added, fdSize) :: rest, item.1 = mapping := by
      intro hin
      rcases ih _ _ hin with hold | ⟨item, hitem, heq⟩
      · rcases mem_assign.mp hold with rfl | ⟨hold, -⟩
        · exact Or.inr ⟨(mapping, fdSize), by simp, rfl⟩
        · exact Or.inl hold
      · exact Or.inr ⟨item, by simp [hitem], heq⟩
    unfold planMaps at hmem
    split at hmem
    · exact hassigned hmem
    · split at hmem
      · exact hassigned hmem
      · rcases ih _ _ hmem with hold | ⟨item, hitem, heq⟩
        · exact Or.inl hold
        · exact Or.inr ⟨item, by simp [hitem], heq⟩

/-- The mappings that `map_buffers` sends are its arguments. -/
theorem mem_planMaps_entries : ∀ (items : List (Mapping × Nat)) (client : Client)
    (mapping : Mapping) (fdSize : Nat), .map mapping fdSize ∈ (planMaps client items).2 →
    (mapping, fdSize) ∈ items := by
  intro items
  induction items with
  | nil => intro client mapping fdSize hmem; cases hmem
  | cons item rest ih =>
    intro client mapping fdSize hmem
    obtain ⟨added, size⟩ := item
    unfold planMaps at hmem
    split at hmem
    · rcases List.mem_cons.mp hmem with heq | hmem
      · cases heq
        simp
      · simp [ih _ _ _ hmem]
    · split at hmem
      · rcases List.mem_cons.mp hmem with heq | hmem
        · cases heq
        · rcases List.mem_cons.mp hmem with heq | hmem
          · cases heq
            simp
          · simp [ih _ _ _ hmem]
      · simp [ih _ _ _ hmem]

/-! ### Expiry -/

/-- The worker keeps the mappings that do not expire with the invocation. -/
theorem finishInvocation_eq_some {invocationId bufferId : Nat} {mapping : Mapping} :
    finishInvocation worker invocationId bufferId = some mapping ↔
      worker bufferId = some mapping ∧ mapping.expiresWith invocationId = false := by
  simp [finishInvocation, Option.filter_eq_some_iff]

/-- Finishing an invocation and changing one buffer commute. -/
theorem finishInvocation_update {invocationId bufferId : Nat} {entry : Option Mapping}
    (h : ∀ mapping, entry = some mapping → mapping.expiresWith invocationId = false) :
    finishInvocation (Function.update worker bufferId entry) invocationId =
      Function.update (finishInvocation worker invocationId) bufferId entry := by
  funext other
  by_cases heq : other = bufferId
  · subst heq
    rw [Function.update_self, finishInvocation, Function.update_self]
    rcases entry with _ | mapping
    · rfl
    · simp [h mapping rfl]
  · rw [Function.update_of_ne heq, finishInvocation, Function.update_of_ne heq, finishInvocation]

/-- An accepted entry of another invocation is accepted after the invocation is finished. -/
theorem applyEntry_finishInvocation (invocationId : Nat) {entry : Entry}
    (h : applyEntry worker entry = .ok worker')
    (hother : ∀ mapping fdSize, entry = .map mapping fdSize → mapping.invocationId ≠ invocationId) :
    applyEntry (finishInvocation worker invocationId) entry =
      .ok (finishInvocation worker' invocationId) := by
  cases entry with
  | map mapping fdSize =>
    have hne := hother mapping fdSize rfl
    have hkept : mapping.expiresWith invocationId = false := by
      simp [Mapping.expiresWith, hne]
    simp only [applyEntry, add] at h ⊢
    split at h
    · cases h
    rename_i hsize
    rw [if_neg hsize]
    split at h
    · rename_i hnone
      cases h
      have hnone' : finishInvocation worker invocationId mapping.bufferId = none := by
        simp [finishInvocation, hnone]
      rw [hnone']
      simp only
      rw [finishInvocation_update fun other hsome => by cases hsome; exact hkept]
    · rename_i existing hsome
      split at h
      · rename_i hsame
        cases h
        -- The existing mapping is one of the other invocation, and stays.
        have hsome' : finishInvocation worker invocationId mapping.bufferId = some existing := by
          refine finishInvocation_eq_some.mpr ⟨hsome, ?_⟩
          simp [Mapping.expiresWith, hsame.2.2.2.2.2, hne]
        rw [hsome']
        simp only
        rw [if_pos hsame]
      · cases h
  | retire mapping =>
    simp only [applyEntry, retire] at h ⊢
    split at h
    · rename_i hnone
      cases h
      have hnone' : finishInvocation worker invocationId mapping.bufferId = none := by
        simp [finishInvocation, hnone]
      rw [hnone']
    · rename_i existing hsome
      split at h
      · cases h
      rename_i hsame
      split at h
      · cases h
      rename_i harena
      cases h
      rw [finishInvocation_update fun other hnone => by cases hnone]
      by_cases hexpires : existing.expiresWith invocationId = true
      · -- The mapping is gone already.
        have hnone' : finishInvocation worker invocationId mapping.bufferId = none := by
          simp [finishInvocation, hsome, hexpires]
        have hself := Function.update_eq_self mapping.bufferId (finishInvocation worker invocationId)
        rw [hnone'] at hself
        rw [hself, hnone']
      · have hsome' : finishInvocation worker invocationId mapping.bufferId = some existing :=
          finishInvocation_eq_some.mpr ⟨hsome, by simpa using hexpires⟩
        rw [hsome']
        simp only
        rw [if_neg hsame, if_neg harena]

/-- The worker finishes an invocation in the middle of a batch of another one. -/
theorem replay_finishInvocation {invocationId : Nat} : ∀ (entries : List Entry)
    (worker : Worker), replay worker entries = some worker' →
    (∀ mapping fdSize, .map mapping fdSize ∈ entries → mapping.invocationId ≠ invocationId) →
    replay (finishInvocation worker invocationId) entries =
      some (finishInvocation worker' invocationId) := by
  intro entries
  -- Induction on the entries that are left, with any cache of the worker.
  induction entries with
  | nil =>
    intro worker h _
    cases h
    rfl
  | cons entry rest ih =>
    intro worker h hother
    simp only [replay] at h ⊢
    split at h
    · rename_i next hok
      have hstep := applyEntry_finishInvocation invocationId hok
        fun mapping fdSize heq => hother mapping fdSize (by simp [heq])
      rw [hstep]
      exact ih next h fun mapping fdSize hmem => hother mapping fdSize (by simp [hmem])
    · cases h

/-- An invocation moves on. -/
theorem Agree.goto (h : Agree invocations client worker) {invocationId : Nat}
    {invocation : Invocation}
    (hopen : (invocations invocationId).isOpen = true → invocation.isOpen = true)
    (hbetween : (invocations invocationId).between = true → invocation.between = true) :
    Agree (Function.update invocations invocationId invocation) client worker := by
  -- What holds of the invocation before holds of it afterwards, and the others are as they were.
  have hupdate : ∀ (p : Invocation → Bool), (p (invocations invocationId) = true → p invocation = true) →
      ∀ other, p (invocations other) = true →
      p (Function.update invocations invocationId invocation other) = true := by
    intro p hp other hother
    by_cases heq : other = invocationId
    · subst heq
      rw [Function.update_self]
      exact hp hother
    · rw [Function.update_of_ne heq]
      exact hother
  refine { h with
    client_worker := fun mapping hmem => ?_
    worker_open := fun bufferId mapping hsome hexpires => ?_ }
  · rcases h.client_worker mapping hmem with hsame | ⟨hnone, hexpires, hexpired⟩
    · exact Or.inl hsame
    · exact Or.inr ⟨hnone, hexpires, hupdate _ hbetween _ hexpired⟩
  · exact hupdate _ hopen _ (h.worker_open bufferId mapping hsome hexpires)

/-- The worker finishes an invocation. -/
theorem Agree.finish (h : Agree invocations client worker) {invocationId : Nat}
    {invocation : Invocation} (hbetween : invocation.between = true) :
    Agree (Function.update invocations invocationId invocation) client
      (finishInvocation worker invocationId) := by
  refine
    { worker_client := fun bufferId mapping hsome =>
        h.worker_client bufferId mapping (finishInvocation_eq_some.mp hsome).1
      client_worker := fun mapping hmem => ?_
      unique := h.unique
      arena_writable := h.arena_writable
      worker_open := fun bufferId mapping hsome hexpires => ?_ }
  · rcases h.client_worker mapping hmem with hsame | ⟨hnone, hexpires, hexpired⟩
    · by_cases hgone : mapping.expiresWith invocationId = true
      · -- The mapping has just expired.
        refine Or.inr ⟨by simp [finishInvocation, hsame, hgone], ?_, ?_⟩
        · simp only [Mapping.expiresWith, Bool.and_eq_true] at hgone
          exact hgone.1
        · simp only [Mapping.expiresWith, Bool.and_eq_true, beq_iff_eq] at hgone
          rw [hgone.2, Function.update_self]
          exact hbetween
      · exact Or.inl (finishInvocation_eq_some.mpr ⟨hsame, by simpa using hgone⟩)
    · refine Or.inr ⟨by simp [finishInvocation, hnone], hexpires, ?_⟩
      by_cases heq : mapping.invocationId = invocationId
      · rw [heq, Function.update_self]
        exact hbetween
      · rw [Function.update_of_ne heq]
        exact hexpired
  -- A mapping that the worker keeps belongs to another invocation, which is open as before.
  · obtain ⟨hworker, hkept⟩ := finishInvocation_eq_some.mp hsome
    have hne : mapping.invocationId ≠ invocationId := by
      intro heq
      simp [Mapping.expiresWith, hexpires, heq] at hkept
    rw [Function.update_of_ne hne]
    exact h.worker_open bufferId mapping hworker hexpires

/-- The session has no mapping left that expires with the invocation. -/
theorem Agree.done (h : Agree invocations client worker) {invocationId : Nat}
    (hnone : ∀ mapping ∈ client, mapping.expiresWith invocationId = false) :
    Agree (Function.update invocations invocationId .done) client worker := by
  -- A mapping that expires belongs to another invocation.
  have hne : ∀ mapping ∈ client, mapping.expires = true → mapping.invocationId ≠ invocationId := by
    intro mapping hmem hexpires heq
    have hkept := hnone mapping hmem
    simp [Mapping.expiresWith, hexpires, heq] at hkept
  refine { h with
    client_worker := fun mapping hmem => ?_
    worker_open := fun bufferId mapping hsome hexpires => ?_ }
  · rcases h.client_worker mapping hmem with hsame | ⟨hgone, hexpires, hexpired⟩
    · exact Or.inl hsame
    · rw [Function.update_of_ne (hne mapping hmem hexpires)]
      exact Or.inr ⟨hgone, hexpires, hexpired⟩
  · rw [Function.update_of_ne (hne mapping (h.worker_client _ _ hsome).2 hexpires)]
    exact h.worker_open bufferId mapping hsome hexpires

/-- The session expires the mappings of an invocation that the worker has finished. -/
theorem Agree.expire (h : Agree invocations client worker) (invocationId : Nat)
    (hfinished : (invocations invocationId).isOpen = false) :
    Agree invocations (Cache.expire client invocationId) worker := by
  have hmem : ∀ mapping, mapping ∈ Cache.expire client invocationId ↔
      mapping ∈ client ∧ mapping.expiresWith invocationId = false := by
    intro mapping
    simp [Cache.expire, List.mem_filter]
  refine
    { worker_client := fun bufferId mapping hsome => ?_
      client_worker := fun mapping hmapping => h.client_worker mapping ((hmem mapping).mp hmapping).1
      unique := fun a ha b hb => h.unique a ((hmem a).mp ha).1 b ((hmem b).mp hb).1
      arena_writable := fun mapping hmapping =>
        h.arena_writable mapping ((hmem mapping).mp hmapping).1
      worker_open := h.worker_open }
  obtain ⟨hid, hclient⟩ := h.worker_client bufferId mapping hsome
  refine ⟨hid, (hmem mapping).mpr ⟨hclient, ?_⟩⟩
  -- The worker has no mapping of the invocation.
  by_contra hexpires
  simp only [Mapping.expiresWith, Bool.not_eq_false, Bool.and_eq_true, beq_iff_eq] at hexpires
  have hopen := h.worker_open bufferId mapping hsome hexpires.1
  rw [hexpires.2, hfinished] at hopen
  cases hopen

end

/-! ### The invariant -/

/-- A running call: the worker accepts what is left of it, and the caches agree afterwards. -/
structure CallInv (s : State) (call : Call) : Prop where
  accepted : ∃ worker, replay s.worker (call.batch ++ call.queued) = some worker ∧
    Agree s.invocations (eraseAll s.client call.retired) worker
  mapping : ∀ mapping fdSize, .map mapping fdSize ∈ call.batch ++ call.queued →
    s.invocations mapping.invocationId = .mapping
  caller : ∀ invocationId, call.caller = some invocationId →
    s.invocations invocationId = .mapping ∨
      ∀ mapping ∈ eraseAll s.client call.retired, mapping.expiresWith invocationId = false

/-- The invariant of the two caches. -/
structure Inv (s : State) : Prop where
  rejected : s.rejected = none
  agree : s.call = none → Agree s.invocations s.client s.worker
  running : ∀ call, s.call = some call → CallInv s call
  aborting : ∀ invocationId expired, s.invocations invocationId = .aborting expired →
    ∀ mapping ∈ s.client, mapping.expiresWith invocationId = true → mapping ∈ expired

section
variable {s t : State} {invocationId : Nat}

/-- A step of another invocation does not take an invocation out of `map_buffers`. -/
theorem mapping_goto {invocation : Invocation} (hnot : s.invocations invocationId ≠ .mapping)
    {other : Nat} (h : s.invocations other = .mapping) :
    (s.goto invocationId invocation).invocations other = .mapping := by
  have hne : other ≠ invocationId := by
    rintro rfl
    exact hnot h
  show Function.update s.invocations invocationId invocation other = _
  rw [Function.update_of_ne hne]
  exact h

/-- An invocation that aborts has done so before another one has moved on. -/
theorem aborting_of_goto {invocation : Invocation} (hnot : ∀ expired, invocation ≠ .aborting expired)
    {other : Nat} {expired : List Mapping}
    (h : (s.goto invocationId invocation).invocations other = .aborting expired) :
    other ≠ invocationId ∧ s.invocations other = .aborting expired := by
  have hne : other ≠ invocationId := by
    rintro rfl
    simp only [State.goto, Function.update_self] at h
    exact hnot expired h
  simp only [State.goto, Function.update_of_ne hne] at h
  exact ⟨hne, h⟩

/-- An invocation that is not in a call moves on. -/
theorem Inv.goto (h : Inv s) {invocation : Invocation}
    (hnot : s.invocations invocationId ≠ .mapping)
    (hopen : (s.invocations invocationId).isOpen = true → invocation.isOpen = true)
    (hbetween : (s.invocations invocationId).between = true → invocation.between = true)
    (haborting : ∀ expired, invocation = .aborting expired →
      ∀ mapping ∈ s.client, mapping.expiresWith invocationId = true → mapping ∈ expired) :
    Inv (s.goto invocationId invocation) := by
  refine
    { rejected := h.rejected
      agree := fun hcall => (h.agree hcall).goto hopen hbetween
      running := fun call hcall => ?_
      aborting := fun other expired hother => ?_ }
  · have hrunning := h.running call hcall
    obtain ⟨worker, hreplay, hagree⟩ := hrunning.accepted
    refine ⟨⟨worker, hreplay, hagree.goto hopen hbetween⟩, fun mapping fdSize hmem => ?_,
      fun other hother => ?_⟩
    · exact mapping_goto hnot (hrunning.mapping mapping fdSize hmem)
    · exact (hrunning.caller other hother).imp (mapping_goto hnot) id
  · by_cases heq : other = invocationId
    · subst heq
      simp only [State.goto, Function.update_self] at hother
      exact haborting expired hother
    · simp only [State.goto, Function.update_of_ne heq] at hother
      exact h.aborting other expired hother

/-- An invocation that the worker has not finished goes on, and is still not finished. -/
theorem Inv.goto_open (h : Inv s) {before after : Invocation}
    (hbefore : s.invocations invocationId = before) (hnot : before ≠ .mapping)
    (hbetween : before.between = false) (hopen : after.isOpen = true)
    (haborting : ∀ expired, after ≠ .aborting expired) : Inv (s.goto invocationId after) := by
  subst hbefore
  refine h.goto hnot (fun _ => hopen) (fun hfinished => ?_) fun expired heq =>
    absurd heq (haborting expired)
  rw [hbetween] at hfinished
  cases hfinished

/-- The start of `map_buffers` keeps the invariant. -/
theorem inv_mapBuffers (h : Inv s) {items : List (Mapping × Nat)}
    (hs : mapBuffers s invocationId items = some t) : Inv t := by
  unfold mapBuffers at hs
  split at hs
  swap
  · cases hs
  rename_i hcall hactive
  split at hs
  swap
  · cases hs
  rename_i hallowed
  simp only at hs
  split at hs
  · cases hs
    exact h
  cases hs
  obtain ⟨hitems, hpair⟩ := hallowed
  -- The invocation is in the call now, and is open as it was.
  have hagree : Agree (Function.update s.invocations invocationId .mapping) s.client s.worker :=
    (h.agree hcall).goto (fun _ => rfl) (fun hbetween => by rw [hactive] at hbetween; cases hbetween)
  have hmappable : ∀ item ∈ items,
      Mappable (Function.update s.invocations invocationId .mapping) s.client item := by
    intro item hmem
    obtain ⟨hid, harena, hsize, hgeneration⟩ := hitems item hmem
    refine ⟨?_, harena, hsize, hgeneration⟩
    rw [hid, Function.update_self]
    rfl
  -- The worker will accept the planned entries, whatever the batches are.
  obtain ⟨worker, hreplay, hafter⟩ := Agree.planMaps items s.client s.worker hagree hmappable hpair
  refine
    { rejected := h.rejected
      agree := fun hnone => by cases hnone
      running := fun call hsome => ?_
      aborting := fun other expired hother mapping hmem hexpires => ?_ }
  · cases hsome
    refine ⟨⟨worker, hreplay, ?_⟩, fun mapping fdSize hmem => ?_, fun other hother => Or.inl ?_⟩
    · rw [eraseAll_nil]
      exact hafter
    · have hitem := mem_planMaps_entries items s.client mapping fdSize hmem
      show Function.update s.invocations invocationId .mapping _ = _
      rw [(hitems _ hitem).1, Function.update_self]
    · cases hother
      exact Function.update_self ..
  · obtain ⟨hne, hother⟩ := aborting_of_goto (fun _ heq => by cases heq) hother
    rcases mem_planMaps items s.client mapping hmem with hold | ⟨item, hitem, rfl⟩
    · exact h.aborting other expired hother mapping hold hexpires
    -- A new mapping expires with the invocation that maps it.
    · simp only [Mapping.expiresWith, Bool.and_eq_true, beq_iff_eq] at hexpires
      exact absurd (hexpires.2.symm.trans (hitems item hitem).1) hne

/-- The start of `retire_buffers` keeps the invariant. The mappings of a caller that aborts
its invocation are all retired. -/
theorem inv_retireBuffers (h : Inv s) {mappings : List Mapping} {caller : Option Nat}
    (hcaller : ∀ invocationId, caller = some invocationId →
      s.invocations invocationId = .aborting mappings)
    (hs : retireBuffers s mappings caller = some t) : Inv t := by
  unfold retireBuffers at hs
  split at hs
  · cases hs
  rename_i hcall
  have hagree := h.agree hcall
  have hall : ∀ invocationId, caller = some invocationId →
      ∀ mapping ∈ eraseAll s.client (planRetires s.client mappings),
        mapping.expiresWith invocationId = false := by
    intro invocationId heq mapping hmem
    obtain ⟨hclient, hkept⟩ := mem_eraseAll.mp hmem
    by_contra hexpires
    simp only [Bool.not_eq_false] at hexpires
    have hexpired := h.aborting invocationId mappings (hcaller invocationId heq) mapping hclient
      hexpires
    -- The lookup of its key returns the mapping itself, and it is not an arena mapping.
    refine hkept mapping (List.mem_filterMap.mpr ⟨mapping, hexpired, ?_⟩) ⟨rfl, rfl⟩
    simp only [Mapping.expiresWith, Mapping.expires, Bool.and_eq_true] at hexpires
    rw [hagree.find_eq hclient, Option.filter_eq_some_iff]
    exact ⟨rfl, hexpires.1.2⟩
  simp only at hs
  split at hs
  · -- There is nothing to retire.
    rename_i hempty
    rw [List.isEmpty_iff] at hempty
    rw [hempty, eraseAll_nil] at hall
    split at hs
    · rename_i invocationId
      cases hs
      refine
        { rejected := h.rejected
          agree := fun _ => hagree.done (hall invocationId rfl)
          running := fun call hsome => by rw [State.goto, hcall] at hsome; cases hsome
          aborting := fun other expired hother => ?_ }
      exact h.aborting other expired (aborting_of_goto (fun _ heq => by cases heq) hother).2
    · cases hs
      exact h
  · cases hs
    refine
      { rejected := h.rejected
        agree := fun hnone => by cases hnone
        running := fun call hsome => ?_
        aborting := h.aborting }
    cases hsome
    -- The client cache is changed at the end of the call, the worker entry by entry.
    refine ⟨hagree.retires _ fun mapping hmem => mem_planRetires hmem,
      fun mapping fdSize hmem => ?_, fun invocationId heq => Or.inr (hall invocationId heq)⟩
    obtain ⟨retired, -, heq⟩ := List.mem_map.mp hmem
    cases heq

/-- Sending a batch keeps the invariant. -/
theorem inv_send (h : Inv s) (hs : send s = some t) : Inv t := by
  unfold send at hs
  split at hs
  swap
  · cases hs
  rename_i entry queued retired caller hcall
  cases hs
  have hrunning := h.running _ hcall
  refine
    { rejected := h.rejected
      agree := fun hnone => by cases hnone
      running := fun call hsome => ?_
      aborting := h.aborting }
  cases hsome
  -- Cutting off a batch changes the order of nothing.
  have hentries : (entry :: queued).take MAX_FD_ENTRIES ++ (entry :: queued).drop MAX_FD_ENTRIES =
      [] ++ entry :: queued := List.take_append_drop _ _
  refine ⟨?_, ?_, hrunning.caller⟩
  · rw [hentries]
    exact hrunning.accepted
  · rw [hentries]
    exact hrunning.mapping

/-- Applying an entry keeps the invariant: the worker accepts it. -/
theorem inv_applyNext (h : Inv s) (hs : applyNext s = some t) : Inv t := by
  unfold applyNext at hs
  split at hs
  swap
  · cases hs
  rename_i entry batch queued retired caller hcall
  have hrunning := h.running _ hcall
  obtain ⟨worker, hreplay, hagree⟩ := hrunning.accepted
  simp only [List.cons_append, replay] at hreplay
  split at hreplay
  swap
  · cases hreplay
  -- The invariant says that the worker accepts the entry, so that the error branch is not taken.
  rename_i next hok
  rw [hok] at hs
  cases hs
  refine
    { rejected := h.rejected
      agree := fun hnone => by cases hnone
      running := fun call hsome => ?_
      aborting := h.aborting }
  cases hsome
  exact ⟨⟨worker, hreplay, hagree⟩,
    fun mapping fdSize hmem => hrunning.mapping mapping fdSize (List.mem_cons_of_mem _ hmem),
    hrunning.caller⟩

/-- The end of a call keeps the invariant. -/
theorem inv_endCall (h : Inv s) (hs : endCall s = some t) : Inv t := by
  unfold endCall at hs
  split at hs
  swap
  · cases hs
  rename_i retired caller hcall
  cases hs
  have hrunning := h.running _ hcall
  obtain ⟨worker, hreplay, hagree⟩ := hrunning.accepted
  cases hreplay
  -- The call is over, and its caller has not gone on yet.
  have hreturned : Inv { s with client := eraseAll s.client retired, call := none } :=
    { rejected := h.rejected
      agree := fun _ => hagree
      running := fun call hsome => by cases hsome
      aborting := fun other expired hother mapping hmem =>
        h.aborting other expired hother mapping (mem_eraseAll.mp hmem).1 }
  cases caller with
  | none => exact hreturned
  | some invocationId =>
    -- A caller in `map_buffers` goes on, and one in `abort_invocation` is over.
    simp only [State.resume]
    split
    · rename_i hmapping
      refine
        { rejected := h.rejected
          agree := fun _ => hagree.goto (fun _ => rfl) fun hbetween => ?_
          running := fun call hsome => by cases hsome
          aborting := fun other expired hother => ?_ }
      · change (s.invocations invocationId).between = true at hbetween
        change s.invocations invocationId = _ at hmapping
        rw [hmapping] at hbetween
        cases hbetween
      · exact hreturned.aborting other expired
          (aborting_of_goto (fun _ heq => by cases heq) hother).2
    · rename_i expired haborting
      change s.invocations invocationId = _ at haborting
      refine
        { rejected := h.rejected
          agree := fun _ => hagree.done ?_
          running := fun call hsome => by cases hsome
          aborting := fun other expired' hother => ?_ }
      -- What the abort has retired is all that expires with the invocation.
      · rcases hrunning.caller invocationId rfl with hmapping | hnone
        · rw [haborting] at hmapping
          cases hmapping
        · exact hnone
      · exact hreturned.aborting other expired'
          (aborting_of_goto (fun _ heq => by cases heq) hother).2
    · exact hreturned

/-- The worker finishes an invocation, also in the middle of a batch. -/
theorem Inv.finish (h : Inv s) {invocation : Invocation}
    (hnot : s.invocations invocationId ≠ .mapping) (hbetween : invocation.between = true) :
    Inv { s.goto invocationId invocation with
      worker := finishInvocation s.worker invocationId } := by
  refine
    { rejected := h.rejected
      agree := fun hcall => (h.agree hcall).finish hbetween
      running := fun call hcall => ?_
      aborting := fun other expired hother => ?_ }
  · have hrunning := h.running call hcall
    obtain ⟨worker, hreplay, hagree⟩ := hrunning.accepted
    -- The rest of the batch maps for an invocation that is still in `map_buffers`.
    refine ⟨⟨_, replay_finishInvocation _ _ hreplay fun mapping fdSize hmem heq => ?_,
      hagree.finish hbetween⟩, fun mapping fdSize hmem => ?_, fun other hother => ?_⟩
    · exact hnot (heq ▸ hrunning.mapping mapping fdSize hmem)
    · exact mapping_goto hnot (hrunning.mapping mapping fdSize hmem)
    · exact (hrunning.caller other hother).imp (mapping_goto hnot) id
  · refine h.aborting other expired (aborting_of_goto (fun expired heq => ?_) hother).2
    rw [heq] at hbetween
    cases hbetween

/-- The session expires the mappings of a finished invocation. -/
theorem inv_complete (h : Inv s) (hs : complete s invocationId = some t) : Inv t := by
  unfold complete at hs
  split at hs
  swap
  · cases hs
  rename_i hcall hfinished
  cases hs
  have hagree := (h.agree hcall).expire invocationId (by rw [hfinished]; rfl)
  have hmem : ∀ mapping, mapping ∈ expire s.client invocationId →
      mapping ∈ s.client ∧ mapping.expiresWith invocationId = false := by
    intro mapping hmapping
    simpa [expire, List.mem_filter] using hmapping
  refine
    { rejected := h.rejected
      agree := fun _ => hagree.done fun mapping hmapping => (hmem mapping hmapping).2
      running := fun call hsome => by rw [State.goto, hcall] at hsome; cases hsome
      aborting := fun other expired hother mapping hmapping => ?_ }
  have hbefore := (aborting_of_goto (fun _ heq => by cases heq) hother).2
  exact h.aborting other expired hbefore mapping (hmem mapping hmapping).1

/-- Every step keeps the invariant. -/
theorem inv_step (h : Inv s) {act : Act} (hs : step s act = some t) : Inv t := by
  cases act with
  | begin invocationId =>
    simp only [step] at hs
    split at hs
    · rename_i hidle
      cases hs
      exact h.goto_open hidle (by simp) rfl rfl (by simp)
    · rename_i hdone
      cases hs
      exact h.goto_open hdone (by simp) rfl rfl (by simp)
    · cases hs
  | mapBuffers invocationId items => exact inv_mapBuffers h hs
  | planOutputs invocationId =>
    simp only [step] at hs
    split at hs
    · cases hs
      exact h
    · cases hs
  | retireBuffers mappings => exact inv_retireBuffers h (fun _ heq => by cases heq) hs
  | abortInvocation invocationId =>
    simp only [step, abortInvocation] at hs
    split at hs
    swap
    · cases hs
    rename_i hcall hactive
    cases hs
    refine h.goto (by rw [hactive]; simp) (fun _ => rfl)
      (fun hbetween => by rw [hactive] at hbetween; cases hbetween)
      (fun expired heq mapping hmem hexpires => ?_)
    cases heq
    exact List.mem_filter.mpr ⟨hmem, hexpires⟩
  | abortRetire invocationId =>
    simp only [step] at hs
    split at hs
    · rename_i expired haborting
      refine inv_retireBuffers h (fun other heq => ?_) hs
      cases heq
      exact haborting
    · cases hs
  | send => exact inv_send h hs
  | applyNext => exact inv_applyNext h hs
  | endCall => exact inv_endCall h hs
  | publish invocationId =>
    simp only [step] at hs
    split at hs
    · rename_i hactive
      cases hs
      exact h.goto_open hactive (by simp) rfl rfl (by simp)
    · cases hs
  | finish invocationId =>
    simp only [step, finish] at hs
    split at hs
    · rename_i hpublished
      cases hs
      exact h.finish (by rw [hpublished]; simp) rfl
    · rename_i habandoned
      cases hs
      exact h.finish (by rw [habandoned]; simp) rfl
    · cases hs
  | complete invocationId => exact inv_complete h hs
  | fail invocationId =>
    simp only [step, fail] at hs
    split at hs
    · rename_i hactive
      cases hs
      exact h.goto_open hactive (by simp) rfl rfl (by simp)
    · rename_i hpublished
      cases hs
      exact h.goto_open hpublished (by simp) rfl rfl (by simp)
    · rename_i hfinished
      cases hs
      exact h.goto (by rw [hfinished]; simp)
        (fun hopen => by rw [hfinished] at hopen; cases hopen) (fun _ => rfl)
        (fun _ heq => by cases heq)
    · cases hs

/-- A new session. -/
theorem inv_init : Inv .init where
  rejected := rfl
  agree := fun _ =>
    { worker_client := fun _ _ hsome => by cases hsome
      client_worker := fun _ hmem => by cases hmem
      unique := fun _ hmem => by cases hmem
      arena_writable := fun _ hmem => by cases hmem
      worker_open := fun _ _ hsome => by cases hsome }
  running := fun _ hsome => by cases hsome
  aborting := fun _ _ heq => by cases heq

end

/-! ### The law of the caches -/

/-- The agreement of the two caches.

* `accepted`: the worker has refused no batch.
* `sound`: between two calls, the worker has only mappings that the session has.
* `complete`: between two calls, a mapping of the session that the worker does not have has
  expired with an invocation that the session has not expired yet.
* `equal`: between two calls, and when there is no such invocation, the caches have the same
  mappings with the same generation, allocation, access and invocation. -/
structure CacheLaw (s : State) : Prop where
  accepted : s.rejected = none
  sound : s.call = none → ∀ bufferId mapping, s.worker bufferId = some mapping →
    mapping.bufferId = bufferId ∧ mapping ∈ s.client
  complete : s.call = none → ∀ mapping ∈ s.client, s.worker mapping.bufferId = some mapping ∨
    (s.worker mapping.bufferId = none ∧ mapping.expires = true ∧
      (s.invocations mapping.invocationId).between = true)
  equal : s.call = none → (∀ invocationId, (s.invocations invocationId).between = false) →
    ∀ bufferId mapping, s.worker bufferId = some mapping ↔
      mapping.bufferId = bufferId ∧ find s.client bufferId mapping.generation = some mapping

/-- The law of the caches holds in every run. -/
theorem cacheLaw_of_reachable (s : State) (h : cacheMachine.Reachable s) : CacheLaw s := by
  have hinv : Inv s := h.invariant (I := Inv) inv_init fun _ _ _ hinv _ hs => inv_step hinv hs
  refine
    { accepted := hinv.rejected
      sound := fun hcall => (hinv.agree hcall).worker_client
      complete := fun hcall => (hinv.agree hcall).client_worker
      equal := fun hcall hsettled bufferId mapping => ⟨fun hsome => ?_, fun hfind => ?_⟩ }
  · have hagree := hinv.agree hcall
    obtain ⟨hid, hmem⟩ := hagree.worker_client bufferId mapping hsome
    rw [← hid]
    exact ⟨rfl, hagree.find_eq hmem⟩
  · obtain ⟨hmem, hid, -⟩ := mem_of_find hfind.2
    rcases (hinv.agree hcall).client_worker mapping hmem with hsame | ⟨-, -, hbetween⟩
    · rw [← hid]
      exact hsame
    · rw [hsettled] at hbetween
      cases hbetween

/-- A buffer that one invocation has mapped for reading is mapped for writing by another one.
The worker finishes that invocation in the middle of a retirement of another buffer. -/
theorem cacheLaw_upgrade :
    ∃ s, cacheMachine.Reachable s ∧ s.client = [⟨9, 1, 3, 64, true, true, 1⟩] ∧ CacheLaw s := by
  obtain ⟨s, hrun, hclient⟩ := Machine.exists_of_exec (M := cacheMachine) (s := .init)
    (fun s => s.client == [⟨9, 1, 3, 64, true, true, 1⟩])
    [.begin 1, .mapBuffers 1 [(⟨7, 1, 1, 10, false, false, 1⟩, 10),
        (⟨8, 1, 2, 20, false, false, 1⟩, 20), (⟨9, 1, 3, 64, true, true, 1⟩, 64)],
      .send, .applyNext, .applyNext, .applyNext, .endCall, .publish 1, .finish 1, .complete 1,
      .begin 2, .mapBuffers 2 [(⟨7, 1, 1, 10, false, false, 2⟩, 10),
        (⟨7, 1, 1, 10, true, false, 2⟩, 10)],
      .send, .applyNext, .applyNext, .endCall, .publish 2,
      .retireBuffers [⟨8, 1, 2, 20, false, false, 0⟩], .send, .finish 2, .applyNext, .endCall,
      .complete 2] (by decide)
  have hreach := Machine.reachable_of_exec hrun
  exact ⟨s, hreach, by simpa using hclient, cacheLaw_of_reachable s hreach⟩

end Wmfs.Session.Cache
