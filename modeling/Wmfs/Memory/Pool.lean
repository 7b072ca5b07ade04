import Mathlib.Data.List.Dedup
import Mathlib.Data.List.Pairwise
import Mathlib.Tactic.Cases
import Wmfs.Lib.Dict
import Wmfs.Memory.Model

/-!
# `Wmfs.Memory.Pool`: the identity of pooled regions

In pooled mode a region is owned by a live allocation, by the pool, or by the running
collection, and by one of them only (`PoolInv.owned_nodup`). An allocation takes a region from
the pool or creates one. A collection takes regions from released allocations, asks their
recipients to retire them, resets them, and puts them into the pool. The reset is what makes a
region safe to hand out again: it increments the generation, so that a handle of the previous
allocation is refused (`ensureCurrent`).

The invariant is in three parts: who owns a region (`PoolInv`), which recipients a running
collection still has to hear from (`AckInv`), and what happens to a region that a recipient
refused to retire (`RefusedInv`).
-/

set_option autoImplicit false

namespace Wmfs.Memory

open Wmfs.Lib

/-! ### Regions -/

/-- Whether a region that exists is closed. -/
def State.regionClosed (s : State) (region : Nat) : Bool :=
  ((s.regions region).map Region.closed).getD false

section
variable {s : State} {region other : Nat} {f : Region → Region}

/-- A field of the regions that a change of one region preserves. -/
theorem field_modifyRegion {α : Type} (field : Region → α) (hf : ∀ r, field (f r) = field r) :
    (((s.modifyRegion region f).regions other).map field) = (s.regions other).map field := by
  simp only [State.modifyRegion]
  by_cases h : other = region
  · subst h
    rw [Function.update_self, Option.map_map]
    congr 1
    funext r
    exact hf r
  · rw [Function.update_of_ne h]

/-- A change of one region leaves the others alone. -/
theorem regions_modifyRegion_ne (h : other ≠ region) :
    (s.modifyRegion region f).regions other = s.regions other := by
  simp [State.modifyRegion, Function.update_of_ne h]

/-- A change of one region creates no region and removes none. -/
theorem regions_modifyRegion_eq_none :
    (s.modifyRegion region f).regions other = none ↔ s.regions other = none := by
  simp only [State.modifyRegion]
  by_cases h : other = region
  · subst h
    rw [Function.update_self, Option.map_eq_none_iff]
  · rw [Function.update_of_ne h]

end

section
variable {s t : State} {region : Nat}

/-- The generation is one of the region. -/
theorem generation_congr (h : t.regions region = s.regions region) :
    t.generation region = s.generation region := by
  rw [State.generation, h, State.generation]

/-- The size is one of the region. -/
theorem regionBytes_congr (h : t.regions region = s.regions region) :
    t.regionBytes region = s.regionBytes region := by
  rw [State.regionBytes, h, State.regionBytes]

/-- The recipients are those of the region. -/
theorem recipients_congr (h : t.regions region = s.regions region) :
    t.recipients region = s.recipients region := by
  rw [State.recipients, h, State.recipients]

/-- Whether a region is closed is one of the region. -/
theorem regionClosed_congr (h : t.regions region = s.regions region) :
    t.regionClosed region = s.regionClosed region := by
  rw [State.regionClosed, h, State.regionClosed]

end

/-- Two states whose regions differ at most in which of them are closed. -/
structure SameViews (s t : State) : Prop where
  exist : ∀ region, t.regions region = none ↔ s.regions region = none
  generation : ∀ region, t.generation region = s.generation region
  bytes : ∀ region, t.regionBytes region = s.regionBytes region
  recipients : ∀ region, t.recipients region = s.recipients region

/-- A state has the same views as itself. -/
theorem SameViews.refl (s : State) : SameViews s s :=
  ⟨fun _ => Iff.rfl, fun _ => rfl, fun _ => rfl, fun _ => rfl⟩

/-- With the same regions the views are the same. -/
theorem SameViews.of_regions {s t : State} (h : t.regions = s.regions) : SameViews s t :=
  ⟨fun region => by rw [h], fun region => generation_congr (congrFun h region),
    fun region => regionBytes_congr (congrFun h region),
    fun region => recipients_congr (congrFun h region)⟩

/-- Closing a region changes none of its other fields. -/
theorem sameViews_closeRegion (s : State) (region : Nat) : SameViews s (closeRegion s region) := by
  refine ⟨fun other => regions_modifyRegion_eq_none, fun other => ?_, fun other => ?_,
    fun other => ?_⟩
  · exact congrArg (Option.getD · 0) (field_modifyRegion Region.generation fun _ => rfl)
  · exact congrArg (Option.getD · 0) (field_modifyRegion Region.byteLength fun _ => rfl)
  · exact congrArg (Option.getD · []) (field_modifyRegion Region.recipients fun _ => rfl)

/-- The same views over two steps. -/
theorem SameViews.trans {s t u : State} (h : SameViews s t) (h' : SameViews t u) :
    SameViews s u :=
  ⟨fun region => (h'.exist region).trans (h.exist region),
    fun region => (h'.generation region).trans (h.generation region),
    fun region => (h'.bytes region).trans (h.bytes region),
    fun region => (h'.recipients region).trans (h.recipients region)⟩

/-- Closing several regions. -/
theorem sameViews_foldl_closeRegion : ∀ (regions : List Nat) (s : State),
    SameViews s (regions.foldl closeRegion s) := by
  intro regions
  induction regions with
  | nil => intro s; exact .refl s
  | cons region regions ih =>
    intro s
    exact (sameViews_closeRegion s region).trans (ih (closeRegion s region))

/-! ### The invariant -/

/-- The regions that the running collection has taken over. -/
def inFlight (s : State) : List Nat :=
  match s.collecting with
  | none => []
  | some c => c.todo.map SharedBuffer.region ++ (c.current.map Reclaiming.region).toList

/-- The regions of the live allocations. -/
def liveRegions (s : State) : List Nat := s.active.map SharedBuffer.region

/-- The buffers that the running collection still has to handle. -/
def todo (s : State) : List SharedBuffer := (s.collecting.map Collection.todo).getD []

/-- The region that has been reset and not been cached yet. -/
def justReset (s : State) (region : Nat) : Prop :=
  ∃ c, s.collecting = some c ∧ c.current = some ⟨region, true⟩

/-- Who owns a region, and what that says about its generation.

`given_lt` is the heart of it: a region in the pool, or on its way back into it, has a
generation that no buffer handed out so far has. -/
structure PoolInv (cfg : Config) (s : State) : Prop where
  pooled : ∀ buffer ∈ s.active, buffer.arena = false
  noArena : s.arenaRegion = none
  owned_nodup : (liveRegions s ++ s.free ++ inFlight s).Nodup
  owned_exist : ∀ region ∈ liveRegions s ++ s.free ++ inFlight s, s.regions region ≠ none
  owned_open : ∀ region ∈ liveRegions s ++ s.free ++ inFlight s, s.regionClosed region = false
  generation_le : ∀ region, s.generation region ≤ MAX_GENERATION
  current : ∀ buffer ∈ s.active ++ todo s, buffer.generation = s.generation buffer.region
  active_given : ∀ buffer ∈ s.active, buffer ∈ s.given
  given_exist : ∀ buffer ∈ s.given, s.regions buffer.region ≠ none
  given_le : ∀ buffer ∈ s.given, buffer.generation ≤ s.generation buffer.region
  given_lt : ∀ buffer ∈ s.given, buffer.region ∈ s.free ∨ justReset s buffer.region →
    buffer.generation < s.generation buffer.region
  given_order : s.given.Pairwise fun later earlier =>
    later.region = earlier.region → earlier.generation < later.generation
  free_clean : ∀ region, region ∈ s.free ∨ justReset s region → s.recipients region = []
  free_reset : ∀ region, region ∈ s.free ∨ justReset s region →
    ∃ reset ∈ s.resets, reset.region = region
  bytes : s.cachedBytes = (s.free.map s.regionBytes).sum
  free_length : s.free.length ≤ cfg.maxCachedBuffers
  free_bytes : s.cachedBytes ≤ cfg.maxCachedBytes

/-- What a running collection knows about the recipients of its regions. -/
structure AckInv (s : State) : Prop where
  awaited : ∀ c, s.collecting = some c → ∀ buffer ∈ c.todo,
    ∀ recipient ∈ s.recipients buffer.region,
      recipient ∈ s.acknowledged buffer.region ∨ buffer.region ∈ c.failed ∨
        ∃ buffers, (recipient, buffers) ∈ c.pending ∧ buffer ∈ buffers
  pending_todo : ∀ c, s.collecting = some c → ∀ entry ∈ c.pending, ∀ buffer ∈ entry.2,
    buffer ∈ c.todo
  current_pending : ∀ c, s.collecting = some c → c.current ≠ none → c.pending = []
  reclaiming : ∀ c region, s.collecting = some c → c.current = some ⟨region, false⟩ →
    s.generation region < MAX_GENERATION ∧
      ∀ recipient ∈ s.recipients region, recipient ∈ s.acknowledged region
  resets : ∀ reset ∈ s.resets, ∀ recipient ∈ reset.recipients, recipient ∈ reset.acknowledged

/-- A refused region is waiting to be closed by the running collection, or it is closed and
nobody owns it. -/
def RefusedInv (s : State) : Prop :=
  ∀ region ∈ s.refused,
    (∃ c, s.collecting = some c ∧ region ∈ c.todo.map SharedBuffer.region ∧ region ∈ c.failed) ∨
    (region ∉ liveRegions s ++ s.free ++ inFlight s ∧ s.regionClosed region = true)

/-- The owned regions of a state. -/
def owned (s : State) : List Nat := liveRegions s ++ s.free ++ inFlight s

section
variable {s : State} {c : Collection} {region : Nat}

/-- Membership in the owned regions. -/
theorem mem_owned :
    region ∈ owned s ↔ region ∈ liveRegions s ∨ region ∈ s.free ∨ region ∈ inFlight s := by
  simp [owned]

/-- What the collector still has to do. -/
theorem todo_eq (hc : s.collecting = some c) : todo s = c.todo := by
  simp [todo, hc]

/-- The regions of the running collection are owned. -/
theorem inFlight_of_todo (hc : s.collecting = some c)
    (hmem : region ∈ c.todo.map SharedBuffer.region) : region ∈ inFlight s := by
  simp only [inFlight, hc, List.mem_append]
  exact Or.inl hmem

/-- The region that the collector is at is in flight. -/
theorem inFlight_of_current (hc : s.collecting = some c) {reset : Bool}
    (hcurrent : c.current = some ⟨region, reset⟩) : region ∈ inFlight s := by
  simp [inFlight, hc, hcurrent]

/-- A region that the collector has not reset is not just reset. -/
theorem not_justReset (h : ∀ c, s.collecting = some c → c.current ≠ some ⟨region, true⟩) :
    ¬ justReset s region := by
  rintro ⟨c, hc, hcurrent⟩
  exact h c hc hcurrent

end

/-- A step that passes owned regions on, drops some, and keeps the rest of what the invariant
reads. -/
theorem PoolInv.of_views {cfg : Config} {s t : State} (h : PoolInv cfg s)
    (hviews : SameViews s t)
    (hopen : ∀ region ∈ owned t, t.regionClosed region = s.regionClosed region)
    (hgiven : t.given = s.given) (hresets : t.resets = s.resets)
    (hactive : ∀ buffer ∈ t.active, buffer ∈ s.active) (harena : t.arenaRegion = s.arenaRegion)
    (hnodup : (owned t).Nodup) (howned : ∀ region ∈ owned t, region ∈ owned s)
    (htodo : ∀ buffer ∈ todo t, buffer ∈ s.active ++ todo s)
    (hback : ∀ region, region ∈ t.free ∨ justReset t region →
      region ∈ s.free ∨ justReset s region)
    (hbytes : t.cachedBytes = (t.free.map s.regionBytes).sum)
    (hlength : t.free.length ≤ cfg.maxCachedBuffers)
    (hcached : t.cachedBytes ≤ cfg.maxCachedBytes) : PoolInv cfg t := by
  refine
    { pooled := fun buffer hmem => h.pooled buffer (hactive buffer hmem)
      noArena := by rw [harena]; exact h.noArena
      owned_nodup := hnodup
      owned_exist := fun region hmem hnone => ?_
      owned_open := fun region hmem => ?_
      generation_le := fun region => by rw [hviews.generation]; exact h.generation_le region
      current := fun buffer hmem => ?_
      active_given := fun buffer hmem => ?_
      given_exist := fun buffer hmem hnone => ?_
      given_le := fun buffer hmem => ?_
      given_lt := fun buffer hmem hwhere => ?_
      given_order := by rw [hgiven]; exact h.given_order
      free_clean := fun region hwhere => ?_
      free_reset := fun region hwhere => by
        rw [hresets]
        exact h.free_reset region (hback region hwhere)
      bytes := ?_
      free_length := hlength
      free_bytes := hcached }
  · exact h.owned_exist region (howned region hmem) ((hviews.exist region).mp hnone)
  · rw [hopen region hmem]
    exact h.owned_open region (howned region hmem)
  · rw [hviews.generation]
    refine h.current buffer ?_
    rcases List.mem_append.mp hmem with hmem | hmem
    · exact List.mem_append_left _ (hactive buffer hmem)
    · exact htodo buffer hmem
  · rw [hgiven]
    exact h.active_given buffer (hactive buffer hmem)
  · rw [hgiven] at hmem
    exact h.given_exist buffer hmem ((hviews.exist _).mp hnone)
  · rw [hgiven] at hmem
    rw [hviews.generation]
    exact h.given_le buffer hmem
  · rw [hgiven] at hmem
    rw [hviews.generation]
    exact h.given_lt buffer hmem (hback _ hwhere)
  · rw [hviews.recipients]
    exact h.free_clean region (hback region hwhere)
  · rw [hbytes]
    congr 2
    funext region
    exact (hviews.bytes region).symm

/-- Closing a region closes no other one and reopens none. -/
theorem regionClosed_closeRegion {s : State} {region other : Nat}
    (h : s.regionClosed other = true) : (closeRegion s region).regionClosed other = true := by
  by_cases heq : other = region
  · subst heq
    rcases hr : s.regions other with _ | r
    · simp [State.regionClosed, hr] at h
    · simp [State.regionClosed, closeRegion, State.modifyRegion, hr]
  · exact (regionClosed_congr (regions_modifyRegion_ne heq)).trans h

/-- Closing other regions keeps a region closed. -/
theorem regionClosed_foldl {other : Nat} : ∀ (regions : List Nat) (s : State),
    s.regionClosed other = true → (regions.foldl closeRegion s).regionClosed other = true := by
  intro regions
  induction regions with
  | nil => intro s h; exact h
  | cons region regions ih => intro s h; exact ih _ (regionClosed_closeRegion h)

/-- Closing regions leaves the others as they are. -/
theorem regionClosed_foldl_of_notMem {other : Nat} : ∀ (regions : List Nat) (s : State),
    other ∉ regions → (regions.foldl closeRegion s).regionClosed other = s.regionClosed other := by
  intro regions
  induction regions with
  | nil => intro s _; rfl
  | cons region regions ih =>
    intro s hnot
    rw [List.mem_cons, not_or] at hnot
    rw [List.foldl_cons, ih _ hnot.2]
    exact regionClosed_congr (regions_modifyRegion_ne hnot.1)

/-- A region that exists is closed by `close`. -/
theorem regionClosed_self {s : State} {region : Nat} (h : s.regions region ≠ none) :
    (closeRegion s region).regionClosed region = true := by
  obtain ⟨r, hr⟩ := Option.ne_none_iff_exists'.mp h
  simp [State.regionClosed, closeRegion, State.modifyRegion, hr]

/-! ### Allocation -/

section
variable {cfg : Config} {s t : State}

/-- An allocation from the pool moves the region from the pool to the live allocations. -/
theorem poolInv_reuse (h : PoolInv cfg s) {cached : Nat} {before after : List Nat}
    (hsplit : s.free = before ++ cached :: after) (allocationId : Nat) :
    PoolInv cfg (activate { s with
        free := before ++ after
        cachedBytes := s.cachedBytes - s.regionBytes cached }
      ⟨cached, s.generation cached, allocationId, 0, s.regionBytes cached, false⟩) := by
  let buffer : SharedBuffer :=
    ⟨cached, s.generation cached, allocationId, 0, s.regionBytes cached, false⟩
  let u : State := activate { s with
    free := before ++ after
    cachedBytes := s.cachedBytes - s.regionBytes cached } buffer
  have hperm : (owned u).Perm (owned s) := by
    show (cached :: liveRegions s ++ (before ++ after) ++ inFlight s).Perm
      (liveRegions s ++ s.free ++ inFlight s)
    rw [hsplit, List.perm_iff_count]
    intro region
    simp only [List.count_append, List.count_cons]
    omega
  have hmem : cached ∈ s.free := by simp [hsplit]
  have hnodup : (owned s).Nodup := h.owned_nodup
  have hsum : s.cachedBytes =
      ((before ++ after).map s.regionBytes).sum + s.regionBytes cached := by
    rw [h.bytes, hsplit]
    simp only [List.map_append, List.map_cons, List.sum_append, List.sum_cons]
    omega
  have hfree : ∀ region, region ∈ before ++ after → region ∈ s.free := by
    intro region hregion
    rw [hsplit]
    rcases List.mem_append.mp hregion with hregion | hregion <;> simp [hregion]
  -- The region is not in what is left of the pool, and it has not just been reset.
  have hne : ∀ region, region ∈ before ++ after ∨ justReset s region → region ≠ cached := by
    rintro region hwhere rfl
    rw [owned, hsplit, List.nodup_append, List.nodup_append, List.nodup_middle,
      List.nodup_cons] at hnodup
    rcases hwhere with hin | ⟨c, hc, hcurrent⟩
    · exact hnodup.1.2.1.1 hin
    · exact hnodup.2.2 region (by simp) region (inFlight_of_current hc hcurrent) rfl
  refine
    { pooled := fun other hother => ?_
      noArena := h.noArena
      owned_nodup := (hperm.nodup_iff).mpr h.owned_nodup
      owned_exist := fun region hregion => h.owned_exist region (hperm.mem_iff.mp hregion)
      owned_open := fun region hregion => h.owned_open region (hperm.mem_iff.mp hregion)
      generation_le := h.generation_le
      current := fun other hother => ?_
      active_given := fun other hother => ?_
      given_exist := fun other hother => ?_
      given_le := fun other hother => ?_
      given_lt := fun other hother hwhere => ?_
      given_order := ?_
      free_clean := fun region hwhere => ?_
      free_reset := fun region hwhere => h.free_reset region (hwhere.imp (hfree _) id)
      bytes := ?_
      free_length := ?_
      free_bytes := ?_ }
  · rcases List.mem_cons.mp hother with rfl | hother
    · rfl
    · exact h.pooled other hother
  · change other ∈ buffer :: s.active ++ todo s at hother
    rcases List.mem_cons.mp hother with rfl | hother
    · rfl
    · exact h.current other hother
  · rcases List.mem_cons.mp hother with rfl | hother
    · exact List.mem_cons_self
    · exact List.mem_cons_of_mem _ (h.active_given other hother)
  · rcases List.mem_cons.mp hother with rfl | hother
    · exact h.owned_exist cached (mem_owned.mpr (Or.inr (Or.inl hmem)))
    · exact h.given_exist other hother
  · rcases List.mem_cons.mp hother with rfl | hother
    · exact Nat.le_refl _
    · exact h.given_le other hother
  · rcases List.mem_cons.mp hother with rfl | hother
    · exact absurd rfl (hne cached hwhere)
    · exact h.given_lt other hother (hwhere.imp (hfree _) id)
  · refine List.pairwise_cons.mpr ⟨fun earlier hearlier heq => ?_, h.given_order⟩
    change cached = earlier.region at heq
    show earlier.generation < s.generation cached
    rw [heq]
    exact h.given_lt earlier hearlier (Or.inl (heq ▸ hmem))
  · exact h.free_clean region (hwhere.imp (hfree _) id)
  · show s.cachedBytes - s.regionBytes cached = ((before ++ after).map s.regionBytes).sum
    omega
  · have hlength := h.free_length
    rw [hsplit] at hlength
    show (before ++ after).length ≤ cfg.maxCachedBuffers
    simp only [List.length_append, List.length_cons] at hlength ⊢
    omega
  · have hcached := h.free_bytes
    show s.cachedBytes - s.regionBytes cached ≤ cfg.maxCachedBytes
    omega

/-- A new region leaves the others alone. -/
theorem newRegion_views {region : Nat} (byteLength : Nat) {other : Nat} (hne : other ≠ region) :
    (newRegion s region byteLength).regions other = s.regions other := by
  simp [newRegion, Function.update_of_ne hne]

/-- An allocation that creates its region. -/
theorem poolInv_create (h : PoolInv cfg s) {region : Nat} (hfresh : s.regions region = none)
    (byteLength allocationId : Nat) :
    PoolInv cfg (activate (newRegion s region byteLength)
      ⟨region, 1, allocationId, 0, byteLength, false⟩) := by
  let buffer : SharedBuffer := ⟨region, 1, allocationId, 0, byteLength, false⟩
  let u : State := activate (newRegion s region byteLength) buffer
  have hregions : ∀ other, other ≠ region → u.regions other = s.regions other := fun other hne =>
    newRegion_views byteLength hne
  have hself : u.regions region = some ⟨1, byteLength, [], false⟩ := by
    simp [u, activate, newRegion]
  have hgen : ∀ other, other ≠ region → u.generation other = s.generation other :=
    fun other hne => generation_congr (hregions other hne)
  have hgenSelf : u.generation region = 1 := by simp [State.generation, hself]
  have hownedNe : ∀ other ∈ owned s, other ≠ region := by
    rintro other hother rfl
    exact h.owned_exist other hother hfresh
  have hgivenNe : ∀ other ∈ s.given, other.region ≠ region := by
    intro other hother heq
    exact h.given_exist other hother (heq ▸ hfresh)
  have hcurrentNe : ∀ other ∈ s.active ++ todo s, other.region ≠ region := by
    intro other hother
    refine hownedNe other.region (mem_owned.mpr ?_)
    rcases List.mem_append.mp hother with hother | hother
    · exact Or.inl (List.mem_map_of_mem hother)
    · refine Or.inr (Or.inr ?_)
      rcases hc : s.collecting with _ | c
      · simp [todo, hc] at hother
      · rw [todo_eq hc] at hother
        exact inFlight_of_todo hc (List.mem_map_of_mem hother)
  have hbackNe : ∀ other, other ∈ s.free ∨ justReset s other → other ≠ region := by
    rintro other hwhere
    refine hownedNe other (mem_owned.mpr ?_)
    rcases hwhere with hin | ⟨c, hc, hcurrent⟩
    · exact Or.inr (Or.inl hin)
    · exact Or.inr (Or.inr (inFlight_of_current hc hcurrent))
  refine
    { pooled := fun other hother => ?_
      noArena := h.noArena
      owned_nodup := ?_
      owned_exist := fun other hother => ?_
      owned_open := fun other hother => ?_
      generation_le := fun other => ?_
      current := fun other hother => ?_
      active_given := fun other hother => ?_
      given_exist := fun other hother => ?_
      given_le := fun other hother => ?_
      given_lt := fun other hother hwhere => ?_
      given_order := ?_
      free_clean := fun other hwhere => ?_
      free_reset := h.free_reset
      bytes := ?_
      free_length := h.free_length
      free_bytes := h.free_bytes }
  · rcases List.mem_cons.mp hother with rfl | hother
    · rfl
    · exact h.pooled other hother
  · show (region :: owned s).Nodup
    exact List.nodup_cons.mpr ⟨fun hmem => hownedNe region hmem rfl, h.owned_nodup⟩
  · change other ∈ region :: owned s at hother
    change u.regions other ≠ none
    rcases List.mem_cons.mp hother with rfl | hother
    · rw [hself]
      simp
    · rw [hregions other (hownedNe other hother)]
      exact h.owned_exist other hother
  · change other ∈ region :: owned s at hother
    change u.regionClosed other = false
    rcases List.mem_cons.mp hother with rfl | hother
    · simp [State.regionClosed, hself]
    · rw [regionClosed_congr (hregions other (hownedNe other hother))]
      exact h.owned_open other hother
  · by_cases heq : other = region
    · subst heq
      change u.generation other ≤ _
      rw [hgenSelf]
      decide
    · change u.generation other ≤ _
      rw [hgen other heq]
      exact h.generation_le other
  · change other ∈ buffer :: (s.active ++ todo s) at hother
    change other.generation = u.generation other.region
    rcases List.mem_cons.mp hother with rfl | hother
    · exact hgenSelf.symm
    · rw [hgen _ (hcurrentNe other hother)]
      exact h.current other hother
  · rcases List.mem_cons.mp hother with rfl | hother
    · exact List.mem_cons_self
    · exact List.mem_cons_of_mem _ (h.active_given other hother)
  · change u.regions other.region ≠ none
    rcases List.mem_cons.mp hother with rfl | hother
    · change u.regions region ≠ none
      rw [hself]
      simp
    · rw [hregions _ (hgivenNe other hother)]
      exact h.given_exist other hother
  · change other.generation ≤ u.generation other.region
    rcases List.mem_cons.mp hother with rfl | hother
    · exact hgenSelf.symm.le
    · rw [hgen _ (hgivenNe other hother)]
      exact h.given_le other hother
  · change other.generation < u.generation other.region
    have hne := hbackNe other.region hwhere
    rcases List.mem_cons.mp hother with rfl | hother
    · exact absurd rfl hne
    · rw [hgen _ hne]
      exact h.given_lt other hother hwhere
  · refine List.pairwise_cons.mpr ⟨fun earlier hearlier heq => ?_, h.given_order⟩
    exact absurd heq.symm (hgivenNe earlier hearlier)
  · change u.recipients other = []
    rw [recipients_congr (hregions other (hbackNe other hwhere))]
    exact h.free_clean other hwhere
  · show s.cachedBytes = (s.free.map u.regionBytes).sum
    rw [h.bytes]
    congr 1
    refine List.map_congr_left fun other hother => ?_
    exact (regionBytes_congr (hregions other (hbackNe other (Or.inl hother)))).symm

/-- What a running collection knows about its regions does not change when other regions
change. -/
theorem AckInv.of_inFlight (h : AckInv s) (hcollecting : t.collecting = s.collecting)
    (hacknowledged : t.acknowledged = s.acknowledged) (hresets : t.resets = s.resets)
    (hsame : ∀ region ∈ inFlight s, t.recipients region = s.recipients region ∧
      t.generation region = s.generation region) : AckInv t := by
  refine
    { awaited := fun c hc buffer hmem recipient hrecipient => ?_
      pending_todo := fun c hc => h.pending_todo c (hcollecting ▸ hc)
      current_pending := fun c hc => h.current_pending c (hcollecting ▸ hc)
      reclaiming := fun c region hc hcurrent => ?_
      resets := by rw [hresets]; exact h.resets }
  · rw [hcollecting] at hc
    rw [(hsame _ (inFlight_of_todo hc (List.mem_map_of_mem hmem))).1] at hrecipient
    rw [hacknowledged]
    exact h.awaited c hc buffer hmem recipient hrecipient
  · rw [hcollecting] at hc
    obtain ⟨hrecipients, hgeneration⟩ := hsame region (inFlight_of_current hc hcurrent)
    rw [hrecipients, hgeneration, hacknowledged]
    exact h.reclaiming c region hc hcurrent

/-- A refused region stays refused when the owned regions are passed on or dropped. -/
theorem RefusedInv.of_owned (h : RefusedInv s) (hrefused : t.refused = s.refused)
    (hcollecting : t.collecting = s.collecting)
    (howned : ∀ region ∈ s.refused, region ∈ owned t → region ∈ owned s)
    (hclosed : ∀ region, s.regionClosed region = true → t.regionClosed region = true) :
    RefusedInv t := by
  intro region hmem
  rw [hrefused] at hmem
  rcases h region hmem with ⟨c, hc, hrest⟩ | ⟨hnot, hregion⟩
  · exact Or.inl ⟨c, by rw [hcollecting, hc], hrest⟩
  · exact Or.inr ⟨fun hin => hnot (howned region hmem hin), hclosed region hregion⟩

/-- While no region is being reclaimed, `AckInv` is about the buffers that are left. -/
theorem AckInv.of_current_none {c : Collection} (hc : s.collecting = some c)
    (hcurrent : c.current = none)
    (hawaited : ∀ buffer ∈ c.todo, ∀ recipient ∈ s.recipients buffer.region,
      recipient ∈ s.acknowledged buffer.region ∨ buffer.region ∈ c.failed ∨
        ∃ buffers, (recipient, buffers) ∈ c.pending ∧ buffer ∈ buffers)
    (hpending : ∀ entry ∈ c.pending, ∀ buffer ∈ entry.2, buffer ∈ c.todo)
    (hresets : ∀ reset ∈ s.resets, ∀ recipient ∈ reset.recipients,
      recipient ∈ reset.acknowledged) : AckInv s := by
  have hsame : ∀ c', s.collecting = some c' → c = c' := fun c' hc' =>
    Option.some.inj (hc.symm.trans hc')
  refine
    { awaited := fun c' hc' => ?_
      pending_todo := fun c' hc' => ?_
      current_pending := fun c' hc' hne => ?_
      reclaiming := fun c' region hc' hregion => ?_
      resets := hresets }
  · rw [← hsame c' hc']
    exact hawaited
  · rw [← hsame c' hc']
    exact hpending
  · rw [← hsame c' hc'] at hne
    exact absurd hcurrent hne
  · rw [← hsame c' hc', hcurrent] at hregion
    cases hregion

/-- A refused region stays refused while the collection that has to close it goes on with
other regions. -/
theorem RefusedInv.of_collection (h : RefusedInv s) {c c' : Collection}
    (hc : s.collecting = some c) (hc' : t.collecting = some c') (hrefused : t.refused = s.refused)
    (htodo : ∀ region ∈ c.failed, region ∈ c.todo.map SharedBuffer.region →
      region ∈ c'.todo.map SharedBuffer.region ∧ region ∈ c'.failed)
    (howned : ∀ region ∈ owned t, region ∈ owned s)
    (hclosed : ∀ region, s.regionClosed region = true → t.regionClosed region = true) :
    RefusedInv t := by
  intro region hmem
  rw [hrefused] at hmem
  rcases h region hmem with ⟨c'', hsame, hin, hfailed⟩ | ⟨hnot, hregion⟩
  · obtain rfl : c = c'' := Option.some.inj (hc.symm.trans hsame)
    exact Or.inl ⟨c', hc', htodo region hfailed hin⟩
  · exact Or.inr ⟨fun hin => hnot (howned region hin), hclosed region hregion⟩

/-- The invariant of a manager in pooled mode. -/
structure PoolAll (cfg : Config) (s : State) : Prop where
  pool : PoolInv cfg s
  ack : AckInv s
  refused : RefusedInv s

/-- `empty` in pooled mode keeps the invariant. -/
theorem poolAll_allocate (hmode : cfg.mode = .pooled) (h : PoolAll cfg s)
    (byteLength allocationId region : Nat) (hfresh : s.regions region = none) :
    PoolAll cfg (allocate cfg s byteLength allocationId region).1 := by
  unfold allocate
  by_cases hclosed : s.closed = true
  · rw [if_pos hclosed]
    exact h
  · rw [if_neg hclosed]
    simp only [hmode, allocatePooled]
    rcases hfind : s.free.find? (fun r => s.regionBytes r == byteLength) with _ | cached
    · -- A new region: no owned region has its id.
      have hne : ∀ other, s.regions other ≠ none → other ≠ region := by
        rintro other hother rfl
        exact hother hfresh
      refine ⟨poolInv_create h.pool hfresh byteLength allocationId,
        h.ack.of_inFlight rfl rfl rfl fun other hmem => ?_,
        h.refused.of_owned rfl rfl (fun other hmem hin => ?_) fun other hother => ?_⟩
      · have hexist := h.pool.owned_exist other (mem_owned.mpr (Or.inr (Or.inr hmem)))
        have hsame : (activate (newRegion s region byteLength)
            ⟨region, 1, allocationId, 0, byteLength, false⟩).regions other =
              s.regions other := newRegion_views byteLength (hne other hexist)
        exact ⟨recipients_congr hsame, generation_congr hsame⟩
      · change other ∈ region :: owned s at hin
        rcases List.mem_cons.mp hin with rfl | hin
        · -- A refused region exists.
          exfalso
          rcases h.refused other hmem with ⟨c, hc, hmem, -⟩ | ⟨-, hother⟩
          · have hflying := inFlight_of_todo hc hmem
            exact h.pool.owned_exist other (mem_owned.mpr (Or.inr (Or.inr hflying))) hfresh
          · simp [State.regionClosed, hfresh] at hother
        · exact hin
      · have hexist : s.regions other ≠ none := by
          intro hnone
          simp [State.regionClosed, hnone] at hother
        exact (regionClosed_congr (newRegion_views byteLength (hne other hexist))).trans hother
    · obtain ⟨hbytes, before, after, hsplit, herase⟩ := exists_split_of_find hfind
      obtain rfl : s.regionBytes cached = byteLength := by simpa using hbytes
      simp only [herase]
      refine ⟨poolInv_reuse h.pool hsplit allocationId, { h.ack with },
        h.refused.of_owned rfl rfl (fun other _ hin => ?_) fun _ hother => hother⟩
      change other ∈ cached :: liveRegions s ++ (before ++ after) ++ inFlight s at hin
      rw [mem_owned, hsplit]
      simp only [List.cons_append, List.mem_cons, List.mem_append] at hin ⊢
      tauto

/-! ### Registration -/

/-- `register_recipient` on a live buffer keeps the invariant. -/
theorem poolAll_register (h : PoolAll cfg s) {buffer : SharedBuffer} (hmem : buffer ∈ s.active)
    (recipient : RecipientId) : PoolAll cfg (register s buffer recipient) := by
  unfold register
  split
  · exact h
  · let f : Region → Region := fun r => { r with
      recipients := if recipient ∈ r.recipients then r.recipients else recipient :: r.recipients }
    have hgeneration : ∀ other, (s.modifyRegion buffer.region f).generation other =
        s.generation other := fun other =>
      congrArg (Option.getD · 0) (field_modifyRegion Region.generation fun _ => rfl)
    have hbytes : ∀ other, (s.modifyRegion buffer.region f).regionBytes other =
        s.regionBytes other := fun other =>
      congrArg (Option.getD · 0) (field_modifyRegion Region.byteLength fun _ => rfl)
    have hclosed : ∀ other, (s.modifyRegion buffer.region f).regionClosed other =
        s.regionClosed other := fun other =>
      congrArg (Option.getD · false) (field_modifyRegion Region.closed fun _ => rfl)
    -- The region belongs to a live allocation, so it is neither in the pool nor in flight.
    have hlive : buffer.region ∈ liveRegions s := List.mem_map_of_mem hmem
    have hnodup := h.pool.owned_nodup
    rw [List.append_assoc, List.nodup_append] at hnodup
    have hne : ∀ other, other ∈ s.free ++ inFlight s → other ≠ buffer.region := by
      rintro other hother rfl
      exact hnodup.2.2 _ hlive _ hother rfl
    have hrecipients : ∀ other, other ∈ s.free ++ inFlight s →
        (s.modifyRegion buffer.region f).recipients other = s.recipients other :=
      fun other hother => recipients_congr (regions_modifyRegion_ne (hne other hother))
    refine ⟨?_, h.ack.of_inFlight rfl rfl rfl fun other hother => ?_,
      h.refused.of_owned rfl rfl (fun _ _ hin => hin) fun other hother => ?_⟩
    · exact
        { pooled := h.pool.pooled
          noArena := h.pool.noArena
          owned_nodup := h.pool.owned_nodup
          owned_exist := fun other hother hnone =>
            h.pool.owned_exist other hother (regions_modifyRegion_eq_none.mp hnone)
          owned_open := fun other hother => (hclosed other).trans (h.pool.owned_open other hother)
          generation_le := fun other => (hgeneration other).le.trans (h.pool.generation_le other)
          current := fun other hother =>
            (h.pool.current other hother).trans (hgeneration other.region).symm
          active_given := h.pool.active_given
          given_exist := fun other hother hnone =>
            h.pool.given_exist other hother (regions_modifyRegion_eq_none.mp hnone)
          given_le := fun other hother =>
            (h.pool.given_le other hother).trans (hgeneration other.region).symm.le
          given_lt := fun other hother hwhere =>
            (h.pool.given_lt other hother hwhere).trans_le (hgeneration other.region).symm.le
          given_order := h.pool.given_order
          free_clean := fun other hwhere => by
            refine (hrecipients other ?_).trans (h.pool.free_clean other hwhere)
            rcases hwhere with hin | ⟨c, hc, hcurrent⟩
            · exact List.mem_append_left _ hin
            · exact List.mem_append_right _ (inFlight_of_current hc hcurrent)
          free_reset := h.pool.free_reset
          bytes := by
            refine h.pool.bytes.trans (congrArg List.sum (List.map_congr_left fun other _ => ?_))
            exact (hbytes other).symm
          free_length := h.pool.free_length
          free_bytes := h.pool.free_bytes }
    · exact ⟨hrecipients other (List.mem_append_right _ hother), hgeneration other⟩
    · exact (hclosed other).trans hother

/-! ### Collection -/

/-- Draining the queue in pooled mode splits the active allocations. -/
theorem drain_pooled : ∀ (ids : List Nat) (s : State), (∀ buffer ∈ s.active, buffer.arena = false) →
    ∃ rest, (drain s ids).1 = { s with active := rest } ∧
      (rest ++ (drain s ids).2).Perm s.active := by
  intro ids
  induction ids with
  | nil => intro s _; exact ⟨s.active, rfl, by simp [drain]⟩
  | cons id ids ih =>
    intro s hpooled
    rcases hfind : s.active.find? (fun buffer => buffer.allocationId == id) with _ | buffer
    · rw [drain_of_none ids hfind]
      exact ih s hpooled
    · obtain ⟨-, before, after, hsplit, herase⟩ := exists_split_of_find hfind
      have hkind := hpooled buffer (by simp [hsplit])
      obtain ⟨rest, hstate, hperm⟩ := ih { s with active := before ++ after } fun other hother => by
        refine hpooled other ?_
        rw [hsplit]
        rcases List.mem_append.mp hother with hother | hother <;> simp [hother]
      refine ⟨rest, ?_, ?_⟩
      · simp only [drain, hfind, hkind, Bool.false_eq_true, if_false, herase]
        exact hstate
      · simp only [drain, hfind, hkind, Bool.false_eq_true, if_false, herase]
        rw [hsplit]
        exact List.perm_middle.trans ((hperm.cons buffer).trans List.perm_middle.symm)

/-- Each recipient of a buffer's region is asked to retire the buffer. -/
theorem mem_byRecipient {buffers : List SharedBuffer} {buffer : SharedBuffer}
    (hmem : buffer ∈ buffers) {recipient : RecipientId}
    (hrecipient : recipient ∈ s.recipients buffer.region) :
    ∃ batch, (recipient, batch) ∈ byRecipient s buffers ∧ buffer ∈ batch := by
  refine ⟨buffers.filter fun buffer => recipient ∈ s.recipients buffer.region, ?_, ?_⟩
  · unfold byRecipient
    refine List.mem_map.mpr ⟨recipient, ?_, rfl⟩
    rw [List.mem_dedup, List.mem_flatMap]
    exact ⟨buffer, hmem, hrecipient⟩
  · simp [hmem, hrecipient]

/-- Only the buffers of the collection are retired. -/
theorem mem_of_mem_byRecipient {buffers : List SharedBuffer}
    {entry : RecipientId × List SharedBuffer} (hentry : entry ∈ byRecipient s buffers)
    {buffer : SharedBuffer} (hmem : buffer ∈ entry.2) : buffer ∈ buffers := by
  unfold byRecipient at hentry
  obtain ⟨recipient, -, rfl⟩ := List.mem_map.mp hentry
  exact (List.mem_filter.mp hmem).1

/-- The start of a collection keeps the invariant. -/
theorem poolAll_collectBegin (h : PoolAll cfg s) (hs : collectBegin s = some t) :
    PoolAll cfg t := by
  unfold collectBegin at hs
  split at hs
  · cases hs
  · rename_i hnone
    cases hs
    obtain ⟨rest, hstate, hperm⟩ := drain_pooled s.released { s with released := [] } h.pool.pooled
    set drained := (drain { s with released := [] } s.released).2 with hdrained
    rw [hstate]
    have hactive : ∀ buffer, buffer ∈ rest ∨ buffer ∈ drained → buffer ∈ s.active := by
      intro buffer hbuffer
      exact hperm.mem_iff.mp (List.mem_append.mpr hbuffer)
    have hflight : inFlight s = [] := by simp [inFlight, hnone]
    have hperm' : (rest.map SharedBuffer.region ++ s.free ++
        (drained.map SharedBuffer.region ++ [])).Perm (owned s) := by
      rw [owned, hflight, liveRegions, List.perm_iff_count]
      intro region
      have hcount := (hperm.map SharedBuffer.region).count_eq region
      simp only [List.map_append, List.count_append, List.count_nil] at hcount ⊢
      omega
    refine ⟨?_, ?_, ?_⟩
    · refine h.pool.of_views (.of_regions rfl) (fun _ _ => rfl) rfl rfl
        (fun buffer hmem => hactive buffer (Or.inl hmem)) rfl
        (hperm'.nodup_iff.mpr h.pool.owned_nodup) (fun region hmem => hperm'.mem_iff.mp hmem)
        (fun buffer hmem => List.mem_append_left _ (hactive buffer (Or.inr hmem)))
        (fun region hwhere => Or.inl (hwhere.resolve_right (not_justReset fun c hc => ?_)))
        h.pool.bytes h.pool.free_length h.pool.free_bytes
      cases hc
      simp
    · exact .of_current_none rfl rfl
        (fun buffer hmem recipient hrecipient =>
          Or.inr (Or.inr (mem_byRecipient hmem hrecipient)))
        (fun entry hentry buffer hmem => mem_of_mem_byRecipient hentry hmem) h.ack.resets
    · intro region hmem
      rcases h.refused region hmem with ⟨c, hc, -⟩ | ⟨hnot, hclosed⟩
      · rw [hnone] at hc
        cases hc
      · exact Or.inr ⟨fun hin => hnot (hperm'.mem_iff.mp hin), hclosed⟩

/-- A recipient's answer keeps the invariant. -/
theorem poolAll_retire (h : PoolAll cfg s) {ok : Bool} (hs : retire s ok = some t) :
    PoolAll cfg t := by
  unfold retire at hs
  split at hs
  swap
  · cases hs
  rename_i recipient buffers pending failed todo' current hc
  have hpendingTodo := h.ack.pending_todo _ hc
  have hcurrent : current = none := by
    by_contra hne
    have := h.ack.current_pending _ hc hne
    simp at this
  subst hcurrent
  have hflight : inFlight s = todo'.map SharedBuffer.region ++ [] := by simp [inFlight, hc]
  -- Neither answer changes who owns a region.
  have howned : ∀ region ∈ liveRegions s ++ s.free ++ (todo'.map SharedBuffer.region ++ []),
      region ∈ owned s := by
    intro region hmem
    rw [owned, hflight]
    exact hmem
  have hpool : ∀ (failed' : List Nat) (acknowledged : Nat → List RecipientId) (refused : List Nat),
      PoolInv cfg { s with
        acknowledged := acknowledged
        refused := refused
        collecting := some ⟨pending, failed', todo', none⟩ } := by
    intro failed' acknowledged refused
    have hnodup := h.pool.owned_nodup
    rw [hflight] at hnodup
    refine h.pool.of_views (.of_regions rfl) (fun _ _ => rfl) rfl rfl (fun _ hmem => hmem) rfl
      hnodup howned (fun buffer hmem => List.mem_append_right _ ?_)
      (fun region hwhere => Or.inl (hwhere.resolve_right (not_justReset fun c hc' => ?_)))
      h.pool.bytes h.pool.free_length h.pool.free_bytes
    · rw [todo_eq hc]
      exact hmem
    · cases hc'
      simp
  have hpending' : ∀ entry ∈ pending, ∀ buffer ∈ entry.2, buffer ∈ todo' := fun entry hentry =>
    hpendingTodo entry (List.mem_cons_of_mem _ hentry)
  split at hs
  · cases hs
    refine ⟨hpool _ _ _, ?_, ?_⟩
    · refine .of_current_none rfl rfl (fun buffer hmem other hother => ?_) hpending' h.ack.resets
      rcases h.ack.awaited _ hc buffer hmem other hother with hack | hfailed | ⟨batch, hin, hbatch⟩
      · refine Or.inl ?_
        show other ∈ if _ then _ else _
        split
        · exact List.mem_cons_of_mem _ hack
        · exact hack
      · exact Or.inr (Or.inl hfailed)
      · rcases List.mem_cons.mp hin with heq | hin
        · -- The recipient that has just answered.
          cases heq
          refine Or.inl ?_
          show recipient ∈ if _ then _ else _
          rw [if_pos (List.mem_map_of_mem hbatch)]
          exact List.mem_cons_self
        · exact Or.inr (Or.inr ⟨batch, hin, hbatch⟩)
    · exact h.refused.of_collection hc rfl rfl (fun _ hfailed hin => ⟨hin, hfailed⟩) howned
        fun _ hclosed => hclosed
  · cases hs
    refine ⟨hpool _ _ _, ?_, ?_⟩
    · refine .of_current_none rfl rfl (fun buffer hmem other hother => ?_) hpending' h.ack.resets
      rcases h.ack.awaited _ hc buffer hmem other hother with hack | hfailed | ⟨batch, hin, hbatch⟩
      · exact Or.inl hack
      · exact Or.inr (Or.inl (List.mem_append_right _ hfailed))
      · rcases List.mem_cons.mp hin with heq | hin
        · cases heq
          exact Or.inr (Or.inl (List.mem_append_left _ (List.mem_map_of_mem hbatch)))
        · exact Or.inr (Or.inr ⟨batch, hin, hbatch⟩)
    · intro region hmem
      rcases List.mem_append.mp hmem with hnew | hold
      · obtain ⟨buffer, hbuffer, rfl⟩ := List.mem_map.mp hnew
        have hin := hpendingTodo (recipient, buffers) (by simp) buffer hbuffer
        exact Or.inl ⟨_, rfl, List.mem_map_of_mem hin,
          List.mem_append_left _ (List.mem_map_of_mem hbuffer)⟩
      · rcases h.refused region hold with ⟨c, hc', hin, hfailed⟩ | ⟨hnot, hclosed⟩
        · rw [hc] at hc'
          cases hc'
          exact Or.inl ⟨_, rfl, hin, List.mem_append_right _ hfailed⟩
        · exact Or.inr ⟨fun hin => hnot (howned region hin), hclosed⟩

/-- The running collection closes a region that it has taken over, and is done with it. -/
theorem poolAll_drop (h : PoolAll cfg s) {c : Collection} (hc : s.collecting = some c)
    {region : Nat} {rest : List SharedBuffer}
    (hperm : (inFlight s).Perm (region :: rest.map SharedBuffer.region))
    (hrest : ∀ buffer ∈ rest, buffer ∈ c.todo) (hpending : c.pending = []) :
    PoolAll cfg (closeRegion { s with collecting := some ⟨[], c.failed, rest, none⟩ } region) := by
  let u : State := { s with collecting := some ⟨[], c.failed, rest, none⟩ }
  have hsame : SameViews s u := .of_regions rfl
  have hviews : SameViews s (closeRegion u region) :=
    hsame.trans (sameViews_closeRegion u region)
  have hflight : inFlight u = rest.map SharedBuffer.region ++ [] := rfl
  have hownedPerm : (owned s).Perm (region :: owned u) := by
    rw [owned, owned, hflight, List.append_nil]
    exact (hperm.append_left _).trans List.perm_middle
  have hnodup : (region :: owned u).Nodup := hownedPerm.nodup_iff.mp h.pool.owned_nodup
  rw [List.nodup_cons] at hnodup
  have howned : ∀ other ∈ owned u, other ∈ owned s := fun other hmem =>
    hownedPerm.mem_iff.mpr (List.mem_cons_of_mem _ hmem)
  have hexist : u.regions region ≠ none :=
    h.pool.owned_exist region (hownedPerm.mem_iff.mpr List.mem_cons_self)
  refine ⟨?_, ?_, ?_⟩
  · refine h.pool.of_views hviews (fun other hmem => ?_) rfl rfl (fun _ hmem => hmem) rfl hnodup.2
      howned (fun buffer hmem => List.mem_append_right _ ?_)
      (fun other hwhere => Or.inl (hwhere.resolve_right (not_justReset fun c' hc' => ?_)))
      h.pool.bytes h.pool.free_length h.pool.free_bytes
    · have hne : other ≠ region := by
        rintro rfl
        exact hnodup.1 hmem
      exact regionClosed_congr (regions_modifyRegion_ne hne)
    · rw [todo_eq hc]
      exact hrest buffer hmem
    · cases hc'
      simp
  · refine .of_current_none rfl rfl (fun buffer hmem recipient hrecipient => ?_)
      (fun entry hentry => by cases hentry) h.ack.resets
    rw [hviews.recipients] at hrecipient
    have hwas := h.ack.awaited c hc buffer (hrest buffer hmem) recipient hrecipient
    rw [hpending] at hwas
    exact hwas
  · intro other hmem
    by_cases heq : other = region
    · subst heq
      exact Or.inr ⟨hnodup.1, regionClosed_self hexist⟩
    · rcases h.refused other hmem with ⟨c', hc', hin, hfailed⟩ | ⟨hnot, hclosed⟩
      · rw [hc] at hc'
        cases hc'
        have hflying := inFlight_of_todo hc hin
        rcases List.mem_cons.mp (hperm.mem_iff.mp hflying) with hsame | hrest'
        · exact absurd hsame heq
        · exact Or.inl ⟨_, rfl, hrest', hfailed⟩
      · exact Or.inr ⟨fun hin => hnot (howned other hin), regionClosed_closeRegion hclosed⟩

/-- The next buffer of a collection keeps the invariant. -/
theorem poolAll_reclaim (h : PoolAll cfg s) (hs : reclaim s = some t) : PoolAll cfg t := by
  unfold reclaim at hs
  split at hs
  swap
  · cases hs
  rename_i failed buffer rest hc
  have hflight : inFlight s = buffer.region :: rest.map SharedBuffer.region ++ [] := by
    simp [inFlight, hc]
  have hdrop : PoolAll cfg (closeRegion { s with collecting := some ⟨[], failed, rest, none⟩ }
      buffer.region) := by
    refine poolAll_drop h hc ?_ (fun _ hmem => List.mem_cons_of_mem _ hmem) rfl
    rw [hflight, List.append_nil]
  simp only at hs
  split at hs
  · cases hs
    exact hdrop
  · rename_i hfailed
    split at hs
    · cases hs
      exact hdrop
    · rename_i hkeep
      cases hs
      -- The region moves on to its reset: every recipient has acknowledged.
      simp only [Bool.or_eq_true, beq_iff_eq, not_or] at hkeep
      have hownedPerm : (liveRegions s ++ s.free ++
          (rest.map SharedBuffer.region ++ [buffer.region])).Perm (owned s) := by
        rw [owned, hflight, List.append_nil]
        exact List.Perm.append_left _ (List.perm_append_singleton _ _)
      refine ⟨?_, ?_, ?_⟩
      · refine h.pool.of_views (.of_regions rfl) (fun _ _ => rfl) rfl rfl (fun _ hmem => hmem) rfl
          (hownedPerm.nodup_iff.mpr h.pool.owned_nodup)
          (fun region hmem => hownedPerm.mem_iff.mp hmem)
          (fun other hmem => List.mem_append_right _ ?_)
          (fun region hwhere => Or.inl (hwhere.resolve_right (not_justReset fun c hc' => ?_)))
          h.pool.bytes h.pool.free_length h.pool.free_bytes
        · rw [todo_eq hc]
          exact List.mem_cons_of_mem _ hmem
        · cases hc'
          simp
      · refine
          { awaited := fun c hc' other hmem recipient hrecipient => ?_
            pending_todo := fun c hc' entry hentry => ?_
            current_pending := fun c hc' _ => ?_
            reclaiming := fun c region hc' hcurrent => ?_
            resets := h.ack.resets }
        · cases hc'
          exact h.ack.awaited _ hc other (List.mem_cons_of_mem _ hmem) recipient hrecipient
        · cases hc'
          cases hentry
        · cases hc'
          rfl
        · cases hc'
          cases hcurrent
          refine ⟨lt_of_le_of_ne (h.pool.generation_le _) hkeep.2, fun recipient hrecipient => ?_⟩
          rcases h.ack.awaited _ hc buffer (by simp) recipient hrecipient with
            hack | hfail | ⟨batch, hin, -⟩
          · exact hack
          · exact absurd hfail hfailed
          · cases hin
      · refine h.refused.of_collection hc rfl rfl (fun region hfail hin => ?_)
          (fun region hmem => hownedPerm.mem_iff.mp hmem) fun _ hclosed => hclosed
        rcases List.mem_cons.mp hin with rfl | hin
        · exact absurd hfail hfailed
        · exact ⟨hin, hfail⟩

/-- The region under reclamation is not held, not in the pool, and not one of the others that
the collection has taken over. -/
theorem PoolInv.ne_current (h : PoolInv cfg s) {failed : List Nat} {rest : List SharedBuffer}
    {region : Nat} {reset : Bool}
    (hc : s.collecting = some ⟨[], failed, rest, some ⟨region, reset⟩⟩) :
    ∀ other ∈ liveRegions s ++ s.free ++ rest.map SharedBuffer.region, other ≠ region := by
  have hflight : inFlight s = rest.map SharedBuffer.region ++ [region] := by
    simp [inFlight, hc]
  have hnodup := h.owned_nodup
  rw [hflight, ← List.append_assoc, List.nodup_append] at hnodup
  exact fun other hother heq => hnodup.2.2 other hother region (by simp) heq

/-- The reset of a region leaves the others alone. -/
theorem regions_resetRegion_ne {region other : Nat} (hne : other ≠ region) :
    (resetRegion s region).regions other = s.regions other :=
  regions_modifyRegion_ne hne

/-- The reset of a region increments its generation. -/
theorem generation_resetRegion_self {region : Nat} (h : s.regions region ≠ none) :
    (resetRegion s region).generation region = s.generation region + 1 := by
  obtain ⟨r, hr⟩ := Option.ne_none_iff_exists'.mp h
  simp [State.generation, resetRegion, State.modifyRegion, hr]

/-- The reset of a region forgets its recipients. -/
theorem recipients_resetRegion_self (region : Nat) :
    (resetRegion s region).recipients region = [] := by
  rcases hr : s.regions region with _ | r <;>
    simp [State.recipients, resetRegion, State.modifyRegion, hr]

/-- The reset of a region neither closes nor opens one. -/
theorem regionClosed_resetRegion (region other : Nat) :
    (resetRegion s region).regionClosed other = s.regionClosed other :=
  congrArg (Option.getD · false) (field_modifyRegion Region.closed fun _ => rfl)

/-- A reset keeps the sizes. -/
theorem regionBytes_resetRegion (region other : Nat) :
    (resetRegion s region).regionBytes other = s.regionBytes other :=
  congrArg (Option.getD · 0) (field_modifyRegion Region.byteLength fun _ => rfl)

/-- The reset below the last generation keeps who owns what. Afterwards no buffer has the
generation of the region. -/
theorem poolInv_reset (h : PoolInv cfg s) {failed : List Nat} {rest : List SharedBuffer}
    {region : Nat} (hc : s.collecting = some ⟨[], failed, rest, some ⟨region, false⟩⟩)
    (hgenLt : s.generation region < MAX_GENERATION) :
    PoolInv cfg { resetRegion s region with
      collecting := some ⟨[], failed, rest, some ⟨region, true⟩⟩ } := by
  let u : State := { resetRegion s region with
    collecting := some ⟨[], failed, rest, some ⟨region, true⟩⟩ }
  have hne := h.ne_current hc
  have hflight : inFlight u = inFlight s := by simp [inFlight, hc, u]
  have howned : owned u = owned s := by
    rw [owned, hflight]
    rfl
  have hexist : s.regions region ≠ none :=
    h.owned_exist region (mem_owned.mpr (Or.inr (Or.inr (inFlight_of_current hc rfl))))
  have hgenSelf : u.generation region = s.generation region + 1 :=
    generation_resetRegion_self hexist
  have hgen : ∀ other, other ≠ region → u.generation other = s.generation other :=
    fun other hother => generation_congr (regions_resetRegion_ne hother)
  have hback : ∀ other, other ∈ s.free ∨ justReset u other → other ∈ s.free ∨ other = region := by
    rintro other (hin | ⟨c, hc', hcurrent⟩)
    · exact Or.inl hin
    · cases hc'
      cases hcurrent
      exact Or.inr rfl
  have hfreeNe : ∀ other ∈ s.free, other ≠ region := fun other hother =>
    hne other (List.mem_append_left _ (List.mem_append_right _ hother))
  refine
    { pooled := h.pooled
      noArena := h.noArena
      owned_nodup := ?_
      owned_exist := fun other hother hnone => ?_
      owned_open := fun other hother => ?_
      generation_le := fun other => ?_
      current := fun buffer hbuffer => ?_
      active_given := h.active_given
      given_exist := fun buffer hbuffer hnone => ?_
      given_le := fun buffer hbuffer => ?_
      given_lt := fun buffer hbuffer hwhere => ?_
      given_order := h.given_order
      free_clean := fun other hwhere => ?_
      free_reset := fun other hwhere => ?_
      bytes := ?_
      free_length := h.free_length
      free_bytes := h.free_bytes }
  · show (owned u).Nodup
    rw [howned]
    exact h.owned_nodup
  · change other ∈ owned u at hother
    rw [howned] at hother
    exact h.owned_exist other hother (regions_modifyRegion_eq_none.mp hnone)
  · change other ∈ owned u at hother
    rw [howned] at hother
    exact (regionClosed_resetRegion region other).trans (h.owned_open other hother)
  · change u.generation other ≤ _
    by_cases heq : other = region
    · subst heq
      rw [hgenSelf]
      exact hgenLt
    · rw [hgen other heq]
      exact h.generation_le other
  · change buffer.generation = u.generation buffer.region
    change buffer ∈ s.active ++ rest at hbuffer
    have hother : buffer.region ≠ region := by
      refine hne _ ?_
      rcases List.mem_append.mp hbuffer with hbuffer | hbuffer
      · exact List.mem_append_left _ (List.mem_append_left _ (List.mem_map_of_mem hbuffer))
      · exact List.mem_append_right _ (List.mem_map_of_mem hbuffer)
    rw [hgen _ hother]
    refine h.current buffer ?_
    rw [todo_eq hc]
    exact hbuffer
  · exact h.given_exist buffer hbuffer (regions_modifyRegion_eq_none.mp hnone)
  · change buffer.generation ≤ u.generation buffer.region
    have hle := h.given_le buffer hbuffer
    by_cases heq : buffer.region = region
    · rw [heq] at hle ⊢
      rw [hgenSelf]
      omega
    · rw [hgen _ heq]
      exact hle
  · change buffer.generation < u.generation buffer.region
    rcases hback _ hwhere with hin | heq
    · rw [hgen _ (hfreeNe _ hin)]
      exact h.given_lt buffer hbuffer (Or.inl hin)
    · have hle := h.given_le buffer hbuffer
      rw [heq] at hle ⊢
      rw [hgenSelf]
      omega
  · change (resetRegion s region).recipients other = []
    rcases hback other hwhere with hin | rfl
    · rw [recipients_congr (regions_resetRegion_ne (hfreeNe other hin))]
      exact h.free_clean other (Or.inl hin)
    · exact recipients_resetRegion_self other
  · rcases hback other hwhere with hin | rfl
    · obtain ⟨entry, hentry, heq⟩ := h.free_reset other (Or.inl hin)
      exact ⟨entry, List.mem_cons_of_mem _ hentry, heq⟩
    · exact ⟨_, List.mem_cons_self, rfl⟩
  · refine h.bytes.trans (congrArg List.sum (List.map_congr_left fun other _ => ?_))
    exact (regionBytes_resetRegion region other).symm

/-- The reset is recorded with recipients that have all acknowledged. -/
theorem ackInv_reset (h : AckInv s) {failed : List Nat} {rest : List SharedBuffer}
    {region : Nat} (hc : s.collecting = some ⟨[], failed, rest, some ⟨region, false⟩⟩)
    (hne : ∀ buffer ∈ rest, buffer.region ≠ region) :
    AckInv { resetRegion s region with
      collecting := some ⟨[], failed, rest, some ⟨region, true⟩⟩ } := by
  refine
    { awaited := fun c hc' buffer hbuffer recipient hrecipient => ?_
      pending_todo := fun c hc' entry hentry => ?_
      current_pending := fun c hc' _ => ?_
      reclaiming := fun c other hc' hcurrent => ?_
      resets := fun entry hentry => ?_ }
  · cases hc'
    have hother := hne buffer hbuffer
    change recipient ∈ (resetRegion s region).recipients buffer.region at hrecipient
    rw [recipients_congr (regions_resetRegion_ne hother)] at hrecipient
    have hwas := h.awaited _ hc buffer hbuffer recipient hrecipient
    show recipient ∈ Function.update s.acknowledged region [] buffer.region ∨ _
    rw [Function.update_of_ne hother]
    exact hwas
  · cases hc'
    cases hentry
  · cases hc'
    rfl
  · cases hc'
    cases hcurrent
  · rcases List.mem_cons.mp hentry with rfl | hentry
    · exact (h.reclaiming _ region hc rfl).2
    · exact h.resets entry hentry

/-- The reset of a region keeps the invariant. -/
theorem poolAll_reset (h : PoolAll cfg s) (hs : reset s = some t) : PoolAll cfg t := by
  unfold reset at hs
  split at hs
  swap
  · cases hs
  rename_i failed rest region hc
  cases hs
  refine ⟨poolInv_reset h.pool hc (h.ack.reclaiming _ region hc rfl).1,
    ackInv_reset h.ack hc fun buffer hbuffer => ?_, ?_⟩
  · exact h.pool.ne_current hc _ (List.mem_append_right _ (List.mem_map_of_mem hbuffer))
  · refine h.refused.of_collection hc rfl rfl (fun _ hfail hin => ⟨hin, hfail⟩)
      (fun other hmem => ?_) fun other hclosed => ?_
    · simpa [owned, liveRegions, inFlight, hc, resetRegion, State.modifyRegion] using hmem
    · exact (regionClosed_resetRegion region other).trans hclosed

/-- The last section of a reclamation keeps the invariant. -/
theorem poolAll_cache (h : PoolAll cfg s) (hs : cache cfg s = some t) : PoolAll cfg t := by
  unfold cache at hs
  split at hs
  swap
  · cases hs
  rename_i failed rest region hc
  have hflight : inFlight s = rest.map SharedBuffer.region ++ [region] := by
    simp [inFlight, hc]
  simp only at hs
  split at hs
  · cases hs
    refine poolAll_drop h hc ?_ (fun _ hmem => hmem) rfl
    rw [hflight]
    exact List.perm_append_singleton _ _
  · rename_i hkeep
    cases hs
    simp only [ge_iff_le, gt_iff_lt, Bool.or_eq_true, decide_eq_true_eq, not_or, not_le,
      not_lt] at hkeep
    have hback : ∀ other, other ∈ region :: s.free → other ∈ s.free ∨ justReset s other := by
      intro other hother
      rcases List.mem_cons.mp hother with rfl | hother
      · exact Or.inr ⟨_, hc, rfl⟩
      · exact Or.inl hother
    have hownedPerm : (liveRegions s ++ region :: s.free ++
        (rest.map SharedBuffer.region ++ [])).Perm (owned s) := by
      rw [owned, hflight, List.perm_iff_count]
      intro other
      simp only [List.count_append, List.count_cons, List.count_nil]
      omega
    refine ⟨?_, ?_, ?_⟩
    · refine h.pool.of_views (.of_regions rfl) (fun _ _ => rfl) rfl rfl (fun _ hmem => hmem) rfl
        (hownedPerm.nodup_iff.mpr h.pool.owned_nodup)
        (fun other hmem => hownedPerm.mem_iff.mp hmem)
        (fun buffer hmem => List.mem_append_right _ ?_)
        (fun other hwhere => hback other (hwhere.resolve_right (not_justReset fun c hc' => ?_)))
        ?_ ?_ ?_
      · rw [todo_eq hc]
        exact hmem
      · cases hc'
        simp
      · show s.cachedBytes + s.regionBytes region = ((region :: s.free).map s.regionBytes).sum
        rw [List.map_cons, List.sum_cons, h.pool.bytes]
        omega
      · exact hkeep.1.2
      · exact hkeep.2
    · exact .of_current_none rfl rfl
        (fun buffer hmem recipient hrecipient =>
          h.ack.awaited _ hc buffer hmem recipient hrecipient)
        (fun entry hentry => by cases hentry) h.ack.resets
    · exact h.refused.of_collection hc rfl rfl (fun _ hfail hin => ⟨hin, hfail⟩)
        (fun other hmem => hownedPerm.mem_iff.mp hmem) fun _ hclosed => hclosed

/-- The end of a collection keeps the invariant. -/
theorem poolAll_collectEnd (h : PoolAll cfg s) (hs : collectEnd s = some t) : PoolAll cfg t := by
  unfold collectEnd at hs
  split at hs
  swap
  · cases hs
  rename_i failed hc
  cases hs
  have hflight : inFlight s = [] := by simp [inFlight, hc]
  have hnodup := h.pool.owned_nodup
  rw [hflight] at hnodup
  refine ⟨?_, ?_, ?_⟩
  · refine h.pool.of_views (.of_regions rfl) (fun _ _ => rfl) rfl rfl (fun _ hmem => hmem) rfl
      hnodup (fun region hmem => ?_) (fun buffer hmem => by cases hmem)
      (fun region hwhere => Or.inl (hwhere.resolve_right (not_justReset fun c hc' => ?_)))
      h.pool.bytes h.pool.free_length h.pool.free_bytes
    · rw [owned, hflight]
      exact hmem
    · cases hc'
  · exact
      { awaited := fun c hc' => by cases hc'
        pending_todo := fun c hc' => by cases hc'
        current_pending := fun c hc' => by cases hc'
        reclaiming := fun c region hc' => by cases hc'
        resets := h.ack.resets }
  · intro region hmem
    rcases h.refused region hmem with ⟨c, hc', hin, -⟩ | ⟨hnot, hclosed⟩
    · rw [hc] at hc'
      cases hc'
      cases hin
    · refine Or.inr ⟨fun hin => hnot ?_, hclosed⟩
      rw [hflight]
      exact hin

/-- The last section of `close` keeps the invariant. -/
theorem poolAll_closeEnd (h : PoolAll cfg s) : PoolAll cfg (closeEnd s) := by
  let u : State := { s.free.foldl closeRegion s with free := [], cachedBytes := 0 }
  have hfields := foldl_closeRegion_eq s.free s
  have hrun : closeEnd s = u := by
    have hregion : (s.free.foldl closeRegion s).arenaRegion = none := by
      rw [hfields]
      exact h.pool.noArena
    unfold closeEnd
    simp only
    split
    · rename_i region hsome _
      rw [hregion] at hsome
      cases hsome
    · rfl
  have hviews : SameViews s u := (sameViews_foldl_closeRegion s.free s).trans (.of_regions rfl)
  have hactive : u.active = s.active := by
    show (s.free.foldl closeRegion s).active = _
    rw [hfields]
  have hcollecting : u.collecting = s.collecting := by
    show (s.free.foldl closeRegion s).collecting = _
    rw [hfields]
  have hflight : inFlight u = inFlight s := by rw [inFlight, hcollecting, inFlight]
  have hsub : (owned u).Sublist (owned s) := by
    rw [owned, owned, liveRegions, hactive, hflight, liveRegions]
    exact ((List.Sublist.refl _).append (List.nil_sublist _)).append (List.Sublist.refl _)
  have hgiven : u.given = s.given := by
    show (s.free.foldl closeRegion s).given = _
    rw [hfields]
  have hresets : u.resets = s.resets := by
    show (s.free.foldl closeRegion s).resets = _
    rw [hfields]
  rw [hrun]
  refine ⟨?_, ?_, ?_⟩
  · refine h.pool.of_views hviews (fun region hmem => ?_) hgiven hresets
      (by rw [hactive]; exact fun _ hmem => hmem) ?_
      (h.pool.owned_nodup.sublist hsub) (fun region hmem => hsub.subset hmem)
      (fun buffer hmem => List.mem_append_right _ ?_) (fun region hwhere => ?_) rfl
      (Nat.zero_le _) (Nat.zero_le _)
    · refine regionClosed_foldl_of_notMem s.free s fun hin => ?_
      rw [owned, hflight, liveRegions, hactive] at hmem
      have hnodup := h.pool.owned_nodup
      rw [List.nodup_append, List.nodup_append] at hnodup
      rcases List.mem_append.mp hmem with hlive | hmem
      · rcases List.mem_append.mp hlive with hlive | hnil
        · exact hnodup.1.2.2 region hlive region hin rfl
        · cases hnil
      · exact hnodup.2.2 region (List.mem_append_right _ hin) region hmem rfl
    · show (s.free.foldl closeRegion s).arenaRegion = _
      rw [hfields]
    · rw [todo, hcollecting] at hmem
      exact hmem
    · rcases hwhere with hin | ⟨c, hc, hcurrent⟩
      · cases hin
      · exact Or.inr ⟨c, by rw [← hcollecting]; exact hc, hcurrent⟩
  · refine h.ack.of_inFlight hcollecting ?_ hresets fun region _ =>
      ⟨hviews.recipients region, hviews.generation region⟩
    show (s.free.foldl closeRegion s).acknowledged = _
    rw [hfields]
  · refine h.refused.of_owned ?_ hcollecting (fun region _ hmem => hsub.subset hmem)
      fun region hclosed => regionClosed_foldl s.free s hclosed
    show (s.free.foldl closeRegion s).refused = _
    rw [hfields]

/-- Every step in pooled mode keeps the invariant. -/
theorem poolAll_step (hmode : cfg.mode = .pooled) (h : PoolAll cfg s) {act : Act}
    (hs : step cfg s act = some t) : PoolAll cfg t := by
  cases act with
  | allocate byteLength allocationId region =>
    simp only [step] at hs
    split at hs
    · rename_i hargs
      cases hs
      exact poolAll_allocate hmode h byteLength allocationId region hargs.2.2.2.2
    · cases hs
  | storageReleased allocationId =>
    simp only [step] at hs
    split at hs
    · cases hs
      exact ⟨{ h.pool with }, { h.ack with }, h.refused⟩
    · cases hs
  | register buffer recipient =>
    simp only [step] at hs
    split at hs
    · rename_i hlive
      cases hs
      simp only [State.isLive, Bool.and_eq_true, decide_eq_true_eq] at hlive
      exact poolAll_register h hlive.1 recipient
    · cases hs
  | collectBegin => exact poolAll_collectBegin h hs
  | retire ok => exact poolAll_retire h hs
  | reclaim => exact poolAll_reclaim h hs
  | reset => exact poolAll_reset h hs
  | cache => exact poolAll_cache h hs
  | collectEnd => exact poolAll_collectEnd h hs
  | closeBegin =>
    cases hs
    exact ⟨{ h.pool with }, { h.ack with }, h.refused⟩
  | closeEnd =>
    simp only [step] at hs
    split at hs
    · cases hs
      exact poolAll_closeEnd h
    · cases hs

/-- A new manager. -/
theorem poolAll_init : PoolAll cfg .init := by
  refine ⟨?_, ?_, fun region hmem => by cases hmem⟩
  · refine
      { pooled := fun buffer hmem => by cases hmem
        noArena := rfl
        owned_nodup := List.nodup_nil
        owned_exist := fun region hmem => by cases hmem
        owned_open := fun region hmem => by cases hmem
        generation_le := fun region => Nat.zero_le _
        current := fun buffer hmem => by cases hmem
        active_given := fun buffer hmem => by cases hmem
        given_exist := fun buffer hmem => by cases hmem
        given_le := fun buffer hmem => by cases hmem
        given_lt := fun buffer hmem => by cases hmem
        given_order := List.Pairwise.nil
        free_clean := fun region _ => rfl
        free_reset := fun region hwhere => ?_
        bytes := rfl
        free_length := Nat.zero_le _
        free_bytes := Nat.zero_le _ }
    rcases hwhere with hmem | ⟨c, hc, -⟩
    · cases hmem
    · cases hc
  · exact
      { awaited := fun c hc => by cases hc
        pending_todo := fun c hc => by cases hc
        current_pending := fun c hc => by cases hc
        reclaiming := fun c region hc => by cases hc
        resets := fun reset hmem => by cases hmem }

/-- The invariant holds in every run in pooled mode. -/
theorem poolAll_of_reachable (hmode : cfg.mode = .pooled)
    (h : (memoryMachine cfg).Reachable s) : PoolAll cfg s :=
  h.invariant (I := PoolAll cfg) poolAll_init fun _ _ _ hinv _ hs => poolAll_step hmode hinv hs

end

/-! ### The law of the pool -/

/-- The identity of regions and the accounting of the pool.

* `exclusive`: a region is in the pool once, or held by one live allocation, and not both.
* `identities`: no two buffers have the same region and generation, and the generation of a
  region increases from one use to the next.
* `acknowledged`: a region is reset after all recipients registered since its last reset have
  returned from `retire_buffers`.
* `clean`: a region in the pool has been reset, has no recipient, and its generation is one
  that no buffer has had.
* `refused`: a region with a recipient that raised is neither in the pool nor held, and it is
  closed when the collection is over.
* `stale`: a buffer of an earlier generation is refused. -/
structure PoolLaw (cfg : Config) (s : State) : Prop where
  exclusive : (liveRegions s ++ s.free).Nodup
  identities : s.given.Pairwise fun later earlier =>
    later.region = earlier.region → earlier.generation < later.generation
  bounded : ∀ buffer ∈ s.given, buffer.generation ≤ MAX_GENERATION
  acknowledged : ∀ reset ∈ s.resets, ∀ recipient ∈ reset.recipients,
    recipient ∈ reset.acknowledged
  clean : ∀ region ∈ s.free, (∃ reset ∈ s.resets, reset.region = region) ∧
    s.recipients region = [] ∧
    ∀ buffer ∈ s.given, buffer.region = region → buffer.generation < s.generation region
  refused : ∀ region ∈ s.refused, region ∉ s.free ∧ region ∉ liveRegions s ∧
    (s.collecting = none → s.regionClosed region = true)
  accounting : s.cachedBytes = (s.free.map s.regionBytes).sum
  length_le : s.free.length ≤ cfg.maxCachedBuffers
  bytes_le : s.cachedBytes ≤ cfg.maxCachedBytes
  current : ∀ buffer ∈ s.active, ensureCurrent s buffer = true
  stale : ∀ buffer ∈ s.given,
    buffer.region ∈ s.free ∨ (∃ holder ∈ s.active, holder.region = buffer.region ∧ holder ≠ buffer) →
    ensureCurrent s buffer = false

section
variable {cfg : Config} {s : State}

/-- Of two buffers of one region, one has a smaller generation. -/
theorem PoolInv.generation_ne (h : PoolInv cfg s) {a b : SharedBuffer} (ha : a ∈ s.given)
    (hb : b ∈ s.given) (hne : a ≠ b) (hregion : a.region = b.region) :
    a.generation ≠ b.generation := by
  have hpair : s.given.Pairwise fun x y => x.region = y.region → x.generation ≠ y.generation :=
    h.given_order.imp fun {x y} hlt heq => (hlt heq).ne'
  have hsymm : Std.Symm fun x y : SharedBuffer =>
      x.region = y.region → x.generation ≠ y.generation :=
    ⟨fun _ _ hxy heq => (hxy heq.symm).symm⟩
  exact hpair.forall ha hb hne hregion

/-- A refused region is not owned, or the running collection will close it. -/
theorem PoolAll.refused_notMem (h : PoolAll cfg s) {region : Nat} (hmem : region ∈ s.refused) :
    region ∉ s.free ∧ region ∉ liveRegions s := by
  have hnodup := h.pool.owned_nodup
  rw [List.nodup_append] at hnodup
  rcases h.refused region hmem with ⟨c, hc, hin, -⟩ | ⟨hnot, -⟩
  · have hflying := inFlight_of_todo hc hin
    exact ⟨fun hfree => hnodup.2.2 region (List.mem_append_right _ hfree) region hflying rfl,
      fun hlive => hnodup.2.2 region (List.mem_append_left _ hlive) region hflying rfl⟩
  · exact ⟨fun hfree => hnot (mem_owned.mpr (Or.inr (Or.inl hfree))),
      fun hlive => hnot (mem_owned.mpr (Or.inl hlive))⟩

end

/-- The law of the pool holds in every run of a manager in pooled mode. -/
theorem poolLaw_of_reachable (cfg : Config) (hmode : cfg.mode = .pooled) (s : State)
    (h : (memoryMachine cfg).Reachable s) : PoolLaw cfg s := by
  have hall : PoolAll cfg s := poolAll_of_reachable hmode h
  have hpool := hall.pool
  refine
    { exclusive := (List.nodup_append.mp hpool.owned_nodup).1
      identities := hpool.given_order
      bounded := fun buffer hmem => ?_
      acknowledged := hall.ack.resets
      clean := fun region hmem => ?_
      refused := fun region hmem => ?_
      accounting := hpool.bytes
      length_le := hpool.free_length
      bytes_le := hpool.free_bytes
      current := fun buffer hmem => ?_
      stale := fun buffer hmem hwhere => ?_ }
  · exact (hpool.given_le buffer hmem).trans (hpool.generation_le _)
  · refine ⟨hpool.free_reset region (Or.inl hmem), hpool.free_clean region (Or.inl hmem), ?_⟩
    rintro buffer hbuffer rfl
    exact hpool.given_lt buffer hbuffer (Or.inl hmem)
  · obtain ⟨hfree, hlive⟩ := hall.refused_notMem hmem
    refine ⟨hfree, hlive, fun hnone => ?_⟩
    rcases hall.refused region hmem with ⟨c, hc, -⟩ | ⟨-, hclosed⟩
    · rw [hnone] at hc
      cases hc
    · exact hclosed
  · rw [ensureCurrent, beq_iff_eq]
    exact hpool.current buffer (List.mem_append_left _ hmem)
  · rw [ensureCurrent, beq_eq_false_iff_ne]
    rcases hwhere with hfree | ⟨holder, hholder, hregion, hne⟩
    · exact (hpool.given_lt buffer hmem (Or.inl hfree)).ne
    · -- The holder has the current generation, and the other buffer another one.
      rw [← hregion, ← hpool.current holder (List.mem_append_left _ hholder)]
      exact (hpool.generation_ne (hpool.active_given holder hholder) hmem hne hregion).symm

/-- A pool of one region. -/
def poolOfOne : Config where
  mode := .pooled
  arenaBytes := 64
  maxCachedBuffers := 1
  maxCachedBytes := 100
  arenaBytes_pos := sixtyFour_pos
  arenaBytes_aligned := aligned_sixtyFour

/-- A region with a recipient is released, retired, reset, cached and handed out again, while
another one is refused and closed. -/
theorem poolLaw_poolOfOne :
    ∃ s, (memoryMachine poolOfOne).Reachable s ∧
      s.given = [⟨7, 2, 3, 0, 10, false⟩, ⟨8, 1, 2, 0, 10, false⟩, ⟨7, 1, 1, 0, 10, false⟩] ∧
      PoolLaw poolOfOne s := by
  obtain ⟨s, hrun, hgiven⟩ := Machine.exists_of_exec (M := memoryMachine poolOfOne) (s := .init)
    (fun s => s.given ==
      [⟨7, 2, 3, 0, 10, false⟩, ⟨8, 1, 2, 0, 10, false⟩, ⟨7, 1, 1, 0, 10, false⟩])
    [.allocate 10 1 7, .allocate 10 2 8, .register ⟨7, 1, 1, 0, 10, false⟩ 5,
      .register ⟨8, 1, 2, 0, 10, false⟩ 6, .storageReleased 1, .storageReleased 2, .collectBegin,
      .retire true, .retire false, .reclaim, .reset, .cache, .reclaim, .collectEnd,
      .allocate 10 3 9] (by decide)
  have hreach := Machine.reachable_of_exec hrun
  exact ⟨s, hreach, by simpa using hgiven, poolLaw_of_reachable poolOfOne rfl s hreach⟩

end Wmfs.Memory
