import Wmfs.Memory.Liveness

/-!
# `Wmfs.Memory.Placement`: where a live allocation is

A live allocation lies in a region that exists, at an aligned offset, and the region is long enough
for it (`placed_of_reachable`). In pooled mode it has the region for itself. In arena mode the
region is the arena, and `ArenaLaw` has the bounds.

No step changes the length of a region that exists. So an allocation stays where it is, and only
`empty` needs an argument.
-/

set_option autoImplicit false

namespace Wmfs.Memory

open Wmfs.Lib

/-- The byte lengths of the regions that exist. -/
def State.lengths (s : State) (region : Nat) : Option Nat :=
  (s.regions region).map Region.byteLength

/-- The allocation lies in its region. -/
structure Placed (s : State) (buffer : SharedBuffer) : Prop where
  positive : 0 < buffer.byteLength
  aligned : ARENA_ALIGNMENT ∣ buffer.offset
  inside : ∃ length, s.lengths buffer.region = some length ∧
    buffer.offset + buffer.byteLength ≤ length

/-- Every live allocation lies in its region, and the region of the arena has its size. -/
structure PlacedInv (cfg : Config) (s : State) : Prop where
  owner : ∀ owner, s.arenaRegion = some owner → s.lengths owner = some cfg.arenaBytes
  placed : ∀ buffer ∈ s.active, Placed s buffer

section
variable {cfg : Config} {s t : State}

/-- The regions of a state keep their lengths in a later one. -/
def KeepsLengths (s t : State) : Prop :=
  ∀ region length, s.lengths region = some length → t.lengths region = some length

/-- Lengths that are the same are kept. -/
theorem keepsLengths_of_eq (h : t.lengths = s.lengths) : KeepsLengths s t := by
  intro region length hlength
  rw [h, hlength]

/-- A buffer stays placed when the lengths are kept. -/
theorem Placed.mono {buffer : SharedBuffer} (h : Placed s buffer) (hkeeps : KeepsLengths s t) :
    Placed t buffer where
  positive := h.positive
  aligned := h.aligned
  inside := by
    obtain ⟨length, hlength, hend⟩ := h.inside
    exact ⟨length, hkeeps _ _ hlength, hend⟩

/-- The invariant is kept with the lengths. -/
theorem PlacedInv.mono (h : PlacedInv cfg s) (hkeeps : KeepsLengths s t)
    (hactive : ∀ buffer ∈ t.active, buffer ∈ s.active)
    (howner : ∀ owner, t.arenaRegion = some owner → s.arenaRegion = some owner) :
    PlacedInv cfg t where
  owner owner hregion := hkeeps _ _ (h.owner owner (howner owner hregion))
  placed buffer hmem := (h.placed buffer (hactive buffer hmem)).mono hkeeps

/-! ### Lengths -/

/-- A change of a region that is not one of its length. -/
theorem lengths_modifyRegion (s : State) (region : Nat) {f : Region → Region}
    (hf : ∀ r, (f r).byteLength = r.byteLength) :
    (s.modifyRegion region f).lengths = s.lengths := by
  funext other
  exact field_modifyRegion Region.byteLength hf

/-- Closing a region keeps the lengths. -/
theorem lengths_closeRegion (s : State) (region : Nat) :
    (closeRegion s region).lengths = s.lengths :=
  lengths_modifyRegion s region fun _ => rfl

/-- Closing regions keeps the lengths. -/
theorem lengths_foldl_closeRegion (regions : List Nat) (s : State) :
    (regions.foldl closeRegion s).lengths = s.lengths := by
  induction regions generalizing s with
  | nil => rfl
  | cons region regions ih =>
    rw [List.foldl_cons, ih]
    exact lengths_closeRegion s region

/-- A release keeps the lengths. -/
theorem lengths_releaseArena (s : State) (buffer : SharedBuffer) :
    (releaseArena s buffer).lengths = s.lengths := by
  unfold releaseArena
  simp only
  split
  · exact lengths_closeRegion _ _
  · rfl

/-- An arena that is there after a release was there before. -/
theorem arenaRegion_releaseArena {s : State} {buffer : SharedBuffer} {owner : Nat}
    (h : (releaseArena s buffer).arenaRegion = some owner) : s.arenaRegion = some owner := by
  unfold releaseArena at h
  simp only at h
  split at h
  · cases h
  · exact h

/-- Draining the queue changes no length and moves no arena. -/
theorem drain_lengths (ids : List Nat) (s : State) :
    (drain s ids).1.lengths = s.lengths ∧
      ∀ owner, (drain s ids).1.arenaRegion = some owner → s.arenaRegion = some owner := by
  induction ids generalizing s with
  | nil => exact ⟨rfl, fun _ h => h⟩
  | cons id ids ih =>
    cases hfind : s.active.find? fun buffer => buffer.allocationId == id with
    | none =>
      rw [drain_of_none ids hfind]
      exact ih s
    | some buffer =>
      simp only [drain, hfind]
      split
      · -- An arena allocation is released before the rest of the queue is drained.
        let rest : State :=
          { s with active := s.active.eraseP fun buffer => buffer.allocationId == id }
        obtain ⟨hlengths, howner⟩ := ih (releaseArena rest buffer)
        refine ⟨hlengths.trans (lengths_releaseArena rest buffer), ?_⟩
        intro owner h
        exact arenaRegion_releaseArena (s := rest) (howner owner h)
      · exact ih _

/-- A new region keeps the lengths of the others. -/
theorem keepsLengths_newRegion {region : Nat} (hfresh : s.regions region = none)
    (byteLength : Nat) : KeepsLengths s (newRegion s region byteLength) := by
  intro other length hlength
  have hne : other ≠ region := by
    rintro rfl
    simp [State.lengths, hfresh] at hlength
  rw [State.lengths, newRegion_views byteLength hne]
  exact hlength

/-- A new region has its length. -/
theorem lengths_newRegion (s : State) (region byteLength : Nat) :
    (newRegion s region byteLength).lengths region = some byteLength := by
  simp [State.lengths, newRegion]

/-- The end of `close` changes no length, no allocation, and moves no arena. -/
theorem closeEnd_lengths (s : State) :
    (closeEnd s).lengths = s.lengths ∧ (closeEnd s).active = s.active ∧
      ∀ owner, (closeEnd s).arenaRegion = some owner → s.arenaRegion = some owner := by
  have hlengths := lengths_foldl_closeRegion s.free s
  have hfields := foldl_closeRegion_eq s.free s
  have hactive : (s.free.foldl closeRegion s).active = s.active := by rw [hfields]
  have harena : (s.free.foldl closeRegion s).arenaRegion = s.arenaRegion := by rw [hfields]
  unfold closeEnd
  simp only
  split
  · rename_i region _ _
    let closed : State := { s.free.foldl closeRegion s with free := [], cachedBytes := 0 }
    refine ⟨(lengths_closeRegion closed region).trans hlengths, hactive, ?_⟩
    intro owner h
    cases h
  · exact ⟨hlengths, hactive, fun owner h => by rwa [harena] at h⟩

/-- A quiet step changes no length. -/
theorem lengths_of_quiet {act : Act} (hquiet : act.quiet = true) (hs : step cfg s act = some t) :
    t.lengths = s.lengths := by
  cases act with
  | allocate | storageReleased | collectBegin | closeEnd => cases hquiet
  | register buffer recipient =>
    simp only [step] at hs
    split at hs <;> cases hs
    unfold register
    split
    · rfl
    · exact lengths_modifyRegion s buffer.region fun _ => rfl
  | retire ok =>
    simp only [step, retire] at hs
    split at hs
    · split at hs <;> cases hs <;> rfl
    · cases hs
  | reclaim =>
    simp only [step, reclaim] at hs
    split at hs
    · rename_i failed buffer todo _
      let rest : State := { s with collecting := some ⟨[], failed, todo, none⟩ }
      split at hs
      · cases hs
        exact lengths_closeRegion rest buffer.region
      · split at hs
        · cases hs
          exact lengths_closeRegion rest buffer.region
        · cases hs
          rfl
    · cases hs
  | reset =>
    simp only [step, reset] at hs
    split at hs <;> cases hs
    exact lengths_modifyRegion s _ fun _ => rfl
  | cache =>
    simp only [step, cache] at hs
    split at hs
    · rename_i failed todo region _
      let rest : State := { s with collecting := some ⟨[], failed, todo, none⟩ }
      split at hs
      · cases hs
        exact lengths_closeRegion rest region
      · cases hs
        rfl
    · cases hs
  | collectEnd =>
    simp only [step, collectEnd] at hs
    split at hs <;> cases hs
    rfl
  | closeBegin =>
    cases hs
    rfl

/-! ### Steps -/

/-- A step that is no allocation keeps the invariant. -/
theorem placedInv_step_of_ne_allocate (h : PlacedInv cfg s) {act : Act}
    (hs : step cfg s act = some t)
    (hne : ∀ byteLength allocationId region, act ≠ .allocate byteLength allocationId region) :
    PlacedInv cfg t := by
  cases act with
  | allocate byteLength allocationId region =>
    exact absurd rfl (hne byteLength allocationId region)
  | storageReleased allocationId =>
    simp only [step] at hs
    split at hs <;> cases hs
    exact h.mono (keepsLengths_of_eq rfl) (fun _ hmem => hmem) fun _ howner => howner
  | collectBegin =>
    simp only [step, collectBegin] at hs
    split at hs <;> cases hs
    obtain ⟨hlengths, howner⟩ := drain_lengths s.released { s with released := [] }
    have hactive := (drain_active s.released { s with released := [] }).1
    exact h.mono (keepsLengths_of_eq hlengths) (fun _ hmem => hactive.subset hmem) howner
  | closeEnd =>
    simp only [step] at hs
    split at hs <;> cases hs
    obtain ⟨hlengths, hactive, howner⟩ := closeEnd_lengths s
    exact h.mono (keepsLengths_of_eq hlengths) (fun _ hmem => hactive ▸ hmem) howner
  | register | retire | reclaim | reset | cache | collectEnd | closeBegin =>
    have hsame := sameAllocations_of_quiet rfl hs
    apply h.mono (keepsLengths_of_eq (lengths_of_quiet rfl hs))
    · intro buffer hmem
      rwa [hsame.active] at hmem
    · intro owner howner
      rwa [hsame.arenaRegion] at howner

/-- A placed buffer may become active. -/
theorem PlacedInv.activate (h : PlacedInv cfg s) {buffer : SharedBuffer} (hbuffer : Placed s buffer) :
    PlacedInv cfg (activate s buffer) where
  owner := h.owner
  placed other hmem := by
    rcases List.mem_cons.mp hmem with rfl | hmem
    · exact hbuffer.mono fun _ _ h => h
    · exact (h.placed other hmem).mono fun _ _ h => h

/-- The first allocation creates the arena. -/
theorem PlacedInv.ensureArena (h : PlacedInv cfg s) {region : Nat}
    (hfresh : s.regions region = none) : PlacedInv cfg (ensureArena cfg s region) := by
  unfold Memory.ensureArena
  split
  · exact h
  · have hkeeps := keepsLengths_newRegion hfresh cfg.arenaBytes
    constructor
    · intro owner howner
      cases howner
      exact lengths_newRegion s region cfg.arenaBytes
    · intro buffer hmem
      exact (h.placed buffer hmem).mono hkeeps

/-- `empty` in arena mode. The arena law of the state behind it has the bounds of the new
allocation. -/
theorem placedInv_allocate_arena (hmode : cfg.mode = .arena) (h : PlacedInv cfg s)
    (hinv : ArenaInv cfg s) {byteLength allocationId region : Nat} (hpos : 0 < byteLength)
    (hfresh : s.regions region = none)
    (hlaw : ArenaLaw cfg (allocate cfg s byteLength allocationId region).1) :
    PlacedInv cfg (allocate cfg s byteLength allocationId region).1 := by
  have hensured := h.ensureArena hfresh
  obtain ⟨⟨owner, howner⟩, -, -, -, -⟩ := ensureArena_spec hinv region
  unfold allocate at hlaw ⊢
  by_cases hclosed : s.closed = true
  · rw [if_pos hclosed]
    exact h
  · rw [if_neg hclosed, hmode] at hlaw ⊢
    simp only [allocateArena, howner, Option.getD_some] at hlaw ⊢
    cases hfit : takeFirstFit (align byteLength ARENA_ALIGNMENT)
        (ensureArena cfg s region).arenaFree with
    | none => exact hensured
    | some taken =>
      simp only [hfit] at hlaw ⊢
      apply PlacedInv.activate
      · refine hensured.mono (keepsLengths_of_eq rfl) (fun _ hmem => hmem) ?_
        intro other hother
        rw [howner]
        exact hother
      · have hinside := hlaw.inside _ List.mem_cons_self
        have haligned := hlaw.aligned _ (List.mem_append_right _ (List.mem_map_of_mem
          List.mem_cons_self))
        exact ⟨hpos, haligned.1, cfg.arenaBytes, hensured.owner owner howner, hinside⟩

/-- `empty` in pooled mode. -/
theorem placedInv_allocate_pooled (hmode : cfg.mode = .pooled) (h : PlacedInv cfg s)
    {byteLength allocationId region : Nat} (hpos : 0 < byteLength)
    (hfresh : s.regions region = none) :
    PlacedInv cfg (allocate cfg s byteLength allocationId region).1 := by
  unfold allocate
  by_cases hclosed : s.closed = true
  · rw [if_pos hclosed]
    exact h
  · rw [if_neg hclosed, hmode]
    simp only [allocatePooled]
    cases hfind : s.free.find? fun region => s.regionBytes region == byteLength with
    | some cached =>
      -- A cached region has the length that is asked for, so it exists.
      have hbytes : s.regionBytes cached = byteLength := by simpa using List.find?_some hfind
      have hlength : s.lengths cached = some byteLength := by
        unfold State.regionBytes at hbytes
        unfold State.lengths
        cases hregion : (s.regions cached).map Region.byteLength with
        | none =>
          rw [hregion, Option.getD_none] at hbytes
          omega
        | some length =>
          rw [hregion, Option.getD_some] at hbytes
          rw [hbytes]
      apply PlacedInv.activate
      · exact h.mono (keepsLengths_of_eq rfl) (fun _ hmem => hmem) fun _ howner => howner
      · exact ⟨hpos, Nat.dvd_zero _, byteLength, hlength, (Nat.zero_add _).le⟩
    | none =>
      apply PlacedInv.activate
      · exact h.mono (keepsLengths_newRegion hfresh byteLength) (fun _ hmem => hmem)
          fun _ howner => howner
      · exact ⟨hpos, Nat.dvd_zero _, byteLength, lengths_newRegion s region byteLength,
          (Nat.zero_add _).le⟩

end

/-- Every live allocation of a run lies in its region. -/
theorem placed_of_reachable {cfg : Config} {s : State} (h : (memoryMachine cfg).Reachable s)
    {buffer : SharedBuffer} (hlive : buffer ∈ s.active) : Placed s buffer := by
  have hinv : PlacedInv cfg s := by
    apply h.invariant_of_reach (I := PlacedInv cfg)
    · constructor
      · intro owner howner
        cases howner
      · intro buffer hmem
        cases hmem
    · intro s act t hreach hinv _ hs
      by_cases hallocate : ∃ byteLength allocationId region,
          act = .allocate byteLength allocationId region
      · obtain ⟨byteLength, allocationId, region, rfl⟩ := hallocate
        have hnext := hreach.next trivial hs
        have hs : step cfg s (.allocate byteLength allocationId region) = some t := hs
        simp only [step] at hs
        split at hs
        · rename_i hargs
          cases hs
          cases hmode : cfg.mode with
          | pooled => exact placedInv_allocate_pooled hmode hinv hargs.1 hargs.2.2.2.2
          | arena =>
            exact placedInv_allocate_arena hmode hinv (arenaInv_of_reachable hmode hreach) hargs.1
              hargs.2.2.2.2 (arenaLaw_of_reachable cfg hmode _ hnext)
        · cases hs
      · apply placedInv_step_of_ne_allocate hinv hs
        intro byteLength allocationId region heq
        exact hallocate ⟨byteLength, allocationId, region, heq⟩
  exact hinv.placed buffer hlive

end Wmfs.Memory
