import Mathlib.Tactic.Cases
import Wmfs.Lib.Dict
import Wmfs.Memory.Model

/-!
# `Wmfs.Memory.Arena`: the arena allocator keeps a partition

In arena mode every live allocation owns the extent of its offset and its rounded length. The
free list and these extents tile the arena (`ArenaInv.tiles`). An allocation cuts its extent
off a free one (`coverage_takeFirstFit`). A release puts the extent back, sorts and merges
(`mergeExtents_spec`). The merge restores a list with a gap between any two extents,
because the sorted extents do not overlap and touching ones are joined.

`arenaLaw_of_reachable` states the result for every run, with the exact condition under which
an allocation fails.
-/

set_option autoImplicit false

namespace Wmfs.Memory

open Wmfs.Lib

/-- All offsets and lengths are multiples of the alignment. -/
def Aligned (extents : List Extent) : Prop :=
  ∀ extent ∈ extents, ARENA_ALIGNMENT ∣ extent.1 ∧ ARENA_ALIGNMENT ∣ extent.2

/-! ### Rounding -/

/-- An aligned value is a multiple of the alignment. -/
theorem dvd_align (value : Nat) : ARENA_ALIGNMENT ∣ align value ARENA_ALIGNMENT :=
  Nat.dvd_mul_left _ _

/-- The rounded length is the least multiple that is not below the length. -/
theorem le_align (value : Nat) : value ≤ align value ARENA_ALIGNMENT := by
  unfold align ARENA_ALIGNMENT
  omega

/-- An aligned value is positive. -/
theorem align_pos {value : Nat} (h : 0 < value) : 0 < align value ARENA_ALIGNMENT :=
  h.trans_le (le_align value)

/-! ### First fit -/

/-- The first fit fails exactly when every extent is too short. -/
theorem takeFirstFit_eq_none_iff (required : Nat) (free : List Extent) :
    takeFirstFit required free = none ↔ ∀ extent ∈ free, extent.2 < required := by
  induction free with
  | nil => simp [takeFirstFit]
  | cons extent rest ih =>
    obtain ⟨offset, length⟩ := extent
    rw [takeFirstFit]
    by_cases hshort : length < required
    · rw [if_pos hshort, Option.map_eq_none_iff, ih]
      simp [hshort]
    · rw [if_neg hshort]
      by_cases hlong : length > required <;> simp [hlong, hshort]

/-- What is left of an extent after `required` bytes have been cut off its front. -/
def remainder (offset length required : Nat) : List Extent :=
  if length > required then [(offset + required, length - required)] else []

/-- The first fit cuts the front off one extent that is long enough. What is left of that extent
stays in its place. -/
theorem exists_of_takeFirstFit {required : Nat} : ∀ {free : List Extent} {offset : Nat}
    {free' : List Extent}, takeFirstFit required free = some (offset, free') →
    ∃ before length after, free = before ++ (offset, length) :: after ∧ required ≤ length ∧
      free' = before ++ remainder offset length required ++ after := by
  intro free
  induction free with
  | nil => intro offset free' h; cases h
  | cons extent rest ih =>
    intro offset free' h
    obtain ⟨start, length⟩ := extent
    rw [takeFirstFit] at h
    by_cases hshort : length < required
    · -- The loop passes over the extent.
      rw [if_pos hshort, Option.map_eq_some_iff] at h
      obtain ⟨⟨offset', rest'⟩, hrest, heq⟩ := h
      simp only [Prod.mk.injEq] at heq
      obtain ⟨rfl, rfl⟩ := heq
      obtain ⟨before, length', after, rfl, hlength, rfl⟩ := ih hrest
      exact ⟨(start, length) :: before, length', after, rfl, hlength, rfl⟩
    · rw [if_neg hshort] at h
      refine ⟨[], length, rest, ?_⟩
      unfold remainder
      by_cases hlong : length > required
      · rw [if_pos hlong] at h ⊢
        cases h
        exact ⟨rfl, hlong.le, rfl⟩
      · rw [if_neg hlong] at h ⊢
        cases h
        exact ⟨rfl, Nat.le_of_not_lt hshort, rfl⟩

/-- The only extent that can be left. -/
theorem eq_of_mem_remainder {offset length required : Nat} {extent : Extent}
    (h : extent ∈ remainder offset length required) :
    extent = (offset + required, length - required) ∧ required < length := by
  unfold remainder at h
  split at h
  · rename_i hlong
    exact ⟨List.mem_singleton.mp h, hlong⟩
  · cases h

/-- The cut and what is left cover the extent. -/
theorem coverage_remainder {offset length required : Nat} (h : required ≤ length) (byte : Nat) :
    (covers byte (offset, length)).toNat =
      (covers byte (offset, required)).toNat +
        coverage (remainder offset length required) byte := by
  unfold remainder
  by_cases hlong : length > required
  · have hcut := coverage_cut offset required (length - required) byte
    rw [Nat.add_sub_cancel' h] at hcut
    rw [if_pos hlong, hcut, coverage_cons, coverage_nil]
    omega
  · obtain rfl : length = required := by omega
    rw [if_neg hlong, coverage_nil, Nat.add_zero]

/-- The extent that is cut off and the free list afterwards cover what the free list covered
before. -/
theorem coverage_takeFirstFit {required offset : Nat} {free free' : List Extent}
    (h : takeFirstFit required free = some (offset, free')) (byte : Nat) :
    coverage free byte = coverage ((offset, required) :: free') byte := by
  obtain ⟨before, length, after, rfl, hlength, rfl⟩ := exists_of_takeFirstFit h
  simp only [coverage_append, coverage_cons, coverage_remainder hlength]
  omega

/-- A separated free list stays separated. -/
theorem separated_takeFirstFit {required offset : Nat} {free free' : List Extent}
    (h : takeFirstFit required free = some (offset, free')) (hsep : Separated free) :
    Separated free' := by
  obtain ⟨before, length, after, rfl, hlength, rfl⟩ := exists_of_takeFirstFit h
  simp only [Separated, List.pairwise_append, List.pairwise_cons, List.mem_cons,
    forall_eq_or_imp] at hsep
  obtain ⟨hbefore, ⟨hhead, hafter⟩, hcross⟩ := hsep
  rw [List.append_assoc]
  refine List.pairwise_append.mpr ⟨hbefore, List.pairwise_append.mpr ⟨?_, hafter, ?_⟩, ?_⟩
  · unfold remainder
    split
    · exact List.pairwise_singleton _ _
    · exact List.Pairwise.nil
  · -- What is left ends where the extent ended.
    intro left hleft extent hextent
    obtain ⟨rfl, hlong⟩ := eq_of_mem_remainder hleft
    have hgap := hhead extent hextent
    simp only at hgap ⊢
    omega
  · intro earlier hearlier extent hextent
    obtain ⟨hgap, hrest⟩ := hcross earlier hearlier
    rcases List.mem_append.mp hextent with hleft | hextent
    · obtain ⟨rfl, -⟩ := eq_of_mem_remainder hleft
      exact hgap.trans_le (Nat.le_add_right _ _)
    · exact hrest extent hextent

/-- The extents that are left are neither empty nor misaligned, and the cut is aligned. -/
theorem aligned_takeFirstFit {required offset : Nat} {free free' : List Extent}
    (hrequired : ARENA_ALIGNMENT ∣ required)
    (h : takeFirstFit required free = some (offset, free')) (hpos : Positive free)
    (halign : Aligned free) : Positive free' ∧ Aligned free' ∧ ARENA_ALIGNMENT ∣ offset := by
  obtain ⟨before, length, after, rfl, hlength, rfl⟩ := exists_of_takeFirstFit h
  have hextent := halign (offset, length) (by simp)
  -- Every extent afterwards is the remainder or was free before.
  have hcases : ∀ extent ∈ before ++ remainder offset length required ++ after,
      extent ∈ before ++ (offset, length) :: after ∨
        (extent = (offset + required, length - required) ∧ required < length) := by
    intro extent hmem
    rcases List.mem_append.mp hmem with hmem | hmem
    · rcases List.mem_append.mp hmem with hmem | hmem
      · exact Or.inl (List.mem_append_left _ hmem)
      · exact Or.inr (eq_of_mem_remainder hmem)
    · exact Or.inl (List.mem_append_right _ (List.mem_cons_of_mem _ hmem))
  refine ⟨fun extent hmem => ?_, fun extent hmem => ?_, hextent.1⟩
  · rcases hcases extent hmem with hold | ⟨rfl, hlong⟩
    · exact hpos extent hold
    · exact Nat.sub_pos_of_lt hlong
  · rcases hcases extent hmem with hold | ⟨rfl, -⟩
    · exact halign extent hold
    · exact ⟨Nat.dvd_add hextent.1 hrequired, Nat.dvd_sub hextent.2 hrequired⟩

/-! ### Sort and merge -/

/-- The merge loop over ordered extents covers the same bytes. Its result is separated, starts
where `last` starts, and stays aligned. -/
theorem mergeFrom_spec : ∀ (rest : List Extent) (last : Extent), Ordered (last :: rest) →
    Positive (last :: rest) → Aligned (last :: rest) →
    (∀ byte, coverage (mergeFrom last rest) byte = coverage (last :: rest) byte) ∧
      Separated (mergeFrom last rest) ∧ Positive (mergeFrom last rest) ∧
      Aligned (mergeFrom last rest) ∧ ∀ extent ∈ mergeFrom last rest, last.1 ≤ extent.1 := by
  intro rest
  induction rest with
  | nil =>
    intro last _ hpos halign
    refine ⟨fun _ => rfl, List.pairwise_singleton _ _, hpos, halign, fun extent hmem => ?_⟩
    rw [mergeFrom, List.mem_singleton] at hmem
    rw [hmem]
  | cons next rest ih =>
    rintro ⟨start, length⟩ hord hpos halign
    obtain ⟨offset, size⟩ := next
    obtain ⟨hbefore, hordRest⟩ := List.pairwise_cons.mp hord
    obtain ⟨hnext, hordTail⟩ := List.pairwise_cons.mp hordRest
    have hposLast := hpos (start, length) (by simp)
    have hposNext := hpos (offset, size) (by simp)
    have halignLast := halign (start, length) (by simp)
    have halignNext := halign (offset, size) (by simp)
    rw [mergeFrom]
    by_cases htouch : start + length = offset
    · -- The two extents are joined, and the loop continues with their union.
      rw [if_pos htouch]
      have hord' : Ordered ((start, length + size) :: rest) := by
        refine List.pairwise_cons.mpr ⟨fun extent hmem => ?_, hordTail⟩
        have := hnext extent hmem
        simp only at this ⊢
        omega
      have hpos' : Positive ((start, length + size) :: rest) := by
        intro extent hmem
        rcases List.mem_cons.mp hmem with rfl | hmem
        · exact Nat.lt_add_right _ hposLast
        · exact hpos extent (by simp [hmem])
      have halign' : Aligned ((start, length + size) :: rest) := by
        intro extent hmem
        rcases List.mem_cons.mp hmem with rfl | hmem
        · exact ⟨halignLast.1, Nat.dvd_add halignLast.2 halignNext.2⟩
        · exact halign extent (by simp [hmem])
      obtain ⟨hcover, hrest⟩ := ih (start, length + size) hord' hpos' halign'
      refine ⟨fun byte => ?_, hrest⟩
      rw [hcover, coverage_cons, coverage_cut, htouch, coverage_cons, coverage_cons]
      omega
    · rw [if_neg htouch]
      have hgap : start + length < offset := by
        have := hbefore (offset, size) (by simp)
        simp only at this
        omega
      obtain ⟨hcover, hsep, hpos', halign', hstart⟩ := ih (offset, size) hordRest
        (fun e he => hpos e (List.mem_cons_of_mem _ he))
        (fun e he => halign e (List.mem_cons_of_mem _ he))
      refine ⟨fun byte => ?_, ?_, ?_, ?_, ?_⟩
      · rw [coverage_cons, hcover, ← coverage_cons]
      · exact List.pairwise_cons.mpr ⟨fun e he => hgap.trans_le (hstart e he), hsep⟩
      · intro extent hmem
        rcases List.mem_cons.mp hmem with rfl | hmem
        · exact hposLast
        · exact hpos' extent hmem
      · intro extent hmem
        rcases List.mem_cons.mp hmem with rfl | hmem
        · exact halignLast
        · exact halign' extent hmem
      · intro extent hmem
        rcases List.mem_cons.mp hmem with rfl | hmem
        · exact Nat.le_refl _
        · have := hstart extent hmem
          simp only at this
          omega

instance : Std.Total extentLe := ⟨fun a b => by unfold extentLe; omega⟩

instance : IsTrans Extent extentLe := ⟨fun a b c hab hbc => by unfold extentLe at *; omega⟩

/-- Sorted extents that do not overlap are ordered. -/
theorem ordered_insertionSort {extents : List Extent} (hpos : Positive extents)
    (hcover : ∀ byte, coverage extents byte ≤ 1) :
    Ordered (extents.insertionSort extentLe) := by
  have hperm := List.perm_insertionSort extentLe extents
  have hpos' : Positive (extents.insertionSort extentLe) := fun e he =>
    hpos e (hperm.mem_iff.mp he)
  have hdisjoint := disjoint_of_coverage hpos' fun byte => by
    rw [coverage_perm hperm]
    exact hcover byte
  refine ((List.pairwise_insertionSort extentLe extents).and hdisjoint).imp_of_mem ?_
  rintro a b ha hb ⟨hle, hdis⟩
  have := hpos' a ha
  have := hpos' b hb
  unfold extentLe at hle
  omega

/-- The sort and the merge of extents that do not overlap. -/
theorem mergeExtents_spec {extents : List Extent} (hpos : Positive extents)
    (halign : Aligned extents) (hcover : ∀ byte, coverage extents byte ≤ 1) :
    (∀ byte, coverage (mergeExtents (extents.insertionSort extentLe)) byte =
      coverage extents byte) ∧
    Separated (mergeExtents (extents.insertionSort extentLe)) ∧
    Positive (mergeExtents (extents.insertionSort extentLe)) ∧
    Aligned (mergeExtents (extents.insertionSort extentLe)) := by
  have hperm := List.perm_insertionSort extentLe extents
  have hord := ordered_insertionSort hpos hcover
  have hcoverPerm := coverage_perm hperm
  have hpos' : Positive (extents.insertionSort extentLe) := fun e he =>
    hpos e (hperm.mem_iff.mp he)
  have halign' : Aligned (extents.insertionSort extentLe) := fun e he =>
    halign e (hperm.mem_iff.mp he)
  rcases hsorted : extents.insertionSort extentLe with _ | ⟨first, rest⟩
  · rw [hsorted] at hcoverPerm hpos' halign'
    exact ⟨hcoverPerm, List.Pairwise.nil, hpos', halign'⟩
  · rw [hsorted] at hcoverPerm hpos' halign' hord
    obtain ⟨hmerge, hsep, hposM, halignM, -⟩ := mergeFrom_spec rest first hord hpos' halign'
    exact ⟨fun byte => (hmerge byte).trans (hcoverPerm byte), hsep, hposM, halignM⟩

/-! ### The invariant -/

/-- The free list. An arena that has not been created yet is entirely free. -/
def freeExtents (cfg : Config) (s : State) : List Extent :=
  match s.arenaRegion with
  | none => [(0, cfg.arenaBytes)]
  | some _ => s.arenaFree

/-- The extents of the live allocations. -/
def liveExtents (s : State) : List Extent := s.active.map SharedBuffer.extent

/-- The invariant of a manager in arena mode. -/
structure ArenaInv (cfg : Config) (s : State) : Prop where
  arena : ∀ buffer ∈ s.active, buffer.arena = true ∧ 0 < buffer.byteLength
  created : s.arenaRegion = none → s.active = []
  tiles : Tiles cfg.arenaBytes (freeExtents cfg s ++ liveExtents s)
  separated : Separated (freeExtents cfg s)
  positive : Positive (freeExtents cfg s)
  aligned : Aligned (freeExtents cfg s ++ liveExtents s)

section
variable {cfg : Config} {s t : State}

/-- An entirely free arena satisfies the invariant. -/
theorem arenaInv_of_free (hactive : s.active = [])
    (hfree : freeExtents cfg s = [(0, cfg.arenaBytes)]) : ArenaInv cfg s := by
  have hlive : liveExtents s = [] := by rw [liveExtents, hactive]; rfl
  refine
    { arena := fun buffer hmem => ?_
      created := fun _ => hactive
      tiles := ?_
      separated := ?_
      positive := fun extent hmem => ?_
      aligned := fun extent hmem => ?_ }
  · rw [hactive] at hmem
    cases hmem
  · rw [hlive, hfree]
    exact tiles_singleton _
  · rw [hfree]
    exact List.pairwise_singleton _ _
  · rw [hfree, List.mem_singleton] at hmem
    rw [hmem]
    exact cfg.arenaBytes_pos
  · rw [hlive, hfree, List.append_nil, List.mem_singleton] at hmem
    rw [hmem]
    exact ⟨Nat.dvd_zero _, cfg.arenaBytes_aligned⟩

/-- The invariant depends on the live allocations and on the free list. -/
theorem ArenaInv.congr (h : ArenaInv cfg s) (hactive : t.active = s.active)
    (hregion : t.arenaRegion = s.arenaRegion) (hfree : t.arenaFree = s.arenaFree) :
    ArenaInv cfg t := by
  have heq : freeExtents cfg t = freeExtents cfg s := by
    simp only [freeExtents, hregion, hfree]
  have hlive : liveExtents t = liveExtents s := by rw [liveExtents, hactive, liveExtents]
  refine
    { arena := by rw [hactive]; exact h.arena
      created := by rw [hactive, hregion]; exact h.created
      tiles := by rw [heq, hlive]; exact h.tiles
      separated := by rw [heq]; exact h.separated
      positive := by rw [heq]; exact h.positive
      aligned := by rw [heq, hlive]; exact h.aligned }

/-- A live arena allocation has a positive rounded length. -/
theorem ArenaInv.positive_live (h : ArenaInv cfg s) : Positive (liveExtents s) := by
  intro extent hmem
  obtain ⟨buffer, hbuffer, rfl⟩ := List.mem_map.mp hmem
  exact align_pos (h.arena buffer hbuffer).2

/-- An allocation that finds an extent keeps the invariant. -/
theorem arenaInv_take (h : ArenaInv cfg s) {region offset byteLength : Nat}
    (hregion : s.arenaRegion = some region) (hpos : 0 < byteLength) {free : List Extent}
    (htake : takeFirstFit (align byteLength ARENA_ALIGNMENT) s.arenaFree = some (offset, free))
    (buffer : SharedBuffer) (hextent : buffer.extent = (offset, align byteLength ARENA_ALIGNMENT))
    (harena : buffer.arena = true) (hlength : buffer.byteLength = byteLength) :
    ArenaInv cfg (activate { s with arenaFree := free } buffer) := by
  have hold : freeExtents cfg s = s.arenaFree := by simp only [freeExtents, hregion]
  have hposFree := h.positive
  have halign := h.aligned
  have hsep := h.separated
  have htiles := h.tiles
  rw [hold] at hposFree halign hsep htiles
  have halignFree : Aligned s.arenaFree := fun e he => halign e (List.mem_append_left _ he)
  obtain ⟨hpos', halign', hoffset⟩ :=
    aligned_takeFirstFit (dvd_align byteLength) htake hposFree halignFree
  let u : State := activate { s with arenaFree := free } buffer
  have hnew : freeExtents cfg u = free := by simp only [freeExtents, u, activate, hregion]
  have hlive : liveExtents u =
      (offset, align byteLength ARENA_ALIGNMENT) :: liveExtents s := by
    show (buffer :: s.active).map SharedBuffer.extent = _
    rw [List.map_cons, hextent, liveExtents]
  refine
    { arena := fun other hmem => ?_
      created := fun hnone => ?_
      tiles := ?_
      separated := ?_
      positive := ?_
      aligned := fun extent hmem => ?_ }
  · rcases List.mem_cons.mp hmem with rfl | hmem
    · exact ⟨harena, hlength ▸ hpos⟩
    · exact h.arena other hmem
  · change s.arenaRegion = none at hnone
    rw [hregion] at hnone
    cases hnone
  · -- The cut moves from the free list to the live extents.
    show Tiles cfg.arenaBytes (freeExtents cfg u ++ liveExtents u)
    refine htiles.of_coverage fun byte => ?_
    rw [hnew, hlive, coverage_append, coverage_append, coverage_takeFirstFit htake, coverage_cons,
      coverage_cons]
    omega
  · show Separated (freeExtents cfg u)
    rw [hnew]
    exact separated_takeFirstFit htake hsep
  · show Positive (freeExtents cfg u)
    rw [hnew]
    exact hpos'
  · change extent ∈ freeExtents cfg u ++ liveExtents u at hmem
    rw [hnew, hlive] at hmem
    rcases List.mem_append.mp hmem with hfree | hlive
    · exact halign' extent hfree
    · rcases List.mem_cons.mp hlive with rfl | hlive
      · exact ⟨hoffset, dvd_align byteLength⟩
      · exact halign extent (List.mem_append_right _ hlive)

/-- The creation of the region changes neither the free extents nor the live ones. -/
theorem ensureArena_spec (h : ArenaInv cfg s) (region : Nat) :
    (∃ owner, (ensureArena cfg s region).arenaRegion = some owner) ∧
      (ensureArena cfg s region).active = s.active ∧
      (ensureArena cfg s region).arenaFree = freeExtents cfg s ∧
      freeExtents cfg (ensureArena cfg s region) = freeExtents cfg s ∧
      ArenaInv cfg (ensureArena cfg s region) := by
  unfold ensureArena
  rcases hregion : s.arenaRegion with _ | owner
  · have hactive := h.created hregion
    refine ⟨⟨region, rfl⟩, rfl, ?_, ?_, arenaInv_of_free hactive rfl⟩
    · simp only [freeExtents, hregion]
    · simp only [freeExtents, hregion]
  · refine ⟨⟨owner, hregion⟩, rfl, ?_, rfl, h⟩
    simp only [freeExtents, hregion]

/-- What `empty` does in arena mode on an open manager. -/
theorem allocate_arena_cases (hmode : cfg.mode = .arena) (hopen : s.closed = false)
    (h : ArenaInv cfg s) {byteLength : Nat} (allocationId region : Nat)
    (hpos : 0 < byteLength) :
    ArenaInv cfg (allocate cfg s byteLength allocationId region).1 ∧
    ((∀ extent ∈ freeExtents cfg s, extent.2 < align byteLength ARENA_ALIGNMENT) ∧
        (allocate cfg s byteLength allocationId region).2 =
          .error (.exhausted (align byteLength ARENA_ALIGNMENT) cfg.arenaBytes) ∧
        freeExtents cfg (allocate cfg s byteLength allocationId region).1 = freeExtents cfg s ∧
        (allocate cfg s byteLength allocationId region).1.active = s.active ∨
      (¬ ∀ extent ∈ freeExtents cfg s, extent.2 < align byteLength ARENA_ALIGNMENT) ∧
        ∃ buffer, (allocate cfg s byteLength allocationId region).2 = .ok buffer) := by
  obtain ⟨⟨owner, hregion⟩, hactive, hfree, hsame, hinv⟩ := ensureArena_spec h region
  have hnone := takeFirstFit_eq_none_iff (align byteLength ARENA_ALIGNMENT)
    (ensureArena cfg s region).arenaFree
  rw [hfree] at hnone
  simp only [allocate, hopen, Bool.false_eq_true, if_false, hmode, allocateArena]
  rcases htake : takeFirstFit (align byteLength ARENA_ALIGNMENT)
    (ensureArena cfg s region).arenaFree with _ | ⟨offset, free⟩
  · refine ⟨hinv, Or.inl ⟨hnone.mp ?_, rfl, hsame, hactive⟩⟩
    rw [← hfree]
    exact htake
  · refine ⟨arenaInv_take hinv hregion hpos htake _ rfl rfl rfl, Or.inr ⟨fun hshort => ?_, _, rfl⟩⟩
    rw [hfree, hnone.mpr hshort] at htake
    cases htake

/-! ### Releases -/

/-- A release of an arena allocation keeps the invariant. -/
theorem arenaInv_releaseArena (h : ArenaInv cfg s) {before after : List SharedBuffer}
    {buffer : SharedBuffer} (hsplit : s.active = before ++ buffer :: after) :
    ArenaInv cfg (releaseArena { s with active := before ++ after } buffer) := by
  obtain ⟨owner, hregion⟩ : ∃ owner, s.arenaRegion = some owner := by
    refine Option.ne_none_iff_exists'.mp fun hnone => ?_
    rw [h.created hnone] at hsplit
    simp at hsplit
  have hfree : freeExtents cfg s = s.arenaFree := by simp only [freeExtents, hregion]
  have hmem : buffer ∈ s.active := by simp [hsplit]
  have hlive : ∀ byte, coverage (liveExtents s) byte =
      coverage ((before ++ after).map SharedBuffer.extent) byte +
        (covers byte buffer.extent).toNat := by
    intro byte
    have hperm : (liveExtents s).Perm
        (buffer.extent :: (before ++ after).map SharedBuffer.extent) := by
      rw [liveExtents, hsplit, ← List.map_cons]
      exact List.perm_middle.map _
    rw [coverage_perm hperm, coverage_cons]
  have htiles := h.tiles
  have haligned := h.aligned
  have hpositive := h.positive
  rw [hfree] at htiles haligned hpositive
  -- The extents that are sorted: the free list and the released extent.
  have hposAll : Positive (s.arenaFree ++ [buffer.extent]) := by
    intro extent hextent
    rcases List.mem_append.mp hextent with hold | hnew
    · exact hpositive extent hold
    · rw [List.mem_singleton.mp hnew]
      exact align_pos (h.arena buffer hmem).2
  have halignAll : Aligned (s.arenaFree ++ [buffer.extent]) := by
    intro extent hextent
    rcases List.mem_append.mp hextent with hold | hnew
    · exact haligned extent (List.mem_append_left _ hold)
    · rw [List.mem_singleton.mp hnew]
      exact haligned buffer.extent (List.mem_append_right _ (List.mem_map_of_mem hmem))
  have hcoverAll : ∀ byte, coverage (s.arenaFree ++ [buffer.extent]) byte ≤ 1 := by
    intro byte
    have hone : coverage (s.arenaFree ++ liveExtents s) byte ≤ 1 := by
      rw [htiles byte]
      split <;> omega
    rw [coverage_append, hlive] at hone
    rw [coverage_append, coverage_cons, coverage_nil]
    omega
  obtain ⟨hcover, hsep, hpos, halign⟩ := mergeExtents_spec hposAll halignAll hcoverAll
  let u : State := { s with
    active := before ++ after
    arenaFree := mergeExtents ((s.arenaFree ++ [buffer.extent]).insertionSort extentLe) }
  have hnew : freeExtents cfg u =
      mergeExtents ((s.arenaFree ++ [buffer.extent]).insertionSort extentLe) := by
    simp only [freeExtents, u, hregion]
  have hinv : ArenaInv cfg u := by
    refine
      { arena := fun other hother => h.arena other ?_
        created := fun hnone => ?_
        tiles := ?_
        separated := by rw [hnew]; exact hsep
        positive := by rw [hnew]; exact hpos
        aligned := fun extent hextent => ?_ }
    · rw [hsplit]
      rcases List.mem_append.mp hother with hother | hother <;> simp [hother]
    · change s.arenaRegion = none at hnone
      rw [hregion] at hnone
      cases hnone
    · refine htiles.of_coverage fun byte => ?_
      rw [hnew, coverage_append, hcover, coverage_append, coverage_append, coverage_cons,
        coverage_nil, hlive]
      show _ + coverage ((before ++ after).map SharedBuffer.extent) byte = _
      omega
    · rw [hnew] at hextent
      rcases List.mem_append.mp hextent with hextent | hextent
      · exact halign extent hextent
      · refine haligned extent (List.mem_append_right _ ?_)
        obtain ⟨other, hother, rfl⟩ := List.mem_map.mp hextent
        refine List.mem_map_of_mem ?_
        rw [hsplit]
        rcases List.mem_append.mp hother with hother | hother <;> simp [hother]
  unfold releaseArena
  dsimp only
  split
  · -- The last release after `close` drops the region: the arena counts as free again.
    rename_i hlast _
    simp only [Bool.and_eq_true, List.isEmpty_iff] at hlast
    exact arenaInv_of_free hlast.2 rfl
  · exact hinv

/-- A collection in arena mode keeps the invariant, and has no pooled buffers. -/
theorem arenaInv_drain : ∀ (ids : List Nat) (s : State), ArenaInv cfg s →
    ArenaInv cfg (drain s ids).1 ∧ (drain s ids).2 = [] := by
  intro ids
  induction ids with
  | nil => intro s h; exact ⟨h, rfl⟩
  | cons id ids ih =>
    intro s h
    rcases hfind : s.active.find? (fun buffer => buffer.allocationId == id) with _ | buffer
    · rw [drain_of_none ids hfind]
      exact ih s h
    · obtain ⟨-, before, after, hsplit, herase⟩ := exists_split_of_find hfind
      have harena := (h.arena buffer (by simp [hsplit])).1
      simp only [drain, hfind, harena, if_true, herase]
      exact ih _ (arenaInv_releaseArena h hsplit)

end

/-! ### Runs -/

/-- Every step of a manager in arena mode keeps the invariant. -/
theorem arenaInv_step {cfg : Config} (hmode : cfg.mode = .arena) {s t : State}
    (h : ArenaInv cfg s) {a : Act} (hs : step cfg s a = some t) : ArenaInv cfg t := by
  cases a with
  | allocate byteLength allocationId region =>
    simp only [step] at hs
    split at hs
    · rename_i hids
      cases hs
      by_cases hclosed : s.closed = true
      · simp only [allocate, hclosed, if_true]
        exact h
      · exact (allocate_arena_cases hmode (by simpa using hclosed) h allocationId region
          hids.1).1
    · cases hs
  | storageReleased allocationId =>
    simp only [step] at hs
    split at hs <;> cases hs
    exact h.congr rfl rfl rfl
  | collectBegin =>
    simp only [step, collectBegin] at hs
    split at hs
    · cases hs
    · cases hs
      have hstart : ArenaInv cfg { s with released := [] } := h.congr rfl rfl rfl
      exact (arenaInv_drain s.released _ hstart).1.congr rfl rfl rfl
  | closeEnd =>
    simp only [step] at hs
    split at hs
    · cases hs
      have hfields := foldl_closeRegion_eq s.free s
      have hactive : (s.free.foldl closeRegion s).active = s.active := by rw [hfields]
      have hregion : (s.free.foldl closeRegion s).arenaRegion = s.arenaRegion := by rw [hfields]
      have hfree : (s.free.foldl closeRegion s).arenaFree = s.arenaFree := by rw [hfields]
      unfold closeEnd
      simp only
      split
      · rename_i hempty
        exact arenaInv_of_free hempty rfl
      · exact h.congr hactive hregion hfree
    · cases hs
  | register | retire | reclaim | reset | cache | collectEnd | closeBegin =>
    have hsame := sameAllocations_of_quiet rfl hs
    exact h.congr hsame.active hsame.arenaRegion hsame.arenaFree

/-- The invariant holds in every run in arena mode. -/
theorem arenaInv_of_reachable {cfg : Config} (hmode : cfg.mode = .arena) {s : State}
    (h : (memoryMachine cfg).Reachable s) : ArenaInv cfg s :=
  h.invariant (I := ArenaInv cfg) (arenaInv_of_free rfl rfl)
    fun _ _ _ hinv _ hs => arenaInv_step hmode hinv hs

/-- Live extents do not overlap: a byte of the arena is covered once. -/
theorem ArenaInv.disjoint {cfg : Config} {s : State} (h : ArenaInv cfg s) :
    (liveExtents s).Pairwise fun a b => a.1 + a.2 ≤ b.1 ∨ b.1 + b.2 ≤ a.1 := by
  refine disjoint_of_coverage h.positive_live fun byte => ?_
  have hone := h.tiles byte
  rw [coverage_append] at hone
  split at hone <;> omega

/-- The law of the arena in one state.

* `separated`, `positive`, `aligned`: the free list is sorted, its extents are not empty and
  do not touch, and all extents are aligned.
* `partition`: the free extents and the live ones tile the arena.
* `disjoint`, `inside`: no two live allocations overlap, and none exceeds the arena.
* `exhausted`: on an open manager an allocation fails exactly when no free extent is as long
  as the rounded request.
* `unchanged`: an allocation that fails changes neither the free extents nor the live
  allocations.
* `whole`: when nothing is live, the arena is one free extent. -/
structure ArenaLaw (cfg : Config) (s : State) : Prop where
  separated : Separated (freeExtents cfg s)
  positive : Positive (freeExtents cfg s)
  aligned : Aligned (freeExtents cfg s ++ liveExtents s)
  partition : Tiles cfg.arenaBytes (freeExtents cfg s ++ liveExtents s)
  disjoint : (liveExtents s).Pairwise fun a b => a.1 + a.2 ≤ b.1 ∨ b.1 + b.2 ≤ a.1
  inside : ∀ buffer ∈ s.active, buffer.offset + buffer.byteLength ≤ cfg.arenaBytes
  exhausted : ∀ byteLength allocationId region, 0 < byteLength → s.closed = false →
    ((allocate cfg s byteLength allocationId region).2 =
        .error (.exhausted (align byteLength ARENA_ALIGNMENT) cfg.arenaBytes) ↔
      ∀ extent ∈ freeExtents cfg s, extent.2 < align byteLength ARENA_ALIGNMENT)
  unchanged : ∀ byteLength allocationId region e, 0 < byteLength →
    (allocate cfg s byteLength allocationId region).2 = .error e →
    freeExtents cfg (allocate cfg s byteLength allocationId region).1 = freeExtents cfg s ∧
      (allocate cfg s byteLength allocationId region).1.active = s.active
  whole : s.active = [] → freeExtents cfg s = [(0, cfg.arenaBytes)]

/-- The law of the arena holds in every run of a manager in arena mode. -/
theorem arenaLaw_of_reachable (cfg : Config) (hmode : cfg.mode = .arena) (s : State)
    (h : (memoryMachine cfg).Reachable s) : ArenaLaw cfg s := by
  have hinv : ArenaInv cfg s := arenaInv_of_reachable hmode h
  have hposLive := hinv.positive_live
  refine
    { separated := hinv.separated
      positive := hinv.positive
      aligned := hinv.aligned
      partition := hinv.tiles
      disjoint := hinv.disjoint
      inside := fun buffer hmem => ?_
      exhausted := fun byteLength allocationId region hpos hopen => ?_
      unchanged := fun byteLength allocationId region e hpos herror => ?_
      whole := fun hempty => ?_ }
  · have hextent : buffer.extent ∈ liveExtents s := List.mem_map_of_mem hmem
    have hle := hinv.tiles.le (List.mem_append_right _ hextent) (hposLive _ hextent)
    have hround := le_align buffer.byteLength
    simp only [SharedBuffer.extent] at hle
    omega
  · obtain ⟨-, ⟨hshort, herror, -⟩ | ⟨hfits, buffer, hok⟩⟩ :=
      allocate_arena_cases hmode hopen hinv allocationId region hpos
    · exact ⟨fun _ => hshort, fun _ => herror⟩
    · refine ⟨fun herror => ?_, fun hshort => absurd hshort hfits⟩
      rw [hok] at herror
      cases herror
  · by_cases hclosed : s.closed = true
    · rw [allocate, if_pos hclosed]
      exact ⟨rfl, rfl⟩
    · obtain ⟨-, ⟨-, -, hsame, hactive⟩ | ⟨-, buffer, hok⟩⟩ :=
        allocate_arena_cases hmode (by simpa using hclosed) hinv allocationId region hpos
      · exact ⟨hsame, hactive⟩
      · rw [hok] at herror
        cases herror
  · have hlive : liveExtents s = [] := by rw [liveExtents, hempty]; rfl
    have htiles := hinv.tiles
    rw [hlive, List.append_nil] at htiles
    exact eq_singleton_of_tiles cfg.arenaBytes_pos htiles hinv.separated hinv.positive

/-- An arena of four alignment units. -/
def smallArena : Config where
  mode := .arena
  arenaBytes := 256
  maxCachedBuffers := 0
  maxCachedBytes := 0
  arenaBytes_pos := by decide
  arenaBytes_aligned := by decide

/-- Three allocations of which the middle one is released and collected. -/
theorem arenaLaw_smallArena :
    ∃ s, (memoryMachine smallArena).Reachable s ∧ s.arenaFree = [(64, 64), (192, 64)] ∧
      ArenaLaw smallArena s := by
  obtain ⟨s, hrun, hfree⟩ := Machine.exists_of_exec (M := memoryMachine smallArena) (s := .init)
    (fun s => s.arenaFree == [(64, 64), (192, 64)])
    [.allocate 10 1 7, .allocate 64 2 8, .allocate 3 3 8, .storageReleased 2, .collectBegin,
      .collectEnd] (by decide)
  have hreach := Machine.reachable_of_exec hrun
  exact ⟨s, hreach, by simpa using hfree, arenaLaw_of_reachable smallArena rfl s hreach⟩

end Wmfs.Memory
