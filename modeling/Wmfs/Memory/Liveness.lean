import Mathlib.Data.List.Pairwise
import Wmfs.Memory.Arena
import Wmfs.Memory.Pool

/-!
# `Wmfs.Memory.Liveness`: how long an allocation keeps its memory

Frames of the memory for a client that holds tensors. `active_step` says what a step does to
the active allocations and to the queue of released storages, in both modes. A buffer whose
storage is referenced stays live (`isLive_step`), live buffers have different ids
(`allocationIds_nodup`), and two active buffers do not share memory (`separate_of_reachable`).
-/

set_option autoImplicit false

namespace Wmfs.Memory

open Wmfs.Lib

section
variable {cfg : Config} {s t : State}

/-- Releasing an extent keeps the active buffers. -/
theorem active_releaseArena (s : State) (buffer : SharedBuffer) :
    (releaseArena s buffer).active = s.active := by
  unfold releaseArena
  simp only
  split <;> rfl

/-- Draining the queue takes allocations away, and only those that are in the queue. -/
theorem drain_active : ∀ (ids : List Nat) (s : State),
    (drain s ids).1.active.Sublist s.active ∧ (drain s ids).1.released = s.released ∧
      ∀ buffer ∈ s.active, buffer.allocationId ∉ ids → buffer ∈ (drain s ids).1.active := by
  intro ids
  induction ids with
  | nil => intro s; exact ⟨.refl _, rfl, fun buffer hmem _ => hmem⟩
  | cons id ids ih =>
    intro s
    rcases hfind : s.active.find? (fun buffer => buffer.allocationId == id) with _ | found
    · rw [drain_of_none ids hfind]
      obtain ⟨hsublist, hreleased, hkept⟩ := ih s
      exact ⟨hsublist, hreleased, fun buffer hmem hnot => hkept buffer hmem fun hin =>
        hnot (List.mem_cons_of_mem _ hin)⟩
    · -- The rest of the queue is drained with the allocation taken out.
      have hrest : ∀ u : State,
          u.active = s.active.eraseP (fun buffer => buffer.allocationId == id) →
          u.released = s.released →
          (drain u ids).1.active.Sublist s.active ∧ (drain u ids).1.released = s.released ∧
            ∀ buffer ∈ s.active, buffer.allocationId ∉ id :: ids →
              buffer ∈ (drain u ids).1.active := by
        intro u hactive hsame
        obtain ⟨hsublist, hreleased, hkept⟩ := ih u
        rw [hactive] at hsublist hkept
        refine ⟨hsublist.trans List.eraseP_sublist, hreleased.trans hsame,
          fun buffer hmem hnot => ?_⟩
        rw [List.mem_cons, not_or] at hnot
        refine hkept buffer ((List.mem_eraseP_of_neg ?_).mpr hmem) hnot.2
        simpa using hnot.1
      simp only [drain, hfind]
      split
      · exact hrest _ (active_releaseArena _ _) (by unfold releaseArena; simp only; split <;> rfl)
      · exact hrest _ rfl rfl

/-- An allocation returns a buffer with the id that it was given, which is active afterwards,
or it raises and the active allocations stay. -/
theorem allocate_frame (cfg : Config) (s : State) (byteLength allocationId region : Nat) :
    (allocate cfg s byteLength allocationId region).1.released = s.released ∧
      ((∃ e, (allocate cfg s byteLength allocationId region).2 = .error e ∧
          (allocate cfg s byteLength allocationId region).1.active = s.active) ∨
        ∃ buffer, (allocate cfg s byteLength allocationId region).2 = .ok buffer ∧
          buffer.allocationId = allocationId ∧
          (allocate cfg s byteLength allocationId region).1.active = buffer :: s.active) := by
  unfold allocate
  split
  · exact ⟨rfl, Or.inl ⟨_, rfl, rfl⟩⟩
  split
  · have hensure : (ensureArena cfg s region).active = s.active ∧
        (ensureArena cfg s region).released = s.released := by
      unfold ensureArena
      split <;> exact ⟨rfl, rfl⟩
    unfold allocateArena
    simp only
    split
    · rename_i hresult
      split at hresult
      · cases hresult
        exact ⟨hensure.2, Or.inl ⟨_, rfl, hensure.1⟩⟩
      · cases hresult
    · rename_i hresult
      split at hresult
      · cases hresult
      · cases hresult
        exact ⟨hensure.2, Or.inr ⟨_, rfl, rfl, congrArg (_ :: ·) hensure.1⟩⟩
  · unfold allocatePooled
    split
    · exact ⟨rfl, Or.inr ⟨_, rfl, rfl, rfl⟩⟩
    · exact ⟨rfl, Or.inr ⟨_, rfl, rfl, rfl⟩⟩

/-- What a step does to the active allocations and to the queue of released storages. -/
theorem active_step {act : Act} (hs : step cfg s act = some t) :
    (∃ byteLength allocationId region, act = .allocate byteLength allocationId region ∧
      (∀ buffer ∈ s.active, buffer.allocationId ≠ allocationId) ∧ t.released = s.released ∧
      (t.active = s.active ∨ ∃ buffer, buffer.allocationId = allocationId ∧
        t.active = buffer :: s.active)) ∨
    (act = .collectBegin ∧ t.active.Sublist s.active ∧ t.released = [] ∧
      ∀ buffer ∈ s.active, buffer.allocationId ∉ s.released → buffer ∈ t.active) ∨
    (t.active = s.active ∧ (t.released = s.released ∨ ∃ allocationId,
      act = .storageReleased allocationId ∧ (∃ buffer ∈ s.active, buffer.allocationId = allocationId) ∧
        t.released = s.released ++ [allocationId])) := by
  cases act with
  | allocate byteLength allocationId region =>
    simp only [step] at hs
    split at hs
    swap
    · cases hs
    rename_i hargs
    cases hs
    obtain ⟨hreleased, hresult⟩ := allocate_frame cfg s byteLength allocationId region
    refine Or.inl ⟨byteLength, allocationId, region, rfl, hargs.2.2.1, hreleased, ?_⟩
    rcases hresult with ⟨e, -, hactive⟩ | ⟨buffer, -, hid, hactive⟩
    · exact Or.inl hactive
    · exact Or.inr ⟨buffer, hid, hactive⟩
  | storageReleased allocationId =>
    simp only [step] at hs
    split at hs
    · rename_i hactive
      cases hs
      exact Or.inr (Or.inr ⟨rfl, Or.inr ⟨allocationId, rfl, hactive.1, rfl⟩⟩)
    · cases hs
  | collectBegin =>
    simp only [step, collectBegin] at hs
    split at hs
    · cases hs
    · cases hs
      obtain ⟨hsublist, hreleased, hkept⟩ := drain_active s.released { s with released := [] }
      exact Or.inr (Or.inl ⟨rfl, hsublist, hreleased, hkept⟩)
  | closeEnd =>
    simp only [step] at hs
    split at hs
    · cases hs
      have hfields := foldl_closeRegion_eq s.free s
      have hactive : (s.free.foldl closeRegion s).active = s.active := by rw [hfields]
      have hreleased : (s.free.foldl closeRegion s).released = s.released := by rw [hfields]
      refine Or.inr (Or.inr ?_)
      unfold closeEnd
      simp only
      split
      · exact ⟨hactive, Or.inl hreleased⟩
      · exact ⟨hactive, Or.inl hreleased⟩
    · cases hs
  | register | retire | reclaim | reset | cache | collectEnd | closeBegin =>
    have hsame := sameAllocations_of_quiet rfl hs
    exact Or.inr (Or.inr ⟨hsame.active, Or.inl hsame.released⟩)

/-- A live buffer stays live until its storage is released. -/
theorem isLive_step {act : Act} (hs : step cfg s act = some t) {buffer : SharedBuffer}
    (hlive : s.isLive buffer = true) (hnot : act ≠ .storageReleased buffer.allocationId) :
    t.isLive buffer = true := by
  simp only [State.isLive, Bool.and_eq_true, decide_eq_true_eq] at hlive ⊢
  obtain ⟨hactive, hreleased⟩ := hlive
  rcases active_step hs with ⟨byteLength, allocationId, region, -, -, hrel, hact⟩ |
    ⟨-, -, hrel, hkept⟩ | ⟨hact, hrel⟩
  · rw [hrel]
    refine ⟨?_, hreleased⟩
    rcases hact with hact | ⟨new, -, hact⟩
    · rw [hact]
      exact hactive
    · rw [hact]
      exact List.mem_cons_of_mem _ hactive
  · rw [hrel]
    exact ⟨hkept buffer hactive hreleased, by simp⟩
  · rw [hact]
    refine ⟨hactive, ?_⟩
    rcases hrel with hrel | ⟨allocationId, heq, -, hrel⟩
    · rw [hrel]
      exact hreleased
    · rw [hrel, List.mem_append, List.mem_singleton]
      rintro (hin | hin)
      · exact hreleased hin
      · exact hnot (by rw [heq, hin])

/-- The queue has ids of active allocations. -/
theorem active_of_released (h : (memoryMachine cfg).Reachable s) :
    ∀ allocationId ∈ s.released, ∃ buffer ∈ s.active, buffer.allocationId = allocationId := by
  refine h.invariant (I := fun s => ∀ allocationId ∈ s.released,
    ∃ buffer ∈ s.active, buffer.allocationId = allocationId)
    (fun _ hmem => by cases hmem) fun s act t hinv _ hs allocationId hmem => ?_
  rcases active_step hs with ⟨byteLength, new, region, -, -, hrel, hact⟩ | ⟨-, -, hrel, -⟩ |
    ⟨hact, hrel⟩
  · rw [hrel] at hmem
    obtain ⟨buffer, hbuffer, hid⟩ := hinv allocationId hmem
    refine ⟨buffer, ?_, hid⟩
    rcases hact with hact | ⟨fresh, -, hact⟩ <;> simp [hact, hbuffer]
  · rw [hrel] at hmem
    cases hmem
  · rw [hact]
    rcases hrel with hrel | ⟨new, -, hactive, hrel⟩
    · rw [hrel] at hmem
      exact hinv allocationId hmem
    · rw [hrel, List.mem_append, List.mem_singleton] at hmem
      rcases hmem with hmem | rfl
      · exact hinv allocationId hmem
      · exact hactive

/-- Live allocations have different ids. -/
theorem allocationIds_nodup (h : (memoryMachine cfg).Reachable s) :
    (s.active.map SharedBuffer.allocationId).Nodup := by
  refine h.invariant (I := fun s => (s.active.map SharedBuffer.allocationId).Nodup)
    List.nodup_nil fun s act t hnodup _ hs => ?_
  rcases active_step hs with ⟨byteLength, allocationId, region, -, hfresh, -, hact⟩ |
    ⟨-, hsublist, -⟩ | ⟨hact, -⟩
  · rcases hact with hact | ⟨new, hid, hact⟩
    · rw [hact]
      exact hnodup
    · rw [hact, List.map_cons, List.nodup_cons, hid]
      refine ⟨fun hin => ?_, hnodup⟩
      obtain ⟨other, hother, heq⟩ := List.mem_map.mp hin
      exact hfresh other hother heq
  · exact hnodup.sublist (hsublist.map _)
  · rw [hact]
    exact hnodup

/-- Two live allocations do not share memory. -/
theorem separate_of_reachable (h : (memoryMachine cfg).Reachable s) {a b : SharedBuffer}
    (ha : a ∈ s.active) (hb : b ∈ s.active) (hne : a ≠ b) :
    a.region ≠ b.region ∨ a.extent.1 + a.extent.2 ≤ b.extent.1 ∨
      b.extent.1 + b.extent.2 ≤ a.extent.1 := by
  cases hmode : cfg.mode with
  | pooled =>
    have howned := (poolAll_of_reachable hmode h).pool.owned_nodup
    have hregions : (s.active.map SharedBuffer.region).Nodup :=
      (List.nodup_append.mp (List.nodup_append.mp howned).1).1
    exact Or.inl fun heq => hne (List.inj_on_of_nodup_map hregions ha hb heq)
  | arena =>
    have hpair := List.pairwise_map.mp (arenaInv_of_reachable hmode h).disjoint
    have hsymm : Std.Symm fun x y : SharedBuffer => x.extent.1 + x.extent.2 ≤ y.extent.1 ∨
        y.extent.1 + y.extent.2 ≤ x.extent.1 := ⟨fun _ _ hxy => hxy.symm⟩
    exact Or.inr (hpair.forall ha hb hne)

end

end Wmfs.Memory
