import Wmfs.Invocation.Outputs
import Wmfs.Lib.Slots

/-!
# `Wmfs.Invocation.Completion`: the dynamic outputs of a plan

`complete_outputs` of `wmfs/output_metadata.py`. The runtime knows some outputs of an operation,
and the worker has planned the others. The planned outputs are untrusted: their indices may be
repeated, unknown, or those of known outputs.

The loop compares each entry with the list that the entries before it have filled. So a repeated
index is one whose slot is filled already, and `completeLoop_ok_iff` says that the loop accepts
what `Slots.fill` puts into empty slots.
-/

set_option autoImplicit false

namespace Wmfs.Invocation

open Wmfs.Lib

/-- The shape and the dtype of an entry are valid. -/
def PlannedSpec.Valid (entry : PlannedSpec) : Prop :=
  ValidShape entry.2.1 ∧ entry.2.2 ∈ SUPPORTED_OUTPUT_DTYPES

/-- The planned outputs are exactly the dynamic ones, each once, and all of them are valid. -/
structure Completes (known : List (Option OutputSpec)) (planned : List PlannedSpec) : Prop where
  distinct : (planned.map Prod.fst).Nodup
  dynamic : ∀ index, index ∈ planned.map Prod.fst ↔ known[index]? = some none
  valid : ∀ entry ∈ planned, PlannedSpec.Valid entry

/-- An entry for an empty slot leaves the other slots empty or filled as they are. -/
theorem getElem?_set_eq_none_iff {known : List (Option OutputSpec)} {index other : Nat}
    {spec : OutputSpec} :
    (known.set index (some spec))[other]? = some none ↔ known[other]? = some none ∧ index ≠ other := by
  by_cases heq : index = other
  · subst heq
    constructor
    · intro h
      rw [List.getElem?_set_self'] at h
      cases hslot : known[index]? with
      | none => simp [hslot] at h
      | some slot => simp [hslot] at h
    · intro h
      exact absurd rfl h.2
  · rw [List.getElem?_set_ne heq]
    exact ⟨fun h => ⟨h, heq⟩, And.left⟩

/-- What the loop accepts: entries for different slots, all of them empty. -/
theorem completeLoop_ok_iff (operation : OperationMetadata) (planned : List PlannedSpec)
    (known results : List (Option OutputSpec)) :
    completeLoop operation planned known = .ok results ↔
      (planned.map Prod.fst).Nodup ∧ (∀ entry ∈ planned, known[entry.1]? = some none) ∧
        (∀ entry ∈ planned, PlannedSpec.Valid entry) ∧ Slots.fill planned known = results := by
  induction planned generalizing known with
  | nil =>
    rw [completeLoop, Except.ok.injEq]
    simp
  | cons entry planned ih =>
    obtain ⟨index, shape, dtype⟩ := entry
    simp only [completeLoop, Result.check_bind_ok_iff, raiseIf_ok_iff, checkShape_ok_iff, ih,
      not_not, List.map_cons, List.nodup_cons, List.forall_mem_cons, getElem?_set_eq_none_iff,
      Slots.fill_cons, PlannedSpec.Valid]
    constructor
    · rintro ⟨hslot, hshape, hdtype, hdistinct, hslots, hvalid, hfill⟩
      refine ⟨⟨?_, hdistinct⟩, ⟨hslot, fun other hother => (hslots other hother).1⟩,
        ⟨⟨hshape, hdtype⟩, hvalid⟩, hfill⟩
      -- A second entry for this slot does not find it empty.
      intro hmem
      obtain ⟨other, hother, heq⟩ := List.mem_map.mp hmem
      exact (hslots other hother).2 heq.symm
    · rintro ⟨⟨hnew, hdistinct⟩, ⟨hslot, hslots⟩, ⟨⟨hshape, hdtype⟩, hvalid⟩, hfill⟩
      refine ⟨hslot, hshape, hdtype, hdistinct, ?_, hvalid, hfill⟩
      intro other hother
      refine ⟨hslots other hother, ?_⟩
      rintro rfl
      exact hnew (List.mem_map_of_mem hother)

/-- Plans that complete the outputs fill their slots exactly. -/
theorem Completes.exact {known : List (Option OutputSpec)} {planned : List PlannedSpec}
    (h : Completes known planned) : Slots.Exact planned known := ⟨h.distinct, h.dynamic⟩

/-- The order of the plans does not matter. -/
theorem Completes.perm {known : List (Option OutputSpec)} {planned planned' : List PlannedSpec}
    (h : Completes known planned) (hperm : planned.Perm planned') : Completes known planned' where
  distinct := (h.exact.perm hperm).distinct
  dynamic := (h.exact.perm hperm).empty_iff
  valid entry hentry := h.valid entry (hperm.mem_iff.mpr hentry)

/-- What `complete_outputs` returns: the values of the filled slots. -/
theorem completeOutputs_eq_ok_iff (operation : OperationMetadata)
    (known : List (Option OutputSpec)) (planned : List PlannedSpec) (specs : List OutputSpec) :
    completeOutputs operation known planned = .ok specs ↔
      Completes known planned ∧ (Slots.fill planned known).filterMap id = specs := by
  rw [completeOutputs, Result.bind_ok_iff]
  simp only [completeLoop_ok_iff, Result.check_bind_ok_iff, raiseIf_ok_iff]
  constructor
  · intro ⟨results, ⟨hdistinct, hslots, hvalid, hfill⟩, hnone, hspecs⟩
    subst hfill
    cases hspecs
    refine ⟨⟨hdistinct, ?_, hvalid⟩, rfl⟩
    intro index
    constructor
    · intro hmem
      obtain ⟨entry, hentry, rfl⟩ := List.mem_map.mp hmem
      exact hslots entry hentry
    · -- A dynamic slot without an entry would still be empty.
      intro hdynamic
      by_contra hmem
      rw [← Slots.getElem?_fill_of_notMem hmem] at hdynamic
      exact hnone (List.mem_of_getElem? hdynamic)
  · intro ⟨h, hspecs⟩
    refine ⟨Slots.fill planned known, ⟨h.distinct, ?_, h.valid, rfl⟩, h.exact.none_notMem_fill, ?_⟩
    · intro entry hentry
      exact (h.dynamic entry.1).mp (List.mem_map_of_mem hentry)
    · rw [← hspecs]
      rfl

/-- `complete_outputs` succeeds when the planned outputs are exactly the dynamic ones, each once
and valid. Then it keeps the known outputs, takes the others from the plan, and returns the same
for every order of the plan. -/
theorem completeOutputs_spec (operation : OperationMetadata) (known : List (Option OutputSpec))
    (planned : List PlannedSpec) :
    ((∃ specs, completeOutputs operation known planned = .ok specs) ↔ Completes known planned) ∧
    ∀ specs, completeOutputs operation known planned = .ok specs →
      specs.length = known.length ∧
      (∀ (index : Nat) (spec : OutputSpec), known[index]? = some (some spec) →
        specs[index]? = some spec) ∧
      (∀ (index : Nat) (spec : OutputSpec), (index, spec) ∈ planned → specs[index]? = some spec) ∧
      ∀ planned', planned.Perm planned' → completeOutputs operation known planned' = .ok specs := by
  simp only [completeOutputs_eq_ok_iff]
  refine ⟨⟨fun ⟨_, h, _⟩ => h, fun h => ⟨_, h, rfl⟩⟩, ?_⟩
  rintro specs ⟨h, rfl⟩
  have hnone := h.exact.none_notMem_fill
  refine ⟨?_, ?_, ?_, ?_⟩
  · rw [← Slots.length_fill planned known]
    apply List.reduceOption_length_eq_iff.mpr
    intro slot hslot
    cases slot with
    | none => exact absurd hslot hnone
    | some spec => rfl
  · intro index spec hknown
    have hmem : index ∉ planned.map Prod.fst := by
      rw [h.dynamic index, hknown]
      simp
    rw [Slots.getElem?_filterMap_id hnone, Slots.getElem?_fill_of_notMem hmem, hknown]
    rfl
  · intro index spec hentry
    rw [Slots.getElem?_filterMap_id hnone, h.exact.getElem?_fill hentry]
    rfl
  · intro planned' hperm
    exact ⟨h.perm hperm, by rw [h.exact.fill_perm hperm]⟩

end Wmfs.Invocation
