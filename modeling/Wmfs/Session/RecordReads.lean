import Wmfs.Session.Dispatcher

/-!
# `Wmfs.Session.RecordReads`: where the native code reads a record

`RingConsumer::try_pop` and the identity check of `consume_completions` decide which records are
accepted. The lengths that bound the later reads are other fields of the record: the ranks of
its descriptors and the two lengths of its error texts. The functions below list the array
elements that the later code reads, in the order of its loops.

* `submitInvokeReads`: `submit_invoke`, on a completion.
* `ringCompletionDictReads`: `ring_completion_dict`, on a completion.
* `ringTensorReads`: `ring_tensor` of `src/reference_worker.cpp`, on a tensor of a command.

Neither check looks at the ranks or at the two lengths, and `recordReads_within_iff` says which
of the accepted records are read inside their arrays.
-/

set_option autoImplicit false

namespace Wmfs.Session

open Wmfs.Ring

/-! ### Fields -/

/-- An `int64_t` field. -/
def loadSigned (record : Record) (offset : Nat) : Int :=
  if record.load offset 8 < 2 ^ 63 then record.load offset 8
  else (record.load offset 8 : Int) - 2 ^ 64

/-- `tensors[index].rank`. -/
def tensorRank (record : Record) (index : Nat) : Nat := record.load (128 + index * 312 + 44) 2

/-- `tensors[index].shape[axis]`. Past the array it is what lies there in the record. -/
def tensorShape (record : Record) (index axis : Nat) : Int :=
  loadSigned record (128 + index * 312 + 56 + axis * 8)

/-- `planned_outputs[index].dtype`. -/
def outputDtype (record : Record) (index : Nat) : Nat := record.load (9600 + index * 144) 4

/-- `planned_outputs[index].rank`. -/
def outputRank (record : Record) (index : Nat) : Nat := record.load (9600 + index * 144 + 8) 2

/-- `error.type_length`. -/
def errorTypeLength (record : Record) : Nat := record.load 11968 4

/-- `error.message_length`. -/
def errorMessageLength (record : Record) : Nat := record.load (11968 + 4) 4

/-- The dtypes that `ring_dtype_name` does not throw on. -/
def knownDtype (dtype : Nat) : Bool := decide (1 ≤ dtype) && decide (dtype ≤ 10)

/-! ### Reads -/

/-- The arrays of a record. -/
inductive RecordArray where
  | tensors
  | plannedOutputs
  | shape (tensor : Nat)
  | strides (tensor : Nat)
  | outputShape (output : Nat)
  | errorType
  | errorMessage
  deriving DecidableEq, Repr

/-- The number of elements of an array. -/
def RecordArray.capacity : RecordArray → Nat
  | .tensors => 16
  | .plannedOutputs => 16
  | .shape _ => 16
  | .strides _ => 16
  | .outputShape _ => 16
  | .errorType => 64
  | .errorMessage => 1024

/-- A read of one element of an array. -/
structure RecordRead where
  array : RecordArray
  index : Nat
  deriving DecidableEq, Repr

/-- All reads stay inside their arrays. -/
def Within (reads : List RecordRead) : Prop := ∀ read ∈ reads, read.index < read.array.capacity

instance (reads : List RecordRead) : Decidable (Within reads) :=
  inferInstanceAs (Decidable (∀ read ∈ reads, read.index < read.array.capacity))

/-- The first `count` elements of an array. -/
def readFirst (array : RecordArray) (count : Nat) : List RecordRead :=
  (List.range count).map fun index => { array := array, index := index }

/-- The two `std::string` constructions from the error texts. -/
def errorTextReads (record : Record) : List RecordRead :=
  readFirst .errorType (errorTypeLength record) ++
    readFirst .errorMessage (errorMessageLength record)

/-- `submit_invoke`, on the completion that it returns. -/
def submitInvokeReads (completion : Record) : List RecordRead := errorTextReads completion

/-- The loop of `ring_completion_dict` over `count` planned outputs, and whether it got through:
`ring_dtype_name` throws on a dtype that it does not know. -/
def plannedOutputReads (record : Record) : Nat → Nat → List RecordRead × Bool
  | _, 0 => ([], true)
  | index, count + 1 =>
    let reads := { array := .plannedOutputs, index := index } ::
      readFirst (.outputShape index) (outputRank record index)
    if knownDtype (outputDtype record index) then
      let rest := plannedOutputReads record (index + 1) count
      (reads ++ rest.1, rest.2)
    else
      (reads, false)

/-- `ring_completion_dict`. -/
def ringCompletionDictReads (completion : Record) : List RecordRead :=
  let outputs := plannedOutputReads completion 0 completion.plannedOutputCount
  if outputs.2 then outputs.1 ++ errorTextReads completion else outputs.1

/-- The loop of `ring_tensor` from `axis` on. A dimension that is not positive ends it with an
exception, before the stride is read. -/
def dimensionReads (record : Record) (index : Nat) : Nat → Nat → List RecordRead
  | _, 0 => []
  | axis, count + 1 =>
    { array := .shape index, index := axis } ::
      if tensorShape record index axis > 0 then
        { array := .strides index, index := axis } :: dimensionReads record index (axis + 1) count
      else []

/-- `ring_tensor`, on the tensor `index` of the command. -/
def ringTensorReads (command : Record) (index : Nat) : List RecordRead :=
  { array := .tensors, index := index } :: dimensionReads command index 0 (tensorRank command index)

/-! ### When the reads stay inside -/

/-- No reads are inside the record. -/
theorem within_nil : Within [] := by
  intro read h
  cases h

/-- Reads in a row are inside the record when all are. -/
theorem within_append {a b : List RecordRead} : Within (a ++ b) ↔ Within a ∧ Within b := by
  unfold Within
  simp only [List.mem_append]
  constructor
  · intro h
    exact ⟨fun read hr => h read (Or.inl hr), fun read hr => h read (Or.inr hr)⟩
  · intro ⟨ha, hb⟩ read hr
    cases hr with
    | inl hr => exact ha read hr
    | inr hr => exact hb read hr

/-- The first read and the others. -/
theorem within_cons {read : RecordRead} {reads : List RecordRead} :
    Within (read :: reads) ↔ read.index < read.array.capacity ∧ Within reads := by
  unfold Within
  rw [List.forall_mem_cons]

/-- The first elements of an array are inside when there are not too many of them. -/
theorem within_readFirst {array : RecordArray} {count : Nat} :
    Within (readFirst array count) ↔ count ≤ array.capacity := by
  unfold Within readFirst
  simp only [List.mem_map, List.mem_range]
  constructor
  · intro h
    by_contra hgt
    -- The element behind the last one would be among the first `count`.
    have hread := h { array := array, index := array.capacity } ⟨array.capacity, by omega, rfl⟩
    exact absurd hread (lt_irrefl _)
  · intro h read ⟨index, hindex, hread⟩
    subst hread
    exact lt_of_lt_of_le hindex h

/-- The two error texts fit their arrays. -/
def TextsFit (record : Record) : Prop :=
  errorTypeLength record ≤ 64 ∧ errorMessageLength record ≤ 1024

instance (record : Record) : Decidable (TextsFit record) :=
  inferInstanceAs (Decidable (errorTypeLength record ≤ 64 ∧ errorMessageLength record ≤ 1024))

/-- The reads of the error texts are inside when the texts fit. -/
theorem within_errorTextReads {record : Record} :
    Within (errorTextReads record) ↔ TextsFit record := by
  rw [errorTextReads, within_append, within_readFirst, within_readFirst]
  rfl

/-- The dtypes of the planned outputs in front of `index` are known. -/
def DtypesKnown (record : Record) (index : Nat) : Prop :=
  ∀ earlier < index, knownDtype (outputDtype record earlier) = true

/-- The dtypes are known up to the next one. -/
theorem DtypesKnown.succ {record : Record} {index : Nat} (h : DtypesKnown record index)
    (hdtype : knownDtype (outputDtype record index) = true) : DtypesKnown record (index + 1) := by
  intro earlier hlt
  by_cases heq : earlier = index
  · rw [heq]
    exact hdtype
  · exact h earlier (by omega)

/-- The loop over the planned outputs gets through when their dtypes are known. -/
theorem plannedOutputReads_through {record : Record} {count : Nat} : ∀ {index : Nat},
    DtypesKnown record index →
      ((plannedOutputReads record index count).2 = true ↔
        DtypesKnown record (index + count)) := by
  induction count with
  | zero =>
    intro index hknown
    exact ⟨fun _ => hknown, fun _ => rfl⟩
  | succ count ih =>
    intro index hknown
    rw [plannedOutputReads]
    split
    · rename_i hdtype
      rw [show index + (count + 1) = index + 1 + count by omega]
      exact ih (hknown.succ hdtype)
    · rename_i hdtype
      constructor
      · intro h
        cases h
      · intro h
        exact absurd (h index (by omega)) hdtype

/-- The loop over the planned outputs stays inside when the ranks that it comes to fit. -/
theorem within_plannedOutputReads {record : Record} {count : Nat} : ∀ {index : Nat},
    index + count ≤ 16 → DtypesKnown record index →
      (Within (plannedOutputReads record index count).1 ↔
        ∀ i, index ≤ i → i < index + count → DtypesKnown record i → outputRank record i ≤ 16) := by
  induction count with
  | zero =>
    intro index _ _
    constructor
    · intro _ i hle hlt
      omega
    · intro _
      exact within_nil
  | succ count ih =>
    intro index hcount hknown
    have hfirst : Within ({ array := .plannedOutputs, index := index } ::
        readFirst (.outputShape index) (outputRank record index)) ↔
          outputRank record index ≤ 16 := by
      rw [within_cons, within_readFirst]
      constructor
      · intro h
        exact h.2
      · intro h
        exact ⟨show index < 16 by omega, h⟩
    rw [plannedOutputReads]
    split
    · rename_i hdtype
      simp only [within_append, hfirst,
        ih (show index + 1 + count ≤ 16 by omega) (hknown.succ hdtype)]
      constructor
      · intro ⟨hrank, hrest⟩ i hle hlt hi
        by_cases heq : i = index
        · rw [heq]
          exact hrank
        · exact hrest i (by omega) (by omega) hi
      · intro h
        exact ⟨h index (le_refl _) (by omega) hknown,
          fun i hle hlt hi => h i (by omega) (by omega) hi⟩
    · rename_i hdtype
      -- The exception ends the loop, so no later rank matters.
      rw [hfirst]
      constructor
      · intro hrank i hle hlt hi
        by_cases heq : i = index
        · rw [heq]
          exact hrank
        · exact absurd (hi index (by omega)) hdtype
      · intro h
        exact h index (le_refl _) (by omega) hknown

/-- The loop of `ring_tensor` stays inside when the rank fits, or when a dimension inside the
array ends it. -/
theorem within_dimensionReads {record : Record} {index count : Nat} : ∀ {axis : Nat}, axis ≤ 16 →
    (Within (dimensionReads record index axis count) ↔
      axis + count ≤ 16 ∨ ∃ k, axis ≤ k ∧ k < 16 ∧ tensorShape record index k ≤ 0) := by
  induction count with
  | zero =>
    intro axis haxis
    constructor
    · intro _
      exact Or.inl haxis
    · intro _
      exact within_nil
  | succ count ih =>
    intro axis haxis
    rw [dimensionReads, within_cons]
    by_cases hfull : axis = 16
    · -- The next element is behind the array.
      constructor
      · intro h
        exact absurd h.1 (show ¬ axis < 16 by omega)
      · intro h
        rcases h with h | ⟨k, hle, hlt, _⟩ <;> omega
    split
    · rename_i hpositive
      rw [within_cons, ih (show axis + 1 ≤ 16 by omega)]
      constructor
      · intro ⟨_, _, h⟩
        rcases h with h | ⟨k, hle, hlt, hk⟩
        · exact Or.inl (by omega)
        · exact Or.inr ⟨k, by omega, hlt, hk⟩
      · intro h
        refine ⟨show axis < 16 by omega, show axis < 16 by omega, ?_⟩
        rcases h with h | ⟨k, hle, hlt, hk⟩
        · exact Or.inl (by omega)
        · by_cases heq : k = axis
          · rw [heq] at hk
            omega
          · exact Or.inr ⟨k, by omega, hlt, hk⟩
    · rename_i hpositive
      constructor
      · intro _
        exact Or.inr ⟨axis, le_refl _, by omega, by omega⟩
      · intro _
        exact ⟨show axis < 16 by omega, within_nil⟩

/-- The descriptor counts of an accepted record fit its arrays. -/
theorem counts_of_validate {record : Record} {generation : Nat}
    (h : validateRecordGeneration record generation = .ok ()) :
    record.tensorCount ≤ 16 ∧ record.plannedOutputCount ≤ 16 := by
  unfold validateRecordGeneration at h
  split at h
  · cases h
  split at h
  · cases h
  rename_i hcounts
  rw [MAX_TENSORS, MAX_SCALARS, MAX_PLANNED_OUTPUTS] at hcounts
  omega

/-- **Reads of accepted records.** For a record that `try_pop` accepts, each of the three readers
stays inside the arrays exactly when the lengths that it comes to fit them. -/
theorem recordReads_within_iff (record : Record) (generation : Nat)
    (h : validateRecordGeneration record generation = .ok ()) :
    (Within (submitInvokeReads record) ↔ TextsFit record) ∧
    (Within (ringCompletionDictReads record) ↔
      (∀ i < record.plannedOutputCount, DtypesKnown record i → outputRank record i ≤ 16) ∧
        (DtypesKnown record record.plannedOutputCount → TextsFit record)) ∧
    (∀ index < record.tensorCount, Within (ringTensorReads record index) ↔
      tensorRank record index ≤ 16 ∨ ∃ k < 16, tensorShape record index k ≤ 0) := by
  obtain ⟨htensors, houtputs⟩ := counts_of_validate h
  have hstart : DtypesKnown record 0 := by
    intro earlier hlt
    omega
  have hthrough : (plannedOutputReads record 0 record.plannedOutputCount).2 = true ↔
      DtypesKnown record record.plannedOutputCount := by
    rw [plannedOutputReads_through hstart, Nat.zero_add]
  have hranks : Within (plannedOutputReads record 0 record.plannedOutputCount).1 ↔
      ∀ i < record.plannedOutputCount, DtypesKnown record i → outputRank record i ≤ 16 := by
    rw [within_plannedOutputReads (by omega) hstart, Nat.zero_add]
    constructor
    · intro hrank i hlt hi
      exact hrank i (Nat.zero_le i) hlt hi
    · intro hrank i _ hlt hi
      exact hrank i hlt hi
  refine ⟨within_errorTextReads, ?_, ?_⟩
  · unfold ringCompletionDictReads
    simp only
    split
    · rename_i hok
      rw [within_append, hranks, within_errorTextReads]
      constructor
      · intro ⟨hrank, htexts⟩
        exact ⟨hrank, fun _ => htexts⟩
      · intro ⟨hrank, htexts⟩
        exact ⟨hrank, htexts (hthrough.mp hok)⟩
    · rename_i hstopped
      -- The texts are not read after an exception.
      rw [hranks]
      constructor
      · intro hrank
        exact ⟨hrank, fun hknown => absurd (hthrough.mpr hknown) hstopped⟩
      · intro hrank
        exact hrank.1
  · intro index hindex
    rw [ringTensorReads, within_cons, within_dimensionReads (Nat.zero_le 16), Nat.zero_add]
    constructor
    · intro ⟨_, hreads⟩
      rcases hreads with hrank | ⟨k, _, hlt, hk⟩
      · exact Or.inl hrank
      · exact Or.inr ⟨k, hlt, hk⟩
    · intro hreads
      refine ⟨show index < 16 by omega, ?_⟩
      rcases hreads with hrank | ⟨k, hlt, hk⟩
      · exact Or.inl hrank
      · exact Or.inr ⟨k, Nat.zero_le k, hlt, hk⟩

/-- A completion of an `INVOKE` command with an error type of `length` bytes. -/
def completionWithTypeLength (length : Nat) : Record :=
  (((Record.blank 1).store 0 4 COMPLETION_INVOKE).store 36 4 STATUS_OK).store 11968 4 length

/-- The submission that waits for this completion. -/
def waitingSubmission : Submission where
  completion := Record.zero
  error := none
  expectedKind := COMPLETION_INVOKE
  expectedFlags := 0
  invocationId := 0
  operationId := 0
  completed := false

/-- An error type that fills its array is read inside of it. -/
theorem reads_within_full_type :
    validateRecordGeneration (completionWithTypeLength 64) 1 = .ok () ∧
    Within (submitInvokeReads (completionWithTypeLength 64)) := by
  have haccepted : validateRecordGeneration (completionWithTypeLength 64) 1 = .ok () := by
    decide +kernel
  exact ⟨haccepted, (recordReads_within_iff _ 1 haccepted).1.mpr (by decide +kernel)⟩

/-- A completion that passes both checks and whose error type is read behind its array. -/
theorem reads_past_error_type :
    validateRecordGeneration (completionWithTypeLength 65) 1 = .ok () ∧
    identifies (completionWithTypeLength 65) waitingSubmission = true ∧
    ¬ Within (submitInvokeReads (completionWithTypeLength 65)) := by
  refine ⟨by decide +kernel, by decide +kernel, ?_⟩
  intro h
  have htype := (within_errorTextReads.mp h).1
  exact absurd htype (by decide +kernel)

end Wmfs.Session
