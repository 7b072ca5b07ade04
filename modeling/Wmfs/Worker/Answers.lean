import Wmfs.Ring.Canonical
import Wmfs.Worker.Loop

/-!
# `Wmfs.Worker.Answers`: one completion for each command

A command that was popped is answered by the completion that its iteration pushes. The
completion carries what the user code left: the texts of an exception, or a plan. `push` encodes
it behind the `try` that guards the user code. What `encode` refuses there ends the thread,
and the command stays without an answer.

`Answerable` says what the user code may leave. `exists_completion_iff` is the step: the
completion of a command can be encoded exactly when the command is answerable. `answers_run` is
the run: while every command is answerable, each has one answer, in order, and the loop goes on.
-/

set_option autoImplicit false

namespace Wmfs.Worker

open Wmfs.Lib Wmfs.Ring.Codec
open Wmfs.Lib.Utf8 (Text ofString)

variable {Obj : Type}

/-! ### What the user code may leave -/

/-- The text has no lone surrogate. -/
def Writable (text : Text) : Prop := ∀ point ∈ text, Utf8.isSurrogate point.val = false

/-- The texts of the exception can be sent. -/
def PyExn.Writable (error : PyExn) : Prop :=
  Worker.Writable error.typeName ∧ Worker.Writable error.message

/-- A planned output has room in a descriptor: its rank, its dimensions, its dtype and its
position. -/
structure SpecFits (operation : Operation) (name : String) (spec : OutputSpec) : Prop where
  rank : 0 < spec.shape.length ∧ spec.shape.length ≤ 16
  dimensions : ∀ n ∈ spec.shape, -2 ^ 63 ≤ n ∧ n < 2 ^ 63
  dtype : dtypeName spec.dtype ∈ DTYPE_TO_ID.map Prod.fst
  position : (operation.indices.reverse.lookup name).getD 0 < 2 ^ 16

/-- What raises before the user code is writable. When nothing raises, `rest` holds. -/
def PreparedThen (command : Record Obj) (operation : Operation) (b : Behaviour)
    (rest : Prop) : Prop :=
  match b.views with
  | some error => error.Writable
  | none => decodeScalars command.scalars operation.scalarKinds = .ok () →
    match b.context with
    | some error => error.Writable
    | none => rest

/-- The exceptions of an invocation are writable. -/
def InvokeFits (config : Config) (command : Record Obj) (b : Behaviour) : Prop :=
  ∀ operation, config.operations command.operationId = some operation →
    (tensorsOf command TENSOR_INPUT).length = operation.inputAccesses →
    (tensorsOf command TENSOR_OUTPUT).length = operation.tensorOutputs.length →
    PreparedThen command operation b (∀ error, b.handler = some error → error.Writable)

/-- The exceptions of the planner are writable, and a plan with the right names fits. -/
def PlanFits (config : Config) (command : Record Obj) (b : Behaviour) : Prop :=
  ∀ operation, config.operations command.operationId = some operation →
    config.planners command.operationId = true →
    (tensorsOf command TENSOR_INPUT).length = operation.inputAccesses →
    PreparedThen command operation b (match b.planner with
      | .raised error => error.Writable
      | .malformed error => error.Writable
      | .plan specs => namesMatch operation specs = true →
        specs.entries.length ≤ 16 ∧
          ∀ entry ∈ specs.entries, SpecFits operation entry.1 entry.2)

/-- The command can be answered, whatever it is. -/
def Answerable (config : Config) (command : Record Obj) (b : Behaviour) : Prop :=
  (command.kind = COMMAND_INVOKE → InvokeFits config command b) ∧
    (command.kind = COMMAND_PLAN_OUTPUTS → PlanFits config command b)

/-! ### Completions that can be encoded -/

/-- A planned output that has an image. -/
structure OutputFits (item : PlannedOutput) : Prop where
  rank : 0 < item.shape.length ∧ item.shape.length ≤ 16
  dimensions : ∀ n ∈ item.shape, -2 ^ 63 ≤ n ∧ n < 2 ^ 63
  dtype : item.dtype ∈ DTYPE_TO_ID.map Prod.fst
  output : 0 ≤ item.output ∧ item.output < 2 ^ 16

/-- `struct.pack` succeeds when every value fits into its field. -/
theorem exists_structPack_iff {format : List Field} {values : List Int} :
    (∃ bytes, structPack format values = .ok bytes) ↔
      List.Forall₂ Field.Holds format values := by
  simp only [structPack_ok_iff]
  rw [← isSome_pack_iff, Option.isSome_iff_exists]

/-- Dimensions can be packed when each is a 64-bit integer. -/
theorem holds_dimensions_iff {shape : List Int} (hrank : shape.length ≤ 16) :
    List.Forall₂ Field.Holds DIMENSIONS (dimensions shape) ↔
      ∀ n ∈ shape, -2 ^ 63 ≤ n ∧ n < 2 ^ 63 := by
  have hlength : (dimensions shape).length = 16 := by
    rw [dimensions, List.length_append, List.length_replicate]
    omega
  have hall : List.Forall₂ Field.Holds DIMENSIONS (dimensions shape) ↔
      ∀ n ∈ dimensions shape, Field.q.Holds n := by
    rw [DIMENSIONS, ← hlength]
    generalize dimensions shape = values
    induction values with
    | nil => simp
    | cons n values ih =>
      rw [List.length_cons, List.replicate_succ, List.forall₂_cons, List.forall_mem_cons, ih]
  rw [hall]
  simp only [dimensions, List.mem_append, List.mem_replicate, Field.holds_q_iff]
  constructor
  · intro h n hn
    exact h n (Or.inl hn)
  · intro h n hn
    rcases hn with hn | ⟨_, rfl⟩
    · exact h n hn
    · decide

/-- The dtypes of the ring are those with a number. -/
theorem mem_dtypes_iff {dtype : String} :
    dtype ∈ DTYPE_TO_ID.map Prod.fst ↔ ∃ id, DTYPE_TO_ID.lookup dtype = some id := by
  constructor
  · intro h
    simp only [DTYPE_TO_ID, List.map_cons, List.map_nil, List.mem_cons, List.not_mem_nil,
      or_false] at h
    rcases h with rfl | rfl | rfl | rfl | rfl | rfl | rfl | rfl | rfl | rfl
    all_goals exact ⟨_, rfl⟩
  · rintro ⟨id, h⟩
    rw [lookup_eq_some_iff_mem (by decide)] at h
    exact List.mem_map_of_mem h

/-- The numbers of the dtypes are small. -/
theorem dtype_lookup_range {dtype : String} {id : Int} (h : DTYPE_TO_ID.lookup dtype = some id) :
    0 ≤ id ∧ id < 2 ^ 32 := by
  rw [lookup_eq_some_iff_mem (by decide)] at h
  have hall : ∀ entry ∈ DTYPE_TO_ID, 0 ≤ entry.2 ∧ entry.2 < 2 ^ 32 := by decide
  exact hall _ h

/-- A planned output is encoded when it fits. -/
theorem exists_outputImage_iff {item : PlannedOutput} :
    (∃ bytes, outputImage item = .ok bytes) ↔ OutputFits item := by
  simp only [outputImage_ok_iff]
  constructor
  · intro ⟨bytes, hrank, id, hid, head, shape, hhead, hshape, _⟩
    have hheadHolds := holds_of_structPack hhead
    simp only [OUTPUT_HEAD, List.forall₂_cons, Field.holds_H_iff] at hheadHolds
    exact {
      rank := hrank
      dimensions := (holds_dimensions_iff hrank.2).mp (holds_of_structPack hshape)
      dtype := mem_dtypes_iff.mpr ⟨id, hid⟩
      output := hheadHolds.2.2.2.1 }
  · intro h
    obtain ⟨id, hid⟩ := mem_dtypes_iff.mp h.dtype
    have hrange := dtype_lookup_range hid
    have hrank := h.rank
    have houtput := h.output
    have hholds : List.Forall₂ Field.Holds OUTPUT_HEAD
        [id, 0, (item.shape.length : Int), item.output, 0] := by
      simp only [OUTPUT_HEAD, List.forall₂_cons, Field.holds_I_iff, Field.holds_H_iff,
        List.Forall₂.nil, and_true]
      omega
    obtain ⟨head, hhead⟩ := exists_structPack_iff.mpr hholds
    obtain ⟨shape, hshape⟩ :=
      exists_structPack_iff.mpr ((holds_dimensions_iff h.rank.2).mpr h.dimensions)
    exact ⟨_, h.rank, id, hid, head, shape, hhead, hshape, rfl⟩

/-- A text is encoded when it has no surrogates. -/
theorem exists_encodeText_iff {text : Text} :
    (∃ bytes, encodeText text = .ok bytes) ↔ Writable text := by
  simp only [encodeText_ok_iff]
  rw [← Option.isSome_iff_exists, Utf8.encode_isSome_iff, Writable]

/-- A record without tensors and scalars, with a header and a profile in range, is encoded when
its outputs fit and its texts are writable. -/
theorem exists_encode_iff [PyObject Obj] {record : Record Obj} (htensors : record.tensors = [])
    (hscalars : record.scalars = []) (hgeneration : record.generation ≠ 0)
    (hsubmission : record.submissionId ≠ 0)
    (hheader : record.outputs.length ≤ 16 →
      List.Forall₂ Field.Holds RECORD_HEADER (headerValues record))
    (hprofile : List.Forall₂ Field.Holds PROFILE record.profile) :
    (∃ data, encode record = .ok data) ↔
      record.outputs.length ≤ 16 ∧ (∀ item ∈ record.outputs, OutputFits item) ∧
        Writable record.errorType ∧ Writable record.errorMessage := by
  rw [encode_eq_image]
  simp only [recordImage_ok_iff]
  constructor
  · intro ⟨data, _, _, hcounts, _, _, _, _, outputs, _, encodedType, encodedMessage, _, _, _, _,
      houtputs, _, htype, hmessage, _⟩
    refine ⟨hcounts.2.2, ?_, exists_encodeText_iff.mp ⟨_, htype⟩,
      exists_encodeText_iff.mp ⟨_, hmessage⟩⟩
    intro item hitem
    exact exists_outputImage_iff.mp (exists_concatArray_iff.mp ⟨_, houtputs⟩ item hitem)
  · intro ⟨hcount, houtputs, htype, hmessage⟩
    obtain ⟨header, hheader⟩ := exists_structPack_iff.mpr (hheader hcount)
    obtain ⟨outputs, houtputs⟩ := exists_concatArray_iff.mpr
      fun item hitem => exists_outputImage_iff.mpr (houtputs item hitem)
    have hlength : record.profile.length = 8 := hprofile.length_eq.symm
    obtain ⟨profile, hprofile⟩ := exists_structPack_iff.mpr hprofile
    obtain ⟨encodedType, htype⟩ := exists_encodeText_iff.mpr htype
    obtain ⟨encodedMessage, hmessage⟩ := exists_encodeText_iff.mpr hmessage
    obtain ⟨error, herror⟩ := exists_errorImage (List.length_take_le 64 encodedType)
      (List.length_take_le 1024 encodedMessage) encodedType.length encodedMessage.length
    refine ⟨_, hgeneration, hsubmission, ⟨?_, ?_, hcount⟩, hlength, header, [], [], outputs,
      profile, encodedType, encodedMessage, error, hheader, ?_, ?_, houtputs, hprofile, htype,
      hmessage, herror, rfl⟩
    · rw [htensors]
      exact Nat.zero_le 16
    · rw [hscalars]
      exact Nat.zero_le 16
    · rw [htensors]
      rfl
    · rw [hscalars]
      rfl

/-! ### What the guarded region leaves -/

/-- The text of the failure can be sent. -/
def Failure.Writable : Failure → Prop
  | .operation error => error.Writable
  | .exception error => error.Writable

/-- A result fits, or the exception is writable. -/
def ResultFits {α : Type} (fits : α → Prop) : Except Failure α → Prop
  | .ok result => fits result
  | .error failure => failure.Writable

/-- A literal can be sent. -/
theorem writable_ofString (s : String) : Writable (ofString s) :=
  Utf8.encode_isSome_iff.mp (Utf8.encode_ofString_isSome s)

/-- The exceptions of the loop itself are writable. -/
theorem valueError_writable (message : String) : (valueError message).Writable :=
  ⟨writable_ofString _, writable_ofString _⟩

/-- The text of a `TypeError` can be sent. -/
theorem typeError_writable (message : String) : (typeError message).Writable :=
  ⟨writable_ofString _, writable_ofString _⟩

/-- What the loop over the scalars raises can be sent. -/
theorem decodeScalarsLoop_fits (kinds : List String) (arguments : List (Int × String))
    (values : List Bool) :
    ResultFits (fun _ => True) (decodeScalarsLoop kinds arguments values) := by
  induction arguments generalizing values with
  | nil => exact trivial
  | cons argument arguments ih =>
    rw [decodeScalarsLoop]
    split
    · exact typeError_writable _
    split
    · exact valueError_writable _
    split
    · exact typeError_writable _
    exact ih _

/-- Whatever `_decode_scalars` raises is writable. -/
theorem decodeScalars_fits (arguments : List (Scalar Obj)) (kinds : List String) :
    ResultFits (fun _ => True) (decodeScalars arguments kinds) := by
  have hloop := decodeScalarsLoop_fits kinds (arguments.map fun item => (item.parameter, item.kind))
    (List.replicate kinds.length false)
  unfold decodeScalars
  cases hvalues : decodeScalarsLoop kinds (arguments.map fun item => (item.parameter, item.kind))
      (List.replicate kinds.length false) with
  | error failure =>
    rw [hvalues] at hloop
    exact hloop
  | ok values =>
    rw [Result.ok_bind]
    split
    · exact trivial
    · exact valueError_writable _

/-- The code in front of the user code. -/
theorem prepared_fits_iff {α : Type} {fits : α → Prop} {rest : Except Failure α}
    (command : Record Obj) (operation : Operation) (b : Behaviour) :
    ResultFits fits (do
      raises b.views
      decodeScalars command.scalars operation.scalarKinds
      raises b.context
      rest) ↔ PreparedThen command operation b (ResultFits fits rest) := by
  have hscalars := decodeScalars_fits command.scalars operation.scalarKinds
  unfold PreparedThen
  cases b.views with
  | some error => exact Iff.rfl
  | none =>
    rw [raises, Result.ok_bind]
    cases hdecode : decodeScalars command.scalars operation.scalarKinds with
    | error failure =>
      rw [hdecode] at hscalars
      rw [Result.error_bind]
      constructor
      · intro _ h
        cases h
      · intro _
        exact hscalars
    | ok _ =>
      rw [Result.ok_bind]
      cases b.context with
      | some error => exact ⟨fun h _ => h, fun h => h rfl⟩
      | none =>
        rw [raises, Result.ok_bind]
        exact ⟨fun h _ => h, fun h => h rfl⟩

/-- When the answer of an invocation can be sent. -/
theorem invokeKnown_fits_iff (config : Config) (command : Record Obj) (b : Behaviour) :
    ResultFits (fun _ => True) (invokeKnown config command b) ↔ InvokeFits config command b := by
  unfold invokeKnown InvokeFits
  cases config.operations command.operationId with
  | none => exact ⟨fun _ _ h => (by cases h), fun _ => valueError_writable _⟩
  | some operation =>
    simp only [Option.some.injEq, forall_eq']
    by_cases hinputs : (tensorsOf command TENSOR_INPUT).length = operation.inputAccesses
    · by_cases houtputs :
        (tensorsOf command TENSOR_OUTPUT).length = operation.tensorOutputs.length
      · rw [if_neg (not_not.mpr hinputs), if_neg (not_not.mpr houtputs), prepared_fits_iff]
        cases b.handler with
        | none =>
          have hnone : ∀ error : PyExn, none = some error → error.Writable := by
            intro error h
            cases h
          simp only [eq_true hnone]
          exact ⟨fun h _ _ => h, fun h => h hinputs houtputs⟩
        | some error =>
          simp only [Option.some.injEq, forall_eq']
          exact ⟨fun h _ _ => h, fun h => h hinputs houtputs⟩
      · rw [if_neg (not_not.mpr hinputs), if_pos houtputs]
        exact ⟨fun _ _ h => absurd h houtputs, fun _ => valueError_writable _⟩
    · rw [if_pos hinputs]
      exact ⟨fun _ h => absurd h hinputs, fun _ => valueError_writable _⟩

/-- Outputs that can be carried by a completion. -/
def OutputsFit (outputs : List PlannedOutput) : Prop :=
  outputs.length ≤ 16 ∧ ∀ item ∈ outputs, OutputFits item

/-- The outputs of a plan fit when its entries do. -/
theorem plannedOutputs_fit_iff (operation : Operation)
    (specs : AList fun _ : String => OutputSpec) :
    OutputsFit (plannedOutputs operation specs) ↔ specs.entries.length ≤ 16 ∧
      ∀ entry ∈ specs.entries, SpecFits operation entry.1 entry.2 := by
  rw [OutputsFit, plannedOutputs, List.length_map, List.forall_mem_map]
  have hentry : ∀ entry : (_ : String) × OutputSpec,
      OutputFits { output := ((operation.indices.reverse.lookup entry.1).getD 0 : Nat)
                   shape := entry.2.shape
                   dtype := dtypeName entry.2.dtype } ↔
        SpecFits operation entry.1 entry.2 := by
    intro entry
    constructor
    · intro ⟨hrank, hdimensions, hdtype, houtput⟩
      exact ⟨hrank, hdimensions, hdtype, by simp only at houtput; omega⟩
    · intro ⟨hrank, hdimensions, hdtype, hposition⟩
      exact ⟨hrank, hdimensions, hdtype, by simp only; omega⟩
  simp only [hentry]

/-- When the answer of a plan can be sent. -/
theorem planOutputs_fits_iff (config : Config) (command : Record Obj) (b : Behaviour) :
    ResultFits OutputsFit (planOutputs config command b) ↔ PlanFits config command b := by
  unfold planOutputs PlanFits
  cases config.operations command.operationId with
  | none => exact ⟨fun _ _ h => (by cases h), fun _ => valueError_writable _⟩
  | some operation =>
    cases config.planners command.operationId with
    | false => exact ⟨fun _ _ _ h => (by cases h), fun _ => valueError_writable _⟩
    | true =>
      simp only [Option.some.injEq, forall_eq', forall_const]
      by_cases hinputs : (tensorsOf command TENSOR_INPUT).length = operation.inputAccesses
      · rw [if_neg (not_not.mpr hinputs), prepared_fits_iff]
        cases b.planner with
        | raised error => exact ⟨fun h _ => h, fun h => h hinputs⟩
        | malformed error => exact ⟨fun h _ => h, fun h => h hinputs⟩
        | plan specs =>
          have hplan : ResultFits OutputsFit (do
              if namesMatch operation specs then
                return plannedOutputs operation specs
              throw (.operation (valueError "Planner returned the wrong dynamic outputs"))) ↔
              (namesMatch operation specs = true → specs.entries.length ≤ 16 ∧
                ∀ entry ∈ specs.entries, SpecFits operation entry.1 entry.2) := by
            rw [← plannedOutputs_fit_iff]
            cases namesMatch operation specs with
            | true => exact ⟨fun h _ => h, fun h => h rfl⟩
            | false => exact ⟨fun _ h => (by cases h), fun _ => valueError_writable _⟩
          simp only [hplan]
          exact ⟨fun h _ => h, fun h => h hinputs⟩
      · rw [if_pos hinputs]
        exact ⟨fun _ h => absurd h hinputs, fun _ => valueError_writable _⟩

/-- The guarded region leaves something that fits exactly when the command is answerable. -/
theorem guarded_fits_iff (config : Config) (command : Record Obj) (b : Behaviour) :
    ResultFits OutputsFit (guarded config command b) ↔ Answerable config command b := by
  have hempty : OutputsFit [] := ⟨Nat.zero_le 16, by simp⟩
  unfold guarded Answerable
  by_cases hinvoke : command.kind = COMMAND_INVOKE
  · have hplan : command.kind ≠ COMMAND_PLAN_OUTPUTS := by rw [hinvoke]; decide
    rw [if_pos hinvoke, ← invokeKnown_fits_iff]
    simp only [hinvoke, forall_const]
    rw [hinvoke] at hplan
    cases invokeKnown config command b with
    | ok _ => simp [ResultFits, hempty, hplan, pure, Except.pure, bind, Except.bind]
    | error failure =>
      rw [Result.error_bind]
      cases failure <;> simp [ResultFits, hplan]
  by_cases hplan : command.kind = COMMAND_PLAN_OUTPUTS
  · rw [if_neg hinvoke, if_pos hplan, planOutputs_fits_iff]
    exact ⟨fun h => ⟨fun h' => absurd h' hinvoke, fun _ => h⟩, fun h => h.2 hplan⟩
  rw [if_neg hinvoke, if_neg hplan]
  refine ⟨fun _ => ⟨fun h => absurd h hinvoke, fun h => absurd h hplan⟩, fun _ => ?_⟩
  split
  · exact hempty
  · exact valueError_writable _

/-! ### The completion of a command -/

section
variable [PyObject Obj]

/-- The fields of a header that was decoded are in range. -/
theorem holds_headerValues {record : Record Obj} {data : List UInt8} {generation : Int}
    (h : Decoded record data generation) :
    List.Forall₂ Field.Holds RECORD_HEADER (headerValues record) :=
  holds_of_structPack ((unpackFrom_eq_iff (by rw [h.size]; decide)).mp h.header)

/-- What the completion has from the command, and what is not there. -/
structure Completes (command completion : Record Obj) : Prop where
  kind : completion.kind = completionKind command.kind
  flags : completion.flags = command.flags
  generation : completion.generation = command.generation
  submission : completion.submissionId = command.submissionId
  invocation : completion.invocationId = command.invocationId
  operation : completion.operationId = command.operationId
  status : completion.status ∈ ([1, 4, 5] : List Int)
  tensors : completion.tensors = []
  scalars : completion.scalars = []

omit [PyObject Obj] in
/-- The completion answers its command. -/
theorem completes_completionOf (config : Config) (command : Record Obj) (b : Behaviour) :
    Completes command (completionOf config command b) := by
  unfold completionOf
  split
  all_goals exact ⟨rfl, rfl, rfl, rfl, rfl, rfl, by simp, rfl, rfl⟩

omit [PyObject Obj] in
/-- The kind of a completion fits into its field. -/
theorem completionKind_range (kind : Int) : 0 ≤ completionKind kind ∧ completionKind kind < 2 ^ 32 := by
  unfold completionKind
  split
  · decide
  split
  · decide
  split <;> decide

omit [PyObject Obj] in
/-- The header of a completion is in range when that of the command is. -/
theorem Completes.holds_header {command completion : Record Obj}
    (h : Completes command completion)
    (hcommand : List.Forall₂ Field.Holds RECORD_HEADER (headerValues command))
    (houtputs : completion.outputs.length ≤ 16) :
    List.Forall₂ Field.Holds RECORD_HEADER (headerValues completion) := by
  have hkind := completionKind_range command.kind
  have hstatus := h.status
  simp only [List.mem_cons, List.not_mem_nil, or_false] at hstatus
  simp only [RECORD_HEADER, headerValues, List.forall₂_cons, Field.holds_I_iff,
    Field.holds_H_iff, Field.holds_Q_iff] at hcommand
  obtain ⟨_, hflags, hgeneration, hsubmission, hinvocation, hoperation, _⟩ := hcommand
  simp only [RECORD_HEADER, headerValues, List.forall₂_cons, Field.holds_I_iff,
    Field.holds_H_iff, Field.holds_Q_iff, List.Forall₂.nil, and_true, h.kind, h.flags,
    h.generation, h.submission, h.invocation, h.operation, h.tensors, h.scalars,
    List.length_nil]
  exact ⟨hkind, hflags, hgeneration, hsubmission, hinvocation, hoperation, by omega, by omega,
    by omega, by omega, by omega, by omega⟩

omit [PyObject Obj] in
/-- A reading of the clock fits into its field. -/
theorem reading_range (command : Record Obj) (clock : UInt64) :
    0 ≤ reading command clock ∧ reading command clock < 2 ^ 64 := by
  have hclock := clock.toNat_lt
  unfold reading
  split
  · omega
  · decide

omit [PyObject Obj] in
/-- The profile of a completion is in range when that of the command is. -/
theorem holds_completionProfile {command : Record Obj} (b : Behaviour) (returned : Bool)
    (h : List.Forall₂ Field.Holds PROFILE command.profile) :
    List.Forall₂ Field.Holds PROFILE (completionProfile command b returned) := by
  have hfirst : 0 ≤ command.profile.getD 0 0 ∧ command.profile.getD 0 0 < 2 ^ 64 := by
    generalize command.profile = profile at h
    cases h with
    | cons hhead _ => exact Field.holds_Q_iff.mp hhead
  have hmeasured : ∀ (measured : Bool) (clock : UInt64),
      0 ≤ (if measured then reading command clock else 0) ∧
        (if measured then reading command clock else 0) < 2 ^ 64 := by
    intro measured clock
    cases measured with
    | true => exact reading_range command clock
    | false => exact ⟨le_refl 0, show (0 : Int) < 2 ^ 64 by decide⟩
  have hformat : PROFILE = [.Q, .Q, .Q, .Q, .Q, .Q, .Q, .Q] := rfl
  rw [hformat]
  simp only [completionProfile, List.forall₂_cons, Field.holds_Q_iff, List.Forall₂.nil, and_true]
  exact ⟨hfirst, reading_range _ _, reading_range _ _, hmeasured _ _, hmeasured _ _,
    hmeasured _ _, hmeasured _ _, reading_range _ _⟩

omit [PyObject Obj] in
/-- The completion carries what the guarded region left. -/
theorem completionOf_fits_iff (config : Config) (command : Record Obj) (b : Behaviour) :
    (OutputsFit (completionOf config command b).outputs ∧
      Writable (completionOf config command b).errorType ∧
      Writable (completionOf config command b).errorMessage) ↔
        ResultFits OutputsFit (guarded config command b) := by
  have hnil : Writable [] := by simp [Writable]
  have hempty : OutputsFit [] := ⟨Nat.zero_le 16, by simp⟩
  unfold completionOf
  split
  · rename_i outputs hguarded
    rw [hguarded]
    exact ⟨fun h => h.1, fun h => ⟨h, hnil, hnil⟩⟩
  · rename_i error hguarded
    rw [hguarded]
    exact ⟨fun h => h.2, fun h => ⟨hempty, h⟩⟩
  · rename_i error hguarded
    rw [hguarded]
    exact ⟨fun h => h.2, fun h => ⟨hempty, h⟩⟩

/-- The completion of a command that was decoded can be encoded exactly when the command is
answerable. -/
theorem exists_completion_iff {config : Config} {command : Record Obj} {data : List UInt8}
    (h : Decoded command data config.generation) (b : Behaviour) :
    (∃ bytes, encodeSdk (completionOf config command b) = .ok bytes) ↔
      Answerable config command b := by
  have hcompletes := completes_completionOf config command b
  have hprofile : List.Forall₂ Field.Holds PROFILE (completionOf config command b).profile := by
    have hcommand : List.Forall₂ Field.Holds PROFILE command.profile := by
      refine holds_of_structPack ((unpackFrom_eq_iff ?_).mp h.profile)
      rw [h.size]
      decide
    unfold completionOf
    split
    all_goals exact holds_completionProfile b _ hcommand
  rw [encodeSdk_eq_encode, exists_encode_iff hcompletes.tensors hcompletes.scalars
    (by rw [hcompletes.generation, h.identity]; exact config.generation_ne)
    (by rw [hcompletes.submission]; exact h.submission)
    (hcompletes.holds_header (holds_headerValues h)) hprofile, ← guarded_fits_iff,
    ← completionOf_fits_iff, OutputsFit, and_assoc]

/-! ### Runs of the loop -/

/-- The record answers the command: it has its ids and its flags. -/
structure Answers (command : Record Obj) (data : List UInt8) : Prop where
  flags : headerField data 1 = command.flags
  submission : headerField data 3 = command.submissionId
  invocation : headerField data 4 = command.invocationId
  operation : headerField data 5 = command.operationId

/-- A completion that is encoded is an answer. -/
theorem answers_of_encode {command completion : Record Obj} {data : List UInt8}
    (h : Completes command completion) (hdata : encodeSdk completion = .ok data) :
    Answers command data := by
  rw [encodeSdk_eq_encode] at hdata
  have hheader := (encode_ok_iff.mp hdata).header
  refine ⟨?_, ?_, ?_, ?_⟩
  all_goals rw [headerField, hheader]
  · exact h.flags
  · exact h.submission
  · exact h.invocation
  · exact h.operation

/-- Every command that was popped has one answer, in order. The one that is being run has none
yet. -/
def Law (s : State Obj) : Prop :=
  match s.phase with
  | .working command => ∃ earlier, s.popped = earlier ++ [command] ∧
      List.Forall₂ Answers earlier s.published
  | _ => List.Forall₂ Answers s.popped s.published

/-- The iteration publishes one answer to the command, and goes on. -/
def GoesOn (config : Config) (s : State Obj) (command : Record Obj) (b : Behaviour) : Prop :=
  ∃ data, Answers command data ∧ step config s (.finish b) = some { s with
    phase := .waiting
    published := s.published ++ [data] }

/-- The condition on the steps: a command is answerable when it runs, and the completion ring
stays open. -/
def Meets (config : Config) (s : State Obj) : Act → Prop
  | .finish b => ∀ command, s.phase = .working command → Answerable config command b
  | .pushFails => False
  | _ => True

/-- The command that runs was decoded. -/
def Received (config : Config) (s : State Obj) : Prop :=
  ∀ command, s.phase = .working command →
    ∃ data, Decoded command data config.generation

/-- When an iteration of the worker goes on. -/
theorem goesOn_iff {config : Config} {s : State Obj} {command : Record Obj}
    (hreceived : Received config s) (hphase : s.phase = .working command) (b : Behaviour) :
    GoesOn config s command b ↔ Answerable config command b := by
  obtain ⟨_, hdecoded⟩ := hreceived command hphase
  rw [← exists_completion_iff hdecoded b]
  constructor
  · intro ⟨data, _, hstep⟩
    simp only [step, hphase] at hstep
    cases hencode : encodeSdk (completionOf config command b) with
    | ok bytes => exact ⟨bytes, rfl⟩
    | error error =>
      -- The loop has ended, so it does not wait.
      rw [hencode] at hstep
      have hwaiting := congrArg State.phase (Option.some.inj hstep)
      cases error <;> cases hwaiting
  · intro ⟨bytes, hbytes⟩
    refine ⟨bytes, answers_of_encode (completes_completionOf config command b) hbytes, ?_⟩
    simp only [step, hphase, hbytes]

/-- What a step does. Which completion a `finish` pushes is said by `goesOn_iff`. -/
theorem step_cases {config : Config} {s t : State Obj} {a : Act}
    (h : step config s a = some t) :
    match a with
    | .pop data => s.phase = .waiting ∧
      ((∃ command, decodeSdk data config.generation = .ok command ∧
        t = { s with phase := .working command, popped := s.popped ++ [command] }) ∨
      ∃ error, t = { s with phase := afterExn error })
    | .finish _ => ∃ command, s.phase = .working command
    | .popFails => s.phase = .waiting ∧ t = { s with phase := .returned }
    | .pushFails => ∃ command, s.phase = .working command := by
  cases a with
  | pop data =>
    simp only [step] at h
    split at h
    · rename_i hphase
      refine ⟨hphase, ?_⟩
      split at h
      · rename_i command hdecode
        exact Or.inl ⟨command, hdecode, (Option.some.inj h).symm⟩
      · rename_i error _
        exact Or.inr ⟨error, (Option.some.inj h).symm⟩
    · cases h
  | finish b =>
    simp only [step] at h
    split at h
    · rename_i command hphase
      exact ⟨command, hphase⟩
    · cases h
  | popFails =>
    simp only [step] at h
    split at h
    · rename_i hphase
      exact ⟨hphase, (Option.some.inj h).symm⟩
    · cases h
  | pushFails =>
    simp only [step] at h
    split at h
    · rename_i command hphase
      exact ⟨command, hphase⟩
    · cases h

/-- A loop that ends while it waits leaves no command without an answer. -/
theorem law_of_ended {config : Config} {s : State Obj} {phase : Phase Obj} (hlaw : Law s)
    (hwaiting : s.phase = .waiting) (hphase : ∀ command, phase ≠ .working command) :
    Law { s with phase := phase } ∧ Received config { s with phase := phase } := by
  rw [Law, hwaiting] at hlaw
  refine ⟨?_, fun command hcommand => absurd hcommand (hphase command)⟩
  cases phase with
  | working command => exact absurd rfl (hphase command)
  | waiting => exact hlaw
  | returned => exact hlaw
  | died error => exact hlaw

/-- A step that meets the condition keeps the law. -/
theorem law_step {config : Config} {s t : State Obj} {a : Act}
    (h : Law s ∧ Received config s) (hok : Meets config s a) (hstep : step config s a = some t) :
    Law t ∧ Received config t := by
  obtain ⟨hlaw, hreceived⟩ := h
  have hcases := step_cases hstep
  cases a with
  | pop data =>
    obtain ⟨hphase, ⟨command, hdecode, rfl⟩ | ⟨error, rfl⟩⟩ := hcases
    · rw [Law, hphase] at hlaw
      refine ⟨⟨s.popped, rfl, hlaw⟩, ?_⟩
      intro command' hcommand
      cases hcommand
      exact ⟨data, decoded_of_decode hdecode⟩
    · apply law_of_ended hlaw hphase
      intro command h
      cases error <;> cases h
  | finish b =>
    obtain ⟨command, hphase⟩ := hcases
    obtain ⟨data, hanswers, hgoes⟩ := (goesOn_iff hreceived hphase b).mpr (hok command hphase)
    rw [hgoes] at hstep
    cases hstep
    rw [Law, hphase] at hlaw
    obtain ⟨earlier, hpopped, hearlier⟩ := hlaw
    refine ⟨?_, fun _ h => by cases h⟩
    show List.Forall₂ Answers s.popped (s.published ++ [data])
    rw [hpopped]
    exact List.rel_append hearlier (.cons hanswers .nil)
  | popFails =>
    obtain ⟨hphase, rfl⟩ := hcases
    apply law_of_ended hlaw hphase
    intro command h
    cases h
  | pushFails => exact hok.elim

/-- **One answer for each command.** In every run in which each command that runs is
answerable, every command that was popped has exactly one answer, in order, before the next one
is popped. In every state of such a run, an iteration publishes an answer and goes on exactly
when its command is answerable. -/
theorem answers_run (config : Config) (s : State Obj)
    (h : (machine Obj config).Reach (Meets config) s) :
    Law s ∧ ∀ command b, s.phase = .working command →
      (GoesOn config s command b ↔ Answerable config command b) := by
  have hinv : Law s ∧ Received config s := by
    refine h.invariant (I := fun s => Law s ∧ Received config s) ⟨?_, ?_⟩ ?_
    · show List.Forall₂ Answers [] []
      exact List.Forall₂.nil
    · intro command hphase
      cases hphase
    · intro s a t hs hok hstep
      exact law_step hs hok hstep
  exact ⟨hinv.1, fun command b hphase => goesOn_iff hinv.2 hphase b⟩

/-! ### A planner that ends the loop -/

/-- One operation, with one input-free dynamic output. -/
def planConfig : Config where
  generation := 7
  generation_ne := by decide
  operations := fun id => if id = 1 then some ⟨0, [("y", true)], []⟩ else none
  planners := fun id => id = 1

/-- A command for the planner of that operation. -/
def planCommand : Record Value where
  kind := COMMAND_PLAN_OUTPUTS
  generation := 7
  submissionId := 1
  invocationId := 3
  operationId := 1

/-- A planner that returns one output of the given shape. -/
def plans (shape : List Int) : Behaviour where
  views := none
  context := none
  handler := none
  planner := .plan (AList.insert "y" ⟨shape, "torch.float32"⟩ ∅)
  dequeuedNs := 0
  startedNs := 0
  inputViewsNs := 0
  outputViewsNs := 0
  dispatchNs := 0
  kernelNs := 0
  publishedNs := 0

/-- The command is popped from a ring. -/
theorem exists_pop : ∃ data, decodeSdk data planConfig.generation = .ok planCommand := by
  obtain ⟨data, hdata⟩ := exists_encode (show (recordImage planCommand).isOk = true by decide)
  obtain ⟨scalars, hscalars, hdecode⟩ := decode_of_fits (encode_ok_iff.mp hdata)
    (fun item h => absurd h List.not_mem_nil) ⟨[], rfl, by decide⟩ ⟨[], rfl, by decide⟩
  cases hscalars
  exact ⟨data, hdecode⟩

/-- The state in which the planner runs. -/
def planning : State Value :=
  { phase := .working planCommand, popped := [planCommand], published := [] }

/-- The worker reaches the plan of its first command. -/
theorem reach_planning {ok : State Value → Act → Prop} (hpop : ∀ s data, ok s (.pop data)) :
    (machine Value planConfig).Reach ok planning := by
  obtain ⟨data, hdata⟩ := exists_pop
  have hstep : step planConfig { phase := .waiting, popped := [], published := [] } (.pop data) =
      some planning := by
    simp only [step, hdata]
    rfl
  exact .next .start (hpop _ data) hstep

/-- The sample can be answered. -/
theorem answerable_plans : Answerable planConfig planCommand (plans [2, 3]) := by
  refine ⟨fun h => absurd h (by decide), ?_⟩
  intro _ operation hoperation _ _ _ _
  cases hoperation
  refine ⟨by decide, ?_⟩
  intro entry hentry
  have hentry : entry ∈ [(⟨"y", [2, 3], "torch.float32"⟩ : (_ : String) × OutputSpec)] := hentry
  rw [List.mem_singleton] at hentry
  rw [hentry]
  exact ⟨by decide, by decide, by decide, by decide⟩

/-- A planner that returns a tensor of rank two is answered. -/
theorem answers_run_plan : ∃ s, (machine Value planConfig).Reach (Meets planConfig) s ∧
    s.popped = [planCommand] ∧ s.published.length = 1 ∧ Law s := by
  have hreach : (machine Value planConfig).Reach (Meets planConfig) planning :=
    reach_planning fun _ _ => trivial
  obtain ⟨data, _, hstep⟩ := ((answers_run planConfig planning hreach).2 planCommand
    (plans [2, 3]) rfl).mpr answerable_plans
  have hmeets : Meets planConfig planning (.finish (plans [2, 3])) := by
    intro command hcommand
    cases hcommand
    exact answerable_plans
  have hnext : (machine Value planConfig).Reach (Meets planConfig)
      { planning with phase := .waiting, published := planning.published ++ [data] } :=
    .next hreach hmeets hstep
  exact ⟨_, hnext, rfl, rfl, (answers_run planConfig _ hnext).1⟩

/-- A planner that returns a shape without dimensions ends the thread. Its command stays without
an answer, though both rings are open. -/
theorem not_law_rank_zero : ∃ s error,
    (machine Value planConfig).Reach (fun _ a => a ≠ .popFails ∧ a ≠ .pushFails) s ∧
      s.phase = .died error ∧ s.popped = [planCommand] ∧ s.published = [] ∧ ¬ Law s := by
  have himage : recordImage (completionOf planConfig planCommand (plans [])) =
      .error (.valueError "Planned output rank is invalid") := by decide
  have hstep : step planConfig planning (.finish (plans [])) = some { planning with
      phase := .died (.valueError "Planned output rank is invalid") } := by
    simp only [step, planning]
    rw [encodeSdk_eq_encode, encode_eq_image, himage]
    rfl
  have hreach : (machine Value planConfig).Reach (fun _ a => a ≠ .popFails ∧ a ≠ .pushFails)
      { planning with phase := .died (.valueError "Planned output rank is invalid") } :=
    .next (a := .finish (plans [])) (reach_planning fun _ _ => ⟨by simp, by simp⟩)
      ⟨by simp, by simp⟩ hstep
  refine ⟨_, _, hreach, rfl, rfl, rfl, ?_⟩
  intro h
  cases h

end

end Wmfs.Worker
