import Wmfs.Dtypes.Acceptance
import Wmfs.Invocation.Outputs
import Wmfs.Manifest.Fingerprints

/-!
# `Wmfs.Dtypes.Dispatch`: the dispatch case that the compiler emits

`_dispatch_case`, `_operation_dtypes`, `_cpp_dtype_validations` and `_cpp_typed_dispatch` of
`wmfs_tool/generator.py`, with the C++ that they emit. The emitted code is a list of statements
`if (condition) return status;` and a `switch` on the dtype of input 0. A `Statement` is one
condition, and `run` is what the C++ does.

A dtype constant is written as the name of its dtype, and the tag `dtype_tag<T>` that a kernel
gets as the name of the dtype of `T`. The runtime hands over tensors of the four supported dtypes.

`dispatchCorrect_iff` says for which operations the emitted case implements the declared rules.
-/

set_option autoImplicit false

namespace Wmfs.Dtypes

open Wmfs.Lib
open Wmfs.Compiler (Operation TensorParameter ScalarParameter Identifier DTypeVariable DType Output
  SUPPORTED_DTYPES OperationValid InRange)
open Wmfs.Invocation (Tensor ManagedTensor TensorDescriptor validateTensorDtypes evaluateDtype)
open Wmfs.Manifest (operationMetadata tensorMetadata dtypeMetadata)
open Wmfs.Ring.Codec (Value)

/-! ### The emitted code -/

/-- The right side of a comparison with the dtype of an output. -/
inductive Operand where
  /-- `invocation->inputs[index].dtype`. -/
  | input (index : Int)
  /-- A dtype constant. -/
  | constant (dtype : String)

/-- An emitted `if (condition) return status;`. -/
inductive Statement where
  /-- An array is missing although its count is not zero. -/
  | refuseMissing
  /-- The dtype of an input is none of these. -/
  | refuseUnlisted (input : Nat) (dtypes : List String)
  /-- Two inputs have different dtypes. -/
  | refuseDifferent (input first : Nat)
  /-- A scalar is no index into an enum of this length. -/
  | refuseScalar (scalar count : Nat)
  /-- The dtype of an output is not the expected one. -/
  | refuseOutput (output : Nat) (expected : Operand)

/-- An emitted `case` of the switch over the operations. -/
structure DispatchCase where
  inputCount : Nat
  outputCount : Nat
  scalarCount : Nat
  validations : List Statement
  /-- The labels of the switch over the dtype of input 0. -/
  dtypes : List String

/-- `_operation_dtypes`. -/
def operationDtypes (operation : Operation) : List String :=
  match operation.dtypeVariables, operation.inputs with
  | first :: _, _ => first.dtypes.names
  | [], input :: _ => if input.dtypes ≠ [] then input.dtypes else SUPPORTED_DTYPES
  | [], [] => SUPPORTED_DTYPES

/-- The loop over the inputs in `_cpp_dtype_validations`. `first` has the input at which each
variable was met first. -/
def inputValidations (operation : Operation) :
    List (TensorParameter × Nat) → List (Identifier × Nat) → Option (List Statement)
  | [], _ => some []
  | (tensor, index) :: rest, first =>
    match tensor.dtypeVariable with
    | some name => do
      -- The dictionary of the variables holds the last one of a name.
      let declared ← operation.dtypeVariables.reverse.find? fun declared => declared.name = name
      match first.lookup name with
      | some earlier =>
        let statements ← inputValidations operation rest first
        some (.refuseUnlisted index declared.dtypes.names :: .refuseDifferent index earlier ::
          statements)
      | none =>
        let statements ← inputValidations operation rest ((name, index) :: first)
        some (.refuseUnlisted index declared.dtypes.names :: statements)
    | none => do
      let statements ← inputValidations operation rest first
      if tensor.dtypes ≠ [] then some (.refuseUnlisted index tensor.dtypes :: statements)
      else some statements

/-- The loop over the scalars. -/
def scalarValidations (scalars : List ScalarParameter) : List Statement :=
  scalars.zipIdx.filterMap fun entry =>
    if entry.1.enum.isSome then some (.refuseScalar entry.2 entry.1.enumValues.length) else none

/-- `variable_inputs`: the last input of a variable. -/
def variableInput (operation : Operation) (name : Identifier) : Option Nat :=
  (operation.inputs.zipIdx.reverse.find? fun entry =>
    entry.1.dtypeVariable = some name).map Prod.snd

/-- The dtype that is expected of an output, if it is checked. A missing key raises. -/
def expectedOperand (operation : Operation) : DType → Option (Option Operand)
  | .variable name => (variableInput operation name).map fun index => some (.input index)
  | .input index => some (some (.input index))
  | .fixed value =>
    if Utf8.toString value.text ∈ SUPPORTED_DTYPES then
      some (some (.constant (Utf8.toString value.text)))
    else none
  | .promoteTensorScalar _ _ => some none

/-- A pass of the loop over the outputs. -/
def outputValidation (operation : Operation) (entry : Output × Nat) : Option (List Statement) :=
  match entry.1.dtype with
  | none => some []
  | some dtype => do
    match ← expectedOperand operation dtype with
    | some expected => some [.refuseOutput entry.2 expected]
    | none => some []

/-- `_cpp_dtype_validations`. -/
def cppDtypeValidations (operation : Operation) : Option (List Statement) := do
  let inputs ← inputValidations operation operation.inputs.zipIdx []
  let outputs ← operation.outputs.zipIdx.mapM (outputValidation operation)
  return .refuseMissing :: (inputs ++ (scalarValidations operation.scalars ++ outputs.flatten))

/-- `_dispatch_case`. -/
def dispatchCase (operation : Operation) : Option DispatchCase := do
  return {
    inputCount := operation.inputs.length
    outputCount := operation.outputs.length
    scalarCount := operation.scalars.length
    validations := ← cppDtypeValidations operation
    dtypes := operationDtypes operation }

/-! ### What the emitted code does -/

/-- The statuses that an emitted case returns. -/
inductive Status where
  | invalidArgument
  | unsupported
  deriving DecidableEq

/-- Why a kernel is not reached. -/
inductive Stop where
  | status (status : Status)
  /-- An array is read at or beyond its count. -/
  | outOfBounds
  deriving DecidableEq

/-- `wmfs_scalar_kind_v1`. -/
inductive ScalarKind where
  | boolean
  | float64
  | int64
  | text
  deriving DecidableEq

/-- A scalar of a `wmfs_invocation_v1`. -/
structure NativeScalar where
  kind : ScalarKind
  bits : UInt64

/-- A `wmfs_invocation_v1`: the dtypes of its tensors, its scalars, and which of its three
pointers are null. -/
structure NativeInvocation where
  inputs : List String
  outputs : List String
  scalars : List NativeScalar
  inputsMissing : Bool
  outputsMissing : Bool
  scalarsMissing : Bool

/-- `invocation->inputs[index].dtype`, or the same of an output. -/
def readDtype (dtypes : List String) (index : Int) : Except Stop String :=
  if index < 0 then .error .outOfBounds
  else
    match dtypes[index.toNat]? with
    | some dtype => .ok dtype
    | none => .error .outOfBounds

/-- The value of an operand. -/
def Operand.read (invocation : NativeInvocation) : Operand → Except Stop String
  | .input index => readDtype invocation.inputs index
  | .constant dtype => .ok dtype

/-- `if (condition) return status;`. -/
def Statement.run (invocation : NativeInvocation) : Statement → Except Stop Unit
  | .refuseMissing =>
    raiseIf ((invocation.inputs ≠ [] ∧ invocation.inputsMissing) ∨
        (invocation.outputs ≠ [] ∧ invocation.outputsMissing) ∨
        (invocation.scalars ≠ [] ∧ invocation.scalarsMissing))
      (.status .invalidArgument)
  | .refuseUnlisted input dtypes => do
    let dtype ← readDtype invocation.inputs input
    raiseIf (dtype ∉ dtypes) (.status .unsupported)
  | .refuseDifferent input first => do
    let dtype ← readDtype invocation.inputs input
    let firstDtype ← readDtype invocation.inputs first
    raiseIf (dtype ≠ firstDtype) (.status .invalidArgument)
  | .refuseScalar scalar count =>
    match invocation.scalars[scalar]? with
    | some value =>
      raiseIf (value.kind ≠ .int64 ∨ value.bits.toNat ≥ count) (.status .invalidArgument)
    | none => .error .outOfBounds
  | .refuseOutput output expected => do
    let dtype ← readDtype invocation.outputs output
    let expectedDtype ← expected.read invocation
    raiseIf (dtype ≠ expectedDtype) (.status .invalidArgument)

/-- An emitted case: the dtype of the tag that the kernel gets. -/
def DispatchCase.run (emitted : DispatchCase) (invocation : NativeInvocation) :
    Except Stop String := do
  raiseIf (invocation.inputs.length ≠ emitted.inputCount ∨
      invocation.outputs.length ≠ emitted.outputCount ∨
      invocation.scalars.length ≠ emitted.scalarCount) (.status .invalidArgument)
  forM emitted.validations (Statement.run invocation)
  let dtype ← readDtype invocation.inputs 0
  if dtype ∈ emitted.dtypes then return dtype else throw (.status .unsupported)

/-- The inputs that a statement reads. -/
def Statement.inputs : Statement → List Int
  | .refuseMissing => []
  | .refuseUnlisted input _ => [input]
  | .refuseDifferent input first => [(input : Int), (first : Int)]
  | .refuseScalar _ _ => []
  | .refuseOutput _ (.input index) => [index]
  | .refuseOutput _ (.constant _) => []

/-- The inputs that an emitted case reads. -/
def DispatchCase.inputs (emitted : DispatchCase) : List Int :=
  emitted.validations.flatMap Statement.inputs ++ [0]

/-! ### The property -/

/-- The outputs of a call have the dtypes that the runtime plans for these inputs. -/
def HasPlannedDtypes (operation : Operation) (dtypes outputs : List String) : Prop :=
  ∃ (resultType : TensorDescriptor → Value → String) (inputs : List ManagedTensor)
    (scalars : List Value), inputs.map (fun input => input.descriptor.dtype) = dtypes ∧
    ∀ (index : Nat) (output : Output), operation.outputs[index]? = some output →
      ∀ expression ∈ output.dtype, ∀ dtype, evaluateDtype resultType (operationMetadata operation).toOperationMetadata inputs
        scalars (dtypeMetadata expression) = .ok dtype → outputs[index]? = some dtype

/-- A call with tensors of supported dtypes, the counts of the operation, valid enum scalars, and
outputs of the planned dtypes. -/
structure IsCall (operation : Operation) (tensors : List Tensor)
    (invocation : NativeInvocation) : Prop where
  length_eq : tensors.length = operation.inputs.length
  supported : ∀ tensor ∈ tensors, tensor.dtype ∈ SUPPORTED_DTYPES
  inputs_eq : invocation.inputs = tensors.map Tensor.dtype
  outputs_length : invocation.outputs.length = operation.outputs.length
  scalars_length : invocation.scalars.length = operation.scalars.length
  inputs_present : invocation.inputsMissing = false
  outputs_present : invocation.outputsMissing = false
  scalars_present : invocation.scalarsMissing = false
  enums : ∀ (index : Nat) (scalar : ScalarParameter),
    operation.scalars[index]? = some scalar → scalar.enum.isSome →
    ∃ value ∈ invocation.scalars[index]?,
      value.kind = .int64 ∧ value.bits.toNat < scalar.enumValues.length
  planned : HasPlannedDtypes operation invocation.inputs invocation.outputs

/-- The dtype of the first dtype variable of an operation, or of input 0 when it has none. -/
def IsTagDtype (operation : Operation) (inputs : List String) (dtype : String) : Prop :=
  match operation.dtypeVariables with
  | [] => inputs[0]? = some dtype
  | first :: _ => ∀ entry ∈ operation.inputs.zip inputs,
    entry.1.dtypeVariable = some first.name → entry.2 = dtype

/-- An emitted case treats a call as the runtime does, and passes on the right dtype. -/
structure Dispatches (operation : Operation) (emitted : DispatchCase) (tensors : List Tensor)
    (invocation : NativeInvocation) : Prop where
  reaches_iff : (∃ dtype, emitted.run invocation = .ok dtype) ↔
    validateTensorDtypes (operationMetadata operation).toOperationMetadata tensors = .ok ()
  isTagDtype : ∀ dtype, emitted.run invocation = .ok dtype →
    IsTagDtype operation invocation.inputs dtype
  in_bounds : emitted.run invocation ≠ .error .outOfBounds

/-- The emitted case of an operation implements its dtype rules. -/
def DispatchCorrect (operation : Operation) : Prop :=
  ∃ emitted, dispatchCase operation = some emitted ∧
    (∀ index ∈ emitted.inputs, InRange index operation.inputs.length) ∧
    ∀ tensors invocation, IsCall operation tensors invocation →
      Dispatches operation emitted tensors invocation

/-- Input 0 decides the dtype of the first variable: it carries it, or both have one and the same
dtype only. -/
def FirstInputDecides (operation : Operation) : Prop :=
  match operation.inputs, operation.dtypeVariables with
  | [], _ => False
  | _ :: _, [] => True
  | input :: _, first :: _ => input.dtypeVariable = some first.name ∨
    ∃ dtype, allowed operation input = [dtype] ∧ first.dtypes.names = [dtype]

/-! ### Statements that stay within the counts -/

/-- A statement reads only what a call of the operation has. -/
def Statement.WithinCounts (operation : Operation) : Statement → Prop
  | .refuseMissing => True
  | .refuseUnlisted input _ => input < operation.inputs.length
  | .refuseDifferent input first =>
    input < operation.inputs.length ∧ first < operation.inputs.length
  | .refuseScalar scalar _ => scalar < operation.scalars.length
  | .refuseOutput output (.input index) =>
    output < operation.outputs.length ∧ InRange index operation.inputs.length
  | .refuseOutput output (.constant _) => output < operation.outputs.length

/-- A dtype is read at a position in the list. -/
theorem readDtype_ok_iff {dtypes : List String} {index : Nat} {dtype : String} :
    readDtype dtypes index = .ok dtype ↔ dtypes[index]? = some dtype := by
  have hnonneg : ¬ (index : Int) < 0 := by omega
  rw [readDtype, if_neg hnonneg, Int.toNat_natCast]
  cases dtypes[index]? with
  | none => simp
  | some found => simp

/-- A position in the list has a dtype. -/
theorem readDtype_of_inRange (dtypes : List String) {index : Int}
    (h : InRange index dtypes.length) : ∃ dtype, readDtype dtypes index = .ok dtype := by
  obtain ⟨n, rfl⟩ := Int.eq_ofNat_of_zero_le h.1
  have hlt : n < dtypes.length := by
    have hupper := h.2
    omega
  exact ⟨dtypes[n], readDtype_ok_iff.mpr (List.getElem?_eq_getElem hlt)⟩

/-- A natural number below the length is a position. -/
theorem inRange_natCast {n length : Nat} (h : n < length) : InRange n length := by
  constructor
  · omega
  · omega

/-- The inputs that such a statement reads are in range. -/
theorem Statement.WithinCounts.inRange {operation : Operation} {statement : Statement}
    (h : statement.WithinCounts operation) :
    ∀ index ∈ statement.inputs, InRange index operation.inputs.length := by
  intro index hindex
  match statement with
  | .refuseMissing => cases hindex
  | .refuseUnlisted input _ =>
    cases List.mem_singleton.mp hindex
    exact inRange_natCast h
  | .refuseDifferent input first =>
    rcases List.mem_pair.mp hindex with rfl | rfl
    · exact inRange_natCast h.1
    · exact inRange_natCast h.2
  | .refuseScalar _ _ => cases hindex
  | .refuseOutput _ (.input found) =>
    cases List.mem_singleton.mp hindex
    exact h.2
  | .refuseOutput _ (.constant _) => cases hindex

/-- A check raises its own error only. -/
theorem raiseIf_ne {bad : Prop} [Decidable bad] {error other : Stop} (h : error ≠ other) :
    raiseIf bad error ≠ .error other := by
  unfold raiseIf
  split
  · intro heq
    exact h (Except.error.inj heq)
  · intro heq
    cases heq

/-- Such a statement reads nothing out of bounds in a call of the operation. -/
theorem Statement.WithinCounts.run_ne {operation : Operation} {invocation : NativeInvocation}
    {statement : Statement} (h : statement.WithinCounts operation)
    (hinputs : invocation.inputs.length = operation.inputs.length)
    (houtputs : invocation.outputs.length = operation.outputs.length)
    (hscalars : invocation.scalars.length = operation.scalars.length) :
    statement.run invocation ≠ .error .outOfBounds := by
  have hread : ∀ n < operation.inputs.length, ∃ dtype, readDtype invocation.inputs n = .ok dtype :=
    fun n hn => readDtype_of_inRange _ (inRange_natCast (hinputs ▸ hn))
  have hreadOutput : ∀ n < operation.outputs.length,
      ∃ dtype, readDtype invocation.outputs n = .ok dtype :=
    fun n hn => readDtype_of_inRange _ (inRange_natCast (houtputs ▸ hn))
  match statement with
  | .refuseMissing => exact raiseIf_ne Stop.noConfusion
  | .refuseUnlisted input _ =>
    obtain ⟨dtype, hdtype⟩ := hread input h
    rw [Statement.run, hdtype, Result.ok_bind]
    exact raiseIf_ne Stop.noConfusion
  | .refuseDifferent input first =>
    obtain ⟨dtype, hdtype⟩ := hread input h.1
    obtain ⟨firstDtype, hfirst⟩ := hread first h.2
    rw [Statement.run, hdtype, Result.ok_bind, hfirst, Result.ok_bind]
    exact raiseIf_ne Stop.noConfusion
  | .refuseScalar scalar count =>
    have hlt : scalar < invocation.scalars.length := hscalars ▸ h
    rw [Statement.run]
    simp only [List.getElem?_eq_getElem hlt]
    exact raiseIf_ne Stop.noConfusion
  | .refuseOutput output (.input index) =>
    obtain ⟨dtype, hdtype⟩ := hreadOutput output h.1
    obtain ⟨expected, hexpected⟩ := readDtype_of_inRange invocation.inputs
      (hinputs.symm ▸ h.2)
    rw [Statement.run, hdtype, Result.ok_bind, Operand.read, hexpected, Result.ok_bind]
    exact raiseIf_ne Stop.noConfusion
  | .refuseOutput output (.constant _) =>
    obtain ⟨dtype, hdtype⟩ := hreadOutput output h
    rw [Statement.run, hdtype, Result.ok_bind, Operand.read, Result.ok_bind]
    exact raiseIf_ne Stop.noConfusion

/-! ### The checks of the inputs -/

/-- The checks of the inputs are emitted, and stay within the counts. -/
theorem exists_inputValidations {operations : List Operation} {operation : Operation}
    (h : OperationValid operations operation) :
    ∀ (inputs : List TensorParameter) (n : Nat) (first : List (Identifier × Nat)),
      (∀ tensor ∈ inputs, tensor ∈ operation.inputs) →
      n + inputs.length ≤ operation.inputs.length →
      (∀ name, ∀ index ∈ first.lookup name, index < n) →
      ∃ statements, inputValidations operation (inputs.zipIdx n) first = some statements ∧
        ∀ statement ∈ statements, statement.WithinCounts operation := by
  intro inputs
  induction inputs with
  | nil =>
    intro n first _ _ _
    exact ⟨[], rfl, fun statement hmem => by cases hmem⟩
  | cons input inputs ih =>
    intro n first hinputs hcount hfirst
    rw [List.forall_mem_cons] at hinputs
    rw [List.length_cons] at hcount
    have hn : n < operation.inputs.length := by omega
    have hlater : ∀ name, ∀ index ∈ first.lookup name, index < n + 1 := by
      intro name index hindex
      have hlt := hfirst name index hindex
      omega
    rw [List.zipIdx_cons, inputValidations]
    cases hname : input.dtypeVariable with
    | none =>
      obtain ⟨statements, hstatements, hwithin⟩ :=
        ih (n + 1) first hinputs.2 (by omega) hlater
      simp only [hstatements]
      by_cases hdtypes : input.dtypes ≠ []
      · refine ⟨.refuseUnlisted n input.dtypes :: statements, if_pos hdtypes, ?_⟩
        exact List.forall_mem_cons.mpr ⟨hn, hwithin⟩
      · exact ⟨statements, if_neg hdtypes, hwithin⟩
    | some name =>
      obtain ⟨declared, hdeclared⟩ := exists_declarationOf h hinputs.1 hname
      have hfound := (find?_reverse_of_nodup h.variables_nodup name).trans hdeclared
      simp only [hfound]
      cases hlookup : first.lookup name with
      | some earlier =>
        obtain ⟨statements, hstatements, hwithin⟩ :=
          ih (n + 1) first hinputs.2 (by omega) hlater
        have hearlier := hfirst name earlier hlookup
        refine ⟨.refuseUnlisted n declared.dtypes.names :: .refuseDifferent n earlier ::
          statements, ?_, ?_⟩
        · simp only [hstatements]
          rfl
        · rw [List.forall_mem_cons, List.forall_mem_cons]
          exact ⟨hn, ⟨hn, hearlier.trans hn⟩, hwithin⟩
      | none =>
        have hnew : ∀ other, ∀ index ∈ ((name, n) :: first).lookup other, index < n + 1 := by
          intro other index hindex
          rw [Document.lookup_cons_ite] at hindex
          split at hindex
          · cases hindex
            omega
          · exact hlater other index hindex
        obtain ⟨statements, hstatements, hwithin⟩ :=
          ih (n + 1) ((name, n) :: first) hinputs.2 (by omega) hnew
        refine ⟨.refuseUnlisted n declared.dtypes.names :: statements, ?_, ?_⟩
        · simp only [hstatements]
          rfl
        · exact List.forall_mem_cons.mpr ⟨hn, hwithin⟩

/-- A binding agrees with the inputs at which the variables were met first. -/
def AgreesFirst (invocation : NativeInvocation) (first : List (Identifier × Nat))
    (binding : Identifier → String) : Prop :=
  ∀ name, ∀ index ∈ first.lookup name, invocation.inputs[index]? = some (binding name)

/-- A binding agrees with one more variable when it has the dtype of its first input. -/
theorem agreesFirst_cons_iff {invocation : NativeInvocation} {first : List (Identifier × Nat)}
    {binding : Identifier → String} {name : Identifier} {index : Nat} {dtype : String}
    (hnew : first.lookup name = none) (hdtype : invocation.inputs[index]? = some dtype) :
    AgreesFirst invocation ((name, index) :: first) binding ↔
      AgreesFirst invocation first binding ∧ binding name = dtype := by
  constructor
  · intro h
    constructor
    · intro other found hfound
      apply h other found
      rw [Document.lookup_cons_ite, if_neg]
      · exact hfound
      · intro heq
        rw [heq, hnew] at hfound
        cases hfound
    · have hself := h name index (by rw [Document.lookup_cons_ite, if_pos rfl]; rfl)
      rw [hdtype] at hself
      exact (Option.some.inj hself).symm
  · intro ⟨hagrees, hbinding⟩ other found hfound
    rw [Document.lookup_cons_ite] at hfound
    split at hfound
    · rename_i heq
      cases hfound
      rw [hdtype, heq, hbinding]
    · exact hagrees other found hfound

/-- The check that a dtype is listed. -/
theorem run_refuseUnlisted {invocation : NativeInvocation} {index : Nat} {dtypes : List String}
    {dtype : String} (h : invocation.inputs[index]? = some dtype) :
    (Statement.refuseUnlisted index dtypes).run invocation = .ok () ↔ dtype ∈ dtypes := by
  rw [Statement.run, readDtype_ok_iff.mpr h, Result.ok_bind, raiseIf_ok_iff, not_not]

/-- The check that two inputs have one dtype. -/
theorem run_refuseDifferent {invocation : NativeInvocation} {index first : Nat}
    {dtype firstDtype : String} (h : invocation.inputs[index]? = some dtype)
    (hfirst : invocation.inputs[first]? = some firstDtype) :
    (Statement.refuseDifferent index first).run invocation = .ok () ↔ dtype = firstDtype := by
  rw [Statement.run, readDtype_ok_iff.mpr h, Result.ok_bind, readDtype_ok_iff.mpr hfirst,
    Result.ok_bind, raiseIf_ok_iff, ne_eq, not_not]

/-- The checks pass when one binding fits the inputs and agrees with what has been met. The
induction is on the inputs, like that about the loop of the runtime. -/
theorem run_inputValidations_iff {operations : List Operation} {operation : Operation}
    (h : OperationValid operations operation) {invocation : NativeInvocation} :
    ∀ (inputs : List TensorParameter) (dtypes : List String) (n : Nat)
      (first : List (Identifier × Nat)) (statements : List Statement),
      (∀ tensor ∈ inputs, tensor ∈ operation.inputs) →
      inputs.length = dtypes.length →
      (∀ dtype ∈ dtypes, dtype ∈ SUPPORTED_DTYPES) →
      invocation.inputs.drop n = dtypes →
      (∀ name, ∀ index ∈ first.lookup name, index < invocation.inputs.length) →
      inputValidations operation (inputs.zipIdx n) first = some statements →
      ((∀ statement ∈ statements, statement.run invocation = .ok ()) ↔
        ∃ binding, AgreesFirst invocation first binding ∧
          List.Forall₂ (Fits operation binding) inputs dtypes) := by
  intro inputs
  induction inputs with
  | nil =>
    intro dtypes n first statements _ hlength _ _ hread hstatements
    cases hstatements
    rw [List.eq_nil_of_length_eq_zero hlength.symm]
    refine iff_of_true (fun statement hmem => by cases hmem) ?_
    refine ⟨fun name => ((first.lookup name).bind fun index => invocation.inputs[index]?).getD "",
      ?_, .nil⟩
    intro name index hindex
    have hlt := hread name index hindex
    show _ = some (((first.lookup name).bind fun index => invocation.inputs[index]?).getD "")
    rw [Option.mem_def.mp hindex, Option.bind_some, List.getElem?_eq_getElem hlt, Option.getD_some]
  | cons input inputs ih =>
    intro dtypes n first statements hinputs hlength hsupported hdrop hfirst hstatements
    match dtypes with
    | [] => cases hlength
    | dtype :: dtypes =>
      rw [List.forall_mem_cons] at hinputs hsupported
      have hdtype : invocation.inputs[n]? = some dtype := by
        have hhead := congrArg List.head? hdrop
        rw [List.head?_drop] at hhead
        exact hhead
      have hrest : invocation.inputs.drop (n + 1) = dtypes := by
        have htail := congrArg List.tail hdrop
        rw [List.tail_drop] at htail
        exact htail
      have hn : n < invocation.inputs.length := (List.getElem?_eq_some_iff.mp hdtype).1
      have ih := fun first statements hfirst hstatements => ih dtypes (n + 1) first statements
        hinputs.2 (Nat.succ.inj hlength) hsupported.2 hrest hfirst hstatements
      rw [List.zipIdx_cons, inputValidations] at hstatements
      simp only [List.forall₂_cons]
      cases hname : input.dtypeVariable with
      | none =>
        simp only [hname] at hstatements
        obtain ⟨found, hfound, hstatements⟩ := Option.bind_eq_some_iff.mp hstatements
        have ih := ih first found hfirst hfound
        simp only [fits_iff_permits hsupported.1, permits_plain_iff hname]
        by_cases hdtypes : input.dtypes ≠ []
        · rw [if_pos hdtypes] at hstatements
          cases hstatements
          rw [List.forall_mem_cons, run_refuseUnlisted hdtype, ih]
          constructor
          · intro ⟨hmem, binding, hagrees, hfits⟩
            exact ⟨binding, hagrees, fun hbad => hbad.2 hmem, hfits⟩
          · intro ⟨binding, hagrees, hallowed, hfits⟩
            exact ⟨by_contra fun hmem => hallowed ⟨hdtypes, hmem⟩, binding, hagrees, hfits⟩
        · rw [if_neg hdtypes] at hstatements
          cases hstatements
          rw [ih]
          constructor
          · intro ⟨binding, hagrees, hfits⟩
            exact ⟨binding, hagrees, fun hbad => hdtypes hbad.1, hfits⟩
          · intro ⟨binding, hagrees, _, hfits⟩
            exact ⟨binding, hagrees, hfits⟩
      | some name =>
        obtain ⟨declared, hdeclared⟩ := exists_declarationOf h hinputs.1 hname
        have hfound := (find?_reverse_of_nodup h.variables_nodup name).trans hdeclared
        simp only [hname, hfound, Option.bind_eq_bind, Option.bind_some] at hstatements
        simp only [fits_iff_permits hsupported.1, permits_variable_iff hname hdeclared]
        cases hlookup : first.lookup name with
        | some earlier =>
          simp only [hlookup] at hstatements
          obtain ⟨found, hfound, hstatements⟩ := Option.bind_eq_some_iff.mp hstatements
          cases hstatements
          obtain ⟨firstDtype, hearlier⟩ : ∃ firstDtype,
              invocation.inputs[earlier]? = some firstDtype :=
            ⟨_, List.getElem?_eq_getElem (hfirst name earlier hlookup)⟩
          rw [List.forall_mem_cons, List.forall_mem_cons, run_refuseUnlisted hdtype,
            run_refuseDifferent hdtype hearlier, ih first found hfirst hfound]
          -- A binding that agrees gives the variable the dtype of its first input.
          have hbinding : ∀ binding, AgreesFirst invocation first binding →
              binding name = firstDtype := by
            intro binding hagrees
            have hread := hagrees name earlier hlookup
            rw [hearlier] at hread
            exact (Option.some.inj hread).symm
          constructor
          · intro ⟨hmem, heq, binding, hagrees, hfits⟩
            exact ⟨binding, hagrees, ⟨hmem, (hbinding binding hagrees).trans heq.symm⟩, hfits⟩
          · intro ⟨binding, hagrees, ⟨hmem, heq⟩, hfits⟩
            exact ⟨hmem, heq.symm.trans (hbinding binding hagrees), binding, hagrees, hfits⟩
        | none =>
          simp only [hlookup] at hstatements
          obtain ⟨found, hfound, hstatements⟩ := Option.bind_eq_some_iff.mp hstatements
          cases hstatements
          have hnew : ∀ other, ∀ index ∈ ((name, n) :: first).lookup other,
              index < invocation.inputs.length := by
            intro other index hindex
            rw [Document.lookup_cons_ite] at hindex
            split at hindex
            · cases hindex
              exact hn
            · exact hfirst other index hindex
          rw [List.forall_mem_cons, run_refuseUnlisted hdtype, ih _ found hnew hfound]
          simp only [agreesFirst_cons_iff hlookup hdtype]
          constructor
          · intro ⟨hmem, binding, ⟨hagrees, heq⟩, hfits⟩
            exact ⟨binding, hagrees, ⟨hmem, heq⟩, hfits⟩
          · intro ⟨binding, hagrees, ⟨hmem, heq⟩, hfits⟩
            exact ⟨hmem, binding, ⟨hagrees, heq⟩, hfits⟩

/-! ### The checks of the scalars and of the outputs -/

/-- The checks of the scalars read scalars that exist. -/
theorem scalarValidations_withinCounts (operation : Operation) :
    ∀ statement ∈ scalarValidations operation.scalars, statement.WithinCounts operation := by
  intro statement hmem
  obtain ⟨⟨scalar, index⟩, hentry, hsome⟩ := List.mem_filterMap.mp hmem
  split at hsome
  · cases hsome
    exact List.snd_lt_of_mem_zipIdx hentry
  · cases hsome

/-- The checks of valid enum scalars pass. -/
theorem run_scalarValidations {operation : Operation} {tensors : List Tensor}
    {invocation : NativeInvocation} (hcall : IsCall operation tensors invocation) :
    ∀ statement ∈ scalarValidations operation.scalars, statement.run invocation = .ok () := by
  intro statement hmem
  obtain ⟨⟨scalar, index⟩, hentry, hsome⟩ := List.mem_filterMap.mp hmem
  rw [List.mk_mem_zipIdx_iff_getElem?] at hentry
  split at hsome
  · rename_i henum
    cases hsome
    obtain ⟨value, hvalue, hkind, hbits⟩ := hcall.enums index scalar hentry henum
    rw [Statement.run]
    simp only [Option.mem_def.mp hvalue]
    rw [raiseIf_ok_iff]
    intro hbad
    rcases hbad with hkind' | hbits'
    · exact hkind' hkind
    · exact absurd hbits (not_lt.mpr hbits')
  · cases hsome

/-- The last input of a variable carries it. -/
theorem variableInput_eq_some {operation : Operation} {name : Identifier} {index : Nat}
    (h : variableInput operation name = some index) :
    ∃ tensor, operation.inputs[index]? = some tensor ∧ tensor.dtypeVariable = some name := by
  obtain ⟨⟨tensor, found⟩, hfound, rfl⟩ := Option.map_eq_some_iff.mp h
  have hmem := List.mem_reverse.mp (List.mem_of_find?_eq_some hfound)
  have hname := List.find?_some hfound
  exact ⟨tensor, List.mk_mem_zipIdx_iff_getElem?.mp hmem, of_decide_eq_true hname⟩

/-- A declared variable has an input. -/
theorem exists_variableInput {operations : List Operation} {operation : Operation}
    (h : OperationValid operations operation) {name : Identifier}
    (hname : name ∈ operation.dtypeVariables.map DTypeVariable.name) :
    ∃ index, variableInput operation name = some index := by
  obtain ⟨declared, hdeclared, rfl⟩ := List.mem_map.mp hname
  obtain ⟨tensor, htensor, hvariable⟩ := h.variables_used declared hdeclared
  obtain ⟨index, hindex, hget⟩ := List.getElem_of_mem htensor
  have hentry : (tensor, index) ∈ operation.inputs.zipIdx.reverse := by
    rw [List.mem_reverse, List.mk_mem_zipIdx_iff_getElem?, List.getElem?_eq_getElem hindex, hget]
  rw [variableInput]
  cases hfound : operation.inputs.zipIdx.reverse.find? fun entry =>
      entry.1.dtypeVariable = some declared.name with
  | none =>
    have hnone := List.find?_eq_none.mp hfound _ hentry
    exact absurd (decide_eq_true hvariable) hnone
  | some found => exact ⟨found.2, rfl⟩

/-- The checks of an output are emitted, and stay within the counts. -/
theorem exists_outputValidation {operations : List Operation} {operation : Operation}
    (h : OperationValid operations operation) {entry : Output × Nat}
    (hentry : entry ∈ operation.outputs.zipIdx) :
    ∃ statements, outputValidation operation entry = some statements ∧
      ∀ statement ∈ statements, statement.WithinCounts operation := by
  obtain ⟨output, index⟩ := entry
  have hindex : index < operation.outputs.length := List.snd_lt_of_mem_zipIdx hentry
  have houtput : output ∈ operation.outputs :=
    List.mem_of_getElem? (List.mk_mem_zipIdx_iff_getElem?.mp hentry)
  have hreferences := h.references output houtput
  rw [outputValidation, Output.dtype]
  rw [Compiler.validateOutputReferences] at hreferences
  cases hknown : output.known with
  | none => exact ⟨[], by simp only [Option.map_none], fun statement hmem => by cases hmem⟩
  | some known =>
    rw [hknown] at hreferences
    obtain ⟨_, hdtype⟩ := Result.check_bind_ok_iff.mp hreferences
    simp only [Option.map_some]
    cases hexpression : known.dtype with
    | input input =>
      rw [hexpression, Compiler.validateDType, raiseIf_ok_iff, not_not] at hdtype
      refine ⟨[.refuseOutput index (.input input)], rfl, fun statement hmem => ?_⟩
      cases List.mem_singleton.mp hmem
      exact ⟨hindex, hdtype⟩
    | fixed value =>
      rw [hexpression, Compiler.validateDType, raiseIf_ok_iff, not_not] at hdtype
      obtain ⟨name, hname, heq⟩ := List.mem_map.mp hdtype
      have hsupported : Utf8.toString value.text ∈ SUPPORTED_DTYPES := by
        rw [← heq, Utf8.toString_ofString]
        exact hname
      refine ⟨[.refuseOutput index (.constant (Utf8.toString value.text))], ?_, ?_⟩
      · simp only [expectedOperand, if_pos hsupported]
        rfl
      · intro statement hmem
        cases List.mem_singleton.mp hmem
        exact hindex
    | «variable» name =>
      rw [hexpression, Compiler.validateDType, raiseIf_ok_iff, not_not] at hdtype
      obtain ⟨found, hfound⟩ := exists_variableInput h hdtype
      obtain ⟨tensor, htensor, _⟩ := variableInput_eq_some hfound
      refine ⟨[.refuseOutput index (.input found)], ?_, ?_⟩
      · simp only [expectedOperand, hfound]
        rfl
      · intro statement hmem
        cases List.mem_singleton.mp hmem
        exact ⟨hindex, inRange_natCast (List.getElem?_eq_some_iff.mp htensor).1⟩
    | promoteTensorScalar input scalar =>
      exact ⟨[], rfl, fun statement hmem => by cases hmem⟩

/-- The dtype of an input that has a variable, under a binding that permits it. -/
theorem getElem?_of_permits {operation : Operation} {binding : Identifier → String}
    {dtypes : List String}
    (hpermits : List.Forall₂ (Permits operation binding) operation.inputs dtypes)
    {index : Nat} {tensor : TensorParameter} (htensor : operation.inputs[index]? = some tensor)
    {name : Identifier} (hname : tensor.dtypeVariable = some name) :
    dtypes[index]? = some (binding name) := by
  obtain ⟨hindex, rfl⟩ := List.getElem?_eq_some_iff.mp htensor
  have hlength := hpermits.length_eq
  have hpermit := hpermits.get hindex (hlength ▸ hindex)
  rw [List.getElem?_eq_getElem (hlength ▸ hindex)]
  exact congrArg some (hpermit.eq_binding name hname).symm

/-- The item at a position. -/
theorem getItem_of_inRange {α : Type} {items : List α} {index : Int} {item : α}
    (hrange : InRange index items.length) (h : items[index.toNat]? = some item) :
    Invocation.getItem items index = .ok item := by
  have hnonneg : ¬ index < 0 := not_lt.mpr hrange.1
  have hlower : ¬ index < -items.length := by omega
  rw [Invocation.getItem, if_neg hnonneg, h]
  simp only [if_neg hlower]

/-- The dtype that the runtime plans for an output with a dtype variable. -/
theorem evaluateDtype_variable {operations : List Operation} {operation : Operation}
    (h : OperationValid operations operation) {binding : Identifier → String}
    {inputs : List ManagedTensor}
    (hpermits : List.Forall₂ (Permits operation binding) operation.inputs
      (inputs.map fun input => input.descriptor.dtype))
    (resultType : TensorDescriptor → Value → String) (scalars : List Value) {name : Identifier}
    (hname : name ∈ operation.dtypeVariables.map DTypeVariable.name) :
    evaluateDtype resultType (operationMetadata operation).toOperationMetadata inputs scalars
      (.dtypeVariable name.name) = .ok (binding name) := by
  obtain ⟨declared, hdeclared, rfl⟩ := List.mem_map.mp hname
  obtain ⟨tensor, htensor, hvariable⟩ := h.variables_used declared hdeclared
  have hinputs : (operationMetadata operation).tensorInputs =
      operation.inputs.map tensorMetadata := rfl
  have hcarries : (tensorMetadata tensor).dtypeVariable = some declared.name.name :=
    congrArg (Option.map Identifier.name) hvariable
  rw [evaluateDtype, hinputs]
  cases hfound : (operation.inputs.map tensorMetadata).findIdx? fun parameter =>
      parameter.dtypeVariable = some declared.name.name with
  | none =>
    have hnone := List.findIdx?_eq_none_iff.mp hfound _ (List.mem_map_of_mem htensor)
    rw [decide_eq_true hcarries] at hnone
    cases hnone
  | some index =>
    obtain ⟨hindex, hvariable', _⟩ := List.findIdx?_eq_some_iff_getElem.mp hfound
    rw [List.getElem_map, decide_eq_true_iff] at hvariable'
    rw [List.length_map] at hindex
    -- The input that the search finds carries the variable.
    have hfirst : operation.inputs[index].dtypeVariable = some declared.name := by
      obtain ⟨other, hother, heq⟩ := Option.map_eq_some_iff.mp hvariable'
      rw [hother, Compiler.Identifier.name_injective heq]
    have hdtype := getElem?_of_permits hpermits (List.getElem?_eq_getElem hindex) hfirst
    rw [List.getElem?_map] at hdtype
    obtain ⟨input, hinput, heq⟩ := Option.map_eq_some_iff.mp hdtype
    have hlt := (List.getElem?_eq_some_iff.mp hinput).1
    show (do return (← Invocation.getItem inputs index).descriptor.dtype) = _
    rw [getItem_of_inRange (inRange_natCast hlt) (by rw [Int.toNat_natCast]; exact hinput),
      Result.ok_bind, heq]
    rfl

/-- The dtype that the runtime plans for an output with the dtype of an input. -/
theorem evaluateDtype_input (operation : Operation) {inputs : List ManagedTensor}
    (resultType : TensorDescriptor → Value → String) (scalars : List Value) {index : Int}
    {dtype : String} (hrange : InRange index inputs.length)
    (hdtype : (inputs.map fun input => input.descriptor.dtype)[index.toNat]? = some dtype) :
    evaluateDtype resultType (operationMetadata operation).toOperationMetadata inputs scalars
      (.input index) = .ok dtype := by
  rw [List.getElem?_map] at hdtype
  obtain ⟨input, hinput, rfl⟩ := Option.map_eq_some_iff.mp hdtype
  rw [evaluateDtype, getItem_of_inRange hrange hinput, Result.ok_bind]
  rfl

/-- The dtype at a position. -/
theorem readDtype_inRange {dtypes : List String} {index : Int}
    (hrange : InRange index dtypes.length) {dtype : String} :
    readDtype dtypes index = .ok dtype ↔ dtypes[index.toNat]? = some dtype := by
  obtain ⟨n, rfl⟩ := Int.eq_ofNat_of_zero_le hrange.1
  exact readDtype_ok_iff

/-- The check of the dtype of an output. -/
theorem run_refuseOutput {invocation : NativeInvocation} {output : Nat} {expected : Operand}
    {dtype : String} (houtput : invocation.outputs[output]? = some dtype)
    (hexpected : expected.read invocation = .ok dtype) :
    (Statement.refuseOutput output expected).run invocation = .ok () := by
  rw [Statement.run, readDtype_ok_iff.mpr houtput, Result.ok_bind, hexpected, Result.ok_bind,
    raiseIf_ok_iff]
  exact not_not.mpr rfl

/-- The checks of outputs of the planned dtypes pass. -/
theorem run_outputValidation {operations : List Operation} {operation : Operation}
    (h : OperationValid operations operation) {invocation : NativeInvocation}
    {binding : Identifier → String}
    (hfits : List.Forall₂ (Fits operation binding) operation.inputs invocation.inputs)
    (hplanned : HasPlannedDtypes operation invocation.inputs invocation.outputs)
    {entry : Output × Nat} (hentry : entry ∈ operation.outputs.zipIdx) {statements : List Statement}
    (hstatements : outputValidation operation entry = some statements) :
    ∀ statement ∈ statements, statement.run invocation = .ok () := by
  obtain ⟨output, index⟩ := entry
  have houtput := List.mk_mem_zipIdx_iff_getElem?.mp hentry
  have hreferences := h.references output (List.mem_of_getElem? houtput)
  obtain ⟨resultType, inputs, scalars, hinputs, hplanned⟩ := hplanned
  have hplanned := hplanned index output houtput
  rw [← hinputs] at hfits
  have hlength : inputs.length = operation.inputs.length := by
    rw [hfits.length_eq, List.length_map]
  have hnative : invocation.inputs.length = operation.inputs.length := by
    rw [← hinputs, List.length_map, hlength]
  rw [outputValidation] at hstatements
  rw [Output.dtype] at hstatements hplanned
  rw [Compiler.validateOutputReferences] at hreferences
  cases hknown : output.known with
  | none =>
    rw [hknown] at hstatements
    cases hstatements
    intro statement hmem
    cases hmem
  | some known =>
    rw [hknown] at hstatements hreferences hplanned
    obtain ⟨_, hdtype⟩ := Result.check_bind_ok_iff.mp hreferences
    simp only [Option.map_some, Option.mem_some_iff, forall_eq'] at hstatements hplanned
    cases hexpression : known.dtype with
    | input input =>
      rw [hexpression, Compiler.validateDType, raiseIf_ok_iff, not_not] at hdtype
      rw [hexpression] at hstatements hplanned
      cases hstatements
      intro statement hmem
      cases List.mem_singleton.mp hmem
      obtain ⟨dtype, hread⟩ := readDtype_of_inRange invocation.inputs
        (hnative.symm ▸ hdtype)
      have hget := (readDtype_inRange (hnative.symm ▸ hdtype)).mp hread
      rw [← hinputs] at hget
      have heval := evaluateDtype_input operation resultType scalars
        (hlength.symm ▸ hdtype) hget
      exact run_refuseOutput (hplanned dtype heval) hread
    | fixed value =>
      rw [hexpression] at hstatements hplanned
      rw [expectedOperand] at hstatements
      split at hstatements
      · cases hstatements
        intro statement hmem
        cases List.mem_singleton.mp hmem
        exact run_refuseOutput (hplanned _ rfl) rfl
      · cases hstatements
    | «variable» name =>
      rw [hexpression, Compiler.validateDType, raiseIf_ok_iff, not_not] at hdtype
      rw [hexpression] at hstatements hplanned
      obtain ⟨found, hfound⟩ := exists_variableInput h hdtype
      obtain ⟨tensor, htensor, hvariable⟩ := variableInput_eq_some hfound
      rw [expectedOperand, hfound] at hstatements
      cases hstatements
      intro statement hmem
      cases List.mem_singleton.mp hmem
      have hpermits := hfits.imp fun _ _ hfit => hfit.permits
      have hget := getElem?_of_permits hpermits htensor hvariable
      rw [hinputs] at hget
      exact run_refuseOutput
        (hplanned _ (evaluateDtype_variable h hpermits resultType scalars hdtype))
        (readDtype_ok_iff.mpr hget)
    | promoteTensorScalar input scalar =>
      rw [hexpression] at hstatements
      cases hstatements
      intro statement hmem
      cases hmem

/-! ### The emitted case -/

/-- A loop of lookups that are all there. -/
theorem exists_mapM_some {α β : Type} {f : α → Option β} {items : List α}
    (h : ∀ item ∈ items, ∃ result, f item = some result) :
    ∃ results, items.mapM f = some results ∧
      ∀ result ∈ results, ∃ item ∈ items, f item = some result := by
  induction items with
  | nil => exact ⟨[], rfl, fun result hmem => by cases hmem⟩
  | cons item items ih =>
    rw [List.forall_mem_cons] at h
    obtain ⟨first, hfirst⟩ := h.1
    obtain ⟨rest, hrest, hitems⟩ := ih h.2
    refine ⟨first :: rest, ?_, ?_⟩
    · rw [List.mapM_cons, hfirst, hrest]
      rfl
    · rw [List.forall_mem_cons]
      refine ⟨⟨item, List.mem_cons_self, hfirst⟩, fun result hmem => ?_⟩
      obtain ⟨found, hfound, heq⟩ := hitems result hmem
      exact ⟨found, List.mem_cons_of_mem _ hfound, heq⟩

/-- The case of an accepted operation is emitted. -/
theorem exists_dispatchCase {operations : List Operation} {operation : Operation}
    (h : OperationValid operations operation) :
    ∃ (inputs : List Statement) (outputs : List (List Statement)),
      inputValidations operation operation.inputs.zipIdx [] = some inputs ∧
      (∀ statements ∈ outputs, ∃ entry ∈ operation.outputs.zipIdx,
        outputValidation operation entry = some statements) ∧
      dispatchCase operation = some ⟨operation.inputs.length, operation.outputs.length,
        operation.scalars.length, .refuseMissing :: (inputs ++
          (scalarValidations operation.scalars ++ outputs.flatten)), operationDtypes operation⟩ ∧
      ∀ statement ∈ inputs ++ (scalarValidations operation.scalars ++ outputs.flatten),
        statement.WithinCounts operation := by
  obtain ⟨inputs, hinputs, hinputsWithin⟩ := exists_inputValidations h operation.inputs 0 []
    (fun _ hmem => hmem) (by omega) (fun name index hindex => by cases hindex)
  obtain ⟨outputs, houtputs, hentries⟩ := exists_mapM_some fun entry hentry =>
    (exists_outputValidation h hentry).imp fun _ hstatements => hstatements.1
  refine ⟨inputs, outputs, hinputs, hentries, ?_, ?_⟩
  · rw [dispatchCase, cppDtypeValidations, hinputs, houtputs]
    rfl
  · rw [List.forall_mem_append, List.forall_mem_append]
    refine ⟨hinputsWithin, scalarValidations_withinCounts operation, ?_⟩
    intro statement hmem
    obtain ⟨statements, hstatements, hmem⟩ := List.mem_flatten.mp hmem
    obtain ⟨entry, hentry, hvalidation⟩ := hentries statements hstatements
    obtain ⟨found, hfound, hwithin⟩ := exists_outputValidation h hentry
    rw [hvalidation] at hfound
    cases hfound
    exact hwithin statement hmem

/-- The check that a promoted dtype exists. -/
theorem run_refuseMissing {operation : Operation} {tensors : List Tensor}
    {invocation : NativeInvocation} (hcall : IsCall operation tensors invocation) :
    Statement.refuseMissing.run invocation = .ok () := by
  rw [Statement.run, raiseIf_ok_iff, hcall.inputs_present, hcall.outputs_present,
    hcall.scalars_present]
  simp

/-- The validations of a call pass exactly when one binding fits its inputs. -/
theorem run_validations_iff {operations : List Operation} {operation : Operation}
    (h : OperationValid operations operation) {tensors : List Tensor}
    {invocation : NativeInvocation} (hcall : IsCall operation tensors invocation)
    {inputs : List Statement} {outputs : List (List Statement)}
    (hinputs : inputValidations operation operation.inputs.zipIdx [] = some inputs)
    (houtputs : ∀ statements ∈ outputs, ∃ entry ∈ operation.outputs.zipIdx,
      outputValidation operation entry = some statements) :
    forM (.refuseMissing :: (inputs ++ (scalarValidations operation.scalars ++ outputs.flatten)))
      (Statement.run invocation) = .ok () ↔ Accepts operation invocation.inputs := by
  have hlength : operation.inputs.length = invocation.inputs.length := by
    rw [hcall.inputs_eq, List.length_map, hcall.length_eq]
  have hsupported : ∀ dtype ∈ invocation.inputs, dtype ∈ SUPPORTED_DTYPES := by
    rw [hcall.inputs_eq, List.forall_mem_map]
    exact hcall.supported
  have hrun := run_inputValidations_iff h operation.inputs invocation.inputs 0 [] inputs
    (fun _ hmem => hmem) hlength hsupported (List.drop_zero)
    (fun name index hindex => by cases hindex) hinputs
  rw [Result.forM_ok_iff, List.forall_mem_cons, List.forall_mem_append, List.forall_mem_append,
    hrun]
  constructor
  · intro ⟨_, ⟨binding, _, hfits⟩, _⟩
    exact ⟨binding, hfits⟩
  · intro ⟨binding, hfits⟩
    refine ⟨run_refuseMissing hcall, ⟨binding, fun name index hindex => (by cases hindex), hfits⟩,
      run_scalarValidations hcall, ?_⟩
    intro statement hmem
    obtain ⟨statements, hstatements, hmem⟩ := List.mem_flatten.mp hmem
    obtain ⟨entry, hentry, hvalidation⟩ := houtputs statements hstatements
    exact run_outputValidation h hfits hcall.planned hentry hvalidation statement hmem

/-- A loop of checks that fails, fails in one of them. -/
theorem exists_of_forM_error {α ε : Type} {check : α → Except ε Unit} {items : List α} {error : ε}
    (h : forM items check = .error error) : ∃ item ∈ items, check item = .error error := by
  induction items with
  | nil => cases h
  | cons item items ih =>
    rw [List.forM_cons] at h
    cases hcheck : check item with
    | error found =>
      rw [hcheck] at h
      cases h
      exact ⟨item, List.mem_cons_self, hcheck⟩
    | ok u =>
      rw [hcheck] at h
      obtain ⟨found, hfound, heq⟩ := ih h
      exact ⟨found, List.mem_cons_of_mem _ hfound, heq⟩

/-- When an emitted case reaches the kernel. -/
theorem run_ok_iff (emitted : DispatchCase) {invocation : NativeInvocation} (dtype : String)
    (hinputs : invocation.inputs.length = emitted.inputCount)
    (houtputs : invocation.outputs.length = emitted.outputCount)
    (hscalars : invocation.scalars.length = emitted.scalarCount) :
    emitted.run invocation = .ok dtype ↔
      forM emitted.validations (Statement.run invocation) = .ok () ∧
        invocation.inputs[0]? = some dtype ∧ dtype ∈ emitted.dtypes := by
  have hcounts : ¬ (invocation.inputs.length ≠ emitted.inputCount ∨
      invocation.outputs.length ≠ emitted.outputCount ∨
      invocation.scalars.length ≠ emitted.scalarCount) := by
    rw [hinputs, houtputs, hscalars]
    simp
  rw [DispatchCase.run, Result.check_bind_ok_iff, raiseIf_ok_iff, Result.check_bind_ok_iff,
    Result.bind_ok_iff]
  have hread : ∀ found, readDtype invocation.inputs 0 = .ok found ↔
      invocation.inputs[0]? = some found :=
    fun found => show readDtype invocation.inputs (0 : Nat) = .ok found ↔ _ from readDtype_ok_iff
  simp only [hread, hcounts, not_false_eq_true, true_and]
  refine and_congr_right fun _ => ?_
  constructor
  · intro ⟨found, hfound, hmem⟩
    split at hmem
    · rename_i hlisted
      cases hmem
      exact ⟨hfound, hlisted⟩
    · cases hmem
  · intro ⟨hfound, hlisted⟩
    exact ⟨dtype, hfound, by rw [if_pos hlisted]; rfl⟩

/-! ### Calls with chosen dtypes -/

/-- A tensor of a dtype. -/
def tensorOf (dtype : String) : Tensor where
  dtype := dtype
  shape := []
  strides := []
  storageOffset := 0
  elementSize := 1
  cpu := true
  strided := true
  requiresGrad := false
  inference := false
  lease := none
  rank_eq := rfl
  shape_lt := fun _ h => by cases h

/-- A managed tensor of a dtype. -/
def managedOf (dtype : String) : ManagedTensor where
  descriptor := ⟨0, 0, 0, 0, 0, dtype, [], []⟩
  buffer :=
    { arena := false, region := 0, generation := 0, allocationId := 0, offset := 0, byteLength := 0
      region_lt := by decide
      generation_le := by decide
      allocationId_lt := by decide
      end_lt := by decide }

/-- The dtype that is planned for an output, when there is one. -/
def plannedDtype (operation : Operation) (dtypes : List String) (output : Output) : String :=
  match output.dtype.map fun expression =>
    evaluateDtype (fun _ _ => "float32") (operationMetadata operation).toOperationMetadata
      (dtypes.map managedOf) [] (dtypeMetadata expression) with
  | some (.ok dtype) => dtype
  | _ => "float32"

/-- The invocation with inputs of these dtypes. -/
def invocationOf (operation : Operation) (dtypes : List String) : NativeInvocation where
  inputs := dtypes
  outputs := operation.outputs.map (plannedDtype operation dtypes)
  scalars := operation.scalars.map fun _ => ⟨.int64, 0⟩
  inputsMissing := false
  outputsMissing := false
  scalarsMissing := false

/-- An enum has a member. -/
theorem enumValues_ne_nil {scalar : ScalarParameter} (h : scalar.enum.isSome) :
    0 < scalar.enumValues.length := by
  rw [ScalarParameter.enum, Option.isSome_map] at h
  obtain ⟨declaration, hdeclaration⟩ := Option.isSome_iff_exists.mp h
  rw [ScalarParameter.enumValues, hdeclaration]
  exact List.length_pos_iff.mpr declaration.values_ne_nil

/-- There is a call of an operation with any supported dtypes. -/
theorem isCall_invocationOf {operation : Operation} {dtypes : List String}
    (hlength : dtypes.length = operation.inputs.length)
    (hsupported : ∀ dtype ∈ dtypes, dtype ∈ SUPPORTED_DTYPES) :
    IsCall operation (dtypes.map tensorOf) (invocationOf operation dtypes) where
  length_eq := by rw [List.length_map, hlength]
  supported := by
    rw [List.forall_mem_map]
    exact hsupported
  inputs_eq := by
    rw [List.map_map]
    exact (List.map_id dtypes).symm
  outputs_length := List.length_map _
  scalars_length := List.length_map _
  inputs_present := rfl
  outputs_present := rfl
  scalars_present := rfl
  enums := by
    intro index scalar hscalar henum
    refine ⟨⟨.int64, 0⟩, ?_, rfl, enumValues_ne_nil henum⟩
    show (operation.scalars.map _)[index]? = _
    rw [List.getElem?_map, hscalar]
    rfl
  planned := by
    refine ⟨fun _ _ => "float32", dtypes.map managedOf, [], ?_, ?_⟩
    · rw [List.map_map]
      exact List.map_id dtypes
    · intro index output houtput expression hexpression dtype hdtype
      show (operation.outputs.map (plannedDtype operation dtypes))[index]? = _
      rw [List.getElem?_map, houtput, Option.map_some, plannedDtype, Option.mem_def.mp hexpression,
        Option.map_some, hdtype]

/-! ### The first input decides -/

/-- The allowed dtypes are distinct. -/
theorem allowed_nodup (operation : Operation) (tensor : TensorParameter) :
    (allowed operation tensor).Nodup := by
  unfold allowed
  split
  · decide
  · exact Compiler.DTypes.names_nodup _
  · split
    · exact Compiler.DTypes.names_nodup _
    · exact List.nodup_nil

/-- Two lists without repetitions have different items, or one and the same item each. -/
theorem exists_ne_or_eq_singleton {α : Type} {xs ys : List α} (hxs : xs ≠ []) (hys : ys ≠ [])
    (hxsNodup : xs.Nodup) (hysNodup : ys.Nodup) :
    (∃ x ∈ xs, ∃ y ∈ ys, x ≠ y) ∨ ∃ a, xs = [a] ∧ ys = [a] := by
  by_cases h : ∃ x ∈ xs, ∃ y ∈ ys, x ≠ y
  · exact .inl h
  · push Not at h
    obtain ⟨a, ha⟩ := List.exists_mem_of_ne_nil xs hxs
    obtain ⟨b, hb⟩ := List.exists_mem_of_ne_nil ys hys
    refine .inr ⟨a, ?_, ?_⟩
    · by_contra hne
      rcases (hxsNodup.ne_singleton_iff a).mp hne with hnil | ⟨c, hc, hca⟩
      · exact hxs hnil
      · exact hca ((h c hc b hb).trans (h a ha b hb).symm)
    · by_contra hne
      rcases (hysNodup.ne_singleton_iff a).mp hne with hnil | ⟨c, hc, hca⟩
      · exact hys hnil
      · exact hca (h a ha c hc).symm

/-- The dtypes of a call with `a` for input 0 and `b` for the first variable. -/
def pick (operation : Operation) (input : TensorParameter) (name : Identifier) (a b : String)
    (constraint : Compiler.Constraint) : String :=
  if constraint = input.constraint then a
  else if constraint = .variable name then b
  else (allowed operation { input with constraint }).headD ""

/-- Tensors with one constraint allow the same dtypes. -/
theorem allowed_congr {operation : Operation} {left right : TensorParameter}
    (h : left.constraint = right.constraint) : allowed operation left = allowed operation right := by
  unfold allowed
  rw [h]

/-- Input 0 and the first variable can have any two of their dtypes when they are not tied. -/
theorem fits_pick {operations : List Operation} {operation : Operation}
    (h : OperationValid operations operation) {input tensor : TensorParameter}
    {first : DTypeVariable} {a b : String} (hmem : tensor ∈ operation.inputs)
    (hfirst : first ∈ operation.dtypeVariables) (ha : a ∈ allowed operation input)
    (hb : b ∈ first.dtypes.names) :
    Fits operation (fun name => pick operation input first.name a b (.variable name)) tensor
      (pick operation input first.name a b tensor.constraint) := by
  constructor
  · unfold pick
    split
    · rename_i heq
      rw [allowed_congr heq]
      exact ha
    · split
      · rename_i heq
        have hname : tensor.dtypeVariable = some first.name := by
          rw [TensorParameter.dtypeVariable, heq]
        rw [allowed_of_declarationOf hname ((declarationOf_eq_some_iff h).mpr ⟨hfirst, rfl⟩)]
        exact hb
      · have hne := allowed_ne_nil h hmem
        have hsame : allowed operation { input with constraint := tensor.constraint } =
            allowed operation tensor := allowed_congr rfl
        obtain ⟨dtype, rest, hlist⟩ := List.exists_cons_of_ne_nil hne
        rw [hsame, hlist]
        exact List.mem_cons_self
  · intro name hname
    rw [constraint_eq_of_dtypeVariable hname]

/-- An operation accepts the dtypes that `pick` gives to its inputs. -/
theorem accepts_map_pick {operations : List Operation} {operation : Operation}
    (h : OperationValid operations operation) {input : TensorParameter} {first : DTypeVariable}
    {a b : String} (hfirst : first ∈ operation.dtypeVariables) (ha : a ∈ allowed operation input)
    (hb : b ∈ first.dtypes.names) :
    Accepts operation (operation.inputs.map fun tensor =>
      pick operation input first.name a b tensor.constraint) := by
  refine ⟨fun name => pick operation input first.name a b (.variable name), ?_⟩
  rw [List.forall₂_map_right_iff, List.forall₂_same]
  intro tensor hmem
  exact fits_pick h hmem hfirst ha hb

/-- The dtypes that are accepted are supported. -/
theorem supported_of_accepts {operation : Operation} {dtypes : List String}
    (h : Accepts operation dtypes) : ∀ dtype ∈ dtypes, dtype ∈ SUPPORTED_DTYPES := by
  obtain ⟨binding, hfits⟩ := h
  intro dtype hmem
  obtain ⟨index, hindex, rfl⟩ := List.getElem_of_mem hmem
  have hfit := hfits.get (hfits.length_eq.symm ▸ hindex) hindex
  exact mem_supported_of_mem_allowed hfit.mem_allowed

/-- A case that is correct reads an input that the first variable decides. -/
theorem firstInputDecides_of_dispatchCorrect {operations : List Operation} {operation : Operation}
    (h : OperationValid operations operation) (hcorrect : DispatchCorrect operation) :
    FirstInputDecides operation := by
  obtain ⟨emitted, hemitted, hrange, hcalls⟩ := hcorrect
  rw [FirstInputDecides]
  cases hinputs : operation.inputs with
  | nil =>
    -- The switch reads input 0 all the same.
    have hzero := hrange 0 (List.mem_append_right _ List.mem_cons_self)
    rw [hinputs] at hzero
    exact absurd hzero.2 (lt_irrefl _)
  | cons input inputs =>
    cases hvariables : operation.dtypeVariables with
    | nil => trivial
    | cons first declarations =>
      have hinput : input ∈ operation.inputs := hinputs ▸ List.mem_cons_self
      have hfirst : first ∈ operation.dtypeVariables := hvariables ▸ List.mem_cons_self
      by_contra hnot
      obtain ⟨hcarries, hsingle⟩ := not_or.mp hnot
      rcases exists_ne_or_eq_singleton (allowed_ne_nil h hinput) first.dtypes.names_ne_nil
        (allowed_nodup operation input) first.dtypes.names_nodup with hne | hsame
      · obtain ⟨a, ha, b, hb, hab⟩ := hne
        -- A call with `a` for input 0 and `b` for the first variable.
        have haccepts := accepts_map_pick h hfirst ha hb
        have hcall := isCall_invocationOf (List.length_map _) (supported_of_accepts haccepts)
        have hdispatches := hcalls _ _ hcall
        have hvalid := (validateTensorDtypes_ok_iff h hcall.supported).mpr
          (hcall.inputs_eq ▸ haccepts)
        obtain ⟨dtype, hrun⟩ := hdispatches.reaches_iff.mpr hvalid
        have htag := hdispatches.isTagDtype dtype hrun
        obtain ⟨inputChecks, outputs, _, _, hcase, _⟩ := exists_dispatchCase h
        rw [hemitted] at hcase
        cases hcase
        have hcount : (invocationOf operation (operation.inputs.map fun tensor =>
            pick operation input first.name a b tensor.constraint)).inputs.length =
            operation.inputs.length := List.length_map _
        have hzero := ((run_ok_iff _ _ hcount hcall.outputs_length hcall.scalars_length).mp hrun).2.1
        have hdtype : dtype = a := by
          rw [invocationOf, hinputs] at hzero
          have hpick : pick operation input first.name a b input.constraint = dtype :=
            Option.some.inj hzero
          rw [pick, if_pos rfl] at hpick
          exact hpick.symm
        -- The tag should be the dtype of an input that carries the variable.
        obtain ⟨carrier, hcarrier, hname⟩ := h.variables_used first hfirst
        have hentry : (carrier, pick operation input first.name a b carrier.constraint) ∈
            operation.inputs.zip (operation.inputs.map fun tensor =>
              pick operation input first.name a b tensor.constraint) := by
          obtain ⟨index, hindex, rfl⟩ := List.getElem_of_mem hcarrier
          apply List.mem_iff_getElem.mpr
          exact ⟨index, by simpa using hindex, by simp⟩
        rw [IsTagDtype, hvariables] at htag
        have hpick := htag _ hentry hname
        have hother : Compiler.Constraint.variable first.name ≠ input.constraint := by
          intro heq
          apply hcarries
          rw [TensorParameter.dtypeVariable, ← heq]
        rw [constraint_eq_of_dtypeVariable hname, pick, if_neg hother, if_pos rfl] at hpick
        exact hab (hdtype.symm.trans hpick.symm)
      · exact hsingle hsame

/-- The dtype of input 0 is a label of the switch, and is the right tag. -/
theorem tag_of_firstInputDecides {operations : List Operation} {operation : Operation}
    (h : OperationValid operations operation) (hdecides : FirstInputDecides operation)
    {dtypes : List String} (haccepts : Accepts operation dtypes) :
    ∃ dtype, dtypes[0]? = some dtype ∧ dtype ∈ operationDtypes operation ∧
      IsTagDtype operation dtypes dtype := by
  obtain ⟨binding, hfits⟩ := haccepts
  rw [FirstInputDecides] at hdecides
  cases hinputs : operation.inputs with
  | nil =>
    rw [hinputs] at hdecides
    exact hdecides.elim
  | cons input inputs =>
    have hinput : input ∈ operation.inputs := hinputs ▸ List.mem_cons_self
    rw [hinputs] at hfits
    obtain ⟨dtype, rest, hfit, hrest, rfl⟩ := List.forall₂_cons_left_iff.mp hfits
    refine ⟨dtype, rfl, ?_, ?_⟩
    · rw [operationDtypes, hinputs]
      cases hvariables : operation.dtypeVariables with
      | nil =>
        have hname : input.dtypeVariable = none := by
          cases hname : input.dtypeVariable with
          | none => rfl
          | some name =>
            have hknown := h.variables_known input hinput name hname
            rw [hvariables] at hknown
            cases hknown
        have hsupported := mem_supported_of_mem_allowed hfit.mem_allowed
        have hlisted := (permits_plain_iff hname).mp ((fits_iff_permits hsupported).mp hfit)
        show dtype ∈ if input.dtypes ≠ [] then input.dtypes else SUPPORTED_DTYPES
        split
        · rename_i hne
          exact by_contra fun hmem => hlisted ⟨hne, hmem⟩
        · exact hsupported
      | cons first declarations =>
        have hfirst : first ∈ operation.dtypeVariables := hvariables ▸ List.mem_cons_self
        have hdeclared := (declarationOf_eq_some_iff h).mpr ⟨hfirst, rfl⟩
        rw [hinputs, hvariables] at hdecides
        show dtype ∈ first.dtypes.names
        rcases hdecides with hname | ⟨only, hallowed, hnames⟩
        · rw [← allowed_of_declarationOf hname hdeclared]
          exact hfit.mem_allowed
        · rw [hnames, ← hallowed]
          exact hfit.mem_allowed
    · rw [IsTagDtype]
      cases hvariables : operation.dtypeVariables with
      | nil => rfl
      | cons first declarations =>
        have hfirst : first ∈ operation.dtypeVariables := hvariables ▸ List.mem_cons_self
        have hdeclared := (declarationOf_eq_some_iff h).mpr ⟨hfirst, rfl⟩
        rw [hinputs, hvariables] at hdecides
        intro entry hentry hname
        rw [hinputs] at hentry
        have hentryFits := (List.forall₂_iff_zip.mp (List.Forall₂.cons hfit hrest)).2 hentry
        rcases hdecides with hcarries | ⟨only, hallowed, hnames⟩
        · rw [← hentryFits.eq_binding _ hname, hfit.eq_binding _ hcarries]
        · have hdtype := hfit.mem_allowed
          have hother := hentryFits.mem_allowed
          rw [hallowed] at hdtype
          rw [allowed_of_declarationOf hname hdeclared, hnames] at hother
          rw [List.mem_singleton.mp hdtype, List.mem_singleton.mp hother]

/-- An emitted case reads nothing out of bounds when its checks and the switch do not. -/
theorem run_ne_outOfBounds {emitted : DispatchCase} {invocation : NativeInvocation}
    (hchecks : ∀ statement ∈ emitted.validations,
      statement.run invocation ≠ .error .outOfBounds)
    (hzero : ∃ dtype, readDtype invocation.inputs 0 = .ok dtype) :
    emitted.run invocation ≠ .error .outOfBounds := by
  obtain ⟨dtype, hdtype⟩ := hzero
  intro hbad
  rw [DispatchCase.run, hdtype] at hbad
  unfold raiseIf at hbad
  split at hbad
  · cases hbad
  · cases hforM : forM emitted.validations (Statement.run invocation) with
    | error stop =>
      rw [hforM] at hbad
      cases hbad
      obtain ⟨statement, hmem, hrun⟩ := exists_of_forM_error hforM
      exact hchecks statement hmem hrun
    | ok u =>
      rw [hforM, Result.ok_bind, Result.ok_bind, Result.ok_bind] at hbad
      split at hbad
      · cases hbad
      · cases hbad

/-- An emitted case is correct when input 0 decides the first variable. -/
theorem dispatchCorrect_of_firstInputDecides {operations : List Operation} {operation : Operation}
    (h : OperationValid operations operation) (hdecides : FirstInputDecides operation) :
    DispatchCorrect operation := by
  obtain ⟨inputs, outputs, hinputs, houtputs, hcase, hwithin⟩ := exists_dispatchCase h
  have hne : operation.inputs ≠ [] := by
    intro hnil
    rw [FirstInputDecides, hnil] at hdecides
    exact hdecides
  refine ⟨_, hcase, ?_, ?_⟩
  · intro index hindex
    rcases List.mem_append.mp hindex with hstatement | hzero
    · obtain ⟨statement, hmem, hread⟩ := List.mem_flatMap.mp hstatement
      rcases List.mem_cons.mp hmem with rfl | hmem
      · cases hread
      · exact (hwithin statement hmem).inRange index hread
    · cases List.mem_singleton.mp hzero
      exact inRange_natCast (List.length_pos_iff.mpr hne)
  · intro tensors invocation hcall
    have hlength : invocation.inputs.length = operation.inputs.length := by
      rw [hcall.inputs_eq, List.length_map, hcall.length_eq]
    have hpasses := run_validations_iff h hcall hinputs houtputs
    have hrun := fun dtype => run_ok_iff ⟨operation.inputs.length,
      operation.outputs.length, operation.scalars.length, .refuseMissing :: (inputs ++
        (scalarValidations operation.scalars ++ outputs.flatten)), operationDtypes operation⟩ dtype
      hlength hcall.outputs_length hcall.scalars_length
    have hvalid := validateTensorDtypes_ok_iff h hcall.supported
    rw [← hcall.inputs_eq] at hvalid
    constructor
    · rw [hvalid]
      constructor
      · intro ⟨dtype, hreached⟩
        exact hpasses.mp ((hrun dtype).mp hreached).1
      · intro haccepts
        obtain ⟨dtype, hzero, hlabel, _⟩ := tag_of_firstInputDecides h hdecides haccepts
        exact ⟨dtype, (hrun dtype).mpr ⟨hpasses.mpr haccepts, hzero, hlabel⟩⟩
    · intro dtype hreached
      obtain ⟨hchecks, hzero, _⟩ := (hrun dtype).mp hreached
      obtain ⟨found, hfound, _, htag⟩ :=
        tag_of_firstInputDecides h hdecides (hpasses.mp hchecks)
      rw [hzero] at hfound
      cases hfound
      exact htag
    · refine run_ne_outOfBounds ?_ (readDtype_of_inRange _ (inRange_natCast (n := 0) ?_))
      · intro statement hmem
        rcases List.mem_cons.mp hmem with rfl | hmem
        · exact raiseIf_ne Stop.noConfusion
        · exact (hwithin statement hmem).run_ne hlength hcall.outputs_length hcall.scalars_length
      · rw [hlength]
        exact List.length_pos_iff.mpr hne

/-- The emitted case of an accepted operation implements its dtype rules exactly when input 0
decides the dtype of the first variable. -/
theorem dispatchCorrect_iff (floats : Json.FloatText) {data : Document.Members}
    {plugin : Compiler.Plugin} (h : Compiler.loadInterface floats data = .ok plugin)
    {operation : Operation} (hmem : operation ∈ plugin.operations) :
    DispatchCorrect operation ↔ FirstInputDecides operation := by
  have hvalid := (Compiler.pluginValid_of_loadInterface h).operations_valid operation hmem
  constructor
  · exact firstInputDecides_of_dispatchCorrect hvalid
  · exact dispatchCorrect_of_firstInputDecides hvalid

/-- The emitted case of `scaleOperation` is correct. -/
theorem dispatchCorrect_scale : DispatchCorrect Manifest.scaleOperation := by
  have haccepted : Compiler.loadInterface .ofBits
      (Compiler.smallInterface [Manifest.scaleSource]) =
      .ok (Compiler.smallPlugin [Manifest.scaleOperation]) := rfl
  exact (dispatchCorrect_iff .ofBits haccepted List.mem_cons_self).mpr trivial

/-- The source of an operation whose dtype variable is not on input 0. -/
def gatherSource : Document :=
  .object [("id", .int 1), ("name", .string "gather"),
    ("dtype_variables", .arr [.object [("name", .string "T"),
      ("dtypes", .strings ["float32", "float64"])]]),
    ("inputs", .arr [
      .object [("name", .string "index"), ("dtype", .object [("fixed", .string "int64")])],
      .object [("name", .string "x"), ("dtype", .object [("variable", .string "T")])]]),
    ("outputs", .arr [.object [("name", .string "y"), ("same_shape_as_input", .int 0),
      ("dtype", .object [("variable", .string "T")])]])]

/-- The operation of `gatherSource`. -/
def gatherOperation : Operation where
  operationId := 1
  name := ⟨"gather", by decide⟩
  internal := false
  inputs := [
    ⟨⟨"index", by decide⟩, .readOnly,
      .oneOf ⟨["int64"], by decide, by decide, by decide⟩⟩,
    ⟨⟨"x", Compiler.isIdentifier_x⟩, .readOnly, .variable ⟨"T", by decide⟩⟩]
  outputs := [⟨⟨"y", Compiler.isIdentifier_y⟩, some ⟨.sameShapeAsInput 0, .variable ⟨"T", by decide⟩⟩⟩]
  scalars := []
  vjp := none
  dtypeVariables := [⟨⟨"T", by decide⟩, ["float32", "float64"], by decide, by decide, by decide⟩]

/-- The compiler accepts `gatherSource`, and the emitted case reaches the kernel on no accepted
call: the switch compares input 0 with the dtypes of the variable of input 1. -/
theorem gather_not_dispatchCorrect :
    Compiler.loadInterface .ofBits (Compiler.smallInterface [gatherSource]) =
      .ok (Compiler.smallPlugin [gatherOperation]) ∧
    (∃ emitted, dispatchCase gatherOperation = some emitted ∧
      emitted.run (invocationOf gatherOperation ["int64", "float32"]) =
        .error (.status .unsupported)) ∧
    validateTensorDtypes (operationMetadata gatherOperation).toOperationMetadata
      (["int64", "float32"].map tensorOf) = .ok () ∧
    ¬ DispatchCorrect gatherOperation := by
  have haccepted : Compiler.loadInterface .ofBits (Compiler.smallInterface [gatherSource]) =
      .ok (Compiler.smallPlugin [gatherOperation]) := rfl
  refine ⟨haccepted, ⟨_, rfl, rfl⟩, rfl, ?_⟩
  intro hcorrect
  have hvalid := (Compiler.pluginValid_of_loadInterface haccepted).operations_valid
    gatherOperation List.mem_cons_self
  have hdecides := firstInputDecides_of_dispatchCorrect hvalid hcorrect
  rcases hdecides with hname | ⟨dtype, hallowed, hnames⟩
  · cases hname
  · cases hnames

end Wmfs.Dtypes
