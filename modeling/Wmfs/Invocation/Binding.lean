import Mathlib.Data.List.AList
import Wmfs.Invocation.Metadata

/-!
# `Wmfs.Invocation.Binding`: binding the arguments of a call

`bind_invocation` of `wmfs/invocation.py`. The positional arguments are tensors and other
objects, in any order. The tensors are the inputs, and the other objects are the first scalars;
the rest of the scalars comes from keywords and defaults. Every scalar is coerced to the kind
of its parameter.

A `Tensor` is what the code reads of a `torch.Tensor`. The clocks that a profiled call reads
are left out.
-/

set_option autoImplicit false

namespace Wmfs.Invocation

open Wmfs.Lib
open Wmfs.Lib.Utf8 (Text)
open Wmfs.Ring.Codec (Value)

/-! ### Arguments -/

/-- A `torch.Tensor`. Its sizes are `int64_t`.

* `dtype`: `str(tensor.dtype).removeprefix("torch.")`.
* `lease`: the allocation that its storage belongs to, when the `_wmfs_allocation` of the
  storage is a lease of the manager of this runtime. -/
structure Tensor where
  dtype : String
  shape : List Nat
  strides : List Int
  storageOffset : Nat
  elementSize : Nat
  cpu : Bool
  strided : Bool
  requiresGrad : Bool
  inference : Bool
  lease : Option Nat
  rank_eq : strides.length = shape.length
  shape_lt : ∀ dimension ∈ shape, dimension < 2 ^ 63
  deriving DecidableEq

/-- A vector has one stride. -/
theorem vector_rank_eq : ([1] : List Int).length = ([2] : List Nat).length := rfl

/-- Its dimension is in range. -/
theorem two_lt_dimensions : ∀ dimension ∈ [2], dimension < 2 ^ 63 := by decide

/-- An argument of a call: a tensor, an object of one of the four scalar types, or another
one. -/
inductive Object where
  | tensor (t : Tensor)
  | value (v : Value)
  | other
  deriving DecidableEq

/-- The argument `out`, when it is not `None`. -/
inductive Out where
  | single (item : Object)
  | tuple (items : List Object)
  deriving DecidableEq

/-- The objects that `out` holds. -/
def Out.objects : Out → List Object
  | .single item => [item]
  | .tuple items => items

/-- `kwargs`. -/
abbrev Keywords : Type := AList fun _ : String => Object

/-- `torch.is_grad_enabled()` and `torch.is_inference_mode_enabled()`. -/
structure Mode where
  gradEnabled : Bool
  inferenceMode : Bool
  deriving DecidableEq, Repr

/-- `str.isupper` and `str.lower` on one character. -/
structure CaseTable where
  isUpper : Char → Bool
  lower : Char → List Char

/-- The table, as far as ASCII goes. -/
def CaseTable.ascii : CaseTable := ⟨Char.isUpper, fun c => [c.toLower]⟩

/-- `_python_parameter_name`. -/
def pythonParameterName (table : CaseTable) (name : String) : String :=
  String.ofList (name.toList.flatMap fun character =>
    if table.isUpper character then ['_'] ++ table.lower character else [character])

/-! ### Scalars -/

/-- `float(n)` as its 64-bit pattern: the nearest number of 53 bits, ties to even. -/
def floatOfInt (n : Int) : Except Exn UInt64 :=
  let magnitude := n.natAbs
  let sign := if n < 0 then 2 ^ 63 else 0
  if magnitude = 0 then .ok 0
  else
    let exponent := magnitude.log2
    let mantissa :=
      if exponent ≤ 52 then magnitude * 2 ^ (52 - exponent)
      else
        let unit := 2 ^ (exponent - 52)
        let quotient := magnitude / unit
        if 2 * (magnitude % unit) > unit ∨ (2 * (magnitude % unit) = unit ∧ quotient % 2 = 1) then
          quotient + 1
        else quotient
    -- The leading bit of the mantissa, and the carry of the rounding, go into the exponent.
    let bits := (exponent + 1022) * 2 ^ 52 + mantissa
    if bits ≥ 2047 * 2 ^ 52 then .error .overflowError
    else .ok (UInt64.ofNat (sign + bits))

example : floatOfInt 3 = .ok 0x4008000000000000 := by decide

/-- `_coerce_scalar`. A `bool` is an `int` of Python, and no scalar but a Boolean one takes it. -/
def coerceScalar (parameter : ScalarParameter) (value : Object) : Except Exn Value :=
  match parameter.enumName with
  | some enumName =>
    let error : Exn := .valueError [.text "Scalar ", .repr parameter.name,
      .text " must be a member of enum ", .repr enumName]
    match value with
    | .value (.str text) =>
      match parameter.enumValues.idxOf? text with
      | some index => .ok (.int index)
      | none => .error error
    | .value (.int integer) =>
      if 0 ≤ integer ∧ integer < parameter.enumValues.length then .ok (.int integer)
      else .error error
    | _ => .error error
  | none =>
    if parameter.kind = "boolean" then
      match value with
      | .value (.bool b) => .ok (.bool b)
      | _ => .error (namedTypeError "Scalar " parameter.name " must be Boolean")
    else if parameter.kind = "float64" then
      match value with
      | .value (.float bits) => .ok (.float bits)
      | .value (.int n) => (floatOfInt n).map .float
      | _ => .error (namedTypeError "Scalar " parameter.name " must be numeric")
    else if parameter.kind = "int64" then
      match value with
      | .value (.int n) => .ok (.int n)
      | _ => .error (namedTypeError "Scalar " parameter.name " must be an integer")
    else if parameter.kind = "text" then
      match value with
      | .value (.str text) => .ok (.str text)
      | _ => .error (namedTypeError "Scalar " parameter.name " must be text")
    else .error (namedTypeError "Scalar " parameter.name " has an unknown kind")

/-- The argument for a parameter, and the keywords that remain. `positional` is the positional
argument at its index. -/
def chooseScalar (table : CaseTable) (parameter : ScalarParameter) (positional : Option Object)
    (remaining : Keywords) : Except Exn (Object × Keywords) :=
  let pythonName := pythonParameterName table parameter.name
  match positional with
  | some value => do
    raiseIf ((remaining.lookup parameter.name).isSome ∨ (remaining.lookup pythonName).isSome)
      (namedTypeError "Scalar " pythonName " was supplied more than once")
    return (value, remaining)
  | none =>
    match remaining.lookup pythonName, remaining.lookup parameter.name, parameter.default with
    | some value, _, _ => .ok (value, remaining.erase pythonName)
    | none, some value, _ => .ok (value, remaining.erase parameter.name)
    | none, none, some value => .ok (.value value, remaining)
    | none, none, none =>
      if parameter.required then
        .error (namedTypeError "Missing required scalar " pythonName "")
      else
        .error (namedValueError "Optional scalar " pythonName " needs a default for preallocation")

/-- The loop of `bind_scalars`. -/
def bindScalarsLoop (table : CaseTable) :
    List ScalarParameter → List Object → Keywords → Except Exn (List Value × Keywords)
  | [], _, remaining => .ok ([], remaining)
  | parameter :: parameters, positional, remaining => do
    let (value, remaining) ← chooseScalar table parameter positional.head? remaining
    let value ← coerceScalar parameter value
    let (values, remaining) ← bindScalarsLoop table parameters positional.tail remaining
    return (value :: values, remaining)

/-- The arguments that are tensors. -/
def tensorsOf (args : List Object) : List Tensor :=
  args.filterMap fun item => match item with | .tensor t => some t | _ => none

/-- The arguments that are not tensors. -/
def othersOf (args : List Object) : List Object :=
  args.filter fun item => match item with | .tensor _ => false | _ => true

/-- The tensors among the arguments. -/
theorem tensorsOf_arguments (tensors : List Tensor) (scalars : List Value) :
    tensorsOf (tensors.map .tensor ++ scalars.map .value) = tensors := by
  rw [tensorsOf, List.filterMap_append, List.filterMap_map, List.filterMap_map]
  show tensors.filterMap some ++ scalars.filterMap (fun _ => none) = tensors
  rw [List.filterMap_some, List.filterMap_none, List.append_nil]

/-- The other arguments. -/
theorem othersOf_arguments (tensors : List Tensor) (scalars : List Value) :
    othersOf (tensors.map .tensor ++ scalars.map .value) = scalars.map .value := by
  rw [othersOf, List.filter_append, List.filter_map, List.filter_map]
  show (tensors.filter fun _ => false).map _ ++ (scalars.filter fun _ => true).map _ = _
  rw [List.filter_false, List.filter_true, List.map_nil, List.nil_append]

/-- `bind_scalars`. -/
def bindScalars (table : CaseTable) (operation : OperationMetadata) (args : List Object)
    (kwargs : Keywords) : Except Exn (List Value) := do
  let positional := othersOf args
  raiseIf (positional.length > operation.scalarParameters.length)
    (namedTypeError "Operation " operation.name " received too many arguments")
  let (values, remaining) ← bindScalarsLoop table operation.scalarParameters positional kwargs
  match remaining.keys with
  | [] => return values
  | unexpected :: _ => throw (namedTypeError "Unexpected scalar argument " unexpected "")

/-! ### Tensors -/

/-- The loop of `_validate_tensor_dtypes`. `bindings` has the dtypes of the variables so far. -/
def validateTensorDtypesLoop (operation : OperationMetadata) :
    List (TensorParameter × Tensor) → List (String × String) → Except Exn Unit
  | [], _ => .ok ()
  | (parameter, tensor) :: rest, bindings =>
    match parameter.dtypeVariable with
    | some name =>
      -- The dictionary of the variables holds the last one of a name.
      match operation.dtypeVariables.reverse.find? fun item => item.name = name with
      | none => .error (.keyError name)
      | some item => do
        raiseIf (tensor.dtype ∉ item.dtypes)
          (.typeError [.text "Tensor ", .repr parameter.name, .text " has unsupported dtype ",
            .repr tensor.dtype, .text "; expected one of ", .reprs item.dtypes])
        match bindings.lookup item.name with
        | none => validateTensorDtypesLoop operation rest ((item.name, tensor.dtype) :: bindings)
        | some previous =>
          raiseIf (previous ≠ tensor.dtype)
            (.typeError [.text "Tensor ", .repr parameter.name, .text " must use dtype variable ",
              .repr item.name, .text (" bound to " ++ previous)])
          validateTensorDtypesLoop operation rest bindings
    | none => do
      raiseIf (parameter.dtypes ≠ [] ∧ tensor.dtype ∉ parameter.dtypes)
        (.typeError [.text "Tensor ", .repr parameter.name, .text " has unsupported dtype ",
          .repr tensor.dtype, .text "; expected one of ", .reprs parameter.dtypes])
      validateTensorDtypesLoop operation rest bindings

/-- `_validate_tensor_dtypes`. -/
def validateTensorDtypes (operation : OperationMetadata) (tensors : List Tensor) :
    Except Exn Unit := do
  let pairs ← zipStrict (valueError "zip() argument 2 is shorter than argument 1")
    operation.tensorInputs tensors
  validateTensorDtypesLoop operation pairs []

/-- `BoundTensorInput`. -/
structure BoundTensorInput where
  tensor : Tensor
  writable : Bool
  deriving DecidableEq

/-- `BoundInvocation`. -/
structure BoundInvocation where
  operation : OperationMetadata
  tensorInputs : List BoundTensorInput
  scalars : List Value
  out : Option Out

/-- `bind_invocation`. -/
def bindInvocation (table : CaseTable) (mode : Mode) (operation : OperationMetadata)
    (args : List Object) (kwargs : Keywords) (out : Option Out) :
    Except Exn BoundInvocation := do
  let tensors := tensorsOf args
  raiseIf (tensors.length ≠ operation.tensorInputs.length)
    (.typeError [.text "Operation ", .repr operation.name, .text (" expected " ++
      toString operation.tensorInputs.length ++ " tensor inputs")])
  raiseIf (out.isSome ∧ mode.gradEnabled ∧ tensors.any Tensor.requiresGrad)
    (.runtimeError [.text "Isolated out does not support autograd inputs"])
  let scalars ← bindScalars table operation args kwargs
  validateTensorDtypes operation tensors
  let pairs ← zipStrict (valueError "zip() argument 2 is shorter than argument 1")
    tensors operation.tensorInputs
  return {
    operation := operation
    tensorInputs := pairs.map fun pair => ⟨pair.1, pair.2.access = "readWrite"⟩
    scalars := scalars
    out := out }

/-! ### What a bound call satisfies -/

/-- The values of the scalars, each of the kind of its parameter. -/
def HasKind (parameter : ScalarParameter) : Value → Prop
  | .bool _ => parameter.kind = "boolean"
  | .float _ => parameter.kind = "float64"
  | .int _ => parameter.kind = "int64"
  | .str _ => parameter.kind = "text"

/-- An enumeration is of kind `int64`, in metadata that has passed the validation. -/
theorem kind_of_validateScalar {scalar : ScalarParameter} (h : validateScalar scalar = .ok ())
    (henum : scalar.enumName ≠ none) : scalar.kind = "int64" := by
  simp only [validateScalar, Result.bind_ok_iff, raiseIf_ok_iff, exists_const] at h
  obtain ⟨-, -, -, -, -, h⟩ := h
  rw [if_pos henum] at h
  simp only [Result.bind_ok_iff, raiseIf_ok_iff, exists_const, not_or, not_not] at h
  exact h.1.1

/-- A coerced scalar has the kind of its parameter. -/
theorem hasKind_of_coerceScalar {parameter : ScalarParameter} {object : Object} {value : Value}
    (hvalid : validateScalar parameter = .ok ())
    (h : coerceScalar parameter object = .ok value) : HasKind parameter value := by
  unfold coerceScalar at h
  cases henum : parameter.enumName with
  | some enumName =>
    have hkind := kind_of_validateScalar hvalid (by simp [henum])
    simp only [henum] at h
    -- Both ways to name a member return its index.
    split at h
    · split at h <;> cases h
      exact hkind
    · split at h <;> cases h
      exact hkind
    · cases h
  | none =>
    simp only [henum] at h
    split at h
    · rename_i hkind
      split at h <;> cases h
      exact hkind
    · split at h
      · rename_i hkind
        split at h
        · cases h
          exact hkind
        · cases hfloat : floatOfInt _ with
          | error e => rw [hfloat] at h; cases h
          | ok bits =>
            rw [hfloat] at h
            cases h
            exact hkind
        · cases h
      · split at h
        · rename_i hkind
          split at h <;> cases h
          exact hkind
        · split at h
          · rename_i hkind
            split at h <;> cases h
            exact hkind
          · cases h

/-- The bound scalars are one for each parameter, and of its kind. -/
theorem forall₂_hasKind_of_bindScalarsLoop (table : CaseTable) :
    ∀ {parameters : List ScalarParameter} {positional : List Object} {kwargs : Keywords}
      {values : List Value} {remaining : Keywords},
      (∀ parameter ∈ parameters, validateScalar parameter = .ok ()) →
      bindScalarsLoop table parameters positional kwargs = .ok (values, remaining) →
      List.Forall₂ HasKind parameters values := by
  intro parameters
  induction parameters with
  | nil =>
    intro positional kwargs values remaining _ h
    cases h
    exact .nil
  | cons parameter parameters ih =>
    intro positional kwargs values remaining hvalid h
    rw [List.forall_mem_cons] at hvalid
    obtain ⟨⟨object, kwargs'⟩, -, h⟩ := Result.bind_ok_iff.mp h
    obtain ⟨value, hvalue, h⟩ := Result.bind_ok_iff.mp h
    obtain ⟨⟨rest, remaining'⟩, hrest, h⟩ := Result.bind_ok_iff.mp h
    cases h
    exact .cons (hasKind_of_coerceScalar hvalid.1 hvalue) (ih hvalid.2 hrest)

/-- What `bind_scalars` returns is one value for each parameter, and of its kind. -/
theorem forall₂_hasKind_of_bindScalars {table : CaseTable} {operation : OperationMetadata}
    {args : List Object} {kwargs : Keywords} {scalars : List Value}
    (hvalid : ∀ parameter ∈ operation.scalarParameters, validateScalar parameter = .ok ())
    (h : bindScalars table operation args kwargs = .ok scalars) :
    List.Forall₂ HasKind operation.scalarParameters scalars := by
  simp only [bindScalars, Result.bind_ok_iff, raiseIf_ok_iff, exists_const] at h
  obtain ⟨-, ⟨values, remaining⟩, hloop, hvalues⟩ := h
  have hkinds := forall₂_hasKind_of_bindScalarsLoop table hvalid hloop
  split at hvalues
  · cases hvalues
    exact hkinds
  · cases hvalues

/-- What `bind_invocation` guarantees: the operation and `out` are those of the call, the
inputs are as many as the operation declares, and the scalars fit their parameters. -/
structure BindsCall (operation : OperationMetadata) (args : List Object) (out : Option Out)
    (invocation : BoundInvocation) : Prop where
  operation_eq : invocation.operation = operation
  out_eq : invocation.out = out
  tensors : invocation.tensorInputs.map BoundTensorInput.tensor = tensorsOf args
  inputs : invocation.tensorInputs.length = operation.tensorInputs.length
  scalars : List.Forall₂ HasKind operation.scalarParameters invocation.scalars

/-- The scalar parameters of metadata that has passed the validation have passed theirs. -/
theorem validateScalar_of_valid {operation : OperationMetadata}
    (h : validateOperationMetadata operation = .ok ()) :
    ∀ parameter ∈ operation.scalarParameters, validateScalar parameter = .ok () := by
  simp only [validateOperationMetadata, Result.bind_ok_iff, raiseIf_ok_iff, exists_const] at h
  obtain ⟨-, -, -, -, _, h, -⟩ := h
  exact Result.forM_ok_iff.mp h

/-- The operation ID of metadata that has passed the validation. -/
theorem operationId_pos_of_valid {operation : OperationMetadata}
    (h : validateOperationMetadata operation = .ok ()) : 0 < operation.operationId := by
  simp only [validateOperationMetadata, Result.bind_ok_iff, raiseIf_ok_iff, exists_const] at h
  exact not_le.mp h.1

/-- Metadata that has passed the validation has one plan for each output. -/
theorem length_outputPlans_of_valid {operation : OperationMetadata}
    (h : validateOperationMetadata operation = .ok ()) :
    operation.outputPlans.length = operation.tensorOutputs.length := by
  simp only [validateOperationMetadata, Result.bind_ok_iff, raiseIf_ok_iff, exists_const,
    not_not] at h
  exact h.2.1

/-- What a call that is bound has. -/
theorem bindsCall_of_bindInvocation {table : CaseTable} {mode : Mode}
    {operation : OperationMetadata} {args : List Object} {kwargs : Keywords} {out : Option Out}
    {invocation : BoundInvocation} (hvalid : validateOperationMetadata operation = .ok ())
    (h : bindInvocation table mode operation args kwargs out = .ok invocation) :
    BindsCall operation args out invocation := by
  simp only [bindInvocation, Result.bind_ok_iff, raiseIf_ok_iff, exists_const, not_not,
    zipStrict_ok_iff] at h
  obtain ⟨hcount, -, scalars, hscalars, _, -, pairs, ⟨-, rfl⟩, h⟩ := h
  cases h
  refine ⟨rfl, rfl, ?_, ?_, ?_⟩
  · rw [List.map_map]
    exact List.map_fst_zip (by omega)
  · simp [hcount]
  · exact forall₂_hasKind_of_bindScalars (validateScalar_of_valid hvalid) hscalars

end Wmfs.Invocation
