import Wmfs.Lib.Result
import Wmfs.Ring.Codec

/-!
# `Wmfs.Invocation.Metadata`: the metadata of an operation and its validation

`OperationMetadata` of `wmfs/protocol/metadata.py`, with `validate_operation_metadata`. The
expressions of an output plan have a `kind` and a `value` in the source. Here a kind is a
constructor and carries its value, so a kind that no decoder produces is no expression.

The metadata of the gradient, `vjp` and `internal`, is left out: no function of an invocation
reads it.

An exception carries its text. The fields that an f-string formats with `!r` are parts of their
own, because the `repr` of a name may quote and escape.
-/

set_option autoImplicit false

namespace Wmfs.Invocation

open Wmfs.Lib
open Wmfs.Lib.Utf8 (Text)
open Wmfs.Ring.Codec (Value)

/-! ### Exceptions -/

/-- A piece of the text of an exception. -/
inductive Part where
  | text (s : String)
  | repr (name : String)
  | reprs (names : List String)
  deriving DecidableEq, Repr

/-- The exceptions that leave the functions of an invocation. -/
inductive Exn where
  | valueError (message : List Part)
  | typeError (message : List Part)
  | runtimeError (message : List Part)
  | keyError (key : String)
  | indexError
  | overflowError
  | memoryError
  /-- A conversion of `nanobind` refused the object. -/
  | castError
  deriving DecidableEq, Repr

/-- `ValueError` with a plain text. -/
def valueError (message : String) : Exn := .valueError [.text message]

/-- `ValueError(f"{before}{name!r}{after}")`. -/
def namedValueError (before name after : String) : Exn :=
  .valueError [.text before, .repr name, .text after]

/-- `TypeError(f"{before}{name!r}{after}")`. -/
def namedTypeError (before name after : String) : Exn :=
  .typeError [.text before, .repr name, .text after]

/-! ### The metadata -/

/-- `_MAX_EXPRESSION_DEPTH`. -/
def MAX_EXPRESSION_DEPTH : Nat := 16

/-- `_MAX_OUTPUTS`. -/
def MAX_OUTPUTS : Nat := 8

/-- `_MAX_RANK`. -/
def MAX_RANK : Nat := 16

/-- `SUPPORTED_OUTPUT_DTYPES`. -/
def SUPPORTED_OUTPUT_DTYPES : List String := ["float32", "float64", "int64", "uint8"]

/-- `TensorParameter`. -/
structure TensorParameter where
  name : String
  access : String
  dtypeVariable : Option String := none
  dtypes : List String := []
  deriving DecidableEq, Repr

/-- `ScalarParameter`. -/
structure ScalarParameter where
  name : String
  kind : String
  required : Bool
  default : Option Value
  enumName : Option String := none
  enumValues : List Text := []
  deriving DecidableEq, Repr

/-- `DTypeVariable`. -/
structure DTypeVariable where
  name : String
  dtypes : List String
  deriving DecidableEq, Repr

/-- `DimensionExpression`, with `InputAxis` and `SelectDimension`. -/
inductive DimensionExpression where
  | constant (value : Int)
  | inputAxis (input axis : Int)
  | minimum (values : List DimensionExpression)
  | select (scalarParameter : Int) (whenTrue whenFalse : DimensionExpression)

/-- `DTypeExpression`, with `PromoteTensorScalar`. -/
inductive DTypeExpression where
  | fixed (name : String)
  | input (index : Int)
  | promoteTensorScalar (tensorInput scalarParameter : Int)
  | dtypeVariable (name : String)
  deriving DecidableEq, Repr

/-- `shape_kind` and `shape` of a `KnownOutput`. -/
inductive ShapeExpression where
  | sameShapeAsInput (input : Int)
  | dimensions (values : List DimensionExpression)

/-- `KnownOutput`. -/
structure KnownOutput where
  shape : ShapeExpression
  dtype : DTypeExpression

/-- `OutputPlan`. -/
structure OutputPlan where
  name : String
  known : Option KnownOutput

/-- `OperationMetadata`. -/
structure OperationMetadata where
  name : String
  tensorInputs : List TensorParameter
  tensorOutputs : List TensorParameter
  scalarParameters : List ScalarParameter
  operationId : Int
  outputPlans : List OutputPlan
  dtypeVariables : List DTypeVariable := []

/-! ### Validation -/

/-- `_validate_index`. -/
def validateIndex (index : Int) (length : Nat) (kind : String) : Except Exn Unit :=
  raiseIf (index < 0 ∨ index ≥ length)
    (valueError ("Output expression references an invalid " ++ kind))

/-- `_scalar_matches_kind`. -/
def scalarMatchesKind (value : Value) (kind : String) : Bool :=
  if kind = "boolean" then
    match value with | .bool _ => true | _ => false
  else if kind = "float64" then
    match value with | .float _ => true | .int _ => true | _ => false
  else if kind = "int64" then
    match value with | .int _ => true | _ => false
  else
    match value with | .str _ => true | _ => false

/-- `_validate_dtypes`. The label is a text and a name. -/
def validateDtypes (dtypes : List String) (what name : String) : Except Exn Unit :=
  raiseIf (dtypes = [] ∨ ¬ dtypes.Nodup ∨ ∃ item ∈ dtypes, item ∉ SUPPORTED_OUTPUT_DTYPES)
    (namedValueError what name " has an invalid supported dtype set")

/-- The body of the loop over the scalar parameters. -/
def validateScalar (scalar : ScalarParameter) : Except Exn Unit := do
  raiseIf (scalar.name = "out") (valueError "Scalar parameter name 'out' is reserved")
  raiseIf (scalar.kind ∉ ["boolean", "float64", "int64", "text"])
    (namedValueError "Scalar " scalar.name " has an invalid kind")
  raiseIf (scalar.required ∧ scalar.default ≠ none)
    (namedValueError "Required scalar " scalar.name " cannot have a default")
  raiseIf (¬ scalar.required ∧ scalar.default = none)
    (namedValueError "Optional scalar " scalar.name " requires a default")
  raiseIf (scalar.enumName = none ∧ ∃ value ∈ scalar.default, ¬ scalarMatchesKind value scalar.kind)
    (namedValueError "Scalar " scalar.name " has an invalid default")
  if scalar.enumName ≠ none then
    raiseIf (scalar.kind ≠ "int64" ∨ scalar.enumValues = [])
      (namedValueError "Scalar " scalar.name " has an invalid enum")
    raiseIf (¬ scalar.enumValues.Nodup)
      (namedValueError "Scalar " scalar.name " has duplicate enum values")
    raiseIf (∃ value ∈ scalar.default, value ∉ scalar.enumValues.map .str)
      (namedValueError "Scalar " scalar.name " has an invalid enum default")

mutual
/-- `_validate_dimension`. -/
def validateDimension (operation : OperationMetadata) (depth : Nat)
    (expression : DimensionExpression) : Except Exn Unit := do
  raiseIf (depth ≥ MAX_EXPRESSION_DEPTH)
    (valueError "Output dimension expression is too deeply nested")
  match expression with
  | .constant value => raiseIf (value ≤ 0) (valueError "Output dimensions must be positive")
  | .inputAxis input axis =>
    validateIndex input operation.tensorInputs.length "tensor input"
    raiseIf (axis < 0 ∨ axis ≥ MAX_RANK)
      (valueError "Output dimension references an invalid input axis")
  | .minimum values =>
    raiseIf (values.isEmpty) (valueError "Minimum output dimension requires an operand")
    validateDimensions operation (depth + 1) values
  | .select scalarParameter whenTrue whenFalse =>
    validateIndex scalarParameter operation.scalarParameters.length "scalar parameter"
    raiseIf ((operation.scalarParameters[scalarParameter.toNat]?).map ScalarParameter.kind
        ≠ some "boolean")
      (valueError "Output dimension selection requires a Boolean scalar")
    validateDimension operation (depth + 1) whenTrue
    validateDimension operation (depth + 1) whenFalse

/-- A loop of `_validate_dimension`. -/
def validateDimensions (operation : OperationMetadata) (depth : Nat) :
    List DimensionExpression → Except Exn Unit
  | [] => .ok ()
  | expression :: expressions => do
    validateDimension operation depth expression
    validateDimensions operation depth expressions
end

/-- The shape of `_validate_known_output`. -/
def validateShape (name : String) (operation : OperationMetadata) :
    ShapeExpression → Except Exn Unit
  | .sameShapeAsInput input =>
    validateIndex input operation.tensorInputs.length "tensor input"
  | .dimensions values => do
    raiseIf (values.isEmpty ∨ values.length > MAX_RANK)
      (namedValueError "Output plan " name " has an invalid rank")
    validateDimensions operation 0 values

/-- The dtype of `_validate_known_output`. -/
def validateDtype (name : String) (operation : OperationMetadata) :
    DTypeExpression → Except Exn Unit
  | .fixed dtype =>
    raiseIf (dtype ∉ SUPPORTED_OUTPUT_DTYPES)
      (namedValueError "Output plan " name " has an invalid dtype")
  | .input index => validateIndex index operation.tensorInputs.length "tensor input"
  | .promoteTensorScalar tensorInput scalarParameter => do
    validateIndex tensorInput operation.tensorInputs.length "tensor input"
    validateIndex scalarParameter operation.scalarParameters.length "scalar parameter"
    raiseIf ((operation.scalarParameters[scalarParameter.toNat]?).map ScalarParameter.kind
        = some "text")
      (valueError "Text scalars cannot participate in dtype promotion")
  | .dtypeVariable variableName =>
    raiseIf (variableName ∉ operation.dtypeVariables.map DTypeVariable.name)
      (namedValueError "Output plan " name " has an unknown dtype variable")

/-- `_validate_known_output`. -/
def validateKnownOutput (name : String) (known : KnownOutput) (operation : OperationMetadata) :
    Except Exn Unit := do
  validateShape name operation known.shape
  validateDtype name operation known.dtype

/-- The body of the loop over the tensor inputs. -/
def validateTensorInput (operation : OperationMetadata) (parameter : TensorParameter) :
    Except Exn Unit :=
  match parameter.dtypeVariable with
  | some variableName =>
    raiseIf (variableName ∉ operation.dtypeVariables.map DTypeVariable.name)
      (namedValueError "Tensor " parameter.name " has an unknown dtype variable")
  | none =>
    if parameter.dtypes = [] then .ok ()
    else validateDtypes parameter.dtypes "Tensor " parameter.name

/-- The body of the loop over the outputs and their plans. -/
def validateOutput (operation : OperationMetadata) (output : TensorParameter × OutputPlan) :
    Except Exn Unit := do
  raiseIf (output.2.name ≠ output.1.name)
    (.valueError [.text "Operation ", .repr operation.name, .text " output plan ",
      .repr output.2.name, .text " does not match ", .repr output.1.name])
  match output.2.known with
  | some known => validateKnownOutput output.2.name known operation
  | none => return ()

/-- `validate_operation_metadata`. -/
def validateOperationMetadata (operation : OperationMetadata) : Except Exn Unit := do
  raiseIf (operation.operationId ≤ 0)
    (namedValueError "Operation " operation.name " has an invalid operation ID")
  raiseIf (operation.outputPlans.length ≠ operation.tensorOutputs.length)
    (namedValueError "Operation " operation.name " output plans do not match its outputs")
  raiseIf (operation.outputPlans.length > MAX_OUTPUTS)
    (namedValueError "Operation " operation.name " declares too many outputs")
  raiseIf ((∃ plan ∈ operation.outputPlans, plan.known.isNone) ∧
      ∃ item ∈ operation.tensorInputs, item.access = "readWrite")
    (namedValueError "Operation " operation.name
      " cannot plan dynamic outputs from mutable inputs")
  forM operation.scalarParameters validateScalar
  raiseIf (¬ (operation.dtypeVariables.map DTypeVariable.name).Nodup)
    (namedValueError "Operation " operation.name " has duplicate dtype variables")
  forM operation.dtypeVariables fun item => validateDtypes item.dtypes "Dtype variable " item.name
  forM operation.tensorInputs (validateTensorInput operation)
  let outputs ← zipStrict (valueError "zip() argument 2 is shorter than argument 1")
    operation.tensorOutputs operation.outputPlans
  forM outputs (validateOutput operation)

end Wmfs.Invocation
