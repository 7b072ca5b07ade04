import Wmfs.Lib.Document

/-!
# `Wmfs.Compiler.Model`: the interface of a plugin

The dataclasses of `wmfs_tool/model.py`, as `wmfs_tool/parser.py` builds them. A field that the
parser checks as it reads it has a type that carries the check: an identifier is a portable
identifier, a dtype set is a unique non-empty supported set, a scalar has a default of its own
kind when it is optional and none when it is required, a constant dimension is positive and a
minimum has two operands.

Where a dataclass has a `kind` and fields that only some kinds use, each kind is a constructor
and has its own fields. What relates fields of different objects (an index and the list it
points into, an operation and its gradient) is not in the types: `_validate` checks it.
-/

set_option autoImplicit false

namespace Wmfs.Compiler

open Wmfs.Lib
open Wmfs.Lib.Utf8 (Text)

/-! ### Names and dtypes -/

/-- `SUPPORTED_DTYPES`. -/
def SUPPORTED_DTYPES : List String := ["float32", "float64", "int64", "uint8"]

/-- `_IDENTIFIER`. -/
def isIdentifier (s : String) : Bool :=
  match s.toList with
  | [] => false
  | first :: rest =>
    (first.isAlpha || first == '_') && rest.all fun c => c.isAlphanum || c == '_'

/-- What `_identifier` returns. -/
structure Identifier where
  name : String
  isIdentifier_name : isIdentifier name = true
  deriving DecidableEq

/-- `item` is an identifier. -/
theorem isIdentifier_item : isIdentifier "item" = true := rfl

/-- `x` is an identifier. -/
theorem isIdentifier_x : isIdentifier "x" = true := by decide

/-- `y` is an identifier. -/
theorem isIdentifier_y : isIdentifier "y" = true := by decide

/-- An identifier is not empty. -/
theorem Identifier.name_ne_empty (identifier : Identifier) : identifier.name ≠ "" := by
  intro h
  have hname := identifier.isIdentifier_name
  rw [h] at hname
  cases hname

/-- Identifiers of one name are equal. -/
theorem Identifier.name_injective : Function.Injective Identifier.name := by
  intro left right h
  cases left
  cases right
  cases h
  rfl

/-- The text of an identifier determines it. -/
theorem Identifier.ofString_injective :
    Function.Injective fun identifier : Identifier => Utf8.ofString identifier.name := by
  intro left right h
  exact Identifier.name_injective (Utf8.ofString_inj.mp h)

/-- What `_string` returns. -/
structure NonEmptyText where
  text : Text
  text_ne_nil : text ≠ []
  deriving DecidableEq

/-- What `_dtypes` returns. -/
structure DTypes where
  names : List String
  names_ne_nil : names ≠ []
  names_nodup : names.Nodup
  names_supported : ∀ name ∈ names, name ∈ SUPPORTED_DTYPES
  deriving DecidableEq

/-- `DTypeVariable`. -/
structure DTypeVariable where
  name : Identifier
  dtypes : DTypes
  deriving DecidableEq

/-! ### Tensors -/

/-- `access` of a tensor parameter. -/
inductive Access where
  | readOnly
  | readWrite
  deriving DecidableEq

/-- The spelling of an access in an interface source. -/
def Access.name : Access → String
  | readOnly => "read_only"
  | readWrite => "read_write"

/-- `dtype_variable` and `dtypes` of a tensor parameter. -/
inductive Constraint where
  | any
  | variable (name : Identifier)
  | oneOf (dtypes : DTypes)
  deriving DecidableEq

/-- `TensorParameter`. -/
structure TensorParameter where
  name : Identifier
  access : Access
  constraint : Constraint
  deriving DecidableEq

/-- `dtype_variable`. -/
def TensorParameter.dtypeVariable (tensor : TensorParameter) : Option Identifier :=
  match tensor.constraint with
  | .variable name => some name
  | .any | .oneOf _ => none

/-- `dtypes`. -/
def TensorParameter.dtypes (tensor : TensorParameter) : List String :=
  match tensor.constraint with
  | .oneOf dtypes => dtypes.names
  | .any | .variable _ => []

/-! ### Scalars -/

/-- `Enum`. -/
structure Enum where
  name : Identifier
  values : List Identifier
  values_ne_nil : values ≠ []
  values_nodup : values.Nodup
  deriving DecidableEq

/-- `kind`, `enum`, `enum_values` and `default` of a scalar parameter. A float is its 64-bit
pattern. -/
inductive ScalarType where
  | boolean (default : Option Bool)
  | float64 (default : Option UInt64)
  | int64 (default : Option Int)
  | text (default : Option Text)
  | enum (declaration : Enum) (default : Option { value // value ∈ declaration.values })
  deriving DecidableEq

/-- `ScalarParameter`. -/
structure ScalarParameter where
  name : Identifier
  type : ScalarType
  deriving DecidableEq

/-- `kind`. -/
def ScalarParameter.kind (scalar : ScalarParameter) : String :=
  match scalar.type with
  | .boolean _ => "boolean"
  | .float64 _ => "float64"
  | .int64 _ => "int64"
  | .text _ => "text"
  | .enum _ _ => "int64"

/-- `default`. -/
def ScalarParameter.default (scalar : ScalarParameter) : Option Document :=
  match scalar.type with
  | .boolean default => default.map .bool
  | .float64 default => default.map .float
  | .int64 default => default.map .int
  | .text default => default.map .str
  | .enum _ default => default.map fun value => .string value.val.name

/-- `required`. -/
def ScalarParameter.required (scalar : ScalarParameter) : Bool := scalar.default.isNone

/-- The declaration of an enum scalar. -/
def ScalarParameter.declaration (scalar : ScalarParameter) : Option Enum :=
  match scalar.type with
  | .enum declaration _ => some declaration
  | _ => none

/-- `enum`. -/
def ScalarParameter.enum (scalar : ScalarParameter) : Option Identifier :=
  scalar.declaration.map Enum.name

/-- `enum_values`. -/
def ScalarParameter.enumValues (scalar : ScalarParameter) : List Identifier :=
  (scalar.declaration.map Enum.values).getD []

/-! ### Outputs -/

/-- `Dimension`. -/
inductive Dimension where
  | constant (value : Int) (value_pos : 0 < value)
  | inputAxis (input axis : Int)
  | minimum (first second : Dimension) (rest : List Dimension)
  | select (scalar : Int) (whenTrue whenFalse : Dimension)

/-- `DType`. -/
inductive DType where
  | input (index : Int)
  | fixed (value : NonEmptyText)
  | variable (name : Identifier)
  | promoteTensorScalar (input scalar : Int)
  deriving DecidableEq

/-- `dimensions` or `same_shape_as_input` of a known output. -/
inductive Shape where
  | dimensions (values : List Dimension)
  | sameShapeAsInput (input : Int)

/-- The shape and the dtype of a known output. -/
structure KnownOutput where
  shape : Shape
  dtype : DType

/-- `Output`. A dynamic output has no shape and no dtype. -/
structure Output where
  name : Identifier
  known : Option KnownOutput

/-- `Output.dtype`. -/
def Output.dtype (output : Output) : Option DType := output.known.map KnownOutput.dtype

/-! ### Operations -/

/-- `Vjp`. -/
structure Vjp where
  operationId : Int
  savedInputs : List Int
  savedOutputs : List Int
  outputCotangents : List Int
  inputGradients : List Int
  scalarParameters : List Int
  deriving DecidableEq

/-- `Operation`. -/
structure Operation where
  operationId : Int
  name : Identifier
  internal : Bool
  inputs : List TensorParameter
  outputs : List Output
  scalars : List ScalarParameter
  vjp : Option Vjp
  dtypeVariables : List DTypeVariable

/-! ### The configuration -/

/-- The scalar kinds of `_CONFIGURATION_KINDS`. -/
inductive ConfigurationScalarKind where
  | boolean
  | integer
  | number
  | string
  deriving DecidableEq

/-- `_CONFIGURATION_KINDS`. -/
inductive ConfigurationKind where
  | scalar (kind : ConfigurationScalarKind)
  | array
  | object
  deriving DecidableEq

/-- The spelling of a kind. -/
def ConfigurationKind.name : ConfigurationKind → String
  | scalar .boolean => "boolean"
  | scalar .integer => "integer"
  | scalar .number => "number"
  | scalar .string => "string"
  | array => "array"
  | object => "object"

/-- The fields of a `ConfigurationProperty` that every kind has. -/
structure ConfigurationFields where
  name : Identifier
  required : Bool
  description : Option NonEmptyText
  default : Option Document
  enum : List Document
  minimum : Option Document
  maximum : Option Document
  minLength : Option Int
  maxLength : Option Int
  minItems : Option Int
  maxItems : Option Int

/-- `ConfigurationProperty`. -/
inductive ConfigurationProperty where
  | scalar (fields : ConfigurationFields) (kind : ConfigurationScalarKind)
  | array (fields : ConfigurationFields) (items : ConfigurationProperty)
  | object (fields : ConfigurationFields) (properties : List ConfigurationProperty)

/-- The fields of a property. -/
def ConfigurationProperty.fields : ConfigurationProperty → ConfigurationFields
  | .scalar fields _ | .array fields _ | .object fields _ => fields

/-- `kind`. -/
def ConfigurationProperty.kind : ConfigurationProperty → ConfigurationKind
  | .scalar _ kind => .scalar kind
  | .array _ _ => .array
  | .object _ _ => .object

/-- `Configuration`. -/
structure Configuration where
  schemaVersion : Int
  description : Option NonEmptyText
  properties : List ConfigurationProperty
  examples : List (Identifier × Document.Members)

/-! ### The plugin -/

/-- `Lifecycle`: which of the two hooks the plugin has. -/
structure Lifecycle where
  initializeHook : Bool
  shutdownHook : Bool
  deriving DecidableEq

/-- `Plugin`. Its `namespace` is `apiNamespace` here. The fields `schema` and `interface`, which are always empty, are left out. -/
structure Plugin where
  formatVersion : Int
  abiVersion : Int
  protocolVersion : Int
  name : Identifier
  version : NonEmptyText
  apiNamespace : Identifier
  pythonModule : Identifier
  worker : NonEmptyText
  deploymentRoot : NonEmptyText
  pythonProvider : Option NonEmptyText
  bundledNamespace : Option Identifier
  operations : List Operation
  enums : List Enum
  configuration : Option Configuration
  lifecycle : Lifecycle

end Wmfs.Compiler
