import Wmfs.Compiler.Documents
import Wmfs.Manifest.Decode

/-!
# `Wmfs.Manifest.Translation`: what the runtime reads from a generated manifest

`operationMetadata` is the metadata that an operation of the compiler stands for. The decoders of
the manifest read exactly it from the document that the compiler writes
(`operation_interfaceOperation`), by one lemma for each decoder. The proofs about expressions
follow their structure.
-/

set_option autoImplicit false

namespace Wmfs.Manifest

open Wmfs.Lib
open Wmfs.Lib.Utf8 (Text ofString)
open Wmfs.Lib.Document (Members get? contains membersOf orNull)
open Wmfs.Invocation (DimensionExpression DTypeExpression ShapeExpression KnownOutput OutputPlan
  TensorParameter ScalarParameter DTypeVariable Exn valueError)
open Wmfs.Ring.Codec (Value)

/-! ### The metadata of the compiler's model -/

/-- The default of a scalar. -/
def defaultMetadata : Compiler.ScalarType → Option Value
  | .boolean default => default.map .bool
  | .float64 default => default.map .float
  | .int64 default => default.map .int
  | .text default => default.map .str
  | .enum _ default => default.map fun value => .str (ofString value.val.name)

/-- A scalar parameter. -/
def scalarMetadata (scalar : Compiler.ScalarParameter) : ScalarParameter where
  name := scalar.name.name
  kind := scalar.kind
  required := scalar.required
  default := defaultMetadata scalar.type
  enumName := scalar.enum.map Compiler.Identifier.name
  enumValues := scalar.enumValues.map fun value => ofString value.name

/-- A tensor input. -/
def tensorMetadata (tensor : Compiler.TensorParameter) : TensorParameter where
  name := tensor.name.name
  access := Compiler.metadataAccess tensor.access
  dtypeVariable := tensor.dtypeVariable.map Compiler.Identifier.name
  dtypes := tensor.dtypes

/-- A dtype variable. -/
def dtypeVariableMetadata (declared : Compiler.DTypeVariable) : DTypeVariable where
  name := declared.name.name
  dtypes := declared.dtypes.names

mutual
/-- A dimension. -/
def dimensionMetadata : Compiler.Dimension → DimensionExpression
  | .constant value _ => .constant value
  | .inputAxis input axis => .inputAxis input axis
  | .minimum first second rest =>
    .minimum (dimensionMetadata first :: dimensionMetadata second :: dimensionsMetadata rest)
  | .select scalar whenTrue whenFalse =>
    .select scalar (dimensionMetadata whenTrue) (dimensionMetadata whenFalse)

/-- The dimensions of a list. -/
def dimensionsMetadata : List Compiler.Dimension → List DimensionExpression
  | [] => []
  | dimension :: dimensions => dimensionMetadata dimension :: dimensionsMetadata dimensions
end

/-- The dtype of an output. -/
def dtypeMetadata : Compiler.DType → DTypeExpression
  | .input index => .input index
  | .fixed value => .fixed (Utf8.toString value.text)
  | .variable name => .dtypeVariable name.name
  | .promoteTensorScalar input scalar => .promoteTensorScalar input scalar

/-- The shape of an output. -/
def shapeMetadata : Compiler.Shape → ShapeExpression
  | .dimensions values => .dimensions (dimensionsMetadata values)
  | .sameShapeAsInput input => .sameShapeAsInput input

/-- A known output. -/
def knownMetadata (known : Compiler.KnownOutput) : KnownOutput where
  shape := shapeMetadata known.shape
  dtype := dtypeMetadata known.dtype

/-- An output plan. -/
def outputMetadata (output : Compiler.Output) : OutputPlan where
  name := output.name.name
  known := output.known.map knownMetadata

/-- A gradient. -/
def vjpMetadata (vjp : Compiler.Vjp) : VjpMetadata where
  operationId := vjp.operationId
  savedInputs := vjp.savedInputs
  savedOutputs := vjp.savedOutputs
  outputCotangents := vjp.outputCotangents
  inputGradients := vjp.inputGradients
  scalarParameters := vjp.scalarParameters

/-- An operation. -/
def operationMetadata (operation : Compiler.Operation) : OperationMetadata where
  name := operation.name.name
  tensorInputs := operation.inputs.map tensorMetadata
  tensorOutputs := operation.outputs.map fun output => ⟨output.name.name, "readOnly", none, []⟩
  scalarParameters := operation.scalars.map scalarMetadata
  operationId := operation.operationId
  outputPlans := operation.outputs.map outputMetadata
  dtypeVariables := operation.dtypeVariables.map dtypeVariableMetadata
  vjp := operation.vjp.map vjpMetadata
  internal := operation.internal

/-! ### Readers on documents that are written out -/

/-- An integer is read back. -/
@[simp] theorem integer_int (n : Int) (path : String) : integer (.int n) path = .ok n := rfl

/-- A boolean is read back. -/
@[simp] theorem boolean_bool (b : Bool) (path : String) : boolean (.bool b) path = .ok b := rfl

/-- An array is read back. -/
@[simp] theorem array_arr (items : List Document) (path : String) :
    array (.arr items) path = .ok items := rfl

/-- An object is read back. -/
@[simp] theorem object_object (members : List (String × Document)) (path : String) :
    object (.object members) path = .ok (membersOf members) := rfl

/-- A text that is not empty is read back. -/
theorem text_str {content : Text} (h : content ≠ []) (path : String) :
    text (.str content) path = .ok content := if_neg h

/-- A name that is not empty is read back. -/
theorem string_string {s : String} (h : s ≠ "") (path : String) :
    string (.string s) path = .ok s := by
  rw [string, Document.string, text_str (Utf8.ofString_ne_nil h)]
  show Except.ok (Utf8.toString (ofString s)) = _
  rw [Utf8.toString_ofString]

/-- An identifier is read back. -/
@[simp] theorem string_identifier (identifier : Compiler.Identifier) (path : String) :
    string (Compiler.identifierDocument identifier) path = .ok identifier.name :=
  string_string identifier.name_ne_empty path

/-- A field of a document that the compiler writes. -/
@[simp] theorem subscript_membersOf (members : List (String × Document)) (key : String) :
    subscript (membersOf members) key =
      (members.lookup key).elim (.error (.keyError key)) .ok := by
  rw [subscript, Document.get?_membersOf]
  cases members.lookup key <;> rfl

/-- A table that is written out passes the check of its fields. -/
theorem keysWithOptional_ok {members : List (String × Document)} {required optional : List String}
    (hrequired : ∀ key ∈ required, (members.lookup key).isSome)
    (hknown : ∀ member ∈ members, member.1 ∈ required ++ optional) (path : String) :
    keysWithOptional (membersOf members) required optional path = .ok () := by
  rw [keysWithOptional, raiseIf_ok_iff, not_or, not_not, not_not, List.filter_eq_nil_iff,
    List.filter_eq_nil_iff]
  constructor
  · intro key hkey
    rw [decide_eq_true_iff, not_not, contains, Document.get?_membersOf]
    exact hrequired key hkey
  · intro key hkey
    rw [Document.keys_membersOf, List.map_map] at hkey
    obtain ⟨member, hmember, rfl⟩ := List.mem_map.mp hkey
    rw [decide_eq_true_iff, not_not]
    exact List.mem_map_of_mem (hknown member hmember)

/-- A document with the expected fields passes. -/
theorem keys_ok {members : List (String × Document)} {expected : List String}
    (hrequired : ∀ key ∈ expected, (members.lookup key).isSome)
    (hknown : ∀ member ∈ members, member.1 ∈ expected) (path : String) :
    keys (membersOf members) expected path = .ok () :=
  keysWithOptional_ok hrequired (by simpa using hknown) path

/-- An identifier that may be missing is read back. -/
@[simp] theorem nullable_identifier (identifier : Option Compiler.Identifier) (path : String) :
    nullable (fun value => string value path) (orNull Compiler.identifierDocument identifier) =
      .ok (identifier.map Compiler.Identifier.name) := by
  cases identifier with
  | none => rfl
  | some identifier =>
    show (string (Compiler.identifierDocument identifier) path).map some = _
    rw [string_identifier]
    rfl

/-- A list of names is read back. -/
theorem strings_strings {items : List String} (h : ∀ item ∈ items, item ≠ "") (path : String) :
    strings (.strings items) path = .ok items := by
  have hmap : (items.map Document.string).mapM (fun item => string item path) =
      .ok (items.map id) :=
    Result.mapM_map_eq_ok fun item hitem => string_string (h item hitem) path
  rw [List.map_id] at hmap
  exact hmap

/-- A list of identifiers is read back. -/
theorem texts_identifiers (identifiers : List Compiler.Identifier) (path : String) :
    texts (Compiler.identifiersDocument identifiers) path =
      .ok (identifiers.map fun identifier => ofString identifier.name) :=
  Result.mapM_map_eq_ok fun identifier _ =>
    text_str (Utf8.ofString_ne_nil identifier.name_ne_empty) path

/-! ### Tensors and scalars -/

/-- The names of dtypes are not empty. -/
theorem names_ne_empty (dtypes : Compiler.DTypes) : ∀ name ∈ dtypes.names, name ≠ "" := by
  intro name hname h
  have hsupported := dtypes.names_supported name hname
  rw [h] at hsupported
  exact absurd hsupported (by decide)

/-- The names of the dtypes of a tensor are not empty. -/
theorem tensor_dtypes_ne_empty (tensor : Compiler.TensorParameter) :
    ∀ name ∈ tensor.dtypes, name ≠ "" := by
  intro name hname
  unfold Compiler.TensorParameter.dtypes at hname
  split at hname
  · exact names_ne_empty _ name hname
  all_goals cases hname

/-- The access is read back. -/
theorem decodeAccess_name (path : String) (access : Compiler.Access) :
    decodeAccess path access.name = .ok (Compiler.metadataAccess access) := by
  cases access <;> rfl

/-- The name of an access is not empty. -/
theorem access_name_ne_empty (access : Compiler.Access) : access.name ≠ "" := by
  cases access <;> decide

/-- A tensor parameter is read back. -/
theorem tensor_tensorDocument (tensor : Compiler.TensorParameter) (path : String) :
    Manifest.tensor 2 path (Compiler.tensorDocument tensor) = .ok (tensorMetadata tensor) := by
  rw [Compiler.tensorDocument, Manifest.tensor, object_object, Result.ok_bind,
    keys_ok (by simp) (by simp)]
  simp [Result.ok_bind, string_string (access_name_ne_empty _), decodeAccess_name,
    strings_strings (tensor_dtypes_ne_empty tensor)]
  rfl

/-- A dtype variable is read back. -/
theorem dtypeVariable_dtypeVariableDocument (declared : Compiler.DTypeVariable) (path : String) :
    dtypeVariable path (Compiler.dtypeVariableDocument declared) =
      .ok (dtypeVariableMetadata declared) := by
  rw [Compiler.dtypeVariableDocument, dtypeVariable, object_object, Result.ok_bind,
    keys_ok (by simp) (by simp)]
  simp [Result.ok_bind, strings_strings (names_ne_empty declared.dtypes)]
  rfl

/-- The kind of a scalar is not empty. -/
theorem kind_ne_empty (scalar : Compiler.ScalarParameter) : scalar.kind ≠ "" := by
  unfold Compiler.ScalarParameter.kind
  split <;> decide

/-- The decoder reads the default of a parsed scalar back. -/
theorem scalarDefault_default (scalar : Compiler.ScalarParameter) (name : String)
    (required : Bool) (enumName : Option String) :
    scalarDefault name required enumName (orNull id scalar.default) =
      .ok (defaultMetadata scalar.type) := by
  unfold Compiler.ScalarParameter.default
  cases scalar.type with
  | boolean default => cases default <;> rfl
  | float64 default => cases default <;> rfl
  | int64 default => cases default <;> rfl
  | text default => cases default <;> rfl
  | enum declaration default => cases default <;> rfl

/-- A scalar parameter is read back. -/
theorem scalar_scalarDocument (scalar : Compiler.ScalarParameter) (path : String) :
    Manifest.scalar 2 path (Compiler.scalarDocument scalar) = .ok (scalarMetadata scalar) := by
  rw [Compiler.scalarDocument, Manifest.scalar, object_object, Result.ok_bind,
    keys_ok (by simp) (by simp)]
  simp [Result.ok_bind, string_string (kind_ne_empty scalar), scalarDefault_default,
    texts_identifiers]
  rfl

/-! ### Expressions -/

/-- A dimension in a field of a document that the compiler writes. -/
@[simp] theorem dimensionAt_membersOf (members : List (String × Document)) (key path : String) :
    dimensionAt key path (membersOf members) =
      (members.lookup key).elim (.error (.keyError key)) (dimension (path ++ "." ++ key)) := by
  induction members with
  | nil => rfl
  | cons member members ih =>
    obtain ⟨name, value⟩ := member
    show dimensionAt key path ((ofString name, value) :: membersOf members) = _
    rw [dimensionAt, ih, Document.lookup_cons_ite]
    by_cases h : key = name
    · rw [if_pos (by rw [h]), if_pos h]
      rfl
    · rw [if_neg fun heq => h (Utf8.ofString_inj.mp heq).symm, if_neg h]

/-- The dimensions in a field of a document that the compiler writes. -/
theorem dimensionsAt_membersOf {members : List (String × Document)} {key : String}
    {items : List Document} (h : members.lookup key = some (.arr items)) (path : String) :
    dimensionsAt key path (membersOf members) = dimensions (path ++ "." ++ key) items := by
  induction members with
  | nil => cases h
  | cons member members ih =>
    obtain ⟨name, value⟩ := member
    show dimensionsAt key path ((ofString name, value) :: membersOf members) = _
    rw [Document.lookup_cons_ite] at h
    by_cases heq : key = name
    · rw [if_pos heq] at h
      cases h
      rw [dimensionsAt, if_pos (by rw [heq])]
    · rw [if_neg heq] at h
      have hname : ofString name ≠ ofString key := fun hof => heq (Utf8.ofString_inj.mp hof).symm
      unfold dimensionsAt
      rw [if_neg hname]
      exact ih h

mutual
/-- The decoder of dimensions reads what the compiler writes. -/
theorem dimension_dimensionDocument : ∀ (value : Compiler.Dimension) (path : String),
    dimension path (Compiler.dimensionDocument value) = .ok (dimensionMetadata value)
  | .constant value h, path => by
    rw [Compiler.dimensionDocument, Document.object, dimension, keys_ok (by simp) (by simp)]
    simp [Result.ok_bind, string_string, dimensionMetadata]
  | .inputAxis input axis, path => by
    rw [Compiler.dimensionDocument, Document.object, dimension, keys_ok (by simp) (by simp)]
    simp [Result.ok_bind, string_string, dimensionMetadata]
  | .minimum first second rest, path => by
    have hfirst := dimension_dimensionDocument first (path ++ "." ++ "operands")
    have hsecond := dimension_dimensionDocument second (path ++ "." ++ "operands")
    have hrest := dimensions_dimensionsDocument rest (path ++ "." ++ "operands")
    rw [Compiler.dimensionDocument, Document.object, dimension, keys_ok (by simp) (by simp),
      dimensionsAt_membersOf (by simp; rfl), dimensions, dimensions, hfirst, hsecond, hrest]
    simp [Result.ok_bind, string_string, dimensionMetadata]
  | .select scalar whenTrue whenFalse, path => by
    have htrue := dimension_dimensionDocument whenTrue (path ++ "." ++ "when_true")
    have hfalse := dimension_dimensionDocument whenFalse (path ++ "." ++ "when_false")
    rw [Compiler.dimensionDocument, Document.object, dimension, keys_ok (by simp) (by simp)]
    simp [Result.ok_bind, string_string, dimensionMetadata, htrue, hfalse]

/-- A list of dimensions is read back. -/
theorem dimensions_dimensionsDocument : ∀ (values : List Compiler.Dimension) (path : String),
    dimensions path (Compiler.dimensionsDocument values) = .ok (dimensionsMetadata values)
  | [], path => rfl
  | value :: values, path => by
    have hfirst := dimension_dimensionDocument value path
    have hrest := dimensions_dimensionsDocument values path
    rw [Compiler.dimensionsDocument, dimensions, hfirst, hrest]
    rfl
end

/-- A text that is not empty is read back as a name. -/
theorem string_text (value : Compiler.NonEmptyText) (path : String) :
    string (.str value.text) path = .ok (Utf8.toString value.text) := by
  rw [string, text_str value.text_ne_nil]
  rfl

/-- A dtype is read back. -/
theorem dtype_dtypeDocument (value : Compiler.DType) (path : String) :
    dtype (Compiler.dtypeDocument value) path = .ok (dtypeMetadata value) := by
  cases value with
  | input index =>
    rw [Compiler.dtypeDocument, dtype, object_object, Result.ok_bind, contains,
      Document.get?_membersOf, keys_ok (by simp) (by simp)]
    simp [Result.ok_bind, string_string, dtypeMetadata]
  | fixed value =>
    rw [Compiler.dtypeDocument, dtype, object_object, Result.ok_bind, contains,
      Document.get?_membersOf, keys_ok (by simp) (by simp)]
    simp [Result.ok_bind, string_string, string_text, dtypeMetadata]
  | «variable» name =>
    rw [Compiler.dtypeDocument, dtype, object_object, Result.ok_bind, contains,
      Document.get?_membersOf, keys_ok (by simp) (by simp)]
    simp [Result.ok_bind, string_string, dtypeMetadata]
  | promoteTensorScalar input scalar =>
    rw [Compiler.dtypeDocument, dtype, object_object, Result.ok_bind, contains,
      Document.get?_membersOf, keys_ok (by simp) (by simp)]
    simp [Result.ok_bind, string_string, dtypeMetadata]

/-! ### Outputs and operations -/

/-- A shape is read back. -/
theorem shape_shapeDocument (value : Compiler.Output) (known : Compiler.KnownOutput)
    (h : value.known = some known) (path : String) :
    shape (membersOf [("allocation", .string "known"),
      ("dimensions", .arr (Compiler.dimensionsDocument value.dimensions)),
      ("dtype", Compiler.dtypeDocument known.dtype),
      ("name", Compiler.identifierDocument value.name),
      ("same_shape_as_input", orNull .int value.sameShapeAsInput)]) path =
      .ok (shapeMetadata known.shape) := by
  obtain ⟨declared, dtype⟩ := known
  cases declared with
  | dimensions values =>
    simp [shape, Compiler.Output.dimensions, Compiler.Output.sameShapeAsInput, h, isNull,
      Result.ok_bind, dimensions_dimensionsDocument, shapeMetadata]
  | sameShapeAsInput input =>
    simp [shape, Compiler.Output.dimensions, Compiler.Output.sameShapeAsInput, h, isNull, isTrue,
      Compiler.dimensionsDocument, Result.ok_bind, shapeMetadata, raiseIf]

/-- A dtype is not null. -/
theorem isNull_dtypeDocument (value : Compiler.DType) :
    isNull (Compiler.dtypeDocument value) = false := by
  cases value <;> rfl

/-- An output is read back. -/
theorem output_outputDocument (value : Compiler.Output) (path : String) :
    output path (Compiler.outputDocument value) = .ok (outputMetadata value) := by
  rw [Compiler.outputDocument, output, object_object, Result.ok_bind, keys_ok (by simp) (by simp)]
  cases hknown : value.known with
  | none =>
    simp [Result.ok_bind, string_string, Compiler.Output.dimensions, Compiler.Output.dtype,
      Compiler.Output.sameShapeAsInput, hknown, isNull, isTrue, Compiler.dimensionsDocument, raiseIf,
      outputMetadata]
  | some known =>
    have hshape := shape_shapeDocument value known hknown path
    simp [Result.ok_bind, string_string, Compiler.Output.dtype, hknown, isNull_dtypeDocument,
      raiseIf, hshape, dtype_dtypeDocument, outputMetadata, knownMetadata]

/-- A list of indices is read back. -/
theorem indexes_ints {members : List (String × Document)} {key : String} {items : List Int}
    (h : members.lookup key = some (.ints items)) (path : String) :
    indexes (membersOf members) path key = .ok items := by
  have hmap : (items.map Document.int).mapM (fun value => integer value (path ++ "." ++ key)) =
      .ok (items.map id) := Result.mapM_map_eq_ok fun item _ => integer_int item _
  rw [List.map_id] at hmap
  rw [indexes, subscript_membersOf, h]
  exact hmap

/-- A VJP is read back. -/
theorem vjp_vjpDocument (value : Option Compiler.Vjp) (path : String) :
    vjp path (orNull Compiler.vjpDocument value) = .ok (value.map vjpMetadata) := by
  cases value with
  | none => rfl
  | some value =>
    rw [Document.orNull_some, Compiler.vjpDocument, Document.object, vjp]
    · show keys _ _ _ >>= _ = _
      rw [keys_ok (by simp) (by simp), indexes_ints (by simp; rfl), indexes_ints (by simp; rfl),
        indexes_ints (by simp; rfl), indexes_ints (by simp; rfl), indexes_ints (by simp; rfl)]
      simp [Result.ok_bind]
      rfl
    · intro h
      cases h

/-- The name of an output is read back. -/
theorem outputName_outputDocument (value : Compiler.Output) (path : String) :
    outputName path (Compiler.outputDocument value) = .ok value.name.name := by
  rw [Compiler.outputDocument, outputName]
  simp [Result.ok_bind]

/-- The runtime reads the metadata of an operation from the document that the compiler writes. -/
theorem operation_interfaceOperation (value : Compiler.Operation) (index : Nat) :
    operation 2 (Compiler.interfaceOperation value) index = .ok (operationMetadata value) := by
  rw [Compiler.interfaceOperation, operation, object_object, Result.ok_bind,
    keys_ok (by simp) (by simp)]
  simp only [Result.ok_bind, subscript_membersOf, Document.lookup_cons_ite, String.reduceEq,
    if_true, if_false, Option.elim_some, array_arr, boolean_bool, integer_int, string_identifier,
    vjp_vjpDocument, Result.mapM_map_eq_ok fun output _ => outputName_outputDocument output _,
    Result.mapM_map_eq_ok fun tensor _ => tensor_tensorDocument tensor _,
    Result.mapM_map_eq_ok fun scalar _ => scalar_scalarDocument scalar _,
    Result.mapM_map_eq_ok fun output _ => output_outputDocument output _,
    Result.mapM_map_eq_ok fun declared _ => dtypeVariable_dtypeVariableDocument declared _]
  show Except.ok _ = Except.ok _
  rw [operationMetadata, List.map_map]
  rfl

/-- The runtime reads the metadata of all operations. -/
theorem operations_interfaceOperations (values : List Compiler.Operation) :
    operations 2 (values.map Compiler.interfaceOperation) = .ok (values.map operationMetadata) := by
  have hindexed : ((values.zipIdx.map (Prod.map Compiler.interfaceOperation id)).mapM
      fun entry => operation 2 entry.1 entry.2) =
      .ok (values.zipIdx.map fun entry => operationMetadata entry.1) :=
    Result.mapM_map_eq_ok fun entry _ => operation_interfaceOperation entry.1 entry.2
  rw [operations, List.zipIdx_map, hindexed]
  congr 1
  -- The index of an operation is in the texts of exceptions only.
  show values.zipIdx.map (operationMetadata ∘ Prod.fst) = _
  rw [← List.map_map, List.zipIdx_map_fst]

end Wmfs.Manifest
