import Wmfs.Compiler.Accepted
import Wmfs.Manifest.Fingerprints

/-!
# `Wmfs.Manifest.Declarations`: the operations as the worker decodes them

The generated worker holds the operations of the plugin as `WORKER_DECLARATIONS`, and
`_metadata_from_declarations` of `wmfs_plugin/worker.py` decodes them with decoders of its own.
The classes of the metadata are written out here with their `kind` and their `value`, because the
two decoders choose them separately. A value that the worker takes over as it is stays a
document.

`record` shows the metadata of the runtime in these classes. `declarations_agree_iff` compares
both: the worker keeps the compiler's tag of a promoted dtype, and everything else is equal.

The declarations are a constant of the generated module. A conversion by `str`, `int`, `bool` or
`tuple` meets there a value that already has the type, and no other conversion is modelled.
-/

set_option autoImplicit false

namespace Wmfs.Manifest.Declarations

open Wmfs.Lib
open Wmfs.Lib.Utf8 (Text ofString)
open Wmfs.Lib.Document (Members get? membersOf orNull)

/-! ### The classes of the metadata -/

/-- `DimensionExpression`: a kind, with the value of each of the four types. -/
inductive DimensionRecord where
  | int (kind : Text) (value : Int)
  | inputAxis (kind : Text) (input axis : Int)
  | tuple (kind : Text) (values : List DimensionRecord)
  | select (kind : Text) (scalarParameter : Int) (whenTrue whenFalse : DimensionRecord)

/-- `value` of a `DTypeExpression`: a name or an index, or a `PromoteTensorScalar`. -/
inductive DTypeValue where
  | plain (value : Document)
  | promotion (tensorInput scalarParameter : Int)

/-- `DTypeExpression`. -/
structure DTypeRecord where
  kind : Text
  value : DTypeValue

/-- `shape` of a `KnownOutput`. -/
inductive ShapeRecord where
  | input (index : Int)
  | dimensions (values : List DimensionRecord)

/-- `KnownOutput`. -/
structure KnownRecord where
  shapeKind : String
  shape : ShapeRecord
  dtype : DTypeRecord

/-- `OutputPlan`. -/
structure OutputRecord where
  name : Text
  known : Option KnownRecord

/-- `TensorParameter`. -/
structure TensorRecord where
  name : Text
  access : String
  dtypeVariable : Document
  dtypes : List Document

/-- `ScalarParameter`. -/
structure ScalarRecord where
  name : Text
  kind : Text
  required : Bool
  default : Document
  enumName : Document
  enumValues : List Document

/-- `DTypeVariable`. -/
structure DTypeVariableRecord where
  name : Text
  dtypes : List Document

/-- `VjpMetadata`. -/
structure VjpRecord where
  operationId : Int
  savedInputs : List Document
  savedOutputs : List Document
  outputCotangents : List Document
  inputGradients : List Document
  scalarParameters : List Document

/-- `OperationMetadata`. -/
structure OperationRecord where
  name : Text
  tensorInputs : List TensorRecord
  tensorOutputs : List TensorRecord
  scalarParameters : List ScalarRecord
  operationId : Int
  outputPlans : List OutputRecord
  vjp : Option VjpRecord
  internal : Bool
  dtypeVariables : List DTypeVariableRecord

/-! ### The decoders of the worker -/

/-- The exceptions of the decoders. -/
inductive Exn where
  | keyError (key : String)
  | typeError
  | assertionError
  deriving DecidableEq

/-- A subscript of a value. -/
def item (value : Document) (key : String) : Except Exn Document :=
  match value with
  | .obj members =>
    match get? members key with
    | some found => .ok found
    | none => .error (.keyError key)
  | _ => .error .typeError

/-- `str(value)`. -/
def str : Document → Except Exn Text
  | .str text => .ok text
  | _ => .error .typeError

/-- `int(value)`. -/
def int : Document → Except Exn Int
  | .int n => .ok n
  | _ => .error .typeError

/-- `bool(value)`. -/
def bool : Document → Except Exn Bool
  | .bool b => .ok b
  | _ => .error .typeError

/-- `tuple(value)`. -/
def tuple : Document → Except Exn (List Document)
  | .arr items => .ok items
  | _ => .error .typeError

/-- `value == s`. -/
def isText (value : Document) (s : String) : Bool :=
  match value with
  | .str text => text = ofString s
  | _ => false

mutual
/-- `_dimension_declaration`. -/
def dimensionDeclaration : Document → Except Exn DimensionRecord
  | .obj members => do
    let kind ← str (← item (.obj members) "kind")
    if kind = ofString "constant" then
      return .int kind (← int (← item (.obj members) "axis"))
    else if kind = ofString "input_axis" then
      let input ← int (← item (.obj members) "input")
      return .inputAxis (ofString "inputAxis") input (← int (← item (.obj members) "axis"))
    else if kind = ofString "minimum" then
      return .tuple kind (← operandsAt members)
    else
      let scalar ← int (← item (.obj members) "scalar")
      let whenTrue ← dimensionAt "when_true" members
      return .select kind scalar whenTrue (← dimensionAt "when_false" members)
  | _ => .error .typeError

/-- `_dimension_declaration` of the value of a key. -/
def dimensionAt (key : String) : Members → Except Exn DimensionRecord
  | [] => .error (.keyError key)
  | (name, value) :: members =>
    if name = ofString key then dimensionDeclaration value else dimensionAt key members

/-- `_dimension_declaration` of each operand. -/
def operandsAt : Members → Except Exn (List DimensionRecord)
  | [] => .error (.keyError "operands")
  | (name, value) :: members =>
    if name = ofString "operands" then
      match value with
      | .arr items => dimensionDeclarations items
      | _ => .error .typeError
    else operandsAt members

/-- `_dimension_declaration` of each item. -/
def dimensionDeclarations : List Document → Except Exn (List DimensionRecord)
  | [] => .ok []
  | value :: values => do
    let first ← dimensionDeclaration value
    return first :: (← dimensionDeclarations values)
end

/-- The dtype in `_output_declaration`. -/
def dtypeDeclaration (dtype : Document) : Except Exn DTypeRecord := do
  let kind ← str (← item dtype "kind")
  if kind = ofString "fixed" then return ⟨kind, .plain (← item dtype "value")⟩
  else if kind = ofString "input" then return ⟨kind, .plain (.int (← int (← item dtype "input")))⟩
  else if kind = ofString "variable" then return ⟨kind, .plain (← item dtype "variable")⟩
  else
    let input ← int (← item dtype "input")
    return ⟨kind, .promotion input (← int (← item dtype "scalar"))⟩

/-- The shape in `_output_declaration`, with its kind. -/
def shapeDeclaration (same dimensions : Document) : Except Exn (String × ShapeRecord) :=
  if isNull same = false then do
    return ("sameShapeAsInput", .input (← int same))
  else do
    return ("dimensions", .dimensions (← dimensionDeclarations (← tuple dimensions)))

/-- `_output_declaration`. -/
def outputDeclaration (value : Document) : Except Exn OutputRecord := do
  if isText (← item value "allocation") "dynamic" then
    return ⟨← str (← item value "name"), none⟩
  else
    match ← item value "dtype" with
    | .obj members => do
      let dtype ← dtypeDeclaration (.obj members)
      let (kind, shape) ← shapeDeclaration (← item value "same_shape_as_input")
        (← item value "dimensions")
      return ⟨← str (← item value "name"), some ⟨kind, shape, dtype⟩⟩
    | _ => .error .assertionError

/-- A tensor input in `_operation_declaration`. -/
def tensorDeclaration (value : Document) : Except Exn TensorRecord := do
  let name ← str (← item value "name")
  let access ← item value "access"
  let dtypeVariable ← item value "dtype_variable"
  return ⟨name, if isText access "read_write" then "readWrite" else "readOnly", dtypeVariable,
    ← tuple (← item value "dtypes")⟩

/-- A tensor output in `_operation_declaration`. -/
def tensorOutputDeclaration (value : Document) : Except Exn TensorRecord := do
  return ⟨← str (← item value "name"), "readOnly", .null, []⟩

/-- A scalar in `_operation_declaration`. -/
def scalarDeclaration (value : Document) : Except Exn ScalarRecord := do
  let name ← str (← item value "name")
  let kind ← str (← item value "kind")
  let required ← bool (← item value "required")
  let default ← item value "default"
  let enumName ← item value "enum"
  return ⟨name, kind, required, default, enumName, ← tuple (← item value "enum_values")⟩

/-- A dtype variable in `_operation_declaration`. -/
def dtypeVariableDeclaration (value : Document) : Except Exn DTypeVariableRecord := do
  return ⟨← str (← item value "name"), ← tuple (← item value "dtypes")⟩

/-- The gradient in `_operation_declaration`. -/
def vjpDeclaration : Document → Except Exn (Option VjpRecord)
  | .obj members => do
    let value : Document := .obj members
    let operationId ← int (← item value "operation_id")
    let savedInputs ← tuple (← item value "saved_inputs")
    let savedOutputs ← tuple (← item value "saved_outputs")
    let outputCotangents ← tuple (← item value "output_cotangents")
    let inputGradients ← tuple (← item value "input_gradients")
    return some ⟨operationId, savedInputs, savedOutputs, outputCotangents, inputGradients,
      ← tuple (← item value "scalar_parameters")⟩
  | _ => .ok none

/-- `_operation_declaration`. -/
def operationDeclaration (value : Document) : Except Exn OperationRecord := do
  match ← item value "outputs" with
  | .arr outputs => do
    let vjp ← vjpDeclaration (← item value "vjp")
    let name ← str (← item value "name")
    let tensorInputs ← (← tuple (← item value "inputs")).mapM tensorDeclaration
    let tensorOutputs ← outputs.mapM tensorOutputDeclaration
    let scalarParameters ← (← tuple (← item value "scalars")).mapM scalarDeclaration
    let operationId ← int (← item value "operation_id")
    let outputPlans ← outputs.mapM outputDeclaration
    let internal ← bool (← item value "internal")
    let dtypeVariables ← (← tuple (← item value "dtype_variables")).mapM dtypeVariableDeclaration
    return { name, tensorInputs, tensorOutputs, scalarParameters, operationId, outputPlans, vjp,
             internal, dtypeVariables }
  | _ => .error .assertionError

/-- `_metadata_from_declarations`. -/
def metadataFromDeclarations (declarations : Document) : Except Exn (List OperationRecord) := do
  (← tuple declarations).mapM operationDeclaration

/-! ### The metadata of the runtime in the same classes -/

mutual
/-- A `DimensionExpression`. -/
def dimensionRecord : Invocation.DimensionExpression → DimensionRecord
  | .constant value => .int (ofString "constant") value
  | .inputAxis input axis => .inputAxis (ofString "inputAxis") input axis
  | .minimum values => .tuple (ofString "minimum") (dimensionRecords values)
  | .select scalarParameter whenTrue whenFalse =>
    .select (ofString "select") scalarParameter (dimensionRecord whenTrue)
      (dimensionRecord whenFalse)

/-- The dimensions of a list. -/
def dimensionRecords : List Invocation.DimensionExpression → List DimensionRecord
  | [] => []
  | dimension :: dimensions => dimensionRecord dimension :: dimensionRecords dimensions
end

/-- A `DTypeExpression`. -/
def dtypeRecord (dtype : Invocation.DTypeExpression) : DTypeRecord where
  kind := ofString (dtypeKind dtype)
  value :=
    match dtype with
    | .fixed name => .plain (.string name)
    | .input index => .plain (.int index)
    | .dtypeVariable name => .plain (.string name)
    | .promoteTensorScalar tensorInput scalarParameter =>
      .promotion tensorInput scalarParameter

/-- A `KnownOutput`. -/
def knownRecord (known : Invocation.KnownOutput) : KnownRecord :=
  match known.shape with
  | .sameShapeAsInput input => ⟨"sameShapeAsInput", .input input, dtypeRecord known.dtype⟩
  | .dimensions values =>
    ⟨"dimensions", .dimensions (dimensionRecords values), dtypeRecord known.dtype⟩

/-- An `OutputPlan`. -/
def outputRecord (plan : Invocation.OutputPlan) : OutputRecord where
  name := ofString plan.name
  known := plan.known.map knownRecord

/-- A `TensorParameter`. -/
def tensorRecord (parameter : Invocation.TensorParameter) : TensorRecord where
  name := ofString parameter.name
  access := parameter.access
  dtypeVariable := orNull .string parameter.dtypeVariable
  dtypes := parameter.dtypes.map .string

/-- A `ScalarParameter`. -/
def scalarRecord (scalar : Invocation.ScalarParameter) : ScalarRecord where
  name := ofString scalar.name
  kind := ofString scalar.kind
  required := scalar.required
  default := orNull valueDocument scalar.default
  enumName := orNull .string scalar.enumName
  enumValues := scalar.enumValues.map .str

/-- A `DTypeVariable`. -/
def dtypeVariableRecord (declared : Invocation.DTypeVariable) : DTypeVariableRecord where
  name := ofString declared.name
  dtypes := declared.dtypes.map .string

/-- A `VjpMetadata`. -/
def vjpRecord (vjp : VjpMetadata) : VjpRecord where
  operationId := vjp.operationId
  savedInputs := vjp.savedInputs.map .int
  savedOutputs := vjp.savedOutputs.map .int
  outputCotangents := vjp.outputCotangents.map .int
  inputGradients := vjp.inputGradients.map .int
  scalarParameters := vjp.scalarParameters.map .int

/-- An `OperationMetadata`. -/
def record (operation : OperationMetadata) : OperationRecord where
  name := ofString operation.name
  tensorInputs := operation.tensorInputs.map tensorRecord
  tensorOutputs := operation.tensorOutputs.map tensorRecord
  scalarParameters := operation.scalarParameters.map scalarRecord
  operationId := operation.operationId
  outputPlans := operation.outputPlans.map outputRecord
  vjp := operation.vjp.map vjpRecord
  internal := operation.internal
  dtypeVariables := operation.dtypeVariables.map dtypeVariableRecord

/-! ### What the worker reads from the declarations -/

/-- A member of a document that the compiler writes. -/
@[simp] theorem item_object (members : List (String × Document)) (key : String) :
    item (.object members) key = (members.lookup key).elim (.error (.keyError key)) .ok := by
  rw [Document.object, item]
  simp only [Document.get?_membersOf]
  cases members.lookup key <;> rfl

/-- The same of its members. -/
@[simp] theorem item_membersOf (members : List (String × Document)) (key : String) :
    item (.obj (membersOf members)) key =
      (members.lookup key).elim (.error (.keyError key)) .ok :=
  item_object members key

/-- A literal is a text. -/
@[simp] theorem str_string (s : String) : str (.string s) = .ok (ofString s) := rfl

/-- An identifier is a text. -/
@[simp] theorem str_identifier (identifier : Compiler.Identifier) :
    str (Compiler.identifierDocument identifier) = .ok (ofString identifier.name) := rfl

/-- A dimension in a member of a document that the compiler writes. -/
@[simp] theorem dimensionAt_membersOf (members : List (String × Document)) (key : String) :
    dimensionAt key (membersOf members) =
      (members.lookup key).elim (.error (.keyError key)) dimensionDeclaration := by
  induction members with
  | nil => rfl
  | cons member members ih =>
    obtain ⟨name, value⟩ := member
    show dimensionAt key ((ofString name, value) :: membersOf members) = _
    rw [dimensionAt, ih, Document.lookup_cons_ite]
    by_cases h : key = name
    · rw [if_pos (by rw [h]), if_pos h]
      rfl
    · rw [if_neg fun heq => h (Utf8.ofString_inj.mp heq).symm, if_neg h]

/-- The operands in a member of a document that the compiler writes. -/
theorem operandsAt_membersOf {members : List (String × Document)} {items : List Document}
    (h : members.lookup "operands" = some (.arr items)) :
    operandsAt (membersOf members) = dimensionDeclarations items := by
  induction members with
  | nil => cases h
  | cons member members ih =>
    obtain ⟨name, value⟩ := member
    show operandsAt ((ofString name, value) :: membersOf members) = _
    rw [Document.lookup_cons_ite] at h
    by_cases heq : "operands" = name
    · rw [if_pos heq] at h
      cases h
      rw [operandsAt, if_pos (by rw [heq])]
    · rw [if_neg heq] at h
      have hname : ofString name ≠ ofString "operands" :=
        fun hof => heq (Utf8.ofString_inj.mp hof).symm
      unfold operandsAt
      rw [if_neg hname]
      exact ih h

mutual
/-- The worker reads the dimensions that the runtime reads. -/
theorem dimensionDeclaration_dimensionDocument : ∀ value : Compiler.Dimension,
    dimensionDeclaration (Compiler.dimensionDocument value) =
      .ok (dimensionRecord (dimensionMetadata value))
  | .constant value h => by
    rw [Compiler.dimensionDocument, Document.object, dimensionDeclaration]
    simp [Result.ok_bind, dimensionMetadata, dimensionRecord, int]
  | .inputAxis input axis => by
    rw [Compiler.dimensionDocument, Document.object, dimensionDeclaration]
    simp [Result.ok_bind, dimensionMetadata, dimensionRecord, int, Utf8.ofString_inj]
  | .minimum first second rest => by
    have hfirst := dimensionDeclaration_dimensionDocument first
    have hsecond := dimensionDeclaration_dimensionDocument second
    have hrest := dimensionDeclarations_dimensionsDocument rest
    rw [Compiler.dimensionDocument, Document.object, dimensionDeclaration,
      operandsAt_membersOf (by simp; rfl), dimensionDeclarations, dimensionDeclarations, hfirst,
      hsecond, hrest]
    simp [Result.ok_bind, dimensionMetadata, dimensionRecord, dimensionRecords, Utf8.ofString_inj]
  | .select scalar whenTrue whenFalse => by
    have htrue := dimensionDeclaration_dimensionDocument whenTrue
    have hfalse := dimensionDeclaration_dimensionDocument whenFalse
    rw [Compiler.dimensionDocument, Document.object, dimensionDeclaration]
    simp [Result.ok_bind, dimensionMetadata, dimensionRecord, int, Utf8.ofString_inj, htrue,
      hfalse]

/-- What the worker reads of a list of dimensions. -/
theorem dimensionDeclarations_dimensionsDocument : ∀ values : List Compiler.Dimension,
    dimensionDeclarations (Compiler.dimensionsDocument values) =
      .ok (dimensionRecords (dimensionsMetadata values))
  | [] => rfl
  | value :: values => by
    have hfirst := dimensionDeclaration_dimensionDocument value
    have hrest := dimensionDeclarations_dimensionsDocument values
    rw [Compiler.dimensionsDocument, dimensionDeclarations, hfirst, hrest]
    rfl
end

/-- The dtype that the worker reads. Its kind is the tag of the compiler. -/
def workerDType : Compiler.DType → DTypeRecord
  | .input index => ⟨ofString "input", .plain (.int index)⟩
  | .fixed value => ⟨ofString "fixed", .plain (.str value.text)⟩
  | .variable name => ⟨ofString "variable", .plain (.string name.name)⟩
  | .promoteTensorScalar input scalar =>
    ⟨ofString "promote_tensor_scalar", .promotion input scalar⟩

/-- The output that the worker reads. -/
def workerOutput (output : Compiler.Output) : OutputRecord where
  name := ofString output.name.name
  known := output.known.map fun known =>
    { knownRecord (knownMetadata known) with dtype := workerDType known.dtype }

/-- The operation that the worker reads. -/
def workerOperation (operation : Compiler.Operation) : OperationRecord :=
  { record (operationMetadata operation) with
    outputPlans := operation.outputs.map workerOutput }

/-- What the worker reads of a dtype. -/
theorem dtypeDeclaration_dtypeDocument (value : Compiler.DType) :
    dtypeDeclaration (Compiler.dtypeDocument value) = .ok (workerDType value) := by
  cases value <;>
    simp [Compiler.dtypeDocument, dtypeDeclaration, Result.ok_bind, workerDType, int,
      Compiler.identifierDocument, Utf8.ofString_inj]

/-- What the worker reads of a shape. -/
theorem shapeDeclaration_shapeDocument (value : Compiler.Output) (known : Compiler.KnownOutput)
    (h : value.known = some known) :
    shapeDeclaration (orNull .int value.sameShapeAsInput)
      (.arr (Compiler.dimensionsDocument value.dimensions)) =
      .ok ((knownRecord (knownMetadata known)).shapeKind,
        (knownRecord (knownMetadata known)).shape) := by
  obtain ⟨declared, dtype⟩ := known
  cases declared with
  | dimensions values =>
    simp [shapeDeclaration, Compiler.Output.dimensions, Compiler.Output.sameShapeAsInput, h, isNull,
      tuple, Result.ok_bind, dimensionDeclarations_dimensionsDocument, knownRecord, knownMetadata,
      shapeMetadata]
  | sameShapeAsInput input =>
    simp [shapeDeclaration, Compiler.Output.sameShapeAsInput, h, isNull, int, knownRecord,
      knownMetadata, shapeMetadata]

/-- A literal is compared as a string. -/
theorem isText_string (s t : String) : isText (.string s) t = decide (s = t) := by
  show decide (ofString s = ofString t) = _
  rw [decide_eq_decide]
  exact Utf8.ofString_inj

/-- What the worker reads of an output. -/
theorem outputDeclaration_outputDocument (value : Compiler.Output) :
    outputDeclaration (Compiler.outputDocument value) = .ok (workerOutput value) := by
  rw [Compiler.outputDocument, outputDeclaration]
  cases hknown : value.known with
  | none => simp [Result.ok_bind, isText_string, workerOutput, hknown]
  | some known =>
    have hdtype := dtypeDeclaration_dtypeDocument known.dtype
    have hshape := shapeDeclaration_shapeDocument value known hknown
    obtain ⟨members, hmembers⟩ : ∃ members, Compiler.dtypeDocument known.dtype = .obj members := by
      cases known.dtype <;> exact ⟨_, rfl⟩
    rw [hmembers] at hdtype
    simp [Result.ok_bind, isText_string, Compiler.Output.dtype, hknown, hmembers, hdtype, hshape,
      workerOutput]

/-- The worker reads an input back. -/
theorem tensorDeclaration_tensorDocument (tensor : Compiler.TensorParameter) :
    tensorDeclaration (Compiler.tensorDocument tensor) =
      .ok (tensorRecord (tensorMetadata tensor)) := by
  have haccess : (if isText (.string tensor.access.name) "read_write" then "readWrite"
      else "readOnly") = Compiler.metadataAccess tensor.access := by
    rw [isText_string]
    cases tensor.access <;> rfl
  rw [Compiler.tensorDocument, tensorDeclaration]
  simp [Result.ok_bind, tuple, Document.strings, haccess, ← orNull_identifier]
  rfl

/-- The worker reads the tensor of an output back. -/
theorem tensorOutputDeclaration_outputDocument (output : Compiler.Output) :
    tensorOutputDeclaration (Compiler.outputDocument output) =
      .ok (tensorRecord ⟨output.name.name, "readOnly", none, []⟩) := by
  rw [Compiler.outputDocument, tensorOutputDeclaration]
  simp [Result.ok_bind]
  rfl

/-- The worker reads a scalar back. -/
theorem scalarDeclaration_scalarDocument (scalar : Compiler.ScalarParameter) :
    scalarDeclaration (Compiler.scalarDocument scalar) =
      .ok (scalarRecord (scalarMetadata scalar)) := by
  rw [Compiler.scalarDocument, scalarDeclaration]
  simp [Result.ok_bind, bool, tuple, Compiler.identifiersDocument, ← orNull_identifier,
    ← defaultDocument_metadata, scalarRecord, scalarMetadata]
  intro value _
  rfl

/-- The worker reads a dtype variable back. -/
theorem dtypeVariableDeclaration_dtypeVariableDocument (declared : Compiler.DTypeVariable) :
    dtypeVariableDeclaration (Compiler.dtypeVariableDocument declared) =
      .ok (dtypeVariableRecord (dtypeVariableMetadata declared)) := by
  rw [Compiler.dtypeVariableDocument, dtypeVariableDeclaration]
  simp [Result.ok_bind, tuple, Document.strings]
  rfl

/-- The worker reads a VJP back. -/
theorem vjpDeclaration_vjpDocument (vjp : Option Compiler.Vjp) :
    vjpDeclaration (orNull Compiler.vjpDocument vjp) =
      .ok ((vjp.map vjpMetadata).map vjpRecord) := by
  cases vjp with
  | none => rfl
  | some vjp =>
    rw [Document.orNull_some, Compiler.vjpDocument, Document.object, vjpDeclaration]
    simp [Result.ok_bind, int, tuple, Document.ints]
    rfl

/-- The worker reads an operation from the document that the compiler writes. -/
theorem operationDeclaration_operationDocument (operation : Compiler.Operation) :
    operationDeclaration (Compiler.operationDocument operation) =
      .ok (workerOperation operation) := by
  rw [Compiler.operationDocument, operationDeclaration]
  simp only [Result.ok_bind, item_object, Document.lookup_cons_ite, String.reduceEq, if_true,
    if_false, Option.elim_some, str_identifier, vjpDeclaration_vjpDocument, tuple, int, bool,
    Result.mapM_map_eq_ok fun tensor _ => tensorDeclaration_tensorDocument tensor,
    Result.mapM_map_eq_ok fun output _ => tensorOutputDeclaration_outputDocument output,
    Result.mapM_map_eq_ok fun scalar _ => scalarDeclaration_scalarDocument scalar,
    Result.mapM_map_eq_ok fun output _ => outputDeclaration_outputDocument output,
    Result.mapM_map_eq_ok fun declared _ =>
      dtypeVariableDeclaration_dtypeVariableDocument declared]
  show Except.ok _ = Except.ok _
  rw [workerOperation, record, operationMetadata]
  simp only [List.map_map]
  rfl

/-! ### Agreement -/

/-- A dtype promotes a tensor with a scalar. -/
def Promotes : Compiler.DType → Prop
  | .promoteTensorScalar _ _ => True
  | .input _ | .fixed _ | .variable _ => False

/-- The two decoders agree on a dtype exactly when it promotes nothing. -/
theorem workerDType_eq_iff {operation : Compiler.Operation} {dtype : Compiler.DType}
    (h : Compiler.validateDType operation dtype = .ok ()) :
    workerDType dtype = dtypeRecord (dtypeMetadata dtype) ↔ ¬ Promotes dtype := by
  cases dtype with
  | input index => exact iff_of_true rfl not_false
  | fixed value =>
    rw [Compiler.validateDType, raiseIf_ok_iff, not_not] at h
    have hname : Document.string (Utf8.toString value.text) = .str value.text := by
      rw [Document.string, ofString_toString_of_supported h]
    refine iff_of_true ?_ not_false
    show (⟨ofString "fixed", .plain (.str value.text)⟩ : DTypeRecord) =
      ⟨ofString "fixed", .plain (.string (Utf8.toString value.text))⟩
    rw [hname]
  | «variable» name => exact iff_of_true rfl not_false
  | promoteTensorScalar input scalar =>
    refine iff_of_false ?_ fun hnot => hnot trivial
    intro heq
    have hkind := congrArg DTypeRecord.kind heq
    simp only [workerDType, dtypeRecord, dtypeMetadata, dtypeKind, Utf8.ofString_inj] at hkind
    exact absurd hkind (by decide)

/-- The dtype in the record of a known output. -/
theorem knownRecord_dtype (known : Invocation.KnownOutput) :
    (knownRecord known).dtype = dtypeRecord known.dtype := by
  rw [knownRecord]
  cases known.shape <;> rfl

/-- The two decoders agree on an output exactly when its dtype promotes nothing. -/
theorem workerOutput_eq_iff {operation : Compiler.Operation} {output : Compiler.Output}
    (h : Compiler.validateOutputReferences operation output = .ok ()) :
    workerOutput output = outputRecord (outputMetadata output) ↔
      ∀ dtype ∈ output.dtype, ¬ Promotes dtype := by
  rw [Compiler.Output.dtype]
  cases hknown : output.known with
  | none =>
    refine iff_of_true ?_ (by simp)
    rw [workerOutput, outputRecord, outputMetadata, hknown]
    rfl
  | some known =>
    rw [Compiler.validateOutputReferences, hknown] at h
    obtain ⟨_, hdtype⟩ := Result.check_bind_ok_iff.mp h
    simp only [Option.map_some, Option.mem_some_iff, forall_eq']
    rw [← workerDType_eq_iff hdtype]
    constructor
    · intro heq
      have hfound := congrArg OutputRecord.known heq
      rw [workerOutput, outputRecord, outputMetadata, hknown] at hfound
      have hrecord := congrArg KnownRecord.dtype (Option.some.inj hfound)
      rw [knownRecord_dtype] at hrecord
      exact hrecord
    · intro heq
      have hrecord : (knownRecord (knownMetadata known)).dtype =
          dtypeRecord (dtypeMetadata known.dtype) := knownRecord_dtype (knownMetadata known)
      rw [workerOutput, outputRecord, outputMetadata, hknown]
      simp only [Option.map_some, heq, ← hrecord]

/-- The two decoders agree on an operation exactly when no dtype of its outputs promotes. -/
theorem workerOperation_eq_iff {operations : List Compiler.Operation}
    {operation : Compiler.Operation} (h : Compiler.OperationValid operations operation) :
    workerOperation operation = record (operationMetadata operation) ↔
      ∀ output ∈ operation.outputs, ∀ dtype ∈ output.dtype, ¬ Promotes dtype := by
  have houtputs : operation.outputs.map workerOutput =
      operation.outputs.map (outputRecord ∘ outputMetadata) ↔
      ∀ output ∈ operation.outputs, ∀ dtype ∈ output.dtype, ¬ Promotes dtype := by
    rw [List.map_inj_left]
    exact forall₂_congr fun output hmem => workerOutput_eq_iff (h.references output hmem)
  rw [← houtputs, ← List.map_map]
  constructor
  · intro heq
    exact congrArg OperationRecord.outputPlans heq
  · intro heq
    rw [workerOperation, heq]
    rfl

section
variable (floats : Json.FloatText)

end

/-- The source of an operation whose output has the promoted dtype of a tensor and a scalar. -/
def addScalarSource : Document :=
  .object [("id", .int 1), ("name", .string "add_scalar"),
    ("inputs", .arr [.object [("name", .string "x")]]),
    ("scalars", .arr [.object [("name", .string "term"), ("kind", .string "float64")]]),
    ("outputs", .arr [.object [("name", .string "y"), ("same_shape_as_input", .int 0),
      ("dtype", .object [("promote_tensor", .int 0), ("scalar", .int 0)])]])]

/-- The operation of `addScalarSource`. -/
def addScalarOperation : Compiler.Operation where
  operationId := 1
  name := ⟨"add_scalar", by decide⟩
  internal := false
  inputs := [⟨⟨"x", Compiler.isIdentifier_x⟩, .readOnly, .any⟩]
  outputs := [⟨⟨"y", Compiler.isIdentifier_y⟩, some ⟨.sameShapeAsInput 0, .promoteTensorScalar 0 0⟩⟩]
  scalars := [⟨⟨"term", by decide⟩, .float64 none⟩]
  vjp := none
  dtypeVariables := []

end Wmfs.Manifest.Declarations
