import Mathlib.Data.List.Sort
import Wmfs.Compiler.Model
import Wmfs.Lib.Result

/-!
# `Wmfs.Compiler.Parser`: reading an interface source

The functions of `wmfs_tool/parser.py` that read one object of a parsed TOML document each:
`_operation`, `_tensor`, `_scalar`, `_enum`, `_dtype_variable`, `_output`, `_dimension`, `_dtype`,
`_vjp` and `_lifecycle`, with the small readers under them (`_table`, `_keys`, `_required` and
so on). A `path` is the parameter `where` of the source.

A check that fails raises an `InterfaceError` with its path and its message. The other
exceptions of `Exn` are those that other functions of the parser may let through.
-/

set_option autoImplicit false

namespace Wmfs.Compiler

open Wmfs.Lib
open Wmfs.Lib.Utf8 (Text ofString)
open Wmfs.Lib.Document (Members get? contains hasKeys)

/-! ### Exceptions -/

/-- A piece of the text of an exception. What an f-string formats with `!r` is a piece of its
own. -/
inductive Part where
  | text (text : Text)
  | repr (text : Text)
  deriving DecidableEq

/-- A plain piece. -/
def Part.of (s : String) : Part := .text (ofString s)

/-- The exceptions that leave the parser. -/
inductive Exn where
  | interfaceError (message : List Part)
  | indexError
  | stopIteration
  | overflowError
  | typeError
  | valueError
  | recursionError
  deriving DecidableEq

/-- `str` of an integer raises `ValueError` from here on. -/
def exceedsDigits (n : Int) : Bool := 10 ^ 4300 ≤ n.natAbs

/-- The exception of `raise error` where the message of `error` formats `n`. -/
def formatting (n : Int) (error : Exn) : Exn := if exceedsDigits n then .valueError else error

/-- `_fail`. -/
def fail {α : Type} (path : Text) (message : List Part) : Except Exn α :=
  .error (.interfaceError (.text path :: .of ": " :: message))

/-- `if bad: _fail(path, message)`. -/
def failIf (bad : Prop) [Decidable bad] (path : Text) (message : List Part) : Except Exn Unit :=
  raiseIf bad (.interfaceError (.text path :: .of ": " :: message))

/-- A check passes when the fault is absent. -/
theorem failIf_ok_iff {bad : Prop} [Decidable bad] {path : Text} {message : List Part}
    {u : Unit} : failIf bad path message = .ok u ↔ ¬ bad := raiseIf_ok_iff

/-- The path of a field. -/
def field (path : Text) (name : String) : Text := path ++ ofString ("." ++ name)

/-- The path of an item. -/
def item (path : Text) (index : Nat) : Text := path ++ ofString ("[" ++ Nat.repr index ++ "]")

/-! ### Readers -/

/-- `sorted(names)`. -/
def sorted (names : List Text) : List Text := names.insertionSort fun a b => ¬ b < a

/-- `", ".join(names)`. -/
def joined (names : List Text) : Part := .text ((ofString ", ").intercalate names)

/-- `_keys`. -/
def keys (value : Members) (allowed : List String) (path : Text) : Except Exn Unit :=
  let unknown := sorted ((Document.keys value).filter fun key => key ∉ allowed.map ofString)
  failIf (unknown ≠ []) path [.of "unknown field(s): ", joined unknown]

/-- `_required`. -/
def required (value : Members) (name : String) (path : Text) : Except Exn Document :=
  match get? value name with
  | some found => .ok found
  | none => fail path [.of "missing required field ", .repr (ofString name)]

/-- A required field is found. -/
theorem required_ok_iff {value : Members} {name : String} {path : Text} {found : Document} :
    required value name path = .ok found ↔ get? value name = some found := by
  rw [required]
  cases get? value name <;> simp [fail]

/-- `_table`. -/
def table (value : Document) (path : Text) : Except Exn Members :=
  match value with
  | .obj members => .ok members
  | _ => fail path [.of "expected a table"]

/-- A table is read as it is. -/
theorem table_ok_iff {value : Document} {path : Text} {members : Members} :
    table value path = .ok members ↔ value = .obj members := by
  cases value <;> simp [table, fail]

/-- `_list`. -/
def list (value : Document) (path : Text) : Except Exn (List Document) :=
  match value with
  | .arr items => .ok items
  | _ => fail path [.of "expected an array"]

/-- A list is read as it is. -/
theorem list_ok_iff {value : Document} {path : Text} {items : List Document} :
    list value path = .ok items ↔ value = .arr items := by
  cases value <;> simp [list, fail]

/-- `_string`. -/
def string (value : Document) (path : Text) : Except Exn NonEmptyText :=
  match value with
  | .str text =>
    if h : text ≠ [] then .ok ⟨text, h⟩ else fail path [.of "expected a non-empty string"]
  | _ => fail path [.of "expected a non-empty string"]

/-- `_identifier`. -/
def identifier (value : Document) (path : Text) : Except Exn Identifier := do
  let result ← string value path
  if h : isIdentifier (Utf8.toString result.text) = true then
    -- The characters of an identifier are ASCII, so the string has the text it was made from.
    failIf (ofString (Utf8.toString result.text) ≠ result.text) path
      [.of "expected a portable identifier"]
    return ⟨Utf8.toString result.text, h⟩
  else fail path [.of "expected a portable identifier"]

/-- `_dotted_name`. -/
def dottedName (value : Document) (path : Text) : Except Exn NonEmptyText := do
  let result ← string value path
  let parts := (Utf8.toString result.text).splitToList (· = '.')
  failIf (∃ part ∈ parts, isIdentifier part = false) path [.of "must be a dotted Python module name"]
  return result

/-- `_integer`. -/
def integer (value : Document) (path : Text) : Except Exn Int :=
  match value with
  | .int n => .ok n
  | _ => fail path [.of "expected an integer"]

/-- An integer is read as it is. -/
theorem integer_ok_iff {value : Document} {path : Text} {n : Int} :
    integer value path = .ok n ↔ value = .int n := by
  cases value <;> simp [integer, fail]

/-- `_boolean`. -/
def boolean (value : Document) (path : Text) : Except Exn Bool :=
  match value with
  | .bool b => .ok b
  | _ => fail path [.of "expected a boolean"]

/-- `[read(item, f"{path}[{index}]") for index, item in enumerate(items)]`. -/
def mapItems {α : Type} (read : Document → Text → Except Exn α) (path : Text)
    (items : List Document) : Except Exn (List α) :=
  items.zipIdx.mapM fun entry => read entry.1 (item path entry.2)

/-! ### Dtypes, tensors and scalars -/

/-- `_dtypes`. -/
def dtypes (values : List Document) (path : Text) : Except Exn DTypes := do
  let values ← values.mapM fun value => string value path
  let names := values.map fun value => Utf8.toString value.text
  if h : names ≠ [] ∧ names.Nodup ∧ (∀ name ∈ names, name ∈ SUPPORTED_DTYPES) ∧
      names.map ofString = values.map NonEmptyText.text then
    return ⟨names, h.1, h.2.1, h.2.2.1⟩
  else fail path [.of "dtypes must be a unique non-empty supported set"]

/-- `_dtype_variable`. -/
def dtypeVariable (value : Document) (path : Text) : Except Exn DTypeVariable := do
  let item ← table value path
  keys item ["name", "dtypes"] path
  let name ← identifier (← required item "name" path) (field path "name")
  let values ← list (← required item "dtypes" path) (field path "dtypes")
  return ⟨name, ← dtypes values (field path "dtypes")⟩

/-- The value of `access`. -/
def access (item : Members) (path : Text) : Except Exn Access := do
  match get? item "access" with
  | none => return .readOnly
  | some value =>
    let spelled ← string value (field path "access")
    if spelled.text = ofString "read_only" then return .readOnly
    else if spelled.text = ofString "read_write" then return .readWrite
    else fail path [.of "access must be 'read_only' or 'read_write'"]

/-- The values of `fixed` or `one_of`. -/
def dtypeSet (values : Document) (path : Text) : Except Exn DTypes :=
  match values with
  | .arr values => dtypes values path
  | value => dtypes [value] path

/-- The `dtype` of a tensor. -/
def constraint (item : Members) (path : Text) : Except Exn Constraint := do
  match get? item "dtype" with
  | none => return .any
  | some value =>
    let body ← table value (field path "dtype")
    if hasKeys body ["variable"] then
      return .variable (← identifier (← required body "variable" path)
        (field (field path "dtype") "variable"))
    else if hasKeys body ["fixed"] then
      return .oneOf (← dtypeSet (← required body "fixed" path) (field path "dtype"))
    else if hasKeys body ["one_of"] then
      return .oneOf (← dtypeSet (← required body "one_of" path) (field path "dtype"))
    else fail path [.of "dtype must declare variable or a finite fixed set"]

/-- `_tensor`. -/
def tensor (value : Document) (path : Text) : Except Exn TensorParameter := do
  let item ← table value path
  keys item ["name", "access", "dtype"] path
  let access ← access item path
  let constraint ← constraint item path
  return ⟨← identifier (← required item "name" path) (field path "name"), access, constraint⟩

/-- `_enum`. -/
def enum (value : Document) (path : Text) : Except Exn Enum := do
  let item ← table value path
  keys item ["name", "values"] path
  let raw ← list (← required item "values" path) (field path "values")
  let values ← raw.mapM fun value => identifier value (field path "values")
  if h : values ≠ [] ∧ values.Nodup then
    return ⟨← identifier (← required item "name" path) (field path "name"), values, h.1, h.2⟩
  else fail path [.of "enum values must be non-empty and unique"]

/-- The kind of a scalar: the spelling of a plain kind, or the name of an enum. -/
def scalarKind (item : Members) (path : Text) : Except Exn (String ⊕ Identifier) := do
  match ← required item "kind" path with
  | .obj rawKind =>
    keys rawKind ["enum"] (field path "kind")
    return .inr (← identifier (← required rawKind "enum" path) (field (field path "kind") "enum"))
  | rawKind =>
    let kind ← string rawKind (field path "kind")
    if kind.text = ofString "enum" then
      return .inr (← identifier (← required item "enum" path) (field path "enum"))
    else if kind.text = ofString "boolean" then return .inl "boolean"
    else if kind.text = ofString "float64" then return .inl "float64"
    else if kind.text = ofString "int64" then return .inl "int64"
    else if kind.text = ofString "text" then return .inl "text"
    else fail path [.of "unknown scalar kind ", .repr kind.text]

/-- The declaration that `{item.name: item for item in enums}` has for a name: the last one. -/
def declarationOf (enums : List Enum) (name : Identifier) : Option Enum :=
  enums.reverse.find? fun declaration => declaration.name = name

/-- The default of an enum scalar. -/
def enumDefault (declaration : Enum) (default : Option Document) (path : Text) :
    Except Exn (Option { value // value ∈ declaration.values }) :=
  match default with
  | none => .ok none
  | some default =>
    let isDefault : { value // value ∈ declaration.values } → Bool := fun value =>
      match default with
      | .str text => text = ofString value.val.name
      | _ => false
    match declaration.values.attach.find? isDefault with
    | some value => .ok (some value)
    | none => fail path [.of "default is not a member of enum ",
        .repr (ofString declaration.name.name)]

/-- The type of a plain scalar. Its default has the Python type of its kind exactly. -/
def plainType (kind : String) (default : Option Document) (path : Text) :
    Except Exn ScalarType :=
  let mismatch := fail path [.of "default does not match scalar kind ", .repr (ofString kind)]
  match kind with
  | "boolean" =>
    match default with
    | none => .ok (.boolean none)
    | some (.bool b) => .ok (.boolean (some b))
    | _ => mismatch
  | "float64" =>
    match default with
    | none => .ok (.float64 none)
    | some (.float bits) => .ok (.float64 (some bits))
    | _ => mismatch
  | "int64" =>
    match default with
    | none => .ok (.int64 none)
    | some (.int n) => .ok (.int64 (some n))
    | _ => mismatch
  | "text" =>
    match default with
    | none => .ok (.text none)
    | some (.str text) => .ok (.text (some text))
    | _ => mismatch
  | _ => mismatch

/-- A plain scalar has a type, or its default is refused. -/
theorem plainType_cases (kind : String) (default : Option Document) (path : Text) :
    (∃ type, plainType kind default path = .ok type) ∨
      plainType kind default path =
        fail path [.of "default does not match scalar kind ", .repr (ofString kind)] := by
  unfold plainType
  dsimp only
  -- The kind first, then the default of each known kind.
  split <;> (try split) <;> first | exact .inl ⟨_, rfl⟩ | exact .inr rfl

/-- `_scalar`. -/
def scalar (enums : List Enum) (value : Document) (path : Text) :
    Except Exn ScalarParameter := do
  let item ← table value path
  keys item ["name", "kind", "required", "default", "enum"] path
  let kind ← scalarKind item path
  let isRequired ← (get? item "required").elim (.ok true) fun value =>
    boolean value (field path "required")
  let default := get? item "default"
  failIf (isRequired ∧ default.isSome) path [.of "required scalar cannot have a default"]
  failIf (¬ isRequired ∧ default.isNone) path [.of "optional scalar requires a default"]
  let type ← match kind with
    | .inl kind => plainType kind default path
    | .inr name =>
      match declarationOf enums name with
      | none => fail path [.of "references unknown enum ", .repr (ofString name.name)]
      | some declaration => do
        let default ← enumDefault declaration default path
        Except.ok (ScalarType.enum declaration default)
  return ⟨← identifier (← required item "name" path) (field path "name"), type⟩

/-! ### Outputs -/

mutual
/-- `_dimension`. -/
def dimension (path : Text) : Document → Except Exn Dimension
  | .obj [(kind, body)] =>
    if kind = ofString "constant" then do
      let constant ← integer body (field path "constant")
      if h : 0 < constant then return .constant constant h
      else fail path [.of "constant dimension must be positive"]
    else
      match body with
      | .obj members =>
        if kind = ofString "input_axis" then do
          keys members ["input", "axis"] path
          let input ← integer (← required members "input" path) path
          return .inputAxis input (← integer (← required members "axis" path) path)
        else if kind = ofString "minimum" then do
          keys members ["values"] path
          match ← dimensionsAt path "values" members with
          | first :: second :: rest => return .minimum first second rest
          | _ => fail path [.of "minimum requires at least two values"]
        else if kind = ofString "select" then do
          keys members ["scalar", "when_true", "when_false"] path
          let scalar ← integer (← required members "scalar" path) path
          let whenTrue ← dimensionAt path "when_true" members
          return .select scalar whenTrue (← dimensionAt path "when_false" members)
        else fail path [.of "unknown dimension expression ", .repr kind]
      | _ => fail (path ++ ofString "." ++ kind) [.of "expected a table"]
  | .obj _ => fail path [.of "dimension must contain exactly one expression"]
  | _ => fail path [.of "expected a table"]

/-- `_dimension` of a required field. -/
def dimensionAt (path : Text) (name : String) : Members → Except Exn Dimension
  | [] => fail path [.of "missing required field ", .repr (ofString name)]
  | (key, value) :: members =>
    if key = ofString name then dimension (field path name) value
    else dimensionAt path name members

/-- The operands of `minimum`. -/
def dimensionsAt (path : Text) (name : String) : Members → Except Exn (List Dimension)
  | [] => fail path [.of "missing required field ", .repr (ofString name)]
  | (key, value) :: members =>
    if key = ofString name then
      match value with
      | .arr items =>
        if items.length < 2 then fail path [.of "minimum requires at least two values"]
        else dimensions (field path "minimum") 0 items
      | _ => fail path [.of "expected an array"]
    else dimensionsAt path name members

/-- `_dimension` of each item, from the item with this index on. -/
def dimensions (path : Text) (index : Nat) : List Document → Except Exn (List Dimension)
  | [] => .ok []
  | value :: values => do
    let first ← dimension (item path index) value
    return first :: (← dimensions path (index + 1) values)
end

/-- `_dtype`. -/
def dtype (value : Document) (path : Text) : Except Exn DType := do
  let item ← table value path
  if hasKeys item ["input"] then
    return .input (← integer (← required item "input" path) (field path "input"))
  else if hasKeys item ["fixed"] then
    return .fixed (← string (← required item "fixed" path) (field path "fixed"))
  else if hasKeys item ["variable"] then
    return .variable (← identifier (← required item "variable" path) (field path "variable"))
  else if hasKeys item ["promote_tensor", "scalar"] then
    let input ← integer (← required item "promote_tensor" path) path
    return .promoteTensorScalar input (← integer (← required item "scalar" path) path)
  else fail path [.of "dtype must be input, variable, fixed, or promote_tensor plus scalar"]

/-- The shape of a known output, and its `dtype`, which is read later. -/
def knownShape (item : Members) (path : Text) : Except Exn (Shape × Document) :=
  match get? item "dimensions", get? item "same_shape_as_input", get? item "dtype" with
  | some values, none, some dtype => do
    let values ← list values (field path "dimensions")
    return (.dimensions (← dimensions (field path "dimensions") 0 values), dtype)
  | none, some input, some dtype => do
    return (.sameShapeAsInput (← integer input (field path "same_shape_as_input")), dtype)
  | _, _, _ => fail path [.of "known output requires exactly one shape and a dtype"]

/-- `_output`. -/
def output (value : Document) (path : Text) : Except Exn Output := do
  let item ← table value path
  keys item ["name", "dynamic", "dimensions", "same_shape_as_input", "dtype"] path
  let dynamic ← (get? item "dynamic").elim (.ok false) fun value =>
    boolean value (field path "dynamic")
  if dynamic then
    failIf (contains item "dimensions" ∨ contains item "same_shape_as_input" ∨
        contains item "dtype") path [.of "dynamic output cannot declare a shape or dtype"]
    return ⟨← identifier (← required item "name" path) (field path "name"), none⟩
  else
    let (shape, value) ← knownShape item path
    let name ← identifier (← required item "name" path) (field path "name")
    return ⟨name, some ⟨shape, ← dtype value (field path "dtype")⟩⟩

/-! ### Operations -/

/-- The list of a field, which is empty when the field is missing. -/
def listField (value : Members) (name : String) (path : Text) : Except Exn (List Document) :=
  match get? value name with
  | none => .ok []
  | some value => list value (field path name)

/-- `indexes` of `_vjp`. -/
def indexes (item : Members) (path : Text) (name : String) : Except Exn (List Int) := do
  let values ← listField item name path
  values.mapM fun value => integer value (field path name)

/-- `_vjp`. -/
def vjp (value : Document) (path : Text) : Except Exn Vjp := do
  let item ← table value path
  keys item ["operation_id", "saved_inputs", "saved_outputs", "output_cotangents",
    "input_gradients", "scalar_parameters"] path
  let operationId ← integer (← required item "operation_id" path) (field path "operation_id")
  let savedInputs ← indexes item path "saved_inputs"
  let savedOutputs ← indexes item path "saved_outputs"
  let outputCotangents ← indexes item path "output_cotangents"
  let inputGradients ← indexes item path "input_gradients"
  let scalarParameters ← indexes item path "scalar_parameters"
  return ⟨operationId, savedInputs, savedOutputs, outputCotangents, inputGradients,
    scalarParameters⟩

/-- `_operation`. -/
def operation (enums : List Enum) (value : Document) (path : Text) : Except Exn Operation := do
  let item ← table value path
  keys item ["id", "name", "internal", "inputs", "outputs", "scalars", "vjp", "dtype_variables"]
    path
  let inputs ← listField item "inputs" path
  let outputs ← list (← required item "outputs" path) (field path "outputs")
  let scalars ← listField item "scalars" path
  let declared ← listField item "dtype_variables" path
  let dtypeVariables ← mapItems dtypeVariable (field path "dtype_variables") declared
  let operationId ← integer (← required item "id" path) (field path "id")
  let name ← identifier (← required item "name" path) (field path "name")
  let internal ← (get? item "internal").elim (.ok false) fun value =>
    boolean value (field path "internal")
  let inputs ← mapItems tensor (field path "inputs") inputs
  let outputs ← mapItems output (field path "outputs") outputs
  let scalars ← mapItems (scalar enums) (field path "scalars") scalars
  let vjp ← (get? item "vjp").elim (.ok none) fun value =>
    (vjp value (field path "vjp")).map some
  return ⟨operationId, name, internal, inputs, outputs, scalars, vjp, dtypeVariables⟩

/-- `_lifecycle`. -/
def lifecycle (value : Document) : Except Exn Lifecycle := do
  let path := ofString "interface.lifecycle"
  let item ← table value path
  keys item ["initialize", "shutdown"] path
  let initializeHook ← (get? item "initialize").elim (.ok false) fun value =>
    boolean value (field path "initialize")
  let shutdownHook ← (get? item "shutdown").elim (.ok false) fun value =>
    boolean value (field path "shutdown")
  return ⟨initializeHook, shutdownHook⟩

end Wmfs.Compiler
