import Wmfs.Compiler.Parser
import Wmfs.Lib.Json
import Wmfs.Lib.Result

/-!
# `Wmfs.Configuration.Model`: configuration schemas of the runtime

`_validate_schema`, `_validate_value` and `_validate_scalar` of `wmfs/configuration.py`, with the
readers under them. `Wmfs.Configuration.Canonical` has `validate_and_canonicalize`.

A schema is a document that the runtime has read from a manifest, and its kind is one of the
kinds of the compiler. `validateSchema` takes the document of the schema: the check by `_object`
that stands before each call of `_validate_schema` is its first step. A `path` is the parameter
`where` of the source.

`_validate_value` reads a schema that `_validate_schema` has accepted. Where it would read
something else, the model raises `typeError` or `keyError` without the text of Python.
-/

set_option autoImplicit false

namespace Wmfs.Configuration

open Wmfs.Lib
open Wmfs.Lib.Utf8 (Text ofString)
open Wmfs.Lib.Document (Members get? contains number? scalarEq length?)
open Wmfs.Compiler (ConfigurationKind ConfigurationScalarKind sorted)

/-! ### Exceptions -/

/-- A piece of the text of an exception. -/
inductive Part where
  | text (text : Text)
  | repr (name : Text)
  | reprs (names : List Text)
  deriving DecidableEq

/-- The exceptions that leave the validators. -/
inductive Exn where
  | valueError (message : List Part)
  | keyError
  | typeError
  deriving DecidableEq

/-- `raise ValueError(f"{path}{message}")`. -/
def fail {α : Type} (path : Text) (message : String) : Except Exn α :=
  .error (.valueError [.text path, .text (ofString message)])

/-- `if bad: raise ValueError(f"{path}{message}")`. -/
def failIf (bad : Prop) [Decidable bad] (path : Text) (message : String) : Except Exn Unit :=
  raiseIf bad (.valueError [.text path, .text (ofString message)])

/-- The path of a field. -/
def field (path : Text) (name : Text) : Text := path ++ ofString "." ++ name

/-- The path of a named field. -/
def child (path : Text) (name : String) : Text := field path (ofString name)

/-! ### Readers -/

/-- `_object`. -/
def object (value : Option Document) (path : Text) : Except Exn Members :=
  match value with
  | some (.obj members) => .ok members
  | _ => fail path " must be an object"

/-- `_keys_optional`. -/
def keysOptional (value : Members) (allowed required : List String) (path : Text) :
    Except Exn Unit :=
  let missing := (required.filter fun key => ¬ contains value key).map ofString
  let unknown := (Document.keys value).filter fun key => key ∉ allowed.map ofString
  raiseIf (missing ≠ [] ∨ unknown ≠ []) (.valueError [.text path,
    .text (ofString " fields are invalid: missing="), .reprs (sorted missing),
    .text (ofString ", unknown="), .reprs (sorted unknown)])

/-- `_TYPES`. -/
def TYPES : List ConfigurationKind :=
  [.scalar .boolean, .scalar .integer, .scalar .number, .scalar .string, .array, .object]

/-- The kind of this name. -/
def kindNamed (name : Text) : Option ConfigurationKind :=
  TYPES.find? fun kind => ofString kind.name = name

/-! ### Scalars -/

/-- The value of `valid` in `_validate_scalar`. -/
def isScalar (value : Document) (kind : ConfigurationScalarKind) : Bool :=
  match kind, value with
  | .boolean, .bool _ => true
  | .integer, .int n => -(2 ^ 63) ≤ n ∧ n ≤ 2 ^ 63 - 1
  | .number, .int _ => true
  | .number, .float bits => Document.isFinite bits
  | .string, .str _ => true
  | _, _ => false

/-- `_validate_scalar`. -/
def validateScalar (value : Document) (kind : ConfigurationScalarKind) (path : Text) :
    Except Exn Unit :=
  failIf (isScalar value kind = false) path
    (" must be a " ++ (ConfigurationKind.scalar kind).name)

/-- `left < right`. -/
def lessThan (left right : Document) : Except Exn Bool :=
  match number? left, number? right with
  | some a, some b => .ok (a < b)
  | _, _ => .error .typeError

/-- `len(value)`. -/
def lengthOf (value : Document) : Except Exn Int :=
  match length? value with
  | some n => .ok n
  | none => .error .typeError

/-- `_equal`. Both values are scalars that a kind accepts. -/
def equal (left right : Document) : Bool := scalarEq left right

/-! ### Values -/

/-- `schema.get(name)`, when it is not `None`. -/
def present (schema : Members) (name : String) : Option Document :=
  match get? schema name with
  | some .null => none
  | found => found

/-- `if schema.get(name) is not None and bad(schema[name]): raise ValueError(...)`. -/
def failIfBound (schema : Members) (name : String) (bad : Document → Except Exn Bool)
    (path : Text) (message : String) : Except Exn Unit :=
  match present schema name with
  | none => .ok ()
  | some bound => do
    let isBad ← bad bound
    failIf (isBad = true) path message

/-- `len(value) < bound`. -/
def shorter (value bound : Document) : Except Exn Bool := do
  let n ← lengthOf value
  lessThan (.int n) bound

/-- `len(value) > bound`. -/
def longer (value bound : Document) : Except Exn Bool := do
  let n ← lengthOf value
  lessThan bound (.int n)

/-- The check of the enum in `_validate_value`. -/
def validateMember (schema : Members) (value : Document) (path : Text) : Except Exn Unit :=
  match present schema "enum" with
  | none => .ok ()
  | some (.arr candidates) =>
    failIf (candidates.any (equal value) = false) path " is not a member of its enum"
  | some _ => .error .typeError

/-- The checks at the end of `_validate_value`. -/
def validateFields (schema : Members) (value : Document) (path : Text) : Except Exn Unit := do
  validateMember schema value path
  failIfBound schema "minimum" (fun minimum => lessThan value minimum) path
    " is below its minimum"
  failIfBound schema "maximum" (fun maximum => lessThan maximum value) path
    " is above its maximum"
  failIfBound schema "minLength" (shorter value) path " is shorter than its minimum length"
  failIfBound schema "maxLength" (longer value) path " is longer than its maximum length"
  failIfBound schema "minItems" (shorter value) path " has fewer than its minimum items"
  failIfBound schema "maxItems" (longer value) path " has more than its maximum items"

/-- `schema["type"]`, as a kind. -/
def schemaKind (schema : Members) : Except Exn ConfigurationKind :=
  match get? schema "type" with
  | some (.str name) =>
    match kindNamed name with
    | some kind => .ok kind
    | none => .error .keyError
  | _ => .error .keyError

/-- `schema["properties"]`. -/
def schemaProperties (schema : Members) : Except Exn Members :=
  match get? schema "properties" with
  | some (.obj properties) => .ok properties
  | some _ => .error .typeError
  | none => .error .keyError

/-- `schema["required"]`. -/
def schemaRequired (schema : Members) : Except Exn (List Text) :=
  match get? schema "required" with
  | some (.arr items) => items.mapM fun item =>
    match item with
    | .str name => .ok name
    | _ => .error .typeError
  | some _ => .error .typeError
  | none => .error .keyError

/-- The two checks of `_validate_value` on the keys of an object. -/
def validateKeys (members properties : Members) (required : List Text) (path : Text) :
    Except Exn Unit := do
  let unknown := sorted ((Document.keys members).filter fun key => key ∉ Document.keys properties)
  raiseIf (unknown ≠ []) (.valueError [.text path, .text (ofString " has unknown field(s): "),
    .text ((ofString ", ").intercalate unknown)])
  let missing := sorted (required.dedup.filter fun key => key ∉ Document.keys members)
  raiseIf (missing ≠ []) (.valueError [.text path,
    .text (ofString " is missing required field(s): "),
    .text ((ofString ", ").intercalate missing)])

/-- `_validate_value`, where `check` is the branch for a kind. -/
def validateAs (schema : Members) (path : Text) (value : Document)
    (check : ConfigurationKind → Except Exn Unit) : Except Exn Unit := do
  let kind ← schemaKind schema
  check kind
  validateFields schema value path

mutual
/-- `_validate_value`. -/
def validateValue (schema : Members) (path : Text) : Document → Except Exn Unit
  | .obj members => validateAs schema path (.obj members) fun kind =>
    match kind with
    | .object => do
      let properties ← schemaProperties schema
      let required ← schemaRequired schema
      validateKeys members properties required path
      validateMembers properties path members
    | .array => fail path " must be an array"
    | .scalar kind => validateScalar (.obj members) kind path
  | .arr items => validateAs schema path (.arr items) fun kind =>
    match kind with
    | .object => fail path " must be an object"
    | .array => validateItems schema path 0 items
    | .scalar kind => validateScalar (.arr items) kind path
  | value => validateAs schema path value fun kind =>
    match kind with
    | .object => fail path " must be an object"
    | .array => fail path " must be an array"
    | .scalar kind => validateScalar value kind path

/-- `_validate_value` of each member of an object. -/
def validateMembers (properties : Members) (path : Text) : Members → Except Exn Unit
  | [] => .ok ()
  | (name, item) :: members =>
    (match properties.lookup name with
      | some (.obj schema) => validateValue schema (field path name) item
      | some _ => .error .typeError
      | none => .error .keyError) >>= fun _ =>
    validateMembers properties path members

/-- `_validate_value` of each item of an array, from the item with this index on. -/
def validateItems (schema : Members) (path : Text) (index : Nat) :
    List Document → Except Exn Unit
  | [] => .ok ()
  | item :: items =>
    (match get? schema "items" with
      | some (.obj items) =>
        validateValue items (path ++ ofString ("[" ++ Nat.repr index ++ "]")) item
      | some _ => .error .typeError
      | none => .error .keyError) >>= fun _ =>
    validateItems schema path (index + 1) items
end

/-! ### Schemas -/

/-- The fields that a schema of a kind may have. -/
def allowedFields (kind : ConfigurationKind) : List String :=
  ["type", "description", "default", "enum"] ++
    match kind with
    | .scalar .boolean => []
    | .scalar .integer | .scalar .number => ["minimum", "maximum"]
    | .scalar .string => ["minLength", "maxLength"]
    | .array => ["items", "minItems", "maxItems"]
    | .object => ["additionalProperties", "properties", "required"]

/-- The kind of a schema. A list or an object cannot be looked up in a set. -/
def readKind (schema : Members) (path : Text) : Except Exn ConfigurationKind :=
  match get? schema "type" with
  | some (.str name) =>
    match kindNamed name with
    | some kind => .ok kind
    | none => fail (child path "type") " is unsupported"
  | some (.arr _) | some (.obj _) => .error .typeError
  | _ => fail (child path "type") " is unsupported"

/-- The check of the description. -/
def validateDescription (schema : Members) (path : Text) : Except Exn Unit :=
  match present schema "description" with
  | none => .ok ()
  | some (.str text) =>
    failIf (text = []) (child path "description") " must be a non-empty string"
  | some _ => fail (child path "description") " must be a non-empty string"

/-- The check of `additionalProperties`. -/
def validateAdditional (schema : Members) (path : Text) : Except Exn Unit :=
  match get? schema "additionalProperties" with
  | some (.bool false) => .ok ()
  | _ => fail (child path "additionalProperties") " must be false"

/-- The names of the required properties. -/
def readRequired (schema : Members) (path : Text) : Except Exn (List Text) :=
  match get? schema "required" with
  | some (.arr items) => items.mapM fun item =>
    match item with
    | .str (point :: name) => .ok (point :: name)
    | _ => fail (child path "required") " must be an array of property names"
  | _ => fail (child path "required") " must be an array of property names"

/-- The check of the enum in `_validate_schema`. -/
def validateEnum (schema : Members) (kind : ConfigurationKind) (path : Text) : Except Exn Unit :=
  match get? schema "enum", kind with
  | none, _ => .ok ()
  | some (.arr (first :: rest)), .scalar kind => do
    forM (first :: rest) fun item => validateScalar item kind (child path "enum")
    failIf (¬ (first :: rest).Pairwise fun other item => equal item other = false)
      (child path "enum") " contains duplicate values"
  | _, _ => fail (child path "enum") " is invalid"

/-- The check of `minimum` or `maximum`. Only schemas of a numeric kind have them. -/
def validateNumber (kind : ConfigurationKind) (bound : Document) (path : Text) :
    Except Exn Unit :=
  match kind with
  | .scalar kind => validateScalar bound kind path
  | _ => .error .keyError

/-- The check of a bound on a length. -/
def validateCount (bound : Document) (path : Text) : Except Exn Unit :=
  match bound with
  | .int n => failIf (n < 0) path " must be a non-negative integer"
  | _ => fail path " must be a non-negative integer"

/-- `if bound is not None: check(bound)`. -/
def validateBound (schema : Members) (name : String) (check : Document → Text → Except Exn Unit)
    (path : Text) : Except Exn Unit :=
  match present schema name with
  | none => .ok ()
  | some bound => check bound (child path name)

/-- A pass of the loop over the bounds in `_validate_schema`. -/
def validateBounds (schema : Members) (lower upper : String)
    (check : Document → Text → Except Exn Unit) (path : Text) : Except Exn Unit := do
  validateBound schema lower check path
  validateBound schema upper check path
  match present schema lower, present schema upper with
  | some least, some most => do
    let inconsistent ← lessThan most least
    failIf (inconsistent = true) path " has inconsistent bounds"
  | _, _ => return ()

/-- The check of the default. -/
def validateDefault (root : Bool) (schema : Members) (path : Text) : Except Exn Unit :=
  match get? schema "default" with
  | none => .ok ()
  | some .null => fail (child path "default") " is invalid"
  | some default => do
    failIf (root = true) (child path "default") " is invalid"
    validateValue schema (child path "default") default

/-- A schema has a default. -/
def hasDefault : Document → Bool
  | .obj schema => contains schema "default"
  | _ => false

mutual
/-- `_validate_schema(_object(schema, where), where, root=root)`. -/
def validateSchema (root : Bool) (path : Text) : Document → Except Exn Unit
  | .obj schema => do
    let kind ← readKind schema path
    keysOptional schema (allowedFields kind) ["type"] path
    failIf (root = true ∧ kind ≠ .object) path " must describe an object"
    validateDescription schema path
    (match kind with
      | .object => do
        validateAdditional schema path
        let properties ← object (get? schema "properties") (child path "properties")
        let required ← readRequired schema path
        failIf (¬ required.Nodup ∨ ∃ name ∈ required, name ∉ Document.keys properties)
          (child path "required") " contains invalid property names"
        validatePropertiesAt required path schema
      | .array => validateItemsAt path schema
      | .scalar _ => .ok ())
    validateEnum schema kind path
    validateBounds schema "minimum" "maximum" (validateNumber kind) path
    validateBounds schema "minLength" "maxLength" validateCount path
    validateBounds schema "minItems" "maxItems" validateCount path
    validateDefault root schema path
  | _ => fail path " must be an object"

/-- The loop over the properties of a schema, found among its members. -/
def validatePropertiesAt (required : List Text) (path : Text) : Members → Except Exn Unit
  | [] => .ok ()
  | (key, .obj properties) :: members =>
    if key = ofString "properties" then validateProperties required path properties
    else validatePropertiesAt required path members
  | _ :: members => validatePropertiesAt required path members

/-- A pass of the loop over the properties and the passes after it. -/
def validateProperties (required : List Text) (path : Text) : Members → Except Exn Unit
  | [] => .ok ()
  | (name, schema) :: properties => do
    failIf (name = []) (child path "properties") " contains an invalid name"
    validateSchema false (field (child path "properties") name) schema
    failIf (name ∈ required ∧ hasDefault schema = true)
      (child (field (child path "properties") name) "default")
      " is invalid for a required property"
    validateProperties required path properties

/-- The schema of the items of an array, found among the members of its schema. -/
def validateItemsAt (path : Text) : Members → Except Exn Unit
  | [] => fail (child path "items") " must be an object"
  | (key, schema) :: members =>
    if key = ofString "items" then validateSchema false (child path "items") schema
    else validateItemsAt path members
end

end Wmfs.Configuration
