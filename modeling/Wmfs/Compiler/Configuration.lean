import Wmfs.Compiler.Parser
import Wmfs.Lib.Json

/-!
# `Wmfs.Compiler.Configuration`: the configuration of an interface

`_configuration` of `wmfs_tool/parser.py` with `_configuration_object`, `_configuration_property`
and the `_validate_configuration_...` functions, and the schema document of `_configuration_schema`
in `wmfs_tool/generator.py`.

The recursion of `_configuration_property` is over the depth that is left. The values of a
property (its default, its enum, its bounds) stay documents, as they are in the source.

The spelling of floats, `floats`, is a parameter. Only the size of a canonical text depends on
it.
-/

set_option autoImplicit false

namespace Wmfs.Compiler

open Wmfs.Lib
open Wmfs.Lib.Utf8 (Text ofString)
open Wmfs.Lib.Document (Members get? contains number? scalarEq length? membersOf)

/-- `CONFIGURATION_SCHEMA_VERSION`. -/
def CONFIGURATION_SCHEMA_VERSION : Int := 1

/-- `MAX_CONFIGURATION_DEPTH`. -/
def MAX_CONFIGURATION_DEPTH : Nat := 8

/-- `MAX_CONFIGURATION_PROPERTIES`. -/
def MAX_CONFIGURATION_PROPERTIES : Nat := 256

/-- `MAX_CONFIGURATION_SCHEMA_BYTES`. -/
def MAX_CONFIGURATION_SCHEMA_BYTES : Nat := 65536

/-- `MAX_CONFIGURATION_EXAMPLES`. -/
def MAX_CONFIGURATION_EXAMPLES : Nat := 32

/-- `MAX_CONFIGURATION_VALUE_BYTES`. -/
def MAX_CONFIGURATION_VALUE_BYTES : Nat := 65536

/-! ### Scalars -/

/-- `_INT64_MIN <= value <= _INT64_MAX`. -/
def inInt64 (n : Int) : Bool := -(2 ^ 63) ≤ n ∧ n ≤ 2 ^ 63 - 1

/-- `math.isfinite` cannot convert an integer from here on. -/
def exceedsFloat (n : Int) : Bool := 2 ^ 1024 - 2 ^ 970 ≤ n.natAbs

/-- The value of `valid` in `_validate_configuration_scalar`. -/
def isConfigurationScalar (value : Document) (kind : ConfigurationScalarKind) : Bool :=
  match kind, value with
  | .boolean, .bool _ => true
  | .integer, .int n => inInt64 n
  | .number, .int _ => true
  | .number, .float bits => Document.isFinite bits
  | .string, .str _ => true
  | _, _ => false

/-- `_validate_configuration_scalar`. The source computes the answers of all kinds before it
picks one, so `math.isfinite` sees every integer. -/
def validateConfigurationScalar (value : Document) (kind : ConfigurationScalarKind)
    (path : Text) : Except Exn Unit :=
  match value with
  | .int n =>
    if exceedsFloat n then .error .overflowError
    else failIf (isConfigurationScalar value kind = false) path
      [.of "expected ", .of (ConfigurationKind.scalar kind).name]
  | _ =>
    failIf (isConfigurationScalar value kind = false) path
      [.of "expected ", .of (ConfigurationKind.scalar kind).name]

/-- `left < right`. -/
def lessThan (left right : Document) : Except Exn Bool :=
  match number? left, number? right with
  | some a, some b => .ok (a < b)
  | _, _ => .error .typeError

/-- `len(value)`. -/
def lengthOf (value : Document) : Except Exn Int :=
  match length? value with
  | some n => .ok n
  | none => .error .typeError

/-- `_configuration_equal`. Both values are scalars that a kind accepts. -/
def configurationEqual (left right : Document) : Bool := scalarEq left right

/-! ### Values -/

/-- `if bound is not None and bad(bound): _fail(path, message)`. -/
def failIfBound {α : Type} (bound : Option α) (bad : α → Except Exn Bool) (path : Text)
    (message : String) : Except Exn Unit :=
  match bound with
  | none => .ok ()
  | some bound => do
    let isBad ← bad bound
    failIf (isBad = true) path [.of message]

/-- The checks at the end of `_validate_configuration_value`. -/
def validateFields (fields : ConfigurationFields) (value : Document) (path : Text) :
    Except Exn Unit := do
  failIf (fields.enum.isEmpty = false ∧ fields.enum.any (configurationEqual value) = false) path
    [.of "value is not a member of enum"]
  failIfBound fields.minimum (fun minimum => lessThan value minimum) path
    "value is below minimum"
  failIfBound fields.maximum (fun maximum => lessThan maximum value) path
    "value is above maximum"
  failIfBound fields.minLength (fun bound => (lengthOf value).map fun n => decide (n < bound)) path
    "string is shorter than min_length"
  failIfBound fields.maxLength (fun bound => (lengthOf value).map fun n => decide (n > bound)) path
    "string is longer than max_length"
  failIfBound fields.minItems (fun bound => (lengthOf value).map fun n => decide (n < bound)) path
    "array has fewer than min_items"
  failIfBound fields.maxItems (fun bound => (lengthOf value).map fun n => decide (n > bound)) path
    "array has more than max_items"

/-- The name of a property. -/
def ConfigurationProperty.key (property : ConfigurationProperty) : Text :=
  ofString property.fields.name.name

/-- The two checks of `_validate_configuration_object` on the keys. -/
def validateKeys (value : Members) (properties : List ConfigurationProperty) (path : Text) :
    Except Exn Unit := do
  let declared := properties.map ConfigurationProperty.key
  let unknown := sorted ((Document.keys value).filter fun key => key ∉ declared)
  failIf (unknown ≠ []) path [.of "unknown field(s): ", joined unknown]
  let missing := sorted ((properties.filter fun property =>
    property.fields.required ∧ property.key ∉ Document.keys value).map ConfigurationProperty.key)
  failIf (missing ≠ []) path [.of "missing required field(s): ", joined missing]

mutual
/-- `_validate_configuration_value`. -/
def validateConfigurationValue : ConfigurationProperty → Document → Text → Except Exn Unit
  | .object fields properties, value, path => do
    let members ← table value path
    validateKeys members properties path
    forM members fun entry =>
      validateDeclared properties entry.1 entry.2 (path ++ ofString "." ++ entry.1)
    validateFields fields value path
  | .array fields items, value, path => do
    let values ← list value path
    forM values.zipIdx fun entry => validateConfigurationValue items entry.1 (item path entry.2)
    validateFields fields value path
  | .scalar fields kind, value, path => do
    validateConfigurationScalar value kind path
    validateFields fields value path

/-- `_validate_configuration_value(candidate, declared[name], path)`. -/
def validateDeclared : List ConfigurationProperty → Text → Document → Text → Except Exn Unit
  | [], _, _, _ => .ok ()
  | property :: properties, name, candidate, path =>
    if property.key = name then validateConfigurationValue property candidate path
    else validateDeclared properties name candidate path
end

/-- `_validate_configuration_object`. -/
def validateConfigurationObject (value : Members) (properties : List ConfigurationProperty)
    (path : Text) : Except Exn Unit := do
  validateKeys value properties path
  forM value fun entry =>
    validateDeclared properties entry.1 entry.2 (path ++ ofString "." ++ entry.1)

section
variable (floats : Json.FloatText)

/-- `_configuration_value_size`. -/
def configurationValueSize (value : Document) (path : Text) : Except Exn Unit :=
  match Json.dumps floats true value with
  | none => fail path [.of "value is not canonical JSON"]
  | some text =>
    failIf (text.length > MAX_CONFIGURATION_VALUE_BYTES) path
      [.of "canonical value exceeds 65536 bytes"]

/-! ### Properties -/

/-- The kind of a property. -/
def configurationKind (value : Members) (path : Text) : Except Exn ConfigurationKind := do
  let kind ← string (← required value "type" path) (field path "type")
  match [ConfigurationKind.scalar .boolean, .scalar .integer, .scalar .number, .scalar .string,
      .array, .object].find? fun candidate => ofString candidate.name = kind.text with
  | some found => return found
  | none => fail path [.of "unsupported configuration type ", .repr kind.text]

/-- `_optional_description`. -/
def optionalDescription (value : Members) (path : Text) : Except Exn (Option NonEmptyText) :=
  match get? value "description" with
  | none => .ok none
  | some description => (string description (field path "description")).map some

/-- The enum of a property. -/
def configurationEnum (value : Members) (kind : ConfigurationKind) (path : Text) :
    Except Exn (List Document) := do
  let values ← listField value "enum" path
  match values, kind with
  | [], _ => return []
  | values, .scalar kind =>
    forM values.zipIdx fun entry =>
      validateConfigurationScalar entry.1 kind (item (field path "enum") entry.2)
    failIf (¬ values.Pairwise fun other value => configurationEqual value other = false) path
      [.of "enum values must be unique"]
    return values
  | _, _ => fail path [.of "enum is supported only for scalar properties"]

/-- `if bound is not None: _validate_configuration_scalar(bound, kind, path)`. -/
def validateBound (bound : Option Document) (kind : ConfigurationScalarKind) (path : Text) :
    Except Exn Unit :=
  match bound with
  | none => .ok ()
  | some bound => validateConfigurationScalar bound kind path

/-- `minimum` and `maximum` in `_validate_configuration_constraints`. -/
def validateRange (kind : ConfigurationKind) (minimum maximum : Option Document)
    (path : Text) : Except Exn Unit :=
  if minimum.isNone ∧ maximum.isNone then .ok ()
  else
    match kind with
    | .scalar kind => do
      failIf (kind ≠ .integer ∧ kind ≠ .number) path
        [.of "minimum and maximum require a numeric property"]
      validateBound minimum kind (field path "minimum")
      validateBound maximum kind (field path "maximum")
      match minimum with
      | none => return ()
      | some minimum =>
        failIfBound maximum (fun maximum => lessThan maximum minimum) path
          "minimum must not exceed maximum"
    | _ => fail path [.of "minimum and maximum require a numeric property"]

/-- A bound on a length. -/
def lengthBound (bound : Option Document) (what : String) (path : Text) :
    Except Exn (Option Int) :=
  match bound with
  | none => .ok none
  | some bound => do
    let n ← integer bound path
    failIf (n < 0) path [.of what, .of " bounds must be non-negative"]
    return some n

/-- A pass of the loop over the length bounds in `_validate_configuration_constraints`. -/
def lengthBounds (kind expected : ConfigurationKind) (lower upper : Option Document)
    (what : String) (path : Text) : Except Exn (Option Int × Option Int) :=
  if lower.isNone ∧ upper.isNone then .ok (none, none)
  else do
    failIf (kind ≠ expected) path
      [.of what, .of " bounds require a ", .of expected.name, .of " property"]
    let least ← lengthBound lower what path
    let most ← lengthBound upper what path
    failIf (∃ a ∈ least, ∃ b ∈ most, a > b) path
      [.of "minimum ", .of what, .of " must not exceed maximum ", .of what]
    return (least, most)

/-- The reader of a property: its name, its table, whether it is required, and its path. It
returns the property and the number of properties in it. -/
abbrev PropertyReader : Type :=
  Identifier → Members → Bool → Text → Except Exn (ConfigurationProperty × Nat)

/-- The loop of `_configuration_object` over its properties. -/
def configurationProperties (read : PropertyReader) (isRequired : List Identifier) (path : Text) :
    Members → Except Exn (List ConfigurationProperty × Nat)
  | [] => .ok ([], 0)
  | (name, declaration) :: declarations => do
    let propertyName ← identifier (.str name) (field path "properties")
    let propertyPath := path ++ ofString ".properties." ++ name
    let value ← table declaration propertyPath
    let (property, childCount) ← read propertyName value (decide (propertyName ∈ isRequired))
      propertyPath
    let (properties, count) ← configurationProperties read isRequired path declarations
    return (property :: properties, 1 + childCount + count)

/-- `_configuration_object`. The callers have checked the depth. -/
def configurationObject (read : PropertyReader) (value : Members) (path : Text) :
    Except Exn (List ConfigurationProperty × Nat) := do
  let additional ← boolean (← required value "additional_properties" path)
    (field path "additional_properties")
  failIf (additional = true) path [.of "additional_properties must be false"]
  let declarations ← (get? value "properties").elim (.ok []) fun declarations =>
    table declarations (field path "properties")
  failIf (declarations.length > MAX_CONFIGURATION_PROPERTIES) path
    [.of "schema exceeds 256 properties"]
  let requiredValues ← listField value "required" path
  let isRequired ← requiredValues.mapM fun name => identifier name (field path "required")
  failIf (¬ isRequired.Nodup) path [.of "required fields must be unique"]
  let unknownRequired := sorted ((isRequired.map fun name => ofString name.name).filter fun name =>
    name ∉ Document.keys declarations)
  failIf (unknownRequired ≠ []) path
    [.of "required references unknown properties: ", joined unknownRequired]
  configurationProperties read isRequired path declarations

/-- The default of a property, which its own schema accepts. -/
def configurationDefault (property : ConfigurationProperty) (default : Option Document)
    (path : Text) : Except Exn Unit :=
  match default with
  | none => .ok ()
  | some default => do
    failIf (property.fields.required = true) path [.of "required property cannot have a default"]
    validateConfigurationValue property default (field path "default")
    configurationValueSize floats default (field path "default")

/-- The property with this default. -/
def ConfigurationProperty.withDefault (default : Option Document) :
    ConfigurationProperty → ConfigurationProperty
  | .scalar fields kind => .scalar { fields with default := default } kind
  | .array fields items => .array { fields with default := default } items
  | .object fields properties => .object { fields with default := default } properties

/-- The kind of a property with what is under it: its items, its properties, or nothing. -/
def configurationChildren (read : PropertyReader) (kind : ConfigurationKind)
    (fields : ConfigurationFields) (value : Members) (path : Text) :
    Except Exn (ConfigurationProperty × Nat) :=
  match kind with
  | .object => do
    let (properties, count) ← configurationObject read value path
    failIf (contains value "items" = true) path [.of "object property cannot declare items"]
    return (.object fields properties, count)
  | .array => do
    failIf (∃ key ∈ ["additional_properties", "required", "properties"],
        contains value key = true) path [.of "array property cannot declare object fields"]
    let items ← table (← required value "items" path) (field path "items")
    let (items, count) ← read ⟨"item", isIdentifier_item⟩ items true (field path "items")
    return (.array fields items, count)
  | .scalar kind => do
    failIf (∃ key ∈ ["items", "additional_properties", "required", "properties"],
        contains value key = true) path
      [.of "scalar property cannot declare object or array fields"]
    return (.scalar fields kind, 0)

/-- `_configuration_property`. The first argument is the number of levels down to the maximum
depth, the level of the property included. -/
def configurationProperty : Nat → PropertyReader
  | 0 => fun _ _ _ path => fail path [.of "schema exceeds maximum depth 8"]
  | levels + 1 => fun name value isRequired path => do
    keys value ["type", "description", "default", "enum", "minimum", "maximum", "min_length",
      "max_length", "min_items", "max_items", "items", "additional_properties", "required",
      "properties"] path
    let kind ← configurationKind value path
    let description ← optionalDescription value path
    let enum ← configurationEnum value kind path
    let minimum := get? value "minimum"
    let maximum := get? value "maximum"
    validateRange kind minimum maximum path
    let (minLength, maxLength) ← lengthBounds kind (.scalar .string) (get? value "min_length")
      (get? value "max_length") "length" path
    let (minItems, maxItems) ← lengthBounds kind .array (get? value "min_items")
      (get? value "max_items") "items" path
    let fields : ConfigurationFields :=
      ⟨name, isRequired, description, none, enum, minimum, maximum, minLength, maxLength, minItems,
        maxItems⟩
    let (property, childCount) ← configurationChildren (configurationProperty levels) kind fields
      value path
    let default := get? value "default"
    configurationDefault floats property default path
    return (property.withDefault default, childCount)

/-! ### The schema document -/

/-- A member that is left out when it has no value. -/
def optional (key : String) (value : Option Document) : List (String × Document) :=
  value.toList.map fun value => (key, value)

/-- `required` of an object schema. -/
def requiredDocument (properties : List ConfigurationProperty) : Document :=
  .arr ((properties.filter fun property => property.fields.required).map fun property =>
    .str property.key)

/-- The members that do not depend on the kind of the property. -/
def fieldsDocument (kind : ConfigurationKind) (fields : ConfigurationFields) :
    List (String × Document) :=
  ("type", .string kind.name) ::
    optional "description" (fields.description.map fun text => .str text.text) ++
    optional "default" fields.default ++
    optional "enum" (if fields.enum.isEmpty then none else some (.arr fields.enum)) ++
    optional "minimum" fields.minimum ++
    optional "maximum" fields.maximum ++
    optional "minLength" (fields.minLength.map .int) ++
    optional "maxLength" (fields.maxLength.map .int) ++
    optional "minItems" (fields.minItems.map .int) ++
    optional "maxItems" (fields.maxItems.map .int)

mutual
/-- `_configuration_property_document`, and `property_document` of `_configuration_size_document`,
which has the same body. -/
def configurationPropertyDocument : ConfigurationProperty → Document
  | .scalar fields kind => .object (fieldsDocument (.scalar kind) fields)
  | .array fields items =>
    .object (fieldsDocument .array fields ++ [("items", configurationPropertyDocument items)])
  | .object fields properties =>
    .object (fieldsDocument .object fields ++
      [("additionalProperties", .bool false),
        ("properties", .obj (propertiesDocument properties)),
        ("required", requiredDocument properties)])

/-- `properties` of an object schema. -/
def propertiesDocument : List ConfigurationProperty → Members
  | [] => []
  | property :: properties =>
    (property.key, configurationPropertyDocument property) :: propertiesDocument properties
end

/-- `_configuration_schema`. -/
def configurationSchema (configuration : Configuration) : Document :=
  .object ([("additionalProperties", .bool false),
    ("properties", .obj (propertiesDocument configuration.properties)),
    ("required", requiredDocument configuration.properties),
    ("type", .string "object")] ++
    optional "description" (configuration.description.map fun text => .str text.text))

/-- `_configuration_size_document`. The two documents have the same schema. -/
def configurationSizeDocument (configuration : Configuration) : Document :=
  .object [("encoding", .string "wmfs-configuration-schema-v1"),
    ("schema", configurationSchema configuration)]

/-! ### The configuration -/

mutual
/-- An integer of the document has too many digits for `json.dumps`. -/
def hasLongInteger : Document → Bool
  | .int n => exceedsDigits n
  | .arr items => anyHasLongInteger items
  | .obj members => memberHasLongInteger members
  | _ => false

/-- `hasLongInteger` of an item. -/
def anyHasLongInteger : List Document → Bool
  | [] => false
  | item :: items => hasLongInteger item || anyHasLongInteger items

/-- `hasLongInteger` of the value of a member. -/
def memberHasLongInteger : Members → Bool
  | [] => false
  | (_, value) :: members => hasLongInteger value || memberHasLongInteger members
end

/-- The check of `schema_size`. `json.dumps` raises for a document that it cannot write. -/
def configurationSchemaSize (configuration : Configuration) (path : Text) : Except Exn Unit := do
  raiseIf (hasLongInteger (configurationSizeDocument configuration) = true) .valueError
  match Json.dumps floats true (configurationSizeDocument configuration) with
  | none => .error .typeError
  | some text =>
    failIf (text.length > MAX_CONFIGURATION_SCHEMA_BYTES) path
      [.of "canonical schema exceeds 65536 bytes"]

/-- A pass of the loop over the examples. -/
def configurationExample (properties : List ConfigurationProperty) (path : Text)
    (entry : Text × Document) : Except Exn (Identifier × Members) := do
  let name ← identifier (.str entry.1) (field path "examples")
  let examplePath := path ++ ofString ".examples." ++ entry.1
  let candidate ← table entry.2 examplePath
  validateConfigurationObject candidate properties examplePath
  configurationValueSize floats (.obj candidate) examplePath
  return (name, candidate)

/-- `_configuration`. -/
def configuration (value : Members) : Except Exn Configuration := do
  let path := ofString "interface.configuration"
  keys value ["schema_version", "type", "description", "additional_properties", "required",
    "properties", "examples"] path
  let version ← integer (← required value "schema_version" path) (field path "schema_version")
  raiseIf (version ≠ CONFIGURATION_SCHEMA_VERSION) (formatting version (.interfaceError
    [.text path, .of ": ", .of "unsupported schema_version ", .text (Json.intText version),
      .of "; expected 1"]))
  let kind ← string (← required value "type" path) (field path "type")
  failIf (kind.text ≠ ofString "object") path [.of "top-level type must be 'object'"]
  let description ← optionalDescription value path
  let (properties, propertyCount) ← configurationObject
    (configurationProperty floats MAX_CONFIGURATION_DEPTH) value path
  failIf (propertyCount > MAX_CONFIGURATION_PROPERTIES) path [.of "schema exceeds 256 properties"]
  let examplesTable ← (get? value "examples").elim (.ok []) fun examples =>
    table examples (field path "examples")
  failIf (examplesTable.length > MAX_CONFIGURATION_EXAMPLES) path
    [.of "examples exceed limit of 32"]
  let examples ← examplesTable.mapM (configurationExample floats properties path)
  let result : Configuration := ⟨version, description, properties, examples⟩
  configurationSchemaSize floats result path
  return result

/-- The schema of an accepted configuration has a canonical text. -/
theorem isJson_of_configuration {value : Members} {result : Configuration}
    (h : configuration floats value = .ok result) :
    Json.isJson (configurationSizeDocument result) = true := by
  iterate 8 obtain ⟨_, _, h⟩ := Result.bind_ok_iff.mp h
  obtain ⟨⟨properties, count⟩, _, h⟩ := Result.bind_ok_iff.mp h
  iterate 4 obtain ⟨_, _, h⟩ := Result.bind_ok_iff.mp h
  -- The last step writes the schema document.
  obtain ⟨_, hsize, heq⟩ := Result.bind_ok_iff.mp h
  cases heq
  obtain ⟨_, _, hsize⟩ := Result.bind_ok_iff.mp hsize
  rw [← Json.dumps_isSome_iff floats true]
  split at hsize
  · cases hsize
  · rename_i text htext
    rw [htext]
    rfl

end

end Wmfs.Compiler
