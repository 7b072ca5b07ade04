import Wmfs.Compiler.Overflow
import Wmfs.Compiler.Unreadable

/-!
# `Wmfs.Compiler.Exceptions`: the exceptions of `load_interface`

`load_interface` raises `InterfaceError` for a document that it rejects. `Strays` describes the
documents for which another exception leaves it:

- tables and arrays nested deeper than the stack has room for (`RecursionError`),
- an integer in the configuration that the floats do not reach (`OverflowError`),
- a version or a length bound with more digits than Python writes (`ValueError`),
- a gradient whose target is not checked yet and has a dtype that cannot be read (`IndexError` or
  `StopIteration`).

`onlyInterfaceErrors_iff` says that these are all.
-/

set_option autoImplicit false

namespace Wmfs.Compiler

open Wmfs.Lib
open Wmfs.Lib.Utf8 (Text ofString)
open Wmfs.Lib.Document (Members get?)

/-! ### The schema document -/

/-- A field that may be left out is a JSON value. -/
theorem isJson_optional {key : String} {value : Option Document}
    (h : ∀ document ∈ value, Json.isJson document = true) :
    ∀ member ∈ optional key value, Json.isJson member.2 = true := by
  intro member hmember
  obtain ⟨document, hdocument, rfl⟩ := List.mem_map.mp hmember
  exact h document (Option.mem_toList.mp hdocument)

/-- The required names are a JSON value. -/
theorem isJson_requiredDocument (properties : List ConfigurationProperty) :
    Json.isJson (requiredDocument properties) = true := by
  rw [requiredDocument, Json.isJson_arr, List.all_map, List.all_eq_true]
  intro property _
  rfl

/-- The fields of a typed property are JSON values. -/
theorem isJson_fieldsDocument {kind : ConfigurationKind} {fields : ConfigurationFields}
    (h : FieldsTyped kind fields) :
    ∀ member ∈ fieldsDocument kind fields, Json.isJson member.2 = true := by
  have hints : ∀ bound : Option Int, ∀ document ∈ bound.map Document.int,
      Json.isJson document = true := by
    intro bound document hdocument
    obtain ⟨n, _, rfl⟩ := Option.map_eq_some_iff.mp hdocument
    rfl
  have hdescription : ∀ document ∈ fields.description.map fun text => Document.str text.text,
      Json.isJson document = true := by
    intro document hdocument
    obtain ⟨text, _, rfl⟩ := Option.map_eq_some_iff.mp hdocument
    rfl
  have hbound : ∀ {bound : Option Document}, (∀ value ∈ bound, ∃ scalar, kind = .scalar scalar ∧
      IsNumeric scalar ∧ isConfigurationScalar value scalar = true) →
        ∀ value ∈ bound, Json.isJson value = true := by
    intro bound hall value hvalue
    obtain ⟨scalar, _, _, hscalar⟩ := hall value hvalue
    exact isJson_of_isConfigurationScalar hscalar
  have henum : ∀ document ∈ if fields.enum.isEmpty then none else some (Document.arr fields.enum),
      Json.isJson document = true := by
    intro document hdocument
    split at hdocument
    · cases hdocument
    · cases hdocument
      rw [Json.isJson_arr, List.all_eq_true]
      exact h.enum
  simp only [fieldsDocument, List.cons_append, List.forall_mem_cons, List.forall_mem_append,
    and_assoc]
  exact ⟨rfl, isJson_optional hdescription, isJson_optional h.default, isJson_optional henum,
    isJson_optional (hbound h.minimum), isJson_optional (hbound h.maximum),
    isJson_optional (hints _), isJson_optional (hints _), isJson_optional (hints _),
    isJson_optional (hints _)⟩

/-- An object of JSON values is a JSON value. -/
theorem isJson_object_of_forall {members : List (String × Document)}
    (h : ∀ member ∈ members, Json.isJson member.2 = true) :
    Json.isJson (.object members) = true := by
  rw [Json.isJson_object, List.all_eq_true]
  exact h

/-- The documents of properties have a JSON text when each of them has one. -/
theorem haveJson_propertiesDocument {properties : List ConfigurationProperty}
    (h : ∀ property ∈ properties, Json.isJson (configurationPropertyDocument property) = true) :
    Json.isJson (.obj (propertiesDocument properties)) = true := by
  rw [Json.isJson]
  induction properties with
  | nil => rfl
  | cons property properties ih =>
    obtain ⟨hproperty, hproperties⟩ := List.forall_mem_cons.mp h
    rw [propertiesDocument, Json.haveJson, hproperty, ih hproperties]
    rfl

/-- A typed property is a JSON value. -/
theorem isJson_configurationPropertyDocument {property : ConfigurationProperty}
    (h : Typed property) : Json.isJson (configurationPropertyDocument property) = true := by
  induction h with
  | scalar hfields =>
    rw [configurationPropertyDocument]
    exact isJson_object_of_forall (isJson_fieldsDocument hfields)
  | array hfields _ ih =>
    rw [configurationPropertyDocument]
    refine isJson_object_of_forall (List.forall_mem_append.mpr ⟨isJson_fieldsDocument hfields, ?_⟩)
    exact List.forall_mem_singleton.mpr ih
  | object hfields _ ih =>
    rw [configurationPropertyDocument]
    refine isJson_object_of_forall (List.forall_mem_append.mpr ⟨isJson_fieldsDocument hfields, ?_⟩)
    simp only [List.forall_mem_cons]
    exact ⟨rfl, haveJson_propertiesDocument ih, isJson_requiredDocument _, by simp⟩

/-- The schema of typed properties has a JSON text. -/
theorem isJson_configurationSizeDocument {configuration : Configuration}
    (h : ∀ property ∈ configuration.properties, Typed property) :
    Json.isJson (configurationSizeDocument configuration) = true := by
  have hdescription : ∀ document ∈
      configuration.description.map fun text => Document.str text.text,
      Json.isJson document = true := by
    intro document hdocument
    obtain ⟨text, _, rfl⟩ := Option.map_eq_some_iff.mp hdocument
    rfl
  have hschema : Json.isJson (configurationSchema configuration) = true := by
    refine isJson_object_of_forall (List.forall_mem_append.mpr ⟨?_, isJson_optional hdescription⟩)
    simp only [List.forall_mem_cons]
    refine ⟨rfl, haveJson_propertiesDocument ?_, isJson_requiredDocument _, rfl, by simp⟩
    intro property hmem
    exact isJson_configurationPropertyDocument (h property hmem)
  refine isJson_object_of_forall ?_
  simp only [List.forall_mem_cons]
  exact ⟨rfl, hschema, by simp⟩

/-! ### The configuration -/

section
variable (floats : Json.FloatText)

/-- The check of the size of a schema goes astray at an integer that is too long to print. -/
theorem stray_configurationSchemaSize_iff {configuration : Configuration} {path : Text}
    (h : ∀ property ∈ configuration.properties, Typed property) :
    Raises Stray (configurationSchemaSize floats configuration path) ↔
      hasLongInteger (configurationSizeDocument configuration) = true := by
  have hsome := Json.dumps_isSome_iff floats true (configurationSizeDocument configuration)
  rw [isJson_configurationSizeDocument h, Option.isSome_iff_exists] at hsome
  obtain ⟨text, htext⟩ := hsome
  rw [configurationSchemaSize, htext, raises_bind_iff, raises_raiseIf_iff]
  constructor
  · intro hraises
    rcases hraises with ⟨hlong, _⟩ | ⟨_, _, hsize⟩
    · exact hlong
    · exact absurd hsize (not_stray_failIf _ _ _)
  · intro hlong
    exact .inl ⟨hlong, trivial⟩

/-- The path of the configuration. -/
def configurationPath : Text := ofString "interface.configuration"

/-- The fields that `_configuration` allows. -/
def configurationKeys : List String :=
  ["schema_version", "type", "description", "additional_properties", "required", "properties",
    "examples"]

/-- The part of `_configuration` before the properties: the version and the description. -/
def configurationHead (value : Members) : Except Exn (Int × Option NonEmptyText) := do
  let path := configurationPath
  keys value configurationKeys path
  let version ← integer (← required value "schema_version" path) (field path "schema_version")
  raiseIf (version ≠ CONFIGURATION_SCHEMA_VERSION) (formatting version (.interfaceError
    [.text path, .of ": ", .of "unsupported schema_version ", .text (Json.intText version),
      .of "; expected 1"]))
  let kind ← string (← required value "type" path) (field path "type")
  failIf (kind.text ≠ ofString "object") path [.of "top-level type must be 'object'"]
  let description ← optionalDescription value path
  return (version, description)

/-- The part of `_configuration` that reads the properties. -/
def configurationTree (value : Members) : Except Exn (List ConfigurationProperty) := do
  let tree ← configurationObject (configurationProperty floats MAX_CONFIGURATION_DEPTH) value
    configurationPath
  failIf (tree.2 > MAX_CONFIGURATION_PROPERTIES) configurationPath
    [.of "schema exceeds 256 properties"]
  return tree.1

/-- The part of `_configuration` that finds the examples. -/
def examplesTable (value : Members) : Except Exn Members := do
  let examplesTable ← (get? value "examples").elim (.ok []) fun examples =>
    table examples (field configurationPath "examples")
  failIf (examplesTable.length > MAX_CONFIGURATION_EXAMPLES) configurationPath
    [.of "examples exceed limit of 32"]
  return examplesTable

/-- A configuration is its head, its properties and its examples. -/
theorem configuration_eq (value : Members) :
    configuration floats value = configurationHead value >>= fun head =>
      configurationTree floats value >>= fun properties =>
        examplesTable value >>= fun table =>
          table.mapM (configurationExample floats properties configurationPath) >>= fun examples =>
            configurationSchemaSize floats ⟨head.1, head.2, properties, examples⟩
              configurationPath >>= fun _ => pure ⟨head.1, head.2, properties, examples⟩ := by
  simp only [configuration, configurationHead, configurationTree, examplesTable, configurationPath,
    configurationKeys, bind_assoc, pure_bind]

/-- The reader of the configuration comes to a version that it rejects and cannot write. -/
def VersionStrays (value : Members) : Prop :=
  keys value configurationKeys configurationPath = .ok () ∧
    ∃ n, get? value "schema_version" = some (.int n) ∧ n ≠ CONFIGURATION_SCHEMA_VERSION ∧
      exceedsDigits n = true

/-- The head goes astray at the version only. -/
theorem stray_configurationHead_iff {value : Members} :
    Raises Stray (configurationHead value) ↔ VersionStrays value := by
  simp only [configurationHead, VersionStrays, raises_bind_iff, not_stray_keys,
    not_stray_required, not_stray_integer, not_stray_string, not_stray_failIf,
    not_stray_optionalDescription, not_raises_pure, raises_raiseIf_iff, stray_formatting_iff,
    required_ok_iff, integer_ok_iff, false_or, and_false, exists_false, or_false]
  constructor
  · rintro ⟨_, hkeys, _, hversion, n, heq, hwrong, hlong⟩
    rw [heq] at hversion
    exact ⟨hkeys, n, hversion, hwrong, hlong⟩
  · rintro ⟨hkeys, n, hversion, hwrong, hlong⟩
    exact ⟨(), hkeys, _, hversion, n, rfl, hwrong, hlong⟩

/-- The tree goes astray at a number that overflows. -/
theorem stray_configurationTree_iff {value : Members} :
    Raises Stray (configurationTree floats value) ↔
      ObjectOverflows (PropertyOverflows floats MAX_CONFIGURATION_DEPTH)
        (configurationProperty floats MAX_CONFIGURATION_DEPTH) value configurationPath := by
  rw [configurationTree, raises_bind_iff,
    stray_configurationObject_iff (stray_configurationProperty_iff floats MAX_CONFIGURATION_DEPTH)]
  simp

/-- The properties of the tree are typed. -/
theorem typed_of_configurationTree {value : Members} {properties : List ConfigurationProperty}
    (h : configurationTree floats value = .ok properties) :
    ∀ property ∈ properties, Typed property := by
  obtain ⟨tree, htree, h⟩ := Result.bind_ok_iff.mp h
  obtain ⟨_, _, h⟩ := Result.bind_ok_iff.mp h
  cases h
  exact typed_of_configurationObject (typed_of_configurationProperty floats _) htree

/-- The table of examples is read without another exception. -/
@[simp] theorem not_stray_examplesTable (value : Members) :
    ¬ Raises Stray (examplesTable value) := by
  refine not_raises_bind (not_stray_elim fun _ => not_stray_table _ _) ?_
  simp

/-- The check of an example comes to an integer that exceeds the floats. -/
def ExampleOverflows (properties : List ConfigurationProperty) (entry : Text × Document) : Prop :=
  ∃ name members, identifier (.str entry.1) (field configurationPath "examples") = .ok name ∧
    entry.2 = .obj members ∧
    MembersOverflow properties members (configurationPath ++ ofString ".examples." ++ entry.1)

/-- When an example goes astray. -/
theorem stray_configurationExample_iff {properties : List ConfigurationProperty}
    (h : ∀ property ∈ properties, Typed property) {entry : Text × Document} :
    Raises Stray (configurationExample floats properties configurationPath entry) ↔
      ExampleOverflows properties entry := by
  simp only [configurationExample, ExampleOverflows, raises_bind_iff, not_stray_identifier,
    not_stray_table, not_stray_configurationValueSize, not_raises_pure, table_ok_iff,
    stray_validateConfigurationObject_iff h, false_or, and_false, exists_false, or_false,
    exists_and_left]

/-- `_configuration` raises something else than `InterfaceError`. -/
inductive ConfigurationStrays (value : Members) : Prop where
  | version (strays : VersionStrays value)
  | properties {head : Int × Option NonEmptyText} (head_ok : configurationHead value = .ok head)
      (overflows : ObjectOverflows (PropertyOverflows floats MAX_CONFIGURATION_DEPTH)
        (configurationProperty floats MAX_CONFIGURATION_DEPTH) value configurationPath)
  | examples {head : Int × Option NonEmptyText} {properties : List ConfigurationProperty}
      {before after : Members} {entry : Text × Document}
      (head_ok : configurationHead value = .ok head)
      (properties_ok : configurationTree floats value = .ok properties)
      (table_ok : examplesTable value = .ok (before ++ entry :: after))
      (before_ok : ∀ earlier ∈ before, ∃ result,
        configurationExample floats properties configurationPath earlier = .ok result)
      (overflows : ExampleOverflows properties entry)
  | size {head : Int × Option NonEmptyText} {properties : List ConfigurationProperty}
      {table : Members} {examples : List (Identifier × Members)}
      (head_ok : configurationHead value = .ok head)
      (properties_ok : configurationTree floats value = .ok properties)
      (table_ok : examplesTable value = .ok table)
      (examples_ok : table.mapM (configurationExample floats properties configurationPath) =
        .ok examples)
      (long : hasLongInteger
        (configurationSizeDocument ⟨head.1, head.2, properties, examples⟩) = true)

/-- When a configuration goes astray. -/
theorem stray_configuration_iff {value : Members} :
    Raises Stray (configuration floats value) ↔ ConfigurationStrays floats value := by
  rw [configuration_eq, raises_bind_iff, stray_configurationHead_iff]
  constructor
  · intro h
    rcases h with hversion | ⟨head, hhead, h⟩
    · exact .version hversion
    rcases raises_bind_iff.mp h with htree | ⟨properties, hproperties, h⟩
    · exact .properties hhead ((stray_configurationTree_iff floats).mp htree)
    have htyped := typed_of_configurationTree floats hproperties
    obtain ⟨table, htable, h⟩ := (raises_bind_iff_of_not (not_stray_examplesTable _)).mp h
    rcases raises_bind_iff.mp h with hloop | ⟨examples, hexamples, h⟩
    · obtain ⟨before, entry, after, heq, hbefore, hentry⟩ := raises_mapM_iff.mp hloop
      rw [heq] at htable
      exact .examples hhead hproperties htable hbefore
        ((stray_configurationExample_iff floats htyped).mp hentry)
    rcases raises_bind_iff.mp h with hsize | ⟨_, _, hdone⟩
    · exact .size hhead hproperties htable hexamples
        ((stray_configurationSchemaSize_iff floats htyped).mp hsize)
    · exact absurd hdone not_raises_pure
  · intro h
    cases h with
    | version hversion => exact .inl hversion
    | properties hhead hoverflows =>
      refine .inr ⟨_, hhead, raises_bind_iff.mpr (.inl ?_)⟩
      exact (stray_configurationTree_iff floats).mpr hoverflows
    | examples hhead hproperties htable hbefore hoverflows =>
      have htyped := typed_of_configurationTree floats hproperties
      refine .inr ⟨_, hhead, raises_bind_iff.mpr (.inr ⟨_, hproperties, ?_⟩)⟩
      refine raises_bind_iff.mpr (.inr ⟨_, htable, raises_bind_iff.mpr (.inl ?_)⟩)
      exact raises_mapM_iff.mpr ⟨_, _, _, rfl, hbefore,
        (stray_configurationExample_iff floats htyped).mpr hoverflows⟩
    | size hhead hproperties htable hexamples hlong =>
      have htyped := typed_of_configurationTree floats hproperties
      refine .inr ⟨_, hhead, raises_bind_iff.mpr (.inr ⟨_, hproperties, ?_⟩)⟩
      refine raises_bind_iff.mpr (.inr ⟨_, htable, raises_bind_iff.mpr (.inr ⟨_, hexamples, ?_⟩)⟩)
      refine raises_bind_iff.mpr (.inl ?_)
      exact (stray_configurationSchemaSize_iff floats htyped).mpr hlong

/-! ### The interface -/

/-- The same of a configuration that may be missing. -/
theorem stray_readConfiguration_iff {data : Members} :
    Raises Stray (readConfiguration floats data) ↔
      ∃ members, get? data "configuration" = some (.obj members) ∧
        ConfigurationStrays floats members := by
  unfold readConfiguration
  cases get? data "configuration" with
  | none => simp
  | some value =>
    simp only [raises_bind_iff_of_not (not_stray_table _ _), raises_bind_iff,
      stray_configuration_iff, not_raises_pure, table_ok_iff, and_false, exists_false, or_false,
      Option.some.injEq]

/-- What `load_interface` has read when it comes to the configuration. -/
structure InterfaceHead where
  plugin : Members
  deployment : Members
  operationsData : List Document
  enums : List Enum
  lifecycle : Lifecycle

/-- The part of `load_interface` before the configuration. -/
def interfaceHead (data : Members) : Except Exn InterfaceHead := do
  raiseIf (containsFingerprintMember data = true)
    (interfaceError "interface source must not contain fingerprints")
  let interfacePath := ofString "interface"
  keys data ["format_version", "abi_version", "protocol_version", "plugin", "deployment",
    "operations", "enums", "configuration", "lifecycle"] interfacePath
  let plugin ← table (← required data "plugin" interfacePath) (ofString "interface.plugin")
  keys plugin ["name", "version", "namespace", "python_module"] (ofString "interface.plugin")
  let deployment ← table (← required data "deployment" interfacePath)
    (ofString "interface.deployment")
  keys deployment ["root", "worker", "python_provider", "bundled_namespace"]
    (ofString "interface.deployment")
  let operationsData ← list (← required data "operations" interfacePath)
    (ofString "interface.operations")
  let enumsData ← listField data "enums" interfacePath
  let enums ← mapItems enum (ofString "interface.enums") enumsData
  let lifecycle ← lifecycle ((get? data "lifecycle").getD (.obj []))
  return ⟨plugin, deployment, operationsData, enums, lifecycle⟩

/-- An interface is its head, its configuration and its fields. -/
theorem readInterface_eq (data : Members) :
    readInterface floats data = interfaceHead data >>= fun head =>
      readConfiguration floats data >>= fun configuration =>
        readFields data head.plugin head.deployment head.operationsData head.enums head.lifecycle
          configuration := by
  simp only [readInterface, interfaceHead, bind_assoc, pure_bind]

/-- The head of an interface is read without another exception. -/
@[simp] theorem not_stray_interfaceHead (data : Members) : ¬ Raises Stray (interfaceHead data) := by
  have henums : ∀ items, ¬ Raises Stray (mapItems enum (ofString "interface.enums") items) :=
    fun _ => not_stray_mapItems not_stray_enum
  simp [interfaceHead, interfaceError, raises_bind_iff, henums]

/-- The fields of an interface are read without another exception. -/
@[simp] theorem not_stray_readFields (data plugin deployment : Members)
    (operationsData : List Document) (enums : List Enum) (lifecycle : Lifecycle)
    (configuration : Option Configuration) :
    ¬ Raises Stray (readFields data plugin deployment operationsData enums lifecycle
      configuration) := by
  have hoperations :
      ¬ Raises Stray (mapItems (operation enums) (ofString "operations") operationsData) :=
    not_stray_mapItems (not_stray_operation enums)
  have hprovider : ¬ Raises Stray ((get? deployment "python_provider").elim (.ok none) fun value =>
      (dottedName value (ofString "deployment.python_provider")).map some) :=
    not_stray_elim fun _ => by simp
  have hnamespace : ¬ Raises Stray ((get? deployment "bundled_namespace").elim (.ok none)
      fun value => (identifier value (ofString "deployment.bundled_namespace")).map some) :=
    not_stray_elim fun _ => by simp
  simp only [readFields, raises_bind_iff, not_stray_required, not_stray_integer,
    not_stray_identifier, not_stray_string, hprovider, hnamespace, hoperations, not_raises_pure,
    false_or, and_false, exists_false, not_false_eq_true]

/-- `load_interface` raises something else than `InterfaceError` for the document. -/
inductive Strays (depth : Nat) (data : Members) : Prop where
  | nesting (deep : nestsBeyond depth (.obj data) = true)
  | configuration {head : InterfaceHead} {members : Members}
      (shallow : nestsBeyond depth (.obj data) = false) (head_ok : interfaceHead data = .ok head)
      (configuration_eq : get? data "configuration" = some (.obj members))
      (strays : ConfigurationStrays floats members)
  | validation {plugin : Plugin} (shallow : nestsBeyond depth (.obj data) = false)
      (read_ok : readInterface floats data = .ok plugin) (strays : ValidationStrays plugin)

/-- The reader of an interface goes astray at the configuration only. -/
theorem stray_readInterface_iff {data : Members} :
    Raises Stray (readInterface floats data) ↔
      (∃ head, interfaceHead data = .ok head) ∧
        ∃ members, get? data "configuration" = some (.obj members) ∧
          ConfigurationStrays floats members := by
  rw [readInterface_eq, raises_bind_iff_of_not (not_stray_interfaceHead _)]
  simp only [raises_bind_iff, stray_readConfiguration_iff, not_stray_readFields, and_false,
    exists_false, or_false, exists_and_right]

/-- When `load_interface` goes astray. -/
theorem stray_loadInterfaceWithin_iff {depth : Nat} {data : Members} :
    Raises Stray (loadInterfaceWithin floats depth data) ↔ Strays floats depth data := by
  rw [loadInterfaceWithin, raises_bind_iff, raises_raiseIf_iff]
  constructor
  · intro h
    rcases h with ⟨hdeep, _⟩ | ⟨_, hshallow, h⟩
    · exact .nesting hdeep
    have hshallow := Bool.eq_false_iff.mpr (raiseIf_ok_iff.mp hshallow)
    rcases raises_bind_iff.mp h with h | ⟨plugin, hplugin, h⟩
    · obtain ⟨⟨head, hhead⟩, members, hmembers, hstrays⟩ := (stray_readInterface_iff floats).mp h
      exact .configuration hshallow hhead hmembers hstrays
    rcases raises_bind_iff.mp h with h | ⟨_, _, hdone⟩
    · exact .validation hshallow hplugin (stray_validate_iff.mp h)
    · exact absurd hdone not_raises_pure
  · intro h
    cases h with
    | nesting hdeep => exact .inl ⟨hdeep, trivial⟩
    | configuration hshallow hhead hmembers hstrays =>
      refine .inr ⟨(), raiseIf_ok_iff.mpr (Bool.eq_false_iff.mp hshallow), ?_⟩
      refine raises_bind_iff.mpr (.inl ((stray_readInterface_iff floats).mpr ?_))
      exact ⟨⟨_, hhead⟩, _, hmembers, hstrays⟩
    | validation hshallow hread hstrays =>
      refine .inr ⟨(), raiseIf_ok_iff.mpr (Bool.eq_false_iff.mp hshallow), ?_⟩
      refine raises_bind_iff.mpr (.inr ⟨_, hread, raises_bind_iff.mpr (.inl ?_)⟩)
      exact stray_validate_iff.mpr hstrays

/-- `load_interface` returns a plugin or raises `InterfaceError`. -/
def OnlyInterfaceErrors (result : Except Exn Plugin) : Prop :=
  ∀ e, result = .error e → ∃ message, e = .interfaceError message

/-- The parser fails only with `InterfaceError` exactly for the documents that do not come to one
of the exceptions of `Strays`. -/
theorem onlyInterfaceErrors_iff (depth : Nat) (data : Members) :
    OnlyInterfaceErrors (loadInterfaceWithin floats depth data) ↔ ¬ Strays floats depth data := by
  rw [← stray_loadInterfaceWithin_iff]
  constructor
  · intro honly ⟨e, he, hstray⟩
    obtain ⟨message, rfl⟩ := honly e he
    exact hstray
  · intro hnot e he
    cases e with
    | interfaceError message => exact ⟨message, rfl⟩
    | indexError | stopIteration | overflowError | typeError | valueError | recursionError =>
      exact absurd ⟨_, he, trivial⟩ hnot

end

/-- The source of an operation with a gradient. -/
def scaleSource : Document :=
  .object [("id", .int 1), ("name", .string "scale"),
    ("inputs", .arr [.object [("name", .string "x")]]),
    ("outputs", .arr [.object [("name", .string "y"), ("same_shape_as_input", .int 0),
      ("dtype", .object [("input", .int 0)])]]),
    ("vjp", .object [("operation_id", .int 2), ("output_cotangents", .arr [.int 0]),
      ("input_gradients", .arr [.int 0])])]

/-- The source of its target, whose output takes the dtype of an input that does not exist. -/
def scaleVjpSource : Document :=
  .object [("id", .int 2), ("name", .string "scale_vjp"), ("internal", .bool true),
    ("inputs", .arr [.object [("name", .string "dy")]]),
    ("outputs", .arr [.object [("name", .string "dx"), ("same_shape_as_input", .int 0),
      ("dtype", .object [("input", .int 5)])]])]

/-- The target of the gradient is declared after the operation, and nothing has checked that its
output refers to one of its inputs. In the other order the reference is rejected. -/
theorem indexError_of_unchecked_target :
    loadInterfaceWithin .ofBits 100 (smallInterface [scaleSource, scaleVjpSource]) =
      .error .indexError ∧
    (∃ message, loadInterfaceWithin .ofBits 100 (smallInterface [scaleVjpSource, scaleSource]) =
      .error (.interfaceError message)) ∧
    ¬ OnlyInterfaceErrors
      (loadInterfaceWithin .ofBits 100 (smallInterface [scaleSource, scaleVjpSource])) := by
  have herror : loadInterfaceWithin .ofBits 100 (smallInterface [scaleSource, scaleVjpSource]) =
      .error .indexError := rfl
  refine ⟨herror, ⟨_, rfl⟩, ?_⟩
  intro honly
  obtain ⟨message, h⟩ := honly _ herror
  cases h

end Wmfs.Compiler
