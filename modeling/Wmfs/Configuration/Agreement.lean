import Wmfs.Configuration.WellFormed

/-!
# `Wmfs.Configuration.Agreement`: the schemas of the compiler in the runtime

The compiler writes the properties of a configuration as a schema document, and the runtime
validates the schema and the values on its own. `SchemaOf schema property` says what the runtime
can look up in the document of a property, and it is all that the proofs use.

- `validateValue_ok_iff`: the runtime accepts exactly the values of the property.
- `validateSchema_schemaOf`: the runtime accepts the schema of a well-formed property.
- `configuration_agreement`: both, for every property of a configuration that the compiler accepts.
-/

set_option autoImplicit false

namespace Wmfs.Configuration

open Wmfs.Lib
open Wmfs.Lib.Utf8 (Text ofString)
open Wmfs.Lib.Document (Members get? contains number? scalarEq length? membersOf)
open Wmfs.Compiler (ConfigurationKind ConfigurationScalarKind ConfigurationFields
  ConfigurationProperty isConfigurationScalar configurationEqual declaredProperty FieldsTyped Typed
  configurationPropertyDocument propertiesDocument requiredDocument fieldsDocument)

/-! ### The document of a property -/

/-- What the runtime finds in the document of the fields. -/
structure SchemaFields (schema : Members) (kind : ConfigurationKind)
    (fields : ConfigurationFields) : Prop where
  type : get? schema "type" = some (.string kind.name)
  description : get? schema "description" = fields.description.map fun text => .str text.text
  default : get? schema "default" = fields.default
  enum : get? schema "enum" = if fields.enum.isEmpty then none else some (.arr fields.enum)
  minimum : get? schema "minimum" = fields.minimum
  maximum : get? schema "maximum" = fields.maximum
  minLength : get? schema "minLength" = fields.minLength.map .int
  maxLength : get? schema "maxLength" = fields.maxLength.map .int
  minItems : get? schema "minItems" = fields.minItems.map .int
  maxItems : get? schema "maxItems" = fields.maxItems.map .int

/-- What the runtime finds in the document of a property. -/
inductive SchemaOf (schema : Members) : ConfigurationProperty → Prop where
  | scalar {fields : ConfigurationFields} {kind : ConfigurationScalarKind}
      (fields_found : SchemaFields schema (.scalar kind) fields) :
      SchemaOf schema (.scalar fields kind)
  | array {fields : ConfigurationFields} {items : ConfigurationProperty}
      (fields_found : SchemaFields schema .array fields)
      (items_found : get? schema "items" = some (configurationPropertyDocument items)) :
      SchemaOf schema (.array fields items)
  | object {fields : ConfigurationFields} {properties : List ConfigurationProperty}
      (fields_found : SchemaFields schema .object fields)
      (additional_found : get? schema "additionalProperties" = some (.bool false))
      (properties_found : get? schema "properties" = some (.obj (propertiesDocument properties)))
      (required_found : get? schema "required" = some (requiredDocument properties)) :
      SchemaOf schema (.object fields properties)

/-- A member that is left out when it has no value is looked up as the value. -/
theorem lookup_optional (key name : String) (value : Option Document) :
    (Compiler.optional name value).lookup key = if key = name then value else none := by
  cases value with
  | none => simp [Compiler.optional]
  | some value => simp [Compiler.optional]

/-- The members that come behind the fields do not change what is found in the fields. -/
theorem schemaFields_fieldsDocument {kind : ConfigurationKind} {fields : ConfigurationFields}
    {rest : List (String × Document)}
    (hrest : ∀ key ∈ ["type", "description", "default", "enum", "minimum", "maximum",
      "minLength", "maxLength", "minItems", "maxItems"], rest.lookup key = none) :
    SchemaFields (membersOf (fieldsDocument kind fields ++ rest)) kind fields := by
  simp only [List.forall_mem_cons, List.not_mem_nil, false_imp_iff, implies_true, and_true]
    at hrest
  obtain ⟨h1, h2, h3, h4, h5, h6, h7, h8, h9, h10⟩ := hrest
  constructor <;>
    simp [fieldsDocument, lookup_optional, List.lookup_append, h2, h3, h4, h5, h6, h7, h8, h9, h10]

/-- The document of a property is a schema of it. -/
theorem schemaOf_configurationPropertyDocument (property : ConfigurationProperty) :
    ∃ schema, configurationPropertyDocument property = .obj schema ∧ SchemaOf schema property := by
  cases property with
  | scalar fields kind =>
    have hfields : SchemaFields (membersOf (fieldsDocument (.scalar kind) fields ++ []))
        (.scalar kind) fields := schemaFields_fieldsDocument (by simp)
    rw [List.append_nil] at hfields
    exact ⟨_, rfl, .scalar hfields⟩
  | array fields items =>
    refine ⟨_, rfl, .array (schemaFields_fieldsDocument (by simp)) ?_⟩
    simp [fieldsDocument, lookup_optional, List.lookup_append]
  | object fields properties =>
    refine ⟨_, rfl, .object (schemaFields_fieldsDocument (by simp)) ?_ ?_ ?_⟩ <;>
      simp [fieldsDocument, lookup_optional, List.lookup_append]

/-! ### Values -/

/-- `failIf` passes when the fault is absent. -/
@[simp] theorem failIf_ok_iff {bad : Prop} [Decidable bad] {path : Text} {message : String} :
    failIf bad path message = .ok () ↔ ¬ bad := by
  rw [failIf, raiseIf_ok_iff]

/-- A field that is not null is present as it is. -/
theorem present_eq {schema : Members} {name : String} {value : Option Document}
    (h : get? schema name = value) (hnull : value ≠ some .null) : present schema name = value := by
  unfold present
  rw [h]
  split
  · exact absurd rfl hnull
  · rfl

/-- Compiler and runtime know the same scalars. -/
theorem isScalar_eq (value : Document) (kind : ConfigurationScalarKind) :
    isScalar value kind = isConfigurationScalar value kind := by
  cases kind <;> cases value <;> rfl

/-- The runtime accepts the scalars of the kind. -/
theorem validateScalar_ok_iff {value : Document} {kind : ConfigurationScalarKind} {path : Text} :
    validateScalar value kind path = .ok () ↔ isConfigurationScalar value kind = true := by
  rw [validateScalar, failIf_ok_iff, isScalar_eq, Bool.not_eq_false]

/-- What `<` denies. -/
theorem lessThan_ok_false_iff {left right : Document} :
    lessThan left right = .ok false ↔ AtMost right left := by
  unfold lessThan AtMost
  cases number? left with
  | none => simp
  | some a =>
    cases number? right with
    | none => simp
    | some b => simp

/-- A length is not below its bound. -/
theorem shorter_ok_false_iff {value : Document} {bound : Int} :
    shorter value (.int bound) = .ok false ↔ ∃ n ∈ length? value, bound ≤ n := by
  unfold shorter lengthOf
  cases length? value with
  | none => simp [Result.error_bind]
  | some n =>
    rw [Result.ok_bind, lessThan_ok_false_iff]
    simp only [AtMost, number?, Option.mem_some_iff, exists_eq_left']
    exact_mod_cast Iff.rfl

/-- A length is not above its bound. -/
theorem longer_ok_false_iff {value : Document} {bound : Int} :
    longer value (.int bound) = .ok false ↔ ∃ n ∈ length? value, n ≤ bound := by
  unfold longer lengthOf
  cases length? value with
  | none => simp [Result.error_bind]
  | some n =>
    rw [Result.ok_bind, lessThan_ok_false_iff]
    simp only [AtMost, number?, Option.mem_some_iff, exists_eq_left']
    exact_mod_cast Iff.rfl

/-- A bound that is present is met. -/
theorem failIfBound_ok_iff' {schema : Members} {name : String}
    {bad : Document → Except Exn Bool} {path : Text} {message : String} :
    failIfBound schema name bad path message = .ok () ↔
      ∀ bound ∈ present schema name, bad bound = .ok false := by
  unfold failIfBound
  cases present schema name with
  | none => simp
  | some bound =>
    rw [Result.bind_ok_iff]
    simp only [failIf_ok_iff, Option.mem_some_iff, forall_eq']
    constructor
    · rintro ⟨isBad, h, hgood⟩
      rw [h, Bool.eq_false_iff.mpr hgood]
    · intro h
      exact ⟨false, h, Bool.false_ne_true⟩

/-- The value is one of the enum, if there is one. -/
theorem validateMember_ok_iff {schema : Members} {enum : List Document} {value : Document}
    {path : Text} (h : present schema "enum" = if enum.isEmpty then none else some (.arr enum)) :
    validateMember schema value path = .ok () ↔
      (enum ≠ [] → ∃ candidate ∈ enum, configurationEqual value candidate = true) := by
  unfold validateMember
  rw [h]
  cases enum with
  | nil => simp
  | cons first rest =>
    simp only [List.isEmpty_cons, Bool.false_eq_true, if_false, failIf_ok_iff, Bool.not_eq_false,
      List.any_eq_true, ne_eq, reduceCtorEq, not_false_eq_true, true_imp_iff]
    rfl

/-- A bound of a typed property is not null. -/
theorem ne_null_of_typed {kind : ConfigurationKind} {bound : Option Document}
    (h : ∀ value ∈ bound, ∃ scalar, kind = .scalar scalar ∧ Compiler.IsNumeric scalar ∧
      isConfigurationScalar value scalar = true) : bound ≠ some .null := by
  rintro rfl
  obtain ⟨scalar, _, _, hscalar⟩ := h .null rfl
  exact (leaf_of_isConfigurationScalar hscalar).1 rfl

section
variable {schema : Members} {kind : ConfigurationKind} {fields : ConfigurationFields}

/-- A bound that is an integer is not null. -/
theorem map_int_ne_null (bound : Option Int) : bound.map Document.int ≠ some .null := by
  cases bound <;> simp

/-- The checks at the end of `_validate_value` accept what fits the fields. -/
theorem validateFields_iff_fieldsAccept (h : SchemaFields schema kind fields)
    (htyped : FieldsTyped kind fields) {value : Document} {path : Text} :
    validateFields schema value path = .ok () ↔ FieldsAccept fields value := by
  have henum : present schema "enum" = if fields.enum.isEmpty then none else some (.arr fields.enum) :=
    present_eq h.enum (by split <;> simp)
  have hminimum := present_eq h.minimum (ne_null_of_typed htyped.minimum)
  have hmaximum := present_eq h.maximum (ne_null_of_typed htyped.maximum)
  have hminLength := present_eq h.minLength (map_int_ne_null _)
  have hmaxLength := present_eq h.maxLength (map_int_ne_null _)
  have hminItems := present_eq h.minItems (map_int_ne_null _)
  have hmaxItems := present_eq h.maxItems (map_int_ne_null _)
  unfold validateFields
  simp only [Result.check_bind_ok_iff, validateMember_ok_iff henum, failIfBound_ok_iff', hminimum,
    hmaximum, hminLength, hmaxLength, hminItems, hmaxItems, lessThan_ok_false_iff,
    Option.mem_map, forall_exists_index, and_imp, forall_apply_eq_imp_iff₂, shorter_ok_false_iff,
    longer_ok_false_iff]
  constructor
  · rintro ⟨h1, h2, h3, h4, h5, h6, h7⟩
    exact ⟨h1, h2, h3, h4, h5, h6, h7⟩
  · intro h
    exact ⟨h.enum, h.minimum, h.maximum, h.minLength, h.maxLength, h.minItems, h.maxItems⟩

end

/-- What the runtime finds for a name among the properties of a schema. -/
theorem lookup_propertiesDocument (properties : List ConfigurationProperty) (name : Text) :
    (propertiesDocument properties).lookup name =
      (declaredProperty properties name).map configurationPropertyDocument := by
  induction properties with
  | nil => rfl
  | cons property properties ih =>
    rw [propertiesDocument, List.lookup_cons, declaredProperty, List.find?_cons]
    by_cases h : property.key = name
    · simp [h]
    · rw [beq_eq_false_iff_ne.mpr (Ne.symm h), decide_eq_false h]
      exact ih

/-- The properties of the schema have the keys of the declared ones. -/
theorem keys_propertiesDocument (properties : List ConfigurationProperty) :
    Document.keys (propertiesDocument properties) =
      properties.map ConfigurationProperty.key := by
  induction properties with
  | nil => rfl
  | cons property properties ih =>
    rw [propertiesDocument, List.map_cons, ← ih]
    rfl

/-- The names of the required properties. -/
def requiredNames (properties : List ConfigurationProperty) : List Text :=
  (properties.filter fun property => property.fields.required).map ConfigurationProperty.key

/-- The runtime reads the required names back. -/
theorem schemaRequired_requiredDocument {schema : Members}
    {properties : List ConfigurationProperty}
    (h : get? schema "required" = some (requiredDocument properties)) :
    schemaRequired schema = .ok (requiredNames properties) := by
  unfold schemaRequired
  rw [h]
  show List.mapM _ (List.map _ _) = _
  rw [requiredNames]
  exact Result.mapM_map_eq_ok fun _ _ => rfl

/-- The required names are those of the required properties. -/
theorem mem_requiredNames {properties : List ConfigurationProperty} {name : Text} :
    name ∈ requiredNames properties ↔
      ∃ property ∈ properties, property.fields.required = true ∧ property.key = name := by
  simp [requiredNames, and_assoc]

/-- The checks of the keys of an object accept what fits its properties. -/
theorem validateKeys_iff_keysAccept {members : Members}
    {properties : List ConfigurationProperty} {path : Text} :
    validateKeys members (propertiesDocument properties) (requiredNames properties) path = .ok () ↔
      KeysAccept properties members := by
  unfold validateKeys
  simp only [Result.check_bind_ok_iff, raiseIf_ok_iff, ne_eq, not_not, sorted_eq_nil_iff,
    List.filter_eq_nil_iff, keys_propertiesDocument, decide_eq_true_eq, List.mem_dedup,
    mem_requiredNames]
  constructor
  · rintro ⟨hdeclared, hrequired⟩
    refine ⟨hdeclared, ?_⟩
    intro property hmem hproperty
    exact hrequired property.key ⟨property, hmem, hproperty, rfl⟩
  · intro h
    refine ⟨h.declared, ?_⟩
    rintro name ⟨property, hmem, hproperty, rfl⟩
    exact h.required property hmem hproperty

/-- The loop over the items accepts what every item of the array accepts. -/
theorem validateItems_ok_iff {schema items : Members} {P : Document → Prop}
    (hitems : get? schema "items" = some (.obj items))
    (hitem : ∀ {value path}, validateValue items path value = .ok () ↔ P value) {path : Text} :
    ∀ {index : Nat} {values : List Document},
      validateItems schema path index values = .ok () ↔ ∀ value ∈ values, P value := by
  intro index values
  induction values generalizing index with
  | nil => simp [validateItems]
  | cons value values ih =>
    rw [validateItems, hitems, Result.check_bind_ok_iff, ih, List.forall_mem_cons]
    exact and_congr_left fun _ => hitem

/-- The loop over the members accepts what their properties accept. -/
theorem validateMembers_ok_iff {properties : List ConfigurationProperty}
    (hvalue : ∀ property ∈ properties, ∀ {schema value path},
      configurationPropertyDocument property = .obj schema →
        (validateValue schema path value = .ok () ↔ Accepts property value))
    {path : Text} {members : Members} :
    validateMembers (propertiesDocument properties) path members = .ok () ↔
      ∀ entry ∈ members, ∃ property ∈ declaredProperty properties entry.1,
        Accepts property entry.2 := by
  induction members with
  | nil => simp [validateMembers]
  | cons entry members ih =>
    obtain ⟨name, value⟩ := entry
    rw [validateMembers, Result.check_bind_ok_iff, ih, List.forall_mem_cons,
      lookup_propertiesDocument]
    refine and_congr_left fun _ => ?_
    cases hdeclared : declaredProperty properties name with
    | none => simp
    | some property =>
      obtain ⟨schema, hschema, _⟩ := schemaOf_configurationPropertyDocument property
      simp only [Option.map_some, hschema, Option.mem_some_iff, exists_eq_left']
      exact hvalue property (List.mem_of_find?_eq_some hdeclared) hschema

/-- The name of a kind is read back. -/
theorem kindNamed_name (kind : ConfigurationKind) :
    kindNamed (ofString kind.name) = some kind := by
  cases kind with
  | scalar kind => cases kind <;> decide
  | array => decide
  | object => decide

/-- The runtime reads the kind of a schema back. -/
theorem schemaKind_eq {schema : Members} {kind : ConfigurationKind}
    {fields : ConfigurationFields} (h : SchemaFields schema kind fields) :
    schemaKind schema = .ok kind := by
  unfold schemaKind
  rw [h.type]
  simp only [Document.string, kindNamed_name]

/-- What the runtime checks of a value of the kind. -/
theorem validateAs_ok_iff {schema : Members} {kind : ConfigurationKind}
    {fields : ConfigurationFields} (hfound : SchemaFields schema kind fields)
    (htyped : FieldsTyped kind fields) {path : Text} {value : Document}
    {check : ConfigurationKind → Except Exn Unit} :
    validateAs schema path value check = .ok () ↔ check kind = .ok () ∧ FieldsAccept fields value := by
  rw [validateAs, schemaKind_eq hfound, Result.ok_bind, Result.check_bind_ok_iff,
    validateFields_iff_fieldsAccept hfound htyped]

/-- What a scalar property accepts. -/
theorem accepts_scalar_iff {fields : ConfigurationFields} {kind : ConfigurationScalarKind}
    {value : Document} :
    Accepts (.scalar fields kind) value ↔
      isConfigurationScalar value kind = true ∧ FieldsAccept fields value := by
  constructor
  · intro h
    cases h with
    | scalar of_kind fields_accept => exact ⟨of_kind, fields_accept⟩
  · rintro ⟨of_kind, fields_accept⟩
    exact .scalar of_kind fields_accept

/-- What an array property accepts. -/
theorem accepts_array_iff {fields : ConfigurationFields} {items : ConfigurationProperty}
    {value : Document} :
    Accepts (.array fields items) value ↔
      ∃ values, value = .arr values ∧ (∀ value ∈ values, Accepts items value) ∧
        FieldsAccept fields value := by
  constructor
  · intro h
    cases h with
    | array items_accept fields_accept => exact ⟨_, rfl, items_accept, fields_accept⟩
  · rintro ⟨values, rfl, items_accept, fields_accept⟩
    exact .array items_accept fields_accept

/-- What an object property accepts. -/
theorem accepts_object_iff {fields : ConfigurationFields}
    {properties : List ConfigurationProperty} {value : Document} :
    Accepts (.object fields properties) value ↔
      ∃ members, value = .obj members ∧ MembersAccept properties members ∧
        FieldsAccept fields value := by
  constructor
  · intro h
    cases h with
    | object keys_accept members_accept fields_accept =>
      exact ⟨_, rfl, ⟨keys_accept, members_accept⟩, fields_accept⟩
  · rintro ⟨members, rfl, h, fields_accept⟩
    exact .object h.keys_accept h.members_accept fields_accept

/-- When all names are declared, the members that the loop looks at are all members. -/
theorem membersAccept_iff {properties : List ConfigurationProperty} {members : Members} :
    MembersAccept properties members ↔ KeysAccept properties members ∧
      ∀ entry ∈ members, ∃ property ∈ declaredProperty properties entry.1,
        Accepts property entry.2 := by
  constructor
  · intro h
    refine ⟨h.keys_accept, ?_⟩
    intro entry hentry
    have hname := h.keys_accept.declared entry.1 (List.mem_map_of_mem hentry)
    cases hdeclared : declaredProperty properties entry.1 with
    | none => exact absurd hdeclared (declaredProperty_ne_none hname)
    | some property => exact ⟨property, rfl, h.members_accept entry hentry property hdeclared⟩
  · rintro ⟨hkeys, hmembers⟩
    refine ⟨hkeys, ?_⟩
    intro entry hentry property hproperty
    obtain ⟨other, hother, haccepts⟩ := hmembers entry hentry
    cases Option.mem_unique hproperty hother
    exact haccepts

/-- `_validate_value` accepts exactly the values of the property, under every schema of it. -/
theorem validateValue_ok_iff {property : ConfigurationProperty} (htyped : Typed property) :
    ∀ {schema value path}, SchemaOf schema property →
      (validateValue schema path value = .ok () ↔ Accepts property value) := by
  induction htyped with
  | scalar hfields =>
    intro schema value path hschema
    cases hschema with
    | scalar hfound =>
      rw [accepts_scalar_iff]
      cases value <;>
        simp only [validateValue, validateAs_ok_iff hfound hfields, validateScalar_ok_iff]
  | @array fields items hfields _ ih =>
    intro schema value path hschema
    cases hschema with
    | array hfound hitems =>
      obtain ⟨under, hunder, hschema⟩ := schemaOf_configurationPropertyDocument items
      rw [hunder] at hitems
      rw [accepts_array_iff]
      cases value with
      | arr values =>
        rw [validateValue, validateAs_ok_iff hfound hfields,
          validateItems_ok_iff hitems (ih hschema)]
        simp
      | null | bool _ | int _ | float _ | str _ | date _ | obj _ =>
        simp [validateValue, validateAs_ok_iff hfound hfields, fail]
  | @object fields properties hfields hproperties ih =>
    intro schema value path hschema
    cases hschema with
    | object hfound _ hdeclared hrequired =>
      have hread : schemaProperties schema = .ok (propertiesDocument properties) := by
        rw [schemaProperties, hdeclared]
      have hvalue : ∀ property ∈ properties, ∀ {schema value path},
          configurationPropertyDocument property = .obj schema →
            (validateValue schema path value = .ok () ↔ Accepts property value) := by
        intro property hmem schema value path heq
        obtain ⟨other, hother, hschema⟩ := schemaOf_configurationPropertyDocument property
        cases heq.symm.trans hother
        exact ih property hmem hschema
      rw [accepts_object_iff]
      cases value with
      | obj members =>
        rw [validateValue, validateAs_ok_iff hfound hfields, hread, Result.ok_bind,
          schemaRequired_requiredDocument hrequired, Result.ok_bind, Result.check_bind_ok_iff,
          validateKeys_iff_keysAccept, validateMembers_ok_iff hvalue, ← membersAccept_iff]
        simp
      | null | bool _ | int _ | float _ | str _ | date _ | arr _ =>
        simp [validateValue, validateAs_ok_iff hfound hfields, fail]

/-! ### Schemas -/

/-- The schema has only fields that its kind allows. -/
def KeysAllowed (schema : Members) (kind : ConfigurationKind) : Prop :=
  ∀ key ∈ Document.keys schema, key ∈ (allowedFields kind).map ofString

section
variable {schema : Members} {kind : ConfigurationKind} {fields : ConfigurationFields}
  {path : Text}

/-- The check of a schema reads its kind. -/
theorem readKind_eq (h : SchemaFields schema kind fields) : readKind schema path = .ok kind := by
  unfold readKind
  rw [h.type]
  simp only [Document.string, kindNamed_name]

/-- The fields of the schema are allowed. -/
theorem keysOptional_ok (h : SchemaFields schema kind fields) (hkeys : KeysAllowed schema kind) :
    keysOptional schema (allowedFields kind) ["type"] path = .ok () := by
  unfold keysOptional
  have hmissing : (["type"].filter fun key => ¬ contains schema key) = [] := by
    simp [contains, h.type]
  have hunknown : (Document.keys schema).filter
      (fun key => key ∉ (allowedFields kind).map ofString) = [] := by
    rw [List.filter_eq_nil_iff]
    intro key hkey
    simpa using hkeys key hkey
  rw [raiseIf_ok_iff, hmissing, hunknown]
  simp

/-- The description of the schema is valid. -/
theorem validateDescription_ok (h : SchemaFields schema kind fields) :
    validateDescription schema path = .ok () := by
  have hfound := present_eq h.description (by cases fields.description <;> simp)
  unfold validateDescription
  rw [hfound]
  cases hdescription : fields.description with
  | none => rfl
  | some text => exact failIf_ok_iff.mpr text.text_ne_nil

/-- The enum of the schema is valid. -/
theorem validateEnum_ok (h : SchemaFields schema kind fields) (hformed : FieldsFormed kind fields) :
    validateEnum schema kind path = .ok () := by
  unfold validateEnum
  rw [h.enum]
  cases henum : fields.enum with
  | nil => rfl
  | cons first rest =>
    obtain ⟨scalar, rfl, _⟩ := hformed.enum_scalar first (by simp [henum])
    have hdistinct := hformed.enum_distinct
    rw [henum] at hdistinct
    refine Result.check_bind_ok_iff.mpr ⟨Result.forM_ok_iff.mpr ?_, failIf_ok_iff.mpr ?_⟩
    · intro candidate hcandidate
      obtain ⟨other, hother, hscalar⟩ := hformed.enum_scalar candidate (henum ▸ hcandidate)
      cases hother
      exact validateScalar_ok_iff.mpr hscalar
    · exact not_not.mpr hdistinct

/-- A bound that its check accepts is valid. -/
theorem validateBound_ok {name : String} {check : Document → Text → Except Exn Unit}
    {bound : Option Document} (hbound : present schema name = bound)
    (hcheck : ∀ value ∈ bound, ∀ path, check value path = .ok ()) :
    validateBound schema name check path = .ok () := by
  unfold validateBound
  rw [hbound]
  cases bound with
  | none => rfl
  | some value => exact hcheck value rfl _

/-- A pass over two bounds succeeds when each is valid and the first is at most the second. -/
theorem validateBounds_ok {lower upper : String} {check : Document → Text → Except Exn Unit}
    {least most : Option Document} (hlower : present schema lower = least)
    (hupper : present schema upper = most)
    (hleast : ∀ value ∈ least, ∀ path, check value path = .ok ())
    (hmost : ∀ value ∈ most, ∀ path, check value path = .ok ())
    (hle : ∀ a ∈ least, ∀ b ∈ most, AtMost a b) :
    validateBounds schema lower upper check path = .ok () := by
  unfold validateBounds
  rw [Result.check_bind_ok_iff, Result.check_bind_ok_iff, hlower, hupper]
  refine ⟨validateBound_ok hlower hleast, validateBound_ok hupper hmost, ?_⟩
  cases least with
  | none => rfl
  | some a =>
    cases most with
    | none => rfl
    | some b =>
      show (lessThan b a >>= fun inconsistent => _) = _
      rw [lessThan_ok_false_iff.mpr (hle a rfl b rfl), Result.ok_bind]
      exact failIf_ok_iff.mpr Bool.false_ne_true

/-- The range of the schema is valid. -/
theorem validateRange_ok (h : SchemaFields schema kind fields) (hformed : FieldsFormed kind fields) :
    validateBounds schema "minimum" "maximum" (validateNumber kind) path = .ok () := by
  have hcheck : ∀ {bound : Option Document}, (∀ value ∈ bound, ∃ scalar, kind = .scalar scalar ∧
      Compiler.IsNumeric scalar ∧ isConfigurationScalar value scalar = true) →
        ∀ value ∈ bound, ∀ path, validateNumber kind value path = .ok () := by
    intro bound htyped value hvalue path
    obtain ⟨scalar, rfl, _, hscalar⟩ := htyped value hvalue
    exact validateScalar_ok_iff.mpr hscalar
  have htyped := hformed.typed
  exact validateBounds_ok (present_eq h.minimum (ne_null_of_typed htyped.minimum))
    (present_eq h.maximum (ne_null_of_typed htyped.maximum)) (hcheck htyped.minimum)
    (hcheck htyped.maximum) hformed.range

/-- The bounds of a length are valid. -/
theorem validateCounts_ok {lower upper : String} {least most : Option Int}
    (hlower : get? schema lower = least.map .int) (hupper : get? schema upper = most.map .int)
    (hformed : CountsFormed least most) :
    validateBounds schema lower upper validateCount path = .ok () := by
  have hcheck : ∀ {bound : Option Int}, (∀ n ∈ bound, 0 ≤ n) →
      ∀ value ∈ bound.map Document.int, ∀ path, validateCount value path = .ok () := by
    intro bound hnonneg value hvalue path
    obtain ⟨n, hn, rfl⟩ := Option.mem_map.mp hvalue
    exact failIf_ok_iff.mpr (not_lt.mpr (hnonneg n hn))
  refine validateBounds_ok (present_eq hlower (map_int_ne_null _))
    (present_eq hupper (map_int_ne_null _)) (hcheck hformed.least_nonneg)
    (hcheck hformed.most_nonneg) ?_
  intro a ha b hb
  obtain ⟨n, hn, rfl⟩ := Option.mem_map.mp ha
  obtain ⟨m, hm, rfl⟩ := Option.mem_map.mp hb
  exact ⟨_, rfl, _, rfl, by exact_mod_cast hformed.le n hn m hm⟩

/-- No value of a property is null. -/
theorem Accepts.ne_null {property : ConfigurationProperty} {value : Document}
    (h : Accepts property value) : value ≠ .null := by
  cases h with
  | scalar of_kind _ => exact (leaf_of_isConfigurationScalar of_kind).1
  | array _ _ => simp
  | object _ _ _ => simp

/-- The default of the schema is valid. -/
theorem validateDefault_ok {property : ConfigurationProperty} (htyped : Typed property)
    (hschema : SchemaOf schema property)
    (hfound : get? schema "default" = property.fields.default) {root : Bool}
    (hroot : root = true → property.fields.default = none) (hformed : DefaultFormed property) :
    validateDefault root schema path = .ok () := by
  unfold validateDefault
  rw [hfound]
  cases hdefault : property.fields.default with
  | none => rfl
  | some default =>
    have haccepts := hformed.accepted default hdefault
    have hnot : ¬ root = true := by
      intro htrue
      rw [hroot htrue] at hdefault
      cases hdefault
    have hvalid : ∀ path, validateValue schema path default = .ok () := fun path =>
      (validateValue_ok_iff htyped hschema).mpr haccepts
    -- The default is not null, so the second branch is not taken.
    cases default with
    | null => exact absurd rfl haccepts.ne_null
    | bool _ | int _ | float _ | str _ | date _ | arr _ | obj _ =>
      exact Result.check_bind_ok_iff.mpr ⟨failIf_ok_iff.mpr hnot, hvalid _⟩

end

/-- The properties of an object schema are found. -/
theorem validatePropertiesAt_eq {required : List Text} {path : Text} {members properties : Members}
    (h : get? members "properties" = some (.obj properties)) :
    validatePropertiesAt required path members = validateProperties required path properties := by
  unfold get? at h
  induction members with
  | nil => cases h
  | cons member members ih =>
    obtain ⟨key, value⟩ := member
    rw [List.lookup_cons] at h
    by_cases hkey : key = ofString "properties"
    · rw [hkey, beq_self_eq_true] at h
      cases h
      rw [validatePropertiesAt, if_pos hkey]
    · rw [beq_eq_false_iff_ne.mpr (Ne.symm hkey)] at h
      cases value with
      | obj _ => rw [validatePropertiesAt, if_neg hkey, ih h]
      | null | bool _ | int _ | float _ | str _ | date _ | arr _ =>
        rw [validatePropertiesAt, ih h]
        simp

/-- The items of an array schema are found. -/
theorem validateItemsAt_eq {path : Text} {members : Members} {items : Document}
    (h : get? members "items" = some items) :
    validateItemsAt path members = validateSchema false (child path "items") items := by
  unfold get? at h
  induction members with
  | nil => cases h
  | cons member members ih =>
    obtain ⟨key, value⟩ := member
    rw [List.lookup_cons] at h
    by_cases hkey : key = ofString "items"
    · rw [hkey, beq_self_eq_true] at h
      cases h
      rw [validateItemsAt, if_pos hkey]
    · rw [beq_eq_false_iff_ne.mpr (Ne.symm hkey)] at h
      rw [validateItemsAt, if_neg hkey, ih h]

/-- A property has a name. -/
theorem key_ne_nil (property : ConfigurationProperty) : property.key ≠ [] :=
  Utf8.ofString_ne_nil property.fields.name.name_ne_empty

/-- The names of the required properties are read back. -/
theorem readRequired_requiredDocument {schema : Members}
    {properties : List ConfigurationProperty} {path : Text}
    (h : get? schema "required" = some (requiredDocument properties)) :
    readRequired schema path = .ok (requiredNames properties) := by
  unfold readRequired
  rw [h]
  show List.mapM _ (List.map _ _) = _
  rw [requiredNames]
  refine Result.mapM_map_eq_ok fun property _ => ?_
  have hkey := key_ne_nil property
  cases hpoints : property.key with
  | nil => exact absurd hpoints hkey
  | cons point name => rfl

/-- A document of a property has a default exactly when the property does. -/
theorem hasDefault_eq {schema : Members} {property : ConfigurationProperty}
    (h : SchemaOf schema property) :
    hasDefault (.obj schema) = property.fields.default.isSome := by
  have hfound : get? schema "default" = property.fields.default := by
    cases h with
    | scalar hfound => exact hfound.default
    | array hfound _ => exact hfound.default
    | object hfound _ _ _ => exact hfound.default
  rw [hasDefault, contains, hfound]

/-- The loop over the properties succeeds when each schema does. -/
theorem validateProperties_ok {properties all : List ConfigurationProperty} {path : Text}
    (hnames : (all.map ConfigurationProperty.key).Nodup)
    (hsub : ∀ property ∈ properties, property ∈ all)
    (hformed : ∀ property ∈ properties, DefaultFormed property)
    (hschema : ∀ property ∈ properties, ∀ path,
      validateSchema false path (configurationPropertyDocument property) = .ok ()) :
    validateProperties (requiredNames all) path (propertiesDocument properties) = .ok () := by
  induction properties with
  | nil => rfl
  | cons property properties ih =>
    rw [List.forall_mem_cons] at hsub hformed hschema
    rw [propertiesDocument, validateProperties, Result.check_bind_ok_iff, Result.check_bind_ok_iff,
      Result.check_bind_ok_iff]
    refine ⟨failIf_ok_iff.mpr (key_ne_nil property), hschema.1 _, ?_,
      ih hsub.2 hformed.2 hschema.2⟩
    rw [failIf_ok_iff]
    rintro ⟨hrequired, hdefault⟩
    obtain ⟨schema, hdocument, hof⟩ := schemaOf_configurationPropertyDocument property
    rw [hdocument, hasDefault_eq hof] at hdefault
    obtain ⟨other, hother, hneeded, hkey⟩ := mem_requiredNames.mp hrequired
    -- The names are distinct, so the required property of this name is the property itself.
    have hsame : other = property := List.inj_on_of_nodup_map hnames hother hsub.1 hkey
    have hfree := hformed.1.not_required (Option.ne_none_iff_isSome.mpr hdefault)
    rw [← hsame, hneeded] at hfree
    cases hfree

/-- The key of a field that may be left out. -/
theorem mem_map_optional {key name : String} {value : Option Document} :
    key ∈ (Compiler.optional name value).map Prod.fst ↔ value ≠ none ∧ key = name := by
  cases value <;> simp [Compiler.optional]

/-- The fields that the compiler writes are fields that the kind allows. -/
theorem mem_allowedFields {kind : ConfigurationKind} {fields : ConfigurationFields}
    (htyped : FieldsTyped kind fields) :
    ∀ key ∈ (fieldsDocument kind fields).map Prod.fst, key ∈ allowedFields kind := by
  intro key hkey
  simp only [fieldsDocument, List.cons_append, List.map_cons, List.map_append, List.mem_cons,
    List.mem_append, mem_map_optional] at hkey
  have hnumeric : ∀ {bound : Option Document}, (∀ value ∈ bound, ∃ scalar,
      kind = .scalar scalar ∧ Compiler.IsNumeric scalar ∧
        isConfigurationScalar value scalar = true) → bound ≠ none →
      kind = .scalar .integer ∨ kind = .scalar .number := by
    intro bound h hne
    obtain ⟨value, hvalue⟩ := Option.ne_none_iff_exists'.mp hne
    obtain ⟨scalar, rfl, hscalar | hscalar, _⟩ := h value hvalue
    · exact .inl (by rw [hscalar])
    · exact .inr (by rw [hscalar])
  rcases hkey with rfl | (((((((⟨_, rfl⟩ | ⟨_, rfl⟩) | ⟨_, rfl⟩) | ⟨hne, rfl⟩) | ⟨hne, rfl⟩) |
    ⟨hne, rfl⟩) | ⟨hne, rfl⟩) | ⟨hne, rfl⟩) | ⟨hne, rfl⟩
  · simp [allowedFields]
  · simp [allowedFields]
  · simp [allowedFields]
  · simp [allowedFields]
  · rcases hnumeric htyped.minimum hne with rfl | rfl <;> simp [allowedFields]
  · rcases hnumeric htyped.maximum hne with rfl | rfl <;> simp [allowedFields]
  · cases htyped.minLength fun hnone => hne (by rw [hnone]; rfl)
    simp [allowedFields]
  · cases htyped.maxLength fun hnone => hne (by rw [hnone]; rfl)
    simp [allowedFields]
  · cases htyped.minItems fun hnone => hne (by rw [hnone]; rfl)
    simp [allowedFields]
  · cases htyped.maxItems fun hnone => hne (by rw [hnone]; rfl)
    simp [allowedFields]

/-- Allowed fields stay allowed in the document. -/
theorem keysAllowed_membersOf {members : List (String × Document)} {kind : ConfigurationKind}
    (h : ∀ key ∈ members.map Prod.fst, key ∈ allowedFields kind) :
    KeysAllowed (membersOf members) kind := by
  intro key hkey
  rw [Document.keys_membersOf] at hkey
  obtain ⟨name, hname, rfl⟩ := List.mem_map.mp hkey
  exact List.mem_map_of_mem (h name hname)

/-- The document of a property, with all that the runtime finds in it. -/
theorem exists_schema {property : ConfigurationProperty} (h : Typed property) :
    ∃ schema, configurationPropertyDocument property = .obj schema ∧ SchemaOf schema property ∧
      KeysAllowed schema property.kind := by
  obtain ⟨schema, hdocument, hschema⟩ := schemaOf_configurationPropertyDocument property
  refine ⟨schema, hdocument, hschema, ?_⟩
  have hfields := mem_allowedFields h.fields_typed
  cases property with
  | scalar fields kind =>
    cases hdocument
    exact keysAllowed_membersOf hfields
  | array fields items =>
    cases hdocument
    refine keysAllowed_membersOf ?_
    rw [List.map_append, List.forall_mem_append]
    exact ⟨hfields, by simp [allowedFields, ConfigurationProperty.kind]⟩
  | object fields properties =>
    cases hdocument
    refine keysAllowed_membersOf ?_
    rw [List.map_append, List.forall_mem_append]
    exact ⟨hfields, by simp [allowedFields, ConfigurationProperty.kind]⟩

/-- `_validate_schema` accepts every schema of a well-formed property. A root describes an object
without a default. -/
theorem validateSchema_schemaOf {property : ConfigurationProperty} (h : WellFormed property) :
    ∀ {schema root path}, SchemaOf schema property → KeysAllowed schema property.kind →
      (root = true → property.kind = .object ∧ property.fields.default = none) →
        validateSchema root path (.obj schema) = .ok () := by
  have htyped := h.typed
  induction h with
  | scalar hfields hdefault =>
    intro schema root path hschema hkeys hroot
    cases hschema with
    | scalar hfound =>
      have hkind : ¬ (root = true ∧ _ ≠ ConfigurationKind.object) :=
        fun hbad => hbad.2 (hroot hbad.1).1
      rw [validateSchema, readKind_eq hfound, Result.ok_bind]
      simp only [Result.check_bind_ok_iff]
      exact ⟨keysOptional_ok hfound hkeys, failIf_ok_iff.mpr hkind, validateDescription_ok hfound,
        trivial, validateEnum_ok hfound hfields, validateRange_ok hfound hfields,
        validateCounts_ok hfound.minLength hfound.maxLength hfields.lengths,
        validateCounts_ok hfound.minItems hfound.maxItems hfields.items,
        validateDefault_ok htyped (.scalar hfound) hfound.default (fun hr => (hroot hr).2) hdefault⟩
  | @array fields items hfields hdefault hitems ih =>
    intro schema root path hschema hkeys hroot
    cases hschema with
    | array hfound hfoundItems =>
      have hkind : ¬ (root = true ∧ ConfigurationKind.array ≠ ConfigurationKind.object) :=
        fun hbad => hbad.2 (hroot hbad.1).1
      have hunder : validateItemsAt path schema = .ok () := by
        obtain ⟨under, hdocument, hof, hallowed⟩ := exists_schema hitems.typed
        rw [validateItemsAt_eq hfoundItems, hdocument]
        exact ih hitems.typed hof hallowed (by simp)
      rw [validateSchema, readKind_eq hfound, Result.ok_bind]
      simp only [Result.check_bind_ok_iff]
      exact ⟨keysOptional_ok hfound hkeys, failIf_ok_iff.mpr hkind, validateDescription_ok hfound,
        hunder, validateEnum_ok hfound hfields, validateRange_ok hfound hfields,
        validateCounts_ok hfound.minLength hfound.maxLength hfields.lengths,
        validateCounts_ok hfound.minItems hfound.maxItems hfields.items,
        validateDefault_ok htyped (.array hfound hfoundItems) hfound.default
          (fun hr => (hroot hr).2) hdefault⟩
  | @object fields properties hfields hdefault hnames hproperties ih =>
    intro schema root path hschema hkeys hroot
    cases hschema with
    | object hfound hadditional hdeclared hrequired =>
      have hunder : ∀ property ∈ properties, ∀ path,
          validateSchema false path (configurationPropertyDocument property) = .ok () := by
        intro property hmem path
        have htyped := (hproperties property hmem).typed
        obtain ⟨under, hdocument, hof, hallowed⟩ := exists_schema htyped
        rw [hdocument]
        exact ih property hmem htyped hof hallowed (by simp)
      have hloop : validateProperties (requiredNames properties) path
          (propertiesDocument properties) = .ok () := validateProperties_ok hnames
        (fun _ hmem => hmem) (fun property hmem => (hproperties property hmem).default_formed) hunder
      have hnodup : (requiredNames properties).Nodup :=
        hnames.sublist (List.filter_sublist.map _)
      have hknown : ∀ name ∈ requiredNames properties,
          name ∈ Document.keys (propertiesDocument properties) := by
        intro name hname
        obtain ⟨property, hmem, _, rfl⟩ := mem_requiredNames.mp hname
        rw [keys_propertiesDocument]
        exact List.mem_map_of_mem hmem
      rw [validateSchema, readKind_eq hfound, Result.ok_bind]
      simp only [Result.check_bind_ok_iff]
      refine ⟨keysOptional_ok hfound hkeys, failIf_ok_iff.mpr (by simp),
        validateDescription_ok hfound, ⟨?_, ?_⟩, validateEnum_ok hfound hfields,
        validateRange_ok hfound hfields,
        validateCounts_ok hfound.minLength hfound.maxLength hfields.lengths,
        validateCounts_ok hfound.minItems hfound.maxItems hfields.items,
        validateDefault_ok htyped (.object hfound hadditional hdeclared hrequired) hfound.default
          (fun hr => (hroot hr).2) hdefault⟩
      · unfold validateAdditional
        rw [hadditional]
      · have hread : object (get? schema "properties") (child path "properties") =
            .ok (propertiesDocument properties) := by
          rw [hdeclared]
          rfl
        rw [hread, Result.ok_bind, readRequired_requiredDocument hrequired, Result.ok_bind,
          Result.check_bind_ok_iff, failIf_ok_iff]
        refine ⟨?_, ?_⟩
        · rintro (hdup | ⟨name, hname, hunknown⟩)
          · exact hdup hnodup
          · exact hunknown (hknown name hname)
        · rw [validatePropertiesAt_eq hdeclared]
          exact hloop

/-! ### The configuration -/

/-- The properties of a configuration at every level. -/
inductive Within (properties : List ConfigurationProperty) : ConfigurationProperty → Prop where
  | top {property : ConfigurationProperty} (h : property ∈ properties) : Within properties property
  | items {fields : ConfigurationFields} {items : ConfigurationProperty}
      (h : Within properties (.array fields items)) : Within properties items
  | child {fields : ConfigurationFields} {children : List ConfigurationProperty}
      {property : ConfigurationProperty} (h : Within properties (.object fields children))
      (hmem : property ∈ children) : Within properties property

/-- The properties below well-formed ones are well formed. -/
theorem WellFormed.within {properties : List ConfigurationProperty}
    (hall : ∀ property ∈ properties, WellFormed property) {property : ConfigurationProperty}
    (h : Within properties property) : WellFormed property := by
  induction h with
  | top hmem => exact hall _ hmem
  | items _ ih =>
    cases ih with
    | array _ _ hitems => exact hitems
  | child _ hmem ih =>
    cases ih with
    | object _ _ _ hproperties => exact hproperties _ hmem

/-- The configuration as one property: an object without a default and without bounds. -/
def asProperty (configuration : Compiler.Configuration) : ConfigurationProperty :=
  .object ⟨⟨"item", Compiler.isIdentifier_item⟩, true, configuration.description, none, [], none,
    none, none, none, none, none⟩ configuration.properties

/-- The configuration is a well-formed property. -/
theorem wellFormed_asProperty {configuration : Compiler.Configuration}
    (h : ConfigurationFormed configuration) : WellFormed (asProperty configuration) := by
  refine .object ?_ (defaultFormed_of_none rfl) h.names_distinct h.wellFormed
  have hnone : ∀ {α : Type} {P : α → Prop}, ∀ a ∈ (none : Option α), P a := by
    intro α P a ha
    cases ha
  exact {
    typed := ⟨by simp, hnone, hnone, by simp, by simp, by simp, by simp, hnone⟩
    enum_scalar := by simp
    enum_distinct := .nil
    range := hnone
    lengths := ⟨hnone, hnone, hnone⟩
    items := ⟨hnone, hnone, hnone⟩ }

/-- The schema document of a configuration is a schema of it as a property. -/
theorem schemaOf_configurationSchema (configuration : Compiler.Configuration) :
    ∃ schema, Compiler.configurationSchema configuration = .obj schema ∧
      SchemaOf schema (asProperty configuration) ∧ KeysAllowed schema .object := by
  refine ⟨_, rfl, .object ?_ ?_ ?_ ?_, keysAllowed_membersOf ?_⟩
  · constructor <;> simp [lookup_optional, ConfigurationKind.name]
  · simp
  · simp
  · simp
  · intro key hkey
    simp only [List.map_append, List.mem_append, mem_map_optional] at hkey
    rcases hkey with hkey | ⟨_, rfl⟩
    · simp only [List.map_cons, List.map_nil, List.mem_cons, List.not_mem_nil, or_false] at hkey
      rcases hkey with rfl | rfl | rfl | rfl <;> simp [allowedFields]
    · simp [allowedFields]

/-- As a property the configuration accepts the same members. -/
theorem membersAccept_asProperty {configuration : Compiler.Configuration} {members : Members} :
    Accepts (asProperty configuration) (.obj members) ↔
      MembersAccept configuration.properties members := by
  rw [asProperty, accepts_object_iff]
  constructor
  · rintro ⟨_, heq, h, _⟩
    cases heq
    exact h
  · intro h
    have hnone : ∀ {α : Type} {P : α → Prop}, ∀ a ∈ (none : Option α), P a := by
      intro α P a ha
      cases ha
    exact ⟨members, rfl, h, ⟨fun hne => absurd rfl hne, hnone, hnone, hnone, hnone, hnone, hnone⟩⟩

/-- `_validate_configuration_object` accepts exactly the members that fit the properties, when a
float can hold their integers. -/
theorem validateConfigurationObject_ok_iff {properties : List ConfigurationProperty}
    (htyped : ∀ property ∈ properties, Typed property) {members : Members} {path : Text} :
    Compiler.validateConfigurationObject members properties path = .ok () ↔
      MembersAccept properties members ∧ Holds (.obj members) := by
  constructor
  · intro h
    have haccept := membersAccept_of_validateConfigurationObject htyped h
    refine ⟨haccept, .obj (not_exceeds_obj members) ?_⟩
    obtain ⟨hkeys, hloop⟩ := Result.check_bind_ok_iff.mp h
    intro entry hentry
    have hvalid := Result.forM_ok_iff.mp hloop entry hentry
    have hname := haccept.keys_accept.declared entry.1 (List.mem_map_of_mem hentry)
    rw [validateDeclared_eq] at hvalid
    cases hdeclared : declaredProperty properties entry.1 with
    | none => exact absurd hdeclared (declaredProperty_ne_none hname)
    | some property =>
      rw [hdeclared] at hvalid
      exact holds_of_validate (htyped property (List.mem_of_find?_eq_some hdeclared)) hvalid
  · rintro ⟨h, hholds⟩
    refine Result.check_bind_ok_iff.mpr
      ⟨validateKeys_ok_iff.mpr h.keys_accept, Result.forM_ok_iff.mpr ?_⟩
    intro entry hentry
    rw [validateDeclared_eq]
    cases hdeclared : declaredProperty properties entry.1 with
    | none => rfl
    | some property =>
      exact validate_of_accepts (h.members_accept entry hentry property hdeclared)
        (hholds.members entry hentry) _

/-- The compiler and the runtime agree on a property: the runtime accepts the schema that the
compiler writes, and both accept the same values. The compiler raises for an integer that no float
can hold. -/
structure PropertyAgrees (property : ConfigurationProperty) (schema : Members) : Prop where
  schema_accepted : ∀ path, validateSchema false path (.obj schema) = .ok ()
  same_values : ∀ value path path',
    Compiler.validateConfigurationValue property value path = .ok () ↔
      validateValue schema path' value = .ok () ∧ Holds value

/-- The compiler and the runtime agree on a configuration. -/
structure ConfigurationAgrees (configuration : Compiler.Configuration) (schema : Members) :
    Prop where
  schema_accepted : ∀ path, validateSchema true path (.obj schema) = .ok ()
  examples_accepted : ∀ entry ∈ configuration.examples, ∀ path,
    validateValue schema path (.obj entry.2) = .ok ()
  same_objects : ∀ members path path',
    Compiler.validateConfigurationObject members configuration.properties path = .ok () ↔
      validateValue schema path' (.obj members) = .ok () ∧ Holds (.obj members)
  properties_agree : ∀ property, Within configuration.properties property →
    ∃ schema, configurationPropertyDocument property = .obj schema ∧
      PropertyAgrees property schema

/-- Compiler and runtime agree on a well-formed property. -/
theorem propertyAgrees_of_wellFormed {property : ConfigurationProperty} (h : WellFormed property) :
    ∃ schema, configurationPropertyDocument property = .obj schema ∧
      PropertyAgrees property schema := by
  obtain ⟨schema, hdocument, hschema, hkeys⟩ := exists_schema h.typed
  refine ⟨schema, hdocument, ?_, ?_⟩
  · intro path
    exact validateSchema_schemaOf h hschema hkeys (by simp)
  · intro value path path'
    rw [validateConfigurationValue_ok_iff h.typed, validateValue_ok_iff h.typed hschema]

/-- For every configuration that the compiler accepts, the runtime accepts its schema and its
examples, and at every level both accept the same values. -/
theorem configuration_agreement {floats : Json.FloatText} {value : Members}
    {result : Compiler.Configuration}
    (hdistinct : Document.Everywhere Document.DistinctKeys (.obj value))
    (h : Compiler.configuration floats value = .ok result) :
    ∃ schema, Compiler.configurationSchema result = .obj schema ∧
      ConfigurationAgrees result schema := by
  have hformed := configurationFormed_of_configuration hdistinct h
  have hroot := wellFormed_asProperty hformed
  obtain ⟨schema, hdocument, hschema, hkeys⟩ := schemaOf_configurationSchema result
  refine ⟨schema, hdocument, ?_, ?_, ?_, ?_⟩
  · intro path
    exact validateSchema_schemaOf hroot hschema hkeys fun _ => ⟨rfl, rfl⟩
  · intro entry hentry path
    rw [validateValue_ok_iff hroot.typed hschema, membersAccept_asProperty]
    exact hformed.examples_accept entry hentry
  · intro members path path'
    rw [validateValue_ok_iff hroot.typed hschema, membersAccept_asProperty]
    exact validateConfigurationObject_ok_iff fun property hmem =>
      (hformed.wellFormed property hmem).typed
  · intro property hwithin
    exact propertyAgrees_of_wellFormed (WellFormed.within hformed.wellFormed hwithin)

/-- The schema of a sample. -/
theorem configuration_agreement_threads : ∃ result schema,
    Compiler.configuration .ofBits threadsSource = .ok result ∧
      Compiler.configurationSchema result = .obj schema ∧ ConfigurationAgrees result schema := by
  have hok : (Compiler.configuration .ofBits threadsSource).isOk = true := by decide +kernel
  cases h : Compiler.configuration .ofBits threadsSource with
  | error e =>
    rw [h] at hok
    cases hok
  | ok result =>
    obtain ⟨schema, hagrees⟩ := configuration_agreement distinctKeys_threadsSource h
    exact ⟨result, schema, rfl, hagrees⟩

end Wmfs.Configuration
