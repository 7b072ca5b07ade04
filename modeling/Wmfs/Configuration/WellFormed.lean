import Wmfs.Configuration.Accepts

/-!
# `Wmfs.Configuration.WellFormed`: the properties that the compiler accepts

A property that `_configuration_property` returns is well formed. Its enum, its bounds and its
default fit its kind, the bounds are consistent, and the default is a value that the property
accepts itself. The names in one object are distinct. The tree has at most as many levels as were
left, and the number beside it is the number of properties in it, so `_configuration` bounds both
(`forms_configurationProperty`).

The documents come from a parser, whose tables have distinct keys.
-/

set_option autoImplicit false

namespace Wmfs.Configuration

open Wmfs.Lib
open Wmfs.Lib.Utf8 (Text ofString)
open Wmfs.Lib.Document (Members get? number? length?)
open Wmfs.Compiler

/-! ### Well-formed properties -/

/-- The bounds on a length are lengths, and the lower one is not above the upper one. -/
structure CountsFormed (least most : Option Int) : Prop where
  least_nonneg : ∀ n ∈ least, 0 ≤ n
  most_nonneg : ∀ n ∈ most, 0 ≤ n
  le : ∀ a ∈ least, ∀ b ∈ most, a ≤ b

/-- The enum and the bounds of a property fit its kind and each other. -/
structure FieldsFormed (kind : ConfigurationKind) (fields : ConfigurationFields) : Prop where
  typed : FieldsTyped kind fields
  enum_scalar : ∀ candidate ∈ fields.enum, ∃ scalar, kind = .scalar scalar ∧
    isConfigurationScalar candidate scalar = true
  enum_distinct : fields.enum.Pairwise fun other value => configurationEqual value other = false
  range : ∀ least ∈ fields.minimum, ∀ most ∈ fields.maximum, AtMost least most
  lengths : CountsFormed fields.minLength fields.maxLength
  items : CountsFormed fields.minItems fields.maxItems

/-- A default is a value of the property, and a required property has none. -/
structure DefaultFormed (property : ConfigurationProperty) : Prop where
  not_required : property.fields.default ≠ none → property.fields.required = false
  accepted : ∀ default ∈ property.fields.default, Accepts property default

/-- The property and all under it are well formed. -/
inductive WellFormed : ConfigurationProperty → Prop where
  | scalar {fields : ConfigurationFields} {kind : ConfigurationScalarKind}
      (fields_formed : FieldsFormed (.scalar kind) fields)
      (default_formed : DefaultFormed (.scalar fields kind)) : WellFormed (.scalar fields kind)
  | array {fields : ConfigurationFields} {items : ConfigurationProperty}
      (fields_formed : FieldsFormed .array fields)
      (default_formed : DefaultFormed (.array fields items))
      (items_formed : WellFormed items) : WellFormed (.array fields items)
  | object {fields : ConfigurationFields} {properties : List ConfigurationProperty}
      (fields_formed : FieldsFormed .object fields)
      (default_formed : DefaultFormed (.object fields properties))
      (names_distinct : (properties.map ConfigurationProperty.key).Nodup)
      (properties_formed : ∀ property ∈ properties, WellFormed property) :
      WellFormed (.object fields properties)

mutual
/-- The number of levels of a property, its own level included. -/
def levelsOf : ConfigurationProperty → Nat
  | .scalar _ _ => 1
  | .array _ items => levelsOf items + 1
  | .object _ properties => levelsOfAll properties + 1

/-- The number of levels of some properties. -/
def levelsOfAll : List ConfigurationProperty → Nat
  | [] => 0
  | property :: properties => max (levelsOf property) (levelsOfAll properties)
end

mutual
/-- The number of named properties under a property. The items of an array have no name. -/
def countUnder : ConfigurationProperty → Nat
  | .scalar _ _ => 0
  | .array _ items => countUnder items
  | .object _ properties => countAll properties

/-- The number of some named properties and of those under them. -/
def countAll : List ConfigurationProperty → Nat
  | [] => 0
  | property :: properties => 1 + countUnder property + countAll properties
end

/-! ### A default does not change the values of a property -/

/-- A default does not change what a property accepts. -/
theorem accepts_withDefault {property : ConfigurationProperty} {default : Option Document}
    {value : Document} (h : Accepts property value) :
    Accepts (property.withDefault default) value := by
  cases h with
  | scalar of_kind fields_accept => exact .scalar of_kind { fields_accept with }
  | array items_accept fields_accept => exact .array items_accept { fields_accept with }
  | object keys_accept members_accept fields_accept =>
    exact .object keys_accept members_accept { fields_accept with }

/-- A default adds no level. -/
@[simp] theorem levelsOf_withDefault (property : ConfigurationProperty)
    (default : Option Document) :
    levelsOf (property.withDefault default) = levelsOf property := by
  cases property <;> rfl

/-- A default adds no property. -/
@[simp] theorem countUnder_withDefault (property : ConfigurationProperty)
    (default : Option Document) :
    countUnder (property.withDefault default) = countUnder property := by
  cases property <;> rfl

/-- A default keeps the name. -/
@[simp] theorem name_withDefault (property : ConfigurationProperty) (default : Option Document) :
    (property.withDefault default).fields.name = property.fields.name := by
  cases property <;> rfl

/-- A default keeps what is required. -/
@[simp] theorem required_withDefault (property : ConfigurationProperty)
    (default : Option Document) :
    (property.withDefault default).fields.required = property.fields.required := by
  cases property <;> rfl

/-- A well-formed property is typed. -/
theorem WellFormed.typed {property : ConfigurationProperty} (h : WellFormed property) :
    Typed property := by
  induction h with
  | scalar hfields _ => exact .scalar hfields.typed
  | array hfields _ _ ih => exact .array hfields.typed ih
  | object hfields _ _ _ ih => exact .object hfields.typed ih

/-- The default of a well-formed property is accepted by it. -/
theorem WellFormed.default_formed {property : ConfigurationProperty} (h : WellFormed property) :
    DefaultFormed property := by
  cases h with
  | scalar _ hdefault => exact hdefault
  | array _ hdefault _ => exact hdefault
  | object _ hdefault _ _ => exact hdefault

/-! ### The fields -/

/-- A range that passes is consistent. -/
theorem range_of_validateRange {kind : ConfigurationKind} {minimum maximum : Option Document}
    {path : Text} (h : validateRange kind minimum maximum path = .ok ()) :
    ∀ least ∈ minimum, ∀ most ∈ maximum, AtMost least most := by
  intro least hleast most hmost
  cases hleast
  cases hmost
  unfold validateRange at h
  rw [if_neg (by simp)] at h
  split at h
  · obtain ⟨_, h⟩ := Result.check_bind_ok_iff.mp h
    obtain ⟨_, h⟩ := Result.check_bind_ok_iff.mp h
    obtain ⟨_, h⟩ := Result.check_bind_ok_iff.mp h
    exact lessThan_eq_false_iff.mp (failIfBound_ok_iff.mp h most rfl)
  · cases h

/-- A bound of a length is not negative. -/
theorem nonneg_of_lengthBound {bound : Option Document} {what : String} {path : Text}
    {result : Option Int} (h : lengthBound bound what path = .ok result) : ∀ n ∈ result, 0 ≤ n := by
  intro n hn
  cases bound with
  | none =>
    cases h
    cases hn
  | some bound =>
    obtain ⟨m, _, h⟩ := Result.bind_ok_iff.mp h
    obtain ⟨hnonneg, h⟩ := Result.check_bind_ok_iff.mp h
    cases h
    cases hn
    exact not_lt.mp (failIf_ok_iff.mp hnonneg)

/-- Bounds of a length that pass are consistent. -/
theorem countsFormed_of_lengthBounds {kind expected : ConfigurationKind}
    {lower upper : Option Document} {what : String} {path : Text}
    {bounds : Option Int × Option Int}
    (h : lengthBounds kind expected lower upper what path = .ok bounds) :
    CountsFormed bounds.1 bounds.2 := by
  unfold lengthBounds at h
  split at h
  · cases h
    exact ⟨by simp, by simp, by simp⟩
  · obtain ⟨_, h⟩ := Result.check_bind_ok_iff.mp h
    obtain ⟨least, hleast, h⟩ := Result.bind_ok_iff.mp h
    obtain ⟨most, hmost, h⟩ := Result.bind_ok_iff.mp h
    obtain ⟨hle, h⟩ := Result.check_bind_ok_iff.mp h
    cases h
    refine ⟨nonneg_of_lengthBound hleast, nonneg_of_lengthBound hmost, ?_⟩
    intro a ha b hb
    have hnot := failIf_ok_iff.mp hle
    exact not_lt.mp fun hlt => hnot ⟨a, ha, b, hb, hlt⟩

/-- The enum that is read fits the kind, and has no value twice. -/
theorem enum_of_configurationEnum {value : Members} {kind : ConfigurationKind} {path : Text}
    {enum : List Document} (h : configurationEnum value kind path = .ok enum) :
    (∀ candidate ∈ enum, ∃ scalar, kind = .scalar scalar ∧
      isConfigurationScalar candidate scalar = true) ∧
    enum.Pairwise fun other value => configurationEqual value other = false := by
  obtain ⟨_, _, h⟩ := Result.bind_ok_iff.mp h
  split at h
  · cases h
    exact ⟨by simp, .nil⟩
  · obtain ⟨hloop, h⟩ := Result.check_bind_ok_iff.mp h
    obtain ⟨hdistinct, h⟩ := Result.check_bind_ok_iff.mp h
    cases h
    refine ⟨?_, not_not.mp (failIf_ok_iff.mp hdistinct)⟩
    intro candidate hcandidate
    obtain ⟨index, hindex, rfl⟩ := List.getElem_of_mem hcandidate
    have hentry := Result.forM_ok_iff.mp hloop (enum[index], index)
      (List.mk_mem_zipIdx_iff_getElem?.mpr (List.getElem?_eq_getElem hindex))
    exact ⟨_, rfl, (validateConfigurationScalar_ok_iff.mp hentry).2⟩
  · cases h

/-- What the reader of the fields knows about them. -/
structure FieldsRead (name : Identifier) (isRequired : Bool) (kind : ConfigurationKind)
    (fields : ConfigurationFields) : Prop where
  formed : FieldsFormed kind fields
  name : fields.name = name
  required : fields.required = isRequired
  default : fields.default = none

/-- The fields that are read are well formed. -/
theorem fieldsRead_of_propertyFields {name : Identifier} {value : Members} {isRequired : Bool}
    {path : Text} {kind : ConfigurationKind} {fields : ConfigurationFields}
    (h : propertyFields name value isRequired path = .ok (kind, fields)) :
    FieldsRead name isRequired kind fields := by
  have htyped := fieldsTyped_of_propertyFields h
  obtain ⟨_, _, h⟩ := Result.bind_ok_iff.mp h
  obtain ⟨found, _, h⟩ := Result.bind_ok_iff.mp h
  obtain ⟨_, _, h⟩ := Result.bind_ok_iff.mp h
  obtain ⟨enum, henum, h⟩ := Result.bind_ok_iff.mp h
  obtain ⟨_, hrange, h⟩ := Result.bind_ok_iff.mp h
  obtain ⟨lengths, hlengths, h⟩ := Result.bind_ok_iff.mp h
  obtain ⟨items, hitems, h⟩ := Result.bind_ok_iff.mp h
  cases h
  have hread := enum_of_configurationEnum henum
  exact ⟨{
    typed := htyped
    enum_scalar := hread.1
    enum_distinct := hread.2
    range := range_of_validateRange hrange
    lengths := countsFormed_of_lengthBounds hlengths
    items := countsFormed_of_lengthBounds hitems }, rfl, rfl, rfl⟩

/-! ### The tree -/

/-- What the reader of a property knows about the property and the number beside it. -/
structure Formed (levels : Nat) (name : Identifier) (isRequired : Bool)
    (result : ConfigurationProperty × Nat) : Prop where
  wellFormed : WellFormed result.1
  levels_le : levelsOf result.1 ≤ levels
  count_eq : countUnder result.1 = result.2
  name_eq : result.1.fields.name = name
  required_eq : result.1.fields.required = isRequired

/-- The reader of properties returns well-formed ones with at most these levels. -/
def Forms (levels : Nat) (read : PropertyReader) : Prop :=
  ∀ {name value isRequired path result}, Document.Everywhere Document.DistinctKeys (.obj value) →
    read name value isRequired path = .ok result → Formed levels name isRequired result

/-- What the loop over the declarations knows about the properties. -/
structure AllFormed (levels : Nat) (declarations : Members)
    (result : List ConfigurationProperty × Nat) : Prop where
  wellFormed : ∀ property ∈ result.1, WellFormed property
  levels_le : levelsOfAll result.1 ≤ levels
  count_eq : countAll result.1 = result.2
  keys_eq : result.1.map ConfigurationProperty.key = Document.keys declarations

/-- An identifier has the text that it was read from. -/
theorem ofString_name_of_identifier {text path : Text} {name : Identifier}
    (h : identifier (.str text) path = .ok name) : ofString name.name = text := by
  obtain ⟨found, hfound, h⟩ := Result.bind_ok_iff.mp h
  have htext : found.text = text := by
    unfold Compiler.string at hfound
    cases text with
    | nil => cases hfound
    | cons point rest =>
      cases hfound
      rfl
  split at h
  · obtain ⟨hsame, h⟩ := Result.check_bind_ok_iff.mp h
    cases h
    rw [← htext]
    exact not_not.mp (failIf_ok_iff.mp hsame)
  · cases h

/-- The properties that are read are well formed. -/
theorem allFormed_of_configurationProperties {levels : Nat} {read : PropertyReader}
    (hread : Forms levels read) {isRequired : List Identifier} {path : Text}
    {declarations : Members} {result : List ConfigurationProperty × Nat}
    (hdistinct : ∀ entry ∈ declarations, Document.Everywhere Document.DistinctKeys entry.2)
    (h : configurationProperties read isRequired path declarations = .ok result) :
    AllFormed levels declarations result := by
  induction declarations generalizing result with
  | nil =>
    cases h
    exact ⟨by simp, Nat.zero_le _, rfl, rfl⟩
  | cons entry declarations ih =>
    obtain ⟨name, declaration⟩ := entry
    obtain ⟨propertyName, hname, h⟩ := Result.bind_ok_iff.mp h
    obtain ⟨value, hvalue, h⟩ := Result.bind_ok_iff.mp h
    obtain ⟨first, hfirst, h⟩ := Result.bind_ok_iff.mp h
    obtain ⟨rest, hrest, h⟩ := Result.bind_ok_iff.mp h
    cases h
    obtain ⟨hhead, htail⟩ := List.forall_mem_cons.mp hdistinct
    cases table_ok_iff.mp hvalue
    have hformed := hread hhead hfirst
    have hall := ih htail hrest
    refine ⟨List.forall_mem_cons.mpr ⟨hformed.wellFormed, hall.wellFormed⟩,
      max_le hformed.levels_le hall.levels_le, ?_, ?_⟩
    · show 1 + countUnder first.1 + countAll rest.1 = _
      rw [hformed.count_eq, hall.count_eq]
    · have hkey : first.1.key = name := by
        show ofString first.1.fields.name.name = name
        rw [hformed.name_eq]
        exact ofString_name_of_identifier hname
      rw [List.map_cons, hkey, hall.keys_eq]
      rfl

/-- The declarations of an object are a table of its document, or there are none. -/
theorem declarations_of_objectHead {value : Members} {path : Text}
    {head : Members × List Identifier} (h : objectHead value path = .ok head) :
    head.1 = [] ∨ get? value "properties" = some (.obj head.1) := by
  obtain ⟨_, _, h⟩ := Result.bind_ok_iff.mp h
  obtain ⟨_, _, h⟩ := Result.bind_ok_iff.mp h
  obtain ⟨_, h⟩ := Result.check_bind_ok_iff.mp h
  obtain ⟨declarations, hdeclarations, h⟩ := Result.bind_ok_iff.mp h
  obtain ⟨_, h⟩ := Result.check_bind_ok_iff.mp h
  obtain ⟨_, _, h⟩ := Result.bind_ok_iff.mp h
  obtain ⟨_, _, h⟩ := Result.bind_ok_iff.mp h
  obtain ⟨_, h⟩ := Result.check_bind_ok_iff.mp h
  obtain ⟨_, h⟩ := Result.check_bind_ok_iff.mp h
  cases h
  cases hfound : get? value "properties" with
  | none =>
    rw [hfound] at hdeclarations
    cases hdeclarations
    exact .inl rfl
  | some found =>
    rw [hfound] at hdeclarations
    rw [table_ok_iff.mp hdeclarations]
    exact .inr rfl

/-- The properties of an object that is read are well formed. -/
theorem allFormed_of_configurationObject {levels : Nat} {read : PropertyReader}
    (hread : Forms levels read) {value : Members} {path : Text}
    {result : List ConfigurationProperty × Nat}
    (hdistinct : Document.Everywhere Document.DistinctKeys (.obj value))
    (h : configurationObject read value path = .ok result) :
    ∃ declarations, (Document.keys declarations).Nodup ∧
      AllFormed levels declarations result := by
  rw [configurationObject_eq] at h
  obtain ⟨head, hhead, h⟩ := Result.bind_ok_iff.mp h
  refine ⟨head.1, ?_⟩
  rcases declarations_of_objectHead hhead with hnil | hfound
  · rw [hnil] at h ⊢
    exact ⟨List.nodup_nil, allFormed_of_configurationProperties hread (by simp) h⟩
  · have htable := hdistinct.of_get? hfound
    exact ⟨htable.own, allFormed_of_configurationProperties hread htable.members h⟩

/-- The children of a property, before its default is read. -/
structure ChildrenFormed (levels : Nat) (fields : ConfigurationFields)
    (result : ConfigurationProperty × Nat) : Prop where
  wellFormed : WellFormed result.1
  levels_le : levelsOf result.1 ≤ levels + 1
  count_eq : countUnder result.1 = result.2
  fields_eq : result.1.fields = fields

/-- A property without a default has no wrong one. -/
theorem defaultFormed_of_none {property : ConfigurationProperty}
    (h : property.fields.default = none) : DefaultFormed property := by
  constructor
  · intro hdefault
    exact absurd h hdefault
  · intro default hdefault
    rw [h] at hdefault
    cases hdefault

/-- The children that are read are well formed. -/
theorem childrenFormed_of_configurationChildren {levels : Nat} {read : PropertyReader}
    (hread : Forms levels read) {kind : ConfigurationKind} {fields : ConfigurationFields}
    {value : Members} {path : Text} {result : ConfigurationProperty × Nat}
    (hdistinct : Document.Everywhere Document.DistinctKeys (.obj value))
    (hfields : FieldsFormed kind fields) (hdefault : fields.default = none)
    (h : configurationChildren read kind fields value path = .ok result) :
    ChildrenFormed levels fields result := by
  cases kind with
  | object =>
    obtain ⟨properties, hproperties, h⟩ := Result.bind_ok_iff.mp h
    obtain ⟨_, h⟩ := Result.check_bind_ok_iff.mp h
    cases h
    obtain ⟨declarations, hnodup, hall⟩ :=
      allFormed_of_configurationObject hread hdistinct hproperties
    exact ⟨.object hfields (defaultFormed_of_none hdefault) (hall.keys_eq ▸ hnodup)
      hall.wellFormed, Nat.succ_le_succ hall.levels_le, hall.count_eq, rfl⟩
  | array =>
    obtain ⟨_, h⟩ := Result.check_bind_ok_iff.mp h
    obtain ⟨found, hfound, h⟩ := Result.bind_ok_iff.mp h
    obtain ⟨members, hmembers, h⟩ := Result.bind_ok_iff.mp h
    obtain ⟨items, hitems, h⟩ := Result.bind_ok_iff.mp h
    cases h
    cases table_ok_iff.mp hmembers
    have hformed := hread (hdistinct.of_get? (required_ok_iff.mp hfound)) hitems
    exact ⟨.array hfields (defaultFormed_of_none hdefault) hformed.wellFormed,
      Nat.succ_le_succ hformed.levels_le, hformed.count_eq, rfl⟩
  | scalar kind =>
    obtain ⟨_, h⟩ := Result.check_bind_ok_iff.mp h
    cases h
    exact ⟨.scalar hfields (defaultFormed_of_none hdefault), Nat.succ_le_succ (Nat.zero_le _),
      rfl, rfl⟩

section
variable {floats : Json.FloatText}

/-- A well-formed property stays so with the default that is read for it. -/
theorem wellFormed_withDefault {property : ConfigurationProperty} (h : WellFormed property)
    {default : Option Document} {path : Text}
    (hdefault : configurationDefault floats property default path = .ok ()) :
    WellFormed (property.withDefault default) := by
  have hjson := isJson_of_configurationDefault floats hdefault
  have hformed : DefaultFormed (property.withDefault default) := by
    cases default with
    | none => exact defaultFormed_of_none (by cases property <;> rfl)
    | some default =>
      obtain ⟨hnot, hrest⟩ := Result.check_bind_ok_iff.mp hdefault
      obtain ⟨hvalid, _⟩ := Result.check_bind_ok_iff.mp hrest
      have haccepts := (validateConfigurationValue_ok_iff h.typed).mp hvalid
      have hfree : property.fields.required = false := by
        simpa [failIf_ok_iff] using hnot
      constructor
      · intro _
        cases property <;> exact hfree
      · intro other hother
        have heq : default = other := by
          cases property <;> exact Option.some.inj hother
        rw [← heq]
        exact accepts_withDefault haccepts.1
  cases h with
  | scalar hfields _ => exact .scalar { hfields with
      typed := { hfields.typed with default := hjson } } hformed
  | array hfields _ hitems => exact .array { hfields with
      typed := { hfields.typed with default := hjson } } hformed hitems
  | object hfields _ hnames hproperties => exact .object { hfields with
      typed := { hfields.typed with default := hjson } } hformed hnames hproperties

/-- The properties that `_configuration_property` returns are well formed. -/
theorem forms_configurationProperty (levels : Nat) :
    Forms levels (configurationProperty floats levels) := by
  induction levels with
  | zero =>
    intro name value isRequired path result _ h
    cases h
  | succ levels ih =>
    intro name value isRequired path result hdistinct h
    rw [configurationProperty_succ] at h
    obtain ⟨⟨kind, fields⟩, hfields, h⟩ := Result.bind_ok_iff.mp h
    obtain ⟨children, hchildren, h⟩ := Result.bind_ok_iff.mp h
    obtain ⟨hdefault, h⟩ := Result.check_bind_ok_iff.mp h
    cases h
    have hread := fieldsRead_of_propertyFields hfields
    have hformed := childrenFormed_of_configurationChildren ih hdistinct hread.formed hread.default
      hchildren
    exact {
      wellFormed := wellFormed_withDefault hformed.wellFormed hdefault
      levels_le := by rw [levelsOf_withDefault]; exact hformed.levels_le
      count_eq := by rw [countUnder_withDefault]; exact hformed.count_eq
      name_eq := by rw [name_withDefault, hformed.fields_eq]; exact hread.name
      required_eq := by rw [required_withDefault, hformed.fields_eq]; exact hread.required }

/-! ### The configuration -/

/-- The object of a configuration accepts only members that fit its properties. -/
theorem membersAccept_of_validateConfigurationObject {properties : List ConfigurationProperty}
    (htyped : ∀ property ∈ properties, Typed property) {members : Members} {path : Text}
    (h : validateConfigurationObject members properties path = .ok ()) :
    MembersAccept properties members := by
  obtain ⟨hkeys, hloop⟩ := Result.check_bind_ok_iff.mp h
  refine ⟨validateKeys_ok_iff.mp hkeys, ?_⟩
  intro entry hentry property hproperty
  have hvalid := Result.forM_ok_iff.mp hloop entry hentry
  rw [validateDeclared_eq, Option.mem_def.mp hproperty] at hvalid
  exact accepts_of_validate (htyped property (List.mem_of_find?_eq_some hproperty)) hvalid

/-- What holds of every configuration that the compiler accepts. -/
structure ConfigurationFormed (configuration : Configuration) : Prop where
  wellFormed : ∀ property ∈ configuration.properties, WellFormed property
  names_distinct : (configuration.properties.map ConfigurationProperty.key).Nodup
  examples_accept : ∀ entry ∈ configuration.examples,
    MembersAccept configuration.properties entry.2

/-- The examples are no more than allowed. -/
theorem length_of_examplesTable {value table : Members} (h : examplesTable value = .ok table) :
    table.length ≤ MAX_CONFIGURATION_EXAMPLES := by
  obtain ⟨_, _, h⟩ := Result.bind_ok_iff.mp h
  obtain ⟨hle, h⟩ := Result.check_bind_ok_iff.mp h
  cases h
  exact not_lt.mp (failIf_ok_iff.mp hle)

/-- `_configuration` accepts only well-formed properties, and examples that they accept. -/
theorem configurationFormed_of_configuration {value : Members} {result : Configuration}
    (hdistinct : Document.Everywhere Document.DistinctKeys (.obj value))
    (h : configuration floats value = .ok result) : ConfigurationFormed result := by
  rw [configuration_eq] at h
  obtain ⟨head, _, h⟩ := Result.bind_ok_iff.mp h
  obtain ⟨properties, hproperties, h⟩ := Result.bind_ok_iff.mp h
  obtain ⟨table, _, h⟩ := Result.bind_ok_iff.mp h
  obtain ⟨examples, hexamples, h⟩ := Result.bind_ok_iff.mp h
  obtain ⟨_, _, h⟩ := Result.bind_ok_iff.mp h
  cases h
  obtain ⟨tree, htree, hproperties⟩ := Result.bind_ok_iff.mp hproperties
  obtain ⟨_, hproperties⟩ := Result.check_bind_ok_iff.mp hproperties
  cases hproperties
  obtain ⟨declarations, hnodup, hall⟩ :=
    allFormed_of_configurationObject (forms_configurationProperty _) hdistinct htree
  refine ⟨hall.wellFormed, hall.keys_eq ▸ hnodup, ?_⟩
  intro entry hentry
  obtain ⟨source, _, hread⟩ := Result.exists_of_mem_mapM hexamples hentry
  obtain ⟨name, _, hread⟩ := Result.bind_ok_iff.mp hread
  obtain ⟨candidate, _, hread⟩ := Result.bind_ok_iff.mp hread
  obtain ⟨hvalid, hread⟩ := Result.check_bind_ok_iff.mp hread
  obtain ⟨_, hread⟩ := Result.check_bind_ok_iff.mp hread
  cases hread
  exact membersAccept_of_validateConfigurationObject
    (fun property hmem => (hall.wellFormed property hmem).typed) hvalid

variable (floats) in
/-- The document has a canonical text of at most this many characters. -/
def TextBounded (document : Document) (limit : Nat) : Prop :=
  ∃ text, Json.dumps floats true document = some text ∧ text.length ≤ limit

/-- The limits of a configuration. -/
structure ConfigurationBounded (floats : Json.FloatText) (configuration : Configuration) :
    Prop where
  levels_le : levelsOfAll configuration.properties ≤ MAX_CONFIGURATION_DEPTH
  count_le : countAll configuration.properties ≤ MAX_CONFIGURATION_PROPERTIES
  examples_le : configuration.examples.length ≤ MAX_CONFIGURATION_EXAMPLES
  schema_bounded : TextBounded floats (configurationSizeDocument configuration)
    MAX_CONFIGURATION_SCHEMA_BYTES
  examples_bounded : ∀ entry ∈ configuration.examples, TextBounded floats (.obj entry.2)
    MAX_CONFIGURATION_VALUE_BYTES

/-- A value that passes is no longer than allowed. -/
theorem textBounded_of_configurationValueSize {value : Document} {path : Text}
    (h : configurationValueSize floats value path = .ok ()) :
    TextBounded floats value MAX_CONFIGURATION_VALUE_BYTES := by
  unfold configurationValueSize at h
  split at h
  · cases h
  · rename_i text htext
    exact ⟨text, htext, not_lt.mp (failIf_ok_iff.mp h)⟩

/-- A schema that passes is no longer than allowed. -/
theorem textBounded_of_configurationSchemaSize {configuration : Configuration} {path : Text}
    (h : configurationSchemaSize floats configuration path = .ok ()) :
    TextBounded floats (configurationSizeDocument configuration)
      MAX_CONFIGURATION_SCHEMA_BYTES := by
  obtain ⟨_, h⟩ := Result.check_bind_ok_iff.mp h
  split at h
  · cases h
  · rename_i text htext
    exact ⟨text, htext, not_lt.mp (failIf_ok_iff.mp h)⟩

/-- `_configuration` accepts only trees of at most 8 levels and 256 properties at all levels
together, with at most 32 examples, and with canonical texts of at most 65536 characters. -/
theorem configurationBounded_of_configuration {value : Members} {result : Configuration}
    (hdistinct : Document.Everywhere Document.DistinctKeys (.obj value))
    (h : configuration floats value = .ok result) : ConfigurationBounded floats result := by
  rw [configuration_eq] at h
  obtain ⟨head, _, h⟩ := Result.bind_ok_iff.mp h
  obtain ⟨properties, hproperties, h⟩ := Result.bind_ok_iff.mp h
  obtain ⟨table, htable, h⟩ := Result.bind_ok_iff.mp h
  obtain ⟨examples, hexamples, h⟩ := Result.bind_ok_iff.mp h
  obtain ⟨_, hschema, h⟩ := Result.bind_ok_iff.mp h
  cases h
  obtain ⟨tree, htree, hproperties⟩ := Result.bind_ok_iff.mp hproperties
  obtain ⟨hcount, hproperties⟩ := Result.check_bind_ok_iff.mp hproperties
  cases hproperties
  obtain ⟨declarations, _, hall⟩ :=
    allFormed_of_configurationObject (forms_configurationProperty _) hdistinct htree
  have hforall := Result.mapM_ok_iff.mp hexamples
  refine ⟨hall.levels_le, ?_, ?_, textBounded_of_configurationSchemaSize hschema, ?_⟩
  · rw [hall.count_eq]
    exact not_lt.mp (failIf_ok_iff.mp hcount)
  · rw [← hforall.length_eq]
    exact length_of_examplesTable htable
  · intro entry hentry
    obtain ⟨source, _, hread⟩ := Result.exists_of_mem_mapM hexamples hentry
    obtain ⟨name, _, hread⟩ := Result.bind_ok_iff.mp hread
    obtain ⟨candidate, _, hread⟩ := Result.bind_ok_iff.mp hread
    obtain ⟨_, hread⟩ := Result.check_bind_ok_iff.mp hread
    obtain ⟨hsize, hread⟩ := Result.check_bind_ok_iff.mp hread
    cases hread
    exact textBounded_of_configurationValueSize hsize

end

/-- A configuration with one property and one example. -/
def threadsSource : Members :=
  Document.membersOf [("schema_version", .int 1), ("type", .string "object"),
    ("additional_properties", .bool false),
    ("properties", .object [("threads", .object [("type", .string "integer"), ("minimum", .int 1),
      ("default", .int 4)])]),
    ("examples", .object [("small", .object [("threads", .int 2)])])]

/-- The keys of the sample are distinct. -/
theorem distinctKeys_threadsSource :
    Document.Everywhere Document.DistinctKeys (.obj threadsSource) := by
  have hleaf : ∀ {value : Document}, (∀ items, value ≠ .arr items) →
      (∀ members, value ≠ .obj members) → Document.Everywhere Document.DistinctKeys value := by
    intro value harr hobj
    refine .leaf ?_ harr hobj
    cases value with
    | obj members => exact absurd rfl (hobj members)
    | null | bool _ | int _ | float _ | str _ | date _ | arr _ => trivial
  have hobject : ∀ {members : List (String × Document)}, (members.map Prod.fst).Nodup →
      (∀ member ∈ members, Document.Everywhere Document.DistinctKeys member.2) →
        Document.Everywhere Document.DistinctKeys (.object members) := by
    intro members hnodup hall
    refine .obj ?_ ?_
    · show (Document.keys (Document.membersOf members)).Nodup
      rw [Document.keys_membersOf]
      exact hnodup.map fun _ _ => Utf8.ofString_inj.mp
    · intro member hmember
      obtain ⟨source, hsource, rfl⟩ := List.mem_map.mp hmember
      exact hall source hsource
  have hint : ∀ n, Document.Everywhere Document.DistinctKeys (.int n) :=
    fun n => hleaf (by simp) (by simp)
  have hstring : ∀ s, Document.Everywhere Document.DistinctKeys (.string s) :=
    fun s => hleaf (by simp [Document.string]) (by simp [Document.string])
  have hbool : ∀ b, Document.Everywhere Document.DistinctKeys (.bool b) :=
    fun b => hleaf (by simp) (by simp)
  have hthreads : Document.Everywhere Document.DistinctKeys (.object [("type", .string "integer"),
      ("minimum", .int 1), ("default", .int 4)]) :=
    hobject (by decide) (by simp [hint, hstring])
  have hproperties := @hobject [("threads", _)] (by simp) (by simpa using hthreads)
  have hsmall : Document.Everywhere Document.DistinctKeys (.object [("threads", .int 2)]) :=
    hobject (by decide) (by simp [hint])
  have hexamples := @hobject [("small", _)] (by simp) (by simpa using hsmall)
  exact hobject (by decide) (by simp [hint, hstring, hbool, hproperties, hexamples])

/-- The bounds of the sample. -/
theorem configurationBounded_threads : ∃ result,
    configuration .ofBits threadsSource = .ok result ∧ ConfigurationBounded .ofBits result := by
  have hok : (configuration .ofBits threadsSource).isOk = true := by decide +kernel
  cases h : configuration .ofBits threadsSource with
  | error e =>
    rw [h] at hok
    cases hok
  | ok result =>
    exact ⟨result, rfl, configurationBounded_of_configuration distinctKeys_threadsSource h⟩

end Wmfs.Configuration
