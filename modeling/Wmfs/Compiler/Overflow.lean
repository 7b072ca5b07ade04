import Wmfs.Compiler.Readers

/-!
# `Wmfs.Compiler.Overflow`: the exceptions of the configuration reader

`_validate_configuration_scalar` converts every integer to a float, and a large integer raises
`OverflowError` there. The predicates of this module say when the reader gets as far as such an
integer: in a value that is checked (`ValueOverflows`), in the fields of a property
(`FieldsOverflow`), in a property with all that is under it (`PropertyOverflows`). The other
exception is `ValueError`, for an integer that has too many digits to be written.

The comparisons of a value with the bounds of its property raise nothing, because the bounds have
the kind of the property (`Typed`) and the value has been checked against that kind before.
-/

set_option autoImplicit false

namespace Wmfs.Compiler

open Wmfs.Lib
open Wmfs.Lib.Utf8 (Text ofString)
open Wmfs.Lib.Document (Members get? contains number? length?)

/-! ### Scalars -/

/-- The integers that `math.isfinite` cannot convert. -/
def Exceeds (value : Document) : Prop := ∃ n, value = .int n ∧ exceedsFloat n = true

example : Exceeds (.int (2 ^ 1024)) := ⟨_, rfl, by decide +kernel⟩

/-- The check of a scalar goes astray on a value that overflows. -/
theorem stray_validateConfigurationScalar_iff {value : Document}
    {kind : ConfigurationScalarKind} {path : Text} :
    Raises Stray (validateConfigurationScalar value kind path) ↔ Exceeds value := by
  unfold validateConfigurationScalar Exceeds
  split
  · rename_i n
    split
    · rename_i h
      simpa [Stray] using h
    · rename_i h
      simpa using h
  · rename_i hvalue
    constructor
    · intro h
      exact absurd h (not_stray_failIf _ _ _)
    · rintro ⟨n, heq, _⟩
      exact absurd heq (hvalue n)

/-- The scalars that `_validate_configuration_scalar` accepts. -/
def ScalarFits (kind : ConfigurationScalarKind) (value : Document) : Prop :=
  ¬ Exceeds value ∧ isConfigurationScalar value kind = true

/-- The check of a scalar accepts what fits the kind. -/
theorem validateConfigurationScalar_ok_iff {value : Document} {kind : ConfigurationScalarKind}
    {path : Text} :
    validateConfigurationScalar value kind path = .ok () ↔ ScalarFits kind value := by
  unfold validateConfigurationScalar ScalarFits Exceeds
  split
  · rename_i n
    split
    · rename_i h
      simp [h]
    · rename_i h
      simp [failIf, h]
  · rename_i hvalue
    have hnone : ¬ ∃ n, value = .int n ∧ exceedsFloat n = true := by
      rintro ⟨n, heq, _⟩
      exact hvalue n heq
    simp [failIf, hnone]

/-- The kinds whose values have an order. -/
def IsNumeric (kind : ConfigurationScalarKind) : Prop := kind = .integer ∨ kind = .number

/-- A value of a numeric kind is a number. -/
theorem number?_isSome {value : Document} {kind : ConfigurationScalarKind}
    (hkind : IsNumeric kind) (h : isConfigurationScalar value kind = true) :
    (number? value).isSome = true := by
  rcases hkind with rfl | rfl
  · cases value <;> first | rfl | cases h
  · cases value with
    | float bits =>
      have hfinite : Document.isFinite bits = true := h
      rw [number?, if_pos hfinite]
      rfl
    | int n => rfl
    | null | bool _ | str _ | date _ | arr _ | obj _ => cases h

/-- A scalar of a configuration is a JSON value. -/
theorem isJson_of_isConfigurationScalar {value : Document} {kind : ConfigurationScalarKind}
    (h : isConfigurationScalar value kind = true) : Json.isJson value = true := by
  cases value with
  | float bits => cases kind <;> first | exact h | cases h
  | date _ | arr _ | obj _ => cases kind <;> cases h
  | null | bool _ | int _ | str _ => rfl

/-! ### Typed properties -/

/-- The bounds of a property have its kind, and what its schema writes has a JSON text. -/
structure FieldsTyped (kind : ConfigurationKind) (fields : ConfigurationFields) : Prop where
  enum : ∀ value ∈ fields.enum, Json.isJson value = true
  minimum : ∀ bound ∈ fields.minimum, ∃ scalar, kind = .scalar scalar ∧ IsNumeric scalar ∧
    isConfigurationScalar bound scalar = true
  maximum : ∀ bound ∈ fields.maximum, ∃ scalar, kind = .scalar scalar ∧ IsNumeric scalar ∧
    isConfigurationScalar bound scalar = true
  minLength : fields.minLength ≠ none → kind = .scalar .string
  maxLength : fields.maxLength ≠ none → kind = .scalar .string
  minItems : fields.minItems ≠ none → kind = .array
  maxItems : fields.maxItems ≠ none → kind = .array
  default : ∀ value ∈ fields.default, Json.isJson value = true

/-- The fields of the property and of all under it are typed. -/
inductive Typed : ConfigurationProperty → Prop where
  | scalar {fields : ConfigurationFields} {kind : ConfigurationScalarKind}
      (fields_typed : FieldsTyped (.scalar kind) fields) : Typed (.scalar fields kind)
  | array {fields : ConfigurationFields} {items : ConfigurationProperty}
      (fields_typed : FieldsTyped .array fields) (items_typed : Typed items) :
      Typed (.array fields items)
  | object {fields : ConfigurationFields} {properties : List ConfigurationProperty}
      (fields_typed : FieldsTyped .object fields)
      (properties_typed : ∀ property ∈ properties, Typed property) :
      Typed (.object fields properties)

/-- The fields of a typed property are typed. -/
theorem Typed.fields_typed {property : ConfigurationProperty} (h : Typed property) :
    FieldsTyped property.kind property.fields := by
  cases h with
  | scalar hfields => exact hfields
  | array hfields _ => exact hfields
  | object hfields _ => exact hfields

/-! ### Values -/

/-- The value has the Python type of the kind. -/
def OfKind (value : Document) : ConfigurationKind → Prop
  | .scalar kind => isConfigurationScalar value kind = true
  | .array => ∃ items, value = .arr items
  | .object => ∃ members, value = .obj members

/-- A bound is checked without another exception when its comparison is. -/
theorem not_stray_failIfBound {α : Type} {bound : Option α} {bad : α → Except Exn Bool}
    {path : Text} {message : String} (h : ∀ a ∈ bound, ¬ Raises Stray (bad a)) :
    ¬ Raises Stray (failIfBound bound bad path message) := by
  cases bound with
  | none => exact not_raises_ok
  | some a => exact not_raises_bind (h a rfl) fun _ _ => not_stray_failIf _ _ _

/-- Numbers are compared without an exception. -/
theorem not_stray_lessThan {left right : Document} (hleft : (number? left).isSome = true)
    (hright : (number? right).isSome = true) : ¬ Raises Stray (lessThan left right) := by
  obtain ⟨a, ha⟩ := Option.isSome_iff_exists.mp hleft
  obtain ⟨b, hb⟩ := Option.isSome_iff_exists.mp hright
  rw [lessThan, ha, hb]
  exact not_raises_ok

/-- The lengths of texts and arrays are taken without an exception. -/
theorem not_stray_lengthOf {value : Document} {kind : ConfigurationKind}
    (hvalue : OfKind value kind) (hkind : kind = .scalar .string ∨ kind = .array) :
    ¬ Raises Stray (lengthOf value) := by
  rcases hkind with rfl | rfl
  · cases value with
    | str text => exact not_raises_ok
    | null | bool _ | int _ | float _ | date _ | arr _ | obj _ => cases hvalue
  · obtain ⟨items, rfl⟩ := hvalue
    exact not_raises_ok

/-- The checks of a value against typed fields, once the value has the kind of the property. -/
theorem not_stray_validateFields {kind : ConfigurationKind} {fields : ConfigurationFields}
    {value : Document} {path : Text} (hfields : FieldsTyped kind fields)
    (hvalue : OfKind value kind) : ¬ Raises Stray (validateFields fields value path) := by
  have hnumber : ∀ scalar, kind = .scalar scalar → IsNumeric scalar →
      (number? value).isSome = true := by
    intro scalar hkind hnumeric
    rw [hkind] at hvalue
    exact number?_isSome hnumeric hvalue
  have hlength : ∀ {bound : Option Int} {short : Int → Int → Bool},
      (bound ≠ none → kind = .scalar .string ∨ kind = .array) →
        ∀ a ∈ bound, ¬ Raises Stray ((lengthOf value).map (short a)) := by
    intro bound short hkind a ha hraises
    have hbound : bound ≠ none := by
      rw [ha]
      exact Option.some_ne_none a
    exact not_stray_lengthOf hvalue (hkind hbound) (raises_map_iff.mp hraises)
  unfold validateFields
  refine not_raises_bind (not_stray_failIf _ _ _) fun _ _ => ?_
  refine not_raises_bind (not_stray_failIfBound ?_) fun _ _ => ?_
  · intro minimum hminimum
    obtain ⟨scalar, hkind, hnumeric, hbound⟩ := hfields.minimum minimum hminimum
    exact not_stray_lessThan (hnumber scalar hkind hnumeric) (number?_isSome hnumeric hbound)
  refine not_raises_bind (not_stray_failIfBound ?_) fun _ _ => ?_
  · intro maximum hmaximum
    obtain ⟨scalar, hkind, hnumeric, hbound⟩ := hfields.maximum maximum hmaximum
    exact not_stray_lessThan (number?_isSome hnumeric hbound) (hnumber scalar hkind hnumeric)
  refine not_raises_bind (not_stray_failIfBound ?_) fun _ _ => ?_
  · exact hlength fun h => .inl (hfields.minLength h)
  refine not_raises_bind (not_stray_failIfBound ?_) fun _ _ => ?_
  · exact hlength fun h => .inl (hfields.maxLength h)
  refine not_raises_bind (not_stray_failIfBound ?_) fun _ _ => not_stray_failIfBound ?_
  · exact hlength fun h => .inr (hfields.minItems h)
  · exact hlength fun h => .inr (hfields.maxItems h)

/-- The keys are checked without another exception. -/
@[simp] theorem not_stray_validateKeys (value : Members)
    (properties : List ConfigurationProperty) (path : Text) :
    ¬ Raises Stray (validateKeys value properties path) :=
  not_raises_bind (not_stray_failIf _ _ _) fun _ _ => not_stray_failIf _ _ _

/-- The property that the dictionary of a list of properties has for a name. -/
def declaredProperty (properties : List ConfigurationProperty) (name : Text) :
    Option ConfigurationProperty :=
  properties.find? fun property => property.key = name

/-- The check of a member goes astray where that of its property does. -/
theorem stray_validateDeclared_iff {properties : List ConfigurationProperty} {name : Text}
    {candidate : Document} {path : Text} :
    Raises Stray (validateDeclared properties name candidate path) ↔
      ∃ property ∈ declaredProperty properties name,
        Raises Stray (validateConfigurationValue property candidate path) := by
  induction properties with
  | nil =>
    constructor
    · intro h
      exact absurd h not_raises_ok
    · intro ⟨property, h, _⟩
      cases h
  | cons property properties ih =>
    rw [validateDeclared, declaredProperty, List.find?_cons]
    split
    · rename_i h
      simp [h]
    · rename_i h
      simpa [h, declaredProperty] using ih

/-- `_validate_configuration_value` comes to an integer that exceeds the floats. Everything
before it has been accepted. -/
inductive ValueOverflows : ConfigurationProperty → Document → Text → Prop where
  | scalar {fields : ConfigurationFields} {kind : ConfigurationScalarKind} {value : Document}
      {path : Text} (exceeds : Exceeds value) : ValueOverflows (.scalar fields kind) value path
  | item {fields : ConfigurationFields} {items : ConfigurationProperty}
      {before after : List (Document × Nat)} {values : List Document} {entry : Document × Nat}
      {path : Text} (values_eq : values.zipIdx = before ++ entry :: after)
      (before_ok : ∀ earlier ∈ before,
        validateConfigurationValue items earlier.1 (item path earlier.2) = .ok ())
      (overflows : ValueOverflows items entry.1 (item path entry.2)) :
      ValueOverflows (.array fields items) (.arr values) path
  | member {fields : ConfigurationFields} {properties : List ConfigurationProperty}
      {before after : Members} {entry : Text × Document} {property : ConfigurationProperty}
      {path : Text}
      (keys_ok : validateKeys (before ++ entry :: after) properties path = .ok ())
      (before_ok : ∀ earlier ∈ before, validateDeclared properties earlier.1 earlier.2
        (path ++ ofString "." ++ earlier.1) = .ok ())
      (declared : declaredProperty properties entry.1 = some property)
      (overflows : ValueOverflows property entry.2 (path ++ ofString "." ++ entry.1)) :
      ValueOverflows (.object fields properties) (.obj (before ++ entry :: after)) path

/-- `_validate_configuration_object` comes to an integer that exceeds the floats. -/
def MembersOverflow (properties : List ConfigurationProperty) (members : Members)
    (path : Text) : Prop :=
  validateKeys members properties path = .ok () ∧
    ∃ before entry after, members = before ++ entry :: after ∧
      (∀ earlier ∈ before, validateDeclared properties earlier.1 earlier.2
        (path ++ ofString "." ++ earlier.1) = .ok ()) ∧
      ∃ property ∈ declaredProperty properties entry.1,
        ValueOverflows property entry.2 (path ++ ofString "." ++ entry.1)

/-- The check of the members goes astray at the first one that does. -/
theorem stray_members_iff {properties : List ConfigurationProperty} {members : Members}
    {path : Text} (h : ∀ property ∈ properties, ∀ value path,
      Raises Stray (validateConfigurationValue property value path) ↔
        ValueOverflows property value path) :
    Raises Stray (forM members fun entry =>
        validateDeclared properties entry.1 entry.2 (path ++ ofString "." ++ entry.1)) ↔
      ∃ before entry after, members = before ++ entry :: after ∧
        (∀ earlier ∈ before, validateDeclared properties earlier.1 earlier.2
          (path ++ ofString "." ++ earlier.1) = .ok ()) ∧
        ∃ property ∈ declaredProperty properties entry.1,
          ValueOverflows property entry.2 (path ++ ofString "." ++ entry.1) := by
  have hdeclared : ∀ entry : Text × Document,
      Raises Stray (validateDeclared properties entry.1 entry.2 (path ++ ofString "." ++ entry.1)) ↔
        ∃ property ∈ declaredProperty properties entry.1,
          ValueOverflows property entry.2 (path ++ ofString "." ++ entry.1) := by
    intro entry
    rw [stray_validateDeclared_iff]
    refine exists_congr fun property => and_congr_right fun hproperty => ?_
    exact h property (List.mem_of_find?_eq_some hproperty) _ _
  rw [raises_forM_iff]
  simp only [hdeclared]

/-- The check of a value by a typed property raises something else than `InterfaceError` exactly
when it comes to an integer that exceeds the floats. -/
theorem stray_validateConfigurationValue_iff {property : ConfigurationProperty}
    (h : Typed property) : ∀ value path,
      Raises Stray (validateConfigurationValue property value path) ↔
        ValueOverflows property value path := by
  induction h with
  | @scalar fields kind hfields =>
    intro value path
    rw [validateConfigurationValue, raises_bind_iff, stray_validateConfigurationScalar_iff]
    constructor
    · intro hraises
      rcases hraises with hexceeds | ⟨_, hok, hrest⟩
      · exact .scalar hexceeds
      · have hvalue := (validateConfigurationScalar_ok_iff.mp hok).2
        exact absurd hrest (not_stray_validateFields hfields hvalue)
    · intro hoverflows
      cases hoverflows with
      | scalar hexceeds => exact .inl hexceeds
  | @array fields items hfields _ ih =>
    intro value path
    rw [validateConfigurationValue, raises_bind_iff_of_not (not_stray_list _ _)]
    constructor
    · intro ⟨values, hvalues, hraises⟩
      have heq : value = .arr values := list_ok_iff.mp hvalues
      rw [heq]
      rcases raises_bind_iff.mp hraises with hloop | ⟨_, _, hrest⟩
      · obtain ⟨before, entry, after, hsplit, hbefore, hentry⟩ := raises_forM_iff.mp hloop
        exact .item hsplit hbefore ((ih _ _).mp hentry)
      · exact absurd hrest (not_stray_validateFields hfields ⟨values, heq⟩)
    · intro hoverflows
      cases hoverflows with
      | item hsplit hbefore hentry =>
        refine ⟨_, rfl, raises_bind_iff.mpr (.inl (raises_forM_iff.mpr ?_))⟩
        exact ⟨_, _, _, hsplit, hbefore, (ih _ _).mpr hentry⟩
  | @object fields properties hfields _ ih =>
    intro value path
    rw [validateConfigurationValue, raises_bind_iff_of_not (not_stray_table _ _)]
    constructor
    · intro ⟨members, hmembers, hraises⟩
      have heq : value = .obj members := table_ok_iff.mp hmembers
      rw [heq]
      obtain ⟨_, hkeys, hraises⟩ :=
        (raises_bind_iff_of_not (not_stray_validateKeys _ _ _)).mp hraises
      rcases raises_bind_iff.mp hraises with hloop | ⟨_, _, hrest⟩
      · obtain ⟨before, entry, after, hsplit, hbefore, property, hproperty, hentry⟩ :=
          (stray_members_iff ih).mp hloop
        cases hsplit
        exact .member hkeys hbefore hproperty hentry
      · exact absurd hrest (not_stray_validateFields hfields ⟨members, heq⟩)
    · intro hoverflows
      cases hoverflows with
      | member hkeys hbefore hproperty hentry =>
        refine ⟨_, rfl, raises_bind_iff.mpr (.inr ⟨(), hkeys, ?_⟩)⟩
        refine raises_bind_iff.mpr (.inl ((stray_members_iff ih).mpr ?_))
        exact ⟨_, _, _, rfl, hbefore, _, hproperty, hentry⟩

/-- When the check of an object goes astray. -/
theorem stray_validateConfigurationObject_iff {properties : List ConfigurationProperty}
    (h : ∀ property ∈ properties, Typed property) {members : Members} {path : Text} :
    Raises Stray (validateConfigurationObject members properties path) ↔
      MembersOverflow properties members path := by
  rw [validateConfigurationObject, raises_bind_iff_of_not (not_stray_validateKeys _ _ _)]
  rw [MembersOverflow, ← stray_members_iff fun property hmem =>
    stray_validateConfigurationValue_iff (h property hmem)]
  constructor
  · intro ⟨_, hkeys, hraises⟩
    exact ⟨hkeys, hraises⟩
  · intro ⟨hkeys, hraises⟩
    exact ⟨(), hkeys, hraises⟩

/-! ### The fields of a property -/

/-- The loop over the enum of a property comes to an integer that exceeds the floats. -/
def EnumOverflows (value : Members) (kind : ConfigurationKind) (path : Text) : Prop :=
  ∃ scalar before candidate after, kind = .scalar scalar ∧
    listField value "enum" path = .ok (before ++ candidate :: after) ∧
    (∀ earlier ∈ before, ScalarFits scalar earlier) ∧ Exceeds candidate

/-- When the reader of an enum goes astray. -/
theorem stray_configurationEnum_iff {value : Members} {kind : ConfigurationKind} {path : Text} :
    Raises Stray (configurationEnum value kind path) ↔ EnumOverflows value kind path := by
  rw [configurationEnum, raises_bind_iff_of_not (not_stray_listField _ _ _)]
  constructor
  · intro ⟨values, hvalues, hraises⟩
    split at hraises
    · exact absurd hraises not_raises_pure
    · rename_i scalar _
      rcases raises_bind_iff.mp hraises with hloop | ⟨_, _, hrest⟩
      · obtain ⟨before, candidate, after, heq, hbefore, hexceeds⟩ :=
          (raises_forM_zipIdx_iff (fun _ => stray_validateConfigurationScalar_iff)
            fun _ => validateConfigurationScalar_ok_iff).mp hloop
        exact ⟨scalar, before, candidate, after, rfl, heq ▸ hvalues, hbefore, hexceeds⟩
      · obtain ⟨_, _, hdone⟩ := (raises_bind_iff_of_not (not_stray_failIf _ _ _)).mp hrest
        exact absurd hdone not_raises_pure
    · exact absurd hraises (not_stray_fail _ _)
  · intro ⟨scalar, before, candidate, after, hkind, hvalues, hbefore, hexceeds⟩
    refine ⟨_, hvalues, ?_⟩
    rw [hkind]
    have hloop : Raises Stray (forM (before ++ candidate :: after).zipIdx fun entry =>
        validateConfigurationScalar entry.1 scalar (item (field path "enum") entry.2)) :=
      (raises_forM_zipIdx_iff (fun _ => stray_validateConfigurationScalar_iff)
        fun _ => validateConfigurationScalar_ok_iff).mpr
          ⟨before, candidate, after, rfl, hbefore, hexceeds⟩
    split
    · rename_i hnil
      exact absurd hnil (List.append_ne_nil_of_right_ne_nil _ (List.cons_ne_nil _ _))
    · rename_i heq _
      cases heq
      exact raises_bind_iff.mpr (.inl hloop)
    · rename_i hnot
      exact absurd rfl (hnot scalar)

/-- The check of `minimum` and `maximum` comes to an integer that exceeds the floats. -/
def RangeOverflows (kind : ConfigurationKind) (minimum maximum : Option Document) : Prop :=
  ∃ scalar, kind = .scalar scalar ∧ IsNumeric scalar ∧
    ((∃ bound ∈ minimum, Exceeds bound) ∨
      (∀ bound ∈ minimum, ScalarFits scalar bound) ∧ ∃ bound ∈ maximum, Exceeds bound)

/-- When the check of a bound goes astray. -/
theorem stray_validateBound_iff {bound : Option Document} {kind : ConfigurationScalarKind}
    {path : Text} :
    Raises Stray (validateBound bound kind path) ↔ ∃ value ∈ bound, Exceeds value := by
  cases bound with
  | none =>
    constructor
    · intro h
      exact absurd h not_raises_ok
    · intro ⟨value, h, _⟩
      cases h
  | some value =>
    rw [validateBound, stray_validateConfigurationScalar_iff]
    simp

/-- A bound that is accepted fits the kind. -/
theorem validateBound_ok_iff {bound : Option Document} {kind : ConfigurationScalarKind}
    {path : Text} : validateBound bound kind path = .ok () ↔
      ∀ value ∈ bound, ScalarFits kind value := by
  cases bound with
  | none => simp [validateBound]
  | some value =>
    rw [validateBound, validateConfigurationScalar_ok_iff]
    simp

/-- When the check of a range goes astray. -/
theorem stray_validateRange_iff {kind : ConfigurationKind} {minimum maximum : Option Document}
    {path : Text} : Raises Stray (validateRange kind minimum maximum path) ↔
      RangeOverflows kind minimum maximum := by
  unfold validateRange
  split
  · rename_i hnone
    rw [Option.isNone_iff_eq_none, Option.isNone_iff_eq_none] at hnone
    constructor
    · intro h
      exact absurd h not_raises_ok
    · rintro ⟨scalar, _, _, hbounds⟩
      rcases hbounds with ⟨bound, hbound, _⟩ | ⟨_, bound, hbound, _⟩
      · cases hnone.1.symm.trans hbound
      · cases hnone.2.symm.trans hbound
  · split
    · rename_i scalar
      rw [raises_bind_iff_of_not (not_stray_failIf _ _ _)]
      constructor
      · rintro ⟨_, hkind, hraises⟩
        have hnumeric : IsNumeric scalar := by
          rw [failIf_ok_iff] at hkind
          rw [IsNumeric]
          tauto
        refine ⟨scalar, rfl, hnumeric, ?_⟩
        rcases raises_bind_iff.mp hraises with hminimum | ⟨_, hminimum, hraises⟩
        · exact .inl (stray_validateBound_iff.mp hminimum)
        · have hfits := validateBound_ok_iff.mp hminimum
          rcases raises_bind_iff.mp hraises with hmaximum | ⟨_, hmaximum, hraises⟩
          · exact .inr ⟨hfits, stray_validateBound_iff.mp hmaximum⟩
          · -- Both bounds are numbers, so they can be compared.
            have hcompared := validateBound_ok_iff.mp hmaximum
            refine absurd hraises ?_
            split
            · exact not_raises_pure
            · rename_i least _ _ _
              refine not_stray_failIfBound ?_
              intro most hmost
              exact not_stray_lessThan (number?_isSome hnumeric (hcompared most hmost).2)
                (number?_isSome hnumeric (hfits least rfl).2)
      · rintro ⟨found, hfound, hnumeric, hbounds⟩
        cases hfound
        refine ⟨(), ?_, ?_⟩
        · rw [failIf_ok_iff]
          rw [IsNumeric] at hnumeric
          tauto
        · rcases hbounds with hminimum | ⟨hfits, hmaximum⟩
          · exact raises_bind_iff.mpr (.inl (stray_validateBound_iff.mpr hminimum))
          · refine raises_bind_iff.mpr (.inr ⟨(), validateBound_ok_iff.mpr hfits, ?_⟩)
            exact raises_bind_iff.mpr (.inl (stray_validateBound_iff.mpr hmaximum))
    · rename_i hkind
      constructor
      · intro h
        exact absurd h (not_stray_fail _ _)
      · rintro ⟨scalar, h, _⟩
        exact absurd h (hkind scalar)

/-- The range of a property has bounds of its kind. -/
theorem numeric_of_validateRange {kind : ConfigurationKind} {minimum maximum : Option Document}
    {path : Text} (h : validateRange kind minimum maximum path = .ok ()) {bound : Document}
    (hbound : bound ∈ minimum ∨ bound ∈ maximum) :
    ∃ scalar, kind = .scalar scalar ∧ IsNumeric scalar ∧
      isConfigurationScalar bound scalar = true := by
  unfold validateRange at h
  split at h
  · rename_i hnone
    rw [Option.isNone_iff_eq_none, Option.isNone_iff_eq_none] at hnone
    rcases hbound with hbound | hbound
    · cases hnone.1.symm.trans hbound
    · cases hnone.2.symm.trans hbound
  · split at h
    · rename_i scalar
      obtain ⟨_, hkind, h⟩ := Result.bind_ok_iff.mp h
      obtain ⟨_, hminimum, h⟩ := Result.bind_ok_iff.mp h
      obtain ⟨_, hmaximum, _⟩ := Result.bind_ok_iff.mp h
      have hnumeric : IsNumeric scalar := by
        rw [failIf_ok_iff] at hkind
        rw [IsNumeric]
        tauto
      refine ⟨scalar, rfl, hnumeric, ?_⟩
      rcases hbound with hbound | hbound
      · exact (validateBound_ok_iff.mp hminimum bound hbound).2
      · exact (validateBound_ok_iff.mp hmaximum bound hbound).2
    · cases h

/-- The values of an enum are JSON values. -/
theorem isJson_of_configurationEnum {value : Members} {kind : ConfigurationKind} {path : Text}
    {values : List Document} (h : configurationEnum value kind path = .ok values) :
    ∀ candidate ∈ values, Json.isJson candidate = true := by
  obtain ⟨_, _, h⟩ := Result.bind_ok_iff.mp h
  intro candidate hcandidate
  split at h
  · cases h
    cases hcandidate
  · obtain ⟨_, hloop, h⟩ := Result.bind_ok_iff.mp h
    obtain ⟨_, _, h⟩ := Result.bind_ok_iff.mp h
    cases h
    obtain ⟨index, hindex, rfl⟩ := List.getElem_of_mem hcandidate
    have hentry := Result.forM_ok_iff.mp hloop (values[index], index)
      (List.mk_mem_zipIdx_iff_getElem?.mpr (List.getElem?_eq_getElem hindex))
    exact isJson_of_isConfigurationScalar (validateConfigurationScalar_ok_iff.mp hentry).2
  · cases h

/-- A bound of a length is read without another exception. -/
@[simp] theorem not_stray_lengthBound (bound : Option Document) (what : String) (path : Text) :
    ¬ Raises Stray (lengthBound bound what path) := by
  cases bound with
  | none => exact not_raises_ok
  | some bound => simp [lengthBound, raises_bind_iff]

/-- The bounds of a length are read without another exception. -/
@[simp] theorem not_stray_lengthBounds (kind expected : ConfigurationKind)
    (lower upper : Option Document) (what : String) (path : Text) :
    ¬ Raises Stray (lengthBounds kind expected lower upper what path) := by
  unfold lengthBounds
  split
  · exact not_raises_ok
  · simp [raises_bind_iff]

/-- Only properties of the expected kind have bounds on a length. -/
theorem kind_eq_of_lengthBounds {kind expected : ConfigurationKind} {lower upper : Option Document}
    {what : String} {path : Text} {bounds : Option Int × Option Int}
    (h : lengthBounds kind expected lower upper what path = .ok bounds)
    (hsome : bounds.1 ≠ none ∨ bounds.2 ≠ none) : kind = expected := by
  unfold lengthBounds at h
  split at h
  · cases h
    rcases hsome with hsome | hsome
    · exact absurd rfl hsome
    · exact absurd rfl hsome
  · obtain ⟨_, hkind, _⟩ := Result.bind_ok_iff.mp h
    rw [failIf_ok_iff] at hkind
    exact not_not.mp hkind

/-- `allowed` in `_configuration_property`. -/
def propertyKeys : List String :=
  ["type", "description", "default", "enum", "minimum", "maximum", "min_length", "max_length",
    "min_items", "max_items", "items", "additional_properties", "required", "properties"]

/-- The part of `_configuration_property` that reads the fields of the property itself. -/
def propertyFields (name : Identifier) (value : Members) (isRequired : Bool) (path : Text) :
    Except Exn (ConfigurationKind × ConfigurationFields) := do
  keys value propertyKeys path
  let kind ← configurationKind value path
  let description ← optionalDescription value path
  let enum ← configurationEnum value kind path
  validateRange kind (get? value "minimum") (get? value "maximum") path
  let lengths ← lengthBounds kind (.scalar .string) (get? value "min_length")
    (get? value "max_length") "length" path
  let items ← lengthBounds kind .array (get? value "min_items") (get? value "max_items") "items"
    path
  return (kind, ⟨name, isRequired, description, none, enum, get? value "minimum",
    get? value "maximum", lengths.1, lengths.2, items.1, items.2⟩)

/-- The kind is read without another exception. -/
@[simp] theorem not_stray_configurationKind (value : Members) (path : Text) :
    ¬ Raises Stray (configurationKind value path) := by
  simp only [configurationKind, raises_bind_iff, not_stray_required, not_stray_string, false_or,
    not_exists, not_and]
  intro _ _ kind _
  split <;> simp

/-- The description is read without another exception. -/
@[simp] theorem not_stray_optionalDescription (value : Members) (path : Text) :
    ¬ Raises Stray (optionalDescription value path) := by
  unfold optionalDescription
  split <;> simp

/-- The reader of the fields comes to an integer that exceeds the floats. -/
def FieldsOverflow (value : Members) (path : Text) : Prop :=
  keys value propertyKeys path = .ok () ∧
    ∃ kind description, configurationKind value path = .ok kind ∧
      optionalDescription value path = .ok description ∧
      (EnumOverflows value kind path ∨
        (∃ enum, configurationEnum value kind path = .ok enum) ∧
          RangeOverflows kind (get? value "minimum") (get? value "maximum"))

/-- When the reader of the fields of a property goes astray. -/
theorem stray_propertyFields_iff {name : Identifier} {value : Members} {isRequired : Bool}
    {path : Text} :
    Raises Stray (propertyFields name value isRequired path) ↔ FieldsOverflow value path := by
  simp only [propertyFields, FieldsOverflow, raises_bind_iff, not_stray_keys,
    not_stray_configurationKind, not_stray_optionalDescription, not_stray_lengthBounds,
    not_raises_pure, stray_configurationEnum_iff, stray_validateRange_iff, false_or, and_false,
    exists_false, or_false]
  constructor
  · rintro ⟨_, hkeys, kind, hkind, description, hdescription, h⟩
    refine ⟨hkeys, kind, description, hkind, hdescription, ?_⟩
    rcases h with henum | ⟨enum, henum, hrange⟩
    · exact .inl henum
    · exact .inr ⟨⟨enum, henum⟩, hrange⟩
  · rintro ⟨hkeys, kind, description, hkind, hdescription, h⟩
    refine ⟨(), hkeys, kind, hkind, description, hdescription, ?_⟩
    rcases h with henum | ⟨⟨enum, henum⟩, hrange⟩
    · exact .inl henum
    · exact .inr ⟨enum, henum, hrange⟩

/-- The fields that are read are typed. -/
theorem fieldsTyped_of_propertyFields {name : Identifier} {value : Members} {isRequired : Bool}
    {path : Text} {kind : ConfigurationKind} {fields : ConfigurationFields}
    (h : propertyFields name value isRequired path = .ok (kind, fields)) :
    FieldsTyped kind fields := by
  obtain ⟨_, _, h⟩ := Result.bind_ok_iff.mp h
  obtain ⟨found, _, h⟩ := Result.bind_ok_iff.mp h
  obtain ⟨_, _, h⟩ := Result.bind_ok_iff.mp h
  obtain ⟨enum, henum, h⟩ := Result.bind_ok_iff.mp h
  obtain ⟨_, hrange, h⟩ := Result.bind_ok_iff.mp h
  obtain ⟨lengths, hlengths, h⟩ := Result.bind_ok_iff.mp h
  obtain ⟨items, hitems, h⟩ := Result.bind_ok_iff.mp h
  cases h
  exact {
    enum := isJson_of_configurationEnum henum
    minimum := fun bound hbound => numeric_of_validateRange hrange (.inl hbound)
    maximum := fun bound hbound => numeric_of_validateRange hrange (.inr hbound)
    minLength := fun hsome => kind_eq_of_lengthBounds hlengths (.inl hsome)
    maxLength := fun hsome => kind_eq_of_lengthBounds hlengths (.inr hsome)
    minItems := fun hsome => kind_eq_of_lengthBounds hitems (.inl hsome)
    maxItems := fun hsome => kind_eq_of_lengthBounds hitems (.inr hsome)
    default := fun _ hdefault => by cases hdefault }

/-! ### Properties -/

/-- The part of `_configuration_object` before the loop over the properties: the declarations and
the names that are required. -/
def objectHead (value : Members) (path : Text) : Except Exn (Members × List Identifier) := do
  let additional ← boolean (← required value "additional_properties" path)
    (field path "additional_properties")
  failIf (additional = true) path [.of "additional_properties must be false"]
  let declarations ← (get? value "properties").elim (.ok []) fun declarations =>
    table declarations (field path "properties")
  failIf (declarations.length > MAX_CONFIGURATION_PROPERTIES) path
    [.of "schema exceeds 256 properties"]
  let requiredValues ← listField value "required" path
  let isRequired ← requiredValues.mapM fun name => identifier name (field path "required")
  failIf (¬ isRequired.Nodup) path [.of "required fields must be unique"]
  let unknownRequired := sorted ((isRequired.map fun name => ofString name.name).filter fun name =>
    name ∉ Document.keys declarations)
  failIf (unknownRequired ≠ []) path
    [.of "required references unknown properties: ", joined unknownRequired]
  return (declarations, isRequired)

/-- An object is its head and its properties. -/
theorem configurationObject_eq (read : PropertyReader) (value : Members) (path : Text) :
    configurationObject read value path = objectHead value path >>= fun head =>
      configurationProperties read head.2 path head.1 := by
  simp only [configurationObject, objectHead, bind_assoc, pure_bind]

/-- The head of an object is read without another exception. -/
@[simp] theorem not_stray_objectHead (value : Members) (path : Text) :
    ¬ Raises Stray (objectHead value path) := by
  have hdeclarations : ¬ Raises Stray ((get? value "properties").elim (.ok []) fun declarations =>
      table declarations (field path "properties")) :=
    not_stray_elim fun _ => not_stray_table _ _
  have hrequired : ∀ values : List Document,
      ¬ Raises Stray (values.mapM fun name => identifier name (field path "required")) :=
    fun _ => not_raises_mapM fun _ _ => not_stray_identifier _ _
  simp [objectHead, raises_bind_iff, hdeclarations, hrequired]

/-- Whether the reader of a property comes to an integer that exceeds the floats. -/
abbrev PropertyOverflow : Type := Identifier → Members → Bool → Text → Prop

/-- The loop over the properties comes to an integer that exceeds the floats. -/
def PropertiesOverflow (overflows : PropertyOverflow) (read : PropertyReader)
    (isRequired : List Identifier) (path : Text) : Members → Prop
  | [] => False
  | (name, declaration) :: declarations =>
    ∃ propertyName value, identifier (.str name) (field path "properties") = .ok propertyName ∧
      declaration = .obj value ∧
      (overflows propertyName value (decide (propertyName ∈ isRequired))
          (path ++ ofString ".properties." ++ name) ∨
        (∃ result, read propertyName value (decide (propertyName ∈ isRequired))
          (path ++ ofString ".properties." ++ name) = .ok result) ∧
        PropertiesOverflow overflows read isRequired path declarations)

/-- `_configuration_object` comes to an integer that exceeds the floats. -/
def ObjectOverflows (overflows : PropertyOverflow) (read : PropertyReader) (value : Members)
    (path : Text) : Prop :=
  ∃ declarations isRequired, objectHead value path = .ok (declarations, isRequired) ∧
    PropertiesOverflow overflows read isRequired path declarations

/-- When the reader of the properties goes astray. -/
theorem stray_configurationProperties_iff {overflows : PropertyOverflow} {read : PropertyReader}
    (h : ∀ name value isRequired path, Raises Stray (read name value isRequired path) ↔
      overflows name value isRequired path) {isRequired : List Identifier} {path : Text}
    {declarations : Members} :
    Raises Stray (configurationProperties read isRequired path declarations) ↔
      PropertiesOverflow overflows read isRequired path declarations := by
  induction declarations with
  | nil =>
    constructor
    · intro hraises
      exact absurd hraises not_raises_ok
    · intro hfalse
      exact hfalse.elim
  | cons entry declarations ih =>
    obtain ⟨name, declaration⟩ := entry
    simp only [configurationProperties, PropertiesOverflow, raises_bind_iff, not_stray_identifier,
      not_stray_table, table_ok_iff, false_or, not_raises_pure, and_false, exists_false, or_false,
      h, ih, exists_and_left, exists_and_right]

/-- When the reader of an object goes astray. -/
theorem stray_configurationObject_iff {overflows : PropertyOverflow} {read : PropertyReader}
    (h : ∀ name value isRequired path, Raises Stray (read name value isRequired path) ↔
      overflows name value isRequired path) {value : Members} {path : Text} :
    Raises Stray (configurationObject read value path) ↔
      ObjectOverflows overflows read value path := by
  rw [configurationObject_eq, raises_bind_iff_of_not (not_stray_objectHead _ _)]
  simp only [stray_configurationProperties_iff h, ObjectOverflows, Prod.exists]

/-- The reader of what is under a property comes to an integer that exceeds the floats. -/
def ChildrenOverflow (overflows : PropertyOverflow) (read : PropertyReader)
    (kind : ConfigurationKind) (value : Members) (path : Text) : Prop :=
  match kind with
  | .object => ObjectOverflows overflows read value path
  | .array =>
    (∀ key ∈ ["additional_properties", "required", "properties"], contains value key = false) ∧
      ∃ items, get? value "items" = some (.obj items) ∧
        overflows ⟨"item", isIdentifier_item⟩ items true (field path "items")
  | .scalar _ => False

/-- When the reader of the children goes astray. -/
theorem stray_configurationChildren_iff {overflows : PropertyOverflow} {read : PropertyReader}
    (h : ∀ name value isRequired path, Raises Stray (read name value isRequired path) ↔
      overflows name value isRequired path) {kind : ConfigurationKind}
    {fields : ConfigurationFields} {value : Members} {path : Text} :
    Raises Stray (configurationChildren read kind fields value path) ↔
      ChildrenOverflow overflows read kind value path := by
  cases kind with
  | object =>
    simp only [configurationChildren, ChildrenOverflow, raises_bind_iff,
      stray_configurationObject_iff h, not_stray_failIf, not_raises_pure, and_false,
      exists_false, or_false]
  | array =>
    simp only [configurationChildren, ChildrenOverflow, raises_bind_iff, h, not_stray_failIf,
      not_stray_required, not_stray_table, not_raises_pure, false_or, and_false, exists_false,
      or_false, failIf_ok_iff, required_ok_iff, table_ok_iff]
    constructor
    · rintro ⟨_, hkeys, _, hitems, items, heq, hoverflows⟩
      rw [heq] at hitems
      refine ⟨?_, items, hitems, hoverflows⟩
      intro key hkey
      exact Bool.eq_false_iff.mpr fun hcontains => hkeys ⟨key, hkey, hcontains⟩
    · rintro ⟨hkeys, items, hitems, hoverflows⟩
      refine ⟨(), ?_, _, hitems, items, rfl, hoverflows⟩
      rintro ⟨key, hkey, hcontains⟩
      exact Bool.eq_false_iff.mp (hkeys key hkey) hcontains
  | scalar kind =>
    simp only [configurationChildren, ChildrenOverflow, raises_bind_iff, not_stray_failIf,
      not_raises_pure, false_or, and_false, exists_false]

/-- The default of a property has an integer that exceeds the floats, and the check of the default
comes to it. -/
def DefaultOverflows (property : ConfigurationProperty) (default : Option Document)
    (path : Text) : Prop :=
  property.fields.required = false ∧
    ∃ value ∈ default, ValueOverflows property value (field path "default")

section
variable (floats : Json.FloatText)

/-- The size of a value is checked without another exception. -/
@[simp] theorem not_stray_configurationValueSize (value : Document) (path : Text) :
    ¬ Raises Stray (configurationValueSize floats value path) := by
  unfold configurationValueSize
  split <;> simp

/-- When the check of a default goes astray. -/
theorem stray_configurationDefault_iff {property : ConfigurationProperty}
    (h : Typed property) {default : Option Document} {path : Text} :
    Raises Stray (configurationDefault floats property default path) ↔
      DefaultOverflows property default path := by
  cases default with
  | none =>
    simp [configurationDefault, DefaultOverflows]
  | some value =>
    simp only [configurationDefault, DefaultOverflows, raises_bind_iff, not_stray_failIf, false_or,
      stray_validateConfigurationValue_iff h, not_stray_configurationValueSize, and_false,
      exists_false, or_false]
    simp [failIf]

/-- `_configuration_property` comes to an integer that exceeds the floats: in the fields of the
property, in what is under it, or in its default. Everything before has been accepted. -/
def PropertyOverflows : Nat → PropertyOverflow
  | 0, _, _, _, _ => False
  | levels + 1, name, value, isRequired, path =>
    FieldsOverflow value path ∨
      ∃ kind fields, propertyFields name value isRequired path = .ok (kind, fields) ∧
        (ChildrenOverflow (PropertyOverflows levels) (configurationProperty floats levels) kind
            value path ∨
          ∃ property count, configurationChildren (configurationProperty floats levels) kind fields
              value path = .ok (property, count) ∧
            DefaultOverflows property (get? value "default") path)

/-- A property is its fields, its children and its default. -/
theorem configurationProperty_succ (levels : Nat) (name : Identifier) (value : Members)
    (isRequired : Bool) (path : Text) :
    configurationProperty floats (levels + 1) name value isRequired path =
      propertyFields name value isRequired path >>= fun read =>
        configurationChildren (configurationProperty floats levels) read.1 read.2 value path >>=
          fun children => configurationDefault floats children.1 (get? value "default") path >>=
            fun _ => pure (children.1.withDefault (get? value "default"), children.2) := by
  simp only [configurationProperty, propertyFields, propertyKeys, bind_assoc, pure_bind]

/-- The properties that are read are typed. -/
theorem typed_of_configurationProperties {read : PropertyReader}
    (hread : ∀ {name value isRequired path result}, read name value isRequired path = .ok result →
      Typed result.1) {isRequired : List Identifier} {path : Text} {declarations : Members}
    {result : List ConfigurationProperty × Nat}
    (h : configurationProperties read isRequired path declarations = .ok result) :
    ∀ property ∈ result.1, Typed property := by
  induction declarations generalizing result with
  | nil =>
    cases h
    intro property hmem
    cases hmem
  | cons entry declarations ih =>
    obtain ⟨_, _, h⟩ := Result.bind_ok_iff.mp h
    obtain ⟨_, _, h⟩ := Result.bind_ok_iff.mp h
    obtain ⟨first, hfirst, h⟩ := Result.bind_ok_iff.mp h
    obtain ⟨rest, hrest, h⟩ := Result.bind_ok_iff.mp h
    cases h
    exact List.forall_mem_cons.mpr ⟨hread hfirst, ih hrest⟩

/-- The properties of an object that is read are typed. -/
theorem typed_of_configurationObject {read : PropertyReader}
    (hread : ∀ {name value isRequired path result}, read name value isRequired path = .ok result →
      Typed result.1) {value : Members} {path : Text} {result : List ConfigurationProperty × Nat}
    (h : configurationObject read value path = .ok result) :
    ∀ property ∈ result.1, Typed property := by
  rw [configurationObject_eq] at h
  obtain ⟨_, _, h⟩ := Result.bind_ok_iff.mp h
  exact typed_of_configurationProperties hread h

/-- The children that are read are typed. -/
theorem typed_of_configurationChildren {read : PropertyReader}
    (hread : ∀ {name value isRequired path result}, read name value isRequired path = .ok result →
      Typed result.1) {kind : ConfigurationKind} {fields : ConfigurationFields} {value : Members}
    {path : Text} {result : ConfigurationProperty × Nat} (hfields : FieldsTyped kind fields)
    (h : configurationChildren read kind fields value path = .ok result) : Typed result.1 := by
  cases kind with
  | object =>
    obtain ⟨_, hproperties, h⟩ := Result.bind_ok_iff.mp h
    obtain ⟨_, _, h⟩ := Result.bind_ok_iff.mp h
    cases h
    exact .object hfields (typed_of_configurationObject hread hproperties)
  | array =>
    obtain ⟨_, _, h⟩ := Result.bind_ok_iff.mp h
    obtain ⟨_, _, h⟩ := Result.bind_ok_iff.mp h
    obtain ⟨_, _, h⟩ := Result.bind_ok_iff.mp h
    obtain ⟨_, hitems, h⟩ := Result.bind_ok_iff.mp h
    cases h
    exact .array hfields (hread hitems)
  | scalar kind =>
    obtain ⟨_, _, h⟩ := Result.bind_ok_iff.mp h
    cases h
    exact .scalar hfields

/-- A property stays typed with a default that has a JSON text. -/
theorem Typed.withDefault {property : ConfigurationProperty} (h : Typed property)
    {default : Option Document} (hdefault : ∀ value ∈ default, Json.isJson value = true) :
    Typed (property.withDefault default) := by
  cases h with
  | scalar hfields => exact .scalar { hfields with default := hdefault }
  | array hfields hitems => exact .array { hfields with default := hdefault } hitems
  | object hfields hproperties => exact .object { hfields with default := hdefault } hproperties

/-- A default that is accepted is a JSON value. -/
theorem isJson_of_configurationDefault {property : ConfigurationProperty}
    {default : Option Document} {path : Text} {u : Unit}
    (h : configurationDefault floats property default path = .ok u) :
    ∀ value ∈ default, Json.isJson value = true := by
  intro value hvalue
  cases hvalue
  obtain ⟨_, _, h⟩ := Result.bind_ok_iff.mp h
  obtain ⟨_, _, h⟩ := Result.bind_ok_iff.mp h
  rw [← Json.dumps_isSome_iff floats true]
  unfold configurationValueSize at h
  split at h
  · cases h
  · rename_i text htext
    rw [htext]
    rfl

/-- The properties that are read are typed. -/
theorem typed_of_configurationProperty (levels : Nat) {name : Identifier} {value : Members}
    {isRequired : Bool} {path : Text} {result : ConfigurationProperty × Nat}
    (h : configurationProperty floats levels name value isRequired path = .ok result) :
    Typed result.1 := by
  induction levels generalizing name value isRequired path result with
  | zero => cases h
  | succ levels ih =>
    rw [configurationProperty_succ] at h
    obtain ⟨⟨kind, fields⟩, hfields, h⟩ := Result.bind_ok_iff.mp h
    obtain ⟨children, hchildren, h⟩ := Result.bind_ok_iff.mp h
    obtain ⟨_, hdefault, h⟩ := Result.bind_ok_iff.mp h
    cases h
    have htyped := typed_of_configurationChildren ih (fieldsTyped_of_propertyFields hfields)
      hchildren
    exact htyped.withDefault (isJson_of_configurationDefault floats hdefault)

/-- When the reader of a property goes astray, by induction on the levels. -/
theorem stray_configurationProperty_iff (levels : Nat) : ∀ name value isRequired path,
    Raises Stray (configurationProperty floats levels name value isRequired path) ↔
      PropertyOverflows floats levels name value isRequired path := by
  induction levels with
  | zero =>
    intro name value isRequired path
    constructor
    · intro h
      exact absurd h (not_stray_fail _ _)
    · intro h
      exact h.elim
  | succ levels ih =>
    intro name value isRequired path
    rw [configurationProperty_succ, PropertyOverflows, raises_bind_iff,
      stray_propertyFields_iff, Prod.exists]
    refine or_congr_right (exists_congr fun kind => exists_congr fun fields =>
      and_congr_right fun hfields => ?_)
    rw [raises_bind_iff, stray_configurationChildren_iff ih, Prod.exists]
    refine or_congr_right (exists_congr fun property => exists_congr fun count =>
      and_congr_right fun hchildren => ?_)
    have htyped : Typed property :=
      typed_of_configurationChildren (typed_of_configurationProperty floats levels)
        (fieldsTyped_of_propertyFields hfields) hchildren
    rw [raises_bind_iff, stray_configurationDefault_iff floats htyped]
    simp

end

end Wmfs.Compiler
