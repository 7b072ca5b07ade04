import Wmfs.Compiler.Exceptions
import Wmfs.Configuration.Model

/-!
# `Wmfs.Configuration.Accepts`: what a configuration schema means

`Accepts property value` is the meaning of a property: the values that fit its kind, its enum, its
bounds and what is under it. It does not mention a validator.

- `accepts_of_validate` and `validate_of_accepts`: the compiler accepts exactly these values,
  among those whose integers a float can hold.
- `holds_of_validate`: where the compiler accepts a value, a float holds all its integers.
-/

set_option autoImplicit false

namespace Wmfs.Configuration

open Wmfs.Lib
open Wmfs.Lib.Utf8 (Text ofString)
open Wmfs.Lib.Document (Members get? number? length?)
open Wmfs.Compiler

/-! ### Meaning -/

/-- The first value is a number that is at most the second one. -/
def AtMost (left right : Document) : Prop :=
  ∃ a ∈ number? left, ∃ b ∈ number? right, a ≤ b

/-- The value fits the enum and the bounds of a property. -/
structure FieldsAccept (fields : ConfigurationFields) (value : Document) : Prop where
  enum : fields.enum ≠ [] → ∃ candidate ∈ fields.enum, configurationEqual value candidate = true
  minimum : ∀ bound ∈ fields.minimum, AtMost bound value
  maximum : ∀ bound ∈ fields.maximum, AtMost value bound
  minLength : ∀ bound ∈ fields.minLength, ∃ n ∈ length? value, bound ≤ n
  maxLength : ∀ bound ∈ fields.maxLength, ∃ n ∈ length? value, n ≤ bound
  minItems : ∀ bound ∈ fields.minItems, ∃ n ∈ length? value, bound ≤ n
  maxItems : ∀ bound ∈ fields.maxItems, ∃ n ∈ length? value, n ≤ bound

/-- The names of the members are declared, and those of the required properties are there. -/
structure KeysAccept (properties : List ConfigurationProperty) (members : Members) : Prop where
  declared : ∀ name ∈ Document.keys members, name ∈ properties.map ConfigurationProperty.key
  required : ∀ property ∈ properties, property.fields.required = true →
    property.key ∈ Document.keys members

/-- The values of a property. -/
inductive Accepts : ConfigurationProperty → Document → Prop where
  | scalar {fields : ConfigurationFields} {kind : ConfigurationScalarKind} {value : Document}
      (of_kind : isConfigurationScalar value kind = true) (fields_accept : FieldsAccept fields value) :
      Accepts (.scalar fields kind) value
  | array {fields : ConfigurationFields} {items : ConfigurationProperty} {values : List Document}
      (items_accept : ∀ value ∈ values, Accepts items value)
      (fields_accept : FieldsAccept fields (.arr values)) :
      Accepts (.array fields items) (.arr values)
  | object {fields : ConfigurationFields} {properties : List ConfigurationProperty}
      {members : Members} (keys_accept : KeysAccept properties members)
      (members_accept : ∀ entry ∈ members, ∀ property ∈ declaredProperty properties entry.1,
        Accepts property entry.2)
      (fields_accept : FieldsAccept fields (.obj members)) :
      Accepts (.object fields properties) (.obj members)

/-- The members that the object of these properties accepts. -/
structure MembersAccept (properties : List ConfigurationProperty) (members : Members) :
    Prop where
  keys_accept : KeysAccept properties members
  members_accept : ∀ entry ∈ members, ∀ property ∈ declaredProperty properties entry.1,
    Accepts property entry.2

/-! ### The validator of the compiler -/

/-- What `<` denies. -/
theorem lessThan_eq_false_iff {left right : Document} :
    Compiler.lessThan left right = .ok false ↔ AtMost right left := by
  unfold Compiler.lessThan AtMost
  cases number? left with
  | none => simp
  | some a =>
    cases number? right with
    | none => simp
    | some b => simp

/-- A bound that is present is met. -/
theorem failIfBound_ok_iff {α : Type} {bound : Option α} {bad : α → Except Compiler.Exn Bool}
    {path : Text} {message : String} {u : Unit} :
    Compiler.failIfBound bound bad path message = .ok u ↔ ∀ a ∈ bound, bad a = .ok false := by
  cases bound with
  | none => simp [Compiler.failIfBound]
  | some a =>
    rw [Compiler.failIfBound, Result.bind_ok_iff]
    simp only [failIf_ok_iff, Option.mem_some_iff, forall_eq']
    constructor
    · rintro ⟨isBad, h, hgood⟩
      rw [h, Bool.eq_false_iff.mpr hgood]
    · intro h
      exact ⟨false, h, Bool.false_ne_true⟩

/-- A length is not out of bounds. -/
theorem lengthOf_map_eq_false_iff {value : Document} {bad : Int → Bool} :
    (Compiler.lengthOf value).map bad = .ok false ↔ ∃ n ∈ length? value, bad n = false := by
  unfold Compiler.lengthOf
  cases length? value with
  | none => simp [Except.map]
  | some n => simp [Except.map]

/-- The checks at the end of `_validate_configuration_value` accept what fits the fields. -/
theorem validateFields_ok_iff {fields : ConfigurationFields} {value : Document} {path : Text} :
    Compiler.validateFields fields value path = .ok () ↔ FieldsAccept fields value := by
  unfold Compiler.validateFields
  simp only [Result.check_bind_ok_iff, failIf_ok_iff, failIfBound_ok_iff, lessThan_eq_false_iff,
    lengthOf_map_eq_false_iff, decide_eq_false_iff_not, not_lt, gt_iff_lt]
  have henum : ¬ (fields.enum.isEmpty = false ∧
      fields.enum.any (configurationEqual value) = false) ↔
        (fields.enum ≠ [] → ∃ candidate ∈ fields.enum, configurationEqual value candidate = true) := by
    rw [not_and, Bool.not_eq_false, List.any_eq_true, List.isEmpty_eq_false_iff]
  rw [henum]
  constructor
  · rintro ⟨h1, h2, h3, h4, h5, h6, h7⟩
    exact ⟨h1, h2, h3, h4, h5, h6, h7⟩
  · intro h
    exact ⟨h.enum, h.minimum, h.maximum, h.minLength, h.maxLength, h.minItems, h.maxItems⟩

/-- The list is empty when no name of it is left after sorting. -/
theorem sorted_eq_nil_iff {names : List Text} : Compiler.sorted names = [] ↔ names = [] := by
  have hperm := List.perm_insertionSort (fun a b : Text => ¬ b < a) names
  constructor
  · intro h
    have hsorted : names.insertionSort (fun a b : Text => ¬ b < a) = [] := h
    rw [hsorted] at hperm
    exact hperm.nil_eq.symm
  · intro h
    rw [h]
    rfl

/-- The keys that are declared, and the required ones. -/
theorem validateKeys_ok_iff {members : Members} {properties : List ConfigurationProperty}
    {path : Text} :
    Compiler.validateKeys members properties path = .ok () ↔ KeysAccept properties members := by
  unfold Compiler.validateKeys
  simp only [Result.check_bind_ok_iff, failIf_ok_iff, ne_eq, not_not, sorted_eq_nil_iff,
    List.filter_eq_nil_iff, List.map_eq_nil_iff, decide_eq_true_eq, not_and]
  constructor
  · rintro ⟨hdeclared, hrequired⟩
    exact ⟨hdeclared, hrequired⟩
  · intro h
    exact ⟨h.declared, h.required⟩

/-- The check of a value by the property of its name accepts what the property accepts. -/
theorem validateDeclared_eq {properties : List ConfigurationProperty} {name : Text}
    {candidate : Document} {path : Text} :
    validateDeclared properties name candidate path =
      (declaredProperty properties name).elim (.ok ()) fun property =>
        validateConfigurationValue property candidate path := by
  induction properties with
  | nil => rfl
  | cons property properties ih =>
    rw [validateDeclared, declaredProperty, List.find?_cons]
    by_cases h : property.key = name
    · simp [h]
    · simpa [h, declaredProperty] using ih

/-- A name among the keys of the properties is declared. -/
theorem declaredProperty_ne_none {properties : List ConfigurationProperty} {name : Text}
    (h : name ∈ properties.map ConfigurationProperty.key) :
    declaredProperty properties name ≠ none := by
  intro hnone
  obtain ⟨property, hmem, hkey⟩ := List.mem_map.mp h
  exact List.find?_eq_none.mp hnone property hmem (decide_eq_true hkey)

/-- The compiler accepts only values of the property. -/
theorem accepts_of_validate {property : ConfigurationProperty} (htyped : Typed property) :
    ∀ {value path}, validateConfigurationValue property value path = .ok () →
      Accepts property value := by
  induction htyped with
  | scalar _ =>
    intro value path h
    rw [validateConfigurationValue] at h
    obtain ⟨hscalar, hfields⟩ := Result.check_bind_ok_iff.mp h
    exact .scalar (validateConfigurationScalar_ok_iff.mp hscalar).2
      (validateFields_ok_iff.mp hfields)
  | array _ _ ih =>
    intro value path h
    rw [validateConfigurationValue] at h
    obtain ⟨values, hvalues, h⟩ := Result.bind_ok_iff.mp h
    obtain ⟨hitems, hfields⟩ := Result.check_bind_ok_iff.mp h
    cases list_ok_iff.mp hvalues
    refine .array ?_ (validateFields_ok_iff.mp hfields)
    intro item hitem
    obtain ⟨index, hindex, rfl⟩ := List.getElem_of_mem hitem
    exact ih (Result.forM_ok_iff.mp hitems (values[index], index)
      (List.mk_mem_zipIdx_iff_getElem?.mpr (List.getElem?_eq_getElem hindex)))
  | object _ _ ih =>
    intro value path h
    rw [validateConfigurationValue] at h
    obtain ⟨members, hmembers, h⟩ := Result.bind_ok_iff.mp h
    obtain ⟨hkeys, h⟩ := Result.check_bind_ok_iff.mp h
    obtain ⟨hloop, hfields⟩ := Result.check_bind_ok_iff.mp h
    cases table_ok_iff.mp hmembers
    refine .object (validateKeys_ok_iff.mp hkeys) ?_ (validateFields_ok_iff.mp hfields)
    intro entry hentry property hproperty
    have hvalid := Result.forM_ok_iff.mp hloop entry hentry
    rw [validateDeclared_eq, Option.mem_def.mp hproperty] at hvalid
    exact ih property (List.mem_of_find?_eq_some hproperty) hvalid

/-- The integers of the document are within those that a float can hold. -/
abbrev Holds (value : Document) : Prop := Document.Everywhere (fun part => ¬ Exceeds part) value

/-- Only integers exceed the floats. -/
theorem not_exceeds_arr (items : List Document) : ¬ Exceeds (.arr items) := by
  rintro ⟨_, heq, _⟩
  cases heq

/-- An object exceeds nothing. -/
theorem not_exceeds_obj (members : Members) : ¬ Exceeds (.obj members) := by
  rintro ⟨_, heq, _⟩
  cases heq

/-- The compiler accepts the values of the property whose integers a float can hold. -/
theorem validate_of_accepts {property : ConfigurationProperty} {value : Document}
    (haccepts : Accepts property value) (hholds : Holds value) :
    ∀ path, validateConfigurationValue property value path = .ok () := by
  induction haccepts with
  | scalar hkind hfields =>
    intro path
    rw [validateConfigurationValue, Result.check_bind_ok_iff]
    exact ⟨validateConfigurationScalar_ok_iff.mpr ⟨hholds.own, hkind⟩,
      validateFields_ok_iff.mpr hfields⟩
  | @array fields items values _ hfields ih =>
    intro path
    rw [validateConfigurationValue]
    refine Result.bind_ok_iff.mpr ⟨values, rfl, Result.check_bind_ok_iff.mpr
      ⟨Result.forM_ok_iff.mpr ?_, validateFields_ok_iff.mpr hfields⟩⟩
    intro entry hentry
    have hmem := List.fst_mem_of_mem_zipIdx hentry
    exact ih entry.1 hmem (hholds.items entry.1 hmem) _
  | @object fields properties members hkeys _ hfields ih =>
    intro path
    rw [validateConfigurationValue]
    refine Result.bind_ok_iff.mpr ⟨members, rfl, Result.check_bind_ok_iff.mpr
      ⟨validateKeys_ok_iff.mpr hkeys, Result.check_bind_ok_iff.mpr
        ⟨Result.forM_ok_iff.mpr ?_, validateFields_ok_iff.mpr hfields⟩⟩⟩
    intro entry hentry
    rw [validateDeclared_eq]
    cases hdeclared : declaredProperty properties entry.1 with
    | none => rfl
    | some property => exact ih entry hentry property hdeclared (hholds.members entry hentry) _

/-- The scalars that a kind accepts are neither null, nor an array, nor a table. -/
theorem leaf_of_isConfigurationScalar {value : Document} {kind : ConfigurationScalarKind}
    (h : isConfigurationScalar value kind = true) :
    value ≠ .null ∧ (∀ items, value ≠ .arr items) ∧ ∀ members, value ≠ .obj members := by
  refine ⟨?_, ?_, ?_⟩
  · rintro rfl
    cases kind <;> cases h
  · rintro items rfl
    cases kind <;> cases h
  · rintro members rfl
    cases kind <;> cases h

/-- What the compiler accepts has no integer that a float cannot hold. -/
theorem holds_of_validate {property : ConfigurationProperty} (htyped : Typed property) :
    ∀ {value path}, validateConfigurationValue property value path = .ok () → Holds value := by
  induction htyped with
  | scalar _ =>
    intro value path h
    rw [validateConfigurationValue] at h
    have hfits := validateConfigurationScalar_ok_iff.mp (Result.check_bind_ok_iff.mp h).1
    have hleaf := leaf_of_isConfigurationScalar hfits.2
    exact .leaf hfits.1 hleaf.2.1 hleaf.2.2
  | array _ _ ih =>
    intro value path h
    rw [validateConfigurationValue] at h
    obtain ⟨values, hvalues, h⟩ := Result.bind_ok_iff.mp h
    have hitems := (Result.check_bind_ok_iff.mp h).1
    cases list_ok_iff.mp hvalues
    refine .arr (not_exceeds_arr values) ?_
    intro item hitem
    obtain ⟨index, hindex, rfl⟩ := List.getElem_of_mem hitem
    exact ih (Result.forM_ok_iff.mp hitems (values[index], index)
      (List.mk_mem_zipIdx_iff_getElem?.mpr (List.getElem?_eq_getElem hindex)))
  | object _ _ ih =>
    intro value path h
    rw [validateConfigurationValue] at h
    obtain ⟨members, hmembers, h⟩ := Result.bind_ok_iff.mp h
    obtain ⟨hkeys, h⟩ := Result.check_bind_ok_iff.mp h
    have hloop := (Result.check_bind_ok_iff.mp h).1
    cases table_ok_iff.mp hmembers
    refine .obj (not_exceeds_obj members) ?_
    intro entry hentry
    have hvalid := Result.forM_ok_iff.mp hloop entry hentry
    rw [validateDeclared_eq] at hvalid
    -- Every member is declared, so a property has looked at its value.
    have hname := (validateKeys_ok_iff.mp hkeys).declared entry.1 (List.mem_map_of_mem hentry)
    cases hdeclared : declaredProperty _ entry.1 with
    | none => exact absurd hdeclared (declaredProperty_ne_none hname)
    | some property =>
      rw [hdeclared] at hvalid
      exact ih property (List.mem_of_find?_eq_some hdeclared) hvalid

/-- `_validate_configuration_value` accepts exactly the values of the property whose integers a
float can hold. -/
theorem validateConfigurationValue_ok_iff {property : ConfigurationProperty}
    (htyped : Typed property) {value : Document} {path : Text} :
    validateConfigurationValue property value path = .ok () ↔
      Accepts property value ∧ Holds value := by
  constructor
  · intro h
    exact ⟨accepts_of_validate htyped h, holds_of_validate htyped h⟩
  · rintro ⟨haccepts, hholds⟩
    exact validate_of_accepts haccepts hholds path

end Wmfs.Configuration
