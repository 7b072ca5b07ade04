import Wmfs.Compiler.Accepted
import Wmfs.Invocation.Binding
import Wmfs.Manifest.Fingerprints

/-!
# `Wmfs.Invocation.CallStyles`: one call written in several ways

`bind_scalars` takes a scalar by its position, by its declared name or by its Python name, and it
fills in the defaults. `CallStylesAgree` says that it does not matter which way a call is written.

Two parameters may have the same Python name, as `aB` and `a_b` do. `callStylesAgree_iff` says that
this is the only obstacle: the call styles of an operation agree exactly when the Python names of
its scalars are distinct. The names that the compiler accepts are ASCII, so the table of the cases
is `CaseTable.ascii`.
-/

set_option autoImplicit false

namespace Wmfs.Invocation

open Wmfs.Lib
open Wmfs.Manifest (scalarMetadata operationMetadata)
open Wmfs.Ring.Codec (Value)

/-! ### Equal values -/

/-- `math.isnan` of a 64-bit pattern. -/
def isNaN (bits : UInt64) : Bool := 2047 * 2 ^ 52 < bits.toNat % 2 ^ 63

/-- `==` of two floats: no NaN is equal to anything, and the two zeros are equal. -/
def FloatsEqual (a b : UInt64) : Prop :=
  isNaN a = false ∧ (a = b ∨ a.toNat % 2 ^ 63 = 0 ∧ b.toNat % 2 ^ 63 = 0)

/-- The integer that a float is equal to, when there is one. -/
def integerOf (bits : UInt64) : Option Int :=
  let exponent := bits.toNat / 2 ^ 52 % 2 ^ 11
  let fraction := bits.toNat % 2 ^ 52
  let sign : Int := if 2 ^ 63 ≤ bits.toNat then -1 else 1
  if exponent = 2047 then none
  -- The subnormal numbers are below one.
  else if exponent = 0 then if fraction = 0 then some 0 else none
  else
    let mantissa := 2 ^ 52 + fraction
    if 1075 ≤ exponent then some (sign * (mantissa * 2 ^ (exponent - 1075) : Nat))
    else if mantissa % 2 ^ (1075 - exponent) = 0 then
      some (sign * (mantissa / 2 ^ (1075 - exponent) : Nat))
    else none

example : integerOf 0x4008000000000000 = some 3 := by decide

/-- `==` of two scalar values. A `bool` is the number 0 or 1. -/
def ValuesEqual : Value → Value → Prop
  | .bool a, .bool b => a = b
  | .int a, .int b => a = b
  | .str a, .str b => a = b
  | .float a, .float b => FloatsEqual a b
  | .bool a, .int n | .int n, .bool a => n = a.toNat
  | .bool a, .float bits | .float bits, .bool a => integerOf bits = some a.toNat
  | .int n, .float bits | .float bits, .int n => integerOf bits = some n
  | .str _, _ | _, .str _ => False

/-- Two results are the same when they are equal. A NaN is the same as itself. -/
def SameValue (a b : Value) : Prop := a = b ∨ ValuesEqual a b

/-! ### Call styles -/

/-- The keywords that supply values: each one by a name of its parameter, or not at all when it is
equal to the default. -/
inductive Spelled (table : CaseTable) :
    List ScalarParameter → List Object → List (String × Object) → Prop where
  | nil (parameters : List ScalarParameter) : Spelled table parameters [] []
  | declared {parameter : ScalarParameter} {parameters : List ScalarParameter} {value : Object}
      {values : List Object} {keywords : List (String × Object)}
      (rest : Spelled table parameters values keywords) :
      Spelled table (parameter :: parameters) (value :: values)
        ((parameter.name, value) :: keywords)
  | python {parameter : ScalarParameter} {parameters : List ScalarParameter} {value : Object}
      {values : List Object} {keywords : List (String × Object)}
      (rest : Spelled table parameters values keywords) :
      Spelled table (parameter :: parameters) (value :: values)
        ((pythonParameterName table parameter.name, value) :: keywords)
  | omitted {parameter : ScalarParameter} {parameters : List ScalarParameter} {value : Value}
      {values : List Object} {keywords : List (String × Object)} (default : Value)
      (hdefault : parameter.default = some default) (hequal : ValuesEqual value default)
      (rest : Spelled table parameters values keywords) :
      Spelled table (parameter :: parameters) (.value value :: values) keywords

/-- `kwargs` is the dictionary of the keywords. -/
structure IsDict (kwargs : Keywords) (keywords : List (String × Object)) : Prop where
  nodup : (keywords.map Prod.fst).Nodup
  lookup_iff : ∀ key object, kwargs.lookup key = some object ↔ (key, object) ∈ keywords

/-- The ways to write a call agree. -/
structure CallStylesAgree (table : CaseTable) (operation : OperationMetadata) : Prop where
  /-- Values that are accepted by position are accepted when those from `count` on are keywords or
  are left to their defaults. The results are the same, and identical when nothing is left out. -/
  styles : ∀ (positional args : List Object) (count : Nat) (keywords : List (String × Object))
    (kwargs : Keywords) (results : List Value),
    bindScalars table operation positional ∅ = .ok results →
    othersOf args = (othersOf positional).take count →
    Spelled table (operation.scalarParameters.drop count) ((othersOf positional).drop count)
      keywords →
    IsDict kwargs keywords →
    ∃ results', bindScalars table operation args kwargs = .ok results' ∧
      List.Forall₂ SameValue results results' ∧
      (keywords.length = ((othersOf positional).drop count).length → results' = results)
  /-- A parameter is not taken by position and by a keyword. -/
  twice : ∀ (args : List Object) (kwargs : Keywords) (results : List Value) (index : Nat)
    (parameter : ScalarParameter), operation.scalarParameters[index]? = some parameter →
    index < (othersOf args).length →
    parameter.name ∈ kwargs ∨ pythonParameterName table parameter.name ∈ kwargs →
    bindScalars table operation args kwargs ≠ .ok results
  /-- A parameter is not taken by both of its names. -/
  twice_keyword : ∀ (args : List Object) (kwargs : Keywords) (results : List Value),
    ∀ parameter ∈ operation.scalarParameters,
    parameter.name ≠ pythonParameterName table parameter.name →
    parameter.name ∈ kwargs → pythonParameterName table parameter.name ∈ kwargs →
    bindScalars table operation args kwargs ≠ .ok results
  /-- No other keyword is taken. -/
  unknown : ∀ (args : List Object) (kwargs : Keywords) (results : List Value) (key : String),
    key ∈ kwargs →
    (∀ parameter ∈ operation.scalarParameters,
      key ≠ parameter.name ∧ key ≠ pythonParameterName table parameter.name) →
    bindScalars table operation args kwargs ≠ .ok results
  /-- The results are accepted by position, and stay as they are. -/
  idempotent : ∀ (args : List Object) (kwargs : Keywords) (results : List Value),
    bindScalars table operation args kwargs = .ok results →
    bindScalars table operation (results.map .value) ∅ = .ok results

/-! ### Python names -/

/-- The Python name of a parameter. -/
abbrev pythonName (name : String) : String := pythonParameterName .ascii name

/-- A lower-case character is not upper case. -/
theorem isUpper_toLower (character : Char) : character.toLower.isUpper = false := by
  unfold Char.toLower
  split
  · rename_i h
    show decide (_ ∧ _) = false
    simp
    grind
  · rename_i h
    show decide (_ ∧ _) = false
    simp
    grind

/-- The characters that a character of a name becomes. -/
def pythonCharacters (character : Char) : List Char :=
  if character.isUpper then ['_', character.toLower] else [character]

/-- The Python name, character by character. -/
theorem pythonName_eq (name : String) :
    pythonName name = String.ofList (name.toList.flatMap pythonCharacters) := rfl

/-- A Python name is its own Python name. -/
theorem pythonName_pythonName (name : String) : pythonName (pythonName name) = pythonName name := by
  have hcharacter (character : Char) :
      (pythonCharacters character).flatMap pythonCharacters = pythonCharacters character := by
    by_cases hupper : character.isUpper
    · have hlower := isUpper_toLower character
      simp [pythonCharacters, hupper, hlower]
    · simp [pythonCharacters, hupper]
  rw [pythonName_eq, pythonName_eq, String.toList_ofList, List.flatMap_assoc]
  congr 2
  funext character
  exact hcharacter character

/-! ### Integers as floats -/

/-- The conversion of an integer with a mantissa of 53 bits. The mantissa is the magnitude shifted,
so nothing is rounded. -/
theorem floatOfInt_of_mantissa {n : Int} {exponent mantissa : Nat}
    (hlow : 2 ^ 52 ≤ mantissa) (hhigh : mantissa < 2 ^ 53) (hexponent : exponent ≤ 1023)
    (h : n.natAbs * 2 ^ 52 = mantissa * 2 ^ exponent) :
    floatOfInt n = .ok (UInt64.ofNat ((if n < 0 then 2 ^ 63 else 0) +
      ((exponent + 1022) * 2 ^ 52 + mantissa))) := by
  have hpow : 0 < 2 ^ exponent := Nat.two_pow_pos exponent
  have hne : n.natAbs ≠ 0 := by
    intro hzero
    rw [hzero, Nat.zero_mul] at h
    have hpos := Nat.mul_pos (show 0 < mantissa by omega) hpow
    omega
  have hlog : n.natAbs.log2 = exponent := by
    rw [Nat.log2_eq_iff hne, pow_succ]
    constructor
    · nlinarith
    · nlinarith
  unfold floatOfInt
  simp only [hlog, if_neg hne]
  have hmantissa : (if exponent ≤ 52 then n.natAbs * 2 ^ (52 - exponent)
      else
        if 2 * (n.natAbs % 2 ^ (exponent - 52)) > 2 ^ (exponent - 52) ∨
            (2 * (n.natAbs % 2 ^ (exponent - 52)) = 2 ^ (exponent - 52) ∧
              n.natAbs / 2 ^ (exponent - 52) % 2 = 1) then
          n.natAbs / 2 ^ (exponent - 52) + 1
        else n.natAbs / 2 ^ (exponent - 52)) = mantissa := by
    split
    · rename_i hle
      have hsplit : (2 : Nat) ^ 52 = 2 ^ (52 - exponent) * 2 ^ exponent := by
        rw [← pow_add, Nat.sub_add_cancel hle]
      rw [hsplit, ← Nat.mul_assoc] at h
      exact Nat.eq_of_mul_eq_mul_right hpow h
    · rename_i hgt
      have hsplit : (2 : Nat) ^ exponent = 2 ^ (exponent - 52) * 2 ^ 52 := by
        rw [← pow_add, Nat.sub_add_cancel (by omega)]
      rw [hsplit, ← Nat.mul_assoc] at h
      have hmagnitude : n.natAbs = mantissa * 2 ^ (exponent - 52) :=
        Nat.eq_of_mul_eq_mul_right (by decide) h
      have hunit : 0 < 2 ^ (exponent - 52) := Nat.two_pow_pos _
      rw [hmagnitude, Nat.mul_mod_left, Nat.mul_div_cancel _ hunit, if_neg (by omega)]
  rw [hmantissa, if_neg (by omega)]
/-- The conversion to a float of an integer that a float is equal to. -/
theorem floatOfInt_of_integerOf {bits : UInt64} {n : Int} (h : integerOf bits = some n) :
    ∃ bits', floatOfInt n = .ok bits' ∧ FloatsEqual bits' bits := by
  have hlt := bits.toNat_lt
  unfold integerOf at h
  simp only at h
  split at h
  · cases h
  rename_i hfinite
  split at h
  · rename_i hexponent
    split at h
    · rename_i hfraction
      cases h
      refine ⟨0, rfl, rfl, Or.inr ⟨rfl, ?_⟩⟩
      omega
    · cases h
  rename_i hnormal
  -- The fields of a normal number. Its value is `±mantissa * 2 ^ (exponent - 1075)`.
  generalize hexponent : bits.toNat / 2 ^ 52 % 2 ^ 11 = exponent at h hfinite hnormal
  generalize hmantissa : 2 ^ 52 + bits.toNat % 2 ^ 52 = mantissa at h
  generalize hsign : (if 2 ^ 63 ≤ bits.toNat then -1 else 1 : Int) = sign at h
  have hsignAbs (magnitude : Nat) : (sign * (magnitude : Int)).natAbs = magnitude := by
    rw [← hsign]
    split <;> simp
  have hscaled : 1023 ≤ exponent ∧ n.natAbs * 2 ^ 52 = mantissa * 2 ^ (exponent - 1023) ∧
      ∃ magnitude : Nat, n = sign * magnitude := by
    split at h
    · rename_i hlarge
      cases h
      refine ⟨by omega, ?_, _, rfl⟩
      have hadd : exponent - 1075 + 52 = exponent - 1023 := by omega
      rw [hsignAbs, Nat.mul_assoc, ← pow_add, hadd]
    · rename_i hsmall
      split at h
      · rename_i hdivides
        cases h
        have hdvd := Nat.dvd_of_mod_eq_zero hdivides
        have hshift : 1075 - exponent < 53 := by
          have hle := Nat.le_of_dvd (by omega) hdvd
          rw [← Nat.pow_lt_pow_iff_right (show 1 < 2 by decide)]
          omega
        refine ⟨by omega, ?_, _, rfl⟩
        obtain ⟨quotient, hquotient⟩ := hdvd
        have hadd : 1075 - exponent + (exponent - 1023) = 52 := by omega
        rw [hsignAbs, hquotient, Nat.mul_div_cancel_left _ (Nat.two_pow_pos _),
          Nat.mul_comm (2 ^ _), Nat.mul_assoc, ← pow_add, hadd]
      · cases h
  obtain ⟨hexponentLow, hscale, magnitude, hmagnitude⟩ := hscaled
  have hne : n.natAbs ≠ 0 := by
    intro hzero
    rw [hzero, Nat.zero_mul] at hscale
    have hpos := Nat.mul_pos (show 0 < mantissa by omega) (Nat.two_pow_pos (exponent - 1023))
    omega
  have hnegative : n < 0 ↔ 2 ^ 63 ≤ bits.toNat := by
    have hpositive : (0 : Int) < magnitude := by
      rcases Nat.eq_zero_or_pos magnitude with rfl | hpos
      · rw [hmagnitude] at hne
        simp at hne
      · exact_mod_cast hpos
    rw [hmagnitude, ← hsign]
    split
    · rename_i hge
      exact ⟨fun _ => hge, fun _ => by omega⟩
    · rename_i hnot
      exact ⟨fun hneg => by omega, fun hge => absurd hge hnot⟩
  refine ⟨_, floatOfInt_of_mantissa (by omega) (by omega) (by omega) hscale, ?_⟩
  have hbits : UInt64.ofNat ((if n < 0 then 2 ^ 63 else 0) +
      ((exponent - 1023 + 1022) * 2 ^ 52 + mantissa)) = bits := by
    apply UInt64.toNat_inj.mp
    rw [UInt64.toNat_ofNat']
    by_cases hneg : n < 0
    · rw [if_pos hneg]
      have hge := hnegative.mp hneg
      omega
    · rw [if_neg hneg]
      have hnot := hnegative.not.mp hneg
      omega
  rw [hbits]
  refine ⟨?_, Or.inl rfl⟩
  rw [isNaN, decide_eq_false_iff_not]
  omega

/-! ### Coercion -/

/-- A value of an enumeration is coerced to the index of a member. Both ways to name a member give
such an index. -/
theorem exists_index_of_coerceScalar {parameter : ScalarParameter} {object : Object}
    {value : Value} (henum : parameter.enumName ≠ none)
    (h : coerceScalar parameter object = .ok value) :
    ∃ index : Nat, value = .int index ∧ index < parameter.enumValues.length := by
  obtain ⟨enumName, henum⟩ := Option.ne_none_iff_exists'.mp henum
  simp only [coerceScalar, henum] at h
  split at h
  · split at h
    · rename_i index hfound
      cases h
      obtain ⟨hlt, -⟩ := List.idxOf?_eq_some_iff.mp hfound
      exact ⟨index, rfl, hlt⟩
    · cases h
  · split at h
    · rename_i hrange
      cases h
      obtain ⟨index, rfl⟩ := Int.eq_ofNat_of_zero_le hrange.1
      exact ⟨index, rfl, by exact_mod_cast hrange.2⟩
    · cases h
  · cases h

/-- A coerced value is coerced to itself. -/
theorem coerceScalar_value {parameter : ScalarParameter} {object : Object} {value : Value}
    (h : coerceScalar parameter object = .ok value) :
    coerceScalar parameter (.value value) = .ok value := by
  cases henum : parameter.enumName with
  | some enumName =>
    obtain ⟨index, rfl, hlt⟩ := exists_index_of_coerceScalar (by simp [henum]) h
    simp only [coerceScalar, henum]
    exact if_pos ⟨by omega, by exact_mod_cast hlt⟩
  | none =>
    simp only [coerceScalar, henum] at h ⊢
    split at h
    · rename_i hkind
      rw [if_pos hkind]
      split at h <;> cases h
      rfl
    rename_i hboolean
    rw [if_neg hboolean]
    split at h
    · rename_i hkind
      rw [if_pos hkind]
      split at h
      · cases h
        rfl
      · cases hfloat : floatOfInt _ with
        | error e => rw [hfloat] at h; cases h
        | ok bits =>
          rw [hfloat] at h
          cases h
          rfl
      · cases h
    rename_i hfloat
    rw [if_neg hfloat]
    split at h
    · rename_i hkind
      rw [if_pos hkind]
      split at h <;> cases h
      rfl
    rename_i hint
    rw [if_neg hint]
    split at h
    · rename_i hkind
      rw [if_pos hkind]
      split at h <;> cases h
      rfl
    · cases h

/-- A value that is equal to the default is coerced to the same as the default. -/
def DefaultCoerces (parameter : ScalarParameter) : Prop :=
  ∀ default value result : Value, parameter.default = some default → ValuesEqual value default →
    coerceScalar parameter (.value value) = .ok result →
    ∃ result', coerceScalar parameter (.value default) = .ok result' ∧ SameValue result result'

/-- A parameter takes a value. -/
def Takes (parameter : ScalarParameter) (value : Value) : Prop :=
  ∃ result, coerceScalar parameter (.value value) = .ok result

/-- The defaults that the compiler accepts. The cases are the types of the scalar. -/
theorem defaultCoerces_scalarMetadata (scalar : Compiler.ScalarParameter) :
    DefaultCoerces (scalarMetadata scalar) := by
  intro default value result hdefault hequal hcoerce
  obtain ⟨name, type⟩ := scalar
  cases type with
  | boolean declared =>
    obtain ⟨b, rfl, rfl⟩ := Option.map_eq_some_iff.mp hdefault
    cases value with
    | bool a =>
      cases hequal
      exact ⟨result, hcoerce, Or.inl rfl⟩
    | int _ => cases hcoerce
    | float _ => cases hcoerce
    | str _ => cases hcoerce
  | float64 declared =>
    obtain ⟨bits, rfl, rfl⟩ := Option.map_eq_some_iff.mp hdefault
    cases value with
    | bool _ => cases hcoerce
    | int n =>
      obtain ⟨bits', hfloat, hbits⟩ := floatOfInt_of_integerOf hequal
      have hcoerce : (floatOfInt n).map Value.float = .ok result := hcoerce
      rw [hfloat] at hcoerce
      cases hcoerce
      exact ⟨.float bits, rfl, Or.inr hbits⟩
    | float a =>
      cases hcoerce
      exact ⟨.float bits, rfl, Or.inr hequal⟩
    | str _ => cases hcoerce
  | int64 declared =>
    obtain ⟨n, rfl, rfl⟩ := Option.map_eq_some_iff.mp hdefault
    cases value with
    | bool _ => cases hcoerce
    | int m =>
      cases hequal
      exact ⟨result, hcoerce, Or.inl rfl⟩
    | float _ => cases hcoerce
    | str _ => cases hcoerce
  | text declared =>
    obtain ⟨text, rfl, rfl⟩ := Option.map_eq_some_iff.mp hdefault
    cases value with
    | bool _ => cases hcoerce
    | int _ => cases hcoerce
    | float _ => cases hcoerce
    | str other =>
      cases hequal
      exact ⟨result, hcoerce, Or.inl rfl⟩
  | enum declaration declared =>
    obtain ⟨member, rfl, rfl⟩ := Option.map_eq_some_iff.mp hdefault
    cases value with
    | bool _ => cases hcoerce
    -- A member index is not equal to the name of a member.
    | int _ => cases hequal
    | float _ => cases hcoerce
    | str other =>
      cases hequal
      exact ⟨result, hcoerce, Or.inl rfl⟩

/-- Every scalar that the compiler accepts takes some value. -/
theorem exists_takes_scalarMetadata (scalar : Compiler.ScalarParameter) :
    ∃ value, Takes (scalarMetadata scalar) value := by
  obtain ⟨name, type⟩ := scalar
  cases type with
  | boolean declared => exact ⟨.bool false, .bool false, rfl⟩
  | float64 declared => exact ⟨.float 0, .float 0, rfl⟩
  | int64 declared => exact ⟨.int 0, .int 0, rfl⟩
  | text declared => exact ⟨.str [], .str [], rfl⟩
  | enum declaration declared =>
    refine ⟨.int 0, .int 0, if_pos ⟨le_refl 0, ?_⟩⟩
    have hpos := List.length_pos_iff.mpr declaration.values_ne_nil
    show (0 : Int) < ((declaration.values.map _).length : Nat)
    rw [List.length_map]
    exact_mod_cast hpos

/-! ### The loop -/

/-- Values are no tensors. -/
theorem othersOf_map_value (values : List Value) :
    othersOf (values.map .value) = values.map .value :=
  othersOf_arguments [] values

section
variable {table : CaseTable} {parameter : ScalarParameter} {parameters : List ScalarParameter}
  {positional : List Object} {remaining remaining' : Keywords} {results : List Value}

/-- What `chooseScalar` does when it returns an argument and the keywords that remain. -/
inductive Chooses (table : CaseTable) (parameter : ScalarParameter) (remaining : Keywords) :
    Option Object → Object → Keywords → Prop where
  | positional {object : Object} (hname : parameter.name ∉ remaining)
      (hpython : pythonParameterName table parameter.name ∉ remaining) :
      Chooses table parameter remaining (some object) object remaining
  | python {object : Object}
      (hlookup : remaining.lookup (pythonParameterName table parameter.name) = some object) :
      Chooses table parameter remaining none object
        (remaining.erase (pythonParameterName table parameter.name))
  | declared {object : Object} (hpython : pythonParameterName table parameter.name ∉ remaining)
      (hlookup : remaining.lookup parameter.name = some object) :
      Chooses table parameter remaining none object (remaining.erase parameter.name)
  | default {value : Value} (hpython : pythonParameterName table parameter.name ∉ remaining)
      (hname : parameter.name ∉ remaining) (hdefault : parameter.default = some value) :
      Chooses table parameter remaining none (.value value) remaining

/-- Where the object of a parameter comes from. -/
theorem chooseScalar_ok_iff {given : Option Object} {object : Object} :
    chooseScalar table parameter given remaining = .ok (object, remaining') ↔
      Chooses table parameter remaining given object remaining' := by
  constructor
  · intro h
    unfold chooseScalar at h
    cases given with
    | some value =>
      simp only [Result.check_bind_ok_iff, raiseIf_ok_iff, AList.lookup_isSome, not_or] at h
      obtain ⟨⟨hname, hpython⟩, h⟩ := h
      cases h
      exact .positional hname hpython
    | none =>
      simp only at h
      split at h
      · rename_i hlookup
        cases h
        exact .python hlookup
      · rename_i hpython hlookup
        cases h
        exact .declared (AList.lookup_eq_none.mp hpython) hlookup
      · rename_i hpython hname hdefault
        cases h
        exact .default (AList.lookup_eq_none.mp hpython) (AList.lookup_eq_none.mp hname) hdefault
      · split at h <;> cases h
  · intro h
    unfold chooseScalar
    cases h with
    | positional hname hpython =>
      simp only [Result.check_bind_ok_iff, raiseIf_ok_iff, AList.lookup_isSome, not_or]
      exact ⟨⟨hname, hpython⟩, rfl⟩
    | python hlookup => simp only [hlookup]
    | declared hpython hlookup => simp only [AList.lookup_eq_none.mpr hpython, hlookup]
    | default hpython hname hdefault =>
      simp only [AList.lookup_eq_none.mpr hpython, AList.lookup_eq_none.mpr hname, hdefault]

/-- One iteration of `bind_scalars`. -/
theorem bindScalarsLoop_cons_ok_iff :
    bindScalarsLoop table (parameter :: parameters) positional remaining =
        .ok (results, remaining') ↔
      ∃ object middle value rest, Chooses table parameter remaining positional.head? object middle ∧
        coerceScalar parameter object = .ok value ∧
        bindScalarsLoop table parameters positional.tail middle = .ok (rest, remaining') ∧
        results = value :: rest := by
  rw [bindScalarsLoop]
  constructor
  · intro h
    obtain ⟨⟨object, middle⟩, hchoose, h⟩ := Result.bind_ok_iff.mp h
    obtain ⟨value, hvalue, h⟩ := Result.bind_ok_iff.mp h
    obtain ⟨⟨rest, last⟩, hrest, h⟩ := Result.bind_ok_iff.mp h
    cases h
    exact ⟨object, middle, value, rest, chooseScalar_ok_iff.mp hchoose, hvalue, hrest, rfl⟩
  · intro ⟨object, middle, value, rest, hchoose, hvalue, hrest, hresults⟩
    rw [chooseScalar_ok_iff.mpr hchoose, Result.ok_bind]
    simp only [hvalue, Result.ok_bind, hrest]
    rw [hresults]
    rfl

/-- `bind_scalars` takes every positional argument and every keyword. -/
theorem bindScalars_ok_iff {operation : OperationMetadata} {args : List Object}
    {kwargs : Keywords} : bindScalars table operation args kwargs = .ok results ↔
      (othersOf args).length ≤ operation.scalarParameters.length ∧
        bindScalarsLoop table operation.scalarParameters (othersOf args) kwargs =
          .ok (results, ∅) := by
  simp only [bindScalars, Result.check_bind_ok_iff, raiseIf_ok_iff, not_lt, gt_iff_lt]
  refine and_congr_right fun _ => ?_
  rw [Result.bind_ok_iff]
  constructor
  · rintro ⟨⟨values, last⟩, hloop, h⟩
    cases hkeys : last.keys with
    | nil =>
      simp only [hkeys] at h
      cases h
      have hempty : last = ∅ := AList.ext (List.map_eq_nil_iff.mp hkeys)
      rw [hloop, hempty]
    | cons key keys =>
      simp only [hkeys] at h
      cases h
  · intro hloop
    exact ⟨(results, ∅), hloop, rfl⟩

/-- A parameter leaves the keywords of the others alone. -/
theorem Chooses.lookup_eq {given : Option Object} {object : Object}
    (h : Chooses table parameter remaining given object remaining') {key : String}
    (hname : key ≠ parameter.name) (hpython : key ≠ pythonParameterName table parameter.name) :
    remaining'.lookup key = remaining.lookup key := by
  cases h with
  | positional => rfl
  | python => exact AList.lookup_erase_ne hpython
  | declared => exact AList.lookup_erase_ne hname
  | default => rfl

/-- The loop leaves a keyword alone that is no name of a parameter. -/
theorem lookup_eq_of_bindScalarsLoop {key : String}
    (h : bindScalarsLoop table parameters positional remaining = .ok (results, remaining'))
    (hkey : ∀ parameter ∈ parameters,
      key ≠ parameter.name ∧ key ≠ pythonParameterName table parameter.name) :
    remaining'.lookup key = remaining.lookup key := by
  induction parameters generalizing positional remaining results with
  | nil =>
    cases h
    rfl
  | cons parameter parameters ih =>
    rw [List.forall_mem_cons] at hkey
    obtain ⟨object, middle, value, rest, hchoose, -, hrest, -⟩ := bindScalarsLoop_cons_ok_iff.mp h
    rw [ih hrest hkey.2, hchoose.lookup_eq hkey.1.1 hkey.1.2]

/-- The parameters that are given by position have no keyword. -/
theorem notMem_of_bindScalarsLoop {index : Nat}
    (h : bindScalarsLoop table parameters positional remaining = .ok (results, remaining'))
    (hparameter : parameters[index]? = some parameter) (hindex : index < positional.length) :
    parameter.name ∉ remaining ∧ pythonParameterName table parameter.name ∉ remaining := by
  induction parameters generalizing positional index results with
  | nil => cases hparameter
  | cons first parameters ih =>
    cases positional with
    | nil => exact absurd hindex (Nat.not_lt_zero _)
    | cons object positional =>
      obtain ⟨_, middle, value, rest, hchoose, -, hrest, -⟩ := bindScalarsLoop_cons_ok_iff.mp h
      cases hchoose with
      | positional hname hpython =>
        cases index with
        | zero =>
          cases hparameter
          exact ⟨hname, hpython⟩
        | succ index => exact ih hrest hparameter (Nat.lt_of_succ_lt_succ hindex)

/-- The loop takes its own results by position, and returns them. -/
theorem bindScalarsLoop_results
    (h : bindScalarsLoop table parameters positional remaining = .ok (results, remaining')) :
    bindScalarsLoop table parameters (results.map .value) ∅ = .ok (results, ∅) := by
  induction parameters generalizing positional remaining results with
  | nil =>
    cases h
    rfl
  | cons parameter parameters ih =>
    obtain ⟨object, middle, value, rest, -, hvalue, hrest, rfl⟩ :=
      bindScalarsLoop_cons_ok_iff.mp h
    rw [bindScalarsLoop_cons_ok_iff]
    exact ⟨.value value, ∅, value, rest,
      .positional (AList.notMem_empty _) (AList.notMem_empty _), coerceScalar_value hvalue,
      ih hrest, rfl⟩

/-- Every parameter gets a value. -/
theorem length_of_bindScalarsLoop
    (h : bindScalarsLoop table parameters positional remaining = .ok (results, remaining')) :
    results.length = parameters.length := by
  induction parameters generalizing positional remaining results with
  | nil =>
    cases h
    rfl
  | cons parameter parameters ih =>
    obtain ⟨object, middle, value, rest, -, -, hrest, rfl⟩ := bindScalarsLoop_cons_ok_iff.mp h
    rw [List.length_cons, ih hrest, List.length_cons]

end

/-! ### Distinct Python names -/

/-- No two parameters have the same Python name. -/
def PythonNamesDistinct (parameters : List ScalarParameter) : Prop :=
  (parameters.map fun parameter => pythonName parameter.name).Nodup

instance (parameters : List ScalarParameter) : Decidable (PythonNamesDistinct parameters) :=
  inferInstanceAs (Decidable (List.Nodup _))

/-- A key that has another Python name is neither of the names of a parameter. -/
theorem ne_of_pythonName_ne {key name : String} (h : pythonName key ≠ pythonName name) :
    key ≠ name ∧ key ≠ pythonName name := by
  constructor
  · rintro rfl
    exact h rfl
  · rintro rfl
    exact h (pythonName_pythonName name)

section
variable {parameter : ScalarParameter} {parameters : List ScalarParameter}
  {positional values : List Object} {remaining remaining' : Keywords} {results : List Value}
  {keywords : List (String × Object)}

/-- The first of distinct parameters. -/
theorem PythonNamesDistinct.cons (h : PythonNamesDistinct (parameter :: parameters)) :
    (∀ other ∈ parameters, pythonName parameter.name ≠ pythonName other.name) ∧
      PythonNamesDistinct parameters := by
  rw [PythonNamesDistinct, List.map_cons, List.nodup_cons] at h
  refine ⟨fun other hother heq => h.1 ?_, h.2⟩
  rw [heq]
  exact List.mem_map_of_mem hother

/-- A parameter that is given by both of its names leaves one of them behind. The induction is on
the parameters: those in front of it and those behind it take neither. -/
theorem ne_empty_of_both_names (hdistinct : PythonNamesDistinct parameters)
    (h : bindScalarsLoop .ascii parameters positional remaining = .ok (results, remaining'))
    (hmem : parameter ∈ parameters) (hne : parameter.name ≠ pythonName parameter.name)
    (hname : parameter.name ∈ remaining) (hpython : pythonName parameter.name ∈ remaining) :
    remaining' ≠ ∅ := by
  induction parameters generalizing positional remaining results with
  | nil => cases hmem
  | cons first parameters ih =>
    obtain ⟨hapart, hdistinct⟩ := hdistinct.cons
    obtain ⟨object, middle, value, rest, hchoose, -, hrest, -⟩ := bindScalarsLoop_cons_ok_iff.mp h
    rcases List.mem_cons.mp hmem with rfl | hmem
    · have hmiddle : parameter.name ∈ middle := by
        generalize positional.head? = given at hchoose
        cases hchoose with
        | positional hnotMem => exact absurd hname hnotMem
        | python => exact AList.mem_erase.mpr ⟨hne, hname⟩
        | declared hnotMem => exact absurd hpython hnotMem
        | default hnotMem => exact absurd hpython hnotMem
      have hkeep := lookup_eq_of_bindScalarsLoop hrest fun other hother =>
        ne_of_pythonName_ne (hapart other hother)
      rintro rfl
      rw [AList.lookup_empty, eq_comm, AList.lookup_eq_none] at hkeep
      exact hkeep hmiddle
    · have hother := (hapart parameter hmem).symm
      have hkept : ∀ key, pythonName key = pythonName parameter.name → key ∈ remaining →
          key ∈ middle := by
        intro key hkey hmemKey
        obtain ⟨hneName, hnePython⟩ := ne_of_pythonName_ne (hkey.trans_ne hother)
        rw [← AList.lookup_isSome, hchoose.lookup_eq hneName hnePython, AList.lookup_isSome]
        exact hmemKey
      exact ih hdistinct hrest hmem (hkept _ rfl hname)
        (hkept _ (pythonName_pythonName _) hpython)

/-! ### Keywords -/

/-- Every keyword has the Python name of a parameter. -/
theorem exists_of_spelled (h : Spelled .ascii parameters values keywords) {key : String}
    {object : Object} (hmem : (key, object) ∈ keywords) :
    ∃ parameter ∈ parameters, pythonName key = pythonName parameter.name := by
  induction h with
  | nil => cases hmem
  | declared rest ih =>
    rcases List.mem_cons.mp hmem with heq | hmem
    · cases heq
      exact ⟨_, List.mem_cons_self, rfl⟩
    · obtain ⟨parameter, hparameter, hname⟩ := ih hmem
      exact ⟨parameter, List.mem_cons_of_mem _ hparameter, hname⟩
  | python rest ih =>
    rcases List.mem_cons.mp hmem with heq | hmem
    · cases heq
      exact ⟨_, List.mem_cons_self, pythonName_pythonName _⟩
    · obtain ⟨parameter, hparameter, hname⟩ := ih hmem
      exact ⟨parameter, List.mem_cons_of_mem _ hparameter, hname⟩
  | omitted default hdefault hequal rest ih =>
    obtain ⟨parameter, hparameter, hname⟩ := ih hmem
    exact ⟨parameter, List.mem_cons_of_mem _ hparameter, hname⟩

/-- A name that no keyword has is not in the dictionary. -/
theorem IsDict.notMem {key : String} (h : IsDict remaining keywords)
    (hkey : ∀ object, (key, object) ∉ keywords) : key ∉ remaining := by
  rw [← AList.lookup_eq_none, Option.eq_none_iff_forall_not_mem]
  intro object hobject
  exact hkey object ((h.lookup_iff key object).mp hobject)

/-- Without keywords the dictionary is empty. -/
theorem IsDict.eq_empty (h : IsDict remaining []) : remaining = ∅ := by
  apply AList.ext
  rw [AList.empty_entries, List.eq_nil_iff_forall_not_mem]
  intro entry hentry
  exact h.notMem (fun _ => List.not_mem_nil) (List.mem_map_of_mem (f := Sigma.fst) hentry)

/-- The object of the first keyword. -/
theorem IsDict.lookup_head {key : String} {object : Object}
    (h : IsDict remaining ((key, object) :: keywords)) : remaining.lookup key = some object :=
  (h.lookup_iff key object).mpr List.mem_cons_self

/-- What is left of a dictionary when its first keyword is taken. -/
theorem IsDict.erase {key : String} {object : Object}
    (h : IsDict remaining ((key, object) :: keywords)) : IsDict (remaining.erase key) keywords := by
  have hnodup := h.nodup
  rw [List.map_cons, List.nodup_cons] at hnodup
  refine ⟨hnodup.2, ?_⟩
  intro other value
  by_cases heq : other = key
  · subst heq
    rw [AList.lookup_erase]
    constructor
    · intro hnone
      cases hnone
    · intro hmem
      exact absurd (List.mem_map_of_mem (f := Prod.fst) hmem) hnodup.1
  · rw [AList.lookup_erase_ne heq, h.lookup_iff, List.mem_cons, Prod.mk.injEq]
    exact or_iff_right fun hand => heq hand.1

/-- A parameter whose Python name is another one has no keyword among those of the others. -/
theorem IsDict.notMem_names (h : IsDict remaining keywords)
    (hspelled : Spelled .ascii parameters values keywords)
    (hapart : ∀ other ∈ parameters, pythonName parameter.name ≠ pythonName other.name) :
    parameter.name ∉ remaining ∧ pythonName parameter.name ∉ remaining := by
  have hnone : ∀ key, pythonName key = pythonName parameter.name → key ∉ remaining := by
    intro key hkey
    apply h.notMem
    intro object hmem
    obtain ⟨other, hother, hname⟩ := exists_of_spelled hspelled hmem
    exact hapart other hother (hkey.symm.trans hname)
  exact ⟨hnone _ rfl, hnone _ (pythonName_pythonName _)⟩

/-- There are at most as many keywords as values. -/
theorem length_le_of_spelled {table : CaseTable} (h : Spelled table parameters values keywords) :
    keywords.length ≤ values.length := by
  induction h with
  | nil => exact le_refl 0
  | declared rest ih => exact Nat.succ_le_succ ih
  | python rest ih => exact Nat.succ_le_succ ih
  | omitted default hdefault hequal rest ih => exact Nat.le_succ_of_le ih

/-- Values are the same as themselves. -/
theorem sameValues_refl (results : List Value) : List.Forall₂ SameValue results results :=
  List.forall₂_same.mpr fun _ _ => Or.inl rfl

/-- Values that are accepted by position are accepted as keywords. The induction is on the keywords:
each parameter finds its own one. -/
theorem bindScalarsLoop_spelled (hspelled : Spelled .ascii parameters values keywords)
    (hdistinct : PythonNamesDistinct parameters)
    (hdefaults : ∀ parameter ∈ parameters, DefaultCoerces parameter)
    (hdict : IsDict remaining keywords)
    (h : bindScalarsLoop .ascii parameters values ∅ = .ok (results, ∅)) :
    ∃ results', bindScalarsLoop .ascii parameters [] remaining = .ok (results', ∅) ∧
      List.Forall₂ SameValue results results' ∧
      (keywords.length = values.length → results' = results) := by
  induction hspelled generalizing remaining results with
  | nil parameters =>
    rw [hdict.eq_empty]
    exact ⟨results, h, sameValues_refl results, fun _ => rfl⟩
  | @declared parameter parameters value values keywords rest ih =>
    obtain ⟨hapart, hdistinct⟩ := hdistinct.cons
    rw [List.forall_mem_cons] at hdefaults
    obtain ⟨_, _, result, results, hchoose, hresult, hrest, rfl⟩ := bindScalarsLoop_cons_ok_iff.mp h
    cases hchoose with
    | positional =>
      obtain ⟨results', hloop, hsame, hequal⟩ := ih hdistinct hdefaults.2 hdict.erase hrest
      have hchoose : Chooses .ascii parameter remaining none value
          (remaining.erase parameter.name) := by
        by_cases hname : pythonName parameter.name = parameter.name
        · -- The two names are one, and the source looks for the Python name first.
          have hlookup : remaining.lookup (pythonName parameter.name) = some value := by
            rw [hname]
            exact hdict.lookup_head
          have hchoose : Chooses .ascii parameter remaining none value
              (remaining.erase (pythonName parameter.name)) := .python hlookup
          rwa [hname] at hchoose
        · have hpython := (hdict.erase.notMem_names rest hapart).2
          rw [AList.mem_erase, not_and] at hpython
          exact .declared (hpython hname) hdict.lookup_head
      refine ⟨result :: results', ?_, .cons (Or.inl rfl) hsame, ?_⟩
      · rw [bindScalarsLoop_cons_ok_iff]
        exact ⟨value, _, result, results', hchoose, hresult, hloop, rfl⟩
      · intro hlength
        rw [hequal (Nat.succ.inj hlength)]
  | @python parameter parameters value values keywords rest ih =>
    obtain ⟨hapart, hdistinct⟩ := hdistinct.cons
    rw [List.forall_mem_cons] at hdefaults
    obtain ⟨_, _, result, results, hchoose, hresult, hrest, rfl⟩ := bindScalarsLoop_cons_ok_iff.mp h
    cases hchoose with
    | positional =>
      obtain ⟨results', hloop, hsame, hequal⟩ := ih hdistinct hdefaults.2 hdict.erase hrest
      refine ⟨result :: results', ?_, .cons (Or.inl rfl) hsame, ?_⟩
      · rw [bindScalarsLoop_cons_ok_iff]
        exact ⟨value, _, result, results', .python hdict.lookup_head, hresult, hloop, rfl⟩
      · intro hlength
        rw [hequal (Nat.succ.inj hlength)]
  | @omitted parameter parameters value values keywords default hdefault hvalue rest ih =>
    obtain ⟨hapart, hdistinct⟩ := hdistinct.cons
    rw [List.forall_mem_cons] at hdefaults
    obtain ⟨_, _, result, results, hchoose, hresult, hrest, rfl⟩ := bindScalarsLoop_cons_ok_iff.mp h
    cases hchoose with
    | positional =>
      obtain ⟨results', hloop, hsame, hequal⟩ := ih hdistinct hdefaults.2 hdict hrest
      obtain ⟨result', hresult', hsameResult⟩ :=
        hdefaults.1 default value result hdefault hvalue hresult
      obtain ⟨hname, hpython⟩ := hdict.notMem_names rest hapart
      refine ⟨result' :: results', ?_, .cons hsameResult hsame, ?_⟩
      · rw [bindScalarsLoop_cons_ok_iff]
        exact ⟨.value default, remaining, result', results', .default hpython hname hdefault,
          hresult', hloop, rfl⟩
      · intro hlength
        have hle := length_le_of_spelled rest
        rw [List.length_cons] at hlength
        omega

/-- Values that are accepted by position are accepted when those from `count` on are keywords. The
induction is on `count`: a parameter in front of it finds no keyword of its own. -/
theorem bindScalarsLoop_styles {count : Nat}
    (hspelled : Spelled .ascii (parameters.drop count) (values.drop count) keywords)
    (hdistinct : PythonNamesDistinct parameters)
    (hdefaults : ∀ parameter ∈ parameters, DefaultCoerces parameter)
    (hdict : IsDict remaining keywords)
    (h : bindScalarsLoop .ascii parameters values ∅ = .ok (results, ∅)) :
    ∃ results', bindScalarsLoop .ascii parameters (values.take count) remaining =
        .ok (results', ∅) ∧
      List.Forall₂ SameValue results results' ∧
      (keywords.length = (values.drop count).length → results' = results) := by
  induction count generalizing parameters values results with
  | zero => exact bindScalarsLoop_spelled hspelled hdistinct hdefaults hdict h
  | succ count ih =>
    cases values with
    | nil =>
      rw [List.drop_nil] at hspelled
      generalize parameters.drop (count + 1) = others at hspelled
      cases hspelled
      rw [hdict.eq_empty]
      exact ⟨results, h, sameValues_refl results, fun _ => rfl⟩
    | cons value values =>
      cases parameters with
      | nil =>
        cases h
        rw [List.drop_nil] at hspelled
        generalize hdrop : (value :: values).drop (count + 1) = rest at hspelled
        cases hspelled
        rw [hdict.eq_empty]
        exact ⟨[], rfl, .nil, fun _ => rfl⟩
      | cons parameter parameters =>
        obtain ⟨hapart, hdistinct⟩ := hdistinct.cons
        rw [List.forall_mem_cons] at hdefaults
        obtain ⟨_, _, result, results, hchoose, hresult, hrest, rfl⟩ :=
          bindScalarsLoop_cons_ok_iff.mp h
        cases hchoose with
        | positional =>
          obtain ⟨results', hloop, hsame, hequal⟩ := ih hspelled hdistinct hdefaults.2 hrest
          have hnames := hdict.notMem_names hspelled fun other hother =>
            hapart other (List.mem_of_mem_drop hother)
          refine ⟨result :: results', ?_, .cons (Or.inl rfl) hsame, ?_⟩
          · rw [List.take_succ_cons, bindScalarsLoop_cons_ok_iff]
            exact ⟨value, remaining, result, results', .positional hnames.1 hnames.2, hresult,
              hloop, rfl⟩
          · intro hlength
            rw [hequal hlength]

end

/-! ### Equal Python names -/

/-- When two parameters have one Python name, some parameter is the last one with its Python name
and not the first. The induction is from the end of the list. -/
theorem exists_last_of_not_distinct {parameters : List ScalarParameter}
    (h : ¬ PythonNamesDistinct parameters) :
    ∃ before last after, parameters = before ++ last :: after ∧
      (∃ first ∈ before, pythonName first.name = pythonName last.name) ∧
      ∀ other ∈ after, pythonName other.name ≠ pythonName last.name := by
  induction parameters using List.reverseRecOn with
  | nil => exact absurd List.nodup_nil h
  | append_singleton parameters parameter ih =>
    by_cases hmem : ∃ first ∈ parameters, pythonName first.name = pythonName parameter.name
    · exact ⟨parameters, parameter, [], rfl, hmem, nofun⟩
    · have hrest : ¬ PythonNamesDistinct parameters := by
        intro hdistinct
        apply h
        rw [PythonNamesDistinct, List.map_append, List.nodup_append]
        refine ⟨hdistinct, List.nodup_singleton _, ?_⟩
        intro name hname other hother
        obtain ⟨first, hfirst, rfl⟩ := List.mem_map.mp hname
        cases List.mem_singleton.mp hother
        intro heq
        exact hmem ⟨first, hfirst, heq⟩
      obtain ⟨before, last, after, rfl, ⟨first, hfirst, hname⟩, hafter⟩ := ih hrest
      refine ⟨before, last, after ++ [parameter], by simp, ⟨first, hfirst, hname⟩, ?_⟩
      intro other hother
      rcases List.mem_append.mp hother with hother | hother
      · exact hafter other hother
      · cases List.mem_singleton.mp hother
        intro heq
        exact hmem ⟨first, List.mem_append_left _ hfirst, hname.trans heq.symm⟩

section
variable {parameters : List ScalarParameter} {values : List Value}

/-- Values that are taken one by one are accepted by position. -/
theorem exists_bindScalarsLoop_of_takes {table : CaseTable}
    (h : List.Forall₂ Takes parameters values) :
    ∃ results, bindScalarsLoop table parameters (values.map .value) ∅ = .ok (results, ∅) := by
  induction h with
  | nil => exact ⟨[], rfl⟩
  | cons hvalue _ ih =>
    obtain ⟨result, hresult⟩ := hvalue
    obtain ⟨results, hresults⟩ := ih
    refine ⟨result :: results, ?_⟩
    rw [bindScalarsLoop_cons_ok_iff]
    exact ⟨_, ∅, result, results, .positional (AList.notMem_empty _) (AList.notMem_empty _),
      hresult, hresults, rfl⟩

/-- When every parameter takes a value there is a list of them. -/
theorem exists_forall₂_takes (h : ∀ parameter ∈ parameters, ∃ value, Takes parameter value) :
    ∃ values, List.Forall₂ Takes parameters values := by
  induction parameters with
  | nil => exact ⟨[], .nil⟩
  | cons parameter parameters ih =>
    rw [List.forall_mem_cons] at h
    obtain ⟨value, hvalue⟩ := h.1
    obtain ⟨values, hvalues⟩ := ih h.2
    exact ⟨value :: values, .cons hvalue hvalues⟩

/-- The values by their declared names. -/
def declaredKeywords (parameters : List ScalarParameter) (values : List Value) :
    List (String × Object) :=
  (parameters.zip values).map fun pair => (pair.1.name, .value pair.2)

/-- All values may be given by keyword. -/
theorem spelled_declaredKeywords {table : CaseTable} (h : List.Forall₂ Takes parameters values) :
    Spelled table parameters (values.map .value) (declaredKeywords parameters values) := by
  induction h with
  | nil => exact .nil []
  | cons _ _ ih => exact .declared ih

/-- The keywords have the declared names. -/
theorem map_fst_declaredKeywords (h : List.Forall₂ Takes parameters values) :
    (declaredKeywords parameters values).map Prod.fst = parameters.map ScalarParameter.name := by
  induction h with
  | nil => rfl
  | cons _ _ ih => exact congrArg (_ :: ·) ih

end

/-- Keywords with distinct names are those of a dictionary. -/
theorem exists_isDict {keywords : List (String × Object)} (h : (keywords.map Prod.fst).Nodup) :
    ∃ kwargs, IsDict kwargs keywords := by
  let entries : List ((_ : String) × Object) := keywords.map fun pair => ⟨pair.1, pair.2⟩
  have hkeys : entries.NodupKeys := by
    show (List.map Sigma.fst (keywords.map _)).Nodup
    rw [List.map_map]
    exact h
  refine ⟨⟨entries, hkeys⟩, h, ?_⟩
  intro key object
  have hlookup := AList.mem_lookup_iff (a := key) (b := object) (s := (⟨entries, hkeys⟩ : Keywords))
  refine hlookup.trans ?_
  rw [List.mem_map]
  constructor
  · intro ⟨pair, hpair, heq⟩
    cases heq
    exact hpair
  · intro hmem
    exact ⟨(key, object), hmem, rfl⟩

/-- When two parameters have one Python name, a call that spells the later one so is refused. -/
theorem CallStylesAgree.pythonNamesDistinct {operation : OperationMetadata}
    (hnames : (operation.scalarParameters.map ScalarParameter.name).Nodup)
    (htakes : ∀ parameter ∈ operation.scalarParameters, ∃ value, Takes parameter value)
    (h : CallStylesAgree .ascii operation) :
    PythonNamesDistinct operation.scalarParameters := by
  by_contra hnot
  obtain ⟨before, last, after, hsplit, ⟨first, hfirst, hname⟩, hafter⟩ :=
    exists_last_of_not_distinct hnot
  rw [hsplit] at hnames htakes
  obtain ⟨front, hfront⟩ := exists_forall₂_takes fun parameter hmem =>
    htakes parameter (List.mem_append_left _ hmem)
  obtain ⟨value, hvalue⟩ := htakes last (List.mem_append_right _ List.mem_cons_self)
  obtain ⟨back, hback⟩ := exists_forall₂_takes fun parameter hmem =>
    htakes parameter (List.mem_append_right _ (List.mem_cons_of_mem _ hmem))
  have hall : List.Forall₂ Takes (before ++ last :: after) (front ++ value :: back) :=
    List.rel_append hfront (.cons hvalue hback)
  obtain ⟨results, hloop⟩ : ∃ results, bindScalarsLoop .ascii (before ++ last :: after)
      ((front ++ value :: back).map .value) ∅ = .ok (results, ∅) :=
    exists_bindScalarsLoop_of_takes hall
  have hpositional : bindScalars .ascii operation ((front ++ value :: back).map .value) ∅ =
      .ok results := by
    rw [bindScalars_ok_iff, othersOf_map_value, hsplit]
    refine ⟨?_, hloop⟩
    rw [List.length_map, hall.length_eq]
  -- The values in front by position, the next one by its Python name, the others by theirs.
  let keywords := (pythonName last.name, Object.value value) :: declaredKeywords after back
  have hnodup : (keywords.map Prod.fst).Nodup := by
    rw [List.map_cons, map_fst_declaredKeywords hback, List.nodup_cons]
    constructor
    · intro hmem
      obtain ⟨other, hother, heq⟩ := List.mem_map.mp hmem
      apply hafter other hother
      rw [heq]
      exact pythonName_pythonName last.name
    · rw [List.map_append, List.nodup_append] at hnames
      exact (List.nodup_cons.mp hnames.2.1).2
  obtain ⟨kwargs, hdict⟩ := exists_isDict hnodup
  have hdrop : ((front ++ value :: back).map Object.value).drop before.length =
      .value value :: back.map .value := by
    rw [hfront.length_eq, List.map_append, List.drop_left' (by rw [List.length_map])]
    rfl
  have hspelled : Spelled .ascii (operation.scalarParameters.drop before.length)
      (((front ++ value :: back).map Object.value).drop before.length) keywords := by
    rw [hsplit, List.drop_left, hdrop]
    exact .python (spelled_declaredKeywords hback)
  obtain ⟨index, hindex, hget⟩ := List.getElem_of_mem hfirst
  have hparameter : operation.scalarParameters[index]? = some first := by
    rw [hsplit, List.getElem?_append_left hindex, List.getElem?_eq_getElem hindex, hget]
  have hargs : othersOf (((front ++ value :: back).map Object.value).take before.length) =
      ((front ++ value :: back).map Object.value).take before.length := by
    rw [← List.map_take, othersOf_map_value]
  obtain ⟨results', hbind, -, -⟩ := h.styles _
    (((front ++ value :: back).map Object.value).take before.length) before.length keywords kwargs
    results hpositional (by rw [hargs, othersOf_map_value])
    (by rw [othersOf_map_value]; exact hspelled) hdict
  refine h.twice _ kwargs results' index first hparameter ?_ ?_ hbind
  · rw [hargs, List.length_take, List.length_map, List.length_append, hfront.length_eq.symm]
    omega
  · right
    have hmem : pythonName last.name ∈ kwargs := by
      rw [← AList.lookup_isSome, hdict.lookup_head]
      rfl
    rw [← hname] at hmem
    exact hmem

/-- When the Python names are distinct, every way to write a call is as good as another. -/
theorem callStylesAgree_of_distinct {operation : OperationMetadata}
    (hdefaults : ∀ parameter ∈ operation.scalarParameters, DefaultCoerces parameter)
    (hdistinct : PythonNamesDistinct operation.scalarParameters) :
    CallStylesAgree .ascii operation where
  styles := by
    intro positional args count keywords kwargs results hpositional hargs hspelled hdict
    obtain ⟨hlength, hloop⟩ := bindScalars_ok_iff.mp hpositional
    obtain ⟨results', hloop', hsame, hequal⟩ :=
      bindScalarsLoop_styles hspelled hdistinct hdefaults hdict hloop
    refine ⟨results', ?_, hsame, hequal⟩
    rw [bindScalars_ok_iff, hargs]
    exact ⟨(List.length_take_le' _ _).trans hlength, hloop'⟩
  twice := by
    intro args kwargs results index parameter hparameter hindex hmem hbind
    obtain ⟨hname, hpython⟩ :=
      notMem_of_bindScalarsLoop (bindScalars_ok_iff.mp hbind).2 hparameter hindex
    exact hmem.elim hname hpython
  twice_keyword := by
    intro args kwargs results parameter hmem hne hname hpython hbind
    exact ne_empty_of_both_names hdistinct (bindScalars_ok_iff.mp hbind).2 hmem hne hname hpython
      rfl
  unknown := by
    intro args kwargs results key hkey hunknown hbind
    have hkeep := lookup_eq_of_bindScalarsLoop (bindScalars_ok_iff.mp hbind).2 hunknown
    rw [AList.lookup_empty, eq_comm, AList.lookup_eq_none] at hkeep
    exact hkeep hkey
  idempotent := by
    intro args kwargs results hbind
    have hloop := (bindScalars_ok_iff.mp hbind).2
    rw [bindScalars_ok_iff, othersOf_map_value]
    refine ⟨?_, bindScalarsLoop_results hloop⟩
    rw [List.length_map, length_of_bindScalarsLoop hloop]

/-- **One call, many spellings.** For an operation that the compiler accepts, the ways to write the
scalars of a call agree if and only if the Python names of its scalars are distinct. -/
theorem callStylesAgree_iff (floats : Json.FloatText) (data : Document.Members)
    (plugin : Compiler.Plugin) (operation : Compiler.Operation)
    (h : Compiler.loadInterface floats data = .ok plugin) (hmem : operation ∈ plugin.operations) :
    CallStylesAgree .ascii (operationMetadata operation).toOperationMetadata ↔
      (operation.scalars.map fun scalar => pythonName scalar.name.name).Nodup := by
  have hvalid := (Compiler.pluginValid_of_loadInterface h).operations_valid operation hmem
  have hnames : ((operation.scalars.map scalarMetadata).map ScalarParameter.name).Nodup := by
    have hparameters := (List.nodup_append.mp hvalid.parameters_nodup).2.1
    have hmap := hparameters.map Compiler.Identifier.name_injective
    rw [List.map_map] at hmap ⊢
    exact hmap
  have hdistinct : PythonNamesDistinct (operation.scalars.map scalarMetadata) ↔
      (operation.scalars.map fun scalar => pythonName scalar.name.name).Nodup := by
    rw [PythonNamesDistinct, List.map_map]
    rfl
  rw [← hdistinct]
  constructor
  · intro hagree
    apply hagree.pythonNamesDistinct hnames
    intro parameter hparameter
    obtain ⟨scalar, -, rfl⟩ := List.mem_map.mp hparameter
    exact exists_takes_scalarMetadata scalar
  · intro hnodup
    apply callStylesAgree_of_distinct _ hnodup
    intro parameter hparameter
    obtain ⟨scalar, -, rfl⟩ := List.mem_map.mp hparameter
    exact defaultCoerces_scalarMetadata scalar

/-- The source of an operation with the scalars `aB` and `a_b`. -/
def mixSource : Document :=
  .object [("id", .int 1), ("name", .string "mix"),
    ("inputs", .arr [.object [("name", .string "x")]]),
    ("scalars", .arr [.object [("name", .string "aB"), ("kind", .string "int64")],
      .object [("name", .string "a_b"), ("kind", .string "int64")]]),
    ("outputs", .arr [.object [("name", .string "y"), ("same_shape_as_input", .int 0),
      ("dtype", .object [("input", .int 0)])]])]

/-- The operation of `mixSource`. -/
def mixOperation : Compiler.Operation where
  operationId := 1
  name := ⟨"mix", by decide⟩
  internal := false
  inputs := [⟨⟨"x", Compiler.isIdentifier_x⟩, .readOnly, .any⟩]
  outputs := [⟨⟨"y", Compiler.isIdentifier_y⟩, some ⟨.sameShapeAsInput 0, .input 0⟩⟩]
  scalars := [⟨⟨"aB", by decide⟩, .int64 none⟩, ⟨⟨"a_b", by decide⟩, .int64 none⟩]
  vjp := none
  dtypeVariables := []

/-- `mix(x, 1, 2)` is accepted, and `mix(x, 1, a_b=2)` is not. -/
theorem mix_refuses_keyword :
    Compiler.loadInterface .ofBits (Compiler.smallInterface [mixSource]) =
      .ok (Compiler.smallPlugin [mixOperation]) ∧
    ¬ CallStylesAgree .ascii (operationMetadata mixOperation).toOperationMetadata := by
  refine ⟨rfl, ?_⟩
  intro h
  have hspelled : Spelled .ascii ((operationMetadata mixOperation).scalarParameters.drop 1)
      [.value (.int 2)] [("a_b", .value (.int 2))] := .python (.nil [])
  have hnodup : ([("a_b", Object.value (.int 2))].map Prod.fst).Nodup := List.nodup_singleton _
  obtain ⟨kwargs, hdict⟩ := exists_isDict hnodup
  obtain ⟨results, hbind, -, -⟩ := h.styles [.value (.int 1), .value (.int 2)] [.value (.int 1)] 1
    [("a_b", .value (.int 2))] kwargs [.int 1, .int 2] rfl rfl hspelled hdict
  refine h.twice [.value (.int 1)] kwargs results 0 (scalarMetadata ⟨⟨"aB", by decide⟩, .int64 none⟩)
    rfl (by decide) (Or.inr ?_) hbind
  rw [← AList.lookup_isSome]
  have hlookup := hdict.lookup_head
  show (kwargs.lookup "a_b").isSome = true
  rw [hlookup]
  rfl

/-- The operation that scales a tensor. -/
theorem callStylesAgree_scale :
    CallStylesAgree .ascii (operationMetadata Manifest.scaleOperation).toOperationMetadata :=
  (callStylesAgree_iff .ofBits (Compiler.smallInterface [Manifest.scaleSource])
    (Compiler.smallPlugin [Manifest.scaleOperation]) Manifest.scaleOperation rfl
    List.mem_cons_self).mpr (by decide)

end Wmfs.Invocation
