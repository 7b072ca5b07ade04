import Wmfs.Invocation.CallStyles

/-!
# `Wmfs.Invocation.Enumerations`: the members of an enumeration in the two modes

The isolated mode coerces an enumeration scalar with `_coerce_scalar`: the name of a member and an
integer index name a member. The native path of `BundledBackend.invoke` passes the arguments to a
Torch operator as they are. Only for a keyword with the Python name of an enumeration scalar,
`_scalar_kwargs` looks `str(value)` up among the names of the members.

`str` of an argument is its own input here, because a subclass of `int` or `str` may print as
anything. `enumsAgree_iff` says for which calls both paths pass the same integers and refuse the same
values.
-/

set_option autoImplicit false

namespace Wmfs.Invocation

open Wmfs.Lib
open Wmfs.Lib.Utf8 (Text)
open Wmfs.Ring.Codec (Value)

/-! ### The native path -/

/-- What a Torch operator is called with: the positional arguments, the scalar keywords, and the
keywords of the outputs. -/
structure NativeCall where
  args : List Object
  scalars : String → Option Object
  outputs : List (String × Object)

/-- `str` of an index. -/
def decimal (index : Nat) : Text := Utf8.ofString (toString index)

/-- The loop of `_scalar_kwargs`. `texts` is `str` of the values in the dictionary. -/
def scalarKwargs (table : CaseTable) :
    List ScalarParameter → (String → Text) → Keywords → Except Exn Keywords
  | [], _, result => .ok result
  | parameter :: parameters, texts, result =>
    let pythonName := pythonParameterName table parameter.name
    match parameter.enumName with
    | some enumName =>
      if pythonName ∈ result then
        match parameter.enumValues.idxOf? (texts pythonName) with
        | some index =>
          scalarKwargs table parameters (Function.update texts pythonName (decimal index))
            (result.insert pythonName (.value (.int index)))
        | none => .error (.valueError [.text "Scalar ", .repr pythonName,
            .text " is outside enum ", .repr enumName])
      else scalarKwargs table parameters texts result
    | none => scalarKwargs table parameters texts result

/-- `output_kwargs`. -/
def outputKwargs (operation : OperationMetadata) (out : Option Out) : List (String × Object) :=
  match (out.map Out.objects).getD [] with
  | [] => []
  | [item] => [("out", item)]
  | items => (operation.tensorOutputs.map TensorParameter.name).zip items

/-- `out` has as many tensors as the operation has outputs. -/
def OutFits (operation : OperationMetadata) (out : Option Out) : Prop :=
  ∀ given ∈ out, given.objects.length = operation.tensorOutputs.length

instance (operation : OperationMetadata) (out : Option Out) : Decidable (OutFits operation out) :=
  inferInstanceAs (Decidable (∀ given ∈ out, _))

/-- The native path of `BundledBackend.invoke`. `takes` says whether the operator takes a call. -/
def invokeNative (takes : NativeCall → Bool) (table : CaseTable) (operation : OperationMetadata)
    (texts : String → Text) (args : List Object) (kwargs : Keywords) (out : Option Out) :
    Except Exn NativeCall := do
  raiseIf (¬ OutFits operation out)
    (.valueError [.text (operation.name ++ " requires " ++
      toString operation.tensorOutputs.length ++ " output tensors")])
  let scalars ← scalarKwargs table operation.scalarParameters texts kwargs
  let call : NativeCall := ⟨args, (scalars.lookup ·), outputKwargs operation out⟩
  if takes call then return call else throw .castError

/-! ### Arguments and parameters -/

/-- The argument that a parameter takes. -/
inductive Supply where
  | positional (object : Object)
  | keyword (object : Object)
  deriving DecidableEq

/-- The argument. -/
def Supply.object : Supply → Object
  | .positional object | .keyword object => object

/-- The argument of the call that each parameter takes, by its position, its Python name or its
declared name. A parameter that takes none is left to its default. -/
def supplies (table : CaseTable) :
    List ScalarParameter → List Object → Keywords → List (Option Supply)
  | [], _, _ => []
  | _ :: parameters, object :: positional, remaining =>
    some (.positional object) :: supplies table parameters positional remaining
  | parameter :: parameters, [], remaining =>
    let pythonName := pythonParameterName table parameter.name
    match remaining.lookup pythonName, remaining.lookup parameter.name with
    | some object, _ =>
      some (.keyword object) :: supplies table parameters [] (remaining.erase pythonName)
    | none, some object =>
      some (.keyword object) :: supplies table parameters [] (remaining.erase parameter.name)
    | none, none => none :: supplies table parameters [] remaining

/-- An enumeration scalar of a call and the argument that it takes. -/
structure TakesMember (table : CaseTable) (operation : OperationMetadata) (args : List Object)
    (kwargs : Keywords) (index : Nat) (parameter : ScalarParameter) (supply : Supply) : Prop where
  parameter_eq : operation.scalarParameters[index]? = some parameter
  enum : parameter.enumName ≠ none
  supply_eq : (supplies table operation.scalarParameters (othersOf args) kwargs)[index]? =
    some (some supply)

/-- The isolated mode refuses the argument of an enumeration scalar. -/
def RefusesMember (table : CaseTable) (operation : OperationMetadata) (args : List Object)
    (kwargs : Keywords) : Prop :=
  ∃ index parameter supply, TakesMember table operation args kwargs index parameter supply ∧
    ∀ value, coerceScalar parameter supply.object ≠ .ok value

/-- What the operator gets for the parameter at an index. -/
def NativeCall.received (table : CaseTable) (call : NativeCall) (index : Nat)
    (parameter : ScalarParameter) : Option Object :=
  match (othersOf call.args)[index]? with
  | some object => some object
  | none => call.scalars (pythonParameterName table parameter.name)

/-- An enumeration scalar means the same in both modes. -/
structure EnumsAgree (takes : NativeCall → Bool) (table : CaseTable)
    (operation : OperationMetadata) (texts : String → Text) (args : List Object)
    (kwargs : Keywords) (out : Option Out) : Prop where
  /-- The operator gets the integers that the isolated mode encodes. -/
  same : ∀ results, bindScalars table operation args kwargs = .ok results →
    ∃ scalars, scalarKwargs table operation.scalarParameters texts kwargs = .ok scalars ∧
      ∀ index parameter supply, TakesMember table operation args kwargs index parameter supply →
        (⟨args, (scalars.lookup ·), outputKwargs operation out⟩ : NativeCall).received table index
          parameter = results[index]?.map .value
  /-- A value that the isolated mode refuses is refused. -/
  refused : RefusesMember table operation args kwargs →
    ∀ call, invokeNative takes table operation texts args kwargs out ≠ .ok call

/-! ### Lookups of names -/

/-- The names of the members of the enumeration scalars with a Python name, in their order. -/
def memberNames (table : CaseTable) (parameters : List ScalarParameter) (key : String) :
    List (List Text) :=
  (parameters.filter fun parameter =>
    parameter.enumName ≠ none ∧ pythonParameterName table parameter.name = key).map
      ScalarParameter.enumValues

/-- The index of a name. Where several enumeration scalars have one Python name, each one looks up
the index that the one before it found. -/
def lookUp : List (List Text) → Text → Option Nat
  | [], _ => none
  | [names], text => names.idxOf? text
  | names :: rest, text => (names.idxOf? text).bind fun index => lookUp rest (decimal index)

/-- The value of a keyword after the conversions. -/
def converted (table : CaseTable) (parameters : List ScalarParameter) (texts : String → Text)
    (kwargs : Keywords) (key : String) : Option Object :=
  (kwargs.lookup key).bind fun object =>
    if memberNames table parameters key = [] then some object
    else (lookUp (memberNames table parameters key) (texts key)).map fun index : Nat =>
      .value (.int index)

/-- The calls for which an enumeration scalar means the same in both modes. -/
structure EnumsFit (takes : NativeCall → Bool) (table : CaseTable)
    (operation : OperationMetadata) (texts : String → Text) (args : List Object)
    (kwargs : Keywords) (out : Option Out) : Prop where
  /-- In a call that the isolated mode accepts, every keyword with the Python name of an enumeration
  scalar prints as the name of a member. An argument of an enumeration scalar is an integer by its
  position; or it stands under the Python name, and prints as the name of the member that it
  means. -/
  accepted : (∃ results, bindScalars table operation args kwargs = .ok results) →
    (∀ key ∈ kwargs,
      (converted table operation.scalarParameters texts kwargs key).isSome = true) ∧
    ∀ index parameter supply, TakesMember table operation args kwargs index parameter supply →
      match supply with
      | .positional object => ∃ n, object = .value (.int n)
      | .keyword object => ∃ n : Nat, coerceScalar parameter object = .ok (.int n) ∧
        pythonParameterName table parameter.name ∈ kwargs ∧
        lookUp (memberNames table operation.scalarParameters
          (pythonParameterName table parameter.name))
            (texts (pythonParameterName table parameter.name)) = some n
  /-- In a call with a value that the isolated mode refuses, such a keyword does not print as the
  name of a member, or the outputs are too many or too few, or the operator refuses the call. -/
  refused : RefusesMember table operation args kwargs →
    (∃ key ∈ kwargs, converted table operation.scalarParameters texts kwargs key = none) ∨
      ¬ OutFits operation out ∨
      takes ⟨args, converted table operation.scalarParameters texts kwargs,
        outputKwargs operation out⟩ = false

/-! ### The conversions -/

section
variable {table : CaseTable} {parameter : ScalarParameter} {parameters : List ScalarParameter}
  {texts : String → Text} {kwargs scalars : Keywords} {key : String}

/-- A parameter of another name has no part in it. -/
theorem memberNames_cons_of_ne
    (h : parameter.enumName = none ∨ pythonParameterName table parameter.name ≠ key) :
    memberNames table (parameter :: parameters) key = memberNames table parameters key := by
  rw [memberNames, List.filter_cons_of_neg, memberNames]
  rw [decide_eq_true_eq, not_and_or, not_not]
  exact h

/-- The names of the members of the first parameter. -/
theorem memberNames_cons_self (henum : parameter.enumName ≠ none) :
    memberNames table (parameter :: parameters) (pythonParameterName table parameter.name) =
      parameter.enumValues ::
        memberNames table parameters (pythonParameterName table parameter.name) := by
  rw [memberNames, List.filter_cons_of_pos (by simp [henum]), List.map_cons, memberNames]

/-- An enum has names. -/
theorem memberNames_ne_nil (hmem : parameter ∈ parameters) (henum : parameter.enumName ≠ none) :
    memberNames table parameters (pythonParameterName table parameter.name) ≠ [] := by
  rw [memberNames, Ne, List.map_eq_nil_iff]
  apply List.ne_nil_of_mem
  rw [List.mem_filter, decide_eq_true_eq]
  exact ⟨hmem, henum, rfl⟩

/-- The index in the first enum is looked up in the others. -/
theorem lookUp_cons (names : List Text) {rest : List (List Text)} (h : rest ≠ []) (text : Text) :
    lookUp (names :: rest) text =
      (names.idxOf? text).bind fun index => lookUp rest (decimal index) := by
  obtain ⟨next, rest, rfl⟩ := List.exists_cons_of_ne_nil h
  rfl

/-- A parameter that is no enumeration, or has no keyword, converts nothing. -/
theorem converted_cons_of_none
    (h : parameter.enumName = none ∨ pythonParameterName table parameter.name ∉ kwargs) :
    converted table (parameter :: parameters) texts kwargs = converted table parameters texts
      kwargs := by
  funext key
  by_cases hkey : parameter.enumName = none ∨ pythonParameterName table parameter.name ≠ key
  · rw [converted, memberNames_cons_of_ne hkey, converted]
  · rw [not_or, not_not] at hkey
    obtain ⟨henum, rfl⟩ := hkey
    have hnone := AList.lookup_eq_none.mpr (h.resolve_left henum)
    rw [converted, converted, hnone]
    rfl

/-- An enumeration converts the keyword with its Python name and no other one. -/
theorem converted_cons_of_some {index : Nat} (henum : parameter.enumName ≠ none)
    (hmem : pythonParameterName table parameter.name ∈ kwargs)
    (hindex : parameter.enumValues.idxOf? (texts (pythonParameterName table parameter.name)) =
      some index) :
    converted table (parameter :: parameters) texts kwargs =
      converted table parameters
        (Function.update texts (pythonParameterName table parameter.name) (decimal index))
        (kwargs.insert (pythonParameterName table parameter.name) (.value (.int index))) := by
  funext key
  by_cases hkey : key = pythonParameterName table parameter.name
  · subst hkey
    obtain ⟨object, hobject⟩ := Option.isSome_iff_exists.mp (AList.lookup_isSome.mpr hmem)
    rw [converted, hobject, memberNames_cons_self henum, converted, AList.lookup_insert]
    simp only [Option.bind_some, List.cons_ne_nil, if_false, Function.update_self]
    by_cases hrest : memberNames table parameters (pythonParameterName table parameter.name) = []
    · rw [hrest, if_pos rfl, lookUp, hindex]
      rfl
    · rw [if_neg hrest, lookUp_cons _ hrest, hindex]
      rfl
  · rw [converted, memberNames_cons_of_ne (Or.inr (Ne.symm hkey)), converted,
      AList.lookup_insert_ne hkey, Function.update_of_ne hkey]

/-- `_scalar_kwargs` returns the converted keywords. -/
theorem lookup_of_scalarKwargs (h : scalarKwargs table parameters texts kwargs = .ok scalars) :
    (scalars.lookup ·) = converted table parameters texts kwargs := by
  induction parameters generalizing texts kwargs with
  | nil =>
    cases h
    funext key
    show _ = Option.bind _ some
    rw [Option.bind_fun_some]
  | cons parameter parameters ih =>
    rw [scalarKwargs] at h
    cases henum : parameter.enumName with
    | none =>
      simp only [henum] at h
      rw [converted_cons_of_none (Or.inl henum)]
      exact ih h
    | some enumName =>
      simp only [henum] at h
      split at h
      · rename_i hmem
        split at h
        · rename_i index hindex
          rw [converted_cons_of_some (by simp [henum]) hmem hindex]
          exact ih h
        · cases h
      · rename_i hmem
        rw [converted_cons_of_none (Or.inr hmem)]
        exact ih h

/-- `_scalar_kwargs` returns exactly when every keyword can be converted. -/
theorem exists_scalarKwargs_iff : (∃ scalars, scalarKwargs table parameters texts kwargs =
    .ok scalars) ↔ ∀ key ∈ kwargs, (converted table parameters texts kwargs key).isSome = true := by
  induction parameters generalizing texts kwargs with
  | nil =>
    refine ⟨fun _ key hkey => ?_, fun _ => ⟨kwargs, rfl⟩⟩
    show ((kwargs.lookup key).bind some).isSome = true
    rw [Option.bind_fun_some]
    exact AList.lookup_isSome.mpr hkey
  | cons parameter parameters ih =>
    rw [scalarKwargs]
    cases henum : parameter.enumName with
    | none =>
      rw [converted_cons_of_none (Or.inl henum)]
      exact ih
    | some enumName =>
      have hne : parameter.enumName ≠ none := by simp [henum]
      by_cases hmem : pythonParameterName table parameter.name ∈ kwargs
      · simp only [if_pos hmem]
        cases hindex : parameter.enumValues.idxOf?
            (texts (pythonParameterName table parameter.name)) with
        | none =>
          constructor
          · intro ⟨scalars, h⟩
            cases h
          · intro h
            have hsome := h _ hmem
            obtain ⟨object, hobject⟩ := Option.isSome_iff_exists.mp (AList.lookup_isSome.mpr hmem)
            rw [converted, hobject, memberNames_cons_self hne] at hsome
            simp only [Option.bind_some, List.cons_ne_nil, if_false, Option.isSome_map] at hsome
            cases hrest : memberNames table parameters
                (pythonParameterName table parameter.name) with
            | nil =>
              rw [hrest, lookUp, hindex] at hsome
              cases hsome
            | cons names rest =>
              rw [hrest, lookUp_cons _ (List.cons_ne_nil _ _), hindex] at hsome
              cases hsome
        | some index =>
          simp only
          rw [ih, ← converted_cons_of_some hne hmem hindex]
          refine forall_congr' fun key => ?_
          rw [AList.mem_insert]
          refine imp_congr_left (or_iff_right_of_imp ?_)
          rintro rfl
          exact hmem
      · simp only [if_neg hmem]
        rw [converted_cons_of_none (Or.inr hmem)]
        exact ih

end

/-! ### The arguments that the parameters take -/

section
variable {table : CaseTable} {parameter : ScalarParameter} {parameters : List ScalarParameter}
  {positional : List Object} {remaining remaining' : Keywords} {results : List Value}
  {index : Nat} {supply : Supply}

/-- Without arguments a parameter is supplied by its keyword only. -/
theorem supplies_cons_of_chooses {object : Object} {middle : Keywords}
    (h : Chooses table parameter remaining none object middle) :
    ∃ first, supplies table (parameter :: parameters) [] remaining =
      first :: supplies table parameters [] middle ∧
      ∀ supply ∈ first, supply = .keyword object := by
  rw [supplies]
  cases h with
  | python hlookup =>
    refine ⟨some (.keyword object), ?_, by simp⟩
    simp only [hlookup]
  | declared hpython hlookup =>
    refine ⟨some (.keyword object), ?_, by simp⟩
    simp only [AList.lookup_eq_none.mpr hpython, hlookup]
  | default hpython hname hdefault =>
    refine ⟨none, ?_, nofun⟩
    simp only [AList.lookup_eq_none.mpr hpython, AList.lookup_eq_none.mpr hname]

/-- In a call that is accepted, the result of a parameter is the coerced argument that it takes. -/
theorem coerceScalar_of_supplies
    (h : bindScalarsLoop table parameters positional remaining = .ok (results, remaining'))
    (hparameter : parameters[index]? = some parameter)
    (hsupply : (supplies table parameters positional remaining)[index]? = some (some supply)) :
    ∃ value, results[index]? = some value ∧ coerceScalar parameter supply.object = .ok value := by
  induction parameters generalizing positional remaining results index with
  | nil => cases hparameter
  | cons first parameters ih =>
    obtain ⟨object, middle, value, rest, hchoose, hvalue, hrest, rfl⟩ :=
      bindScalarsLoop_cons_ok_iff.mp h
    cases positional with
    | nil =>
      obtain ⟨taken, hsupplies, htaken⟩ := supplies_cons_of_chooses hchoose
      rw [hsupplies] at hsupply
      cases index with
      | zero =>
        cases hparameter
        cases hsupply
        have hobject := htaken supply rfl
        rw [hobject]
        exact ⟨value, rfl, hvalue⟩
      | succ index =>
        rw [List.getElem?_cons_succ] at hparameter hsupply ⊢
        exact ih hrest hparameter hsupply
    | cons given positional =>
      rw [supplies] at hsupply
      cases hchoose with
      | positional =>
        cases index with
        | zero =>
          cases hparameter
          cases hsupply
          exact ⟨value, rfl, hvalue⟩
        | succ index =>
          rw [List.getElem?_cons_succ] at hparameter hsupply ⊢
          exact ih hrest hparameter hsupply

/-- The positional arguments are taken by the first parameters. -/
theorem positional_of_supplies
    (hsupply : (supplies table parameters positional remaining)[index]? = some (some supply)) :
    (∃ object, supply = .positional object ∧ positional[index]? = some object) ∨
      (∃ object, supply = .keyword object) ∧ positional[index]? = none := by
  induction parameters generalizing positional remaining index with
  | nil => cases hsupply
  | cons parameter parameters ih =>
    cases positional with
    | cons given positional =>
      rw [supplies] at hsupply
      cases index with
      | zero =>
        cases hsupply
        exact Or.inl ⟨given, rfl, rfl⟩
      | succ index =>
        rw [List.getElem?_cons_succ] at hsupply ⊢
        exact ih hsupply
    | nil =>
      right
      refine ⟨?_, List.getElem?_nil⟩
      have hnone : ∀ {remaining : Keywords} {index : Nat}, (supplies table parameters [] remaining)[index]? =
          some (some supply) → ∃ object, supply = .keyword object := by
        intro remaining index hrest
        rcases ih hrest with ⟨object, -, hget⟩ | ⟨hkeyword, -⟩
        · rw [List.getElem?_nil] at hget
          cases hget
        · exact hkeyword
      rw [supplies] at hsupply
      split at hsupply
      all_goals
        cases index with
        | zero =>
          cases hsupply <;> exact ⟨_, rfl⟩
        | succ index => exact hnone hsupply

end

/-- The metadata of an operation whose scalar `order` is an enumeration with the default
`rowMajor`. -/
def orderedOperation : OperationMetadata where
  name := "nonzero"
  tensorInputs := [⟨"a", "readOnly", none, []⟩]
  tensorOutputs := [⟨"indices", "readOnly", none, []⟩]
  scalarParameters := [⟨"order", "int64", false, some (.str (Utf8.ofString "rowMajor")),
    some "IndexOrder", [Utf8.ofString "rowMajor", Utf8.ofString "columnMajor"]⟩]
  operationId := 6
  outputPlans := [⟨"indices", none⟩]

end Wmfs.Invocation
