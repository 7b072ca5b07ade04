import Wmfs.Compiler.Accepted
import Wmfs.Invocation.Binding
import Wmfs.Lib.Keys
import Wmfs.Manifest.Translation

/-!
# `Wmfs.Dtypes.Acceptance`: which dtypes a call may have

A binding gives each dtype variable of an operation a dtype. It fits a tensor of a dtype when the
dtype is one that the tensor may have, and is the dtype of its variable if it has one. A call is
accepted when one binding fits all its tensors.

`validateTensorDtypes_ok_iff` says that `_validate_tensor_dtypes` of the runtime computes this. The
loop of the source collects the binding as it goes: the proof is by induction on the tensors, for
every binding that agrees with what has been collected.
-/

set_option autoImplicit false

namespace Wmfs.Dtypes

open Wmfs.Lib
open Wmfs.Compiler (Operation TensorParameter Identifier DTypeVariable SUPPORTED_DTYPES
  OperationValid)
open Wmfs.Invocation (Tensor validateTensorDtypes validateTensorDtypesLoop)
open Wmfs.Manifest (operationMetadata tensorMetadata dtypeVariableMetadata)

/-! ### Bindings -/

/-- The declaration of a variable. -/
def declarationOf (operation : Operation) (name : Identifier) : Option DTypeVariable :=
  operation.dtypeVariables.find? fun declared => declared.name = name

/-- The dtypes that a tensor of an operation may have. -/
def allowed (operation : Operation) (tensor : TensorParameter) : List String :=
  match tensor.constraint with
  | .any => SUPPORTED_DTYPES
  | .oneOf dtypes => dtypes.names
  | .variable name =>
    match declarationOf operation name with
    | some declared => declared.dtypes.names
    | none => []

/-- The runtime permits a tensor of a dtype under a binding. A tensor without a constraint may have
any dtype there. -/
structure Permits (operation : Operation) (binding : Identifier → String)
    (tensor : TensorParameter) (dtype : String) : Prop where
  mem_allowed : tensor.constraint ≠ .any → dtype ∈ allowed operation tensor
  eq_binding : ∀ name ∈ tensor.dtypeVariable, binding name = dtype

/-- A binding fits a tensor of a dtype. -/
structure Fits (operation : Operation) (binding : Identifier → String) (tensor : TensorParameter)
    (dtype : String) : Prop where
  mem_allowed : dtype ∈ allowed operation tensor
  eq_binding : ∀ name ∈ tensor.dtypeVariable, binding name = dtype

/-- One binding fits all inputs of an operation. -/
def Accepts (operation : Operation) (dtypes : List String) : Prop :=
  ∃ binding, List.Forall₂ (Fits operation binding) operation.inputs dtypes

/-! ### Declarations -/

/-- A variable of a valid operation has one declaration. -/
theorem declarationOf_eq_some_iff {operations : List Operation} {operation : Operation}
    (h : OperationValid operations operation) {name : Identifier} {declared : DTypeVariable} :
    declarationOf operation name = some declared ↔
      declared ∈ operation.dtypeVariables ∧ declared.name = name :=
  find?_eq_some_iff_of_nodup h.variables_nodup

/-- The variable of an input is declared. -/
theorem exists_declarationOf {operations : List Operation} {operation : Operation}
    (h : OperationValid operations operation) {tensor : TensorParameter}
    (hmem : tensor ∈ operation.inputs) {name : Identifier}
    (hname : tensor.dtypeVariable = some name) :
    ∃ declared, declarationOf operation name = some declared := by
  obtain ⟨declared, hdeclared, heq⟩ := List.mem_map.mp (h.variables_known tensor hmem name hname)
  exact ⟨declared, (declarationOf_eq_some_iff h).mpr ⟨hdeclared, heq⟩⟩

/-- A tensor with a variable is constrained by it. -/
theorem constraint_eq_of_dtypeVariable {tensor : TensorParameter} {name : Identifier}
    (h : tensor.dtypeVariable = some name) : tensor.constraint = .variable name := by
  unfold TensorParameter.dtypeVariable at h
  split at h
  · rename_i hconstraint
    cases h
    exact hconstraint
  all_goals cases h

/-- A tensor with a variable allows the dtypes of the declaration. -/
theorem allowed_of_declarationOf {operation : Operation} {tensor : TensorParameter}
    {name : Identifier} {declared : DTypeVariable} (hname : tensor.dtypeVariable = some name)
    (hdeclared : declarationOf operation name = some declared) :
    allowed operation tensor = declared.dtypes.names := by
  unfold allowed
  rw [constraint_eq_of_dtypeVariable hname]
  show (match declarationOf operation name with
    | some declared => declared.dtypes.names
    | none => []) = _
  rw [hdeclared]

/-- A tensor may have some dtype, and all of them are supported. -/
theorem allowed_ne_nil {operations : List Operation} {operation : Operation}
    (h : OperationValid operations operation) {tensor : TensorParameter}
    (hmem : tensor ∈ operation.inputs) : allowed operation tensor ≠ [] := by
  cases hname : tensor.dtypeVariable with
  | some name =>
    obtain ⟨declared, hdeclared⟩ := exists_declarationOf h hmem hname
    rw [allowed_of_declarationOf hname hdeclared]
    exact declared.dtypes.names_ne_nil
  | none =>
    unfold TensorParameter.dtypeVariable at hname
    unfold allowed
    cases hconstraint : tensor.constraint with
    | any => simp [SUPPORTED_DTYPES]
    | oneOf dtypes => exact dtypes.names_ne_nil
    | «variable» name =>
      rw [hconstraint] at hname
      cases hname

/-- The allowed dtypes are supported. -/
theorem mem_supported_of_mem_allowed {operation : Operation} {tensor : TensorParameter}
    {dtype : String} (h : dtype ∈ allowed operation tensor) : dtype ∈ SUPPORTED_DTYPES := by
  unfold allowed at h
  split at h
  · exact h
  · exact Compiler.DTypes.names_supported _ _ h
  · split at h
    · exact Compiler.DTypes.names_supported _ _ h
    · cases h

/-- A tensor that fits a binding permits the dtype. -/
theorem Fits.permits {operation : Operation} {binding : Identifier → String}
    {tensor : TensorParameter} {dtype : String} (h : Fits operation binding tensor dtype) :
    Permits operation binding tensor dtype :=
  ⟨fun _ => h.mem_allowed, h.eq_binding⟩

/-- On supported dtypes, fitting is what the runtime permits. -/
theorem fits_iff_permits {operation : Operation} {binding : Identifier → String}
    {tensor : TensorParameter} {dtype : String} (hsupported : dtype ∈ SUPPORTED_DTYPES) :
    Fits operation binding tensor dtype ↔ Permits operation binding tensor dtype := by
  constructor
  · exact Fits.permits
  · intro h
    refine ⟨?_, h.eq_binding⟩
    by_cases hany : tensor.constraint = .any
    · unfold allowed
      rw [hany]
      exact hsupported
    · exact h.mem_allowed hany

/-- What is permitted for a tensor that has no variable. -/
theorem permits_plain_iff {operation : Operation} {binding : Identifier → String}
    {tensor : TensorParameter} {dtype : String} (hname : tensor.dtypeVariable = none) :
    Permits operation binding tensor dtype ↔
      ¬ (tensor.dtypes ≠ [] ∧ dtype ∉ tensor.dtypes) := by
  have hbinding : ∀ name ∈ tensor.dtypeVariable, binding name = dtype := by
    intro name hsome
    rw [hname] at hsome
    cases hsome
  have hpermits : Permits operation binding tensor dtype ↔
      (tensor.constraint ≠ .any → dtype ∈ allowed operation tensor) :=
    ⟨Permits.mem_allowed, fun h => ⟨h, hbinding⟩⟩
  rw [hpermits]
  unfold TensorParameter.dtypeVariable at hname
  unfold allowed TensorParameter.dtypes
  cases hconstraint : tensor.constraint with
  | any => exact iff_of_true (fun h => absurd rfl h) fun h => h.1 rfl
  | oneOf dtypes =>
    show (_ → dtype ∈ dtypes.names) ↔ ¬ (dtypes.names ≠ [] ∧ dtype ∉ dtypes.names)
    have hne := dtypes.names_ne_nil
    constructor
    · intro h hbad
      exact hbad.2 (h Compiler.Constraint.noConfusion)
    · intro h _
      exact by_contra fun hmem => h ⟨hne, hmem⟩
  | «variable» name =>
    rw [hconstraint] at hname
    cases hname

/-- What is permitted for a tensor that has a variable. -/
theorem permits_variable_iff {operation : Operation} {binding : Identifier → String}
    {tensor : TensorParameter} {dtype : String} {name : Identifier} {declared : DTypeVariable}
    (hname : tensor.dtypeVariable = some name)
    (hdeclared : declarationOf operation name = some declared) :
    Permits operation binding tensor dtype ↔
      dtype ∈ declared.dtypes.names ∧ binding name = dtype := by
  rw [← allowed_of_declarationOf hname hdeclared]
  have hany : tensor.constraint ≠ .any := by
    rw [constraint_eq_of_dtypeVariable hname]
    exact Compiler.Constraint.noConfusion
  constructor
  · intro h
    exact ⟨h.mem_allowed hany, h.eq_binding name hname⟩
  · intro ⟨hmem, hbinding⟩
    refine ⟨fun _ => hmem, fun other hsome => ?_⟩
    rw [hname] at hsome
    cases hsome
    exact hbinding

/-! ### The loop of the runtime -/

/-- A binding agrees with the dtypes that the loop has collected. -/
def Agrees (bindings : List (String × String)) (binding : Identifier → String) : Prop :=
  ∀ name : Identifier, ∀ dtype ∈ bindings.lookup name.name, binding name = dtype

/-- Every binding agrees with no bindings. -/
theorem agrees_nil (binding : Identifier → String) : Agrees [] binding := by
  intro name dtype h
  cases h

/-- A binding agrees with one pair and the others. -/
theorem agrees_cons_iff {bindings : List (String × String)} {binding : Identifier → String}
    {name : Identifier} {dtype : String} (hnew : bindings.lookup name.name = none) :
    Agrees ((name.name, dtype) :: bindings) binding ↔
      Agrees bindings binding ∧ binding name = dtype := by
  constructor
  · intro h
    refine ⟨fun other found hfound => h other found ?_, h name dtype ?_⟩
    · rw [Document.lookup_cons_ite, if_neg]
      · exact hfound
      · intro heq
        rw [heq, hnew] at hfound
        cases hfound
    · rw [Document.lookup_cons_ite, if_pos rfl]
      rfl
  · intro ⟨hagrees, hbinding⟩ other found hfound
    rw [Document.lookup_cons_ite] at hfound
    split at hfound
    · rename_i heq
      cases hfound
      rw [Compiler.Identifier.name_injective heq]
      exact hbinding
    · exact hagrees other found hfound

/-- The declaration that the runtime finds for a variable. -/
theorem find?_dtypeVariables {operations : List Operation} {operation : Operation}
    (h : OperationValid operations operation) (name : Identifier) :
    ((operationMetadata operation).dtypeVariables.reverse.find? fun item => item.name = name.name) =
      (declarationOf operation name).map dtypeVariableMetadata := by
  have hkey : ((fun item : Invocation.DTypeVariable => decide (item.name = name.name)) ∘
      dtypeVariableMetadata) = fun declared => decide (declared.name = name) := by
    funext declared
    exact decide_eq_decide.mpr Compiler.Identifier.name_injective.eq_iff
  show ((operation.dtypeVariables.map dtypeVariableMetadata).reverse.find? _) = _
  rw [← List.map_reverse, List.find?_map, hkey, find?_reverse_of_nodup h.variables_nodup]
  rfl

/-- The loop accepts the rest of the tensors when one binding fits them and agrees with what it
has collected. -/
theorem validateTensorDtypesLoop_ok_iff {operations : List Operation} {operation : Operation}
    (h : OperationValid operations operation) :
    ∀ (inputs : List TensorParameter) (tensors : List Tensor) (bindings : List (String × String)),
      inputs.length = tensors.length →
      (∀ tensor ∈ inputs, tensor ∈ operation.inputs) →
      (validateTensorDtypesLoop (operationMetadata operation).toOperationMetadata
          ((inputs.map tensorMetadata).zip tensors) bindings = .ok () ↔
        ∃ binding, Agrees bindings binding ∧
          List.Forall₂ (Permits operation binding) inputs (tensors.map Tensor.dtype)) := by
  intro inputs
  induction inputs with
  | nil =>
    intro tensors bindings hlength _
    rw [List.eq_nil_of_length_eq_zero hlength.symm]
    refine iff_of_true rfl ⟨fun name => (bindings.lookup name.name).getD "", ?_, .nil⟩
    intro name dtype hdtype
    show (bindings.lookup name.name).getD "" = dtype
    rw [Option.mem_def.mp hdtype, Option.getD_some]
  | cons input inputs ih =>
    intro tensors bindings hlength hinputs
    match tensors with
    | [] => cases hlength
    | tensor :: tensors =>
      rw [List.forall_mem_cons] at hinputs
      have ih := fun bindings => ih tensors bindings (Nat.succ.inj hlength) hinputs.2
      show validateTensorDtypesLoop _ ((tensorMetadata input, tensor) ::
        (inputs.map tensorMetadata).zip tensors) bindings = .ok () ↔ _
      rw [List.map_cons]
      simp only [List.forall₂_cons]
      cases hname : input.dtypeVariable with
      | none =>
        have hvariable : (tensorMetadata input).dtypeVariable = none :=
          congrArg (Option.map Identifier.name) hname
        rw [validateTensorDtypesLoop, hvariable]
        simp only [Result.check_bind_ok_iff, raiseIf_ok_iff, ih, permits_plain_iff hname]
        constructor
        · rintro ⟨hallowed, binding, hagrees, hrest⟩
          exact ⟨binding, hagrees, hallowed, hrest⟩
        · rintro ⟨binding, hagrees, hallowed, hrest⟩
          exact ⟨hallowed, binding, hagrees, hrest⟩
      | some name =>
        have hvariable : (tensorMetadata input).dtypeVariable = some name.name :=
          congrArg (Option.map Identifier.name) hname
        obtain ⟨declared, hdeclared⟩ := exists_declarationOf h hinputs.1 hname
        have hkey : (dtypeVariableMetadata declared).name = name.name :=
          congrArg Identifier.name ((declarationOf_eq_some_iff h).mp hdeclared).2
        have hfound := find?_dtypeVariables h name
        rw [hdeclared, Option.map_some] at hfound
        rw [validateTensorDtypesLoop, hvariable]
        simp only [hfound]
        rw [hkey, Result.check_bind_ok_iff, raiseIf_ok_iff, not_not]
        simp only [permits_variable_iff hname hdeclared]
        cases hlookup : bindings.lookup name.name with
        | none =>
          simp only [ih, agrees_cons_iff hlookup]
          constructor
          · rintro ⟨hmem, binding, ⟨hagrees, hbinding⟩, hrest⟩
            exact ⟨binding, hagrees, ⟨hmem, hbinding⟩, hrest⟩
          · rintro ⟨binding, hagrees, ⟨hmem, hbinding⟩, hrest⟩
            exact ⟨hmem, binding, ⟨hagrees, hbinding⟩, hrest⟩
        | some previous =>
          simp only [Result.check_bind_ok_iff, raiseIf_ok_iff, ih, ne_eq, not_not]
          constructor
          · rintro ⟨hmem, heq, binding, hagrees, hrest⟩
            exact ⟨binding, hagrees, ⟨hmem, (hagrees name previous hlookup).trans heq⟩, hrest⟩
          · rintro ⟨binding, hagrees, ⟨hmem, hbinding⟩, hrest⟩
            exact ⟨hmem, (hagrees name previous hlookup).symm.trans hbinding, binding, hagrees,
              hrest⟩

/-- The runtime accepts the dtypes of a call when it permits them all under one binding. -/
theorem validateTensorDtypes_iff_permits {operations : List Operation} {operation : Operation}
    (h : OperationValid operations operation) {tensors : List Tensor} :
    validateTensorDtypes (operationMetadata operation).toOperationMetadata tensors = .ok () ↔
      ∃ binding, List.Forall₂ (Permits operation binding) operation.inputs
        (tensors.map Tensor.dtype) := by
  have hinputs : (operationMetadata operation).tensorInputs =
      operation.inputs.map tensorMetadata := rfl
  rw [validateTensorDtypes, hinputs, Result.bind_ok_iff]
  simp only [zipStrict_ok_iff, List.length_map]
  constructor
  · rintro ⟨_, ⟨hlength, rfl⟩, hloop⟩
    obtain ⟨binding, _, hpermits⟩ := (validateTensorDtypesLoop_ok_iff h _ _ [] hlength
      (fun _ hmem => hmem)).mp hloop
    exact ⟨binding, hpermits⟩
  · rintro ⟨binding, hpermits⟩
    have hlength : operation.inputs.length = tensors.length := by
      rw [hpermits.length_eq, List.length_map]
    refine ⟨_, ⟨hlength, rfl⟩, ?_⟩
    exact (validateTensorDtypesLoop_ok_iff h _ _ [] hlength (fun _ hmem => hmem)).mpr
      ⟨binding, agrees_nil binding, hpermits⟩

/-- The inputs fit when each one permits its dtype. -/
theorem forall₂_fits_iff_permits {operation : Operation} {binding : Identifier → String}
    {inputs : List TensorParameter} {dtypes : List String}
    (hsupported : ∀ dtype ∈ dtypes, dtype ∈ SUPPORTED_DTYPES) :
    List.Forall₂ (Fits operation binding) inputs dtypes ↔
      List.Forall₂ (Permits operation binding) inputs dtypes := by
  induction inputs generalizing dtypes with
  | nil => rw [List.forall₂_nil_left_iff, List.forall₂_nil_left_iff]
  | cons input inputs ih =>
    cases dtypes with
    | nil => rw [List.forall₂_nil_right_iff, List.forall₂_nil_right_iff]
    | cons dtype dtypes =>
      rw [List.forall_mem_cons] at hsupported
      rw [List.forall₂_cons, List.forall₂_cons, fits_iff_permits hsupported.1, ih hsupported.2]

/-- The runtime accepts supported dtypes when one binding fits all inputs. -/
theorem validateTensorDtypes_ok_iff {operations : List Operation} {operation : Operation}
    (h : OperationValid operations operation) {tensors : List Tensor}
    (hsupported : ∀ tensor ∈ tensors, tensor.dtype ∈ SUPPORTED_DTYPES) :
    validateTensorDtypes (operationMetadata operation).toOperationMetadata tensors = .ok () ↔
      Accepts operation (tensors.map Tensor.dtype) := by
  rw [validateTensorDtypes_iff_permits h, Accepts]
  refine exists_congr fun binding => (forall₂_fits_iff_permits ?_).symm
  rw [List.forall_mem_map]
  exact hsupported

end Wmfs.Dtypes
