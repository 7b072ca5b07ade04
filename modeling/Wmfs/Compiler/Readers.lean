import Wmfs.Compiler.Accepted
import Wmfs.Lib.Raises

/-!
# `Wmfs.Compiler.Readers`: the readers that raise only `InterfaceError`
-/

set_option autoImplicit false

namespace Wmfs.Compiler

open Wmfs.Lib
open Wmfs.Lib.Utf8 (Text ofString)
open Wmfs.Lib.Document (Members get? contains hasKeys)

/-- The exception is not an `InterfaceError`. -/
def Stray : Exn → Prop
  | .interfaceError _ => False
  | _ => True

variable {α β : Type}

/-- An `InterfaceError` is not astray. -/
@[simp] theorem not_stray_interfaceError (message : List Part) :
    ¬ Stray (.interfaceError message) := id

/-- `_fail` raises an `InterfaceError`. -/
@[simp] theorem not_stray_fail (path : Text) (message : List Part) :
    ¬ Raises Stray (fail path message : Except Exn α) := by
  simp [fail]

/-- A check with `_fail` raises an `InterfaceError`. -/
@[simp] theorem not_stray_failIf (bad : Prop) [Decidable bad] (path : Text)
    (message : List Part) : ¬ Raises Stray (failIf bad path message) := by
  simp [failIf]

/-! ### Readers -/

/-- `_keys` raises an `InterfaceError` only. -/
@[simp] theorem not_stray_keys (value : Members) (allowed : List String) (path : Text) :
    ¬ Raises Stray (keys value allowed path) := not_stray_failIf _ _ _

/-- `_required` raises an `InterfaceError` only. -/
@[simp] theorem not_stray_required (value : Members) (name : String) (path : Text) :
    ¬ Raises Stray (required value name path) := by
  unfold required
  split <;> simp

/-- `_table` raises an `InterfaceError` only. -/
@[simp] theorem not_stray_table (value : Document) (path : Text) :
    ¬ Raises Stray (table value path) := by
  unfold table
  split <;> simp

/-- `_list` raises an `InterfaceError` only. -/
@[simp] theorem not_stray_list (value : Document) (path : Text) :
    ¬ Raises Stray (list value path) := by
  unfold list
  split <;> simp

/-- `_string` raises an `InterfaceError` only. -/
@[simp] theorem not_stray_string (value : Document) (path : Text) :
    ¬ Raises Stray (string value path) := by
  unfold string
  split
  · split <;> simp
  · simp

/-- `_integer` raises an `InterfaceError` only. -/
@[simp] theorem not_stray_integer (value : Document) (path : Text) :
    ¬ Raises Stray (integer value path) := by
  unfold integer
  split <;> simp

/-- `_boolean` raises an `InterfaceError` only. -/
@[simp] theorem not_stray_boolean (value : Document) (path : Text) :
    ¬ Raises Stray (boolean value path) := by
  unfold boolean
  split <;> simp

/-- `_identifier` raises an `InterfaceError` only. -/
@[simp] theorem not_stray_identifier (value : Document) (path : Text) :
    ¬ Raises Stray (identifier value path) := by
  unfold identifier
  refine not_raises_bind (not_stray_string _ _) ?_
  intro result _
  split <;> simp

/-- The check of a dotted name raises an `InterfaceError` only. -/
@[simp] theorem not_stray_dottedName (value : Document) (path : Text) :
    ¬ Raises Stray (dottedName value path) := by
  simp [dottedName, raises_bind_iff]

/-- A list that may be missing is read without another exception. -/
@[simp] theorem not_stray_listField (value : Members) (name : String) (path : Text) :
    ¬ Raises Stray (listField value name path) := by
  unfold listField
  split <;> simp

/-- A field that is read when it is there. -/
theorem not_stray_elim {value : Option Document} {missing : α} {read : Document → Except Exn α}
    (h : ∀ found, ¬ Raises Stray (read found)) : ¬ Raises Stray (value.elim (.ok missing) read) := by
  cases value with
  | none => exact not_raises_ok
  | some found => exact h found

/-- The items of a list are read without another exception when each one is. -/
theorem not_stray_mapItems {read : Document → Text → Except Exn α} {path : Text}
    {items : List Document} (h : ∀ value path, ¬ Raises Stray (read value path)) :
    ¬ Raises Stray (mapItems read path items) :=
  not_raises_mapM fun _ _ => h _ _

/-! ### Dtypes, tensors and scalars -/

/-- The dtypes are read without another exception. -/
@[simp] theorem not_stray_dtypes (values : List Document) (path : Text) :
    ¬ Raises Stray (dtypes values path) := by
  unfold dtypes
  refine not_raises_bind (not_raises_mapM fun _ _ => not_stray_string _ _) ?_
  intro texts _
  dsimp only
  split <;> simp

/-- `_dtype_variable` raises an `InterfaceError` only. -/
@[simp] theorem not_stray_dtypeVariable (value : Document) (path : Text) :
    ¬ Raises Stray (dtypeVariable value path) := by
  simp [dtypeVariable, raises_bind_iff]

/-- The access is read without another exception. -/
@[simp] theorem not_stray_access (item : Members) (path : Text) :
    ¬ Raises Stray (access item path) := by
  unfold access
  split
  · simp
  · refine not_raises_bind (not_stray_string _ _) ?_
    intro spelled _
    split
    · simp
    · split <;> simp

/-- A set of dtypes is read without another exception. -/
@[simp] theorem not_stray_dtypeSet (values : Document) (path : Text) :
    ¬ Raises Stray (dtypeSet values path) := by
  unfold dtypeSet
  split <;> simp

/-- The constraint is read without another exception. -/
@[simp] theorem not_stray_constraint (item : Members) (path : Text) :
    ¬ Raises Stray (constraint item path) := by
  unfold constraint
  split
  · simp
  · refine not_raises_bind (not_stray_table _ _) ?_
    intro body _
    split
    · simp [raises_bind_iff]
    · split
      · simp [raises_bind_iff]
      · split <;> simp [raises_bind_iff]

/-- `_tensor` raises an `InterfaceError` only. -/
@[simp] theorem not_stray_tensor (value : Document) (path : Text) :
    ¬ Raises Stray (tensor value path) := by
  simp [tensor, raises_bind_iff]

/-- `_enum` raises an `InterfaceError` only. -/
@[simp] theorem not_stray_enum (value : Document) (path : Text) :
    ¬ Raises Stray (enum value path) := by
  unfold enum
  simp only [raises_bind_iff, not_stray_table, not_stray_keys, not_stray_required,
    not_stray_list, false_or, not_exists, not_and, not_or]
  intro item _ _ _ values _ raw _
  refine ⟨not_raises_mapM fun _ _ => not_stray_identifier _ _, ?_⟩
  intro values _
  split <;> simp [raises_bind_iff]

/-- The kind of a scalar is read without another exception. -/
@[simp] theorem not_stray_scalarKind (item : Members) (path : Text) :
    ¬ Raises Stray (scalarKind item path) := by
  unfold scalarKind
  refine not_raises_bind (not_stray_required _ _ _) ?_
  intro kind _
  split
  · simp [raises_bind_iff]
  · refine not_raises_bind (not_stray_string _ _) ?_
    intro spelled _
    repeat' split
    all_goals simp [raises_bind_iff]

/-- The default of an enum is read without another exception. -/
@[simp] theorem not_stray_enumDefault (declaration : Enum) (default : Option Document)
    (path : Text) : ¬ Raises Stray (enumDefault declaration default path) := by
  unfold enumDefault
  split
  · simp
  · dsimp only
    split <;> simp

/-- The type of a plain scalar is found without another exception. -/
@[simp] theorem not_stray_plainType (kind : String) (default : Option Document) (path : Text) :
    ¬ Raises Stray (plainType kind default path) := by
  rcases plainType_cases kind default path with ⟨type, hok⟩ | hfail
  · rw [hok]
    exact not_raises_ok
  · rw [hfail]
    exact not_stray_fail _ _

/-- `_scalar` raises an `InterfaceError` only. -/
@[simp] theorem not_stray_scalar (enums : List Enum) (value : Document) (path : Text) :
    ¬ Raises Stray (scalar enums value path) := by
  unfold scalar
  simp only [raises_bind_iff, not_stray_table, not_stray_keys, not_stray_scalarKind,
    not_stray_failIf, false_or, not_exists, not_and, not_or]
  intro item _ _ _ kind _
  refine ⟨not_stray_elim fun _ => not_stray_boolean _ _, ?_⟩
  intro isRequired _ _ _ _ _
  split
  · simp [raises_bind_iff]
  · split
    · simp [raises_bind_iff]
    · simp [raises_bind_iff]

/-! ### Outputs -/

mutual
/-- `_dimension` raises an `InterfaceError` only. -/
theorem not_stray_dimension (path : Text) : ∀ value : Document, ¬ Raises Stray (dimension path value)
  | .obj [(kind, .obj members)] => by
    have htrue := not_stray_dimensionAt path "when_true" members
    have hfalse := not_stray_dimensionAt path "when_false" members
    have hvalues := not_stray_dimensionsAt path "values" members
    unfold dimension
    split
    · exact not_raises_bind (not_stray_integer _ _) fun constant _ => by split <;> simp
    · dsimp only
      split
      · simp [raises_bind_iff]
      · split
        · refine not_raises_bind (not_stray_keys _ _ _) ?_
          intro _ _
          refine not_raises_bind hvalues ?_
          intro values _
          split <;> simp
        · split
          · simp [raises_bind_iff, htrue, hfalse]
          · simp
  | .obj [(kind, .null)] | .obj [(kind, .bool _)] | .obj [(kind, .int _)]
  | .obj [(kind, .float _)] | .obj [(kind, .str _)] | .obj [(kind, .date _)]
  | .obj [(kind, .arr _)] => by
    unfold dimension
    split
    · exact not_raises_bind (not_stray_integer _ _) fun constant _ => by split <;> simp
    · simp
  | .obj [] | .obj (_ :: _ :: _) => by
    unfold dimension
    simp
  | .null | .bool _ | .int _ | .float _ | .str _ | .date _ | .arr _ => by
    unfold dimension
    simp

/-- The same of a dimension in a field. -/
theorem not_stray_dimensionAt (path : Text) (name : String) :
    ∀ members : Members, ¬ Raises Stray (dimensionAt path name members)
  | [] => not_stray_fail _ _
  | (key, value) :: members => by
    unfold dimensionAt
    split
    · exact not_stray_dimension _ _
    · exact not_stray_dimensionAt _ _ _

/-- The same of the dimensions in a field. -/
theorem not_stray_dimensionsAt (path : Text) (name : String) :
    ∀ members : Members, ¬ Raises Stray (dimensionsAt path name members)
  | [] => not_stray_fail _ _
  | (key, .arr items) :: members => by
    have hitems := not_stray_dimensions (field path "minimum") 0 items
    have hrest := not_stray_dimensionsAt path name members
    unfold dimensionsAt
    split
    · dsimp only
      split
      · simp
      · exact hitems
    · exact hrest
  | (key, .null) :: members | (key, .bool _) :: members | (key, .int _) :: members
  | (key, .float _) :: members | (key, .str _) :: members | (key, .date _) :: members
  | (key, .obj _) :: members => by
    have hrest := not_stray_dimensionsAt path name members
    unfold dimensionsAt
    split
    · simp
    · exact hrest

/-- The same of a list of dimensions. -/
theorem not_stray_dimensions (path : Text) (index : Nat) :
    ∀ values : List Document, ¬ Raises Stray (dimensions path index values)
  | [] => not_raises_ok
  | value :: values => by
    unfold dimensions
    refine not_raises_bind (not_stray_dimension _ _) ?_
    intro first _
    refine not_raises_bind (not_stray_dimensions _ _ _) ?_
    intro rest _
    exact not_raises_pure
end

/-- `_dtype` raises an `InterfaceError` only. -/
@[simp] theorem not_stray_dtype (value : Document) (path : Text) :
    ¬ Raises Stray (dtype value path) := by
  unfold dtype
  refine not_raises_bind (not_stray_table _ _) ?_
  intro item _
  repeat' split
  all_goals simp [raises_bind_iff]

/-- The shape of an output is read without another exception. -/
@[simp] theorem not_stray_knownShape (item : Members) (path : Text) :
    ¬ Raises Stray (knownShape item path) := by
  unfold knownShape
  split
  · simp [raises_bind_iff, not_stray_dimensions]
  · simp
  · simp

/-- `_output` raises an `InterfaceError` only. -/
@[simp] theorem not_stray_output (value : Document) (path : Text) :
    ¬ Raises Stray (output value path) := by
  unfold output
  refine not_raises_bind (not_stray_table _ _) ?_
  intro item _
  refine not_raises_bind (not_stray_keys _ _ _) ?_
  intro _ _
  refine not_raises_bind (not_stray_elim fun _ => not_stray_boolean _ _) ?_
  intro dynamic _
  split <;> simp [raises_bind_iff]

/-! ### Operations -/

/-- The indices of a VJP are read without another exception. -/
@[simp] theorem not_stray_indexes (item : Members) (path : Text) (name : String) :
    ¬ Raises Stray (indexes item path name) :=
  not_raises_bind (not_stray_listField _ _ _) fun _ _ =>
    not_raises_mapM fun _ _ => not_stray_integer _ _

/-- `_vjp` raises an `InterfaceError` only. -/
@[simp] theorem not_stray_vjp (value : Document) (path : Text) : ¬ Raises Stray (vjp value path) := by
  simp [vjp, raises_bind_iff]

/-- `_operation` raises an `InterfaceError` only. -/
@[simp] theorem not_stray_operation (enums : List Enum) (value : Document) (path : Text) :
    ¬ Raises Stray (operation enums value path) := by
  simp [operation, raises_bind_iff, not_stray_mapItems, not_stray_elim]

/-- The lifecycle is read without another exception. -/
@[simp] theorem not_stray_lifecycle (value : Document) : ¬ Raises Stray (lifecycle value) := by
  simp [lifecycle, raises_bind_iff, not_stray_elim]

end Wmfs.Compiler
