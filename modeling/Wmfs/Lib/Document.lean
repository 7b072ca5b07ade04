import Mathlib.Data.Rat.Defs
import Wmfs.Lib.Utf8

/-!
# `Wmfs.Lib.Document`: parsed documents

What a parser of JSON or TOML returns: scalars, arrays and tables. JSON has no dates and TOML
has no null, and one type holds both. A table is the list of its members. A parser returns it
with distinct keys, and `get?` takes the first member of a key.

A document that a program writes out in its own text is an `object` of members with string
literals as keys. `get?_membersOf` looks a key up among the literals.

Nothing here refers to a particular program.
-/

set_option autoImplicit false

namespace Wmfs.Lib

open Utf8 (Text CodePoint)

/-! ### Texts and strings -/

namespace Utf8

/-- The string of a text. It is the inverse of `ofString`; a lone surrogate, which no string
has, becomes some other character. -/
def toString (text : Text) : String := String.ofList (text.map fun point => Char.ofNat point.val)

/-- A literal is read back from its text. -/
@[simp] theorem toString_ofString (s : String) : toString (ofString s) = s := by
  have hchar : ∀ c : Char, Char.ofNat (Fin.ofNat 0x110000 c.toNat).val = c := by
    intro c
    have hvalid : c.toNat < 0xD800 ∨ 0xDFFF < c.toNat ∧ c.toNat < 0x110000 := c.valid
    rw [val_ofNat_of_lt (by omega), Char.ofNat_toNat]
  rw [toString, ofString, List.map_map]
  have hmap : s.toList.map (fun c => Char.ofNat (Fin.ofNat 0x110000 c.toNat).val) = s.toList := by
    rw [List.map_congr_left fun c _ => hchar c, List.map_id']
  show String.ofList (s.toList.map fun c => Char.ofNat (Fin.ofNat 0x110000 c.toNat).val) = s
  rw [hmap, String.ofList_toList]

/-- The text of a literal determines it. -/
@[simp] theorem ofString_inj {s t : String} : ofString s = ofString t ↔ s = t := by
  constructor
  · intro h
    rw [← toString_ofString s, h, toString_ofString]
  · intro h
    rw [h]

/-- A literal that is not empty has a text that is not empty. -/
theorem ofString_ne_nil {s : String} (h : s ≠ "") : ofString s ≠ [] := by
  intro hnil
  exact h (ofString_inj.mp hnil)

end Utf8

/-! ### Documents -/

/-- A parsed document. A `float` is its 64-bit pattern. -/
inductive Document where
  | null
  | bool (b : Bool)
  | int (n : Int)
  | float (bits : UInt64)
  | str (text : Text)
  | date (literal : Text)
  | arr (items : List Document)
  | obj (members : List (Text × Document))

namespace Document

/-- The members of a table. -/
abbrev Members : Type := List (Text × Document)

/-- The text of a string literal. -/
def string (s : String) : Document := .str (Utf8.ofString s)

/-- An array of texts of string literals. -/
def strings (items : List String) : Document := .arr (items.map string)

/-- An array of integers. -/
def ints (items : List Int) : Document := .arr (items.map .int)

/-- The value of an `Option`, or null. -/
def orNull {α : Type} (f : α → Document) : Option α → Document
  | some a => f a
  | none => .null

/-- A value that is there. -/
@[simp] theorem orNull_some {α : Type} (f : α → Document) (a : α) :
    orNull f (some a) = f a := rfl

/-- A value that is missing is null. -/
@[simp] theorem orNull_none {α : Type} (f : α → Document) : orNull f none = .null := rfl

/-- The members of a table that is written out. -/
def membersOf (members : List (String × Document)) : Members :=
  members.map fun member => (Utf8.ofString member.1, member.2)

/-- A table that is written out. -/
def object (members : List (String × Document)) : Document := .obj (membersOf members)

/-- `members[key]`, when the key is there. -/
def get? (members : Members) (key : String) : Option Document :=
  members.lookup (Utf8.ofString key)

/-- `key in members`. -/
def contains (members : Members) (key : String) : Bool := (get? members key).isSome

/-- The keys of a table. -/
def keys (members : Members) : List Text := members.map Prod.fst

/-- A key of a table that is written out is looked up among the literals. -/
@[simp] theorem get?_membersOf (members : List (String × Document)) (key : String) :
    get? (membersOf members) key = members.lookup key := by
  rw [get?, membersOf]
  induction members with
  | nil => rfl
  | cons member members ih =>
    obtain ⟨name, value⟩ := member
    rw [List.map_cons]
    by_cases h : key = name
    · rw [h, List.lookup_cons_self, List.lookup_cons_self]
    · have hof : Utf8.ofString key ≠ Utf8.ofString name := fun heq => h (Utf8.ofString_inj.mp heq)
      rw [List.lookup_cons, List.lookup_cons, beq_eq_false_iff_ne.mpr hof,
        beq_eq_false_iff_ne.mpr h]
      exact ih

/-- The keys of a document that is written with literals. -/
@[simp] theorem keys_membersOf (members : List (String × Document)) :
    keys (membersOf members) = (members.map Prod.fst).map Utf8.ofString := by
  rw [keys, membersOf, List.map_map, List.map_map]
  rfl

/-- A lookup among literals goes through them one by one. -/
@[simp] theorem lookup_cons_ite {α β : Type} [DecidableEq α] (key name : α) (value : β)
    (members : List (α × β)) :
    ((name, value) :: members).lookup key =
      if key = name then some value else members.lookup key := by
  rw [List.lookup_cons]
  by_cases h : key = name
  · rw [if_pos h, beq_iff_eq.mpr h]
  · rw [if_neg h, beq_eq_false_iff_ne.mpr h]

/-- The keys of a table are exactly these. -/
def hasKeys (members : Members) (expected : List String) : Bool :=
  (expected.all fun key => contains members key) &&
    (keys members).all fun key => (expected.map Utf8.ofString).contains key

/-- The keys of a table that is written out are compared as literals. -/
@[simp] theorem hasKeys_membersOf (members : List (String × Document)) (expected : List String) :
    hasKeys (membersOf members) expected =
      ((expected.all fun key => (members.lookup key).isSome) &&
        (members.map Prod.fst).all fun key => expected.contains key) := by
  have hkey : ∀ key : String, (expected.map Utf8.ofString).contains (Utf8.ofString key) =
      expected.contains key := by
    intro key
    rw [Bool.eq_iff_iff, List.contains_iff_mem, List.contains_iff_mem, List.mem_map]
    constructor
    · intro ⟨other, hmem, heq⟩
      rw [← Utf8.ofString_inj.mp heq]
      exact hmem
    · intro hmem
      exact ⟨key, hmem, rfl⟩
  simp only [hasKeys, contains, get?_membersOf, keys_membersOf, List.all_map]
  congr 1
  exact congrArg (fun f => (members.all f)) (funext fun member => hkey member.1)

/-! ### Scalars -/

/-- The float of these bits is neither infinite nor a NaN. -/
def isFinite (bits : UInt64) : Bool := bits.toNat / 2 ^ 52 % 2 ^ 11 ≠ 2047

/-- The value of a finite float. -/
def floatValue (bits : UInt64) : ℚ :=
  let fraction : Nat := bits.toNat % 2 ^ 52
  let exponent : Nat := bits.toNat / 2 ^ 52 % 2 ^ 11
  let magnitude : ℚ :=
    if exponent = 0 then (fraction : ℚ) / 2 ^ 1074
    else ((2 ^ 52 + fraction : Nat) : ℚ) * 2 ^ exponent / 2 ^ 1075
  if bits.toNat < 2 ^ 63 then magnitude else -magnitude

/-- The value of an integer or of a finite float. -/
def number? : Document → Option ℚ
  | .int n => some n
  | .float bits => if isFinite bits then some (floatValue bits) else none
  | _ => none

/-- Equality of two scalars. Integers and finite floats are equal when their values are, and a
boolean is equal to booleans only. -/
def scalarEq : Document → Document → Bool
  | .bool a, .bool b => a = b
  | .str a, .str b => a = b
  | left, right =>
    match number? left, number? right with
    | some a, some b => a = b
    | _, _ => false

/-- `len(value)`, of what has a length. -/
def length? : Document → Option Nat
  | .str text => some text.length
  | .arr items => some items.length
  | .obj members => some members.length
  | _ => none

/-! ### Properties of all parts -/

/-- The document and all documents in it have the property. -/
inductive Everywhere (P : Document → Prop) : Document → Prop where
  | leaf {document : Document} (own : P document) (not_arr : ∀ items, document ≠ .arr items)
      (not_obj : ∀ members, document ≠ .obj members) : Everywhere P document
  | arr {items : List Document} (own : P (.arr items)) (all : ∀ item ∈ items, Everywhere P item) :
      Everywhere P (.arr items)
  | obj {members : Members} (own : P (.obj members))
      (all : ∀ member ∈ members, Everywhere P member.2) : Everywhere P (.obj members)

/-- What holds everywhere holds of the document. -/
theorem Everywhere.own {P : Document → Prop} {document : Document} (h : Everywhere P document) :
    P document := by
  cases h with
  | leaf own _ _ => exact own
  | arr own _ => exact own
  | obj own _ => exact own

/-- What holds everywhere holds in the items. -/
theorem Everywhere.items {P : Document → Prop} {items : List Document}
    (h : Everywhere P (.arr items)) : ∀ item ∈ items, Everywhere P item := by
  cases h with
  | leaf _ not_arr _ => exact absurd rfl (not_arr items)
  | arr _ all => exact all

/-- What holds everywhere holds in the members. -/
theorem Everywhere.members {P : Document → Prop} {members : Members}
    (h : Everywhere P (.obj members)) : ∀ member ∈ members, Everywhere P member.2 := by
  cases h with
  | leaf _ _ not_obj => exact absurd rfl (not_obj members)
  | obj _ all => exact all

/-- What a table has under a key has the property, too. -/
theorem Everywhere.of_get? {P : Document → Prop} {members : Members} (h : Everywhere P (.obj members))
    {key : String} {found : Document} (hfound : get? members key = some found) :
    Everywhere P found := by
  obtain ⟨before, after, heq, _⟩ := List.lookup_eq_some_iff.mp hfound
  have hmem : (Utf8.ofString key, found) ∈ members := by
    rw [heq]
    exact List.mem_append_right before List.mem_cons_self
  exact h.members _ hmem

/-- The keys of the table are distinct, as those of a `dict` are. -/
def DistinctKeys : Document → Prop
  | .obj members => (keys members).Nodup
  | _ => True

end Document

end Wmfs.Lib
