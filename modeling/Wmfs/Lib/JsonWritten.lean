import Wmfs.Lib.JsonRoundTrip

/-!
# `Wmfs.Lib.JsonWritten`: documents that a program writes out

A program that writes JSON builds its documents from literal keys, texts, and the encodings of its
records. This module has the laws of these pieces that its proofs need: which of them are equal,
whether they are in the order of their keys (`InOrder`), and whether they read back (`Loadable`).

- `object_inj`, `orNull_inj`, `map_eq_map_iff`: an encoding tells records apart when its parts do.
- `inOrder_object`: an object is in order when its names are, which `decide` finds.
- `loadable_object`: it reads back when its names are distinct and its values read back.

Nothing here refers to a particular program.
-/

set_option autoImplicit false

namespace Wmfs.Lib.Json

open Wmfs.Lib.Utf8 (Text ofString)
open Wmfs.Lib.Document (Everywhere orNull)

/-! ### What a document determines -/

/-- The document of a string determines it. -/
theorem string_inj {left right : String} :
    Document.string left = Document.string right ↔ left = right := by
  rw [Document.string, Document.string, Document.str.injEq, Utf8.ofString_inj]

/-- The document of strings determines them. -/
theorem strings_inj {left right : List String} :
    Document.strings left = Document.strings right ↔ left = right := by
  have hinjective : Function.Injective Document.string := fun _ _ h => string_inj.mp h
  rw [Document.strings, Document.strings, Document.arr.injEq,
    (List.map_injective_iff.mpr hinjective).eq_iff]

/-- The document of integers determines them. -/
theorem ints_inj {left right : List Int} :
    Document.ints left = Document.ints right ↔ left = right := by
  have hinjective : Function.Injective Document.int := fun _ _ h => Document.int.inj h
  rw [Document.ints, Document.ints, Document.arr.injEq,
    (List.map_injective_iff.mpr hinjective).eq_iff]

/-- The document of an object determines its members. -/
theorem object_inj {left right : List (String × Document)} :
    Document.object left = Document.object right ↔ left = right := by
  have hinjective : Function.Injective
      fun member : String × Document => (ofString member.1, member.2) := by
    rintro ⟨key, value⟩ ⟨key', value'⟩ h
    obtain ⟨hkey, hvalue⟩ := Prod.mk.inj h
    exact Prod.ext (Utf8.ofString_inj.mp hkey) hvalue
  rw [Document.object, Document.object, Document.obj.injEq, Document.membersOf,
    Document.membersOf, (List.map_injective_iff.mpr hinjective).eq_iff]

/-- The document of a value that may be null determines it. -/
theorem orNull_inj {α : Type} {f : α → Document} (hnull : ∀ a, f a ≠ .null)
    (hf : ∀ {a b}, f a = f b → a = b) {left right : Option α} :
    orNull f left = orNull f right ↔ left = right := by
  constructor
  · intro h
    cases left with
    | none =>
      cases right with
      | none => rfl
      | some b => exact absurd h.symm (hnull b)
    | some a =>
      cases right with
      | none => exact absurd h (hnull a)
      | some b => rw [hf h]
  · intro h
    rw [h]

/-- Two maps that tell the same items apart tell the same lists apart. -/
theorem map_eq_map_iff {α β γ : Type} {f : α → β} {g : α → γ}
    (h : ∀ a b, f a = f b ↔ g a = g b) (left right : List α) :
    left.map f = right.map f ↔ left.map g = right.map g := by
  induction left generalizing right with
  | nil =>
    cases right with
    | nil => simp
    | cons b right => simp
  | cons a left ih =>
    cases right with
    | nil => simp
    | cons b right =>
      rw [List.map_cons, List.map_cons, List.map_cons, List.map_cons, List.cons.injEq,
        List.cons.injEq, h, ih]

/-! ### Properties of all parts -/

/-- A document that holds no other has only itself as a part. -/
theorem everywhere_of_nesting {P : Document → Prop} {document : Document}
    (h : nesting document = 0) (own : P document) : Everywhere P document := by
  cases document with
  | arr items => cases h
  | obj members => cases h
  | _ =>
    apply Everywhere.leaf own
    · intro items h
      cases h
    · intro members h
      cases h

/-- The parts of an object that is written out are itself and those of its values. -/
theorem everywhere_object {P : Document → Prop} {members : List (String × Document)}
    (own : P (.object members)) (h : ∀ member ∈ members, Everywhere P member.2) :
    Everywhere P (.object members) := by
  apply Everywhere.obj own
  intro member hmember
  obtain ⟨original, horiginal, rfl⟩ := List.mem_map.mp hmember
  exact h original horiginal

/-! ### The order of the keys -/

/-- A document that holds no other is in order. -/
theorem inOrder_of_nesting {document : Document} (h : nesting document = 0) :
    Everywhere InOrder document := by
  apply everywhere_of_nesting h
  cases document with
  | obj members => cases h
  | _ => trivial

/-- Null is in order. -/
@[simp] theorem inOrder_null : Everywhere InOrder .null := inOrder_of_nesting rfl

/-- A boolean is in order. -/
@[simp] theorem inOrder_bool (b : Bool) : Everywhere InOrder (.bool b) := inOrder_of_nesting rfl

/-- An integer is in order. -/
@[simp] theorem inOrder_int (n : Int) : Everywhere InOrder (.int n) := inOrder_of_nesting rfl

/-- A text is in order. -/
@[simp] theorem inOrder_str (text : Text) : Everywhere InOrder (.str text) :=
  inOrder_of_nesting rfl

/-- A literal is in order. -/
@[simp] theorem inOrder_string (s : String) : Everywhere InOrder (.string s) :=
  inOrder_of_nesting rfl

/-- An array of documents in order is in order. -/
theorem inOrder_map {α : Type} {f : α → Document} (h : ∀ item, Everywhere InOrder (f item))
    (items : List α) : Everywhere InOrder (.arr (items.map f)) := by
  apply Everywhere.arr trivial
  intro document hdocument
  obtain ⟨item, _, rfl⟩ := List.mem_map.mp hdocument
  exact h item

/-- A value that may be null is in order. -/
theorem inOrder_orNull {α : Type} {f : α → Document} (h : ∀ a, Everywhere InOrder (f a))
    (value : Option α) : Everywhere InOrder (orNull f value) := by
  cases value with
  | none => exact inOrder_null
  | some a => exact h a

/-- An array of literals is in order. -/
@[simp] theorem inOrder_strings (items : List String) : Everywhere InOrder (.strings items) :=
  inOrder_map inOrder_string items

/-- An array of integers is in order. -/
@[simp] theorem inOrder_ints (items : List Int) : Everywhere InOrder (.ints items) :=
  inOrder_map inOrder_int items

/-- An object that is written out is in order when its names are. -/
theorem inOrder_object {members : List (String × Document)} {names : List String}
    (hnames : members.map Prod.fst = names)
    (hsorted : (names.map ofString).Pairwise fun a b => ¬ b < a)
    (h : ∀ member ∈ members, Everywhere InOrder member.2) :
    Everywhere InOrder (.object members) := by
  apply everywhere_object _ h
  show KeysSorted (Document.membersOf members)
  rw [keysSorted_iff]
  show (Document.keys (Document.membersOf members)).Pairwise _
  rw [Document.keys_membersOf, hnames]
  exact hsorted

/-! ### What reads back -/

/-- A string has no surrogates. -/
theorem noPairs_ofString (s : String) : NoPairs (ofString s) := by
  -- No character is a surrogate, so a pair has no first half.
  have hhigh : ∀ point ∈ ofString s, isHigh point.val = false := by
    rw [ofString, List.forall_mem_map]
    intro c _
    have hvalid : c.toNat < 0xD800 ∨ 0xDFFF < c.toNat ∧ c.toNat < 0x110000 := c.valid
    rw [Utf8.val_ofNat_of_lt (by omega), isHigh, decide_eq_false_iff_not]
    omega
  generalize ofString s = text at hhigh
  induction text with
  | nil => exact .nil
  | cons point text ih =>
    obtain ⟨hpoint, htext⟩ := List.forall_mem_cons.mp hhigh
    rw [NoPairs, List.isChain_cons]
    refine ⟨?_, ih htext⟩
    intro next _ hboth
    rw [hpoint] at hboth
    cases hboth.1

/-- An object that is written out reads back when its names are distinct. -/
theorem loadable_object {members : List (String × Document)} {names : List String}
    (hnames : members.map Prod.fst = names) (hdistinct : (names.map ofString).Nodup)
    (h : ∀ member ∈ members, Loadable true member.2) :
    Loadable true (.object members) := by
  apply everywhere_object _ h
  show (Document.keys (Document.membersOf members)).Nodup ∧
    (true = true → ∀ key ∈ Document.keys (Document.membersOf members), NoPairs key)
  rw [Document.keys_membersOf, hnames, List.forall_mem_map]
  exact ⟨hdistinct, fun _ name _ => noPairs_ofString name⟩

/-- A literal is loadable. -/
theorem loadable_string (s : String) : Loadable true (.string s) :=
  everywhere_of_nesting rfl fun _ => noPairs_ofString s

/-- A short integer is loadable. -/
theorem loadable_int {n : Int} (h : (natText n.natAbs).length ≤ maxStrDigits) :
    Loadable true (.int n) :=
  everywhere_of_nesting rfl h

end Wmfs.Lib.Json
