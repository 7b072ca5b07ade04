import Mathlib.Data.Nat.Digits.Lemmas
import Wmfs.Lib.JsonRoundTrip
import Wmfs.Lib.Utf8Prefix

/-!
# `Wmfs.Lib.JsonBytes`: the canonical bytes of a document

`encodeJson` is `json.dumps(..., ensure_ascii=False).encode("utf-8")` under the limit on the
digits of an integer. It has no result for a document with a lone surrogate.

What `json.loads` returns is loadable and nests within its limit (`loadable_of_loads`). With the
round trip this says which bytes a reader accepts that writes what it has read and compares
(`loadsBytes_iff`): the canonical bytes of an object, and it reads them as the object with its
keys in order.
-/

set_option autoImplicit false

namespace Wmfs.Lib.Json

open Utf8 (Text CodePoint ofString)
open Document (Members)

/-! ### What a reading is made of -/

section
variable {α : Type}

/-- What every element has, the elements of a list have. -/
theorem scanSeparated_forall {P : α → Prop} {element : Text → Option (α × Text)}
    (hP : ∀ {text value rest}, element text = some (value, rest) → P value) {close : CodePoint}
    {rounds : Nat} {text rest : Text} {values : List α}
    (h : scanSeparated close element rounds text = some (values, rest)) :
    ∀ value ∈ values, P value := by
  induction rounds generalizing text values rest with
  | zero => cases h
  | succ rounds ih =>
    rw [scanSeparated] at h
    obtain ⟨⟨first, left⟩, hfirst, h⟩ := Option.bind_eq_some_iff.mp h
    split at h
    · cases h
    · split at h
      · cases h
        intro value hvalue
        rw [List.mem_singleton.mp hvalue]
        exact hP hfirst
      · split at h
        · obtain ⟨⟨more, after⟩, hmore, heq⟩ := Option.map_eq_some_iff.mp h
          cases heq
          intro value hvalue
          rcases List.mem_cons.mp hvalue with rfl | hvalue
          · exact hP hfirst
          · exact ih hmore value hvalue
        · cases h

/-- What holds of every element that is scanned holds of all of them. -/
theorem scanEnclosed_forall {P : α → Prop} {element : Text → Option (α × Text)}
    (hP : ∀ {text value rest}, element text = some (value, rest) → P value) {close : CodePoint}
    {text rest : Text} {values : List α}
    (h : scanEnclosed close element text = some (values, rest)) : ∀ value ∈ values, P value := by
  rw [scanEnclosed] at h
  split at h
  · cases h
    intro value hvalue
    cases hvalue
  · exact scanSeparated_forall hP h

/-- The value of a member was read as one. -/
theorem scanMember_forall {P : α → Prop} {value : Text → Option (α × Text)}
    (hP : ∀ {text item rest}, value text = some (item, rest) → P item) {text rest : Text}
    {entry : Text × α} (h : scanMember value text = some (entry, rest)) : P entry.2 := by
  cases text with
  | nil => cases h
  | cons first text =>
    rw [scanMember] at h
    split at h
    · cases h
    · obtain ⟨key, _, h⟩ := Option.bind_eq_some_iff.mp h
      split at h
      · cases h
      · split at h
        · cases h
        · obtain ⟨⟨item, left⟩, hitem, heq⟩ := Option.map_eq_some_iff.mp h
          cases heq
          exact hP hitem

/-- A key behind an assignment is the new one or an old one. -/
theorem key_of_mem_setMember {key : Text} {value : α} {members : List (Text × α)}
    {entry : Text × α} (h : entry ∈ setMember key value members) :
    entry.1 = key ∨ entry.1 ∈ members.map Prod.fst := by
  induction members with
  | nil =>
    rw [List.mem_singleton.mp h]
    exact .inl rfl
  | cons first members ih =>
    rw [List.map_cons, List.mem_cons]
    rw [setMember] at h
    split at h
    · rcases List.mem_cons.mp h with rfl | h
      · exact .inr (.inl rfl)
      · exact .inr (.inr (List.mem_map_of_mem h))
    · rcases List.mem_cons.mp h with rfl | h
      · exact .inr (.inl rfl)
      · rcases ih h with h | h
        · exact .inl h
        · exact .inr (.inr h)

/-- An assignment keeps the keys distinct. -/
theorem nodup_setMember {key : Text} {members : List (Text × α)}
    (h : (members.map Prod.fst).Nodup) (value : α) :
    ((setMember key value members).map Prod.fst).Nodup := by
  induction members with
  | nil => exact List.nodup_singleton key
  | cons first members ih =>
    rw [List.map_cons, List.nodup_cons] at h
    rw [setMember]
    split
    · exact List.nodup_cons.mpr h
    · rename_i hne
      rw [List.map_cons, List.nodup_cons]
      refine ⟨?_, ih h.2⟩
      intro hmem
      obtain ⟨entry, hentry, heq⟩ := List.mem_map.mp hmem
      have hfirst : entry.1 = first.1 := heq
      rcases key_of_mem_setMember hentry with hkey | hin
      · exact hne (hfirst.symm.trans hkey)
      · rw [hfirst] at hin
        exact h.1 hin

/-- A value behind an assignment is the new one or an old one. -/
theorem mem_setMember {key : Text} {value : α} {members : List (Text × α)} {entry : Text × α}
    (h : entry ∈ setMember key value members) : entry.2 = value ∨ entry ∈ members := by
  induction members with
  | nil =>
    rw [List.mem_singleton.mp h]
    exact .inl rfl
  | cons first members ih =>
    rw [setMember] at h
    split at h
    · rcases List.mem_cons.mp h with rfl | h
      · exact .inl rfl
      · exact .inr (List.mem_cons_of_mem _ h)
    · rcases List.mem_cons.mp h with rfl | h
      · exact .inr List.mem_cons_self
      · rcases ih h with h | h
        · exact .inl h
        · exact .inr (List.mem_cons_of_mem _ h)

/-- The keys of a `dict` are distinct, and its values are among those of the pairs. -/
theorem dictOf_spec (pairs : List (Text × α)) :
    ((dictOf pairs).map Prod.fst).Nodup ∧
      ∀ entry ∈ dictOf pairs, ∃ pair ∈ pairs, entry.2 = pair.2 := by
  have hloop : ∀ rest members : List (Text × α), (members.map Prod.fst).Nodup →
      (∀ pair ∈ rest, pair ∈ pairs) → (∀ entry ∈ members, ∃ pair ∈ pairs, entry.2 = pair.2) →
        ((rest.foldl (fun members pair => setMember pair.1 pair.2 members) members).map
          Prod.fst).Nodup ∧
        ∀ entry ∈ rest.foldl (fun members pair => setMember pair.1 pair.2 members) members,
          ∃ pair ∈ pairs, entry.2 = pair.2 := by
    intro rest
    induction rest with
    | nil =>
      intro members hnodup _ hvalues
      exact ⟨hnodup, hvalues⟩
    | cons pair rest ih =>
      intro members hnodup hrest hvalues
      obtain ⟨hpair, hrest⟩ := List.forall_mem_cons.mp hrest
      refine ih _ (nodup_setMember hnodup _) hrest ?_
      intro entry hentry
      rcases mem_setMember hentry with heq | hentry
      · exact ⟨pair, hpair, heq⟩
      · exact hvalues entry hentry
  exact hloop pairs [] List.nodup_nil (fun pair h => h) (by rintro _ ⟨⟩)

end

/-- A text of digits is below the power of ten of its length. -/
theorem readNat_lt {text : Text} (h : ∀ point ∈ text, isDigit point = true) :
    readNat text < 10 ^ text.length := by
  have hloop : ∀ (text : Text) (n : Nat), (∀ point ∈ text, isDigit point = true) →
      text.foldl (fun n point => n * 10 + (point.val - 48)) n < (n + 1) * 10 ^ text.length := by
    intro text
    induction text with
    | nil =>
      intro n _
      simp
    | cons point text ih =>
      intro n h
      obtain ⟨hpoint, h⟩ := List.forall_mem_cons.mp h
      rw [isDigit, decide_eq_true_iff] at hpoint
      have hnext : n * 10 + (point.val - 48) + 1 ≤ (n + 1) * 10 := by omega
      refine lt_of_lt_of_le (ih _ h) ?_
      rw [List.length_cons, Nat.pow_succ, Nat.mul_comm _ 10, ← Nat.mul_assoc]
      exact Nat.mul_le_mul_right _ hnext
  have hlt := hloop text 0 h
  rw [Nat.zero_add, Nat.one_mul] at hlt
  exact hlt

/-- A bound of a number bounds the length of its text. -/
theorem length_natText_le {n limit : Nat} (hlimit : 0 < limit) (h : n < 10 ^ limit) :
    (natText n).length ≤ limit := by
  unfold natText
  split
  · exact hlimit
  · rw [List.length_map, List.length_reverse]
    exact (Nat.digits_length_le_iff (by omega) n).mpr h

/-- The digits of the integer part of a number. -/
theorem digits_of_scanInteger {text : Text} {integer : Text × Text}
    (h : scanInteger text = some integer) :
    (∀ point ∈ integer.1, isDigit point = true) ∧ integer.1 ≠ [] := by
  cases text with
  | nil => cases h
  | cons first text =>
    rw [scanInteger] at h
    split at h
    · rename_i hzero
      cases h
      refine ⟨?_, List.cons_ne_nil _ _⟩
      intro point hpoint
      rw [List.mem_singleton.mp hpoint, hzero]
      rfl
    · split at h
      · rename_i hdigit
        cases h
        refine ⟨?_, List.cons_ne_nil _ _⟩
        intro point hpoint
        rcases List.mem_cons.mp hpoint with rfl | hpoint
        · exact hdigit
        · exact List.all_eq_true.mp List.all_takeWhile point hpoint
      · cases h

/-- The sign of a numeral is in front of its digits. -/
theorem splitSign_numeral (text : Text) {digits : Text}
    (hdigits : ∀ point ∈ digits, isDigit point = true)
    (hne : digits ≠ []) : (splitSign ((splitSign text).1 ++ digits)).2 = digits := by
  have hplain : splitSign digits = ([], digits) := by
    cases digits with
    | nil => exact absurd rfl hne
    | cons first digits =>
      rw [splitSign, if_neg (isDigit_ne_minus (hdigits first List.mem_cons_self))]
  cases text with
  | nil => exact congrArg Prod.snd hplain
  | cons first text =>
    rw [splitSign]
    split
    · rename_i hminus
      rw [hminus]
      rfl
    · exact congrArg Prod.snd hplain

/-- An integer that was read is short. -/
theorem short_of_readInt {text integer decimals left : Text} {n : Int}
    (hscan : scanNumber text = some (integer, decimals, left)) (h : readInt integer = some n) :
    (natText n.natAbs).length ≤ maxStrDigits := by
  obtain ⟨scanned, hscanned, heq⟩ := Option.map_eq_some_iff.mp hscan
  obtain ⟨hinteger, _⟩ := Prod.mk.inj heq
  obtain ⟨hdigits, hne⟩ := digits_of_scanInteger hscanned
  have hsplit := splitSign_numeral text hdigits hne
  rw [hinteger] at hsplit
  rw [readInt, hsplit] at h
  split at h
  · cases h
  · rename_i hlimit
    have hlt : readNat scanned.1 < 10 ^ maxStrDigits :=
      lt_of_lt_of_le (readNat_lt hdigits) (Nat.pow_le_pow_right (by omega) (by omega))
    have hshort := length_natText_le (show 0 < maxStrDigits by decide) hlt
    split at h
    · cases h
      exact hshort
    · cases h
      rw [Int.natAbs_neg]
      exact hshort

section
variable {floats : FloatText}

/-- What is neither an array nor an object is loadable when it is plain. -/
theorem loadable_leaf {ensureAscii : Bool} {document : Document}
    (own : Plain ensureAscii document) (harr : ∀ items, document ≠ .arr items)
    (hobj : ∀ members, document ≠ .obj members) :
    Loadable ensureAscii document ∧ nesting document = 0 := by
  refine ⟨.leaf own harr hobj, ?_⟩
  cases document with
  | arr items => exact absurd rfl (harr items)
  | obj members => exact absurd rfl (hobj members)
  | _ => rfl

/-- A number or a literal is loadable. -/
theorem loadable_of_scanNumeral {text rest : Text} {document : Document}
    (h : scanNumeral floats text = some (document, rest)) :
    Loadable false document ∧ nesting document = 0 := by
  rw [scanNumeral] at h
  obtain ⟨⟨integer, decimals, left⟩, hscan, h⟩ := Option.bind_eq_some_iff.mp h
  split at h
  · obtain ⟨n, hn, heq⟩ := Option.map_eq_some_iff.mp h
    cases heq
    exact loadable_leaf (short_of_readInt hscan hn) (by rintro _ ⟨⟩) (by rintro _ ⟨⟩)
  · cases h
    exact loadable_leaf trivial (by rintro _ ⟨⟩) (by rintro _ ⟨⟩)

/-- A literal is loadable. -/
theorem loadable_of_scanLiteral {text rest : Text} {document : Document}
    (h : scanLiteral text = some (document, rest)) :
    Loadable false document ∧ nesting document = 0 := by
  obtain ⟨entry, hentry, hrest⟩ := List.exists_of_findSome?_eq_some h
  obtain ⟨_, _, heq⟩ := Option.map_eq_some_iff.mp hrest
  cases heq
  have hleaf : ∀ entry ∈ literals, Plain false entry.2 ∧ (∀ items, entry.2 ≠ .arr items) ∧
      ∀ members, entry.2 ≠ .obj members := by
    intro entry hentry
    simp only [literals, List.mem_cons, List.not_mem_nil, or_false] at hentry
    rcases hentry with rfl | rfl | rfl | rfl | rfl | rfl
    all_goals exact ⟨trivial, by rintro _ ⟨⟩, by rintro _ ⟨⟩⟩
  obtain ⟨own, harr, hobj⟩ := hleaf entry hentry
  exact loadable_leaf own harr hobj

/-- What the first character of a value decides. -/
theorem scanOnce_cases {depth : Nat} {text rest : Text} {document : Document}
    (h : scanOnce floats depth text = some (document, rest)) :
    (∃ content, document = .str content) ∨
    (∃ inner pairs after, depth = inner + 1 ∧ document = .obj (dictOf pairs) ∧
      scanEnclosed (char '}') (scanMember (scanOnce floats inner)) after = some (pairs, rest)) ∨
    (∃ inner items after, depth = inner + 1 ∧ document = .arr items ∧
      scanEnclosed (char ']') (scanOnce floats inner) after = some (items, rest)) ∨
    scanLiteral text = some (document, rest) ∨
    scanNumeral floats text = some (document, rest) := by
  cases text with
  | nil =>
    rw [scanOnce.eq_def] at h
    cases h
  | cons first text =>
    by_cases hopen : IsOpen first
    · rcases hopen with rfl | rfl | rfl
      · rw [scanOnce_quote] at h
        obtain ⟨scanned, _, heq⟩ := Option.map_eq_some_iff.mp h
        cases heq
        exact .inl ⟨_, rfl⟩
      · cases depth with
        | zero =>
          rw [scanOnce.eq_def] at h
          cases h
        | succ inner =>
          rw [scanOnce_brace] at h
          obtain ⟨scanned, hscanned, heq⟩ := Option.map_eq_some_iff.mp h
          cases heq
          exact .inr (.inl ⟨inner, _, _, rfl, rfl, hscanned⟩)
      · cases depth with
        | zero =>
          rw [scanOnce.eq_def] at h
          cases h
        | succ inner =>
          rw [scanOnce_bracket] at h
          obtain ⟨scanned, hscanned, heq⟩ := Option.map_eq_some_iff.mp h
          cases heq
          exact .inr (.inr (.inl ⟨inner, _, _, rfl, rfl, hscanned⟩))
    · cases hliteral : scanLiteral (first :: text) with
      | some scanned =>
        rw [scanOnce_literal hopen hliteral] at h
        exact .inr (.inr (.inr (.inl h)))
      | none =>
        rw [scanOnce_numeral hopen hliteral] at h
        exact .inr (.inr (.inr (.inr h)))

/-- The nesting of an array bounds that of its items. -/
theorem nestingItems_le_iff {items : List Document} {depth : Nat} :
    nestingItems items ≤ depth ↔ ∀ item ∈ items, nesting item ≤ depth := by
  induction items with
  | nil => simp [nestingItems]
  | cons item items ih => rw [nestingItems, max_le_iff, ih, List.forall_mem_cons]

/-- What is read is loadable, and nests within the limit. The induction is on the limit. -/
theorem loadable_of_scanOnce {depth : Nat} {text rest : Text} {document : Document}
    (h : scanOnce floats depth text = some (document, rest)) :
    Loadable false document ∧ nesting document ≤ depth := by
  induction depth using Nat.strong_induction_on generalizing text rest document with
  | _ depth ih =>
    have hleaf : Loadable false document ∧ nesting document = 0 →
        Loadable false document ∧ nesting document ≤ depth := by
      intro hleaf
      exact ⟨hleaf.1, by rw [hleaf.2]; exact Nat.zero_le _⟩
    rcases scanOnce_cases h with ⟨content, rfl⟩ | ⟨inner, pairs, after, rfl, rfl, hpairs⟩ |
      ⟨inner, items, after, rfl, rfl, hitems⟩ | hliteral | hnumeral
    · exact hleaf (loadable_leaf (by rintro ⟨⟩) (by rintro _ ⟨⟩) (by rintro _ ⟨⟩))
    · have hall : ∀ pair ∈ pairs, Loadable false pair.2 ∧ nesting pair.2 ≤ inner :=
        scanEnclosed_forall (scanMember_forall (ih inner (Nat.lt_succ_self inner))) hpairs
      obtain ⟨hnodup, hvalues⟩ := dictOf_spec pairs
      have hmembers : ∀ member ∈ dictOf pairs,
          Loadable false member.2 ∧ nesting member.2 ≤ inner := by
        intro member hmember
        obtain ⟨pair, hpair, heq⟩ := hvalues member hmember
        rw [heq]
        exact hall pair hpair
      constructor
      · exact .obj ⟨hnodup, by rintro ⟨⟩⟩ fun member hmember => (hmembers member hmember).1
      · refine Nat.succ_le_succ (nestingMembers_le_iff.mpr ?_)
        intro member hmember
        exact (hmembers member hmember).2
    · have hall : ∀ item ∈ items, Loadable false item ∧ nesting item ≤ inner :=
        scanEnclosed_forall (ih inner (Nat.lt_succ_self inner)) hitems
      constructor
      · exact .arr trivial fun item hitem => (hall item hitem).1
      · refine Nat.succ_le_succ (nestingItems_le_iff.mpr ?_)
        intro item hitem
        exact (hall item hitem).2
    · exact hleaf (loadable_of_scanLiteral hliteral)
    · exact hleaf (loadable_of_scanNumeral hnumeral)

/-- What `json.loads` returns is loadable. -/
theorem loadable_of_loads {depth : Nat} {text : Text} {document : Document}
    (h : loads floats depth text = some document) :
    Loadable false document ∧ nesting document ≤ depth := by
  rw [loads] at h
  split at h
  · cases h
  · obtain ⟨scanned, hscanned, h⟩ := Option.bind_eq_some_iff.mp h
    split at h
    · cases h
      exact loadable_of_scanOnce hscanned
    · cases h

end

/-! ### Writing under the limit -/

mutual
/-- Every integer of the document has at most `maxStrDigits` digits. -/
def shortIntegers : Document → Bool
  | .int n => (natText n.natAbs).length ≤ maxStrDigits
  | .arr items => shortItems items
  | .obj members => shortMembers members
  | _ => true

/-- `shortIntegers` of each item. -/
def shortItems : List Document → Bool
  | [] => true
  | item :: items => shortIntegers item && shortItems items

/-- `shortIntegers` of the value of each member. -/
def shortMembers : Members → Bool
  | [] => true
  | (_, value) :: members => shortIntegers value && shortMembers members
end

/-- `json.dumps(document, ensure_ascii=False, ...).encode("utf-8")`. -/
def encodeJson (floats : FloatText) (document : Document) : Option (List UInt8) :=
  if shortIntegers document then (dumps floats false document).bind Utf8.encode else none

mutual
/-- Short integers and distinct keys make a document loadable. -/
theorem loadable_of_short : ∀ {document : Document}, shortIntegers document = true →
    Document.Everywhere Document.DistinctKeys document → Loadable false document
  | .null, _, _ | .bool _, _, _ | .float _, _, _ | .date _, _, _ =>
    .leaf trivial (by rintro _ ⟨⟩) (by rintro _ ⟨⟩)
  | .int n, h, _ => by
    have hshort : (natText n.natAbs).length ≤ maxStrDigits := of_decide_eq_true h
    exact .leaf hshort (by rintro _ ⟨⟩) (by rintro _ ⟨⟩)
  | .str _, _, _ => .leaf (by rintro ⟨⟩) (by rintro _ ⟨⟩) (by rintro _ ⟨⟩)
  | .arr items, h, hkeys => .arr trivial (loadable_of_shortItems h hkeys.items)
  | .obj members, h, hkeys =>
    .obj ⟨hkeys.own, by rintro ⟨⟩⟩ (loadable_of_shortMembers h hkeys.members)

/-- Items with short integers and distinct keys are loadable. -/
theorem loadable_of_shortItems : ∀ {items : List Document}, shortItems items = true →
    (∀ item ∈ items, Document.Everywhere Document.DistinctKeys item) →
      ∀ item ∈ items, Loadable false item
  | [], _, _, _, hitem => by cases hitem
  | first :: items, h, hkeys, item, hitem => by
    obtain ⟨hfirst, hrest⟩ := (Bool.and_eq_true _ _).mp h
    obtain ⟨hkey, hkeys⟩ := List.forall_mem_cons.mp hkeys
    rcases List.mem_cons.mp hitem with heq | hitem
    · rw [heq]
      exact loadable_of_short hfirst hkey
    · exact loadable_of_shortItems hrest hkeys item hitem

/-- Members with short integers and distinct keys are loadable. -/
theorem loadable_of_shortMembers : ∀ {members : Members}, shortMembers members = true →
    (∀ member ∈ members, Document.Everywhere Document.DistinctKeys member.2) →
      ∀ member ∈ members, Loadable false member.2
  | [], _, _, _, hmember => by cases hmember
  | (key, value) :: members, h, hkeys, member, hmember => by
    obtain ⟨hfirst, hrest⟩ := (Bool.and_eq_true _ _).mp h
    obtain ⟨hkey, hkeys⟩ := List.forall_mem_cons.mp hkeys
    rcases List.mem_cons.mp hmember with heq | hmember
    · rw [heq]
      exact loadable_of_short hfirst hkey
    · exact loadable_of_shortMembers hrest hkeys member hmember
end

mutual
/-- The integers of a loadable document are short. -/
theorem short_of_loadable : ∀ {document : Document}, Loadable false document →
    shortIntegers document = true
  | .null, _ | .bool _, _ | .float _, _ | .date _, _ | .str _, _ => rfl
  | .int _, h => decide_eq_true h.own
  | .arr _, h => short_of_loadableItems h.items
  | .obj _, h => short_of_loadableMembers h.members

/-- The integers in loadable items are short. -/
theorem short_of_loadableItems : ∀ {items : List Document},
    (∀ item ∈ items, Loadable false item) → shortItems items = true
  | [], _ => rfl
  | item :: items, h => by
    obtain ⟨hitem, hitems⟩ := List.forall_mem_cons.mp h
    rw [shortItems, short_of_loadable hitem, short_of_loadableItems hitems]
    rfl

/-- The integers in loadable members are short. -/
theorem short_of_loadableMembers : ∀ {members : Members},
    (∀ member ∈ members, Loadable false member.2) → shortMembers members = true
  | [], _ => rfl
  | (key, value) :: members, h => by
    obtain ⟨hvalue, hmembers⟩ := List.forall_mem_cons.mp h
    rw [shortMembers, short_of_loadable hvalue, short_of_loadableMembers hmembers]
    rfl
end

mutual
/-- A document whose keys stand in their order is canonical. -/
theorem canonical_of_inOrder : ∀ {document : Document}, Document.Everywhere InOrder document →
    canonical document = document
  | .null, _ | .bool _, _ | .int _, _ | .float _, _ | .str _, _ | .date _, _ => rfl
  | .arr items, h => by rw [canonical, canonicalItems_of_inOrder h.items]
  | .obj members, h => by
    rw [canonical, canonicalMembers_of_inOrder h.members, sortKeys_of_keysSorted h.own]

/-- Items in order are canonical. -/
theorem canonicalItems_of_inOrder : ∀ {items : List Document},
    (∀ item ∈ items, Document.Everywhere InOrder item) → canonicalItems items = items
  | [], _ => rfl
  | item :: items, h => by
    obtain ⟨hitem, hitems⟩ := List.forall_mem_cons.mp h
    rw [canonicalItems, canonical_of_inOrder hitem, canonicalItems_of_inOrder hitems]

/-- Members in order are canonical. -/
theorem canonicalMembers_of_inOrder : ∀ {members : Members},
    (∀ member ∈ members, Document.Everywhere InOrder member.2) →
      canonicalMembers members = members
  | [], _ => rfl
  | (key, value) :: members, h => by
    obtain ⟨hvalue, hmembers⟩ := List.forall_mem_cons.mp h
    rw [canonicalMembers, canonical_of_inOrder hvalue, canonicalMembers_of_inOrder hmembers]
end

/-- The canonical form is canonical. -/
theorem canonical_canonical (document : Document) :
    canonical (canonical document) = canonical document :=
  canonical_of_inOrder (inOrder_canonical document)

section
variable {floats : FloatText}

/-- When a document has an encoding, and which. -/
theorem encodeJson_eq_some_iff {document : Document} {bytes : List UInt8} :
    encodeJson floats document = some bytes ↔ shortIntegers document = true ∧
      ∃ text, dumps floats false document = some text ∧ Utf8.encode text = some bytes := by
  rw [encodeJson]
  split
  · rename_i h
    rw [Option.bind_eq_some_iff]
    constructor
    · intro hbytes
      exact ⟨h, hbytes⟩
    · rintro ⟨_, hbytes⟩
      exact hbytes
  · rename_i h
    constructor
    · rintro ⟨⟩
    · rintro ⟨hshort, _⟩
      exact absurd hshort h

/-- The canonical document has the same bytes. -/
theorem encodeJson_canonical {document : Document} {bytes : List UInt8}
    (h : encodeJson floats document = some bytes)
    (hkeys : Document.Everywhere Document.DistinctKeys document) :
    encodeJson floats (canonical document) = some bytes := by
  obtain ⟨hshort, text, htext, hbytes⟩ := encodeJson_eq_some_iff.mp h
  have hload := loadable_canonical (loadable_of_short hshort hkeys)
  exact encodeJson_eq_some_iff.mpr ⟨short_of_loadable hload, text, dumps_canonical htext, hbytes⟩

/-! ### Strings and their bytes -/

/-- The characters of a text that has no lone surrogate. -/
def Scalars (text : Text) : Prop := ∀ point ∈ text, Utf8.isSurrogate point.val = false

/-- Texts without surrogates in a row have none. -/
theorem scalars_append {a b : Text} (ha : Scalars a) (hb : Scalars b) : Scalars (a ++ b) := by
  intro point h
  rcases List.mem_append.mp h with h | h
  · exact ha point h
  · exact hb point h

/-- An ASCII text has no surrogates. -/
theorem scalars_of_isAscii {text : Text} (h : IsAscii text) : Scalars text := by
  intro point hpoint
  have hascii := h point hpoint
  rw [Utf8.isSurrogate_eq_false_iff]
  omega

/-- A character stands for itself or as ASCII. -/
theorem mem_escape {point other : CodePoint} (h : other ∈ escape false point) :
    other = point ∨ other.val < 128 := by
  unfold escape at h
  split at h
  · rcases List.mem_cons.mp h with rfl | h
    · exact .inr (by decide)
    · exact .inl (List.mem_singleton.mp h)
  iterate 5
    split at h
    · refine .inr ?_
      rcases List.mem_cons.mp h with rfl | h
      · decide
      · rw [List.mem_singleton.mp h]
        decide
  split at h
  · exact .inr (isAscii_unicodeEscape _ other h)
  · rw [if_pos (.inl rfl)] at h
    exact .inl (List.mem_singleton.mp h)

/-- A quoted text has surrogates only where the text has. -/
theorem scalars_quote {text : Text} (h : Scalars text) : Scalars (quote false text) := by
  have hmark : IsAscii [char '"'] := IsAscii.cons (by decide) isAscii_nil
  refine scalars_append (scalars_append (scalars_of_isAscii hmark) ?_)
    (scalars_of_isAscii hmark)
  intro other hother
  obtain ⟨point, hpoint, hmem⟩ := List.mem_flatMap.mp hother
  rcases mem_escape hmem with rfl | hascii
  · exact h other hpoint
  · rw [Utf8.isSurrogate_eq_false_iff]
    omega

/-- The sizes of two texts in a row add up. -/
theorem size_append (a b : Text) : Utf8.size (a ++ b) = Utf8.size a + Utf8.size b := by
  induction a with
  | nil => exact (Nat.zero_add _).symm
  | cons point a ih =>
    rw [List.cons_append, Utf8.size, Utf8.size, ih]
    omega

/-- An ASCII text has one byte for each character. -/
theorem size_of_isAscii {text : Text} (h : IsAscii text) : Utf8.size text = text.length := by
  induction text with
  | nil => rfl
  | cons point text ih =>
    have hpoint : point.val < 0x80 := h point List.mem_cons_self
    rw [Utf8.size, ih fun other hother => h other (List.mem_cons_of_mem _ hother),
      Utf8.pointSize, if_pos hpoint, List.length_cons]
    omega

/-- Hexadecimal digits stand for themselves. -/
theorem quote_hex {text : Text} (h : ∀ point ∈ text, Hex.isHexDigit point = true) :
    quote false text = char '"' :: text ++ [char '"'] := by
  have hself : ∀ text : Text, (∀ point ∈ text, Hex.isHexDigit point = true) →
      text.flatMap (escape false) = text := by
    intro text
    induction text with
    | nil =>
      intro _
      rfl
    | cons point text ih =>
      intro h
      obtain ⟨hpoint, h⟩ := List.forall_mem_cons.mp h
      rw [Hex.isHexDigit, decide_eq_true_iff] at hpoint
      have hmarks : ¬ (point = char '\\' ∨ point = char '"') := by
        rintro (rfl | rfl)
        · exact absurd hpoint (by decide)
        · exact absurd hpoint (by decide)
      have hescape : escape false point = [point] := by
        rw [escape, if_neg hmarks, if_neg (by omega), if_neg (by omega), if_neg (by omega),
          if_neg (by omega), if_neg (by omega), if_neg (by omega), if_pos (.inl rfl)]
      rw [List.flatMap_cons, ih h, hescape]
      rfl
  rw [quote, hself text h]

/-! ### The encoding of an object -/

/-- The text of an object starts with its bracket and the mark behind it. -/
theorem exists_of_dumps_obj {ensureAscii : Bool} {members : Members} {text : Text}
    (h : dumps floats ensureAscii (.obj members) = some text) :
    ∃ mark rest, text = char '{' :: mark :: rest ∧ (mark = char '"' ∨ mark = char '}') := by
  obtain ⟨entries, _, rfl⟩ := Option.map_eq_some_iff.mp h
  cases hsorted : (sortKeys entries).map (member ensureAscii) with
  | nil => exact ⟨_, _, rfl, .inr rfl⟩
  | cons first others =>
    have hfirst : ∃ tail, first = char '"' :: tail := by
      have hmem : first ∈ (sortKeys entries).map (member ensureAscii) := by
        rw [hsorted]
        exact List.mem_cons_self
      obtain ⟨entry, _, rfl⟩ := List.mem_map.mp hmem
      exact ⟨_, rfl⟩
    obtain ⟨tail, rfl⟩ := hfirst
    cases others with
    | nil => exact ⟨_, _, rfl, .inl rfl⟩
    | cons next others => exact ⟨_, _, rfl, .inl rfl⟩

/-- Such bytes are taken for UTF-8. -/
theorem detectEncoding_obj {mark : CodePoint} (hmark : mark = char '"' ∨ mark = char '}')
    {rest : Text} {bytes : List UInt8}
    (h : Utf8.encode (char '{' :: mark :: rest) = some bytes) : detectEncoding bytes = .utf8 := by
  have hbyte : ∃ byte tail, bytes = 0x7B :: byte :: tail ∧ byte ≠ 0 := by
    obtain ⟨head, tail, hhead, htail, rfl⟩ := Utf8.exists_of_encode_cons h
    obtain ⟨next, tail', hnext, htail', rfl⟩ := Utf8.exists_of_encode_cons htail
    cases hhead
    rcases hmark with rfl | rfl
    · cases hnext
      exact ⟨0x22, tail', rfl, by decide⟩
    · cases hnext
      exact ⟨0x7D, tail', rfl, by decide⟩
  obtain ⟨byte, tail, rfl, hne⟩ := hbyte
  match tail with
  | [] => simp [detectEncoding, List.isPrefixOf, hne]
  | [c] => simp [detectEncoding, List.isPrefixOf]
  | c :: d :: tail => simp [detectEncoding, List.isPrefixOf, hne]

/-- The bytes of an object read as the object with its keys in order. -/
theorem loadsBytes_encodeJson {decoders : Decoders} {members : Members} {bytes : List UInt8}
    {depth : Nat} (h : encodeJson floats (.obj members) = some bytes)
    (hkeys : Document.Everywhere Document.DistinctKeys (.obj members))
    (hdepth : nesting (.obj members) ≤ depth) :
    loadsBytes decoders floats depth bytes = some (canonical (.obj members)) := by
  obtain ⟨hshort, text, htext, hbytes⟩ := encodeJson_eq_some_iff.mp h
  obtain ⟨mark, rest, hshape, hmark⟩ := exists_of_dumps_obj htext
  have hencoding : detectEncoding bytes = .utf8 := by
    rw [hshape] at hbytes
    exact detectEncoding_obj hmark hbytes
  rw [loadsBytes, hencoding, decoders.decode_utf8 (Utf8.decode_encode hbytes), Option.bind_some]
  exact loads_dumps htext (loadable_of_short hshort hkeys) hdepth

/-- The keys of a loadable document are distinct. -/
theorem distinctKeys_of_loadable {ensureAscii : Bool} {document : Document}
    (h : Loadable ensureAscii document) :
    Document.Everywhere Document.DistinctKeys document := by
  induction h with
  | @leaf document own harr hobj =>
    refine .leaf ?_ harr hobj
    cases document with
    | obj members => exact absurd rfl (hobj members)
    | _ => trivial
  | arr _ _ ih => exact .arr trivial ih
  | obj own _ ih => exact .obj own.1 ih

/-- The bytes that read as an object and are written for it are exactly the canonical bytes of
the objects with distinct keys in order that nest within the limit. -/
theorem loadsBytes_iff {decoders : Decoders} {members : Members} {bytes : List UInt8}
    {depth : Nat} (h : encodeJson floats (.obj members) = some bytes) :
    loadsBytes decoders floats depth bytes = some (.obj members) ↔
      Document.Everywhere Document.DistinctKeys (.obj members) ∧
        Document.Everywhere InOrder (.obj members) ∧ nesting (.obj members) ≤ depth := by
  constructor
  · intro hread
    obtain ⟨text, _, htext⟩ := Option.bind_eq_some_iff.mp hread
    obtain ⟨hload, hdepth⟩ := loadable_of_loads htext
    have hkeys := distinctKeys_of_loadable hload
    have hcanonical : loadsBytes decoders floats depth bytes = _ :=
      loadsBytes_encodeJson h hkeys hdepth
    rw [hread, Option.some_inj] at hcanonical
    refine ⟨hkeys, ?_, hdepth⟩
    rw [hcanonical]
    exact inOrder_canonical _
  · rintro ⟨hkeys, hsorted, hdepth⟩
    rw [loadsBytes_encodeJson h hkeys hdepth, canonical_of_inOrder hsorted]

end

end Wmfs.Lib.Json
