import Mathlib.Data.List.Sort
import Mathlib.Data.Nat.Digits.Defs
import Wmfs.Lib.Document
import Wmfs.Lib.Hex

/-!
# `Wmfs.Lib.Json`: the canonical JSON text of a document

What `json.dumps` of Python writes with `separators=(",", ":")`, `sort_keys=True` and
`allow_nan=False`, with and without `ensure_ascii`. A document with a date or with a float that
is not finite has no such text.

How a float is spelled is left open. A `FloatText` is a spelling and the reading of it: the
spelling of a finite float is a JSON number with a fraction or an exponent, and it reads back as
the float it was made from. The `repr` of Python and its `float` are one.

Nothing here refers to a particular program.
-/

set_option autoImplicit false

namespace Wmfs.Lib.Json

open Utf8 (Text CodePoint ofString)
open Document (isFinite)

/-! ### Numbers -/

/-- The character of a literal. -/
def char (c : Char) : CodePoint := Fin.ofNat _ c.toNat

/-- A decimal digit. -/
def isDigit (point : CodePoint) : Bool := 48 ≤ point.val ∧ point.val ≤ 57

/-- The digit of a number below ten. -/
def digit (n : Nat) : CodePoint := Fin.ofNat _ (48 + n)

/-- The decimal text of a natural number. -/
def natText (n : Nat) : Text :=
  if n = 0 then [digit 0] else (Nat.digits 10 n).reverse.map digit

/-- The decimal text of an integer. -/
def intText : Int → Text
  | .ofNat n => natText n
  | .negSucc n => char '-' :: natText (n + 1)

/-- A part of a number that may be missing: some marks, then at least one digit. -/
def scanDigitsAfter (marks rest : Text) : Text × Text :=
  let digits := rest.takeWhile isDigit
  if digits = [] then ([], marks ++ rest) else (marks ++ digits, rest.dropWhile isDigit)

/-- The fraction of a number, if there is one, and the rest. -/
def scanFraction : Text → Text × Text
  | point :: rest => if point = char '.' then scanDigitsAfter [point] rest else ([], point :: rest)
  | [] => ([], [])

/-- The exponent of a number, if there is one, and the rest. -/
def scanExponent : Text → Text × Text
  | mark :: sign :: rest =>
    if mark = char 'e' ∨ mark = char 'E' then
      if sign = char '+' ∨ sign = char '-' then scanDigitsAfter [mark, sign] rest
      else scanDigitsAfter [mark] (sign :: rest)
    else ([], mark :: sign :: rest)
  | rest => ([], rest)

/-- The integer part of a number without its sign, and the rest. -/
def scanInteger : Text → Option (Text × Text)
  | first :: rest =>
    if first = char '0' then some ([first], rest)
    else if isDigit first then
      some (first :: rest.takeWhile isDigit, rest.dropWhile isDigit)
    else none
  | [] => none

/-- The fraction and the exponent of a number, and the rest. -/
def scanDecimals (text : Text) : Text × Text :=
  let fraction := scanFraction text
  let exponent := scanExponent fraction.2
  (fraction.1 ++ exponent.1, exponent.2)

/-- The sign of a number, and the rest. -/
def splitSign : Text → Text × Text
  | first :: rest => if first = char '-' then ([first], rest) else ([], first :: rest)
  | [] => ([], [])

/-- The longest number at the front of a text: its integer part, its fraction and exponent, and
the rest. -/
def scanNumber (text : Text) : Option (Text × Text × Text) :=
  (scanInteger (splitSign text).2).map fun integer =>
    ((splitSign text).1 ++ integer.1, scanDecimals integer.2)

/-- The number of a decimal text. -/
def readNat (text : Text) : Nat := text.foldl (fun n point => n * 10 + (point.val - 48)) 0

/-- The code point of a digit. -/
theorem val_digit {n : Nat} (h : n < 10) : (digit n).val = 48 + n := by
  rw [digit, Utf8.val_ofNat_of_lt (by omega)]

/-- A digit is a digit. -/
theorem isDigit_digit {n : Nat} (h : n < 10) : isDigit (digit n) = true := by
  rw [isDigit, val_digit h, decide_eq_true_iff]
  omega

/-- The text of a number has digits only. -/
theorem isDigit_of_mem_natText {n : Nat} {point : CodePoint} (h : point ∈ natText n) :
    isDigit point = true := by
  unfold natText at h
  split at h
  · rw [List.mem_singleton.mp h]
    exact isDigit_digit (by omega)
  · obtain ⟨d, hd, rfl⟩ := List.mem_map.mp h
    exact isDigit_digit (Nat.digits_lt_base (by omega) (List.mem_reverse.mp hd))

/-- Reading a list of digits from the last one on. -/
theorem readNat_digits {digits : List Nat} (h : ∀ d ∈ digits, d < 10) :
    readNat (digits.reverse.map digit) = Nat.ofDigits 10 digits := by
  induction digits with
  | nil => rfl
  | cons d digits ih =>
    obtain ⟨hd, hdigits⟩ := List.forall_mem_cons.mp h
    have hlast : readNat ((digits.reverse ++ [d]).map digit) =
        readNat (digits.reverse.map digit) * 10 + ((digit d).val - 48) := by
      rw [readNat, List.map_append, List.foldl_append]
      rfl
    rw [List.reverse_cons, hlast, ih hdigits, val_digit hd, Nat.ofDigits_cons]
    omega

/-- The decimal text of a number reads back as the number. -/
theorem readNat_natText (n : Nat) : readNat (natText n) = n := by
  unfold natText
  split
  · rename_i h
    rw [h]
    rfl
  · rw [readNat_digits fun d hd => Nat.digits_lt_base (by omega) hd, Nat.ofDigits_digits]

/-- The text does not start with a digit. -/
def NoDigit (text : Text) : Prop := ∀ point ∈ text.head?, isDigit point = false

/-- The digits in front of a text without a digit are split off. -/
theorem takeWhile_isDigit_append {digits rest : Text}
    (hdigits : ∀ point ∈ digits, isDigit point = true) (hrest : NoDigit rest) :
    (digits ++ rest).takeWhile isDigit = digits ∧ (digits ++ rest).dropWhile isDigit = rest := by
  induction digits with
  | nil =>
    cases rest with
    | nil => exact ⟨rfl, rfl⟩
    | cons point rest =>
      have hpoint := hrest point rfl
      rw [List.nil_append, List.takeWhile_cons, List.dropWhile_cons, hpoint]
      exact ⟨rfl, rfl⟩
  | cons point digits ih =>
    obtain ⟨hpoint, hdigits⟩ := List.forall_mem_cons.mp hdigits
    rw [List.cons_append, List.takeWhile_cons, List.dropWhile_cons, hpoint]
    exact ⟨congrArg _ (ih hdigits).1, (ih hdigits).2⟩

/-- The first digit of a positive number is not zero. -/
theorem natText_cases (n : Nat) : natText n = [digit 0] ∨
    ∃ first rest, natText n = first :: rest ∧ first ≠ char '0' := by
  unfold natText
  split
  · exact .inl rfl
  · rename_i h
    have hne : Nat.digits 10 n ≠ [] := Nat.digits_ne_nil_iff_ne_zero.mpr h
    have hlast := Nat.getLast_digit_ne_zero 10 h
    refine .inr ⟨digit ((Nat.digits 10 n).getLast hne),
      (Nat.digits 10 n).dropLast.reverse.map digit, ?_, ?_⟩
    · conv_lhs => rw [← List.dropLast_append_getLast hne]
      rw [List.reverse_append, List.map_append]
      rfl
    · intro heq
      have hlt := Nat.digits_lt_base (by omega) (List.getLast_mem hne)
      have hval := congrArg Fin.val heq
      rw [val_digit hlt] at hval
      have hzero : (char '0').val = 48 := rfl
      omega

/-- The integer part of a number is its longest front of digits. -/
theorem scanInteger_natText (n : Nat) {rest : Text} (hrest : NoDigit rest) :
    scanInteger (natText n ++ rest) = some (natText n, rest) := by
  have hdigits : ∀ point ∈ natText n, isDigit point = true := fun _ => isDigit_of_mem_natText
  rcases natText_cases n with h | ⟨first, tail, h, hfirst⟩
  · rw [h]
    rfl
  · rw [h] at hdigits ⊢
    obtain ⟨hdigit, htail⟩ := List.forall_mem_cons.mp hdigits
    obtain ⟨htake, hdrop⟩ := takeWhile_isDigit_append htail hrest
    rw [List.cons_append, scanInteger, if_neg hfirst, if_pos hdigit, htake, hdrop]

/-- A digit is not the minus sign. -/
theorem isDigit_ne_minus {point : CodePoint} (h : isDigit point = true) : point ≠ char '-' := by
  intro heq
  rw [heq] at h
  cases h

/-- A natural number has no sign. -/
theorem splitSign_natText (n : Nat) (rest : Text) :
    splitSign (natText n ++ rest) = ([], natText n ++ rest) := by
  have hdigits : ∀ point ∈ natText n, isDigit point = true := fun _ => isDigit_of_mem_natText
  have hne : natText n ≠ [] := by
    rcases natText_cases n with h | ⟨first, tail, h, _⟩
    · rw [h]
      exact List.cons_ne_nil _ _
    · rw [h]
      exact List.cons_ne_nil _ _
  cases htext : natText n with
  | nil => exact absurd htext hne
  | cons first tail =>
    rw [htext] at hdigits
    rw [List.cons_append, splitSign, if_neg (isDigit_ne_minus (hdigits first List.mem_cons_self))]

/-- An integer is scanned up to its end. -/
theorem scanNumber_intText (n : Int) {rest : Text} (hrest : NoDigit rest) :
    scanNumber (intText n ++ rest) = some (intText n, scanDecimals rest) := by
  cases n with
  | ofNat n =>
    rw [scanNumber, intText, splitSign_natText, scanInteger_natText n hrest]
    rfl
  | negSucc n =>
    rw [scanNumber, intText, List.cons_append, splitSign, if_pos rfl,
      scanInteger_natText (n + 1) hrest]
    rfl

/-- A spelling of the finite floats. -/
structure FloatText where
  /-- `float.__repr__`. -/
  repr : UInt64 → Text
  /-- `float` of a text. -/
  read : Text → UInt64
  read_repr : ∀ {bits : UInt64}, isFinite bits = true → read (repr bits) = bits
  scanNumber_repr : ∀ {bits : UInt64}, isFinite bits = true → ∃ integer decimals,
    scanNumber (repr bits) = some (integer, decimals, []) ∧ decimals ≠ []
  ascii_repr : ∀ {bits : UInt64}, isFinite bits = true → ∀ point ∈ repr bits, point.val < 128

/-- The fraction `.0`. -/
def pointZero : Text := [char '.', char '0']

/-- The fraction `.0` does not begin with a digit. -/
theorem noDigit_pointZero : NoDigit pointZero := by
  intro point h
  cases h
  rfl

/-- The spelling of a float as the number of its bits, with a fraction. -/
def FloatText.ofBits : FloatText where
  repr bits := natText bits.toNat ++ pointZero
  read text := UInt64.ofNat (readNat (text.takeWhile isDigit))
  read_repr := by
    intro bits _
    have htake : (natText bits.toNat ++ pointZero).takeWhile isDigit = natText bits.toNat :=
      (takeWhile_isDigit_append (fun _ => isDigit_of_mem_natText) noDigit_pointZero).1
    rw [htake, readNat_natText, UInt64.ofNat_toNat]
  scanNumber_repr := by
    intro bits _
    have hscan := scanNumber_intText (.ofNat bits.toNat) noDigit_pointZero
    exact ⟨natText bits.toNat, pointZero, hscan, by decide⟩
  ascii_repr := by
    intro bits _ point hpoint
    rcases List.mem_append.mp hpoint with h | h
    · have hdigit := isDigit_of_mem_natText h
      rw [isDigit, decide_eq_true_iff] at hdigit
      omega
    · rcases List.mem_cons.mp h with rfl | h
      · decide
      · rw [List.mem_singleton.mp h]
        decide

/-! ### Strings -/

/-- A `\u` escape. -/
def unicodeEscape (n : Nat) : Text := char '\\' :: char 'u' :: Hex.hexDigits 4 n

/-- The character inside a string. -/
def escape (ensureAscii : Bool) (point : CodePoint) : Text :=
  if point = char '\\' ∨ point = char '"' then [char '\\', point]
  else if point.val = 10 then [char '\\', char 'n']
  else if point.val = 13 then [char '\\', char 'r']
  else if point.val = 9 then [char '\\', char 't']
  else if point.val = 12 then [char '\\', char 'f']
  else if point.val = 8 then [char '\\', char 'b']
  else if point.val < 32 then unicodeEscape point.val
  else if ensureAscii = false ∨ point.val < 127 then [point]
  else if point.val < 0x10000 then unicodeEscape point.val
  else
    unicodeEscape (0xD800 + (point.val - 0x10000) / 0x400) ++
      unicodeEscape (0xDC00 + (point.val - 0x10000) % 0x400)

/-- The string of a text. -/
def quote (ensureAscii : Bool) (text : Text) : Text :=
  char '"' :: text.flatMap (escape ensureAscii) ++ [char '"']

/-! ### Documents -/

/-- The texts with commas between them. -/
def commas (texts : List Text) : Text := [char ','].intercalate texts

/-- `sort_keys`. -/
def sortKeys {α : Type} (members : List (Text × α)) : List (Text × α) :=
  members.insertionSort fun a b => ¬ b.1 < a.1

section
variable (floats : FloatText) (ensureAscii : Bool)

/-- A member of an object. -/
def member (entry : Text × Text) : Text := quote ensureAscii entry.1 ++ char ':' :: entry.2

mutual
/-- `json.dumps`. -/
def dumps : Document → Option Text
  | .null => some (ofString "null")
  | .bool b => some (ofString (if b then "true" else "false"))
  | .int n => some (intText n)
  | .float bits => if isFinite bits then some (floats.repr bits) else none
  | .str text => some (quote ensureAscii text)
  | .date _ => none
  | .arr items =>
    (dumpsItems items).map fun texts => char '[' :: commas texts ++ [char ']']
  | .obj members =>
    (dumpsMembers members).map fun entries =>
      char '{' :: commas ((sortKeys entries).map (member ensureAscii)) ++ [char '}']

/-- `json.dumps` of each item. -/
def dumpsItems : List Document → Option (List Text)
  | [] => some []
  | item :: items =>
    (dumps item).bind fun first => (dumpsItems items).map fun rest => first :: rest

/-- `json.dumps` of the value of each member. -/
def dumpsMembers : List (Text × Document) → Option (List (Text × Text))
  | [] => some []
  | (key, value) :: members =>
    (dumps value).bind fun first => (dumpsMembers members).map fun rest => (key, first) :: rest
end

end

/-! ### The documents that have a text -/

mutual
/-- The document has no date, and its floats are finite. -/
def isJson : Document → Bool
  | .float bits => isFinite bits
  | .date _ => false
  | .arr items => areJson items
  | .obj members => haveJson members
  | _ => true

/-- `isJson` of each item. -/
def areJson : List Document → Bool
  | [] => true
  | item :: items => isJson item && areJson items

/-- `isJson` of the value of each member. -/
def haveJson : List (Text × Document) → Bool
  | [] => true
  | (_, value) :: members => isJson value && haveJson members
end

/-- The items are JSON values when all are. -/
theorem areJson_eq_all (items : List Document) : areJson items = items.all isJson := by
  induction items with
  | nil => rfl
  | cons item items ih => rw [areJson, List.all_cons, ih]

/-- The members have JSON values when all do. -/
theorem haveJson_eq_all (members : List (Text × Document)) :
    haveJson members = members.all fun member => isJson member.2 := by
  induction members with
  | nil => rfl
  | cons member members ih => rw [haveJson, List.all_cons, ih]

/-- An array is a JSON value when its items are. -/
@[simp] theorem isJson_arr (items : List Document) :
    isJson (.arr items) = items.all isJson := by
  rw [isJson, areJson_eq_all]

/-- An object is a JSON value when its values are. -/
@[simp] theorem isJson_object (members : List (String × Document)) :
    isJson (.object members) = members.all fun member => isJson member.2 := by
  rw [Document.object, isJson, haveJson_eq_all, Document.membersOf, List.all_map]
  rfl

/-- Null is a JSON value. -/
@[simp] theorem isJson_null : isJson .null = true := rfl

/-- A boolean is a JSON value. -/
@[simp] theorem isJson_bool (b : Bool) : isJson (.bool b) = true := rfl

/-- An integer is a JSON value. -/
@[simp] theorem isJson_int (n : Int) : isJson (.int n) = true := rfl

/-- A text is a JSON value. -/
@[simp] theorem isJson_str (text : Text) : isJson (.str text) = true := rfl

/-- A literal is a JSON value. -/
@[simp] theorem isJson_string (s : String) : isJson (.string s) = true := rfl

/-- A list of literals is a JSON value. -/
@[simp] theorem isJson_strings (items : List String) : isJson (.strings items) = true := by
  rw [Document.strings, isJson_arr, List.all_map, List.all_eq_true]
  intro item _
  rfl

/-- A list of integers is a JSON value. -/
@[simp] theorem isJson_ints (items : List Int) : isJson (.ints items) = true := by
  rw [Document.ints, isJson_arr, List.all_map, List.all_eq_true]
  intro item _
  rfl

/-- A value that may be null is a JSON value. -/
theorem isJson_orNull {α : Type} {f : α → Document} {value : Option α}
    (h : ∀ a ∈ value, isJson (f a) = true) : isJson (Document.orNull f value) = true := by
  cases value with
  | none => rfl
  | some a => exact h a rfl

section
variable (floats : FloatText) (ensureAscii : Bool)

mutual
/-- Exactly the documents without dates whose floats are finite have a text. -/
theorem dumps_isSome_iff : ∀ document : Document,
    (dumps floats ensureAscii document).isSome = isJson document
  | .null | .bool _ | .int _ | .str _ | .date _ => rfl
  | .float bits => by
    rw [dumps, isJson]
    cases isFinite bits <;> rfl
  | .arr items => by
    rw [dumps, isJson, Option.isSome_map]
    exact dumpsItems_isSome_iff items
  | .obj members => by
    rw [dumps, isJson, Option.isSome_map]
    exact dumpsMembers_isSome_iff members

/-- The items are written when they are JSON values. -/
theorem dumpsItems_isSome_iff : ∀ items : List Document,
    (dumpsItems floats ensureAscii items).isSome = areJson items
  | [] => rfl
  | item :: items => by
    rw [areJson, ← dumps_isSome_iff item, ← dumpsItems_isSome_iff items, dumpsItems]
    cases dumps floats ensureAscii item with
    | none => rfl
    | some first => exact Option.isSome_map

/-- The members are written when their values are JSON values. -/
theorem dumpsMembers_isSome_iff : ∀ members : List (Text × Document),
    (dumpsMembers floats ensureAscii members).isSome = haveJson members
  | [] => rfl
  | (key, value) :: members => by
    rw [haveJson, ← dumps_isSome_iff value, ← dumpsMembers_isSome_iff members, dumpsMembers]
    cases dumps floats ensureAscii value with
    | none => rfl
    | some first => exact Option.isSome_map
end

end

/-! ### ASCII -/

/-- The characters of the text are ASCII. -/
def IsAscii (text : Text) : Prop := ∀ point ∈ text, point.val < 128

/-- A literal of ASCII characters is an ASCII text. -/
theorem isAscii_ofString {s : String} (h : ∀ c ∈ s.toList, c.toNat < 128) :
    IsAscii (ofString s) := by
  intro point hpoint
  obtain ⟨c, hc, rfl⟩ := List.mem_map.mp hpoint
  have := h c hc
  rw [Utf8.val_ofNat_of_lt (by omega)]
  exact this

/-- The empty text is ASCII. -/
theorem isAscii_nil : IsAscii [] := by
  intro point h
  cases h

/-- Two ASCII texts in a row are one. -/
theorem IsAscii.append {a b : Text} (ha : IsAscii a) (hb : IsAscii b) : IsAscii (a ++ b) := by
  intro point h
  rcases List.mem_append.mp h with h | h
  · exact ha point h
  · exact hb point h

/-- An ASCII character in front of an ASCII text. -/
theorem IsAscii.cons {point : CodePoint} {text : Text} (hpoint : point.val < 128)
    (htext : IsAscii text) : IsAscii (point :: text) := by
  intro other h
  rcases List.mem_cons.mp h with rfl | h
  · exact hpoint
  · exact htext other h

/-- ASCII texts in a row are one. -/
theorem isAscii_flatMap {α : Type} {f : α → Text} {items : List α}
    (h : ∀ item ∈ items, IsAscii (f item)) : IsAscii (items.flatMap f) := by
  intro point hpoint
  obtain ⟨item, hitem, hmem⟩ := List.mem_flatMap.mp hpoint
  exact h item hitem point hmem

/-- A digit is an ASCII character. -/
theorem val_digit_lt {n : Nat} (h : n < 10) : (digit n).val < 128 := by
  rw [digit, Utf8.val_ofNat_of_lt (by omega)]
  omega

/-- The text of a natural number is ASCII. -/
theorem isAscii_natText (n : Nat) : IsAscii (natText n) := by
  unfold natText
  split
  · exact IsAscii.cons (by decide) isAscii_nil
  · intro point h
    obtain ⟨d, hd, rfl⟩ := List.mem_map.mp h
    exact val_digit_lt (Nat.digits_lt_base (by omega) (List.mem_reverse.mp hd))

/-- The text of an integer is ASCII. -/
theorem isAscii_intText : ∀ n : Int, IsAscii (intText n)
  | .ofNat n => isAscii_natText n
  | .negSucc n => IsAscii.cons (by decide) (isAscii_natText (n + 1))

/-- A `\u` escape is ASCII. -/
theorem isAscii_unicodeEscape (n : Nat) : IsAscii (unicodeEscape n) := by
  refine IsAscii.cons (by decide) (IsAscii.cons (by decide) ?_)
  intro point h
  have hdigit := Hex.isHexDigit_of_mem_hexDigits h
  rw [Hex.isHexDigit, decide_eq_true_iff] at hdigit
  omega

/-- Under `ensure_ascii` the characters that are not ASCII are escaped. -/
theorem isAscii_escape (point : CodePoint) : IsAscii (escape true point) := by
  unfold escape
  split
  · rename_i h
    refine IsAscii.cons (by decide) (IsAscii.cons ?_ isAscii_nil)
    rcases h with rfl | rfl <;> decide
  iterate 5
    split
    · exact IsAscii.cons (by decide) (IsAscii.cons (by decide) isAscii_nil)
  split
  · exact isAscii_unicodeEscape _
  split
  · rename_i h
    exact IsAscii.cons (by rcases h with h | h; cases h; omega) isAscii_nil
  split
  · exact isAscii_unicodeEscape _
  · exact (isAscii_unicodeEscape _).append (isAscii_unicodeEscape _)

/-- With `ensure_ascii` a quoted text is ASCII. -/
theorem isAscii_quote (text : Text) : IsAscii (quote true text) := by
  refine IsAscii.append (IsAscii.cons (by decide) ?_) (IsAscii.cons (by decide) isAscii_nil)
  exact isAscii_flatMap fun point _ => isAscii_escape point

/-- ASCII texts with commas between them are ASCII. -/
theorem isAscii_commas {texts : List Text} (h : ∀ text ∈ texts, IsAscii text) :
    IsAscii (commas texts) := by
  induction texts with
  | nil => exact isAscii_nil
  | cons text texts ih =>
    cases texts with
    | nil =>
      show IsAscii (text ++ [])
      rw [List.append_nil]
      exact h text List.mem_cons_self
    | cons next texts =>
      show IsAscii (text ++ (char ',' :: commas (next :: texts)))
      refine (h text List.mem_cons_self).append (IsAscii.cons (by decide) (ih ?_))
      intro other hother
      exact h other (List.mem_cons_of_mem _ hother)

section
variable {floats : FloatText}

mutual
/-- Under `ensure_ascii` the text of a document is ASCII. -/
theorem isAscii_of_dumps : ∀ {document : Document} {text : Text},
    dumps floats true document = some text → IsAscii text
  | .null, text, h => by
    cases h
    exact isAscii_ofString (by simp)
  | .bool b, text, h => by
    cases h
    cases b
    · exact isAscii_ofString (by simp)
    · exact isAscii_ofString (by simp)
  | .int n, text, h => by
    cases h
    exact isAscii_intText n
  | .float bits, text, h => by
    rw [dumps] at h
    split at h
    · rename_i hfinite
      cases h
      exact floats.ascii_repr hfinite
    · cases h
  | .str content, text, h => by
    cases h
    exact isAscii_quote content
  | .date literal, text, h => by cases h
  | .arr items, text, h => by
    obtain ⟨texts, htexts, rfl⟩ := Option.map_eq_some_iff.mp h
    refine IsAscii.append (IsAscii.cons (by decide) ?_) (IsAscii.cons (by decide) isAscii_nil)
    exact isAscii_commas (isAscii_of_dumpsItems htexts)
  | .obj members, text, h => by
    obtain ⟨entries, hentries, rfl⟩ := Option.map_eq_some_iff.mp h
    refine IsAscii.append (IsAscii.cons (by decide) ?_) (IsAscii.cons (by decide) isAscii_nil)
    refine isAscii_commas fun text htext => ?_
    obtain ⟨entry, hentry, rfl⟩ := List.mem_map.mp htext
    have hmem : entry ∈ entries := (List.perm_insertionSort _ entries).mem_iff.mp hentry
    exact (isAscii_quote entry.1).append
      (IsAscii.cons (by decide) (isAscii_of_dumpsMembers hentries entry hmem))

/-- With `ensure_ascii` the texts of items are ASCII. -/
theorem isAscii_of_dumpsItems : ∀ {items : List Document} {texts : List Text},
    dumpsItems floats true items = some texts → ∀ text ∈ texts, IsAscii text
  | [], texts, h, text, htext => by
    cases h
    cases htext
  | item :: items, texts, h, text, htext => by
    obtain ⟨first, hfirst, h⟩ := Option.bind_eq_some_iff.mp h
    obtain ⟨rest, hrest, rfl⟩ := Option.map_eq_some_iff.mp h
    rcases List.mem_cons.mp htext with rfl | htext
    · exact isAscii_of_dumps hfirst
    · exact isAscii_of_dumpsItems hrest text htext

/-- With `ensure_ascii` the texts of members are ASCII. -/
theorem isAscii_of_dumpsMembers : ∀ {members : List (Text × Document)}
    {entries : List (Text × Text)}, dumpsMembers floats true members = some entries →
      ∀ entry ∈ entries, IsAscii entry.2
  | [], entries, h, entry, hentry => by
    cases h
    cases hentry
  | (key, value) :: members, entries, h, entry, hentry => by
    obtain ⟨first, hfirst, h⟩ := Option.bind_eq_some_iff.mp h
    obtain ⟨rest, hrest, rfl⟩ := Option.map_eq_some_iff.mp h
    rcases List.mem_cons.mp hentry with rfl | hentry
    · exact isAscii_of_dumps hfirst
    · exact isAscii_of_dumpsMembers hrest entry hentry
end

end

/-- `json.dumps(document, ensure_ascii=True, ...).encode("utf-8")`. -/
def canonicalBytes (floats : FloatText) (document : Document) : Option (List UInt8) :=
  (dumps floats true document).bind Utf8.encode

/-- The documents without dates whose floats are finite have canonical bytes. -/
theorem canonicalBytes_isSome_iff (floats : FloatText) (document : Document) :
    (canonicalBytes floats document).isSome = isJson document := by
  rw [← dumps_isSome_iff floats true document, canonicalBytes]
  cases htext : dumps floats true document with
  | none => rfl
  | some text =>
    rw [Option.bind_some, Option.isSome_some, Utf8.encode_isSome_iff]
    intro point hpoint
    have hascii := isAscii_of_dumps htext point hpoint
    rw [Utf8.isSurrogate_eq_false_iff]
    omega

end Wmfs.Lib.Json
