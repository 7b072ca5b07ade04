import Wmfs.Lib.JsonLoads

/-!
# `Wmfs.Lib.JsonRoundTrip`: a canonical text reads back

`json.loads` of the text that `json.dumps` writes is the document with the keys of its objects
in order (`loads_dumps`). Two documents have one text exactly when they are the same but for
the order of their keys (`dumps_eq_iff`), so the text is canonical.

The document is `Loadable`: its integers are short enough to be read, the keys of an object are
distinct, and under `ensure_ascii` no text has a high surrogate right before a low one. The
escapes of such two surrogates read as the one character that they encode.

`Reads` is the statement for one element: the text of a value reads as the value, whatever ends
the element. It goes through the scanners from the bottom up: numbers, strings, the loop over
elements with commas between them (`scanSeparated_commas`), and by induction on the document
(`reads_dumps`).
-/

set_option autoImplicit false

namespace Wmfs.Lib.Json

open Utf8 (Text CodePoint ofString)
open Document (Members isFinite)

/-! ### What follows a value -/

/-- The text is over, or goes on with the mark behind an element. -/
def Ends (rest : Text) : Prop :=
  ∀ point ∈ rest.head?, point = char ',' ∨ point = char ']' ∨ point = char '}'

/-- A value may stand at the end of the text. -/
theorem ends_nil : Ends [] := by
  intro point h
  cases h

/-- A value may stand in front of a comma or a closing bracket. -/
theorem ends_cons {mark : CodePoint} (h : mark = char ',' ∨ mark = char ']' ∨ mark = char '}')
    (rest : Text) : Ends (mark :: rest) := by
  intro point hpoint
  cases hpoint
  exact h

/-- No digit follows a value. -/
theorem Ends.noDigit {rest : Text} (h : Ends rest) : NoDigit rest := by
  intro point hpoint
  rcases h point hpoint with rfl | rfl | rfl
  · rfl
  · rfl
  · rfl

/-- The first character behind a value is no other than these. -/
theorem Ends.not_mem {rest : Text} (h : Ends rest) {point : CodePoint}
    (hpoint : point ∈ rest.head?) {c : Char}
    (hc : char c ≠ char ',' ∧ char c ≠ char ']' ∧ char c ≠ char '}') : point ≠ char c := by
  intro heq
  rcases h point hpoint with hmark | hmark | hmark
  · exact hc.1 (heq.symm.trans hmark)
  · exact hc.2.1 (heq.symm.trans hmark)
  · exact hc.2.2 (heq.symm.trans hmark)

/-! ### Numbers -/

/-- The digits of a text stay the same when no digit is appended. -/
theorem takeWhile_dropWhile_append (text : Text) {rest : Text} (hrest : NoDigit rest) :
    (text ++ rest).takeWhile isDigit = text.takeWhile isDigit ∧
      (text ++ rest).dropWhile isDigit = text.dropWhile isDigit ++ rest := by
  induction text with
  | nil => exact takeWhile_isDigit_append (fun point h => by cases h) hrest
  | cons first text ih =>
    rw [List.cons_append, List.takeWhile_cons, List.dropWhile_cons, List.takeWhile_cons,
      List.dropWhile_cons]
    cases isDigit first with
    | true => exact ⟨congrArg _ ih.1, ih.2⟩
    | false => exact ⟨rfl, rfl⟩

/-- A scanned part of a number with the same part in front of more text. -/
def before (rest : Text) (scanned : Text × Text) : Text × Text := (scanned.1, scanned.2 ++ rest)

/-- What follows the number does not change the digits that are scanned. -/
theorem scanDigitsAfter_append (marks text : Text) {rest : Text} (hrest : NoDigit rest) :
    scanDigitsAfter marks (text ++ rest) = before rest (scanDigitsAfter marks text) := by
  obtain ⟨htake, hdrop⟩ := takeWhile_dropWhile_append text hrest
  rw [scanDigitsAfter, scanDigitsAfter, htake, hdrop]
  by_cases h : text.takeWhile isDigit = []
  · rw [if_pos h, if_pos h, before, List.append_assoc]
  · rw [if_neg h, if_neg h, before]

/-- What follows the number does not change its fraction. -/
theorem scanFraction_append (text : Text) {rest : Text} (h : Ends rest) :
    scanFraction (text ++ rest) = before rest (scanFraction text) := by
  cases text with
  | nil =>
    cases rest with
    | nil => rfl
    | cons mark rest =>
      have hmark : mark ≠ char '.' := h.not_mem rfl (by decide)
      rw [List.nil_append, scanFraction, if_neg hmark]
      rfl
  | cons point text =>
    rw [List.cons_append, scanFraction, scanFraction]
    by_cases hpoint : point = char '.'
    · rw [if_pos hpoint, if_pos hpoint, scanDigitsAfter_append _ _ h.noDigit]
    · rw [if_neg hpoint, if_neg hpoint]
      rfl

/-- What follows the number does not change its exponent. -/
theorem scanExponent_append (text : Text) {rest : Text} (h : Ends rest) :
    scanExponent (text ++ rest) = before rest (scanExponent text) := by
  match text with
  | [] =>
    match rest, h with
    | [], _ => rfl
    | [mark], _ => rfl
    | mark :: next :: rest, h =>
      have hlow : mark ≠ char 'e' := h.not_mem rfl (by decide)
      have hupper : mark ≠ char 'E' := h.not_mem rfl (by decide)
      rw [List.nil_append, scanExponent, if_neg (by rintro (h | h) <;> contradiction)]
      rfl
  | [mark] =>
    match rest, h with
    | [], _ => rfl
    | next :: rest, h =>
      have hplus : next ≠ char '+' := h.not_mem rfl (by decide)
      have hminus : next ≠ char '-' := h.not_mem rfl (by decide)
      have hdigits := scanDigitsAfter_append [mark] [] h.noDigit
      rw [List.nil_append] at hdigits
      show scanExponent (mark :: next :: rest) = before (next :: rest) ([], [mark])
      rw [scanExponent, if_neg (c := next = char '+' ∨ _) (by rintro (h | h) <;> contradiction),
        hdigits]
      split
      · rfl
      · rfl
  | mark :: sign :: text =>
    rw [List.cons_append, List.cons_append, scanExponent, scanExponent]
    have hrest := h.noDigit
    split
    · split
      · rw [scanDigitsAfter_append _ _ hrest]
      · rw [← List.cons_append, scanDigitsAfter_append _ _ hrest]
    · rfl

/-- What follows the number does not change its decimals. -/
theorem scanDecimals_append (text : Text) {rest : Text} (h : Ends rest) :
    scanDecimals (text ++ rest) = before rest (scanDecimals text) := by
  rw [scanDecimals, scanFraction_append text h]
  show ((scanFraction text).1 ++ (scanExponent ((scanFraction text).2 ++ rest)).1,
    (scanExponent ((scanFraction text).2 ++ rest)).2) = _
  rw [scanExponent_append _ h]
  rfl

/-- What follows the number does not change its integer part. -/
theorem scanInteger_append {text : Text} {integer : Text × Text}
    (h : scanInteger text = some integer) {rest : Text} (hrest : NoDigit rest) :
    scanInteger (text ++ rest) = some (before rest integer) := by
  cases text with
  | nil => cases h
  | cons first text =>
    obtain ⟨htake, hdrop⟩ := takeWhile_dropWhile_append text hrest
    rw [List.cons_append, scanInteger]
    rw [scanInteger] at h
    split at h
    · rename_i hzero
      cases h
      rw [if_pos hzero]
      rfl
    · rename_i hzero
      split at h
      · rename_i hdigit
        cases h
        rw [if_neg hzero, if_pos hdigit, htake, hdrop]
        rfl
      · cases h

/-- What follows the number does not change its sign. -/
theorem splitSign_append {text : Text} (h : text ≠ []) (rest : Text) :
    splitSign (text ++ rest) = before rest (splitSign text) := by
  cases text with
  | nil => exact absurd rfl h
  | cons first text =>
    rw [List.cons_append, splitSign, splitSign]
    split
    · rfl
    · rfl

/-- A number is scanned up to the mark behind it. -/
theorem scanNumber_append {text integer decimals left : Text}
    (h : scanNumber text = some (integer, decimals, left)) {rest : Text} (hrest : Ends rest) :
    scanNumber (text ++ rest) = some (integer, decimals, left ++ rest) := by
  have hne : text ≠ [] := by
    rintro rfl
    cases h
  obtain ⟨scanned, hscanned, heq⟩ := Option.map_eq_some_iff.mp h
  have hinteger := scanInteger_append hscanned hrest.noDigit
  rw [scanNumber, splitSign_append hne]
  show Option.map _ (scanInteger ((splitSign text).2 ++ rest)) = _
  rw [hinteger, Option.map_some]
  show some ((splitSign text).1 ++ scanned.1, scanDecimals (scanned.2 ++ rest)) = _
  rw [scanDecimals_append _ hrest]
  cases heq
  rfl

/-! A scanner takes its part off the front of the text. -/

/-- The scanned digits and the rest are the text. -/
theorem append_scanDigitsAfter (marks text : Text) :
    (scanDigitsAfter marks text).1 ++ (scanDigitsAfter marks text).2 = marks ++ text := by
  rw [scanDigitsAfter]
  by_cases h : text.takeWhile isDigit = []
  · rw [if_pos h, List.nil_append]
  · rw [if_neg h, List.append_assoc, List.takeWhile_append_dropWhile]

/-- The fraction and the rest are the text. -/
theorem append_scanFraction (text : Text) :
    (scanFraction text).1 ++ (scanFraction text).2 = text := by
  cases text with
  | nil => rfl
  | cons point text =>
    rw [scanFraction]
    split
    · exact append_scanDigitsAfter [point] text
    · rfl

/-- The exponent and the rest are the text. -/
theorem append_scanExponent (text : Text) :
    (scanExponent text).1 ++ (scanExponent text).2 = text := by
  match text with
  | [] => rfl
  | [mark] => rfl
  | mark :: sign :: text =>
    rw [scanExponent]
    split
    · split
      · exact append_scanDigitsAfter [mark, sign] text
      · exact append_scanDigitsAfter [mark] (sign :: text)
    · rfl

/-- The decimals and the rest are the text. -/
theorem append_scanDecimals (text : Text) :
    (scanDecimals text).1 ++ (scanDecimals text).2 = text := by
  have hfraction := append_scanFraction text
  have hexponent := append_scanExponent (scanFraction text).2
  show ((scanFraction text).1 ++ (scanExponent (scanFraction text).2).1) ++
    (scanExponent (scanFraction text).2).2 = text
  rw [List.append_assoc, hexponent, hfraction]

/-- The integer part and the rest are the text. -/
theorem append_scanInteger {text : Text} {integer : Text × Text}
    (h : scanInteger text = some integer) : integer.1 ++ integer.2 = text := by
  cases text with
  | nil => cases h
  | cons first text =>
    rw [scanInteger] at h
    split at h
    · cases h
      rfl
    · split at h
      · cases h
        show first :: (text.takeWhile isDigit ++ text.dropWhile isDigit) = first :: text
        rw [List.takeWhile_append_dropWhile]
      · cases h

/-- The sign and the rest are the text. -/
theorem append_splitSign (text : Text) : (splitSign text).1 ++ (splitSign text).2 = text := by
  cases text with
  | nil => rfl
  | cons first text =>
    rw [splitSign]
    split
    · rfl
    · rfl

/-- The parts of a number and the rest are the text. -/
theorem append_scanNumber {text integer decimals left : Text}
    (h : scanNumber text = some (integer, decimals, left)) :
    integer ++ decimals ++ left = text := by
  obtain ⟨scanned, hscanned, heq⟩ := Option.map_eq_some_iff.mp h
  have hinteger := append_scanInteger hscanned
  have hdecimals := append_scanDecimals scanned.2
  obtain ⟨rfl, hparts⟩ := Prod.mk.inj heq
  rw [hparts] at hdecimals
  show (splitSign text).1 ++ scanned.1 ++ decimals ++ left = text
  rw [List.append_assoc, List.append_assoc, hdecimals, hinteger, append_splitSign]

/-! ### Strings -/

/-- The digit of a number below 16 is read back. -/
theorem hexValue?_hexDigit {n : Nat} (h : n < 16) : hexValue? (Hex.hexDigit n) = some n := by
  rw [hexValue?, Hex.val_hexDigit h]
  by_cases hten : n < 10
  · rw [if_pos hten, if_pos (by omega)]
    congr 1
    omega
  · rw [if_neg hten, if_neg (by omega), if_pos (by omega)]
    congr 1
    omega

/-- The four digits of an escape. -/
theorem hexDigits_four (n : Nat) : Hex.hexDigits 4 n =
    [Hex.hexDigit (n / 16 / 16 / 16 % 16), Hex.hexDigit (n / 16 / 16 % 16),
      Hex.hexDigit (n / 16 % 16), Hex.hexDigit (n % 16)] := rfl

/-- The four digits of a `\u` escape are read back. -/
theorem hexFour_hexDigits {n : Nat} (h : n < 0x10000) :
    hexFour (Hex.hexDigit (n / 16 / 16 / 16 % 16)) (Hex.hexDigit (n / 16 / 16 % 16))
      (Hex.hexDigit (n / 16 % 16)) (Hex.hexDigit (n % 16)) = some n := by
  have hlt : ∀ k : Nat, k % 16 < 16 := fun k => Nat.mod_lt k (by omega)
  have hsum : ((n / 16 / 16 / 16 % 16 * 16 + n / 16 / 16 % 16) * 16 + n / 16 % 16) * 16 + n % 16 =
    n := by omega
  rw [hexFour, hexValue?_hexDigit (hlt _), hexValue?_hexDigit (hlt _), hexValue?_hexDigit (hlt _),
    hexValue?_hexDigit (hlt _)]
  exact congrArg some hsum

/-- No high surrogate stands right before a low one. -/
def NoPairs (text : Text) : Prop :=
  text.IsChain fun a b => ¬ (isHigh a.val = true ∧ isLow b.val = true)

/-- A quotation mark ends the string. -/
theorem scanString_quote (rest : Text) : scanString (char '"' :: rest) = some ([], rest) := by
  rw [scanString.eq_def]
  exact if_pos rfl

/-- A character that needs no escape stands for itself. -/
theorem scanString_plain {point : CodePoint} (hquote : point ≠ char '"')
    (hslash : point ≠ char '\\') (hspace : ¬ point.val < 32) (rest : Text) :
    scanString (point :: rest) = (scanString rest).map (consChar point) := by
  rw [scanString.eq_def]
  exact (if_neg hquote).trans ((if_pos hslash).trans (if_neg hspace))

/-- An escape of one letter stands for its character. -/
theorem scanString_short {mark point : CodePoint} (hreads : unescape mark = some point)
    (hunicode : mark ≠ char 'u') (rest : Text) :
    scanString (char '\\' :: mark :: rest) = (scanString rest).map (consChar point) := by
  have hshort : (unescape mark).bind (fun point => (scanString rest).map (consChar point)) =
      (scanString rest).map (consChar point) := by rw [hreads, Option.bind_some]
  rw [scanString.eq_def]
  exact (if_neg (by decide)).trans ((if_neg (by decide)).trans ((if_pos hunicode).trans hshort))

/-- The escape of a character that is no high surrogate. -/
theorem scanString_escape {a b c d : CodePoint} {n : Nat} (hfour : hexFour a b c d = some n)
    (hhigh : isHigh n = false) (rest : Text) :
    scanString (char '\\' :: char 'u' :: a :: b :: c :: d :: rest) =
      (scanString rest).map (consChar (Fin.ofNat _ n)) := by
  rw [scanString, if_neg (by decide), if_neg (by decide), if_neg (by decide)]
  simp only [hfour, hhigh]
  rfl

/-- The escapes of two surrogates join. -/
theorem scanString_escape_pair {a b c d a' b' c' d' : CodePoint} {n low : Nat}
    (hfour : hexFour a b c d = some n) (hhigh : isHigh n = true)
    (hfour' : hexFour a' b' c' d' = some low) (hlow : isLow low = true) (rest : Text) :
    scanString (char '\\' :: char 'u' :: a :: b :: c :: d ::
        char '\\' :: char 'u' :: a' :: b' :: c' :: d' :: rest) =
      (scanString rest).map (consChar (joinSurrogates n low)) := by
  rw [scanString, if_neg (by decide), if_neg (by decide), if_neg (by decide)]
  simp only [hfour, hhigh, hfour', hlow]
  rfl

/-- The text does not start with the escape of a low surrogate. -/
def NoLow (text : Text) : Prop :=
  ∀ a b c d after, text = char '\\' :: char 'u' :: a :: b :: c :: d :: after →
    ∃ n, hexFour a b c d = some n ∧ isLow n = false

/-- The escape of a high surrogate stands for itself when no low one follows. -/
theorem scanString_escape_high {a b c d : CodePoint} {n : Nat} (hfour : hexFour a b c d = some n)
    {rest : Text} (hrest : NoLow rest) :
    scanString (char '\\' :: char 'u' :: a :: b :: c :: d :: rest) =
      (scanString rest).map (consChar (Fin.ofNat _ n)) := by
  cases hhigh : isHigh n with
  | false => exact scanString_escape hfour hhigh rest
  | true =>
    rw [scanString, if_neg (by decide), if_neg (by decide), if_neg (by decide)]
    simp only [hfour, hhigh, if_true]
    split
    · rename_i slash mark a' b' c' d' after
      split
      · rename_i hmarks
        obtain ⟨rfl, rfl⟩ := hmarks
        obtain ⟨low, hlow, hnot⟩ := hrest a' b' c' d' after rfl
        simp only [hlow, hnot]
        rfl
      · rfl
    · rfl

/-- How a character stands in a string. -/
inductive Escaped (ensureAscii : Bool) (point : CodePoint) : Text → Prop where
  | plain (quote : point ≠ char '"') (slash : point ≠ char '\\') (space : 32 ≤ point.val) :
      Escaped ensureAscii point [point]
  | short {mark : CodePoint} (reads : unescape mark = some point) (unicode : mark ≠ char 'u') :
      Escaped ensureAscii point [char '\\', mark]
  | unicode (small : point.val < 0x10000)
      (ascii : ensureAscii = true ∨ isHigh point.val = false) :
      Escaped ensureAscii point (unicodeEscape point.val)
  | pair (ascii : ensureAscii = true) (large : 0x10000 ≤ point.val) :
      Escaped ensureAscii point
        (unicodeEscape (0xD800 + (point.val - 0x10000) / 0x400) ++
          unicodeEscape (0xDC00 + (point.val - 0x10000) % 0x400))

/-- A character is the one with its number. -/
theorem eq_ofNat_of_val {point : CodePoint} {n : Nat} (h : point.val = n) :
    point = Fin.ofNat _ n := by
  rw [← h]
  exact (Fin.ofNat_val_eq_self point).symm

/-- `escape` writes one of the spellings of a character. -/
theorem escaped_escape (ensureAscii : Bool) (point : CodePoint) :
    Escaped ensureAscii point (escape ensureAscii point) := by
  unfold escape
  split
  · rename_i h
    rcases h with rfl | rfl
    · exact .short (by decide) (by decide)
    · exact .short (by decide) (by decide)
  rename_i hmarks
  obtain ⟨hslash, hquote⟩ := not_or.mp hmarks
  split
  · rename_i h
    rw [eq_ofNat_of_val h]
    exact .short (by decide) (by decide)
  split
  · rename_i h
    rw [eq_ofNat_of_val h]
    exact .short (by decide) (by decide)
  split
  · rename_i h
    rw [eq_ofNat_of_val h]
    exact .short (by decide) (by decide)
  split
  · rename_i h
    rw [eq_ofNat_of_val h]
    exact .short (by decide) (by decide)
  split
  · rename_i h
    rw [eq_ofNat_of_val h]
    exact .short (by decide) (by decide)
  split
  · rename_i h
    have hhigh : isHigh point.val = false := by
      rw [isHigh, decide_eq_false_iff_not]
      omega
    exact .unicode (by omega) (.inr hhigh)
  rename_i hspace
  split
  · exact .plain hquote hslash (by omega)
  rename_i hascii
  have hensure : ensureAscii = true := by
    cases ensureAscii with
    | true => rfl
    | false => exact absurd (.inl rfl) hascii
  split
  · rename_i hsmall
    exact .unicode hsmall (.inl hensure)
  · rename_i hlarge
    exact .pair hensure (by omega)

/-- A text that does not begin with an escape does not go on with a low surrogate. -/
theorem noLow_cons {first : CodePoint} (h : first ≠ char '\\') (rest : Text) :
    NoLow (first :: rest) := by
  intro a b c d after heq
  exact absurd (List.cons.inj heq).1 h

/-- The character with the number of a character is this one. -/
theorem ofNat_val (point : CodePoint) : Fin.ofNat 0x110000 point.val = point :=
  Fin.ofNat_val_eq_self point

/-- The text of a character that is no low surrogate does not start with such an escape. -/
theorem noLow_escape {ensureAscii : Bool} {point : CodePoint} (h : isLow point.val = false)
    (rest : Text) : NoLow (escape ensureAscii point ++ rest) := by
  have hescaped := escaped_escape ensureAscii point
  generalize escape ensureAscii point = spelled at hescaped
  cases hescaped with
  | plain _ hslash _ => exact noLow_cons hslash rest
  | @short mark _ hunicode =>
    intro a b c d after heq
    exact absurd (List.cons.inj (List.cons.inj heq).2).1 hunicode
  | unicode hsmall _ =>
    intro a b c d after heq
    rw [unicodeEscape, hexDigits_four] at heq
    cases heq
    exact ⟨point.val, hexFour_hexDigits hsmall, h⟩
  | pair _ hlarge =>
    have hpoint := point.isLt
    intro a b c d after heq
    rw [unicodeEscape, hexDigits_four] at heq
    cases heq
    refine ⟨_, hexFour_hexDigits (by omega), ?_⟩
    rw [isLow, decide_eq_false_iff_not]
    omega

/-- A character reads back, unless it is a high surrogate in front of a low one. -/
theorem scanString_escape_append {ensureAscii : Bool} {point : CodePoint} {rest : Text}
    (h : ensureAscii = true → isHigh point.val = true → NoLow rest) :
    scanString (escape ensureAscii point ++ rest) =
      (scanString rest).map (consChar point) := by
  have hescaped := escaped_escape ensureAscii point
  generalize escape ensureAscii point = spelled at hescaped
  cases hescaped with
  | plain hquote hslash hspace =>
    exact scanString_plain hquote hslash (by omega) rest
  | @short mark hreads hunicode =>
    exact scanString_short hreads hunicode rest
  | unicode hsmall hascii =>
    rw [unicodeEscape, hexDigits_four]
    have hread : scanString (char '\\' :: char 'u' :: Hex.hexDigit (point.val / 16 / 16 / 16 % 16)
        :: Hex.hexDigit (point.val / 16 / 16 % 16) :: Hex.hexDigit (point.val / 16 % 16)
        :: Hex.hexDigit (point.val % 16) :: rest) =
        (scanString rest).map (consChar (Fin.ofNat _ point.val)) := by
      cases hhigh : isHigh point.val with
      | false => exact scanString_escape (hexFour_hexDigits hsmall) hhigh rest
      | true =>
        rcases hascii with hascii | hnot
        · exact scanString_escape_high (hexFour_hexDigits hsmall) (h hascii hhigh)
        · rw [hnot] at hhigh
          cases hhigh
    rw [ofNat_val] at hread
    exact hread
  | pair _ hlarge =>
    have hpoint := point.isLt
    have hhigh : isHigh (0xD800 + (point.val - 0x10000) / 0x400) = true := by
      rw [isHigh, decide_eq_true_iff]
      omega
    have hlow : isLow (0xDC00 + (point.val - 0x10000) % 0x400) = true := by
      rw [isLow, decide_eq_true_iff]
      omega
    have hjoin : joinSurrogates (0xD800 + (point.val - 0x10000) / 0x400)
        (0xDC00 + (point.val - 0x10000) % 0x400) = point := by
      have hval : 0x10000 + (0xD800 + (point.val - 0x10000) / 0x400 - 0xD800) * 0x400 +
          (0xDC00 + (point.val - 0x10000) % 0x400 - 0xDC00) = point.val := by omega
      rw [joinSurrogates, hval, ofNat_val]
    rw [unicodeEscape, unicodeEscape, hexDigits_four, hexDigits_four]
    have hread := scanString_escape_pair (hexFour_hexDigits (by omega)) hhigh
      (hexFour_hexDigits (by omega)) hlow rest
    rw [hjoin] at hread
    exact hread

/-- The text of a string reads back up to its closing quote. -/
theorem scanString_flatMap {ensureAscii : Bool} {text : Text}
    (h : ensureAscii = true → NoPairs text) (rest : Text) :
    scanString (text.flatMap (escape ensureAscii) ++ char '"' :: rest) = some (text, rest) := by
  induction text with
  | nil =>
    exact scanString_quote rest
  | cons point text ih =>
    rw [List.flatMap_cons, List.append_assoc, scanString_escape_append, ih]
    · rfl
    · intro hensure
      exact (h hensure).tail
    · intro hensure hhigh
      cases text with
      | nil => exact noLow_cons (by decide) rest
      | cons next text =>
        have hpair := (List.isChain_cons_cons.mp (h hensure)).1
        have hlow : isLow next.val = false := by
          cases hlow : isLow next.val with
          | false => rfl
          | true => exact absurd ⟨hhigh, hlow⟩ hpair
        rw [List.flatMap_cons, List.append_assoc]
        exact noLow_escape hlow _

/-- A quoted text in front of another one. -/
theorem quote_append (ensureAscii : Bool) (text rest : Text) :
    quote ensureAscii text ++ rest =
      char '"' :: (text.flatMap (escape ensureAscii) ++ char '"' :: rest) := by
  show char '"' :: ((text.flatMap (escape ensureAscii) ++ [char '"']) ++ rest) = _
  rw [List.append_assoc, List.singleton_append]

/-! ### Arrays and objects -/

/-- The text starts with no space, closing bracket or byte order mark. -/
def Starts (text : Text) : Prop :=
  ∃ first rest, text = first :: rest ∧ isSpace first = false ∧ first ≠ char ']' ∧
    first ≠ char '}' ∧ first.val ≠ 0xFEFF

/-- A character that is no space is not skipped. -/
theorem skipSpace_cons {first : CodePoint} (h : isSpace first = false) (rest : Text) :
    skipSpace (first :: rest) = first :: rest := by
  rw [skipSpace, List.dropWhile_cons, h]
  rfl

/-- In front of a value nothing is skipped. -/
theorem Starts.skipSpace_append {text : Text} (h : Starts text) (rest : Text) :
    skipSpace (text ++ rest) = text ++ rest := by
  obtain ⟨first, tail, rfl, hspace, _⟩ := h
  exact skipSpace_cons hspace (tail ++ rest)

/-- A value is not empty. -/
theorem Starts.length_pos {text : Text} (h : Starts text) : 0 < text.length := by
  obtain ⟨first, tail, rfl, _⟩ := h
  exact Nat.succ_pos _

/-- The closing brackets. -/
def IsClose (close : CodePoint) : Prop := close = char ']' ∨ close = char '}'

/-- A closing bracket is no space. -/
theorem IsClose.not_space {close : CodePoint} (h : IsClose close) : isSpace close = false := by
  rcases h with rfl | rfl
  · rfl
  · rfl

/-- A value may stand in front of a closing bracket. -/
theorem IsClose.ends {close : CodePoint} (h : IsClose close) (rest : Text) :
    Ends (close :: rest) := ends_cons (.inr h) rest

section
variable {α : Type}

/-- The text is one of the value, whatever ends the element. -/
structure Reads (element : Text → Option (α × Text)) (value : α) (text : Text) : Prop where
  starts : Starts text
  reads : ∀ rest, Ends rest → element (text ++ rest) = some (value, rest)

/-- A comma stands between two texts. -/
theorem commas_cons_cons (text next : Text) (texts : List Text) :
    commas (text :: next :: texts) = text ++ char ',' :: commas (next :: texts) := rfl

/-- A single text stands without a comma. -/
theorem commas_singleton (text : Text) : commas [text] = text := List.append_nil text

/-- Every element takes a character. -/
theorem length_le_commas {element : Text → Option (α × Text)} {values : List α}
    {texts : List Text} (h : List.Forall₂ (Reads element) values texts) :
    values.length ≤ (commas texts).length := by
  induction h with
  | nil => exact Nat.le_refl _
  | @cons value text values texts hreads htail ih =>
    have hpos := hreads.starts.length_pos
    cases htail with
    | nil =>
      rw [commas_singleton]
      exact hpos
    | @cons value' text' values texts hreads' htail =>
      rw [commas_cons_cons, List.length_append]
      simp only [List.length_cons] at ih ⊢
      omega

/-- The loop over the elements: each round reads one, and the mark behind it decides. -/
theorem scanSeparated_commas {close : CodePoint} (hclose : IsClose close)
    {element : Text → Option (α × Text)} {values : List α} {texts : List Text}
    (h : List.Forall₂ (Reads element) values texts) (hne : values ≠ []) (rest : Text)
    {rounds : Nat} (hrounds : values.length ≤ rounds) :
    scanSeparated close element rounds (commas texts ++ close :: rest) = some (values, rest) := by
  induction h generalizing rounds with
  | nil => exact absurd rfl hne
  | @cons value text values texts hreads htail ih =>
    cases rounds with
    | zero => cases hrounds
    | succ rounds =>
      rw [scanSeparated]
      cases htail with
      | nil =>
        rw [commas_singleton, hreads.reads _ (hclose.ends rest), Option.bind_some,
          skipSpace_cons hclose.not_space]
        exact if_pos rfl
      | @cons value' text' values texts hreads' htail =>
        have hmore := ih (List.cons_ne_nil _ _) (Nat.le_of_succ_le_succ hrounds)
        have hcomma : char ',' ≠ close := by
          rcases hclose with rfl | rfl
          · decide
          · decide
        have hstarts : Starts (commas (text' :: texts)) := by
          obtain ⟨first, tail, rfl, hfirst⟩ := hreads'.starts
          cases texts with
          | nil => exact ⟨first, _, rfl, hfirst⟩
          | cons next texts => exact ⟨first, _, rfl, hfirst⟩
        rw [commas_cons_cons, List.append_assoc, List.cons_append,
          hreads.reads _ (ends_cons (.inl rfl) _), Option.bind_some,
          skipSpace_cons (by decide)]
        show (if char ',' = close then _ else if char ',' = char ',' then
          (scanSeparated close element rounds (skipSpace _)).map _ else _) = _
        rw [if_neg hcomma, if_pos rfl, hstarts.skipSpace_append, hmore]
        rfl

/-- The texts of the elements between two brackets read back. -/
theorem scanEnclosed_commas {close : CodePoint} (hclose : IsClose close)
    {element : Text → Option (α × Text)} {values : List α} {texts : List Text}
    (h : List.Forall₂ (Reads element) values texts) (rest : Text) :
    scanEnclosed close element (commas texts ++ close :: rest) = some (values, rest) := by
  cases h with
  | nil =>
    show scanEnclosed close element (close :: rest) = _
    rw [scanEnclosed, skipSpace_cons hclose.not_space]
    exact if_pos rfl
  | @cons value text values texts hreads htail =>
    have hall := List.Forall₂.cons hreads htail
    obtain ⟨first, tail, htext, hspace, hbracket, hbrace, _⟩ := hreads.starts
    have hfirst : ∃ more, commas (text :: texts) = first :: more := by
      rw [htext]
      cases texts with
      | nil => exact ⟨_, rfl⟩
      | cons next texts => exact ⟨_, rfl⟩
    obtain ⟨more, hmore⟩ := hfirst
    have hlength := length_le_commas hall
    have hskip : skipSpace (commas (text :: texts) ++ close :: rest) =
        commas (text :: texts) ++ close :: rest := by
      rw [hmore]
      exact skipSpace_cons hspace _
    have hopen : ¬ (commas (text :: texts) ++ close :: rest).head? = some close := by
      rw [hmore]
      intro heq
      have heq : first = close := Option.some.inj heq
      rcases hclose with rfl | rfl
      · exact hbracket heq
      · exact hbrace heq
    have hlong : (value :: values).length ≤
        (commas (text :: texts) ++ close :: rest).length + 1 := by
      rw [List.length_append]
      omega
    rw [scanEnclosed, hskip]
    exact (if_neg hopen).trans (scanSeparated_commas hclose hall (List.cons_ne_nil _ _) rest hlong)

/-- A member reads back when its value does. -/
theorem reads_member {ensureAscii : Bool} {value : Text → Option (α × Text)} {key : Text} {item : α}
    {text : Text} (hkey : ensureAscii = true → NoPairs key) (h : Reads value item text) :
    Reads (scanMember value) (key, item) (member ensureAscii (key, text)) := by
  constructor
  · exact ⟨_, _, rfl, by decide⟩
  · intro rest hrest
    rw [member, List.append_assoc, quote_append, scanMember, if_neg (by simp),
      scanString_flatMap hkey, Option.bind_some, List.cons_append,
      skipSpace_cons (by decide)]
    show (if char ':' ≠ char ':' then none else
      (value (skipSpace (text ++ rest))).map _) = _
    rw [if_neg (by simp), h.starts.skipSpace_append, h.reads rest hrest]
    rfl

/-- A new key goes to the end. -/
theorem setMember_of_notMem {key : Text} {value : α} {members : List (Text × α)}
    (h : key ∉ members.map Prod.fst) : setMember key value members = members ++ [(key, value)] := by
  induction members with
  | nil => rfl
  | cons first members ih =>
    rw [List.map_cons, List.mem_cons, not_or] at h
    rw [setMember, if_neg (Ne.symm h.1), ih h.2, List.cons_append]

/-- Members with distinct keys are a `dict` already. -/
theorem dictOf_of_nodup {members : List (Text × α)} (h : (members.map Prod.fst).Nodup) :
    dictOf members = members := by
  have hloop : ∀ pairs before : List (Text × α), ((before ++ pairs).map Prod.fst).Nodup →
      pairs.foldl (fun members pair => setMember pair.1 pair.2 members) before =
        before ++ pairs := by
    intro pairs
    induction pairs with
    | nil =>
      intro before _
      exact (List.append_nil before).symm
    | cons pair pairs ih =>
      intro before hnodup
      have hnew : pair.1 ∉ before.map Prod.fst := by
        rw [List.map_append, List.map_cons] at hnodup
        intro hmem
        exact (List.nodup_append.mp hnodup).2.2 _ hmem _ List.mem_cons_self rfl
      have happend : before ++ pair :: pairs = (before ++ [pair]) ++ pairs := by
        rw [List.append_assoc, List.singleton_append]
      rw [List.foldl_cons, setMember_of_notMem hnew]
      rw [happend] at hnodup ⊢
      exact ih (before ++ [pair]) hnodup
  exact hloop members [] h

end

/-! ### Documents -/

mutual
/-- How deep arrays and objects nest. -/
def nesting : Document → Nat
  | .arr items => nestingItems items + 1
  | .obj members => nestingMembers members + 1
  | _ => 0

/-- The deepest of the items. -/
def nestingItems : List Document → Nat
  | [] => 0
  | item :: items => max (nesting item) (nestingItems items)

/-- The deepest of the members. -/
def nestingMembers : Members → Nat
  | [] => 0
  | (_, value) :: members => max (nesting value) (nestingMembers members)
end

mutual
/-- The document with the members of its objects in the order of their keys. -/
def canonical : Document → Document
  | .arr items => .arr (canonicalItems items)
  | .obj members => .obj (sortKeys (canonicalMembers members))
  | document => document

/-- `canonical` of each item. -/
def canonicalItems : List Document → List Document
  | [] => []
  | item :: items => canonical item :: canonicalItems items

/-- `canonical` of the value of each member. -/
def canonicalMembers : Members → Members
  | [] => []
  | (key, value) :: members => (key, canonical value) :: canonicalMembers members
end

/-- The keys stand in their order. -/
def KeysSorted {α : Type} (members : List (Text × α)) : Prop :=
  members.Pairwise fun a b => ¬ b.1 < a.1

/-- What a document needs of its own for its text to read back: its integer is short enough to be
read, its keys are distinct, and, where the text is ASCII, its texts have no pair of
surrogates. -/
def Plain (ensureAscii : Bool) : Document → Prop
  | .int n => (natText n.natAbs).length ≤ maxStrDigits
  | .str text => ensureAscii = true → NoPairs text
  | .obj members => (Document.keys members).Nodup ∧
      (ensureAscii = true → ∀ key ∈ Document.keys members, NoPairs key)
  | _ => True

/-- Every part of the document is plain. -/
abbrev Loadable (ensureAscii : Bool) : Document → Prop := Document.Everywhere (Plain ensureAscii)

/-- The keys of the object stand in their order. -/
def InOrder : Document → Prop
  | .obj members => KeysSorted members
  | _ => True

/-- An integer with a length that Python converts is read back. -/
theorem readInt_intText {n : Int} (h : (natText n.natAbs).length ≤ maxStrDigits) :
    readInt (intText n) = some n := by
  cases n with
  | ofNat n =>
    have hlimit : ¬ maxStrDigits < (natText n).length := Nat.not_lt.mpr h
    have hsign := splitSign_natText n []
    rw [List.append_nil] at hsign
    rw [readInt, intText, hsign]
    show (if maxStrDigits < (natText n).length then none else some (readNat (natText n) : Int)) = _
    rw [if_neg hlimit, readNat_natText]
    rfl
  | negSucc n =>
    have hlimit : ¬ maxStrDigits < (natText (n + 1)).length := Nat.not_lt.mpr h
    rw [readInt, intText, splitSign, if_pos rfl]
    show (if maxStrDigits < (natText (n + 1)).length then none
      else some (-(readNat (natText (n + 1)) : Int))) = _
    rw [if_neg hlimit, readNat_natText]
    rfl

/-- A number starts with a digit, or with a sign and a digit. -/
theorem number_cases {text integer decimals left : Text}
    (h : scanNumber text = some (integer, decimals, left)) :
    (∃ first rest, text = first :: rest ∧ isDigit first = true) ∨
      ∃ first rest, text = char '-' :: first :: rest ∧ isDigit first = true := by
  have hdigit : ∀ {text : Text} {integer : Text × Text}, scanInteger text = some integer →
      ∃ first rest, text = first :: rest ∧ isDigit first = true := by
    intro text integer h
    cases text with
    | nil => cases h
    | cons first text =>
      refine ⟨first, text, rfl, ?_⟩
      rw [scanInteger] at h
      split at h
      · rename_i hzero
        rw [hzero]
        rfl
      · split at h
        · rename_i hfirst
          exact hfirst
        · cases h
  obtain ⟨scanned, hscanned, _⟩ := Option.map_eq_some_iff.mp h
  obtain ⟨first, rest, hrest, hfirst⟩ := hdigit hscanned
  cases text with
  | nil => cases h
  | cons head text =>
    rw [splitSign] at hrest
    split at hrest
    · rename_i hminus
      rw [hminus]
      exact .inr ⟨first, rest, congrArg _ hrest, hfirst⟩
    · exact .inl ⟨first, rest, hrest, hfirst⟩

/-- A literal with another first character does not match. -/
theorem dropPrefix?_of_ne {first mark : CodePoint} (h : first ≠ mark) (rest tail : Text) :
    (first :: rest).dropPrefix? (mark :: tail) = none := by
  rw [List.dropPrefix?, beq_eq_false_iff_ne.mpr h]
  rfl

/-- A literal matches in front of any text. -/
theorem dropPrefix?_append (prefixed rest : Text) :
    (prefixed ++ rest).dropPrefix? prefixed = some rest := by
  induction prefixed with
  | nil =>
    cases rest with
    | nil => rfl
    | cons first rest => rfl
  | cons first prefixed ih =>
    rw [List.cons_append, List.dropPrefix?, beq_self_eq_true]
    exact ih

/-- The first literal of the table that a text starts with. -/
theorem scanLiteral_of_split {name : String} {value : Document}
    (earlier : List (String × Document)) {later : List (String × Document)}
    (hsplit : literals = earlier ++ (name, value) :: later) {rest : Text}
    (hearlier : ∀ entry ∈ earlier, (ofString name ++ rest).dropPrefix? (ofString entry.1) = none) :
    scanLiteral (ofString name ++ rest) = some (value, rest) := by
  have hnone : earlier.findSome? (fun entry =>
      ((ofString name ++ rest).dropPrefix? (ofString entry.1)).map fun rest => (entry.2, rest)) =
        none := by
    rw [List.findSome?_eq_none_iff]
    intro entry hentry
    rw [hearlier entry hentry]
    rfl
  rw [scanLiteral, hsplit, List.findSome?_append, hnone, List.findSome?_cons,
    dropPrefix?_append]
  rfl

/-- A digit is none of the other characters. -/
theorem digit_ne {first : CodePoint} (h : isDigit first = true) {c : Char}
    (hc : isDigit (char c) = false) : first ≠ char c := by
  rintro rfl
  rw [h] at hc
  cases hc

/-- No number starts with a literal. -/
theorem scanLiteral_of_digit {text : Text}
    (h : (∃ first rest, text = first :: rest ∧ isDigit first = true) ∨
      ∃ first rest, text = char '-' :: first :: rest ∧ isDigit first = true) :
    scanLiteral text = none := by
  rw [scanLiteral, List.findSome?_eq_none_iff]
  intro entry hentry
  rw [Option.map_eq_none_iff]
  rcases h with ⟨first, rest, rfl, hfirst⟩ | ⟨first, rest, rfl, hfirst⟩
  · rcases List.mem_cons.mp hentry with rfl | hentry
    · exact dropPrefix?_of_ne (digit_ne hfirst (by decide)) _ _
    rcases List.mem_cons.mp hentry with rfl | hentry
    · exact dropPrefix?_of_ne (digit_ne hfirst (by decide)) _ _
    rcases List.mem_cons.mp hentry with rfl | hentry
    · exact dropPrefix?_of_ne (digit_ne hfirst (by decide)) _ _
    rcases List.mem_cons.mp hentry with rfl | hentry
    · exact dropPrefix?_of_ne (digit_ne hfirst (by decide)) _ _
    rcases List.mem_cons.mp hentry with rfl | hentry
    · exact dropPrefix?_of_ne (digit_ne hfirst (by decide)) _ _
    rw [List.mem_singleton.mp hentry]
    exact dropPrefix?_of_ne (digit_ne hfirst (by decide)) _ _
  · rcases List.mem_cons.mp hentry with rfl | hentry
    · exact dropPrefix?_of_ne (by decide) _ _
    rcases List.mem_cons.mp hentry with rfl | hentry
    · exact dropPrefix?_of_ne (by decide) _ _
    rcases List.mem_cons.mp hentry with rfl | hentry
    · exact dropPrefix?_of_ne (by decide) _ _
    rcases List.mem_cons.mp hentry with rfl | hentry
    · exact dropPrefix?_of_ne (by decide) _ _
    rcases List.mem_cons.mp hentry with rfl | hentry
    · exact dropPrefix?_of_ne (by decide) _ _
    -- the sign of the last literal is read, and the digit behind it is not
    rw [List.mem_singleton.mp hentry]
    have htail := dropPrefix?_of_ne (digit_ne hfirst (c := 'I') (by decide)) rest
      (ofString "nfinity")
    exact htail

section
variable {floats : FloatText}

/-- A quotation mark begins a string. -/
theorem scanOnce_quote (depth : Nat) (rest : Text) :
    scanOnce floats depth (char '"' :: rest) =
      (scanString rest).map fun scanned => (.str scanned.1, scanned.2) := by
  rw [scanOnce.eq_def]
  exact if_pos rfl

/-- A brace begins an object. -/
theorem scanOnce_brace (depth : Nat) (rest : Text) :
    scanOnce floats (depth + 1) (char '{' :: rest) =
      (scanEnclosed (char '}') (scanMember (scanOnce floats depth)) rest).map fun scanned =>
        (.obj (dictOf scanned.1), scanned.2) := by
  rw [scanOnce.eq_def]
  exact (if_neg (by decide)).trans (if_pos rfl)

/-- A bracket begins an array. -/
theorem scanOnce_bracket (depth : Nat) (rest : Text) :
    scanOnce floats (depth + 1) (char '[' :: rest) =
      (scanEnclosed (char ']') (scanOnce floats depth) rest).map fun scanned =>
        (.arr scanned.1, scanned.2) := by
  rw [scanOnce.eq_def]
  exact (if_neg (by decide)).trans ((if_neg (by decide)).trans (if_pos rfl))

/-- The marks that start a string, an object or an array. -/
def IsOpen (first : CodePoint) : Prop := first = char '"' ∨ first = char '{' ∨ first = char '['

/-- What else begins a literal is read as one. -/
theorem scanOnce_literal {first : CodePoint} (hfirst : ¬ IsOpen first) {rest : Text}
    {scanned : Document × Text} (h : scanLiteral (first :: rest) = some scanned) (depth : Nat) :
    scanOnce floats depth (first :: rest) = some scanned := by
  obtain ⟨hquote, hbrace, hbracket⟩ := by simpa only [IsOpen, not_or] using hfirst
  rw [scanOnce.eq_def]
  simp only [if_neg hquote, if_neg hbrace, if_neg hbracket, h]

/-- What begins none of the other values is read as a number. -/
theorem scanOnce_numeral {first : CodePoint} (hfirst : ¬ IsOpen first) {rest : Text}
    (h : scanLiteral (first :: rest) = none) (depth : Nat) :
    scanOnce floats depth (first :: rest) = scanNumeral floats (first :: rest) := by
  obtain ⟨hquote, hbrace, hbracket⟩ := by simpa only [IsOpen, not_or] using hfirst
  rw [scanOnce.eq_def]
  simp only [if_neg hquote, if_neg hbrace, if_neg hbracket, h]

/-- A digit opens neither a string nor an array or object. -/
theorem not_isOpen_of_digit {first : CodePoint} (h : isDigit first = true) : ¬ IsOpen first := by
  rintro (heq | heq | heq)
  · exact digit_ne h (by decide) heq
  · exact digit_ne h (by decide) heq
  · exact digit_ne h (by decide) heq

/-- A number is read by `scanNumeral`. -/
theorem scanOnce_number {text integer decimals left : Text}
    (h : scanNumber text = some (integer, decimals, left)) {rest : Text} (hrest : Ends rest)
    (depth : Nat) : scanOnce floats depth (text ++ rest) = scanNumeral floats (text ++ rest) := by
  have hcases := number_cases (scanNumber_append h hrest)
  have hliteral := scanLiteral_of_digit hcases
  rcases hcases with ⟨first, more, htext, hfirst⟩ | ⟨first, more, htext, _⟩
  · rw [htext] at hliteral ⊢
    exact scanOnce_numeral (not_isOpen_of_digit hfirst) hliteral depth
  · rw [htext] at hliteral ⊢
    exact scanOnce_numeral (by unfold IsOpen; decide) hliteral depth

/-- A number is the start of a value. -/
theorem starts_of_scanNumber {text integer decimals left : Text}
    (h : scanNumber text = some (integer, decimals, left)) : Starts text := by
  rcases number_cases h with ⟨first, rest, rfl, hfirst⟩ | ⟨first, rest, rfl, _⟩
  · have hdigit := hfirst
    rw [isDigit, decide_eq_true_iff] at hdigit
    have hspace : isSpace first = false := by
      rw [isSpace, decide_eq_false_iff_not]
      omega
    exact ⟨first, rest, rfl, hspace, digit_ne hfirst (by decide), digit_ne hfirst (by decide),
      by omega⟩
  · exact ⟨_, _, rfl, by decide⟩

/-- The text of an integer is read back. -/
theorem reads_int {n : Int} (h : (natText n.natAbs).length ≤ maxStrDigits) (depth : Nat) :
    Reads (scanOnce floats depth) (.int n) (intText n) := by
  have hscan : scanNumber (intText n) = some (intText n, [], []) := by
    have hscan := scanNumber_intText n ends_nil.noDigit
    rw [List.append_nil] at hscan
    exact hscan
  constructor
  · exact starts_of_scanNumber hscan
  · intro rest hrest
    rw [scanOnce_number hscan hrest, scanNumeral, scanNumber_append hscan hrest, Option.bind_some]
    show (readInt (intText n)).map _ = _
    rw [readInt_intText h]
    rfl

/-- The text of a finite float is read back. -/
theorem reads_float {bits : UInt64} (h : isFinite bits = true) (depth : Nat) :
    Reads (scanOnce floats depth) (.float bits) (floats.repr bits) := by
  obtain ⟨integer, decimals, hscan, hdecimals⟩ := floats.scanNumber_repr h
  have happend := append_scanNumber hscan
  rw [List.append_nil] at happend
  constructor
  · exact starts_of_scanNumber hscan
  · intro rest hrest
    rw [scanOnce_number hscan hrest, scanNumeral, scanNumber_append hscan hrest, Option.bind_some]
    show (if decimals = [] then _ else some (Document.float (floats.read (integer ++ decimals)),
      [] ++ rest)) = _
    rw [if_neg hdecimals, happend, floats.read_repr h]
    rfl

/-- A quoted text is read back. -/
theorem reads_str {ensureAscii : Bool} {text : Text} (h : ensureAscii = true → NoPairs text)
    (depth : Nat) : Reads (scanOnce floats depth) (.str text) (quote ensureAscii text) := by
  constructor
  · exact ⟨_, _, rfl, by decide⟩
  · intro rest _
    rw [quote_append, scanOnce_quote, scanString_flatMap h]
    rfl

/-- A literal reads back. -/
theorem reads_literal {name : String} {value : Document} {first : CodePoint} {tail : Text}
    (hname : ofString name = first :: tail)
    (hstarts : isSpace first = false ∧ first ≠ char ']' ∧ first ≠ char '}' ∧ first.val ≠ 0xFEFF)
    (hfirst : ¬ IsOpen first)
    (h : ∀ rest, scanLiteral (ofString name ++ rest) = some (value, rest)) (depth : Nat) :
    Reads (scanOnce floats depth) value (ofString name) := by
  constructor
  · exact ⟨first, tail, hname, hstarts⟩
  · intro rest _
    have hscan := h rest
    rw [hname, List.cons_append] at hscan ⊢
    exact scanOnce_literal hfirst hscan depth

/-- `null` is read back. -/
theorem reads_null (depth : Nat) :
    Reads (scanOnce floats depth) .null (ofString "null") := by
  refine reads_literal rfl (by decide) (by unfold IsOpen; decide) ?_ depth
  intro rest
  exact scanLiteral_of_split [] rfl (by rintro _ ⟨⟩)

/-- `true` is read back. -/
theorem reads_true (depth : Nat) :
    Reads (scanOnce floats depth) (.bool true) (ofString "true") := by
  refine reads_literal rfl (by decide) (by unfold IsOpen; decide) ?_ depth
  intro rest
  refine scanLiteral_of_split [("null", .null)] rfl ?_
  intro entry hentry
  rw [List.mem_singleton.mp hentry]
  rfl

/-- `false` is read back. -/
theorem reads_false (depth : Nat) :
    Reads (scanOnce floats depth) (.bool false) (ofString "false") := by
  refine reads_literal rfl (by decide) (by unfold IsOpen; decide) ?_ depth
  intro rest
  refine scanLiteral_of_split [("null", .null), ("true", .bool true)] rfl ?_
  intro entry hentry
  rcases List.mem_cons.mp hentry with rfl | hentry
  · rfl
  · rw [List.mem_singleton.mp hentry]
    rfl

end

/-! ### Key order -/

/-- `sort_keys` sorts. -/
theorem keysSorted_sortKeys {α : Type} (members : List (Text × α)) :
    KeysSorted (sortKeys members) := by
  have : Std.Total fun a b : Text × α => ¬ b.1 < a.1 := ⟨fun a b => by
    rw [not_lt, not_lt]
    exact le_total a.1 b.1⟩
  have : IsTrans (Text × α) fun a b => ¬ b.1 < a.1 := ⟨fun a b c hab hbc => by
    rw [not_lt] at hab hbc ⊢
    exact le_trans hab hbc⟩
  exact List.pairwise_insertionSort _ members

/-- Sorted members stay as they are. -/
theorem sortKeys_of_keysSorted {α : Type} {members : List (Text × α)} (h : KeysSorted members) :
    sortKeys members = members := List.Pairwise.insertionSort_eq h

/-- `sort_keys` keeps the members. -/
theorem sortKeys_perm {α : Type} (members : List (Text × α)) : (sortKeys members).Perm members :=
  List.perm_insertionSort _ members

/-- Lists with the same keys are sorted alike. -/
theorem forall₂_sortKeys {α β : Type} {R : Text × α → Text × β → Prop}
    (hkey : ∀ {a b}, R a b → a.1 = b.1) {members : List (Text × α)} {entries : List (Text × β)}
    (h : List.Forall₂ R members entries) :
    List.Forall₂ R (sortKeys members) (sortKeys entries) := by
  have hinsert : ∀ {a b}, R a b → ∀ {members entries}, List.Forall₂ R members entries →
      List.Forall₂ R (members.orderedInsert (fun a b => ¬ b.1 < a.1) a)
        (entries.orderedInsert (fun a b => ¬ b.1 < a.1) b) := by
    intro a b hab members entries h
    induction h with
    | nil => exact .cons hab .nil
    | @cons c d members entries hcd htail ih =>
      rw [List.orderedInsert_cons, List.orderedInsert_cons, hkey hab, hkey hcd]
      split
      · exact .cons hab (.cons hcd htail)
      · exact .cons hcd ih
  induction h with
  | nil => exact .nil
  | cons hab _ ih => exact hinsert hab ih

/-- Members are sorted when their keys are. -/
theorem keysSorted_iff {α : Type} {members : List (Text × α)} :
    KeysSorted members ↔ (members.map Prod.fst).Pairwise fun a b => ¬ b < a := by
  rw [List.pairwise_map]
  exact Iff.rfl

/-- Members that correspond have the same keys. -/
theorem keys_eq_of_forall₂ {α β : Type} {R : Text × α → Text × β → Prop}
    (hkey : ∀ {a b}, R a b → a.1 = b.1) {members : List (Text × α)} {entries : List (Text × β)}
    (h : List.Forall₂ R members entries) : members.map Prod.fst = entries.map Prod.fst := by
  induction h with
  | nil => rfl
  | cons hab _ ih => rw [List.map_cons, List.map_cons, hkey hab, ih]

/-- The members read back when their values do. -/
theorem reads_members {α : Type} {ensureAscii : Bool} {value : Text → Option (α × Text)}
    {members : List (Text × α)} {entries : List (Text × Text)}
    (h : List.Forall₂ (fun member entry => member.1 = entry.1 ∧
      Reads value member.2 entry.2) members entries)
    (hkeys : ensureAscii = true → ∀ key ∈ members.map Prod.fst, NoPairs key) :
    List.Forall₂ (Reads (scanMember value)) members (entries.map (member ensureAscii)) := by
  induction h with
  | nil => exact .nil
  | @cons entry text members entries hentry htail ih =>
    obtain ⟨key, item⟩ := entry
    obtain ⟨key', text⟩ := text
    obtain ⟨rfl, hread⟩ := hentry
    rw [List.map_cons]
    refine .cons (reads_member ?_ hread) (ih ?_)
    · intro hensure
      exact hkeys hensure key List.mem_cons_self
    · intro hensure other hother
      exact hkeys hensure other (List.mem_cons_of_mem _ hother)

/-! ### The canonical document -/

/-- The canonical items, one by one. -/
theorem canonicalItems_eq_map (items : List Document) :
    canonicalItems items = items.map canonical := by
  induction items with
  | nil => rfl
  | cons item items ih => rw [canonicalItems, List.map_cons, ih]

/-- The canonical members, one by one. -/
theorem canonicalMembers_eq_map (members : Members) :
    canonicalMembers members = members.map fun member => (member.1, canonical member.2) := by
  induction members with
  | nil => rfl
  | cons member members ih => rw [canonicalMembers, List.map_cons, ih]

/-- The canonical form keeps the keys of an object. -/
theorem keys_canonicalMembers (members : Members) :
    Document.keys (canonicalMembers members) = Document.keys members := by
  rw [canonicalMembers_eq_map, Document.keys, List.map_map]
  rfl

/-- `sort_keys` keeps the keys. -/
theorem keys_sortKeys_perm (members : Members) :
    (Document.keys (sortKeys members)).Perm (Document.keys members) :=
  (sortKeys_perm members).map Prod.fst

/-- A member of the canonical object is a member of the object with its value made canonical. -/
theorem exists_of_mem_canonical {members : Members} {member : Text × Document}
    (h : member ∈ sortKeys (canonicalMembers members)) :
    ∃ original ∈ members, member = (original.1, canonical original.2) := by
  have hmem := (sortKeys_perm _).mem_iff.mp h
  rw [canonicalMembers_eq_map, List.mem_map] at hmem
  obtain ⟨original, horiginal, rfl⟩ := hmem
  exact ⟨original, horiginal, rfl⟩

section
variable {ensureAscii : Bool}

mutual
/-- The canonical document is plain where the document is. -/
theorem loadable_canonical : ∀ {document : Document}, Loadable ensureAscii document →
    Loadable ensureAscii (canonical document)
  | .null, h | .bool _, h | .int _, h | .float _, h | .str _, h | .date _, h => h
  | .arr items, h => by
    refine .arr trivial ?_
    rw [canonicalItems_eq_map]
    exact loadable_canonicalItems h.items
  | .obj members, h => by
    have hperm := keys_sortKeys_perm (canonicalMembers members)
    rw [keys_canonicalMembers] at hperm
    refine .obj ⟨hperm.nodup_iff.mpr h.own.1, ?_⟩ ?_
    · intro hensure key hkey
      exact h.own.2 hensure key (hperm.mem_iff.mp hkey)
    · intro member hmember
      obtain ⟨original, horiginal, rfl⟩ := exists_of_mem_canonical hmember
      exact loadable_canonicalMembers h.members original horiginal

/-- The canonical items of loadable items are loadable. -/
theorem loadable_canonicalItems : ∀ {items : List Document},
    (∀ item ∈ items, Loadable ensureAscii item) →
      ∀ item ∈ items.map canonical, Loadable ensureAscii item
  | [], _, _, hitem => by cases hitem
  | first :: items, h, item, hitem => by
    obtain ⟨hfirst, hrest⟩ := List.forall_mem_cons.mp h
    rcases List.mem_cons.mp hitem with rfl | hitem
    · exact loadable_canonical hfirst
    · exact loadable_canonicalItems hrest item hitem

/-- The canonical values of loadable values are loadable. -/
theorem loadable_canonicalMembers : ∀ {members : Members},
    (∀ member ∈ members, Loadable ensureAscii member.2) →
      ∀ member ∈ members, Loadable ensureAscii (canonical member.2)
  | [], _, _, hmember => by cases hmember
  | (key, value) :: members, h, member, hmember => by
    obtain ⟨hfirst, hrest⟩ := List.forall_mem_cons.mp h
    rcases List.mem_cons.mp hmember with rfl | hmember
    · exact loadable_canonical hfirst
    · exact loadable_canonicalMembers hrest member hmember
end

end

mutual
/-- The keys of the canonical document stand in their order, at every level. -/
theorem inOrder_canonical : ∀ document : Document,
    Document.Everywhere InOrder (canonical document)
  | .null | .bool _ | .int _ | .float _ | .str _ | .date _ =>
    .leaf trivial (by rintro _ ⟨⟩) (by rintro _ ⟨⟩)
  | .arr items => by
    refine .arr trivial ?_
    rw [canonicalItems_eq_map]
    exact inOrder_canonicalItems items
  | .obj members => by
    refine .obj (keysSorted_sortKeys _) ?_
    intro member hmember
    obtain ⟨original, horiginal, rfl⟩ := exists_of_mem_canonical hmember
    exact inOrder_canonicalMembers members original horiginal

/-- In the canonical items every object is in order. -/
theorem inOrder_canonicalItems : ∀ (items : List Document), ∀ item ∈ items.map canonical,
    Document.Everywhere InOrder item
  | [], _, hitem => by cases hitem
  | first :: items, item, hitem => by
    rcases List.mem_cons.mp hitem with rfl | hitem
    · exact inOrder_canonical first
    · exact inOrder_canonicalItems items item hitem

/-- In the canonical members every object is in order. -/
theorem inOrder_canonicalMembers : ∀ (members : Members), ∀ member ∈ members,
    Document.Everywhere InOrder (canonical member.2)
  | [], _, hmember => by cases hmember
  | (key, value) :: members, member, hmember => by
    rcases List.mem_cons.mp hmember with rfl | hmember
    · exact inOrder_canonical value
    · exact inOrder_canonicalMembers members member hmember
end

/-- The nesting of an object bounds that of its values. -/
theorem nestingMembers_le_iff {members : Members} {depth : Nat} :
    nestingMembers members ≤ depth ↔ ∀ member ∈ members, nesting member.2 ≤ depth := by
  induction members with
  | nil => simp [nestingMembers]
  | cons member members ih => rw [nestingMembers, max_le_iff, ih, List.forall_mem_cons]

mutual
/-- Sorting the keys nests nothing deeper. -/
theorem nesting_canonical_le : ∀ document : Document,
    nesting (canonical document) ≤ nesting document
  | .null | .bool _ | .int _ | .float _ | .str _ | .date _ => Nat.le_refl _
  | .arr items => Nat.succ_le_succ (nestingItems_canonical_le items)
  | .obj members => by
    refine Nat.succ_le_succ (nestingMembers_le_iff.mpr ?_)
    intro member hmember
    obtain ⟨original, horiginal, rfl⟩ := exists_of_mem_canonical hmember
    exact nestingMembers_canonical_le members original horiginal

/-- The canonical items are nested no deeper. -/
theorem nestingItems_canonical_le : ∀ items : List Document,
    nestingItems (canonicalItems items) ≤ nestingItems items
  | [] => Nat.le_refl _
  | item :: items => max_le_max (nesting_canonical_le item) (nestingItems_canonical_le items)

/-- The canonical members are nested no deeper. -/
theorem nestingMembers_canonical_le : ∀ (members : Members), ∀ member ∈ members,
    nesting (canonical member.2) ≤ nestingMembers members
  | [], _, hmember => by cases hmember
  | (key, value) :: members, member, hmember => by
    rcases List.mem_cons.mp hmember with rfl | hmember
    · exact le_max_of_le_left (nesting_canonical_le value)
    · exact le_max_of_le_right (nestingMembers_canonical_le members member hmember)
end

section
variable {floats : FloatText} {ensureAscii : Bool}

/-- The texts of the members, one by one. -/
theorem dumpsMembers_eq_some_iff {members : Members} {entries : List (Text × Text)} :
    dumpsMembers floats ensureAscii members = some entries ↔
      List.Forall₂ (fun member entry => member.1 = entry.1 ∧
        dumps floats ensureAscii member.2 = some entry.2) members entries := by
  induction members generalizing entries with
  | nil =>
    rw [dumpsMembers, List.forall₂_nil_left_iff, Option.some_inj, eq_comm]
  | cons member members ih =>
    obtain ⟨key, value⟩ := member
    rw [dumpsMembers, Option.bind_eq_some_iff]
    constructor
    · rintro ⟨first, hfirst, h⟩
      obtain ⟨rest, hrest, rfl⟩ := Option.map_eq_some_iff.mp h
      exact .cons ⟨rfl, hfirst⟩ (ih.mp hrest)
    · intro h
      cases h with
      | @cons _ entry _ rest hentry htail =>
        obtain ⟨rfl, hfirst⟩ := hentry
        exact ⟨entry.2, hfirst, Option.map_eq_some_iff.mpr ⟨rest, ih.mpr htail, rfl⟩⟩

mutual
/-- The canonical document has the same text. -/
theorem dumps_canonical : ∀ {document : Document} {text : Text},
    dumps floats ensureAscii document = some text →
      dumps floats ensureAscii (canonical document) = some text
  | .null, _, h | .bool _, _, h | .int _, _, h | .float _, _, h | .str _, _, h
  | .date _, _, h => h
  | .arr items, text, h => by
    obtain ⟨texts, htexts, rfl⟩ := Option.map_eq_some_iff.mp h
    rw [canonical, dumps, dumpsItems_canonical htexts, Option.map_some]
  | .obj members, text, h => by
    obtain ⟨entries, hentries, rfl⟩ := Option.map_eq_some_iff.mp h
    have hcanonical := dumpsMembers_eq_some_iff.mp (dumpsMembers_canonical hentries)
    have hsorted := dumpsMembers_eq_some_iff.mpr (forall₂_sortKeys And.left hcanonical)
    rw [canonical, dumps, hsorted, Option.map_some,
      sortKeys_of_keysSorted (keysSorted_sortKeys entries)]

/-- The items have the texts of their canonical forms. -/
theorem dumpsItems_canonical : ∀ {items : List Document} {texts : List Text},
    dumpsItems floats ensureAscii items = some texts →
      dumpsItems floats ensureAscii (canonicalItems items) = some texts
  | [], _, h => h
  | item :: items, texts, h => by
    obtain ⟨first, hfirst, h⟩ := Option.bind_eq_some_iff.mp h
    obtain ⟨rest, hrest, rfl⟩ := Option.map_eq_some_iff.mp h
    rw [canonicalItems, dumpsItems, dumps_canonical hfirst, Option.bind_some,
      dumpsItems_canonical hrest, Option.map_some]

/-- The members have the texts of their canonical forms. -/
theorem dumpsMembers_canonical : ∀ {members : Members} {entries : List (Text × Text)},
    dumpsMembers floats ensureAscii members = some entries →
      dumpsMembers floats ensureAscii (canonicalMembers members) = some entries
  | [], _, h => h
  | (key, value) :: members, entries, h => by
    obtain ⟨first, hfirst, h⟩ := Option.bind_eq_some_iff.mp h
    obtain ⟨rest, hrest, rfl⟩ := Option.map_eq_some_iff.mp h
    rw [canonicalMembers, dumpsMembers, dumps_canonical hfirst, Option.bind_some,
      dumpsMembers_canonical hrest, Option.map_some]
end

/-! ### The text of a document reads back -/

mutual
/-- A document whose keys stand in their order is read from its text. -/
theorem reads_dumps : ∀ {document : Document} {text : Text} {depth : Nat},
    dumps floats ensureAscii document = some text → Loadable ensureAscii document →
      Document.Everywhere InOrder document → nesting document ≤ depth →
        Reads (scanOnce floats depth) document text
  | .null, _, depth, h, _, _, _ => by
    cases h
    exact reads_null depth
  | .bool false, _, depth, h, _, _, _ => by
    cases h
    exact reads_false depth
  | .bool true, _, depth, h, _, _, _ => by
    cases h
    exact reads_true depth
  | .int n, _, depth, h, hload, _, _ => by
    cases h
    exact reads_int hload.own depth
  | .float bits, text, depth, h, _, _, _ => by
    rw [dumps] at h
    split at h
    · rename_i hfinite
      cases h
      exact reads_float hfinite depth
    · cases h
  | .str content, _, depth, h, hload, _, _ => by
    cases h
    exact reads_str hload.own depth
  | .date _, _, _, h, _, _, _ => by cases h
  | .arr items, text, 0, _, _, _, hdepth => by cases hdepth
  | .arr items, text, depth + 1, h, hload, hsorted, hdepth => by
    obtain ⟨texts, htexts, rfl⟩ := Option.map_eq_some_iff.mp h
    have hall := reads_dumpsItems htexts hload.items hsorted.items (Nat.le_of_succ_le_succ hdepth)
    constructor
    · exact ⟨_, _, rfl, by decide⟩
    · intro rest _
      have hread := scanEnclosed_commas (.inl rfl) hall rest
      show scanOnce floats (depth + 1) (char '[' :: ((commas texts ++ [char ']']) ++ rest)) = _
      rw [scanOnce_bracket, List.append_assoc, List.singleton_append, hread]
      rfl
  | .obj members, text, 0, _, _, _, hdepth => by cases hdepth
  | .obj members, text, depth + 1, h, hload, hsorted, hdepth => by
    obtain ⟨entries, hentries, rfl⟩ := Option.map_eq_some_iff.mp h
    have hall := reads_dumpsMembers hentries hload.members hsorted.members
      (Nat.le_of_succ_le_succ hdepth)
    have hinOrder : KeysSorted entries := by
      rw [keysSorted_iff, ← keys_eq_of_forall₂ And.left hall]
      exact keysSorted_iff.mp hsorted.own
    have hmembers := reads_members hall hload.own.2
    rw [sortKeys_of_keysSorted hinOrder]
    constructor
    · exact ⟨_, _, rfl, by decide⟩
    · intro rest _
      have hread := scanEnclosed_commas (.inr rfl) hmembers rest
      show scanOnce floats (depth + 1) (char '{' ::
        ((commas (entries.map (member ensureAscii)) ++ [char '}']) ++ rest)) = _
      rw [scanOnce_brace, List.append_assoc, List.singleton_append, hread, Option.map_some,
        dictOf_of_nodup hload.own.1]

/-- The items of an array are read back. -/
theorem reads_dumpsItems : ∀ {items : List Document} {texts : List Text} {depth : Nat},
    dumpsItems floats ensureAscii items = some texts →
      (∀ item ∈ items, Loadable ensureAscii item) →
        (∀ item ∈ items, Document.Everywhere InOrder item) → nestingItems items ≤ depth →
          List.Forall₂ (Reads (scanOnce floats depth)) items texts
  | [], _, _, h, _, _, _ => by
    cases h
    exact .nil
  | item :: items, texts, depth, h, hload, hsorted, hdepth => by
    obtain ⟨first, hfirst, h⟩ := Option.bind_eq_some_iff.mp h
    obtain ⟨rest, hrest, rfl⟩ := Option.map_eq_some_iff.mp h
    obtain ⟨hload, hloads⟩ := List.forall_mem_cons.mp hload
    obtain ⟨hsorted, hsorts⟩ := List.forall_mem_cons.mp hsorted
    obtain ⟨hitem, hitems⟩ := max_le_iff.mp hdepth
    exact .cons (reads_dumps hfirst hload hsorted hitem)
      (reads_dumpsItems hrest hloads hsorts hitems)

/-- The members of an object are read back. -/
theorem reads_dumpsMembers : ∀ {members : Members} {entries : List (Text × Text)} {depth : Nat},
    dumpsMembers floats ensureAscii members = some entries →
      (∀ member ∈ members, Loadable ensureAscii member.2) →
        (∀ member ∈ members, Document.Everywhere InOrder member.2) →
          nestingMembers members ≤ depth →
            List.Forall₂ (fun member entry => member.1 = entry.1 ∧
              Reads (scanOnce floats depth) member.2 entry.2) members entries
  | [], _, _, h, _, _, _ => by
    cases h
    exact .nil
  | (key, value) :: members, entries, depth, h, hload, hsorted, hdepth => by
    obtain ⟨first, hfirst, h⟩ := Option.bind_eq_some_iff.mp h
    obtain ⟨rest, hrest, rfl⟩ := Option.map_eq_some_iff.mp h
    obtain ⟨hload, hloads⟩ := List.forall_mem_cons.mp hload
    obtain ⟨hsorted, hsorts⟩ := List.forall_mem_cons.mp hsorted
    obtain ⟨hvalue, hmembers⟩ := max_le_iff.mp hdepth
    exact .cons ⟨rfl, reads_dumps hfirst hload hsorted hvalue⟩
      (reads_dumpsMembers hrest hloads hsorts hmembers)
end

/-- The text of a document reads as its canonical document. -/
theorem loads_dumps {document : Document} {text : Text} {depth : Nat}
    (h : dumps floats ensureAscii document = some text) (hload : Loadable ensureAscii document)
    (hdepth : nesting document ≤ depth) :
    loads floats depth text = some (canonical document) := by
  have hread := reads_dumps (dumps_canonical h) (loadable_canonical hload)
    (inOrder_canonical document) (Nat.le_trans (nesting_canonical_le document) hdepth)
  have hscan := hread.reads [] ends_nil
  obtain ⟨first, rest, rfl, hspace, _, _, hmark⟩ := hread.starts
  have hfirst : ¬ (first :: rest).head? = some (Fin.ofNat _ 0xFEFF) := by
    intro heq
    rw [Option.some.inj heq] at hmark
    exact hmark rfl
  rw [List.append_nil] at hscan
  rw [loads, if_neg hfirst, skipSpace_cons hspace, hscan]
  rfl

/-- Two documents have one text exactly when they are the same but for the order of keys. -/
theorem dumps_eq_iff {left right : Document} {text : Text}
    (h : dumps floats ensureAscii left = some text) (hleft : Loadable ensureAscii left)
    (hright : Loadable ensureAscii right) (hjson : isJson right = true) :
    dumps floats ensureAscii right = some text ↔ canonical left = canonical right := by
  constructor
  · intro hright'
    have hdepth := Nat.le_max_left (nesting left) (nesting right)
    have hdepth' := Nat.le_max_right (nesting left) (nesting right)
    have hread := loads_dumps h hleft hdepth
    rw [loads_dumps hright' hright hdepth', Option.some_inj] at hread
    exact hread.symm
  · intro heq
    obtain ⟨other, hother⟩ : ∃ other, dumps floats ensureAscii right = some other := by
      rw [← Option.isSome_iff_exists, dumps_isSome_iff]
      exact hjson
    have hsame := dumps_canonical h
    rw [heq, dumps_canonical hother] at hsame
    rw [hother, hsame]

end

end Wmfs.Lib.Json
