import Mathlib.Data.List.Chain
import Wmfs.Lib.Json

/-!
# `Wmfs.Lib.JsonLoads`: reading a JSON text

What `json.loads` of Python does with its default arguments. A value is a literal, a number, a
string, an array or an object, with spaces around the marks. Strings are strict: a control
character stands in them as an escape only. A `\u` escape of a high surrogate joins with the
`\u` escape of a low one behind it. Of two members with one key the last one counts.

Three limits are those of the interpreter. An integer of more than `maxStrDigits` digits has no
reading, and arrays and objects nest at most `depth` deep. A byte string is decoded as the
encoding that its first bytes show.

How a text of a float reads is left to the `FloatText`.

Nothing here refers to a particular program.
-/

set_option autoImplicit false

namespace Wmfs.Lib.Json

open Utf8 (Text CodePoint ofString)
open Document (Members)

/-! ### Spaces and literals -/

/-- The spaces of JSON. -/
def isSpace (point : CodePoint) : Bool :=
  point.val = 32 ∨ point.val = 9 ∨ point.val = 10 ∨ point.val = 13

/-- The text behind its leading spaces. -/
def skipSpace (text : Text) : Text := text.dropWhile isSpace

/-- The literals, with the constants that Python adds to those of JSON. -/
def literals : List (String × Document) :=
  [("null", .null), ("true", .bool true), ("false", .bool false),
    ("NaN", .float 0x7FF8000000000000), ("Infinity", .float 0x7FF0000000000000),
    ("-Infinity", .float 0xFFF0000000000000)]

/-- A literal at the front of a text, and the rest. -/
def scanLiteral (text : Text) : Option (Document × Text) :=
  literals.findSome? fun entry =>
    (text.dropPrefix? (ofString entry.1)).map fun rest => (entry.2, rest)

/-! ### Numbers -/

/-- `sys.get_int_max_str_digits()`. -/
def maxStrDigits : Nat := 4300

/-- `int` of a numeral. -/
def readInt (numeral : Text) : Option Int :=
  let sign := splitSign numeral
  if maxStrDigits < sign.2.length then none
  else if sign.1 = [] then some (readNat sign.2)
  else some (-(readNat sign.2 : Int))

/-- A number at the front of a text, and the rest. -/
def scanNumeral (floats : FloatText) (text : Text) : Option (Document × Text) :=
  (scanNumber text).bind fun parts =>
    if parts.2.1 = [] then (readInt parts.1).map fun n => (.int n, parts.2.2)
    else some (.float (floats.read (parts.1 ++ parts.2.1)), parts.2.2)

/-! ### Strings -/

/-- The number of a hexadecimal digit of either case. -/
def hexValue? (point : CodePoint) : Option Nat :=
  if 48 ≤ point.val ∧ point.val ≤ 57 then some (point.val - 48)
  else if 97 ≤ point.val ∧ point.val ≤ 102 then some (point.val - 87)
  else if 65 ≤ point.val ∧ point.val ≤ 70 then some (point.val - 55)
  else none

/-- The number of the four digits of an escape. -/
def hexFour (a b c d : CodePoint) : Option Nat :=
  (hexValue? a).bind fun a => (hexValue? b).bind fun b => (hexValue? c).bind fun c =>
    (hexValue? d).map fun d => ((a * 16 + b) * 16 + c) * 16 + d

/-- A high surrogate. -/
def isHigh (n : Nat) : Bool := 0xD800 ≤ n ∧ n ≤ 0xDBFF

/-- A low surrogate. -/
def isLow (n : Nat) : Bool := 0xDC00 ≤ n ∧ n ≤ 0xDFFF

/-- The character of a pair of surrogates. -/
def joinSurrogates (high low : Nat) : CodePoint :=
  Fin.ofNat _ (0x10000 + (high - 0xD800) * 0x400 + (low - 0xDC00))

/-- The character of an escape of two characters. -/
def unescape (mark : CodePoint) : Option CodePoint :=
  if mark = char '"' ∨ mark = char '\\' ∨ mark = char '/' then some mark
  else if mark = char 'b' then some (Fin.ofNat _ 8)
  else if mark = char 'f' then some (Fin.ofNat _ 12)
  else if mark = char 'n' then some (Fin.ofNat _ 10)
  else if mark = char 'r' then some (Fin.ofNat _ 13)
  else if mark = char 't' then some (Fin.ofNat _ 9)
  else none

/-- One more character in front. -/
def consChar (point : CodePoint) (scanned : Text × Text) : Text × Text :=
  (point :: scanned.1, scanned.2)

/-- The rest of a string behind its opening quote, and the rest behind the closing one. -/
def scanString : Text → Option (Text × Text)
  | [] => none
  | first :: rest =>
    if first = char '"' then some ([], rest)
    else if first ≠ char '\\' then
      if first.val < 32 then none else (scanString rest).map (consChar first)
    else match rest with
    | [] => none
    | mark :: rest =>
      if mark ≠ char 'u' then
        (unescape mark).bind fun point => (scanString rest).map (consChar point)
      else match rest with
      | a :: b :: c :: d :: rest =>
        match hexFour a b c d with
        | none => none
        | some n =>
          if isHigh n then
            match rest with
            | slash :: mark :: a :: b :: c :: d :: after =>
              if slash = char '\\' ∧ mark = char 'u' then
                match hexFour a b c d with
                | none => none
                | some low =>
                  if isLow low then (scanString after).map (consChar (joinSurrogates n low))
                  else (scanString (slash :: mark :: a :: b :: c :: d :: after)).map
                    (consChar (Fin.ofNat _ n))
              else (scanString (slash :: mark :: a :: b :: c :: d :: after)).map
                (consChar (Fin.ofNat _ n))
            | rest => (scanString rest).map (consChar (Fin.ofNat _ n))
          else (scanString rest).map (consChar (Fin.ofNat _ n))
      | _ => none

/-! ### Arrays and objects -/

section
variable {α : Type}

/-- Elements with commas between them, up to the closing mark. Each round consumes a character,
so that the length of the text bounds the rounds. -/
def scanSeparated (close : CodePoint) (element : Text → Option (α × Text)) :
    Nat → Text → Option (List α × Text)
  | 0, _ => none
  | rounds + 1, text =>
    (element text).bind fun scanned =>
      match skipSpace scanned.2 with
      | [] => none
      | mark :: rest =>
        if mark = close then some ([scanned.1], rest)
        else if mark = char ',' then
          (scanSeparated close element rounds (skipSpace rest)).map fun more =>
            (scanned.1 :: more.1, more.2)
        else none

/-- What stands between two brackets, and the rest behind the closing one. -/
def scanEnclosed (close : CodePoint) (element : Text → Option (α × Text)) (text : Text) :
    Option (List α × Text) :=
  let inside := skipSpace text
  if inside.head? = some close then some ([], inside.tail)
  else scanSeparated close element (inside.length + 1) inside

/-- A member of an object, and the rest. -/
def scanMember (value : Text → Option (α × Text)) : Text → Option ((Text × α) × Text)
  | [] => none
  | first :: rest =>
    if first ≠ char '"' then none
    else (scanString rest).bind fun key =>
      match skipSpace key.2 with
      | [] => none
      | colon :: rest =>
        if colon ≠ char ':' then none
        else (value (skipSpace rest)).map fun scanned => ((key.1, scanned.1), scanned.2)

/-- `members[key] = value`. -/
def setMember (key : Text) (value : α) : List (Text × α) → List (Text × α)
  | [] => [(key, value)]
  | (other, old) :: members =>
    if other = key then (other, value) :: members
    else (other, old) :: setMember key value members

/-- The `dict` of a list of members. -/
def dictOf (pairs : List (Text × α)) : List (Text × α) :=
  pairs.foldl (fun members pair => setMember pair.1 pair.2 members) []

end

/-! ### Documents -/

section
variable (floats : FloatText)

/-- A value at the front of a text, and the rest. -/
def scanOnce (depth : Nat) (text : Text) : Option (Document × Text) :=
  match text with
  | [] => none
  | first :: rest =>
    if first = char '"' then (scanString rest).map fun scanned => (.str scanned.1, scanned.2)
    else if first = char '{' then
      match depth with
      | 0 => none
      | depth + 1 =>
        (scanEnclosed (char '}') (scanMember (scanOnce depth)) rest).map fun scanned =>
          (.obj (dictOf scanned.1), scanned.2)
    else if first = char '[' then
      match depth with
      | 0 => none
      | depth + 1 =>
        (scanEnclosed (char ']') (scanOnce depth) rest).map fun scanned =>
          (.arr scanned.1, scanned.2)
    else match scanLiteral (first :: rest) with
    | some scanned => some scanned
    | none => scanNumeral floats (first :: rest)

/-- `json.loads` of a `str`. -/
def loads (depth : Nat) (text : Text) : Option Document :=
  if text.head? = some (Fin.ofNat _ 0xFEFF) then none
  else (scanOnce floats depth (skipSpace text)).bind fun scanned =>
    if skipSpace scanned.2 = [] then some scanned.1 else none

end

/-! ### Bytes -/

/-- The encodings that `json.loads` tells apart. -/
inductive Encoding where
  | utf8
  | utf8Sig
  | utf16
  | utf16be
  | utf16le
  | utf32
  | utf32be
  | utf32le
  deriving DecidableEq

/-- `json.detect_encoding`. -/
def detectEncoding (bytes : List UInt8) : Encoding :=
  if [0x00, 0x00, 0xFE, 0xFF].isPrefixOf bytes ∨ [0xFF, 0xFE, 0x00, 0x00].isPrefixOf bytes then
    .utf32
  else if [0xFE, 0xFF].isPrefixOf bytes ∨ [0xFF, 0xFE].isPrefixOf bytes then .utf16
  else if [0xEF, 0xBB, 0xBF].isPrefixOf bytes then .utf8Sig
  else match bytes with
  | a :: b :: c :: d :: _ =>
    if a = 0 then if b = 0 then .utf32be else .utf16be
    else if b = 0 then if c = 0 ∧ d = 0 then .utf32le else .utf16le
    else .utf8
  | [a, b] => if a = 0 then .utf16be else if b = 0 then .utf16le else .utf8
  | _ => .utf8

/-- The decoders of Python with `errors="surrogatepass"`. On bytes that are strict UTF-8 the
error handler is never asked. -/
structure Decoders where
  decode : Encoding → List UInt8 → Option Text
  decode_utf8 : ∀ {bytes : List UInt8} {text : Text}, Utf8.decode bytes = some text →
    decode .utf8 bytes = some text

/-- `json.loads` of a `bytes`. -/
def loadsBytes (decoders : Decoders) (floats : FloatText) (depth : Nat) (bytes : List UInt8) :
    Option Document :=
  (decoders.decode (detectEncoding bytes) bytes).bind (loads floats depth)

end Wmfs.Lib.Json
