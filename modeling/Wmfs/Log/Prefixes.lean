import Wmfs.Log.Delivery

/-!
# `Wmfs.Log.Prefixes`: texts that are cut to a number of bytes

`utf8_prefix` of `src/reference_worker.cpp` goes back from the limit until it is in front of a
character. `_utf8_prefix` of the runtime and `_text` of the SDK decode what is in front of the
limit and leave out what does not decode. On the bytes of a text all of them return the longest
prefix of whole characters that the limit has room for (`prefixes_agree`).
-/

set_option autoImplicit false

namespace Wmfs.Log

open Wmfs.Lib
open Wmfs.Lib.Utf8 (Text)

/-! ### The functions -/

/-- `_utf8_prefix`. -/
def Runtime.utf8Prefix (value : Text) (limit : Int) : Except LogError (List UInt8 × Bool) :=
  Log.utf8Prefix value limit

/-- `_text`. -/
def Sdk.text (value : Text) (limit : Int) : Except LogError (List UInt8 × Bool) :=
  Log.utf8Prefix value limit

/-- The loop of `utf8_prefix`, where a read outside the text is an error. -/
def Native.backUpAt (data : List UInt8) : Nat → Except Native.Stop Nat
  | 0 => .ok 0
  | size + 1 => do
    let next ← Native.byte data (size + 1)
    if next &&& 0xC0 = 0x80 then backUpAt data size else return size + 1

/-- `utf8_prefix`, where a read outside the text is an error. -/
def Native.utf8PrefixAt (data : List UInt8) (limit : Nat) : Except Native.Stop Nat :=
  if data.length ≤ limit then .ok data.length else backUpAt data limit

/-- The bytes of the longest prefix of whole characters that has at most `limit` bytes. -/
structure LongestPrefix (text : Text) (limit : Nat) (front : List UInt8) : Prop where
  whole : ∃ kept, kept <+: text ∧ Utf8.encode kept = some front
  fits : front.length ≤ limit
  longest : ∀ kept bytes, kept <+: text → Utf8.encode kept = some bytes → bytes.length ≤ limit →
    bytes.length ≤ front.length

/-! ### The loop of the C++ function -/

namespace Native

/-- Inside the text the loop backs up. -/
theorem backUpAt_eq {data : List UInt8} {size : Nat} (h : size < data.length) :
    backUpAt data size = .ok (backUp data size) := by
  induction size with
  | zero => rfl
  | succ size ih =>
    rw [backUpAt, backUp, byte_ok h, Result.ok_bind, List.getD_eq_getElem _ _ h]
    split
    · exact ih (by omega)
    · rfl

/-- The loop reads bytes of the text only. -/
theorem utf8PrefixAt_eq (data : List UInt8) (limit : Nat) :
    utf8PrefixAt data limit = .ok (utf8Prefix data limit) := by
  rw [utf8PrefixAt, utf8Prefix]
  split
  · rfl
  · exact backUpAt_eq (by omega)

/-- Every cut that the loop passes is inside a character. -/
theorem cutsCharacter_of_backUp_lt {data : List UInt8} {size n : Nat} (h : size < data.length)
    (hlow : backUp data size < n) (hhigh : n ≤ size) : Utf8.cutsCharacter data n = true := by
  induction size with
  | zero => omega
  | succ size ih =>
    rw [backUp] at hlow
    split at hlow
    · rename_i hinside
      rcases Nat.lt_or_ge size n with hlast | hbefore
      · obtain rfl : n = size + 1 := by omega
        rw [← isContinuation_iff, List.getD_eq_getElem _ _ h] at hinside
        rw [Utf8.cutsCharacter, List.getElem?_eq_getElem h]
        exact hinside
      · exact ih (by omega) hlow hbefore
    · omega

end Native

/-! ### The longest prefix -/

section
variable {text : Text} {bytes : List UInt8} {limit : Nat}

/-- The cut is not shorter than another prefix that fits. -/
theorem size_le_size_cut {kept : Text} (hkept : kept <+: text) (hfits : Utf8.size kept ≤ limit) :
    Utf8.size kept ≤ Utf8.size (Utf8.cut text limit) := by
  induction text generalizing kept limit with
  | nil =>
    rw [List.prefix_nil.mp hkept]
    exact Nat.zero_le _
  | cons point text ih =>
    cases kept with
    | nil => exact Nat.zero_le _
    | cons first kept =>
      obtain ⟨rfl, hrest⟩ := List.cons_prefix_cons.mp hkept
      rw [Utf8.size] at hfits
      rw [Utf8.cut, if_pos (by omega), Utf8.size, Utf8.size]
      have hle := @ih (limit - Utf8.pointSize first) kept hrest (by omega)
      omega

/-- The bytes of a prefix are a prefix of the bytes. -/
theorem take_of_prefix {kept : Text} {front : List UInt8} (hencode : Utf8.encode text = some bytes)
    (hkept : kept <+: text) (hfront : Utf8.encode kept = some front) :
    bytes.take front.length = front := by
  induction kept generalizing text bytes front with
  | nil =>
    cases hfront
    rfl
  | cons point kept ih =>
    obtain ⟨head, tail, hhead, htail, rfl⟩ := Utf8.exists_of_encode_cons hfront
    cases text with
    | nil => cases List.prefix_nil.mp hkept
    | cons first text =>
      obtain ⟨rfl, hrest⟩ := List.cons_prefix_cons.mp hkept
      obtain ⟨head', tail', hhead', htail', rfl⟩ := Utf8.exists_of_encode_cons hencode
      obtain rfl : head = head' := Option.some.inj (hhead.symm.trans hhead')
      rw [List.length_append, List.take_length_add_append, ih htail' hrest htail]

/-- The cut text is the longest prefix. -/
theorem longestPrefix_cut {front : List UInt8}
    (hfront : Utf8.encode (Utf8.cut text limit) = some front) : LongestPrefix text limit front where
  whole := ⟨_, Utf8.cut_prefix text limit, hfront⟩
  fits := by
    rw [Utf8.length_of_encode hfront]
    exact Utf8.size_cut_le text limit
  longest := by
    intro kept bytes hkept hbytes hfits
    rw [Utf8.length_of_encode hbytes] at hfits ⊢
    rw [Utf8.length_of_encode hfront]
    exact size_le_size_cut hkept hfits

/-- The C++ function goes back to the end of the cut. -/
theorem utf8Prefix_eq_size (hencode : Utf8.encode text = some bytes) :
    Native.utf8Prefix bytes limit = Utf8.size (Utf8.cut text limit) := by
  have hlength := Utf8.length_of_encode hencode
  have hdecode : (Utf8.decode bytes).isSome := by rw [Utf8.decode_encode hencode]; rfl
  -- What the function keeps is a prefix, so the cut is not shorter.
  obtain ⟨kept, hkept⟩ := Option.isSome_iff_exists.mp (Native.decode_take_utf8Prefix hdecode limit)
  have hsize : Utf8.size kept = Native.utf8Prefix bytes limit := by
    rw [← Utf8.length_of_encode (Utf8.encode_of_decode hkept),
      List.length_take_of_le (Native.utf8Prefix_le_length _ _)]
  have hle := size_le_size_cut (Utf8.prefix_of_decode_take hencode hkept).1
    (hsize ▸ Native.utf8Prefix_le_limit bytes limit)
  apply Nat.le_antisymm (hsize ▸ hle)
  -- The cut is in front of a character, and the loop passes no such place.
  by_contra hlt
  have hcut := Utf8.size_cut_le text limit
  rw [Native.utf8Prefix] at hlt
  split at hlt
  · exact hlt (hlength ▸ Utf8.size_cut_le_size text limit)
  · rename_i hlong
    obtain ⟨front, hfront⟩ := Option.isSome_iff_exists.mp
      (Utf8.encode_prefix_isSome (by rw [hencode]; rfl) (Utf8.cut_prefix text limit))
    have htake := take_of_prefix hencode (Utf8.cut_prefix text limit) hfront
    rw [Utf8.length_of_encode hfront] at htake
    have hbetween := (Utf8.prefix_of_decode_take hencode
      (by rw [htake]; exact Utf8.decode_encode hfront)).2
    have hinside := Native.cutsCharacter_of_backUp_lt (by omega) (Nat.lt_of_not_le hlt) hcut
    rw [hbetween] at hinside
    cases hinside

/-- **Texts are cut alike.** On the bytes of a text the three functions keep the longest prefix of
whole characters that the limit has room for, the C++ function reads nothing outside the text,
and the Python functions report a cut exactly when something is missing. -/
theorem prefixes_agree (text : Text) (bytes : List UInt8) (limit : Nat)
    (hencode : Utf8.encode text = some bytes) :
    ∃ front, LongestPrefix text limit front ∧
      Native.utf8PrefixAt bytes limit = .ok front.length ∧ bytes.take front.length = front ∧
      Runtime.utf8Prefix text limit = .ok (front, decide (front ≠ bytes)) ∧
      Sdk.text text limit = .ok (front, decide (front ≠ bytes)) := by
  have hsome : (Utf8.encode text).isSome := by rw [hencode]; rfl
  obtain ⟨front, hfront, hpython⟩ := utf8Prefix_eq limit hsome (Int.natCast_nonneg limit)
  rw [Int.toNat_natCast] at hfront
  have hcut := Utf8.cut_prefix text limit
  have htake := take_of_prefix hencode hcut hfront
  -- The prefix is the whole text when the text fits.
  have hproper : ((limit : Int) < Utf8.size text) ↔ front ≠ bytes := by
    rw [← not_le, Nat.cast_le, ← Utf8.cut_eq_self_iff, not_iff_not]
    constructor
    · intro hself
      rw [hself, hencode] at hfront
      exact (Option.some.inj hfront).symm
    · intro hsame
      have hdecode := Utf8.decode_encode hfront
      rw [hsame, Utf8.decode_encode hencode] at hdecode
      exact (Option.some.inj hdecode).symm
  have hpython : Log.utf8Prefix text limit = .ok (front, decide (front ≠ bytes)) := by
    rw [hpython, decide_eq_decide.mpr hproper]
  refine ⟨front, longestPrefix_cut hfront, ?_, htake, hpython, hpython⟩
  rw [Native.utf8PrefixAt_eq, utf8Prefix_eq_size hencode, Utf8.length_of_encode hfront]

/-- Four bytes of two euro signs. -/
theorem prefixes_agree_euros :
    ∃ front, LongestPrefix [0x20AC, 0x20AC] 4 front ∧
      Native.utf8PrefixAt [0xE2, 0x82, 0xAC, 0xE2, 0x82, 0xAC] 4 = .ok front.length := by
  obtain ⟨front, hlongest, hnative, -⟩ := prefixes_agree [0x20AC, 0x20AC]
    [0xE2, 0x82, 0xAC, 0xE2, 0x82, 0xAC] 4 (by decide)
  exact ⟨front, hlongest, hnative⟩

end

end Wmfs.Log
