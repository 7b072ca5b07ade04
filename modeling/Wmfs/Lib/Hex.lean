import Wmfs.Lib.Utf8

/-!
# `Wmfs.Lib.Hex`: hexadecimal texts

Numbers and bytes as lower-case hexadecimal digits of a fixed width, and the reading of them.
`readHex_hexDigits` is the round trip of a number that fits the width.

Nothing here refers to a particular program.
-/

set_option autoImplicit false

namespace Wmfs.Lib.Hex

open Utf8 (Text CodePoint)

/-- A digest of 32 bytes. -/
abbrev Digest : Type := Vector UInt8 32

/-- The digit of a number below sixteen. -/
def hexDigit (n : Nat) : CodePoint := Fin.ofNat _ (if n < 10 then 48 + n else 87 + n)

/-- `[0-9a-f]`. -/
def isHexDigit (point : CodePoint) : Bool :=
  (48 ≤ point.val ∧ point.val ≤ 57) ∨ (97 ≤ point.val ∧ point.val ≤ 102)

/-- The number of a digit. -/
def hexValue (point : CodePoint) : Nat :=
  if point.val ≤ 57 then point.val - 48 else point.val - 87

/-- The last `width` digits of a number. -/
def hexDigits : Nat → Nat → Text
  | 0, _ => []
  | width + 1, n => hexDigits width (n / 16) ++ [hexDigit (n % 16)]

/-- `int(text, 16)`. -/
def readHex (text : Text) : Nat := text.foldl (fun n point => n * 16 + hexValue point) 0

/-- `bytes.hex()`. -/
def hexBytes (bytes : List UInt8) : Text := bytes.flatMap fun byte => hexDigits 2 byte.toNat

/-- `int.from_bytes(bytes, "big")`. -/
def bigEndian (bytes : List UInt8) : Nat := bytes.foldl (fun n byte => n * 256 + byte.toNat) 0

/-- The code point of a hexadecimal digit. -/
theorem val_hexDigit {n : Nat} (h : n < 16) :
    (hexDigit n).val = if n < 10 then 48 + n else 87 + n := by
  rw [hexDigit, Utf8.val_ofNat_of_lt]
  split <;> omega

/-- A hexadecimal digit is one. -/
theorem isHexDigit_hexDigit {n : Nat} (h : n < 16) : isHexDigit (hexDigit n) = true := by
  rw [isHexDigit, val_hexDigit h, decide_eq_true_iff]
  split <;> omega

/-- A hexadecimal digit is read back. -/
theorem hexValue_hexDigit {n : Nat} (h : n < 16) : hexValue (hexDigit n) = n := by
  rw [hexValue, val_hexDigit h]
  split
  · split <;> omega
  · split <;> omega

/-- A number has as many digits as asked for. -/
@[simp] theorem length_hexDigits (width n : Nat) : (hexDigits width n).length = width := by
  induction width generalizing n with
  | zero => rfl
  | succ width ih => rw [hexDigits, List.length_append, ih, List.length_singleton]

/-- The digits of a number are hexadecimal. -/
theorem isHexDigit_of_mem_hexDigits {width n : Nat} {point : CodePoint}
    (h : point ∈ hexDigits width n) : isHexDigit point = true := by
  induction width generalizing n with
  | zero => cases h
  | succ width ih =>
    rw [hexDigits, List.mem_append, List.mem_singleton] at h
    rcases h with h | rfl
    · exact ih h
    · exact isHexDigit_hexDigit (Nat.mod_lt _ (by omega))

/-- Reading the digits of a number gives what fits their width. -/
theorem readHex_hexDigits (width n : Nat) : readHex (hexDigits width n) = n % 16 ^ width := by
  induction width generalizing n with
  | zero => rw [Nat.pow_zero, Nat.mod_one]; rfl
  | succ width ih =>
    have hlast : readHex (hexDigits (width + 1) n) =
        readHex (hexDigits width (n / 16)) * 16 + hexValue (hexDigit (n % 16)) := by
      rw [hexDigits, readHex, List.foldl_append]
      rfl
    rw [hlast, ih, hexValue_hexDigit (Nat.mod_lt _ (by omega)), Nat.pow_succ,
      Nat.mul_comm (16 ^ width) 16, Nat.mod_mul]
    omega

/-- A byte has two digits. -/
theorem length_hexBytes (bytes : List UInt8) : (hexBytes bytes).length = 2 * bytes.length := by
  induction bytes with
  | nil => rfl
  | cons byte bytes ih =>
    rw [hexBytes, List.flatMap_cons, List.length_append, length_hexDigits, List.length_cons]
    rw [hexBytes] at ih
    omega

/-- The digits of bytes are hexadecimal. -/
theorem isHexDigit_of_mem_hexBytes {bytes : List UInt8} {point : CodePoint}
    (h : point ∈ hexBytes bytes) : isHexDigit point = true := by
  obtain ⟨byte, _, hpoint⟩ := List.mem_flatMap.mp h
  exact isHexDigit_of_mem_hexDigits hpoint

/-- A number of so many bytes is below the power of their count. -/
theorem bigEndian_lt (bytes : List UInt8) : bigEndian bytes < 256 ^ bytes.length := by
  induction bytes using List.reverseRecOn with
  | nil => exact Nat.one_pos
  | append_singleton bytes byte ih =>
    have hlast : bigEndian (bytes ++ [byte]) = bigEndian bytes * 256 + byte.toNat := by
      rw [bigEndian, List.foldl_append]
      rfl
    have hbyte : byte.toNat < 256 := byte.toNat_lt
    rw [hlast, List.length_append, List.length_singleton, Nat.pow_succ]
    omega

end Wmfs.Lib.Hex
