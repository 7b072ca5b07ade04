import Wmfs.Control.Native
import Wmfs.Lib.Utf8

/-!
# `Wmfs.Control.Loads`: words and texts in C++

The loads of `src/control.cpp` are what Python reads with `struct` (`unpack_Q` and its like), and
its `valid_utf8` accepts the bytes that Python decodes (`validUtf8_eq`).
-/

set_option autoImplicit false

namespace Wmfs.Control

open Wmfs.Lib
open Native (byte load16 load32 load64 validUtf8)

/-! ### Words -/

/-- A byte is below 256. -/
theorem byte_lt (p : List UInt8) (offset : Nat) : byte p offset < 256 := UInt8.toNat_lt _

/-- Shifted bits above smaller ones are added to them. -/
theorem or_shiftLeft {a b i : Nat} (h : a < 2 ^ i) : a ||| b <<< i = a + 2 ^ i * b := by
  rw [Nat.or_comm, ← Nat.shiftLeft_add_eq_or_of_lt h, Nat.shiftLeft_eq]
  ring

/-- A number begins with its lowest byte. -/
theorem ofLe_slice_succ {p : List UInt8} {offset size : Nat} (h : offset < p.length) :
    ofLe (slice p offset (size + 1)) = byte p offset + 256 * ofLe (slice p (offset + 1) size) := by
  rw [slice, List.drop_eq_getElem_cons h, List.take_succ_cons, ofLe, byte,
    List.getD_eq_getElem?_getD, List.getElem?_eq_getElem h, slice]
  rfl

/-- `load16` reads two bytes. -/
theorem load16_eq {p : List UInt8} {offset : Nat} (h : offset + 2 ≤ p.length) :
    load16 p offset = ofLe (slice p offset 2) := by
  have h0 := byte_lt p offset
  rw [load16, or_shiftLeft (by omega), ofLe_slice_succ (by omega), ofLe_slice_succ (by omega)]
  simp [slice, ofLe]

/-- `load32` reads four bytes. -/
theorem load32_eq {p : List UInt8} {offset : Nat} (h : offset + 4 ≤ p.length) :
    load32 p offset = ofLe (slice p offset 4) := by
  have h0 := byte_lt p offset
  have h1 := byte_lt p (offset + 1)
  have h2 := byte_lt p (offset + 2)
  rw [load32, or_shiftLeft (i := 8) (by omega), or_shiftLeft (i := 16) (by omega),
    or_shiftLeft (i := 24) (by omega)]
  rw [ofLe_slice_succ (by omega), ofLe_slice_succ (by omega), ofLe_slice_succ (by omega),
    ofLe_slice_succ (by omega)]
  simp only [slice, List.take_zero, ofLe, Nat.add_assoc, Nat.reduceAdd]
  omega

/-- `load64` reads eight bytes. -/
theorem load64_eq {p : List UInt8} {offset : Nat} (h : offset + 8 ≤ p.length) :
    load64 p offset = ofLe (slice p offset 8) := by
  have hlow : load32 p offset < 2 ^ 32 := by
    rw [load32_eq (by omega)]
    have := ofLe_lt (slice p offset 4)
    rwa [length_slice (by omega)] at this
  have hsplit := slice_append_slice p offset 4 4
  rw [load64, or_shiftLeft hlow, load32_eq (by omega), load32_eq (by omega), ← hsplit,
    ofLe_append, length_slice (by omega)]
  norm_num

/-- `Q` reads eight bytes. -/
theorem unpack_Q {format : List Field} {p : List UInt8} {offset : Nat}
    (h : offset + 8 ≤ p.length) : unpack (.Q :: format) (p.drop offset) =
      (load64 p offset : Int) :: unpack format (p.drop (offset + 8)) := by
  rw [load64_eq h]
  exact unpack_cons_drop rfl h

/-- `I` reads four bytes. -/
theorem unpack_I {format : List Field} {p : List UInt8} {offset : Nat}
    (h : offset + 4 ≤ p.length) : unpack (.I :: format) (p.drop offset) =
      (load32 p offset : Int) :: unpack format (p.drop (offset + 4)) := by
  rw [load32_eq h]
  exact unpack_cons_drop rfl h

/-- `H` reads two bytes. -/
theorem unpack_H {format : List Field} {p : List UInt8} {offset : Nat}
    (h : offset + 2 ≤ p.length) : unpack (.H :: format) (p.drop offset) =
      (load16 p offset : Int) :: unpack format (p.drop (offset + 2)) := by
  rw [load16_eq h]
  exact unpack_cons_drop rfl h

/-! ### Text -/

/-- The bits of a first byte. -/
theorem and_of_lead {n : Nat} (h : n < 256) :
    (0xC2 ≤ n ∧ n ≤ 0xDF → n &&& 0x1F = n - 0xC0) ∧
    (0xE0 ≤ n ∧ n ≤ 0xEF → n &&& 0x0F = n - 0xE0) ∧
    (0xF0 ≤ n ∧ n ≤ 0xF4 → n &&& 0x07 = n - 0xF0) ∧
    (n &&& 0xC0 = 0x80 ↔ 0x80 ≤ n ∧ n ≤ 0xBF) ∧
    (0x80 ≤ n ∧ n ≤ 0xBF → n &&& 0x3F = n - 0x80) := by
  revert n
  decide +kernel

/-- The first byte of a character tells how many follow. -/
theorem lead_eq (first : UInt8) : Native.lead first.toNat =
    if 0xC2 ≤ first.toNat ∧ first.toNat ≤ 0xDF then some (first.toNat - 0xC0, 1)
    else if 0xE0 ≤ first.toNat ∧ first.toNat ≤ 0xEF then some (first.toNat - 0xE0, 2)
    else if 0xF0 ≤ first.toNat ∧ first.toNat ≤ 0xF4 then some (first.toNat - 0xF0, 3)
    else none := by
  obtain ⟨htwo, hthree, hfour, _⟩ := and_of_lead first.toNat_lt
  unfold Native.lead
  split
  · rename_i h
    rw [htwo h]
  · split
    · rename_i h
      rw [hthree h]
    · split
      · rename_i h
        rw [hfour h]
      · rfl

/-- The bytes that continue a character. -/
theorem isContinuation_iff {b : UInt8} :
    Utf8.isContinuation b = true ↔ 0x80 ≤ b.toNat ∧ b.toNat ≤ 0xBF := by
  simp only [Utf8.isContinuation, Bool.and_eq_true, decide_eq_true_eq]

/-- Such a byte has six bits. -/
theorem low_lt {b : UInt8} (h : Utf8.isContinuation b = true) : Utf8.low b < 64 := by
  have hrange := isContinuation_iff.mp h
  unfold Utf8.low
  omega

/-- The inner loop goes over continuation bytes. -/
theorem continuations_cons (value : Nat) (next : UInt8) (rest : List UInt8) :
    Native.continuations value (next :: rest) =
      if Utf8.isContinuation next then
        Native.continuations (value * 64 + Utf8.low next) rest
      else none := by
  obtain ⟨_, _, _, hmark, hlow⟩ := and_of_lead next.toNat_lt
  rw [Native.continuations]
  by_cases h : Utf8.isContinuation next = true
  · have hrange := isContinuation_iff.mp h
    have hsix : next.toNat &&& 0x3F = Utf8.low next := hlow hrange
    have hvalue : value <<< 6 ||| Utf8.low next = value * 64 + Utf8.low next := by
      rw [Nat.or_comm, or_shiftLeft (low_lt h)]
      ring
    rw [if_neg (not_not.mpr (hmark.mpr hrange)), if_pos h, hsix, hvalue]
  · rw [if_pos (mt hmark.mp (mt isContinuation_iff.mpr h)), if_neg h]

/-- No byte follows. -/
theorem continuations_nil (value : Nat) : Native.continuations value [] = some value := rfl

/-- The values that both refuse in characters of two, three and four bytes. -/
theorem refused_two {value : Nat} (h : value < 0x800) : Native.refused 1 value = false := by
  simp [Native.refused]
  omega

/-- Which characters of three bytes are refused. -/
theorem refused_three {value : Nat} (h : value < 0x10000) :
    Native.refused 2 value = true ↔ value < 0x800 ∨ Utf8.isSurrogate value = true := by
  simp [Native.refused, Utf8.isSurrogate]
  omega

/-- Which characters of four bytes are refused. -/
theorem refused_four (value : Nat) :
    Native.refused 3 value = true ↔ value < 0x10000 ∨ 0x10FFFF < value := by
  simp [Native.refused]
  omega

/-- `valid_utf8` accepts the bytes that Python decodes. -/
theorem validUtf8_eq (bytes : List UInt8) : validUtf8 bytes = (Utf8.decode bytes).isSome := by
  induction hn : bytes.length using Nat.strong_induction_on generalizing bytes with
  | _ n ih =>
  have hrest : ∀ rest : List UInt8, rest.length < n →
      validUtf8 rest = (Utf8.decode rest).isSome := fun rest hlt => ih rest.length hlt rest rfl
  cases bytes with
  | nil => simp [validUtf8, Utf8.decode]
  | cons a rest =>
    rw [List.length_cons] at hn
    rw [validUtf8, Utf8.decode.eq_def, lead_eq]
    by_cases hascii : a.toNat < 0x80
    · simp only [hascii, if_true, Option.isSome_map, hrest rest (by omega)]
    by_cases htwo : 0xC2 ≤ a.toNat ∧ a.toNat ≤ 0xDF
    · cases rest with
      | nil => simp [hascii, htwo]
      | cons b rest =>
        rw [List.length_cons] at hn
        by_cases hb : Utf8.isContinuation b = true
        · have hvalue : (a.toNat - 0xC0) * 64 + Utf8.low b < 0x800 := by
            have := low_lt hb
            omega
          simp [hascii, htwo, continuations_cons, hb, continuations_nil, refused_two hvalue,
            hrest rest (by omega)]
        · simp [hascii, htwo, continuations_cons, hb]
    by_cases hthree : 0xE0 ≤ a.toNat ∧ a.toNat ≤ 0xEF
    · cases rest with
      | nil => simp [hascii, htwo, hthree]
      | cons b rest =>
        cases rest with
        | nil => simp [hascii, htwo, hthree]
        | cons c rest =>
          simp only [List.length_cons] at hn
          by_cases hb : Utf8.isContinuation b = true
          · by_cases hc : Utf8.isContinuation c = true
            · have hvalue : (a.toNat - 0xE0) * 4096 + Utf8.low b * 64 + Utf8.low c < 0x10000 := by
                have := low_lt hb
                have := low_lt hc
                omega
              have hring : ((a.toNat - 0xE0) * 64 + Utf8.low b) * 64 + Utf8.low c =
                  (a.toNat - 0xE0) * 4096 + Utf8.low b * 64 + Utf8.low c := by ring
              have hbad := refused_three hvalue
              by_cases h : Native.refused 2
                  ((a.toNat - 0xE0) * 4096 + Utf8.low b * 64 + Utf8.low c) = true
              · simp [hascii, htwo, hthree, continuations_cons, hb, hc, continuations_nil,
                  hring, h, hbad.mp h]
              · simp [hascii, htwo, hthree, continuations_cons, hb, hc, continuations_nil,
                  hring, h, mt hbad.mpr h, hrest rest (by omega)]
            · simp [hascii, htwo, hthree, continuations_cons, hb, hc]
          · simp [hascii, htwo, hthree, continuations_cons, hb]
    by_cases hfour : 0xF0 ≤ a.toNat ∧ a.toNat ≤ 0xF4
    · cases rest with
      | nil => simp [hascii, htwo, hthree, hfour]
      | cons b rest =>
        cases rest with
        | nil => simp [hascii, htwo, hthree, hfour]
        | cons c rest =>
          cases rest with
          | nil => simp [hascii, htwo, hthree, hfour]
          | cons d rest =>
            simp only [List.length_cons] at hn
            have hlength : ¬ rest.length + 1 + 1 + 1 < 3 := by omega
            by_cases hb : Utf8.isContinuation b = true
            · by_cases hc : Utf8.isContinuation c = true
              · by_cases hd : Utf8.isContinuation d = true
                · have hring : (((a.toNat - 0xF0) * 64 + Utf8.low b) * 64 + Utf8.low c) * 64 +
                      Utf8.low d = (a.toNat - 0xF0) * 262144 + Utf8.low b * 4096 +
                        Utf8.low c * 64 + Utf8.low d := by ring
                  have hbad := refused_four
                    ((a.toNat - 0xF0) * 262144 + Utf8.low b * 4096 + Utf8.low c * 64 + Utf8.low d)
                  by_cases h : Native.refused 3 ((a.toNat - 0xF0) * 262144 + Utf8.low b * 4096 +
                      Utf8.low c * 64 + Utf8.low d) = true
                  · simp [hascii, htwo, hthree, hfour, continuations_cons, hb, hc, hd,
                      continuations_nil, hring, h, hbad.mp h]
                  · simp [hascii, htwo, hthree, hfour, continuations_cons, hb, hc, hd,
                      continuations_nil, hring, h, mt hbad.mpr h, hlength, hrest rest (by omega)]
                · simp [hascii, htwo, hthree, hfour, continuations_cons, hb, hc, hd]
              · simp [hascii, htwo, hthree, hfour, continuations_cons, hb, hc]
            · simp [hascii, htwo, hthree, hfour, continuations_cons, hb]
    -- No other byte starts a character.
    simp only [hascii, htwo, hthree, hfour, if_false]
    split
    · rfl
    split
    · rfl
    split
    · rfl
    split
    · rfl
    split
    · rfl
    · split <;> rfl

end Wmfs.Control
