import Wmfs.Control.Loads
import Wmfs.Log.Views

/-!
# `Wmfs.Log.Loads`: words and texts of a log packet in C++

The loads of `src/log.cpp` give the little-endian words of the packet, and its `utf8` accepts the
bytes that Python decodes. The texts of `load32` and `utf8` are those of `src/control.cpp`, with
fixed-width integers and a base pointer, so the results of `Wmfs.Control.Loads` carry over.
-/

set_option autoImplicit false

namespace Wmfs.Log.Native

open Wmfs.Lib

/-! ### Words -/

/-- The little-endian number in `width` bytes of the packet. -/
def word (p : List UInt8) (offset width : Nat) : Nat := ofLe (slice p offset width)

/-- A word is bounded by its width. -/
theorem word_lt (p : List UInt8) (offset width : Nat) : word p offset width < 256 ^ width := by
  have hlength : (slice p offset width).length ≤ width := by
    rw [slice]
    exact List.length_take_le _ _
  exact (ofLe_lt _).trans_le (Nat.pow_le_pow_right (by omega) hlength)

/-- The words as integers of the decoder. -/
def word16 (p : List UInt8) (offset : Nat) : UInt16 := .ofNat (word p offset 2)

/-- The word of 32 bits at the offset. -/
def word32 (p : List UInt8) (offset : Nat) : UInt32 := .ofNat (word p offset 4)

/-- The word of 64 bits at the offset. -/
def word64 (p : List UInt8) (offset : Nat) : UInt64 := .ofNat (word p offset 8)

/-- The number of a word of 16 bits. -/
@[simp] theorem toNat_word16 (p : List UInt8) (offset : Nat) :
    (word16 p offset).toNat = word p offset 2 := by
  rw [word16, UInt16.toNat_ofNat']
  exact Nat.mod_eq_of_lt (word_lt p offset 2)

/-- The number of a word of 32 bits. -/
@[simp] theorem toNat_word32 (p : List UInt8) (offset : Nat) :
    (word32 p offset).toNat = word p offset 4 := by
  rw [word32, UInt32.toNat_ofNat']
  exact Nat.mod_eq_of_lt (word_lt p offset 4)

/-- The number of a word of 64 bits. -/
@[simp] theorem toNat_word64 (p : List UInt8) (offset : Nat) :
    (word64 p offset).toNat = word p offset 8 := by
  rw [word64, UInt64.toNat_ofNat']
  exact Nat.mod_eq_of_lt (word_lt p offset 8)

/-- Words of 16 bits are compared by their numbers. -/
theorem word16_eq_iff {p : List UInt8} {offset : Nat} {n : UInt16} :
    word16 p offset = n ↔ word p offset 2 = n.toNat := by
  rw [← UInt16.toNat_inj, toNat_word16]

/-- Words of 32 bits are compared by their numbers. -/
theorem word32_eq_iff {p : List UInt8} {offset : Nat} {n : UInt32} :
    word32 p offset = n ↔ word p offset 4 = n.toNat := by
  rw [← UInt32.toNat_inj, toNat_word32]

/-- Inside the packet a byte is read. -/
theorem byte_eq {p : List UInt8} {index : Nat} (h : index < p.length) :
    ∃ b : UInt8, byte p index = .ok b ∧ b.toNat = Control.Native.byte p index := by
  refine ⟨p[index], byte_ok h, ?_⟩
  rw [Control.Native.byte, List.getD_eq_getElem?_getD, List.getElem?_eq_getElem h]
  rfl

/-- The value of a shifted byte, in a type with room for it. -/
theorem shiftLeft_mod {n k width : Nat} (hn : n < 256) (hk : k + 8 ≤ width) :
    n <<< k % 2 ^ width = n <<< k := by
  apply Nat.mod_eq_of_lt
  rw [Nat.shiftLeft_eq]
  calc n * 2 ^ k < 2 ^ 8 * 2 ^ k := Nat.mul_lt_mul_of_pos_right hn (Nat.two_pow_pos k)
    _ = 2 ^ (k + 8) := by rw [← Nat.pow_add, Nat.add_comm]
    _ ≤ 2 ^ width := Nat.pow_le_pow_right (by omega) hk

/-- Inside the packet `load16` reads the word. -/
theorem load16_eq {p : List UInt8} {offset : Nat} (h : offset + 2 ≤ p.length) :
    load16 p offset = .ok (word16 p offset) := by
  obtain ⟨b0, hb0, h0⟩ := @byte_eq p offset (by omega)
  obtain ⟨b1, hb1, h1⟩ := @byte_eq p (offset + 1) (by omega)
  rw [load16, hb0, hb1]
  show Except.ok _ = Except.ok _
  congr 1
  apply UInt16.toNat_inj.mp
  rw [toNat_word16, word, ← Control.load16_eq h,
    Control.Native.load16, ← h0, ← h1, ← @shiftLeft_mod _ _ 16 b1.toNat_lt (by omega)]
  rfl

/-- Inside the packet `load32` reads the word. -/
theorem load32_eq {p : List UInt8} {offset : Nat} (h : offset + 4 ≤ p.length) :
    load32 p offset = .ok (word32 p offset) := by
  obtain ⟨b0, hb0, h0⟩ := @byte_eq p offset (by omega)
  obtain ⟨b1, hb1, h1⟩ := @byte_eq p (offset + 1) (by omega)
  obtain ⟨b2, hb2, h2⟩ := @byte_eq p (offset + 2) (by omega)
  obtain ⟨b3, hb3, h3⟩ := @byte_eq p (offset + 3) (by omega)
  rw [load32, hb0, hb1, hb2, hb3]
  show Except.ok _ = Except.ok _
  congr 1
  apply UInt32.toNat_inj.mp
  rw [toNat_word32, word, ← Control.load32_eq h,
    Control.Native.load32, ← h0, ← h1, ← h2, ← h3,
    ← @shiftLeft_mod _ 8 32 b1.toNat_lt (by omega),
    ← @shiftLeft_mod _ 16 32 b2.toNat_lt (by omega),
    ← @shiftLeft_mod _ 24 32 b3.toNat_lt (by omega)]
  rfl

/-- Inside the packet `load64` reads the word. -/
theorem load64_eq {p : List UInt8} {offset : Nat} (h : offset + 8 ≤ p.length) :
    load64 p offset = .ok (word64 p offset) := by
  have hhigh := word_lt p (offset + 4) 4
  rw [load64, load32_eq (by omega), load32_eq (by omega)]
  show Except.ok _ = Except.ok _
  congr 1
  apply UInt64.toNat_inj.mp
  have hshift : word p (offset + 4) 4 <<< 32 % 2 ^ 64 = word p (offset + 4) 4 <<< 32 := by
    apply Nat.mod_eq_of_lt
    rw [Nat.shiftLeft_eq]
    omega
  have hword : word p offset 8 = word p offset 4 ||| word p (offset + 4) 4 <<< 32 := by
    unfold word
    rw [← Control.load64_eq h, Control.Native.load64, Control.load32_eq (by omega),
      Control.load32_eq (by omega)]
  rw [toNat_word64, hword, UInt64.toNat_or, UInt64.toNat_shiftLeft, UInt32.toNat_toUInt64,
    UInt32.toNat_toUInt64, toNat_word32, toNat_word32]
  exact congrArg (word p offset 4 ||| ·) hshift

/-- `read32` is the word at the offset. -/
theorem read32_eq_word {p : List UInt8} {offset : Nat} (h : offset + 4 ≤ p.length) :
    read32 p offset = word p offset 4 := by
  rw [read32_eq (load32_eq h), toNat_word32]

/-! ### Text -/

/-- A slice begins with its first byte. -/
theorem slice_succ {p : List UInt8} {offset : Nat} (size : Nat) (h : offset < p.length) :
    slice p offset (size + 1) = p[offset] :: slice p (offset + 1) size := by
  rw [slice, List.drop_eq_getElem_cons h, List.take_succ_cons]
  rfl

/-- The front of a slice is a slice. -/
theorem take_slice (p : List UInt8) (offset : Nat) {size count : Nat} (h : count ≤ size) :
    (slice p offset size).take count = slice p offset count := by
  rw [slice, List.take_take, Nat.min_eq_left h]
  rfl

/-- The back of a slice is a slice. -/
theorem drop_slice (p : List UInt8) (offset size count : Nat) :
    (slice p offset size).drop count = slice p (offset + count) (size - count) := by
  rw [slice, List.drop_take, List.drop_drop]
  rfl

/-- The bits of a byte under a mask, in a wider type. -/
theorem and_toUInt32 (b mask : UInt8) :
    (b &&& mask).toUInt32 = .ofNat (b.toNat &&& mask.toNat) := by
  rw [← UInt8.toNat_and]
  apply UInt32.toNat_inj.mp
  rw [UInt8.toNat_toUInt32, UInt32.toNat_ofNat']
  exact (Nat.mod_eq_of_lt ((b &&& mask).toNat_lt.trans (by decide))).symm

/-- The first byte is read as by the control protocol. -/
theorem lead_eq (first : UInt8) : lead first = (Control.Native.lead first.toNat).map
    fun found => (UInt32.ofNat found.1, UInt64.ofNat found.2) := by
  unfold lead Control.Native.lead
  rw [and_toUInt32, and_toUInt32, and_toUInt32]
  show (if 0xC2 ≤ first.toNat ∧ first.toNat ≤ 0xDF then _ else
    if 0xE0 ≤ first.toNat ∧ first.toNat ≤ 0xEF then _ else
    if 0xF0 ≤ first.toNat ∧ first.toNat ≤ 0xF4 then _ else _) = _
  split
  · rfl
  split
  · rfl
  split
  · rfl
  · rfl

/-- A character is refused as by the control protocol. -/
theorem refused_eq (extra : UInt64) (value : UInt32) :
    refused extra value = Control.Native.refused extra.toNat value.toNat := by
  have hextra : ∀ n : UInt64, (extra = n) = (extra.toNat = n.toNat) := by
    intro n
    rw [UInt64.toNat_inj]
  unfold refused Control.Native.refused
  simp only [hextra]
  rfl

/-- The inner loop, as long as its value has room for six more bits each time. -/
theorem continuations_eq {p : List UInt8} {base count : Nat} {i : UInt64} {value : UInt32}
    (hroom : base + i.toNat + count ≤ p.length) (hindex : i.toNat + count < 2 ^ 64)
    (hvalue : value.toNat * 64 ^ count + 64 ^ count ≤ 2 ^ 32) :
    continuations p base count i value =
      .ok ((Control.Native.continuations value.toNat (slice p (base + i.toNat) count)).map
        fun value => (i + .ofNat count, .ofNat value)) := by
  induction count generalizing i value with
  | zero =>
    rw [continuations, slice, List.take_zero, Control.Native.continuations, Option.map_some,
      UInt32.ofNat_toNat]
    show _ = Except.ok (some (i + 0, value))
    rw [UInt64.add_zero]
    rfl
  | succ count ih =>
    have hlt : base + i.toNat < p.length := by omega
    have hnext : (i + 1).toNat = i.toNat + 1 := by
      rw [UInt64.toNat_add]
      exact Nat.mod_eq_of_lt (by show i.toNat + 1 < 2 ^ 64; omega)
    have hpow : 64 ^ (count + 1) = 64 * 64 ^ count := Nat.pow_succ'
    rw [hpow] at hvalue
    have hpos : 0 < 64 ^ count := Nat.pow_pos (by omega)
    have hmask : (p[base + i.toNat] &&& 0xC0 ≠ 0x80) =
        (p[base + i.toNat].toNat &&& 0xC0 ≠ 0x80) := by
      rw [ne_eq, ne_eq, ← UInt8.toNat_inj, UInt8.toNat_and]
      rfl
    -- The shift does not leave the type, since there was room for it.
    have hsix : p[base + i.toNat].toNat &&& 0x3F < 64 :=
      Nat.lt_succ_of_le Nat.and_le_right
    have hsmall : value.toNat < 2 ^ 26 := by
      by_contra hlarge
      have := Nat.mul_le_mul (Nat.le_of_not_lt hlarge) (Nat.le_refl (64 * 64 ^ count))
      omega
    have hmoved : (value <<< 6 ||| (p[base + i.toNat] &&& 63).toUInt32).toNat =
        value.toNat <<< 6 ||| (p[base + i.toNat].toNat &&& 0x3F) := by
      rw [and_toUInt32, UInt32.toNat_or, UInt32.toNat_shiftLeft, UInt32.toNat_ofNat']
      congr 1
      · show value.toNat <<< 6 % 2 ^ 32 = value.toNat <<< 6
        apply Nat.mod_eq_of_lt
        rw [Nat.shiftLeft_eq]
        omega
      · exact Nat.mod_eq_of_lt (hsix.trans (by decide))
    have hshifted : value.toNat <<< 6 ||| (p[base + i.toNat].toNat &&& 0x3F) =
        value.toNat * 64 + (p[base + i.toNat].toNat &&& 0x3F) := by
      rw [Nat.or_comm, Control.or_shiftLeft (by omega)]
      omega
    rw [continuations, byte_ok hlt, Result.ok_bind, slice_succ count hlt,
      Control.Native.continuations]
    simp only [hmask]
    split
    · rfl
    · rw [ih (by omega) (by omega), hnext, hmoved]
      · congr 2
        funext value
        rw [UInt64.add_assoc, UInt64.ofNat_add, UInt64.add_comm 1]
        rfl
      · rw [hmoved, hshifted]
        calc (value.toNat * 64 + (p[base + i.toNat].toNat &&& 0x3F)) * 64 ^ count + 64 ^ count
            = (value.toNat * 64 + (p[base + i.toNat].toNat &&& 0x3F) + 1) * 64 ^ count := by ring
          _ ≤ (value.toNat * 64 + 64) * 64 ^ count := Nat.mul_le_mul_right _ (by omega)
          _ = value.toNat * (64 * 64 ^ count) + 64 * 64 ^ count := by ring
          _ ≤ 2 ^ 32 := hvalue

/-- The number of bytes behind a first byte, and the room for their bits. -/
theorem lead_bounds {first value extra : Nat}
    (h : Control.Native.lead first = some (value, extra)) : extra ≤ 3 ∧ value < 32 := by
  unfold Control.Native.lead at h
  split at h
  · cases h
    exact ⟨by omega, Nat.lt_succ_of_le Nat.and_le_right⟩
  split at h
  · cases h
    exact ⟨by omega, Nat.lt_of_le_of_lt Nat.and_le_right (by omega)⟩
  split at h
  · cases h
    exact ⟨by omega, Nat.lt_of_le_of_lt Nat.and_le_right (by omega)⟩
  · cases h

/-- The number of a character fits. -/
theorem continuations_lt {value moved : Nat} {bytes : List UInt8}
    (h : Control.Native.continuations value bytes = some moved) :
    moved + 1 ≤ (value + 1) * 64 ^ bytes.length := by
  induction bytes generalizing value with
  | nil =>
    cases h
    simp
  | cons next bytes ih =>
    rw [Control.continuations_cons] at h
    split at h
    · rename_i hnext
      have hlow := Control.low_lt hnext
      calc moved + 1 ≤ (value * 64 + Utf8.low next + 1) * 64 ^ bytes.length := ih h
        _ ≤ ((value + 1) * 64) * 64 ^ bytes.length := Nat.mul_le_mul_right _ (by omega)
        _ = (value + 1) * 64 ^ (next :: bytes).length := by rw [List.length_cons, pow_succ]; ring
    · cases h

/-- The outer loop, from the index `i` on. -/
theorem utf8From_eq {p : List UInt8} {base : Nat} {size : UInt64} {fuel : Nat} {i : UInt64}
    (hroom : base + size.toNat ≤ p.length) (hi : i.toNat ≤ size.toNat)
    (hfuel : size.toNat ≤ i.toNat + fuel) : utf8From p base size fuel i =
      .ok (Control.Native.validUtf8 (slice p (base + i.toNat) (size.toNat - i.toNat))) := by
  have hsize : size.toNat < 2 ^ 64 := size.toNat_lt
  induction fuel generalizing i with
  | zero =>
    rw [utf8From, if_neg (by rw [UInt64.lt_iff_toNat_lt]; omega), slice,
      show size.toNat - i.toNat = 0 by omega, List.take_zero, Control.Native.validUtf8]
    rfl
  | succ fuel ih =>
    rw [utf8From]
    by_cases hlt : i < size
    · rw [if_pos hlt]
      rw [UInt64.lt_iff_toNat_lt] at hlt
      have hindex : base + i.toNat < p.length := by omega
      have hnext : (i + 1).toNat = i.toNat + 1 := by
        rw [UInt64.toNat_add]
        exact Nat.mod_eq_of_lt (by show i.toNat + 1 < 2 ^ 64; omega)
      have hslice : slice p (base + i.toNat) (size.toNat - i.toNat) =
          p[base + i.toNat] :: slice p (base + (i + 1).toNat) (size.toNat - (i + 1).toNat) := by
        rw [show size.toNat - i.toNat = size.toNat - (i.toNat + 1) + 1 by omega,
          slice_succ _ hindex, hnext]
        rfl
      have hlength : (slice p (base + (i + 1).toNat) (size.toNat - (i + 1).toNat)).length =
          size.toNat - (i + 1).toNat := length_slice (by omega)
      have hleft : (size - (i + 1)).toNat = size.toNat - (i + 1).toNat :=
        UInt64.toNat_sub_of_le _ _ (by rw [UInt64.le_iff_toNat_le]; omega)
      rw [byte_ok hindex, Result.ok_bind, hslice, Control.Native.validUtf8]
      have hascii : (p[base + i.toNat] < 0x80) = (p[base + i.toNat].toNat < 0x80) := rfl
      simp only [hascii]
      split
      · exact ih (by omega) (by omega)
      · rw [lead_eq]
        cases hlead : Control.Native.lead p[base + i.toNat].toNat with
        | none => rfl
        | some found =>
          obtain ⟨value, extra⟩ := found
          obtain ⟨hextra, hvalue⟩ := lead_bounds hlead
          have hextraNat : (UInt64.ofNat extra).toNat = extra := by
            rw [UInt64.toNat_ofNat']
            exact Nat.mod_eq_of_lt (by omega)
          have hvalueNat : (UInt32.ofNat value).toNat = value := by
            rw [UInt32.toNat_ofNat']
            exact Nat.mod_eq_of_lt (by omega)
          have hshort : (UInt64.ofNat extra > size - (i + 1)) = (extra >
              (slice p (base + (i + 1).toNat) (size.toNat - (i + 1).toNat)).length) := by
            rw [gt_iff_lt, UInt64.lt_iff_toNat_lt, hleft, hextraNat, hlength]
          simp only [Option.map_some, hshort]
          split
          · rfl
          · rename_i henough
            rw [hlength, not_lt] at henough
            have hroomBits : (value + 1) * 64 ^ extra ≤ 32 * 64 ^ 3 :=
              Nat.mul_le_mul hvalue (Nat.pow_le_pow_right (by omega) hextra)
            have hbehind : (i + 1 + .ofNat extra).toNat = (i + 1).toNat + extra := by
              rw [UInt64.toNat_add, hextraNat]
              exact Nat.mod_eq_of_lt (by omega)
            have hfits : (UInt32.ofNat value).toNat * 64 ^ extra + 64 ^ extra ≤ 2 ^ 32 := by
              rw [hvalueNat, ← Nat.succ_mul]
              exact hroomBits.trans (by decide)
            rw [hextraNat, continuations_eq (by omega) (by omega) hfits, Result.ok_bind, hvalueNat,
              take_slice p _ henough, drop_slice, Nat.sub_sub, Nat.add_assoc, ← hbehind]
            cases hmoved : Control.Native.continuations value
                (slice p (base + (i + 1).toNat) extra) with
            | none => rfl
            | some moved =>
              have hbound := continuations_lt hmoved
              rw [length_slice (by omega)] at hbound
              have hfits := hbound.trans hroomBits
              have hmovedNat : (UInt32.ofNat moved).toNat = moved := by
                rw [UInt32.toNat_ofNat']
                exact Nat.mod_eq_of_lt (by omega)
              simp only [Option.map_some, refused_eq, hextraNat, hmovedNat]
              split
              · rfl
              · exact ih (by omega) (by omega)
    · rw [if_neg hlt]
      rw [UInt64.lt_iff_toNat_lt] at hlt
      rw [slice, show size.toNat - i.toNat = 0 by omega, List.take_zero, Control.Native.validUtf8]
      rfl

/-- `utf8` accepts the bytes that Python decodes. -/
theorem utf8_eq {p : List UInt8} {base : Nat} {size : UInt64}
    (h : base + size.toNat ≤ p.length) :
    utf8 p base size = .ok (Utf8.decode (slice p base size.toNat)).isSome := by
  rw [utf8, utf8From_eq h (Nat.zero_le _) (by simp), Control.validUtf8_eq]
  rfl

end Wmfs.Log.Native
