import Wmfs.Lib.Utf8

/-!
# `Wmfs.Lib.Utf8Scalars`: UTF-8 as the encodings of scalar values

A `Char` is a Unicode scalar value, and `String.utf8EncodeChar` has its UTF-8 form. `WellFormed`
bytes are the forms of scalar values, one after the other. They are the bytes that `decode`
accepts (`decode_isSome_iff_wellFormed`), so that the two descriptions of UTF-8 agree.

Nothing here refers to a particular program.
-/

set_option autoImplicit false

namespace Wmfs.Lib.Utf8

/-- The code point of a scalar value. -/
def ofChar (c : Char) : CodePoint := Fin.ofNat _ c.toNat

/-- The bytes are the UTF-8 forms of scalar values, one after the other. -/
def WellFormed (bytes : List UInt8) : Prop :=
  ∃ chars : List Char, chars.flatMap String.utf8EncodeChar = bytes

/-- The number of a character. -/
theorem val_ofChar (c : Char) : (ofChar c).val = c.toNat := by
  have hvalid : c.toNat < 0xD800 ∨ 0xDFFF < c.toNat ∧ c.toNat < 0x110000 := c.valid
  exact val_ofNat_of_lt (by omega)

/-- A character is no surrogate. -/
theorem isSurrogate_ofChar (c : Char) : isSurrogate (ofChar c).val = false := by
  have hvalid : c.toNat < 0xD800 ∨ 0xDFFF < c.toNat ∧ c.toNat < 0x110000 := c.valid
  rw [val_ofChar, isSurrogate_eq_false_iff]
  omega

/-- A code point that is no surrogate is a scalar value. -/
theorem exists_ofChar {point : CodePoint} (h : isSurrogate point.val = false) :
    ∃ c, ofChar c = point := by
  have hlt := point.isLt
  rw [isSurrogate_eq_false_iff] at h
  have hvalid : point.val.isValidChar := by
    rw [Nat.isValidChar]
    omega
  refine ⟨Char.ofNatAux point.val hvalid, ?_⟩
  apply Fin.ext
  rw [val_ofChar]
  rfl

/-- The forms of a scalar value agree. -/
theorem encodePoint_ofChar (c : Char) :
    encodePoint (ofChar c) = some (String.utf8EncodeChar c) := by
  have hvalid : c.toNat < 0xD800 ∨ 0xDFFF < c.toNat ∧ c.toNat < 0x110000 := c.valid
  have hsurrogate := isSurrogate_ofChar c
  have hvalue : c.val.toNat = c.toNat := rfl
  rw [val_ofChar] at hsurrogate
  unfold encodePoint String.utf8EncodeChar
  simp only [val_ofChar, hvalue, hsurrogate, Bool.false_eq_true, if_false]
  by_cases hone : c.toNat < 0x80
  · rw [if_pos hone, if_pos (show c.toNat ≤ 0x7F by omega)]
  rw [if_neg hone, if_neg (show ¬ c.toNat ≤ 0x7F by omega)]
  by_cases htwo : c.toNat < 0x800
  · rw [if_pos htwo, if_pos (show c.toNat ≤ 0x7FF by omega),
      Nat.mod_eq_of_lt (show c.toNat / 64 < 0x20 by omega), Nat.add_comm,
      Nat.add_comm (c.toNat % 64)]
  rw [if_neg htwo, if_neg (show ¬ c.toNat ≤ 0x7FF by omega)]
  by_cases hthree : c.toNat < 0x10000
  · rw [if_pos hthree, if_pos (show c.toNat ≤ 0xFFFF by omega),
      Nat.mod_eq_of_lt (show c.toNat / 4096 < 0x10 by omega), Nat.add_comm,
      Nat.add_comm (c.toNat / 64 % 64), Nat.add_comm (c.toNat % 64)]
  · rw [if_neg hthree, if_neg (show ¬ c.toNat ≤ 0xFFFF by omega),
      Nat.mod_eq_of_lt (show c.toNat / 262144 < 0x08 by omega), Nat.add_comm,
      Nat.add_comm (c.toNat / 4096 % 64), Nat.add_comm (c.toNat / 64 % 64),
      Nat.add_comm (c.toNat % 64)]

/-- The bytes of a text without surrogates. -/
theorem encode_map_ofChar (chars : List Char) :
    encode (chars.map ofChar) = some (chars.flatMap String.utf8EncodeChar) := by
  induction chars with
  | nil => rfl
  | cons c chars ih => exact encode_cons (encodePoint_ofChar c) ih

/-- A text without surrogates is a list of scalar values. -/
theorem exists_map_ofChar {text : Text} (h : ∀ point ∈ text, isSurrogate point.val = false) :
    ∃ chars : List Char, chars.map ofChar = text := by
  induction text with
  | nil => exact ⟨[], rfl⟩
  | cons point text ih =>
    rw [List.forall_mem_cons] at h
    obtain ⟨c, hc⟩ := exists_ofChar h.1
    obtain ⟨chars, hchars⟩ := ih h.2
    exact ⟨c :: chars, by rw [List.map_cons, hc, hchars]⟩

/-- The strict decoder accepts exactly the well-formed bytes. -/
theorem decode_isSome_iff_wellFormed {bytes : List UInt8} :
    (decode bytes).isSome ↔ WellFormed bytes := by
  constructor
  · intro h
    obtain ⟨text, htext⟩ := Option.isSome_iff_exists.mp h
    have hencode := encode_of_decode htext
    have hscalars : ∀ point ∈ text, isSurrogate point.val = false :=
      encode_isSome_iff.mp (by rw [hencode]; rfl)
    obtain ⟨chars, rfl⟩ := exists_map_ofChar hscalars
    rw [encode_map_ofChar] at hencode
    exact ⟨chars, Option.some.inj hencode⟩
  · intro ⟨chars, hchars⟩
    rw [← hchars, decode_encode (encode_map_ofChar chars)]
    rfl

end Wmfs.Lib.Utf8
