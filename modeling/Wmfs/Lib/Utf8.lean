import Mathlib.Tactic

/-!
# `Wmfs.Lib.Utf8`: text, its UTF-8 bytes, and texts cut on bytes

A `Text` is a list of code points, as a Python `str` is: it may hold lone surrogates, which
have no UTF-8 form. `encode` and `decode` are the strict codec. Each is the inverse of the
other (`decode_encode`, `encode_of_decode`), and bytes split where texts split
(`decode_encode_append`).

A prefix of the bytes of a text is the bytes of a text unless it ends inside a character. The
byte behind the cut decides this (`decode_take_isSome_iff`): the bytes of a character that
follow its first are continuation bytes, and no first byte is one.

Nothing here refers to a particular program.
-/

set_option autoImplicit false

namespace Wmfs.Lib.Utf8

/-- A code point, lone surrogates included. -/
abbrev CodePoint : Type := Fin 0x110000

/-- A text: its code points. -/
abbrev Text : Type := List CodePoint

/-- A numeral is a code point. -/
instance neZero_codePoints : NeZero 0x110000 := ⟨by decide⟩

/-- Equal texts have the same code points. -/
instance lawfulBEq_text : LawfulBEq Text := inferInstance

/-- The code points that have no UTF-8 form. -/
def isSurrogate (n : Nat) : Bool := 0xD800 ≤ n && n ≤ 0xDFFF

/-- The bytes that follow the first byte of a character. -/
def isContinuation (b : UInt8) : Bool := 0x80 ≤ b.toNat && b.toNat ≤ 0xBF

/-- The bytes of one code point. -/
def encodePoint (point : CodePoint) : Option (List UInt8) :=
  let n := point.val
  if n < 0x80 then
    some [.ofNat n]
  else if n < 0x800 then
    some [.ofNat (0xC0 + n / 64), .ofNat (0x80 + n % 64)]
  else if isSurrogate n then
    none
  else if n < 0x10000 then
    some [.ofNat (0xE0 + n / 4096), .ofNat (0x80 + n / 64 % 64), .ofNat (0x80 + n % 64)]
  else
    some [.ofNat (0xF0 + n / 262144), .ofNat (0x80 + n / 4096 % 64),
      .ofNat (0x80 + n / 64 % 64), .ofNat (0x80 + n % 64)]

/-- `text.encode()`. -/
def encode : Text → Option (List UInt8)
  | [] => some []
  | point :: text => do
    let head ← encodePoint point
    let tail ← encode text
    return head ++ tail

/-- The low six bits of a continuation byte. -/
def low (b : UInt8) : Nat := b.toNat - 0x80

/-- `bytes.decode()`. Overlong forms, surrogates and values above `0x10FFFF` are refused. -/
def decode : List UInt8 → Option Text
  | [] => some []
  | a :: rest =>
    if a.toNat < 0x80 then
      (decode rest).map (Fin.ofNat _ a.toNat :: ·)
    else match rest with
    | [] => none
    | b :: rest =>
      if !isContinuation b then
        none
      else if 0xC2 ≤ a.toNat ∧ a.toNat ≤ 0xDF then
        (decode rest).map (Fin.ofNat _ ((a.toNat - 0xC0) * 64 + low b) :: ·)
      else match rest with
      | [] => none
      | c :: rest =>
        if !isContinuation c then
          none
        else if 0xE0 ≤ a.toNat ∧ a.toNat ≤ 0xEF then
          let value := (a.toNat - 0xE0) * 4096 + low b * 64 + low c
          if value < 0x800 ∨ isSurrogate value then none
          else (decode rest).map (Fin.ofNat _ value :: ·)
        else match rest with
        | [] => none
        | d :: rest =>
          if !isContinuation d then
            none
          else if 0xF0 ≤ a.toNat ∧ a.toNat ≤ 0xF4 then
            let value := (a.toNat - 0xF0) * 262144 + low b * 4096 + low c * 64 + low d
            if value < 0x10000 ∨ 0x10FFFF < value then none
            else (decode rest).map (Fin.ofNat _ value :: ·)
          else none

/-! ### The codec is an inverse pair -/

/-- The four forms of a character. -/
theorem encodePoint_cases {point : CodePoint} {bytes : List UInt8}
    (h : encodePoint point = some bytes) :
    (point.val < 0x80 ∧ bytes = [.ofNat point.val]) ∨
    (0x80 ≤ point.val ∧ point.val < 0x800 ∧
      bytes = [.ofNat (0xC0 + point.val / 64), .ofNat (0x80 + point.val % 64)]) ∨
    (0x800 ≤ point.val ∧ point.val < 0x10000 ∧ isSurrogate point.val = false ∧
      bytes = [.ofNat (0xE0 + point.val / 4096), .ofNat (0x80 + point.val / 64 % 64),
        .ofNat (0x80 + point.val % 64)]) ∨
    (0x10000 ≤ point.val ∧
      bytes = [.ofNat (0xF0 + point.val / 262144), .ofNat (0x80 + point.val / 4096 % 64),
        .ofNat (0x80 + point.val / 64 % 64), .ofNat (0x80 + point.val % 64)]) := by
  simp only [encodePoint] at h
  split at h
  · exact .inl ⟨‹_›, (Option.some.inj h).symm⟩
  split at h
  · exact .inr (.inl ⟨by omega, ‹_›, (Option.some.inj h).symm⟩)
  split at h
  · cases h
  rename_i hsurrogate
  split at h
  · exact .inr (.inr (.inl ⟨by omega, ‹_›, by simpa using hsurrogate,
      (Option.some.inj h).symm⟩))
  · exact .inr (.inr (.inr ⟨by omega, (Option.some.inj h).symm⟩))

/-- A number below 256 is a byte. -/
theorem toNat_ofNat_of_lt {n : Nat} (h : n < 256) : (UInt8.ofNat n).toNat = n := by
  rw [UInt8.toNat_ofNat']; omega

/-- A continuation byte that `encodePoint` writes. -/
theorem isContinuation_ofNat {n : Nat} (h : n < 64) :
    isContinuation (.ofNat (0x80 + n)) = true := by
  rw [isContinuation, toNat_ofNat_of_lt (by omega)]
  simp; omega

/-- The six bits of a byte that continues a character. -/
theorem low_ofNat {n : Nat} (h : n < 64) : low (.ofNat (0x80 + n)) = n := by
  have hn := toNat_ofNat_of_lt (show 0x80 + n < 256 by omega)
  unfold low
  omega

/-- Decoding starts with the first character, whatever follows it. -/
theorem decode_encodePoint_append {point : CodePoint} {bytes : List UInt8}
    (h : encodePoint point = some bytes) (rest : List UInt8) :
    decode (bytes ++ rest) = (decode rest).map (point :: ·) := by
  have hpoint := point.isLt
  have hof : ∀ n, n = point.val → Fin.ofNat 0x110000 n = point := by
    intro n hn
    subst hn
    exact Fin.ofNat_val_eq_self point
  rcases encodePoint_cases h with ⟨h0, rfl⟩ | ⟨h1, h2, rfl⟩ | ⟨h1, h2, hs, rfl⟩ | ⟨h1, rfl⟩
  · have ha : (UInt8.ofNat point.val).toNat = point.val := toNat_ofNat_of_lt (by omega)
    rw [List.singleton_append, decode.eq_def]
    simp only [ha]
    rw [if_pos h0, hof _ rfl]
  · have ha := toNat_ofNat_of_lt (show 0xC0 + point.val / 64 < 256 by omega)
    have hb := isContinuation_ofNat (show point.val % 64 < 64 by omega)
    simp only [List.cons_append, List.nil_append]
    rw [decode.eq_def]
    simp only [ha, hb, low_ofNat (show point.val % 64 < 64 by omega), Bool.not_true]
    rw [if_neg (by omega), if_neg (by decide), if_pos (by omega), hof _ (by omega)]
  · have ha := toNat_ofNat_of_lt (show 0xE0 + point.val / 4096 < 256 by omega)
    have hb := isContinuation_ofNat (show point.val / 64 % 64 < 64 by omega)
    have hc := isContinuation_ofNat (show point.val % 64 < 64 by omega)
    have hvalue : (0xE0 + point.val / 4096 - 0xE0) * 4096 + point.val / 64 % 64 * 64 +
        point.val % 64 = point.val := by omega
    simp only [List.cons_append, List.nil_append]
    rw [decode.eq_def]
    simp only [ha, hb, hc, low_ofNat (show point.val / 64 % 64 < 64 by omega),
      low_ofNat (show point.val % 64 < 64 by omega), hvalue, hs, Bool.not_true]
    rw [if_neg (by omega), if_neg (by decide), if_neg (by omega), if_neg (by decide), if_pos (by omega),
      if_neg (by simp; omega), hof _ rfl]
  · have ha := toNat_ofNat_of_lt (show 0xF0 + point.val / 262144 < 256 by omega)
    have hb := isContinuation_ofNat (show point.val / 4096 % 64 < 64 by omega)
    have hc := isContinuation_ofNat (show point.val / 64 % 64 < 64 by omega)
    have hd := isContinuation_ofNat (show point.val % 64 < 64 by omega)
    have hvalue : (0xF0 + point.val / 262144 - 0xF0) * 262144 + point.val / 4096 % 64 * 4096 +
        point.val / 64 % 64 * 64 + point.val % 64 = point.val := by omega
    simp only [List.cons_append, List.nil_append]
    rw [decode.eq_def]
    simp only [ha, hb, hc, hd, low_ofNat (show point.val / 4096 % 64 < 64 by omega),
      low_ofNat (show point.val / 64 % 64 < 64 by omega),
      low_ofNat (show point.val % 64 < 64 by omega), hvalue, Bool.not_true]
    rw [if_neg (by omega), if_neg (by decide), if_neg (by omega), if_neg (by decide), if_neg (by omega),
      if_neg (by decide), if_pos (by omega), if_neg (by omega), hof _ rfl]

/-- The bytes of a text that is not empty are those of its first character and of the rest. -/
theorem exists_of_encode_cons {point : CodePoint} {text : Text} {bytes : List UInt8}
    (h : encode (point :: text) = some bytes) : ∃ head tail, encodePoint point = some head ∧
      encode text = some tail ∧ bytes = head ++ tail := by
  cases hhead : encodePoint point with
  | none => simp [encode, hhead] at h
  | some head =>
    cases htail : encode text with
    | none => simp [encode, hhead, htail] at h
    | some tail => exact ⟨head, tail, rfl, rfl, by simpa [encode, hhead, htail] using h.symm⟩

/-- Bytes split where texts split. -/
theorem decode_encode_append {text : Text} {bytes : List UInt8} (h : encode text = some bytes)
    (rest : List UInt8) : decode (bytes ++ rest) = (decode rest).map (text ++ ·) := by
  induction text generalizing bytes with
  | nil =>
    cases h
    simp
  | cons point text ih =>
    obtain ⟨head, tail, hhead, htail, rfl⟩ := exists_of_encode_cons h
    rw [List.append_assoc, decode_encodePoint_append hhead, ih htail, Option.map_map]
    rfl

/-- The bytes of a text decode to it. -/
theorem decode_encode {text : Text} {bytes : List UInt8} (h : encode text = some bytes) :
    decode bytes = some text := by
  have := decode_encode_append h []
  simpa [decode] using this

/-- A character that is read has the bytes that it was read from. -/
theorem encode_cons {point : CodePoint} {text : Text} {head tail : List UInt8}
    (hhead : encodePoint point = some head) (htail : encode text = some tail) :
    encode (point :: text) = some (head ++ tail) := by
  rw [encode, hhead, htail]
  rfl

/-- A number below `0x110000` is a code point. -/
theorem val_ofNat_of_lt {n : Nat} (h : n < 0x110000) : (Fin.ofNat 0x110000 n).val = n :=
  Nat.mod_eq_of_lt h

/-- A byte is the one with its number. -/
theorem ofNat_eq_of_toNat {b : UInt8} {n : Nat} (h : n = b.toNat) : UInt8.ofNat n = b := by
  rw [h, UInt8.ofNat_toNat]

/-- The value of a continuation byte. -/
theorem toNat_of_isContinuation {b : UInt8} (h : isContinuation b = true) :
    b.toNat = 0x80 + low b ∧ low b < 64 := by
  simp only [isContinuation, Bool.and_eq_true, decide_eq_true_iff] at h
  unfold low
  omega

/-- The one-byte form that `decode` reads is the one that `encodePoint` writes. -/
theorem encodePoint_ofNat_one {a : UInt8} (ha : a.toNat < 0x80) :
    encodePoint (Fin.ofNat _ a.toNat) = some [a] := by
  rw [encodePoint, val_ofNat_of_lt (by omega)]
  rw [if_pos ha, UInt8.ofNat_toNat]

/-- A character of two bytes. -/
theorem encodePoint_ofNat_two {a b : UInt8} (ha : 0xC2 ≤ a.toNat ∧ a.toNat ≤ 0xDF)
    (hb : isContinuation b = true) :
    encodePoint (Fin.ofNat _ ((a.toNat - 0xC0) * 64 + low b)) = some [a, b] := by
  obtain ⟨hb, hlb⟩ := toNat_of_isContinuation hb
  rw [encodePoint, val_ofNat_of_lt (by omega)]
  rw [if_neg (by omega), if_pos (by omega), ofNat_eq_of_toNat (b := a) (by omega),
    ofNat_eq_of_toNat (b := b) (by omega)]

/-- A character of three bytes. -/
theorem encodePoint_ofNat_three {a b c : UInt8} {value : Nat}
    (ha : 0xE0 ≤ a.toNat ∧ a.toNat ≤ 0xEF) (hb : isContinuation b = true)
    (hc : isContinuation c = true)
    (hvalue : value = (a.toNat - 0xE0) * 4096 + low b * 64 + low c)
    (h : ¬ (value < 0x800 ∨ isSurrogate value = true)) :
    encodePoint (Fin.ofNat _ value) = some [a, b, c] := by
  obtain ⟨hb, hlb⟩ := toNat_of_isContinuation hb
  obtain ⟨hc, hlc⟩ := toNat_of_isContinuation hc
  rw [not_or] at h
  rw [encodePoint, val_ofNat_of_lt (by omega)]
  rw [if_neg (by omega), if_neg h.1, if_neg h.2, if_pos (by omega),
    ofNat_eq_of_toNat (b := a) (by omega), ofNat_eq_of_toNat (b := b) (by omega),
    ofNat_eq_of_toNat (b := c) (by omega)]

/-- A character of four bytes. -/
theorem encodePoint_ofNat_four {a b c d : UInt8} {value : Nat}
    (ha : 0xF0 ≤ a.toNat ∧ a.toNat ≤ 0xF4) (hb : isContinuation b = true)
    (hc : isContinuation c = true) (hd : isContinuation d = true)
    (hvalue : value = (a.toNat - 0xF0) * 262144 + low b * 4096 + low c * 64 + low d)
    (h : ¬ (value < 0x10000 ∨ 0x10FFFF < value)) :
    encodePoint (Fin.ofNat _ value) = some [a, b, c, d] := by
  obtain ⟨hb, hlb⟩ := toNat_of_isContinuation hb
  obtain ⟨hc, hlc⟩ := toNat_of_isContinuation hc
  obtain ⟨hd, hld⟩ := toNat_of_isContinuation hd
  rw [encodePoint, val_ofNat_of_lt (by omega)]
  -- Values from `0x10000` on are above the surrogates.
  have hs : ¬ (isSurrogate value = true) := by
    simp only [isSurrogate, Bool.and_eq_true, decide_eq_true_iff]
    omega
  rw [if_neg (by omega), if_neg (by omega), if_neg hs, if_neg (by omega),
    ofNat_eq_of_toNat (b := a) (by omega), ofNat_eq_of_toNat (b := b) (by omega),
    ofNat_eq_of_toNat (b := c) (by omega), ofNat_eq_of_toNat (b := d) (by omega)]

/-- Bytes that decode are the bytes of the text that they decode to. -/
theorem encode_of_decode {bytes : List UInt8} {text : Text} (h : decode bytes = some text) :
    encode text = some bytes := by
  fun_induction decode bytes generalizing text
  case case1 =>
    cases h
    rfl
  -- The four forms of a character.
  case case2 a rest ha ih =>
    obtain ⟨text, htext, rfl⟩ := Option.map_eq_some_iff.mp h
    exact encode_cons (encodePoint_ofNat_one ha) (ih htext)
  case case5 a ha b rest hb h2 ih =>
    obtain ⟨text, htext, rfl⟩ := Option.map_eq_some_iff.mp h
    exact encode_cons (encodePoint_ofNat_two h2 (by simpa using hb)) (ih htext)
  case case9 a _ b hb _ c rest hc h3 value hvalue ih =>
    obtain ⟨text, htext, rfl⟩ := Option.map_eq_some_iff.mp h
    exact encode_cons
      (encodePoint_ofNat_three h3 (by simpa using hb) (by simpa using hc) rfl hvalue) (ih htext)
  case case13 a _ b hb _ c hc _ d rest hd h4 value hvalue ih =>
    obtain ⟨text, htext, rfl⟩ := Option.map_eq_some_iff.mp h
    exact encode_cons
      (encodePoint_ofNat_four h4 (by simpa using hb) (by simpa using hc) (by simpa using hd) rfl
        hvalue) (ih htext)
  all_goals cases h

/-- The text of a string literal. -/
def ofString (s : String) : Text := s.toList.map fun c => Fin.ofNat _ c.toNat

/-- The numbers that are no surrogates. -/
theorem isSurrogate_eq_false_iff {n : Nat} :
    isSurrogate n = false ↔ n < 0xD800 ∨ 0xDFFF < n := by
  rw [isSurrogate, Bool.and_eq_false_iff, decide_eq_false_iff_not, decide_eq_false_iff_not]
  omega

/-- What is no surrogate is encoded. -/
theorem encodePoint_isSome_iff {point : CodePoint} :
    (encodePoint point).isSome ↔ isSurrogate point.val = false := by
  simp only [encodePoint]
  split
  · simp only [Option.isSome_some, true_iff, isSurrogate_eq_false_iff]
    omega
  split
  · simp only [Option.isSome_some, true_iff, isSurrogate_eq_false_iff]
    omega
  cases isSurrogate point.val with
  | true => simp
  | false =>
    rw [if_neg (by decide)]
    split <;> simp

/-- A text has a UTF-8 form when it has no lone surrogates. -/
theorem encode_isSome_iff {text : Text} :
    (encode text).isSome ↔ ∀ point ∈ text, isSurrogate point.val = false := by
  induction text with
  | nil => simp [encode]
  | cons point text ih =>
    rw [List.forall_mem_cons, ← ih, ← encodePoint_isSome_iff]
    cases hhead : encodePoint point with
    | none => simp [encode, hhead]
    | some head =>
      cases htail : encode text with
      | none => simp [encode, hhead, htail]
      | some tail => simp [encode, hhead, htail]

/-- String literals have no lone surrogates. -/
theorem encode_ofString_isSome (s : String) : (encode (ofString s)).isSome := by
  rw [encode_isSome_iff, ofString, List.forall_mem_map]
  intro c _
  have hvalid : c.toNat < 0xD800 ∨ 0xDFFF < c.toNat ∧ c.toNat < 0x110000 := c.valid
  rw [val_ofNat_of_lt (by omega), isSurrogate_eq_false_iff]
  omega

/-! ### Texts cut on bytes -/

/-- The cut behind the first `n` bytes falls inside a character. -/
def cutsCharacter (bytes : List UInt8) (n : Nat) : Bool := (bytes[n]?).any isContinuation

/-- A cut behind the last byte falls behind the last character. -/
theorem cutsCharacter_of_length_le {bytes : List UInt8} {n : Nat} (h : bytes.length ≤ n) :
    cutsCharacter bytes n = false := by
  rw [cutsCharacter, List.getElem?_eq_none h]
  rfl

/-- A character is a first byte, which is no continuation byte, and continuation bytes. -/
theorem encodePoint_eq_cons {point : CodePoint} {bytes : List UInt8}
    (h : encodePoint point = some bytes) : ∃ first rest, bytes = first :: rest ∧
      isContinuation first = false ∧ ∀ b ∈ rest, isContinuation b = true := by
  have hpoint := point.isLt
  have hfirst : ∀ n, n < 256 → (n < 0x80 ∨ 0xC0 ≤ n) → isContinuation (.ofNat n) = false := by
    intro n hn hn'
    rw [isContinuation, toNat_ofNat_of_lt hn, Bool.and_eq_false_iff]
    simp only [decide_eq_false_iff_not]
    omega
  rcases encodePoint_cases h with ⟨h0, rfl⟩ | ⟨h1, h2, rfl⟩ | ⟨h1, h2, hs, rfl⟩ | ⟨h1, rfl⟩
  · exact ⟨_, [], rfl, hfirst _ (by omega) (by omega), by simp⟩
  · refine ⟨_, _, rfl, hfirst _ (by omega) (by omega), ?_⟩
    simp only [List.forall_mem_cons, List.not_mem_nil, false_implies, implies_true, and_true]
    exact isContinuation_ofNat (by omega)
  · refine ⟨_, _, rfl, hfirst _ (by omega) (by omega), ?_⟩
    simp only [List.forall_mem_cons, List.not_mem_nil, false_implies, implies_true, and_true]
    exact ⟨isContinuation_ofNat (by omega), isContinuation_ofNat (by omega)⟩
  · refine ⟨_, _, rfl, hfirst _ (by omega) (by omega), ?_⟩
    simp only [List.forall_mem_cons, List.not_mem_nil, false_implies, implies_true, and_true]
    exact ⟨isContinuation_ofNat (by omega), isContinuation_ofNat (by omega),
      isContinuation_ofNat (by omega)⟩

/-- No text starts with a continuation byte. -/
theorem cutsCharacter_zero {text : Text} {bytes : List UInt8} (h : encode text = some bytes) :
    cutsCharacter bytes 0 = false := by
  cases text with
  | nil => cases h; rfl
  | cons point text =>
    obtain ⟨head, tail, hhead, _, rfl⟩ := exists_of_encode_cons h
    obtain ⟨first, rest, rfl, hfirst, _⟩ := encodePoint_eq_cons hhead
    simpa [cutsCharacter] using hfirst

/-- What a prefix of the bytes of a text decodes to is a prefix of the text, and the cut is
between two characters. -/
theorem prefix_of_decode_take {text cut : Text} {bytes : List UInt8} {n : Nat}
    (h : encode text = some bytes) (hcut : decode (bytes.take n) = some cut) :
    cut <+: text ∧ cutsCharacter bytes n = false := by
  have hbytes : decode (bytes.take n ++ bytes.drop n) = some text := by
    rw [List.take_append_drop]
    exact decode_encode h
  -- Bytes split where texts split, so the rest of the bytes is the rest of the text.
  rw [decode_encode_append (encode_of_decode hcut)] at hbytes
  obtain ⟨rest, hrest, rfl⟩ := Option.map_eq_some_iff.mp hbytes
  have hzero := cutsCharacter_zero (encode_of_decode hrest)
  rw [cutsCharacter, List.getElem?_drop, Nat.add_zero] at hzero
  exact ⟨List.prefix_append cut rest, hzero⟩

/-- A cut between two characters leaves the bytes of a text. -/
theorem exists_decode_take {text : Text} {bytes : List UInt8} {n : Nat}
    (h : encode text = some bytes) (hcut : cutsCharacter bytes n = false) :
    ∃ cut, decode (bytes.take n) = some cut := by
  induction text generalizing bytes n with
  | nil =>
    cases h
    exact ⟨[], by simp [decode]⟩
  | cons point text ih =>
    obtain ⟨head, tail, hhead, htail, rfl⟩ := exists_of_encode_cons h
    obtain ⟨first, rest, rfl, _, hrest⟩ := encodePoint_eq_cons hhead
    cases n with
    | zero => exact ⟨[], by simp [decode]⟩
    | succ n =>
      by_cases hn : n < rest.length
      · -- The cut is inside the first character.
        have hmem : rest[n] ∈ rest := List.getElem_mem hn
        rw [cutsCharacter, List.cons_append, List.getElem?_cons_succ,
          List.getElem?_append_left hn, List.getElem?_eq_getElem hn, Option.any_some,
          hrest _ hmem] at hcut
        cases hcut
      · have htake : (first :: rest ++ tail).take (n + 1)
            = first :: rest ++ tail.take (n - rest.length) := by
          rw [List.cons_append, List.take_succ_cons, List.take_append,
            List.take_of_length_le (by omega), List.cons_append]
        rw [cutsCharacter, List.cons_append, List.getElem?_cons_succ,
          List.getElem?_append_right (by omega)] at hcut
        obtain ⟨cut, hcut⟩ := ih htail hcut
        exact ⟨point :: cut, by rw [htake, decode_encodePoint_append hhead, hcut]; rfl⟩

/-- A prefix of the bytes of a text decodes exactly when the cut is between two characters. -/
theorem decode_take_isSome_iff {text : Text} {bytes : List UInt8} {n : Nat}
    (h : encode text = some bytes) :
    (decode (bytes.take n)).isSome ↔ cutsCharacter bytes n = false := by
  rw [Option.isSome_iff_exists]
  constructor
  · intro ⟨cut, hcut⟩
    exact (prefix_of_decode_take h hcut).2
  · intro hcut
    exact exists_decode_take h hcut

end Wmfs.Lib.Utf8
