import Wmfs.Lib.Utf8

/-!
# `Wmfs.Lib.Utf8Prefix`: the longest prefix of a text in a number of bytes

`decodeIgnore` is `bytes.decode("utf-8", "ignore")`: it leaves out what does not decode. On the
first `n` bytes of a text it gives `cut text n`, the longest prefix of the text whose bytes fit
into `n` (`decodeIgnore_take`): the character that the cut falls into is left out.

`cut` is monotone in `n`, and a shorter cut is the cut of a longer one when the longer one still
fits (`cut_eq_cut`). The text is whole exactly when all of its bytes fit (`cut_eq_self_iff`).

Nothing here refers to a particular program.
-/

set_option autoImplicit false

namespace Wmfs.Lib.Utf8

/-! ### Sizes -/

/-- The number of bytes of a character. -/
def pointSize (point : CodePoint) : Nat :=
  if point.val < 0x80 then 1 else if point.val < 0x800 then 2
  else if point.val < 0x10000 then 3 else 4

/-- The number of bytes of a text. -/
def size : Text → Nat
  | [] => 0
  | point :: text => pointSize point + size text

/-- A character has a byte. -/
theorem pointSize_pos (point : CodePoint) : 0 < pointSize point := by
  unfold pointSize
  split
  · omega
  · split
    · omega
    · split <;> omega

/-- A character has the bytes of its size. -/
theorem length_of_encodePoint {point : CodePoint} {bytes : List UInt8}
    (h : encodePoint point = some bytes) : bytes.length = pointSize point := by
  unfold pointSize
  rcases encodePoint_cases h with ⟨h0, rfl⟩ | ⟨h1, h2, rfl⟩ | ⟨h1, h2, _, rfl⟩ | ⟨h1, rfl⟩
  · rw [if_pos h0]
    rfl
  · rw [if_neg (by omega), if_pos h2]
    rfl
  · rw [if_neg (by omega), if_neg (by omega), if_pos h2]
    rfl
  · rw [if_neg (by omega), if_neg (by omega), if_neg (by omega)]
    rfl

/-- A text has as many bytes as its size says. -/
theorem length_of_encode {text : Text} {bytes : List UInt8} (h : encode text = some bytes) :
    bytes.length = size text := by
  induction text generalizing bytes with
  | nil =>
    cases h
    rfl
  | cons point text ih =>
    obtain ⟨head, tail, hhead, htail, rfl⟩ := exists_of_encode_cons h
    rw [List.length_append, length_of_encodePoint hhead, ih htail, size]

/-- Only the empty text has no bytes. -/
theorem size_eq_zero_iff {text : Text} : size text = 0 ↔ text = [] := by
  cases text with
  | nil => exact ⟨fun _ => rfl, fun _ => rfl⟩
  | cons point text =>
    have := pointSize_pos point
    rw [size]
    constructor
    · intro h
      omega
    · intro h
      cases h

/-! ### Cuts -/

/-- The longest prefix of the text with at most `n` bytes. -/
def cut : Text → Nat → Text
  | [], _ => []
  | point :: text, n =>
    if pointSize point ≤ n then point :: cut text (n - pointSize point) else []

/-- A cut text is a prefix. -/
theorem cut_prefix (text : Text) (n : Nat) : cut text n <+: text := by
  induction text generalizing n with
  | nil => exact List.prefix_rfl
  | cons point text ih =>
    rw [cut]
    split
    · exact (List.prefix_cons_inj point).mpr (ih _)
    · exact List.nil_prefix

/-- A cut text fits into the limit. -/
theorem size_cut_le (text : Text) (n : Nat) : size (cut text n) ≤ n := by
  induction text generalizing n with
  | nil => exact Nat.zero_le n
  | cons point text ih =>
    rw [cut]
    split
    · have := ih (n - pointSize point)
      rw [size]
      omega
    · exact Nat.zero_le n

/-- A cut text is no longer than the text. -/
theorem size_cut_le_size (text : Text) (n : Nat) : size (cut text n) ≤ size text := by
  induction text generalizing n with
  | nil => exact le_rfl
  | cons point text ih =>
    rw [cut]
    split
    · have := ih (n - pointSize point)
      rw [size, size]
      omega
    · exact Nat.zero_le _

/-- A text that fits is not cut. -/
theorem cut_eq_self {text : Text} {n : Nat} (h : size text ≤ n) : cut text n = text := by
  induction text generalizing n with
  | nil => rfl
  | cons point text ih =>
    rw [size] at h
    rw [cut, if_pos (by omega), ih (by omega)]

/-- A text is whole exactly when it fits. -/
theorem cut_eq_self_iff {text : Text} {n : Nat} : cut text n = text ↔ size text ≤ n := by
  constructor
  · intro h
    rw [← h]
    exact size_cut_le text n
  · exact cut_eq_self

/-- A longer cut that fits into fewer bytes is the cut to these. -/
theorem cut_eq_cut {text : Text} {m n : Nat} (hle : n ≤ m) (h : size (cut text m) ≤ n) :
    cut text m = cut text n := by
  induction text generalizing m n with
  | nil => rfl
  | cons point text ih =>
    by_cases hm : pointSize point ≤ m
    · rw [cut, if_pos hm, size] at h
      have hrest := ih (m := m - pointSize point) (n := n - pointSize point) (by omega) (by omega)
      rw [cut, cut, if_pos hm, if_pos (by omega), hrest]
    · rw [cut, cut, if_neg hm, if_neg (by omega)]

/-- A cut that leaves something out leaves less than a character free. -/
theorem lt_size_cut {text : Text} {n : Nat} (h : n < size text) : n < size (cut text n) + 4 := by
  induction text generalizing n with
  | nil =>
    rw [size] at h
    omega
  | cons point text ih =>
    have hpoint : pointSize point ≤ 4 := by
      unfold pointSize
      split
      · omega
      · split
        · omega
        · split <;> omega
    rw [size] at h
    rw [cut]
    split
    · have := ih (n := n - pointSize point) (by omega)
      rw [size]
      omega
    · omega

/-- A prefix of a text that has a UTF-8 form has one. -/
theorem encode_prefix_isSome {text front : Text} (h : (encode text).isSome)
    (hfront : front <+: text) : (encode front).isSome := by
  rw [encode_isSome_iff] at h ⊢
  intro point hpoint
  exact h point (hfront.subset hpoint)

/-! ### Decoding what decodes -/

/-- The character in front of the bytes, and how many bytes it has: the shortest start of the
bytes that decodes, which has four bytes at most. -/
def decodePoint (bytes : List UInt8) : Option (CodePoint × Nat) :=
  [1, 2, 3, 4].findSome? fun n =>
    match decode (bytes.take n) with
    | some [point] => some (point, n)
    | _ => none

/-- `decodeIgnore` behind `skip` bytes that belong to the last character. -/
def decodeIgnoreFrom : Nat → List UInt8 → Text
  | _, [] => []
  | skip + 1, _ :: bytes => decodeIgnoreFrom skip bytes
  | 0, b :: bytes =>
    match decodePoint (b :: bytes) with
    | some (point, n) => point :: decodeIgnoreFrom (n - 1) bytes
    | none => decodeIgnoreFrom 0 bytes

/-- `bytes.decode("utf-8", "ignore")`. A byte that no character starts with is left out. The
bytes of a sequence that breaks off are such bytes, one after the other. -/
def decodeIgnore (bytes : List UInt8) : Text := decodeIgnoreFrom 0 bytes

/-- The bytes that are skipped. -/
theorem decodeIgnoreFrom_append (front rest : List UInt8) :
    decodeIgnoreFrom front.length (front ++ rest) = decodeIgnore rest := by
  induction front with
  | nil => rfl
  | cons b front ih => exact ih

/-- The bytes of a character do not decode before they are complete. -/
theorem decode_take_encodePoint {point : CodePoint} {bytes : List UInt8}
    (h : encodePoint point = some bytes) {n : Nat} (hpos : 0 < n) (hn : n < bytes.length) :
    decode (bytes.take n) = none := by
  have htext : encode [point] = some bytes := by
    rw [encode_cons h (show encode [] = some [] from rfl), List.append_nil]
  obtain ⟨first, rest, rfl, _, hrest⟩ := encodePoint_eq_cons h
  rw [List.length_cons] at hn
  have hinside : cutsCharacter (first :: rest) n = true := by
    obtain ⟨k, rfl⟩ : ∃ k, n = k + 1 := ⟨n - 1, by omega⟩
    rw [cutsCharacter, List.getElem?_cons_succ, List.getElem?_eq_getElem (by omega),
      Option.any_some]
    exact hrest _ (List.getElem_mem _)
  have hnot := (decode_take_isSome_iff htext (n := n)).not.mpr (by rw [hinside]; decide)
  simpa using hnot

/-- Bytes that start in the middle of a character do not decode. -/
theorem decode_of_isContinuation {b : UInt8} {bytes : List UInt8} (h : isContinuation b = true) :
    decode (b :: bytes) = none := by
  cases hdecode : decode (b :: bytes) with
  | none => rfl
  | some text =>
    have hzero := cutsCharacter_zero (encode_of_decode hdecode)
    rw [cutsCharacter, List.getElem?_cons_zero, Option.any_some, h] at hzero
    cases hzero

/-- Nothing is in front when no start of the bytes decodes. -/
theorem decodePoint_eq_none {bytes : List UInt8}
    (h : ∀ n, 0 < n → decode (bytes.take n) = none) : decodePoint bytes = none := by
  simp [decodePoint, h]

/-- A character in front of other bytes is found. -/
theorem decodePoint_append {point : CodePoint} {bytes : List UInt8}
    (h : encodePoint point = some bytes) (rest : List UInt8) :
    decodePoint (bytes ++ rest) = some (point, bytes.length) := by
  have hlength := length_of_encodePoint h
  have hwhole : decode ((bytes ++ rest).take bytes.length) = some [point] := by
    rw [List.take_left, ← List.append_nil bytes, decode_encodePoint_append h]
    rfl
  have hearly : ∀ n, 0 < n → n < bytes.length → decode ((bytes ++ rest).take n) = none := by
    intro n hpos hn
    rw [List.take_append_of_le_length (by omega)]
    exact decode_take_encodePoint h hpos hn
  -- The candidates in front of the length of the character fail, and this one succeeds.
  have hcases : bytes.length = 1 ∨ bytes.length = 2 ∨ bytes.length = 3 ∨ bytes.length = 4 := by
    rw [hlength]
    unfold pointSize
    split
    · omega
    · split
      · omega
      · split <;> omega
  unfold decodePoint
  rcases hcases with hn | hn | hn | hn <;> rw [hn] at hwhole hearly ⊢
  · rw [List.findSome?_cons, hwhole]
  · rw [List.findSome?_cons, hearly 1 (by omega) (by omega), List.findSome?_cons, hwhole]
  · rw [List.findSome?_cons, hearly 1 (by omega) (by omega), List.findSome?_cons,
      hearly 2 (by omega) (by omega), List.findSome?_cons, hwhole]
  · rw [List.findSome?_cons, hearly 1 (by omega) (by omega), List.findSome?_cons,
      hearly 2 (by omega) (by omega), List.findSome?_cons, hearly 3 (by omega) (by omega),
      List.findSome?_cons, hwhole]

/-- A character in front is decoded. -/
theorem decodeIgnore_append {point : CodePoint} {bytes : List UInt8}
    (h : encodePoint point = some bytes) (rest : List UInt8) :
    decodeIgnore (bytes ++ rest) = point :: decodeIgnore rest := by
  have hpoint := decodePoint_append h rest
  obtain ⟨first, tail, rfl, _, _⟩ := encodePoint_eq_cons h
  rw [List.cons_append] at hpoint ⊢
  rw [decodeIgnore, decodeIgnoreFrom, hpoint]
  show point :: decodeIgnoreFrom tail.length (tail ++ rest) = _
  rw [decodeIgnoreFrom_append]

/-- Bytes from the middle of a character are left out. -/
theorem decodeIgnore_continuations {bytes : List UInt8}
    (h : ∀ b ∈ bytes, isContinuation b = true) : decodeIgnore bytes = [] := by
  induction bytes with
  | nil => rfl
  | cons b bytes ih =>
    have hnone : decodePoint (b :: bytes) = none := by
      apply decodePoint_eq_none
      intro n hpos
      obtain ⟨k, rfl⟩ : ∃ k, n = k + 1 := ⟨n - 1, by omega⟩
      exact decode_of_isContinuation (h b (by simp))
    rw [decodeIgnore, decodeIgnoreFrom, hnone]
    exact ih fun b' hb' => h b' (List.mem_cons_of_mem b hb')

/-- A character that breaks off is left out. -/
theorem decodeIgnore_take_encodePoint {point : CodePoint} {bytes : List UInt8}
    (h : encodePoint point = some bytes) {n : Nat} (hn : n < bytes.length) :
    decodeIgnore (bytes.take n) = [] := by
  cases n with
  | zero => rfl
  | succ n =>
    have hnone : decodePoint (bytes.take (n + 1)) = none := by
      apply decodePoint_eq_none
      intro k hk
      rw [List.take_take]
      exact decode_take_encodePoint h (by omega) (by omega)
    obtain ⟨first, tail, rfl, _, htail⟩ := encodePoint_eq_cons h
    rw [List.take_succ_cons] at hnone ⊢
    rw [decodeIgnore, decodeIgnoreFrom, hnone]
    apply decodeIgnore_continuations
    intro b hb
    exact htail b (List.mem_of_mem_take hb)

/-- The first bytes of a text hold the longest prefix that fits into them. -/
theorem decodeIgnore_take {text : Text} {bytes : List UInt8} (h : encode text = some bytes)
    (n : Nat) : decodeIgnore (bytes.take n) = cut text n := by
  induction text generalizing bytes n with
  | nil =>
    cases h
    rw [List.take_nil]
    rfl
  | cons point text ih =>
    obtain ⟨head, tail, hhead, htail, rfl⟩ := exists_of_encode_cons h
    have hlength := length_of_encodePoint hhead
    rw [cut]
    split
    · rename_i hfits
      rw [List.take_append, List.take_of_length_le (by omega), decodeIgnore_append hhead,
        ih htail, hlength]
    · rw [List.take_append_of_le_length (by omega)]
      exact decodeIgnore_take_encodePoint hhead (by omega)

end Wmfs.Lib.Utf8
