import Mathlib.Data.List.GetD
import Wmfs.Lib.Bytes

/-!
# `Wmfs.Lib.Words`: records of unsigned words, and the stores that write them

`layWords format words` are the little-endian words of a format, one behind the other. A reader
of the format has the words back (`unpack_layWords`), and a store at the place of a word replaces
this word (`splice_word`, `splice_low`).

A writer that stores from front to back into zeros leaves what it has stored, with zeros in
the gaps. `stores` runs the stores, `laid` are the bytes that they leave, and
`stores_append_zeros` connects the two.

Nothing here refers to a particular program.
-/

set_option autoImplicit false

namespace Wmfs.Lib

/-! ### Words -/

/-- The little-endian words of a format, one behind the other. -/
def layWords : List Field → List Nat → List UInt8
  | f :: format, n :: words => le f.width n ++ layWords format words
  | _, _ => []

/-- Words that fit their fields are read back. -/
theorem unpack_layWords {format : List Field} {words : List Nat}
    (hsigned : ∀ f ∈ format, f.signed = false)
    (h : List.Forall₂ (fun f n => n < 256 ^ f.width) format words) (rest : List UInt8) :
    unpack format (layWords format words ++ rest) = words.map Int.ofNat := by
  induction h with
  | nil => rfl
  | @cons f n format words hn _ ih =>
    rw [List.forall_mem_cons] at hsigned
    have hlength : (le f.width n).length = f.width := length_le _ _
    have hlow : f.low = 0 := by rw [Field.low, hsigned.1]; rfl
    have hvalue : f.value (le f.width n) = n := by
      rw [Field.value, ofLe_le hn, hlow, if_neg]
      have hlt : n < f.modulus := hn
      omega
    rw [layWords, List.append_assoc, unpack, List.take_left' hlength, List.drop_left' hlength,
      hvalue, ih hsigned.2, List.map_cons]
    rfl

/-- Words take the bytes of their format. -/
@[simp] theorem length_layWords {format : List Field} {words : List Nat}
    (h : words.length = format.length) : (layWords format words).length = formatSize format := by
  induction format generalizing words with
  | nil => cases words <;> rfl
  | cons f format ih =>
    cases words with
    | nil => cases h
    | cons n words =>
      rw [layWords, List.length_append, length_le, ih (Nat.succ.inj h)]
      simp [formatSize]

/-! ### A store over a word -/

/-- A store behind the first part. -/
theorem splice_append_right (front back : List UInt8) (offset : Nat) (bytes : List UInt8) :
    splice (front ++ back) (front.length + offset) bytes = front ++ splice back offset bytes := by
  rw [splice, splice, List.take_length_add_append, Nat.add_assoc, List.drop_length_add_append,
    List.append_assoc, List.append_assoc, List.append_assoc]

/-- A store to the front. -/
theorem splice_zero {old new : List UInt8} (h : new.length = old.length) (back : List UInt8) :
    splice (old ++ back) 0 new = new ++ back :=
  @splice_middle [] old new back h

section
variable {format : List Field} {words : List Nat} {i m : Nat}

/-- A store at the place of a word replaces the word. -/
theorem splice_word (hlength : words.length = format.length) (hi : i < format.length)
    (rest : List UInt8) :
    splice (layWords format words ++ rest) (formatSize (format.take i)) (le format[i].width m) =
      layWords format (words.set i m) ++ rest := by
  induction format generalizing words i with
  | nil => cases hi
  | cons f format ih =>
    cases words with
    | nil => cases hlength
    | cons n words =>
      have hwidth : (le f.width n).length = f.width := length_le _ _
      cases i with
      | zero =>
        rw [layWords, List.append_assoc]
        show splice _ 0 (le f.width m) = layWords (f :: format) (m :: words) ++ rest
        rw [splice_zero (by rw [length_le, length_le]), layWords, List.append_assoc]
      | succ i =>
        have hoffset : formatSize ((f :: format).take (i + 1)) =
            (le f.width n).length + formatSize (format.take i) := by
          rw [hwidth]
          rfl
        rw [layWords, List.append_assoc, hoffset, splice_append_right, List.getElem_cons_succ,
          ih (Nat.succ.inj hlength), List.set_cons_succ, layWords, List.append_assoc]

/-- The low byte of a word. -/
theorem getD_low (hlength : words.length = format.length) (hi : i < format.length)
    (hwidth : 0 < format[i].width) (rest : List UInt8) :
    (layWords format words ++ rest).getD (formatSize (format.take i)) 0 =
      .ofNat (words.getD i 0) := by
  induction format generalizing words i with
  | nil => cases hi
  | cons f format ih =>
    cases words with
    | nil => cases hlength
    | cons n words =>
      cases i with
      | zero =>
        obtain ⟨width, hf⟩ := Nat.exists_eq_add_one.mpr (show 0 < f.width from hwidth)
        rw [layWords, hf, le]
        rfl
      | succ i =>
        have hoffset : formatSize ((f :: format).take (i + 1)) =
            (le f.width n).length + formatSize (format.take i) := by
          rw [length_le]
          rfl
        rw [layWords, List.append_assoc, hoffset, List.getD_append_right _ _ _ _ (by omega),
          Nat.add_sub_cancel_left, ih (Nat.succ.inj hlength) (by simpa using hi) hwidth,
          List.getD_cons_succ]

/-- A store over the low byte of a word replaces the word, when the other bytes are the same. -/
theorem splice_low (hlength : words.length = format.length) (hi : i < format.length)
    (hwidth : 0 < format[i].width) (hhigh : m / 256 = words.getD i 0 / 256) (rest : List UInt8) :
    splice (layWords format words ++ rest) (formatSize (format.take i)) [.ofNat m] =
      layWords format (words.set i m) ++ rest := by
  induction format generalizing words i with
  | nil => cases hi
  | cons f format ih =>
    cases words with
    | nil => cases hlength
    | cons n words =>
      cases i with
      | zero =>
        obtain ⟨width, hf⟩ := Nat.exists_eq_add_one.mpr (show 0 < f.width from hwidth)
        have hsame : m / 256 = n / 256 := hhigh
        show splice _ 0 _ = layWords (f :: format) (m :: words) ++ rest
        rw [layWords, layWords, hf, le, le, hsame]
        rfl
      | succ i =>
        have hoffset : formatSize ((f :: format).take (i + 1)) =
            (le f.width n).length + formatSize (format.take i) := by
          rw [length_le]
          rfl
        rw [layWords, List.append_assoc, hoffset, splice_append_right,
          ih (Nat.succ.inj hlength) (by simpa using hi) hwidth hhigh, List.set_cons_succ, layWords,
          List.append_assoc]

end

/-! ### Stores into zeros -/

/-- Stores, one after the other. -/
def stores (data : List UInt8) (writes : List (Nat × List UInt8)) : List UInt8 :=
  writes.foldl (fun data write => splice data write.1 write.2) data

/-- What stores from `offset` on leave behind them, with zeros in the gaps. -/
def laid : Nat → List (Nat × List UInt8) → List UInt8
  | _, [] => []
  | offset, (place, bytes) :: writes =>
    zeros (place - offset) ++ bytes ++ laid (place + bytes.length) writes

/-- The stores go from `offset` to `stop`, and none goes back. -/
def Ascending : Nat → List (Nat × List UInt8) → Nat → Prop
  | offset, [], stop => offset = stop
  | offset, (place, bytes) :: writes, stop =>
    offset ≤ place ∧ Ascending (place + bytes.length) writes stop

/-- Ascending writes go forward. -/
theorem Ascending.le {writes : List (Nat × List UInt8)} {offset stop : Nat}
    (h : Ascending offset writes stop) : offset ≤ stop := by
  induction writes generalizing offset with
  | nil => exact Nat.le_of_eq h
  | cons write writes ih =>
    have hstop := ih h.2
    have hplace := h.1
    omega

/-- Stores that fill the zeros behind a first part. -/
theorem stores_append_zeros {done : List UInt8} {writes : List (Nat × List UInt8)} {stop : Nat}
    (h : Ascending done.length writes stop) :
    stores (done ++ zeros (stop - done.length)) writes = done ++ laid done.length writes := by
  induction writes generalizing done with
  | nil =>
    rw [show done.length = stop from h, Nat.sub_self]
    rfl
  | cons write writes ih =>
    obtain ⟨place, bytes⟩ := write
    obtain ⟨hplace, hrest⟩ := h
    have hstop := hrest.le
    have hlength : (padTo place done ++ bytes).length = place + bytes.length := by
      rw [List.length_append, length_padTo hplace]
    -- The store appends the gap and the bytes to what there is in front of the zeros.
    have hstore : splice (done ++ zeros (stop - done.length)) place bytes =
        padTo place done ++ bytes ++ zeros (stop - (padTo place done ++ bytes).length) :=
      splice_padTo hplace hstop
    rw [← hlength] at hrest
    show stores (splice (done ++ zeros (stop - done.length)) place bytes) writes = _
    rw [hstore, ih hrest, laid, hlength, padTo]
    simp only [List.append_assoc]

end Wmfs.Lib
