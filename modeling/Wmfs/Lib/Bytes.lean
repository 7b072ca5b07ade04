import Mathlib.Tactic
import Wmfs.Lib.Result

/-!
# `Wmfs.Lib.Bytes`: byte strings, packed integers and fixed layouts

Byte strings are lists of `UInt8`. `le` and `ofLe` are the little-endian bytes of a natural
number and their value. A `Field` is one character of a Python `struct` format, and `pack` and
`unpack` go over a format field by field. They are inverse to each other in both directions
(`unpack_pack`, `pack_unpack`), which is what makes a fixed layout canonical.

`slice` and `splice` are the read and the assignment of a slice of a buffer. A writer that
fills a zeroed buffer from front to back keeps it in the form `padTo size done`, and
`splice_padTo` is its step rule.

Nothing here refers to a particular program.
-/

set_option autoImplicit false

namespace Wmfs.Lib

/-! ### Little-endian integers -/

/-- The little-endian bytes of `n`, in `width` bytes. -/
def le : Nat → Nat → List UInt8
  | 0, _ => []
  | width + 1, n => UInt8.ofNat n :: le width (n / 256)

/-- The value of little-endian bytes. -/
def ofLe : List UInt8 → Nat
  | [] => 0
  | b :: bytes => b.toNat + 256 * ofLe bytes

/-- A number has as many bytes as asked for. -/
@[simp] theorem length_le (width n : Nat) : (le width n).length = width := by
  induction width generalizing n with
  | zero => rfl
  | succ width ih => simp [le, ih]

/-- The number of bytes is bounded by their count. -/
theorem ofLe_lt (bytes : List UInt8) : ofLe bytes < 256 ^ bytes.length := by
  induction bytes with
  | nil => simp [ofLe]
  | cons b bytes ih =>
    have hb : b.toNat < 256 := b.toNat_lt
    rw [ofLe, List.length_cons, Nat.pow_succ]
    omega

/-- The bytes of a number that fits have its value. -/
theorem ofLe_le {width : Nat} : ∀ {n : Nat}, n < 256 ^ width → ofLe (le width n) = n := by
  induction width with
  | zero => intro n h; simp only [Nat.pow_zero] at h; simp [le, ofLe]; omega
  | succ width ih =>
    intro n h
    rw [Nat.pow_succ] at h
    rw [le, ofLe, ih (by omega), UInt8.toNat_ofNat']
    omega

/-- The number that bytes spell has these bytes. -/
theorem le_ofLe (bytes : List UInt8) : le bytes.length (ofLe bytes) = bytes := by
  induction bytes with
  | nil => rfl
  | cons b bytes ih =>
    have hb : b.toNat < 256 := b.toNat_lt
    have hdiv : (b.toNat + 256 * ofLe bytes) / 256 = ofLe bytes := by omega
    have hlow : UInt8.ofNat (b.toNat + 256 * ofLe bytes) = b := by
      apply UInt8.toNat_inj.mp
      rw [UInt8.toNat_ofNat']
      omega
    rw [List.length_cons, ofLe, le, hdiv, ih, hlow]

/-- The bytes behind the first ones count from there on. -/
theorem ofLe_append (front back : List UInt8) :
    ofLe (front ++ back) = ofLe front + 256 ^ front.length * ofLe back := by
  induction front with
  | nil => simp [ofLe]
  | cons b front ih =>
    rw [List.cons_append, ofLe, ofLe, ih, List.length_cons, pow_succ]
    ring

/-! ### Packed integers -/

/-- One integer of a `struct` format: its width in bytes, and whether it is signed. -/
structure Field where
  width : Nat
  signed : Bool := false
  deriving DecidableEq, Repr

namespace Field

/-- `Q`: an unsigned integer of eight bytes. -/
def Q : Field := { width := 8 }

/-- `I`: an unsigned integer of four bytes. -/
def I : Field := { width := 4 }

/-- `H`: an unsigned integer of two bytes. -/
def H : Field := { width := 2 }

/-- `q`: a signed integer of eight bytes. -/
def q : Field := { width := 8, signed := true }

/-- The number of values of the field. -/
def modulus (f : Field) : Nat := 256 ^ f.width

/-- The least value that the field holds. -/
def low (f : Field) : Int := if f.signed then -(f.modulus / 2 : Nat) else 0

/-- The field holds `v`: packing another value is an error. -/
def Holds (f : Field) (v : Int) : Prop := f.low ≤ v ∧ v < f.low + f.modulus

instance (f : Field) (v : Int) : Decidable (f.Holds v) :=
  inferInstanceAs (Decidable (f.low ≤ v ∧ v < f.low + f.modulus))

/-- The bytes of `v`, in two's complement when it is negative. -/
def bytes (f : Field) (v : Int) : List UInt8 := le f.width (v % f.modulus).toNat

/-- The value of the bytes of a field: those above the greatest value stand for negative ones. -/
def value (f : Field) (bytes : List UInt8) : Int :=
  if f.low + f.modulus ≤ ofLe bytes then (ofLe bytes : Int) - f.modulus else ofLe bytes

/-- The modulus of a field is positive. -/
theorem modulus_pos (f : Field) : 0 < f.modulus := Nat.pow_pos (by omega)

/-- A field has the bytes of its width. -/
@[simp] theorem length_bytes (f : Field) (v : Int) : (f.bytes v).length = f.width :=
  length_le _ _

/-- A field starts at zero or below, by less than the number of its values. -/
theorem low_bounds (f : Field) : -(f.modulus : Int) < f.low ∧ f.low ≤ 0 := by
  have hpos := f.modulus_pos
  unfold low
  split <;> omega

/-- A field gives back a value that it holds. -/
theorem value_bytes {f : Field} {v : Int} (h : f.Holds v) : f.value (f.bytes v) = v := by
  have hbounds := f.low_bounds
  have hpos := f.modulus_pos
  have hmod : ((v % f.modulus).toNat : Int) = v % f.modulus :=
    Int.toNat_of_nonneg (Int.emod_nonneg v (by omega))
  have hlt : (v % f.modulus).toNat < 256 ^ f.width := by
    have := Int.emod_lt_of_pos v (show (0 : Int) < f.modulus by omega)
    show (v % f.modulus).toNat < f.modulus
    omega
  obtain ⟨hlow, hhigh⟩ := h
  rw [value, bytes, ofLe_le hlt, hmod]
  -- A negative value wraps around once, and the others do not.
  by_cases hneg : v < 0
  · have hv : v % f.modulus = v + f.modulus := by
      rw [← Int.add_emod_right, Int.emod_eq_of_lt (by omega) (by omega)]
    rw [hv, if_pos (by omega)]
    omega
  · have hv : v % f.modulus = v := Int.emod_eq_of_lt (by omega) (by omega)
    rw [hv, if_neg (by omega)]

/-- A field holds every value that its bytes spell. -/
theorem holds_value {f : Field} {bytes : List UInt8} (h : bytes.length = f.width) :
    f.Holds (f.value bytes) := by
  have hbounds := f.low_bounds
  have hlt : ofLe bytes < f.modulus := by
    have := ofLe_lt bytes
    rwa [h] at this
  unfold Holds value
  split <;> omega

/-- The value of a field and the number that its bytes spell differ by a wrap around. -/
theorem value_emod {f : Field} {bytes : List UInt8} (h : bytes.length = f.width) :
    f.value bytes % f.modulus = ofLe bytes := by
  have hlt : ofLe bytes < f.modulus := by
    have := ofLe_lt bytes
    rwa [h] at this
  rw [value]
  split
  · rw [Int.sub_emod_right, Int.emod_eq_of_lt (by omega) (by omega)]
  · rw [Int.emod_eq_of_lt (by omega) (by omega)]

/-- The value of a field has the bytes that it was read from. -/
theorem bytes_value {f : Field} {bytes : List UInt8} (h : bytes.length = f.width) :
    f.bytes (f.value bytes) = bytes := by
  rw [Field.bytes, value_emod h, Int.toNat_natCast, ← h, le_ofLe]

/-- The bytes of a number in the range of an unsigned field spell it. -/
theorem ofLe_bytes {f : Field} {v : Int} (h : 0 ≤ v ∧ v < f.modulus) :
    (ofLe (f.bytes v) : Int) = v := by
  have hmod : v % f.modulus = v := Int.emod_eq_of_lt h.1 h.2
  have hlt : v.toNat < 256 ^ f.width := by
    show v.toNat < f.modulus
    omega
  rw [bytes, hmod, ofLe_le hlt, Int.toNat_of_nonneg h.1]

/-- The range of `Q`. -/
theorem holds_Q_iff {v : Int} : Q.Holds v ↔ 0 ≤ v ∧ v < 2 ^ 64 := by
  rw [Holds, show Q.low = 0 from rfl, show (Q.modulus : Int) = 2 ^ 64 from rfl, Int.zero_add]

/-- The range of `I`. -/
theorem holds_I_iff {v : Int} : I.Holds v ↔ 0 ≤ v ∧ v < 2 ^ 32 := by
  rw [Holds, show I.low = 0 from rfl, show (I.modulus : Int) = 2 ^ 32 from rfl, Int.zero_add]

/-- The range of `H`. -/
theorem holds_H_iff {v : Int} : H.Holds v ↔ 0 ≤ v ∧ v < 2 ^ 16 := by
  rw [Holds, show H.low = 0 from rfl, show (H.modulus : Int) = 2 ^ 16 from rfl, Int.zero_add]

/-- The range of `q`. -/
theorem holds_q_iff {v : Int} : q.Holds v ↔ -2 ^ 63 ≤ v ∧ v < 2 ^ 63 := by
  rw [Holds, show q.low = -2 ^ 63 from rfl, show (q.modulus : Int) = 2 ^ 64 from rfl]
  norm_num

end Field

/-- The number of bytes of a format. -/
def formatSize (format : List Field) : Nat := (format.map Field.width).sum

/-- `struct.pack`: the bytes of the values, or none when a value does not fit its field or the
number of values is wrong. -/
def pack : List Field → List Int → Option (List UInt8)
  | [], [] => some []
  | f :: format, v :: values =>
    if f.Holds v then (pack format values).map (f.bytes v ++ ·) else none
  | _, _ => none

/-- `struct.unpack`, on at least as many bytes as the format has. -/
def unpack : List Field → List UInt8 → List Int
  | [], _ => []
  | f :: format, bytes => f.value (bytes.take f.width) :: unpack format (bytes.drop f.width)

/-- `unpack` returns one value for each field. -/
@[simp] theorem length_unpack (format : List Field) (bytes : List UInt8) :
    (unpack format bytes).length = format.length := by
  induction format generalizing bytes with
  | nil => rfl
  | cons f format ih => simp [unpack, ih]

/-- Packed values are as long as their format. -/
theorem length_of_pack {format : List Field} {values : List Int} {bytes : List UInt8}
    (h : pack format values = some bytes) : bytes.length = formatSize format := by
  induction format generalizing values bytes with
  | nil =>
    cases values with
    | nil => cases h; rfl
    | cons v values => cases h
  | cons f format ih =>
    cases values with
    | nil => cases h
    | cons v values =>
      rw [pack] at h
      split at h
      · obtain ⟨tail, htail, rfl⟩ := Option.map_eq_some_iff.mp h
        rw [List.length_append, Field.length_bytes, ih htail]
        simp [formatSize]
      · cases h

/-- Packed values are read back, whatever follows them. -/
theorem unpack_pack {format : List Field} {values : List Int} {bytes : List UInt8}
    (h : pack format values = some bytes) (rest : List UInt8) :
    unpack format (bytes ++ rest) = values := by
  induction format generalizing values bytes with
  | nil =>
    cases values with
    | nil => rfl
    | cons v values => cases h
  | cons f format ih =>
    cases values with
    | nil => cases h
    | cons v values =>
      rw [pack] at h
      split at h
      · rename_i hv
        obtain ⟨tail, htail, rfl⟩ := Option.map_eq_some_iff.mp h
        have hlength : (f.bytes v).length = f.width := f.length_bytes v
        rw [unpack, List.append_assoc, List.take_left' hlength, List.drop_left' hlength,
          Field.value_bytes hv, ih htail]
      · cases h

/-- What is read from exactly as many bytes as the format has packs into these bytes. -/
theorem pack_unpack {format : List Field} {bytes : List UInt8}
    (h : bytes.length = formatSize format) : pack format (unpack format bytes) = some bytes := by
  induction format generalizing bytes with
  | nil =>
    rw [List.length_eq_zero_iff.mp h]
    rfl
  | cons f format ih =>
    simp only [formatSize, List.map_cons, List.sum_cons] at h
    have hhead : (bytes.take f.width).length = f.width := by
      rw [List.length_take]; omega
    have htail : (bytes.drop f.width).length = formatSize format := by
      rw [List.length_drop, formatSize]; omega
    rw [unpack, pack, if_pos (Field.holds_value hhead), ih htail, Option.map_some,
      Field.bytes_value hhead, List.take_append_drop]

/-- Values are read from the front of bytes that start with what they pack into, and from no
others. -/
theorem unpack_eq_iff {format : List Field} {values : List Int} {bytes : List UInt8}
    (h : formatSize format ≤ bytes.length) :
    unpack format bytes = values ↔
      pack format values = some (bytes.take (formatSize format)) := by
  have hlength : (bytes.take (formatSize format)).length = formatSize format :=
    List.length_take_of_le h
  have hfront := pack_unpack hlength
  have hsame := unpack_pack hfront (bytes.drop (formatSize format))
  rw [List.take_append_drop] at hsame
  rw [← hsame] at hfront
  constructor
  · intro hvalues
    rw [← hvalues]
    exact hfront
  · intro hvalues
    have hread := unpack_pack hvalues (bytes.drop (formatSize format))
    rwa [List.take_append_drop] at hread

/-- Packing succeeds exactly when every value fits the field at its place. -/
theorem isSome_pack_iff {format : List Field} {values : List Int} :
    (pack format values).isSome ↔ List.Forall₂ Field.Holds format values := by
  induction format generalizing values with
  | nil => cases values <;> simp [pack]
  | cons f format ih =>
    cases values with
    | nil => simp [pack]
    | cons v values =>
      rw [pack, List.forall₂_cons]
      split
      · rename_i hv
        simp [hv, ih]
      · rename_i hv
        simp [hv]

/-! ### Slices of a buffer -/

/-- `data[offset : offset + size]`. -/
def slice (data : List UInt8) (offset size : Nat) : List UInt8 := (data.drop offset).take size

/-- The buffer with `bytes` in place of the slice at `offset` of the same length. -/
def splice (data : List UInt8) (offset : Nat) (bytes : List UInt8) : List UInt8 :=
  data.take offset ++ bytes ++ data.drop (offset + bytes.length)

/-- `bytes(n)`: zeros. -/
def zeros (n : Nat) : List UInt8 := List.replicate n 0

/-- The bytes followed by zeros, up to `size` bytes. -/
def padTo (size : Nat) (bytes : List UInt8) : List UInt8 := bytes ++ zeros (size - bytes.length)

/-- The number of zeros. -/
@[simp] theorem length_zeros (n : Nat) : (zeros n).length = n := List.length_replicate

/-- No zeros. -/
@[simp] theorem zeros_zero : zeros 0 = [] := rfl

/-- Padding fills up to the size. -/
theorem length_padTo {size : Nat} {bytes : List UInt8} (h : bytes.length ≤ size) :
    (padTo size bytes).length = size := by
  rw [padTo, List.length_append, length_zeros]; omega

/-- Padding nothing gives zeros. -/
theorem padTo_nil (size : Nat) : padTo size [] = zeros size := by simp [padTo]

/-- Bytes that fill their size are not padded. -/
theorem padTo_of_length_ge {size : Nat} {bytes : List UInt8} (h : size ≤ bytes.length) :
    padTo size bytes = bytes := by
  rw [padTo, Nat.sub_eq_zero_of_le h, zeros_zero, List.append_nil]

/-- Zeros in a row are zeros. -/
theorem zeros_append_zeros (m n : Nat) : zeros m ++ zeros n = zeros (m + n) := by
  simp [zeros, List.replicate_append_replicate]

/-- A slice inside the data has its size. -/
theorem length_slice {data : List UInt8} {offset size : Nat} (h : offset + size ≤ data.length) :
    (slice data offset size).length = size := by
  rw [slice, List.length_take, List.length_drop]; omega

/-- Padding in two steps is padding once. -/
theorem padTo_padTo {m n : Nat} (h : m ≤ n) (bytes : List UInt8) :
    padTo n (padTo m bytes) = padTo n bytes := by
  by_cases hm : bytes.length ≤ m
  · rw [padTo, length_padTo hm, padTo, padTo, List.append_assoc, zeros_append_zeros]
    congr 2
    omega
  · rw [padTo_of_length_ge (show m ≤ bytes.length by omega)]

/-- Padding passes a start of known length. -/
theorem padTo_append (n : Nat) (done bytes : List UInt8) :
    padTo (done.length + n) (done ++ bytes) = done ++ padTo n bytes := by
  rw [padTo, padTo, List.append_assoc, List.length_append]
  congr 3
  omega

/-- A write behind everything that is not zero so far. -/
theorem splice_padTo {size offset : Nat} {done bytes : List UInt8} (hdone : done.length ≤ offset)
    (hsize : offset + bytes.length ≤ size) :
    splice (padTo size done) offset bytes = padTo size (padTo offset done ++ bytes) := by
  have hlength : (padTo offset done).length = offset := length_padTo hdone
  have hsplit : padTo size done = padTo offset done ++ zeros (size - offset) := by
    rw [← padTo_padTo (show offset ≤ size by omega), padTo, hlength]
  have hdrop : (padTo size done).drop (offset + bytes.length)
      = zeros (size - (offset + bytes.length)) := by
    rw [hsplit, List.drop_append, hlength, List.drop_eq_nil_of_le (by omega), List.nil_append,
      zeros, List.drop_replicate, zeros]
    congr 1
    omega
  rw [splice, hdrop, hsplit, List.take_left' hlength]
  show _ = _ ++ zeros (size - (padTo offset done ++ bytes).length)
  rw [List.length_append, hlength]

/-- A slice of a slice. -/
theorem slice_slice (data : List UInt8) (offset : Nat) {size inner count : Nat}
    (h : inner + count ≤ size) :
    slice (slice data offset size) inner count = slice data (offset + inner) count := by
  rw [slice, slice, slice, List.drop_take, List.take_take, List.drop_drop, min_eq_left (by omega)]

/-- A part is replaced by another of its length. -/
theorem splice_middle {front old new back : List UInt8} (h : new.length = old.length) :
    splice (front ++ old ++ back) front.length new = front ++ new ++ back := by
  have hdrop : (front ++ old ++ back).drop (front.length + new.length) = back := by
    rw [h, ← List.length_append, List.drop_left]
  have htake : (front ++ old ++ back).take front.length = front := by
    rw [List.append_assoc, List.take_left]
  rw [splice, hdrop, htake]

/-- A slice behind the first part. -/
theorem slice_append_right {front : List UInt8} {n : Nat} (hfront : front.length = n)
    (back : List UInt8) (offset size : Nat) :
    slice (front ++ back) (n + offset) size = slice back offset size := by
  rw [slice, slice, ← hfront, List.drop_append, List.drop_eq_nil_of_le (by omega),
    List.nil_append, Nat.add_sub_cancel_left]

/-- The first part as a slice. -/
theorem slice_append_left {front : List UInt8} {n : Nat} (hfront : front.length = n)
    (back : List UInt8) : slice (front ++ back) 0 n = front := by
  rw [slice, List.drop_zero, List.take_left' hfront]

/-- A stretch between others is a slice. -/
theorem slice_middle (front back : List UInt8) {data middle : List UInt8} {offset size : Nat}
    (h : data = front ++ middle ++ back) (hoffset : front.length = offset)
    (hsize : middle.length = size) : slice data offset size = middle := by
  rw [slice, h, List.append_assoc, List.drop_left' hoffset, List.take_left' hsize]

/-- Two neighbouring slices are one slice. -/
theorem slice_append_slice (data : List UInt8) (offset m n : Nat) :
    slice data offset m ++ slice data (offset + m) n = slice data offset (m + n) := by
  rw [slice, slice, slice, ← List.drop_drop, List.take_add]

/-- All of a buffer is a slice. -/
theorem slice_length (data : List UInt8) : slice data 0 data.length = data := by
  rw [slice, List.drop_zero, List.take_length]

/-- An unsigned field at `offset` is read as the number that its bytes spell. -/
theorem unpack_cons_drop {f : Field} {format : List Field} {data : List UInt8} {offset : Nat}
    (hsigned : f.signed = false) (h : offset + f.width ≤ data.length) :
    unpack (f :: format) (data.drop offset) =
      (ofLe (slice data offset f.width) : Int) :: unpack format (data.drop (offset + f.width)) := by
  have hlow : f.low = 0 := by rw [Field.low, hsigned]; rfl
  have hlt : ofLe (slice data offset f.width) < f.modulus := by
    have hlt := ofLe_lt (slice data offset f.width)
    rwa [length_slice h] at hlt
  rw [unpack, List.drop_drop, Field.value, ← slice, hlow, if_neg (by omega)]

/-- A field stands inside its format. -/
theorem formatSize_take_add_le {format : List Field} {index : Nat} {f : Field}
    (hfield : format[index]? = some f) :
    formatSize (format.take index) + f.width ≤ formatSize format := by
  obtain ⟨hlt, hget⟩ := List.getElem?_eq_some_iff.mp hfield
  have hsplit : formatSize format =
      formatSize (format.take index) + (f.width + formatSize (format.drop (index + 1))) := by
    conv_lhs => rw [← List.take_append_drop index format, List.drop_eq_getElem_cons hlt, hget]
    simp [formatSize]
  omega

/-- An unsigned field is read as the number that its bytes spell, whatever stands before it. -/
theorem getElem?_unpack {format : List Field} {index : Nat} {f : Field}
    (hfield : format[index]? = some f) (hsigned : f.signed = false) :
    ∀ {bytes : List UInt8}, formatSize format ≤ bytes.length →
      (unpack format bytes)[index]? =
        some (ofLe (slice bytes (formatSize (format.take index)) f.width) : Int) := by
  induction format generalizing index with
  | nil => cases hfield
  | cons g format ih =>
    intro bytes hroom
    have hsize : formatSize (g :: format) = g.width + formatSize format := by simp [formatSize]
    cases index with
    | zero =>
      cases hfield
      have hread : unpack (f :: format) (bytes.drop 0) =
          (ofLe (slice bytes 0 f.width) : Int) :: unpack format (bytes.drop (0 + f.width)) :=
        unpack_cons_drop hsigned (by omega)
      rw [List.drop_zero] at hread
      rw [hread]
      rfl
    | succ index =>
      rw [List.getElem?_cons_succ] at hfield
      rw [unpack, List.getElem?_cons_succ, ih hfield (by rw [List.length_drop]; omega)]
      have htake : formatSize ((g :: format).take (index + 1)) =
          g.width + formatSize (format.take index) := by simp [formatSize]
      rw [htake, slice, slice, List.drop_drop]

/-- From `offset` on, the buffer is the parts, one behind the other, to its end. -/
def Spells (data : List UInt8) : Nat → List (List UInt8) → Prop
  | offset, [] => offset = data.length
  | offset, part :: parts =>
    slice data offset part.length = part ∧ Spells data (offset + part.length) parts

/-- A buffer is a sequence of parts when each part is at its place. -/
theorem drop_eq_flatten_iff {data : List UInt8} {parts : List (List UInt8)} {offset : Nat}
    (h : offset ≤ data.length) : data.drop offset = parts.flatten ↔ Spells data offset parts := by
  induction parts generalizing offset with
  | nil =>
    rw [List.flatten_nil, List.drop_eq_nil_iff, Spells]
    omega
  | cons part parts ih =>
    rw [List.flatten_cons, Spells]
    constructor
    · intro hdrop
      have hlength : data.length - offset = part.length + parts.flatten.length := by
        rw [← List.length_drop, hdrop, List.length_append]
      refine ⟨by rw [slice, hdrop, List.take_left], ?_⟩
      rw [← ih (by omega), ← List.drop_drop, hdrop, List.drop_left]
    · intro ⟨hpart, hparts⟩
      have hroom : offset + part.length ≤ data.length := by
        have hlength := congrArg List.length hpart
        rw [slice, List.length_take, List.length_drop] at hlength
        omega
      rw [← (ih hroom).mpr hparts, ← hpart, slice, List.length_take, List.length_drop,
        min_eq_left (by omega), ← List.drop_drop, List.take_append_drop]

/-- The data is its parts in a row when each stands behind the one before. -/
theorem eq_flatten_iff {data : List UInt8} {parts : List (List UInt8)} :
    data = parts.flatten ↔ Spells data 0 parts := by
  rw [← drop_eq_flatten_iff (Nat.zero_le data.length), List.drop_zero]

/-- A byte of the bytes is not zero. -/
def anyNonzero (bytes : List UInt8) : Bool := bytes.any (· != 0)

/-- Zeros are zero. -/
theorem anyNonzero_zeros (n : Nat) : anyNonzero (zeros n) = false := by
  simp [anyNonzero, zeros]

/-- Bytes that are all zero are zeros. -/
theorem eq_zeros_of_anyNonzero {bytes : List UInt8} (h : anyNonzero bytes = false) :
    bytes = zeros bytes.length := by
  simp only [anyNonzero, List.any_eq_false, bne_iff_ne, ne_eq, not_not] at h
  exact List.eq_replicate_iff.mpr ⟨rfl, h⟩

/-- The bytes in front of the padding. -/
theorem slice_padTo (size : Nat) (bytes : List UInt8) :
    slice (padTo size bytes) 0 bytes.length = bytes := by
  rw [slice, padTo, List.drop_zero, List.take_left]

/-- The padding is zero. -/
theorem anyNonzero_slice_padTo (size : Nat) (bytes : List UInt8) :
    anyNonzero (slice (padTo size bytes) bytes.length (size - bytes.length)) = false := by
  rw [slice, padTo, List.drop_left, zeros, List.take_replicate, min_self]
  exact anyNonzero_zeros _

/-- An area that is zero behind its first bytes is these bytes, padded. -/
theorem padTo_slice {data : List UInt8} {base size count : Nat} (hroom : base + size ≤ data.length)
    (hcount : count ≤ size)
    (hzero : anyNonzero (slice data (base + count) (size - count)) = false) :
    slice data base size = padTo size (slice data base count) := by
  have hrest : slice data (base + count) (size - count) = zeros (size - count) := by
    rw [eq_zeros_of_anyNonzero hzero, length_slice (by omega)]
  have hsplit := slice_append_slice data base count (size - count)
  rw [hrest, Nat.add_sub_cancel' hcount] at hsplit
  rw [padTo, length_slice (by omega), hsplit]

/-! ### Arrays of descriptors

A descriptor array is a run of slots of one size from a base offset on. The writer goes over
its items, and the reader over a count that was read elsewhere. -/

section
variable {α ε : Type}

/-- Write each item to its slot, in order. -/
def writeArray (write : List UInt8 → Nat → α → Except ε (List UInt8)) (base size : Nat) :
    List UInt8 → Nat → List α → Except ε (List UInt8)
  | data, _, [] => .ok data
  | data, index, item :: items => do
    let data ← write data (base + index * size) item
    writeArray write base size data (index + 1) items

/-- Read `count` slots, in order. -/
def readArray (read : Nat → Except ε α) (base size : Nat) : Nat → Nat → Except ε (List α)
  | _, 0 => .ok []
  | index, count + 1 => do
    let item ← read (base + index * size)
    let items ← readArray read base size (index + 1) count
    return item :: items

/-- The bytes of the items, one after the other. -/
def concatArray (image : α → Except ε (List UInt8)) : List α → Except ε (List UInt8)
  | [] => .ok []
  | item :: items => do
    let head ← image item
    let tail ← concatArray image items
    return head ++ tail

/-- A writer that fills one slot appends the slots of its items to what is there. -/
theorem writeArray_eq {write : List UInt8 → Nat → α → Except ε (List UInt8)}
    {image : α → Except ε (List UInt8)} {base size total : Nat}
    (hlength : ∀ {item bytes}, image item = .ok bytes → bytes.length = size)
    (hwrite : ∀ {done offset item}, done.length ≤ offset → offset + size ≤ total →
      write (padTo total done) offset item =
        (image item).map fun bytes => padTo total (padTo offset done ++ bytes)) :
    ∀ (items : List α) (done : List UInt8) (index : Nat), done.length ≤ base + index * size →
      base + (index + items.length) * size ≤ total →
      writeArray write base size (padTo total done) index items =
        (concatArray image items).map fun bytes =>
          padTo total (padTo (base + index * size) done ++ bytes) := by
  intro items
  induction items with
  | nil =>
    intro done index hdone htotal
    rw [List.length_nil, Nat.add_zero] at htotal
    show Except.ok (padTo total done)
      = Except.ok (padTo total (padTo (base + index * size) done ++ []))
    rw [List.append_nil, padTo_padTo htotal]
  | cons item items ih =>
    intro done index hdone htotal
    have hnext : base + (index + 1) * size = base + index * size + size := by ring
    have hroom : base + (index + 1 + items.length) * size ≤ total := by
      rw [List.length_cons] at htotal
      rwa [show index + 1 + items.length = index + (items.length + 1) by omega]
    have hle : base + (index + 1) * size ≤ base + (index + 1 + items.length) * size :=
      Nat.add_le_add_left (Nat.mul_le_mul_right size (by omega)) base
    rw [writeArray, concatArray, hwrite hdone (by omega)]
    cases himage : image item with
    | error e => rfl
    | ok head =>
      -- The slot is full now, so the rest of the loop starts right behind it.
      have hlast : (padTo (base + index * size) done ++ head).length
          = base + (index + 1) * size := by
        rw [List.length_append, length_padTo hdone, hlength himage, hnext]
      show writeArray write base size (padTo total (padTo (base + index * size) done ++ head))
        (index + 1) items = _
      rw [ih _ _ hlast.le hroom, padTo_of_length_ge hlast.ge]
      cases concatArray image items with
      | error e => rfl
      | ok tail =>
        simp only [Except.map, pure, Except.pure, bind, Except.bind, List.append_assoc]

/-- What the reader of an array returns are the items that it read from the slots. -/
theorem readArray_ok_iff {read : Nat → Except ε α} {base size : Nat} {count index : Nat}
    {items : List α} : readArray read base size index count = .ok items ↔
      items.length = count ∧
        ∀ i (h : i < items.length), read (base + (index + i) * size) = .ok items[i] := by
  induction count generalizing index items with
  | zero =>
    rw [readArray, List.length_eq_zero_iff]
    constructor
    · intro h
      cases h
      exact ⟨rfl, by simp⟩
    · intro h
      rw [h.1]
  | succ count ih =>
    rw [readArray]
    constructor
    · intro h
      cases hitem : read (base + index * size) with
      | error e => rw [hitem] at h; cases h
      | ok item =>
        cases hrest : readArray read base size (index + 1) count with
        | error e => rw [hitem, hrest] at h; cases h
        | ok rest =>
          rw [hitem, hrest] at h
          cases h
          obtain ⟨hcount, hrest⟩ := ih.mp hrest
          refine ⟨by simp [hcount], ?_⟩
          intro i hi
          cases i with
          | zero => exact hitem
          | succ i =>
            rw [show index + (i + 1) = index + 1 + i by omega]
            exact hrest i (by simpa using hi)
    · intro ⟨hcount, hread⟩
      cases items with
      | nil => cases hcount
      | cons item items =>
        have hitem : read (base + index * size) = .ok item := hread 0 (by simp)
        have hrest : readArray read base size (index + 1) count = .ok items := by
          rw [ih]
          refine ⟨by simpa using hcount, ?_⟩
          intro i hi
          rw [show index + 1 + i = index + (i + 1) by omega]
          exact hread (i + 1) (by simpa using hi)
        rw [hitem, hrest]
        rfl

/-- The bytes of items are the slots of the items. -/
theorem concatArray_ok_iff {image : α → Except ε (List UInt8)} {size : Nat}
    (hlength : ∀ {item bytes}, image item = .ok bytes → bytes.length = size)
    {items : List α} {bytes : List UInt8} : concatArray image items = .ok bytes ↔
      bytes.length = items.length * size ∧
        ∀ i (h : i < items.length), image items[i] = .ok (slice bytes (i * size) size) := by
  induction items generalizing bytes with
  | nil =>
    simp only [concatArray, List.length_nil, Nat.zero_mul, List.length_eq_zero_iff]
    constructor
    · intro h
      cases h
      exact ⟨rfl, by simp⟩
    · intro h
      rw [h.1]
  | cons item items ih =>
    have hcount : (item :: items).length * size = items.length * size + size := Nat.succ_mul _ _
    rw [concatArray, hcount]
    constructor
    · intro h
      cases hhead : image item with
      | error e => rw [hhead] at h; cases h
      | ok head =>
        cases htail : concatArray image items with
        | error e => rw [hhead, htail] at h; cases h
        | ok tail =>
          rw [hhead, htail] at h
          cases h
          have hsize := hlength hhead
          obtain ⟨htailLength, hslots⟩ := ih.mp htail
          refine ⟨by rw [List.length_append, hsize, htailLength, Nat.add_comm], ?_⟩
          intro i hi
          cases i with
          | zero => rw [Nat.zero_mul, slice_append_left hsize]; exact hhead
          | succ i =>
            rw [show (i + 1) * size = size + i * size by ring, slice_append_right hsize]
            exact hslots i (by simpa using hi)
    · intro ⟨htotal, hslots⟩
      have hhead : image item = .ok (slice bytes 0 size) := by
        have := hslots 0 (by simp)
        rwa [Nat.zero_mul] at this
      have hsize := hlength hhead
      have htail : concatArray image items = .ok (bytes.drop size) := by
        rw [ih]
        refine ⟨by rw [List.length_drop, htotal]; omega, ?_⟩
        intro i hi
        have hslot := hslots (i + 1) (by simpa using hi)
        rw [slice, List.drop_drop, ← slice, Nat.add_comm, ← Nat.succ_mul]
        exact hslot
      rw [hhead, htail]
      show Except.ok _ = Except.ok _
      rw [slice, List.drop_zero, List.take_append_drop]

/-- Items have bytes together when each of them has. -/
theorem exists_concatArray_iff {image : α → Except ε (List UInt8)} {items : List α} :
    (∃ bytes, concatArray image items = .ok bytes) ↔
      ∀ item ∈ items, ∃ bytes, image item = .ok bytes := by
  induction items with
  | nil => simp [concatArray]
  | cons item items ih =>
    rw [List.forall_mem_cons, ← ih, concatArray]
    cases hhead : image item with
    | error e => simp [bind, Except.bind]
    | ok head =>
      cases htail : concatArray image items with
      | error e => simp [bind, Except.bind]
      | ok tail => simp [bind, Except.bind, pure, Except.pure]

/-- An array with room for `slots` items holds the images of its items, and zeros behind
them. -/
theorem concatArray_slots_iff {image : α → Except ε (List UInt8)} {size : Nat}
    (hlength : ∀ {item bytes}, image item = .ok bytes → bytes.length = size)
    {items : List α} {data : List UInt8} {base slots : Nat} (hcount : items.length ≤ slots)
    (hroom : base + slots * size ≤ data.length) :
    (∃ bytes, concatArray image items = .ok bytes ∧
      slice data base (slots * size) = padTo (slots * size) bytes) ↔
      (∀ i (h : i < items.length), image items[i] = .ok (slice data (base + i * size) size)) ∧
        slice data (base + items.length * size) ((slots - items.length) * size) =
          zeros ((slots - items.length) * size) := by
  have hused : items.length * size ≤ slots * size := Nat.mul_le_mul_right size hcount
  have hrest : items.length * size + (slots - items.length) * size = slots * size := by
    rw [← Nat.add_mul]
    congr 1
    omega
  have hsplit := slice_append_slice data base (items.length * size) ((slots - items.length) * size)
  rw [hrest] at hsplit
  have hitem : ∀ i, i < items.length → i * size + size ≤ items.length * size := by
    intro i hi
    have := Nat.mul_le_mul_right size (show i + 1 ≤ items.length by omega)
    rwa [Nat.succ_mul] at this
  constructor
  · intro ⟨bytes, hbytes, hslice⟩
    obtain ⟨htotal, himages⟩ := (concatArray_ok_iff hlength).mp hbytes
    have hzeros : padTo (slots * size) bytes = bytes ++ zeros ((slots - items.length) * size) := by
      rw [padTo, htotal]
      congr 2
      omega
    rw [← hsplit, hzeros] at hslice
    obtain ⟨hfront, hback⟩ := List.append_inj hslice (by rw [length_slice (by omega), htotal])
    refine ⟨?_, hback⟩
    intro i hi
    rw [himages i hi, ← hfront, slice_slice data base (hitem i hi)]
  · intro ⟨himages, hback⟩
    have htotal : (slice data base (items.length * size)).length = items.length * size :=
      length_slice (by omega)
    refine ⟨slice data base (items.length * size), ?_, ?_⟩
    · rw [concatArray_ok_iff hlength]
      refine ⟨htotal, ?_⟩
      intro i hi
      rw [slice_slice data base (hitem i hi)]
      exact himages i hi
    · rw [← hsplit, hback, padTo, htotal]
      congr 2
      omega

/-- An array is read from the bytes that it is written as when each of its items is. -/
theorem readArray_slots_iff {image : α → Except ε (List UInt8)}
    {read : List UInt8 → Nat → Except ε α} {data : List UInt8} {base size count : Nat}
    (hlength : ∀ {item bytes}, image item = .ok bytes → bytes.length = size)
    (hread : ∀ {offset item}, offset + size ≤ data.length →
      (read data offset = .ok item ↔ image item = .ok (slice data offset size)))
    (hroom : base + count * size ≤ data.length) {items : List α} :
    readArray (read data) base size 0 count = .ok items ↔
      items.length = count ∧ concatArray image items = .ok (slice data base (count * size)) := by
  have hslot : ∀ i, i < count → i * size + size ≤ count * size := by
    intro i hi
    have := Nat.mul_le_mul_right size (show i + 1 ≤ count by omega)
    rwa [Nat.succ_mul] at this
  rw [readArray_ok_iff, concatArray_ok_iff hlength, length_slice hroom]
  constructor
  · intro ⟨hcount, hitems⟩
    refine ⟨hcount, by rw [hcount], ?_⟩
    intro i hi
    have hi' := hslot i (by omega)
    have hitem := hitems i hi
    rw [Nat.zero_add, hread (by omega)] at hitem
    rw [slice_slice data base hi']
    exact hitem
  · intro ⟨hcount, _, hslots⟩
    refine ⟨hcount, ?_⟩
    intro i hi
    have hi' := hslot i (by omega)
    have hitem := hslots i hi
    rw [slice_slice data base hi'] at hitem
    rw [Nat.zero_add, hread (by omega)]
    exact hitem

end

end Wmfs.Lib
