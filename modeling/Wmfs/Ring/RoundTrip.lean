import Wmfs.Lib.Dict
import Wmfs.Ring.Layout

/-!
# `Wmfs.Ring.RoundTrip`: `decode` undoes `encode`

Each part of `decode` is compared with the image of its part of the record. A tensor or a
planned output is read from a slot exactly when the slot holds its image
(`decodeTensor_ok_iff`, `decodeOutput_ok_iff`). A scalar is read from its image when its value
is of the declared kind. The error area gives back its texts when each is cut between two
characters.
-/

set_option autoImplicit false

namespace Wmfs.Ring.Codec

open Wmfs.Lib
open Wmfs.Lib.Utf8 (Text)

variable {Obj : Type} [PyObject Obj]

/-! ### Fields -/

/-- `struct.pack` succeeds when every value fits into its field. -/
theorem structPack_ok_iff {format : List Field} {values : List Int} {bytes : List UInt8} :
    structPack format values = .ok bytes ↔ pack format values = some bytes := by
  unfold structPack
  cases pack format values <;> simp

/-- Values are read from the bytes that they pack into, and from no others. -/
theorem unpackFrom_eq_iff {format : List Field} {values : List Int} {data : List UInt8}
    {offset : Nat} (h : offset + formatSize format ≤ data.length) :
    unpackFrom format data offset = values ↔
      structPack format values = .ok (slice data offset (formatSize format)) := by
  rw [structPack_ok_iff, unpackFrom]
  constructor
  · intro hvalues
    rw [← hvalues]
    exact pack_unpack (length_slice h)
  · intro hpack
    have hread := unpack_pack hpack []
    rwa [List.append_nil] at hread

/-- The packed values are in the ranges of their fields. -/
theorem holds_of_structPack {format : List Field} {values : List Int} {bytes : List UInt8}
    (h : structPack format values = .ok bytes) : List.Forall₂ Field.Holds format values := by
  rw [← isSome_pack_iff, structPack_ok_iff.mp h]
  rfl

/-- A text is encoded when it has no surrogates. -/
theorem encodeText_ok_iff {text : Text} {bytes : List UInt8} :
    encodeText text = .ok bytes ↔ Utf8.encode text = some bytes := by
  unfold encodeText
  cases Utf8.encode text <;> simp

/-- The bytes of a text are decoded to it. -/
theorem decodeText_ok_iff {text : Text} {bytes : List UInt8} :
    decodeText bytes = .ok text ↔ Utf8.encode text = some bytes := by
  unfold decodeText
  constructor
  · intro h
    cases hdecode : Utf8.decode bytes with
    | none => rw [hdecode] at h; cases h
    | some decoded =>
      rw [hdecode] at h
      cases h
      exact Utf8.encode_of_decode hdecode
  · intro h
    rw [Utf8.decode_encode h]

/-- The two tables of dtypes are inverse. -/
theorem dtype_lookup_iff {dtype : String} {id : Int} :
    ID_TO_DTYPE.lookup id = some dtype ↔ DTYPE_TO_ID.lookup dtype = some id :=
  lookup_swap_iff (by decide) (by decide)

/-- The two tables of scalar kinds are inverse. -/
theorem scalar_lookup_iff {kind : String} {id : Int} :
    ID_TO_SCALAR.lookup id = some kind ↔ SCALAR_TO_ID.lookup kind = some id :=
  lookup_swap_iff (by decide) (by decide)

/-- Dimensions that are zero from the rank on are their first `rank` entries, padded. -/
theorem dimensions_take {values : List Int} {rank : Nat} (hlength : values.length = 16)
    (hrank : rank ≤ 16) (hzero : anyValue (values.drop rank) = false) :
    dimensions (values.take rank) = values := by
  simp only [anyValue, List.any_eq_false, bne_iff_ne, ne_eq, not_not] at hzero
  have hpad : values.drop rank = List.replicate (16 - rank) 0 :=
    List.eq_replicate_iff.mpr ⟨by rw [List.length_drop, hlength], hzero⟩
  rw [dimensions, List.length_take, hlength, min_eq_left hrank, ← hpad, List.take_append_drop]

/-- The dimensions in use come first. -/
theorem take_dimensions (values : List Int) :
    (dimensions values).take values.length = values := by
  rw [dimensions, List.take_left]

/-- The other dimensions are zero. -/
theorem anyValue_drop_dimensions (values : List Int) :
    anyValue ((dimensions values).drop values.length) = false := by
  rw [dimensions, List.drop_left]
  simp [anyValue]

/-! ### Tensors and planned outputs -/

/-- The image of a tensor is made of its three packed parts. -/
theorem tensorImage_ok_iff {item : Tensor} {bytes : List UInt8} :
    tensorImage item = .ok bytes ↔
      (0 < item.shape.length ∧ item.shape.length ≤ 16) ∧
      item.shape.length = item.strides.length ∧
      ∃ dtype, DTYPE_TO_ID.lookup item.dtype = some dtype ∧ ∃ head shape strides,
        structPack TENSOR_HEAD [item.bufferId, item.generation, item.allocationId, item.offset,
          item.byteLength, dtype, item.shape.length, item.kind, if item.writable then 1 else 0,
          item.parameter, 0] = .ok head ∧
        structPack DIMENSIONS (dimensions item.shape) = .ok shape ∧
        structPack DIMENSIONS (dimensions item.strides) = .ok strides ∧
        bytes = head ++ shape ++ strides := by
  unfold tensorImage
  by_cases hrank : ¬ (0 < item.shape.length ∧ item.shape.length ≤ 16) ∨
      item.shape.length ≠ item.strides.length
  · rw [if_pos hrank]
    constructor
    · intro h; cases h
    · intro ⟨h1, h2, _⟩; exact absurd hrank (by rw [not_or, not_not, not_not]; exact ⟨h1, h2⟩)
  rw [if_neg hrank]
  rw [not_or, not_not, not_not] at hrank
  cases hdtype : DTYPE_TO_ID.lookup item.dtype with
  | none => simp
  | some dtype =>
    simp only [Result.bind_ok_iff, Option.some.injEq, exists_eq_left']
    constructor
    · intro ⟨head, hhead, shape, hshape, strides, hstrides, h⟩
      cases h
      exact ⟨hrank.1, hrank.2, head, shape, strides, hhead, hshape, hstrides, rfl⟩
    · intro ⟨_, _, head, shape, strides, hhead, hshape, hstrides, h⟩
      exact ⟨head, hhead, shape, hshape, strides, hstrides, by rw [h]; rfl⟩

/-- A tensor is read from a slot that holds its image, and from no other. -/
theorem decodeTensor_ok_iff {data : List UInt8} {offset : Nat} {item : Tensor}
    (hroom : offset + TENSOR_SIZE ≤ data.length) :
    decodeTensor data offset = .ok item ↔
      tensorImage item = .ok (slice data offset TENSOR_SIZE) := by
  have hsize : formatSize TENSOR_HEAD = 56 ∧ formatSize DIMENSIONS = 128 ∧ TENSOR_SIZE = 312 :=
    ⟨rfl, rfl, rfl⟩
  -- The slot is the head, the shape and the strides.
  have hslot : slice data offset 56 ++ slice data (offset + 56) 128 ++
      slice data (offset + 184) 128 = slice data offset TENSOR_SIZE := by
    rw [slice_append_slice, show offset + 184 = offset + (56 + 128) by omega, slice_append_slice]
    rfl
  rw [tensorImage_ok_iff, ← hslot]
  constructor
  · intro h
    unfold decodeTensor at h
    split at h
    case h_2 => cases h
    rename_i values bufferId generation allocationId byteOffset byteLength dtypeId rank kind
      flags parameter reserved hhead
    rw [unpackFrom_eq_iff (by omega)] at hhead
    have hholds := holds_of_structPack hhead
    simp only [TENSOR_HEAD, List.forall₂_cons, Field.holds_I_iff, Field.holds_H_iff] at hholds
    split at h
    · cases h
    rename_i hchecks
    simp only at h
    split at h
    · cases h
    rename_i hpadding
    split at h
    · cases h
    rename_i dtype hdtype
    cases h
    rw [not_or, Bool.not_eq_true, Bool.not_eq_true] at hpadding
    have hshape : (unpackFrom DIMENSIONS data (offset + 56)).length = 16 := length_unpack _ _
    have hstrides : (unpackFrom DIMENSIONS data (offset + 184)).length = 16 := length_unpack _ _
    have hflags : (if decide (flags ≠ 0) = true then (1 : Int) else 0) = flags := by
      split <;> rename_i hf <;> simp only [decide_eq_true_eq, ne_eq, not_not] at hf <;> omega
    have hrank : ((rank.toNat : Nat) : Int) = rank := by omega
    simp only [List.length_take, hshape, hstrides, min_eq_left (show rank.toNat ≤ 16 by omega)]
    refine ⟨by omega, trivial, dtypeId, dtype_lookup_iff.mp hdtype, slice data offset 56,
      slice data (offset + 56) 128, slice data (offset + 184) 128, ?_, ?_, ?_, rfl⟩
    · rw [hrank, hflags, ← show reserved = 0 by omega]
      exact hhead
    · rw [dimensions_take hshape (by omega) hpadding.1]
      exact (unpackFrom_eq_iff (by omega)).mp rfl
    · rw [dimensions_take hstrides (by omega) hpadding.2]
      exact (unpackFrom_eq_iff (by omega)).mp rfl
  · rintro ⟨hrank, hstrides, dtype, hdtype, head, shape, strides, hhead, hshape, hstride, hbytes⟩
    have h56 : head.length = 56 := length_of_structPack hhead
    have h128 : shape.length = 128 := length_of_structPack hshape
    have hl : ∀ o n, o + n ≤ data.length → (slice data o n).length = n := fun o n => length_slice
    -- The three parts of the slot are those of the image.
    obtain ⟨hfront, hs⟩ := List.append_inj hbytes (by
      rw [List.length_append, List.length_append, h56, h128, hl _ _ (by omega),
        hl _ _ (by omega)])
    obtain ⟨hh, hsh⟩ := List.append_inj hfront (by rw [h56, hl _ _ (by omega)])
    rw [← hh] at hhead
    rw [← hsh] at hshape
    rw [← hs] at hstride
    have hhead := (unpackFrom_eq_iff (by omega)).mpr hhead
    have hshape := (unpackFrom_eq_iff (by omega)).mpr hshape
    have hstride := (unpackFrom_eq_iff (by omega)).mpr hstride
    unfold decodeTensor
    rw [hhead]
    simp only [hshape, hstride, Int.toNat_natCast]
    have hflags : (if item.writable then (1 : Int) else 0) / 2 = 0 := by split <;> rfl
    have hwritable : decide ((if item.writable then (1 : Int) else 0) ≠ 0) = item.writable := by
      cases item.writable <;> rfl
    rw [if_neg (by omega), take_dimensions, anyValue_drop_dimensions, hstrides, take_dimensions,
      anyValue_drop_dimensions, if_neg (by simp), dtype_lookup_iff.mpr hdtype, hwritable]

/-- The image of a planned output is made of its two packed parts. -/
theorem outputImage_ok_iff {item : PlannedOutput} {bytes : List UInt8} :
    outputImage item = .ok bytes ↔
      (0 < item.shape.length ∧ item.shape.length ≤ 16) ∧
      ∃ dtype, DTYPE_TO_ID.lookup item.dtype = some dtype ∧ ∃ head shape,
        structPack OUTPUT_HEAD [dtype, 0, item.shape.length, item.output, 0] = .ok head ∧
        structPack DIMENSIONS (dimensions item.shape) = .ok shape ∧ bytes = head ++ shape := by
  unfold outputImage
  by_cases hrank : ¬ (0 < item.shape.length ∧ item.shape.length ≤ 16)
  · rw [if_pos hrank]
    constructor
    · intro h; cases h
    · intro ⟨h, _⟩; exact absurd h hrank
  rw [if_neg hrank]
  rw [not_not] at hrank
  cases hdtype : DTYPE_TO_ID.lookup item.dtype with
  | none => simp
  | some dtype =>
    simp only [Result.bind_ok_iff, Option.some.injEq, exists_eq_left']
    constructor
    · intro ⟨head, hhead, shape, hshape, h⟩
      cases h
      exact ⟨hrank, head, shape, hhead, hshape, rfl⟩
    · intro ⟨_, head, shape, hhead, hshape, h⟩
      exact ⟨head, hhead, shape, hshape, by rw [h]; rfl⟩

/-- A planned output is read from a slot that holds its image, and from no other. -/
theorem decodeOutput_ok_iff {data : List UInt8} {offset : Nat} {item : PlannedOutput}
    (hroom : offset + OUTPUT_SIZE ≤ data.length) :
    decodeOutput data offset = .ok item ↔
      outputImage item = .ok (slice data offset OUTPUT_SIZE) := by
  have hsize : formatSize OUTPUT_HEAD = 16 ∧ formatSize DIMENSIONS = 128 ∧ OUTPUT_SIZE = 144 :=
    ⟨rfl, rfl, rfl⟩
  have hslot : slice data offset 16 ++ slice data (offset + 16) 128 =
      slice data offset OUTPUT_SIZE := by
    rw [slice_append_slice]
    rfl
  rw [outputImage_ok_iff, ← hslot]
  constructor
  · intro h
    unfold decodeOutput at h
    split at h
    case h_2 => cases h
    rename_i values dtypeId flags rank output reserved hhead
    rw [unpackFrom_eq_iff (by omega)] at hhead
    simp only at h
    split at h
    · cases h
    rename_i hchecks
    simp only [not_or, not_not, Bool.not_eq_true] at hchecks
    obtain ⟨hflags, hreserved, hrank, hpadding⟩ := hchecks
    split at h
    · cases h
    rename_i dtype hdtype
    cases h
    have hshape : (unpackFrom DIMENSIONS data (offset + 16)).length = 16 := length_unpack _ _
    have hcast : ((rank.toNat : Nat) : Int) = rank := by omega
    simp only [List.length_take, hshape, min_eq_left (show rank.toNat ≤ 16 by omega)]
    refine ⟨by omega, dtypeId, dtype_lookup_iff.mp hdtype, slice data offset 16,
      slice data (offset + 16) 128, ?_, ?_, rfl⟩
    · rw [hcast]
      rw [hflags, hreserved] at hhead
      exact hhead
    · rw [dimensions_take hshape (by omega) hpadding]
      exact (unpackFrom_eq_iff (by omega)).mp rfl
  · rintro ⟨hrank, dtype, hdtype, head, shape, hhead, hshape, hbytes⟩
    have h16 : head.length = 16 := length_of_structPack hhead
    obtain ⟨hh, hsh⟩ := List.append_inj hbytes (by rw [h16, length_slice (by omega)])
    rw [← hh] at hhead
    rw [← hsh] at hshape
    have hhead := (unpackFrom_eq_iff (by omega)).mpr hhead
    have hshape := (unpackFrom_eq_iff (by omega)).mpr hshape
    unfold decodeOutput
    rw [hhead]
    simp only [hshape, Int.toNat_natCast]
    rw [take_dimensions, anyValue_drop_dimensions, if_neg (by simp; omega),
      dtype_lookup_iff.mpr hdtype]

/-! ### Scalars -/

/-- The value of a scalar is of its declared kind, and an `int64` is in its range. Nothing is
asked of a `float64`, whose value `encode` converts. -/
structure Declared (item : Scalar Obj) : Prop where
  boolean : item.kind = "boolean" → ∃ b, item.value = PyObject.ofBool b
  int64 : item.kind = "int64" →
    ∃ n : Int, item.value = PyObject.ofInt n ∧ -2 ^ 63 ≤ n ∧ n < 2 ^ 63
  text : item.kind = "text" → ∃ text, item.value = PyObject.ofStr text

/-- Two scalars are equal, where a `float64` is compared by its bit pattern. -/
structure SameScalar (a b : Scalar Obj) : Prop where
  parameter : a.parameter = b.parameter
  kind : a.kind = b.kind
  float64 : a.kind = "float64" → PyObject.float a.value = PyObject.float b.value
  value : a.kind ≠ "float64" → a.value = b.value

/-- Two records are equal field by field, with their scalars compared as above. -/
def SameRecord (a b : Record Obj) : Prop :=
  ({ a with scalars := [] } : Record Obj) = { b with scalars := [] } ∧
    List.Forall₂ SameScalar a.scalars b.scalars

/-- The known kinds and their numbers. -/
theorem scalar_lookup_cases {kind : String} {id : Int} (h : SCALAR_TO_ID.lookup kind = some id) :
    (kind = "boolean" ∧ id = 1) ∨ (kind = "float64" ∧ id = 2) ∨ (kind = "int64" ∧ id = 3) ∨
      (kind = "text" ∧ id = 4) := by
  have hmem := (lookup_eq_some_iff_mem (by decide)).mp h
  simpa [SCALAR_TO_ID] using hmem

/-- The payload of a boolean. -/
theorem scalarPayload_boolean {item : Scalar Obj} (hkind : item.kind = "boolean") {b : Bool}
    (hvalue : item.value = PyObject.ofBool b) :
    scalarPayload item = .ok (if b then 1 else 0, []) := by
  rw [scalarPayload, if_pos hkind, hvalue, PyObject.bool_ofBool]
  rfl

/-- The payload of a float. -/
theorem scalarPayload_float64 {item : Scalar Obj} (hkind : item.kind = "float64")
    {bits : UInt64} (hvalue : item.value = PyObject.ofFloat bits) :
    scalarPayload item = .ok ((bits.toNat : Int), []) := by
  rw [scalarPayload, if_neg (by rw [hkind]; decide), if_pos hkind, hvalue,
    PyObject.float_ofFloat]
  rfl

/-- The payload of an integer. -/
theorem scalarPayload_int64 {item : Scalar Obj} (hkind : item.kind = "int64") {n : Int}
    (hvalue : item.value = PyObject.ofInt n) : scalarPayload item = .ok (n % 2 ^ 64, []) := by
  rw [scalarPayload, if_neg (by rw [hkind]; decide), if_neg (by rw [hkind]; decide),
    if_pos hkind, hvalue, PyObject.int_ofInt]
  rfl

/-- The payload of a text. -/
theorem scalarPayload_text {item : Scalar Obj} (hkind : item.kind = "text") {text : Text}
    (hvalue : item.value = PyObject.ofStr text) {payload : Int × List UInt8} :
    scalarPayload item = .ok payload ↔
      ∃ bytes, encodeText text = .ok bytes ∧ bytes.length ≤ 256 ∧ payload = (0, bytes) := by
  rw [scalarPayload, if_neg (by rw [hkind]; decide), if_neg (by rw [hkind]; decide),
    if_neg (by rw [hkind]; decide), hvalue, PyObject.str_ofStr, Result.ok_bind,
    Result.bind_ok_iff]
  constructor
  · intro ⟨bytes, hbytes, h⟩
    split at h
    · cases h
    · cases h
      exact ⟨bytes, hbytes, by omega, rfl⟩
  · intro ⟨bytes, hbytes, hlength, h⟩
    refine ⟨bytes, hbytes, ?_⟩
    rw [if_neg (by omega), h]
    rfl

/-- The image of a scalar is its packed head and its padded text. -/
theorem scalarImage_ok_iff {item : Scalar Obj} {bytes : List UInt8} :
    scalarImage item = .ok bytes ↔ ∃ kind bits text head,
      SCALAR_TO_ID.lookup item.kind = some kind ∧ scalarPayload item = .ok (bits, text) ∧
      structPack SCALAR_HEAD [item.parameter, kind, 0, bits, text.length, 0] = .ok head ∧
      bytes = head ++ padTo 256 text := by
  unfold scalarImage
  cases hkind : SCALAR_TO_ID.lookup item.kind with
  | none => simp
  | some kind =>
    simp only [Result.bind_ok_iff, Option.some.injEq]
    constructor
    · intro ⟨⟨bits, text⟩, hpayload, head, hhead, h⟩
      cases h
      exact ⟨kind, bits, text, head, rfl, hpayload, hhead, rfl⟩
    · intro ⟨_, bits, text, head, hkind, hpayload, hhead, h⟩
      subst hkind
      exact ⟨(bits, text), hpayload, head, hhead, by rw [h]; rfl⟩

/-- What a slot that holds the image of a scalar reads as. -/
theorem slot_of_scalarImage {data : List UInt8} {offset : Nat} {item : Scalar Obj}
    (hroom : offset + SCALAR_SIZE ≤ data.length)
    (h : scalarImage item = .ok (slice data offset SCALAR_SIZE)) : ∃ kind bits text,
      SCALAR_TO_ID.lookup item.kind = some kind ∧ scalarPayload item = .ok (bits, text) ∧
      unpackFrom SCALAR_HEAD data offset = [item.parameter, kind, 0, bits, text.length, 0] ∧
      slice data (offset + 24) 256 = padTo 256 text := by
  have hsize : formatSize SCALAR_HEAD = 24 ∧ SCALAR_SIZE = 280 := ⟨rfl, rfl⟩
  have hslot : slice data offset 24 ++ slice data (offset + 24) 256 =
      slice data offset SCALAR_SIZE := by
    rw [slice_append_slice]
    rfl
  obtain ⟨kind, bits, text, head, hkind, hpayload, hhead, hbytes⟩ := scalarImage_ok_iff.mp h
  rw [← hslot] at hbytes
  obtain ⟨hh, htext⟩ := List.append_inj hbytes (by
    rw [length_slice (by omega), length_of_structPack hhead]
    rfl)
  rw [← hh] at hhead
  exact ⟨kind, bits, text, hkind, hpayload, (unpackFrom_eq_iff (by omega)).mpr hhead, htext⟩

/-- A slot that reads like the image of a scalar holds it. -/
theorem scalarImage_of_slot {data : List UInt8} {offset : Nat} {item : Scalar Obj} {kind bits : Int}
    {text : List UInt8} (hroom : offset + SCALAR_SIZE ≤ data.length)
    (hkind : SCALAR_TO_ID.lookup item.kind = some kind)
    (hpayload : scalarPayload item = .ok (bits, text))
    (hhead : unpackFrom SCALAR_HEAD data offset = [item.parameter, kind, 0, bits, text.length, 0])
    (htext : slice data (offset + 24) 256 = padTo 256 text) :
    scalarImage item = .ok (slice data offset SCALAR_SIZE) := by
  have hsize : formatSize SCALAR_HEAD = 24 ∧ SCALAR_SIZE = 280 := ⟨rfl, rfl⟩
  rw [unpackFrom_eq_iff (by omega)] at hhead
  rw [scalarImage_ok_iff]
  refine ⟨kind, bits, text, slice data offset 24, hkind, hpayload, hhead, ?_⟩
  rw [← htext, slice_append_slice]
  rfl

/-- The masked bits of an `int64` give it back. -/
theorem value_bytes_mod {n : Int} (h : -2 ^ 63 ≤ n ∧ n < 2 ^ 63) :
    Field.q.value (Field.Q.bytes (n % 2 ^ 64)) = n := by
  have hbytes : Field.Q.bytes (n % 2 ^ 64) = Field.q.bytes n := by
    show le 8 (n % 2 ^ 64 % 2 ^ 64).toNat = le 8 (n % 2 ^ 64).toNat
    rw [Int.emod_emod_of_dvd n (dvd_refl _)]
  rw [hbytes, Field.value_bytes (Field.holds_q_iff.mpr h)]

/-- The value that is read from the payload of a scalar is the scalar's own if it is of the
declared kind. -/
theorem scalarValue_of_payload {item : Scalar Obj} {kind bits : Int} {text : List UInt8}
    (hkind : SCALAR_TO_ID.lookup item.kind = some kind)
    (hpayload : scalarPayload item = .ok (bits, text)) :
    ∃ value : Obj, scalarValue item.kind bits text.length (padTo 256 text) = .ok value ∧
      (Declared item → SameScalar item { item with value := value }) := by
  have hsame : ∀ value : Obj, item.value = value →
      SameScalar item { item with value := value } := by
    intro value hvalue
    exact ⟨rfl, rfl, fun _ => by rw [hvalue], fun _ => hvalue⟩
  unfold scalarPayload at hpayload
  rcases scalar_lookup_cases hkind with ⟨hk, _⟩ | ⟨hk, _⟩ | ⟨hk, _⟩ | ⟨hk, _⟩
  · rw [if_pos hk] at hpayload
    obtain ⟨b, hb, hpayload⟩ := Result.bind_ok_iff.mp hpayload
    cases hpayload
    refine ⟨PyObject.ofBool b, ?_, ?_⟩
    · rw [scalarValue, if_pos hk, if_neg (by cases b <;> simp)]
      cases b <;> rfl
    · intro hdeclared
      obtain ⟨b', hb'⟩ := hdeclared.boolean hk
      rw [hb', PyObject.bool_ofBool] at hb
      cases hb
      exact hsame _ hb'
  · rw [if_neg (by rw [hk]; decide), if_pos hk] at hpayload
    obtain ⟨f, hf, hpayload⟩ := Result.bind_ok_iff.mp hpayload
    cases hpayload
    refine ⟨PyObject.ofFloat f, ?_, ?_⟩
    · rw [scalarValue, if_neg (by rw [hk]; decide), if_pos hk, Int.toNat_natCast,
        UInt64.ofNat_toNat]
    · intro _
      exact ⟨rfl, rfl, fun _ => by rw [hf, PyObject.float_ofFloat], fun hne => absurd hk hne⟩
  · rw [if_neg (by rw [hk]; decide), if_neg (by rw [hk]; decide), if_pos hk] at hpayload
    obtain ⟨n, hn, hpayload⟩ := Result.bind_ok_iff.mp hpayload
    cases hpayload
    refine ⟨PyObject.ofInt (Field.q.value (Field.Q.bytes (n % 2 ^ 64))), ?_, ?_⟩
    · rw [scalarValue, if_neg (by rw [hk]; decide), if_neg (by rw [hk]; decide), if_pos hk]
    · intro hdeclared
      obtain ⟨n', hn', hrange⟩ := hdeclared.int64 hk
      rw [hn', PyObject.int_ofInt] at hn
      cases hn
      rw [value_bytes_mod hrange]
      exact hsame _ hn'
  · rw [if_neg (by rw [hk]; decide), if_neg (by rw [hk]; decide), if_neg (by rw [hk]; decide)]
      at hpayload
    obtain ⟨t, ht, hpayload⟩ := Result.bind_ok_iff.mp hpayload
    obtain ⟨bytes, hbytes, hpayload⟩ := Result.bind_ok_iff.mp hpayload
    split at hpayload
    · cases hpayload
    cases hpayload
    have hdecoded : decodeText ((padTo 256 text).take text.length) = .ok t := by
      rw [padTo, List.take_left, decodeText_ok_iff]
      exact encodeText_ok_iff.mp hbytes
    refine ⟨PyObject.ofStr t, ?_, ?_⟩
    · rw [scalarValue, if_neg (by rw [hk]; decide), if_neg (by rw [hk]; decide),
        if_neg (by rw [hk]; decide), hdecoded]
      rfl
    · intro hdeclared
      obtain ⟨t', ht'⟩ := hdeclared.text hk
      rw [ht', PyObject.str_ofStr] at ht
      cases ht
      exact hsame _ ht'

/-- A scalar is read from a slot that holds its image. -/
theorem decodeScalar_of_image {data : List UInt8} {offset : Nat} {item : Scalar Obj}
    (hroom : offset + SCALAR_SIZE ≤ data.length)
    (h : scalarImage item = .ok (slice data offset SCALAR_SIZE)) :
    ∃ value, decodeScalar data offset = .ok { item with value := value } ∧
      (Declared item → SameScalar item { item with value := value }) := by
  obtain ⟨kind, bits, text, hkind, hpayload, hhead, htext⟩ := slot_of_scalarImage hroom h
  have hlength := length_of_scalarPayload hpayload
  have hpadding : anyNonzero ((padTo 256 text).drop text.length) = false := by
    rw [padTo, List.drop_left, anyNonzero_zeros]
  obtain ⟨value, hvalue, hdeclared⟩ := scalarValue_of_payload hkind hpayload
  refine ⟨value, ?_, hdeclared⟩
  unfold decodeScalar
  rw [hhead]
  simp only [scalar_lookup_iff.mpr hkind, htext, Int.toNat_natCast, hpadding]
  rw [if_neg (by omega), if_neg (by decide), hvalue]
  rfl

/-! ### Whole records -/

/-- The values of the header of a record. -/
def headerValues (record : Record Obj) : List Int :=
  [record.kind, record.flags, record.generation, record.submissionId, record.invocationId,
    record.operationId, record.status, record.tensors.length, record.scalars.length,
    record.outputs.length, 0, 0]

/-- A descriptor array holds the images of its items, and zeros in its unused slots. -/
def Slots {α : Type} (image : α → Except Exn (List UInt8)) (base size : Nat) (items : List α)
    (data : List UInt8) : Prop :=
  (∀ i (h : i < items.length), image items[i] = .ok (slice data (base + i * size) size)) ∧
    slice data (base + items.length * size) ((16 - items.length) * size) =
      zeros ((16 - items.length) * size)

/-- A descriptor array holds its items when their bytes start it and zeros fill it up. -/
theorem slots_iff {α : Type} {image : α → Except Exn (List UInt8)} {base size : Nat}
    {items : List α} {data : List UInt8}
    (hlength : ∀ {item bytes}, image item = .ok bytes → bytes.length = size)
    (hcount : items.length ≤ 16) (hroom : base + 16 * size ≤ RECORD_SIZE)
    (hdata : RECORD_SIZE ≤ data.length) :
    Slots image base size items data ↔ ∃ bytes, concatArray image items = .ok bytes ∧
      slice data base (16 * size) = padTo (16 * size) bytes :=
  (concatArray_slots_iff @hlength hcount (le_trans hroom hdata)).symm

/-- The buffer holds the record: what each of its areas reads as. -/
structure Encoded (record : Record Obj) (data : List UInt8) : Prop where
  size : data.length = RECORD_SIZE
  generation : record.generation ≠ 0
  submission : record.submissionId ≠ 0
  counts : record.tensors.length ≤ 16 ∧ record.scalars.length ≤ 16 ∧ record.outputs.length ≤ 16
  header : unpackFrom RECORD_HEADER data 0 = headerValues record
  reserved : slice data 52 76 = zeros 76
  tensors : Slots tensorImage TENSORS TENSOR_SIZE record.tensors data
  scalars : Slots scalarImage SCALARS SCALAR_SIZE record.scalars data
  outputs : Slots outputImage OUTPUTS OUTPUT_SIZE record.outputs data
  profile : unpackFrom PROFILE data PROFILE_OFFSET = record.profile
  error : ∃ encodedType encodedMessage, encodeText record.errorType = .ok encodedType ∧
    encodeText record.errorMessage = .ok encodedMessage ∧
    errorImage (encodedType.take 64) (encodedMessage.take 1024)
      (errorFlags encodedType.length encodedMessage.length) =
        .ok (slice data ERROR_OFFSET 1104)
  tail : slice data TAIL 3312 = zeros 3312

/-- The image of a record, as the list of its areas. -/
theorem recordImage_ok_iff {record : Record Obj} {data : List UInt8} :
    recordImage record = .ok data ↔
      record.generation ≠ 0 ∧ record.submissionId ≠ 0 ∧
      (record.tensors.length ≤ 16 ∧ record.scalars.length ≤ 16 ∧ record.outputs.length ≤ 16) ∧
      record.profile.length = 8 ∧
      ∃ header tensors scalars outputs profile encodedType encodedMessage error,
        structPack RECORD_HEADER (headerValues record) = .ok header ∧
        concatArray tensorImage record.tensors = .ok tensors ∧
        concatArray scalarImage record.scalars = .ok scalars ∧
        concatArray outputImage record.outputs = .ok outputs ∧
        structPack PROFILE record.profile = .ok profile ∧
        encodeText record.errorType = .ok encodedType ∧
        encodeText record.errorMessage = .ok encodedMessage ∧
        errorImage (encodedType.take 64) (encodedMessage.take 1024)
          (errorFlags encodedType.length encodedMessage.length) = .ok error ∧
        data = [header, zeros 76, padTo 4992 tensors, padTo 4480 scalars, padTo 2304 outputs,
          profile, error, zeros 3312].flatten := by
  simp only [recordImage, Result.bind_ok_iff]
  constructor
  · intro ⟨body, hbody, encodedType, htype, encodedMessage, hmessage, error, herror, h⟩
    cases h
    unfold bodyImage at hbody
    split at hbody
    · cases hbody
    rename_i hid
    split at hbody
    · cases hbody
    rename_i hcounts
    obtain ⟨header, hheader, hbody⟩ := Result.bind_ok_iff.mp hbody
    obtain ⟨tensors, htensors, hbody⟩ := Result.bind_ok_iff.mp hbody
    obtain ⟨scalars, hscalars, hbody⟩ := Result.bind_ok_iff.mp hbody
    obtain ⟨outputs, houtputs, hbody⟩ := Result.bind_ok_iff.mp hbody
    split at hbody
    · cases hbody
    rename_i hlength
    obtain ⟨profile, hprofile, hbody⟩ := Result.bind_ok_iff.mp hbody
    cases hbody
    rw [not_or] at hid
    refine ⟨hid.1, hid.2, by omega, not_not.mp hlength, header, tensors, scalars, outputs,
      profile, encodedType, encodedMessage, error, hheader, htensors, hscalars, houtputs,
      hprofile, htype, hmessage, herror, ?_⟩
    simp only [List.flatten_cons, List.flatten_nil, List.append_assoc, List.append_nil]
  · intro ⟨hgeneration, hsubmission, hcounts, hlength, header, tensors, scalars, outputs,
      profile, encodedType, encodedMessage, error, hheader, htensors, hscalars, houtputs,
      hprofile, htype, hmessage, herror, hdata⟩
    refine ⟨header ++ zeros 76 ++ padTo 4992 tensors ++ padTo 4480 scalars ++
      padTo 2304 outputs ++ profile, ?_, encodedType, htype, encodedMessage, hmessage, error,
      herror, ?_⟩
    · rw [headerValues] at hheader
      rw [bodyImage, if_neg (by simp [hgeneration, hsubmission]), if_neg (by omega), hheader,
        Result.ok_bind, htensors, Result.ok_bind, hscalars, Result.ok_bind, houtputs,
        Result.ok_bind, if_neg (by omega), hprofile, Result.ok_bind]
      rfl
    · rw [hdata]
      simp only [List.flatten_cons, List.flatten_nil, List.append_assoc, List.append_nil]
      rfl

/-- The offsets of the areas of a record add up. -/
theorem spells_areas_iff {data header tensors scalars outputs profile error : List UInt8}
    (hheader : header.length = 52) (htensors : tensors.length ≤ 4992)
    (hscalars : scalars.length ≤ 4480) (houtputs : outputs.length ≤ 2304)
    (hprofile : profile.length = 64) (herror : error.length = 1104) :
    data = [header, zeros 76, padTo 4992 tensors, padTo 4480 scalars, padTo 2304 outputs,
        profile, error, zeros 3312].flatten ↔
      slice data 0 52 = header ∧ slice data 52 76 = zeros 76 ∧
      slice data TENSORS 4992 = padTo 4992 tensors ∧
      slice data SCALARS 4480 = padTo 4480 scalars ∧
      slice data OUTPUTS 2304 = padTo 2304 outputs ∧ slice data PROFILE_OFFSET 64 = profile ∧
      slice data ERROR_OFFSET 1104 = error ∧ slice data TAIL 3312 = zeros 3312 ∧
      RECORD_SIZE = data.length := by
  rw [eq_flatten_iff]
  simp only [Spells, hheader, length_zeros, length_padTo htensors, length_padTo hscalars,
    length_padTo houtputs, hprofile, herror]
  rfl

/-- `encode` succeeds with a buffer exactly when the buffer holds the record. -/
theorem encode_ok_iff {record : Record Obj} {data : List UInt8} :
    encode record = .ok data ↔ Encoded record data := by
  have hlength : ∀ (text : List UInt8) n, (text.take n).length ≤ n := fun text n =>
    List.length_take_le n text
  rw [encode_eq_image, recordImage_ok_iff]
  constructor
  · intro ⟨hgeneration, hsubmission, hcounts, _, header, tensors, scalars, outputs, profile,
      encodedType, encodedMessage, error, hheader, htensors, hscalars, houtputs, hprofile,
      htype, hmessage, herror, hdata⟩
    rw [spells_areas_iff (length_of_structPack hheader)
      (length_of_concatArray length_of_tensorImage htensors hcounts.1)
      (length_of_concatArray length_of_scalarImage hscalars hcounts.2.1)
      (length_of_concatArray length_of_outputImage houtputs hcounts.2.2)
      (length_of_structPack hprofile)
      (length_of_errorImage herror (hlength _ _) (hlength _ _))] at hdata
    obtain ⟨h0, h52, h128, h5120, h9600, h11904, h11968, h13072, hsize⟩ := hdata
    have hroom : RECORD_SIZE ≤ data.length := hsize.le
    rw [← h0] at hheader
    rw [← h11904] at hprofile
    rw [← h11968] at herror
    exact {
      size := hsize.symm
      generation := hgeneration
      submission := hsubmission
      counts := hcounts
      header := (unpackFrom_eq_iff (le_trans (by decide) hroom)).mpr hheader
      reserved := h52
      tensors := (slots_iff length_of_tensorImage hcounts.1 (by decide) hroom).mpr
        ⟨tensors, htensors, h128⟩
      scalars := (slots_iff length_of_scalarImage hcounts.2.1 (by decide) hroom).mpr
        ⟨scalars, hscalars, h5120⟩
      outputs := (slots_iff length_of_outputImage hcounts.2.2 (by decide) hroom).mpr
        ⟨outputs, houtputs, h9600⟩
      profile := (unpackFrom_eq_iff (le_trans (by decide) hroom)).mpr hprofile
      error := ⟨encodedType, encodedMessage, htype, hmessage, herror⟩
      tail := h13072 }
  · intro h
    have hroom : RECORD_SIZE ≤ data.length := h.size.ge
    obtain ⟨encodedType, encodedMessage, htype, hmessage, herror⟩ := h.error
    obtain ⟨tensors, htensors, h128⟩ := (slots_iff length_of_tensorImage h.counts.1 (by decide)
      hroom).mp h.tensors
    obtain ⟨scalars, hscalars, h5120⟩ := (slots_iff length_of_scalarImage h.counts.2.1
      (by decide) hroom).mp h.scalars
    obtain ⟨outputs, houtputs, h9600⟩ := (slots_iff length_of_outputImage h.counts.2.2
      (by decide) hroom).mp h.outputs
    have hheader := (unpackFrom_eq_iff (le_trans (by decide) hroom)).mp h.header
    have hprofile := (unpackFrom_eq_iff (le_trans (by decide) hroom)).mp h.profile
    have hprofileLength : record.profile.length = 8 := by
      rw [← h.profile, unpackFrom, length_unpack]
      rfl
    refine ⟨h.generation, h.submission, h.counts, hprofileLength, _, tensors, scalars, outputs,
      _, encodedType, encodedMessage, _, hheader, htensors, hscalars, houtputs, hprofile, htype,
      hmessage, herror, ?_⟩
    rw [spells_areas_iff (length_of_structPack hheader)
      (length_of_concatArray length_of_tensorImage htensors h.counts.1)
      (length_of_concatArray length_of_scalarImage hscalars h.counts.2.1)
      (length_of_concatArray length_of_outputImage houtputs h.counts.2.2)
      (length_of_structPack hprofile)
      (length_of_errorImage herror (hlength _ _) (hlength _ _))]
    exact ⟨rfl, h.reserved, h128, h5120, h9600, rfl, rfl, h.tail, h.size.symm⟩

/-! ### Reading a record back -/

/-- What an error area at `base` reads as when it holds an image. -/
theorem errorImage_ok_iff {data errorType errorMessage : List UInt8} {flags : Int} {base : Nat}
    (hroom : base + 1104 ≤ data.length) (htype : errorType.length ≤ 64) :
    errorImage errorType errorMessage flags = .ok (slice data base 1104) ↔
      unpackFrom ERROR_HEAD data base =
        [(errorType.length : Int), errorMessage.length, flags, 0] ∧
      slice data (base + 16) 64 = padTo 64 errorType ∧
      slice data (base + 80) 1024 = padTo 1024 errorMessage := by
  have hsize : formatSize ERROR_HEAD = 16 := rfl
  have harea : slice data base 16 ++ slice data (base + 16) 64 ++ slice data (base + 80) 1024 =
      slice data base 1104 := by
    rw [slice_append_slice, show base + 80 = base + (16 + 64) by omega, slice_append_slice]
  rw [unpackFrom_eq_iff (by omega), ← harea, hsize]
  constructor
  · intro h
    obtain ⟨head, hhead, himage⟩ := Result.bind_ok_iff.mp h
    have h16 : head.length = 16 := length_of_structPack hhead
    obtain ⟨hfront, hm⟩ := List.append_inj (Except.ok.inj himage) (by
      rw [List.length_append, List.length_append, h16, length_padTo htype,
        length_slice (by omega), length_slice (by omega)])
    obtain ⟨hh, ht⟩ := List.append_inj hfront (by rw [h16, length_slice (by omega)])
    rw [hh] at hhead
    exact ⟨hhead, ht.symm, hm.symm⟩
  · intro ⟨hhead, ht, hm⟩
    rw [errorImage, hhead, Result.ok_bind, ht, hm]
    rfl

/-- The text in front of the padding of an area at `base`. -/
theorem slice_of_area {data text : List UInt8} {base size : Nat}
    (h : slice data base size = padTo size text) (htext : text.length ≤ size) :
    slice data base text.length = text ∧
      anyNonzero (slice data (base + text.length) (size - text.length)) = false := by
  have hfront := slice_slice data base (show 0 + text.length ≤ size by omega)
  have hback := slice_slice data base
    (show text.length + (size - text.length) ≤ size by omega)
  rw [h, slice_padTo, Nat.add_zero] at hfront
  rw [← hback, h]
  exact ⟨hfront.symm, anyNonzero_slice_padTo size text⟩

/-- The texts of an error area are decoded from the bytes that were written. -/
theorem decodeError_of_image {data errorType errorMessage : List UInt8} {flags : Int}
    (hdata : data.length = RECORD_SIZE) (htype : errorType.length ≤ 64)
    (hmessage : errorMessage.length ≤ 1024) (hflags : flags / 4 = 0)
    (h : errorImage errorType errorMessage flags = .ok (slice data ERROR_OFFSET 1104)) :
    decodeError data = (do
      let errorType ← decodeText errorType
      let errorMessage ← decodeText errorMessage
      return (errorType, errorMessage)) := by
  obtain ⟨hhead, htypeArea, hmessageArea⟩ :=
    (errorImage_ok_iff (by rw [hdata]; decide) htype).mp h
  obtain ⟨htypeText, htypePadding⟩ := slice_of_area htypeArea htype
  obtain ⟨hmessageText, hmessagePadding⟩ := slice_of_area hmessageArea hmessage
  unfold decodeError
  rw [hhead]
  simp only [Int.toNat_natCast]
  rw [if_neg (by omega), htypePadding, hmessagePadding, if_neg (by decide), htypeText,
    hmessageText]

/-- The flags of the error area are known ones. -/
theorem errorFlags_div (typeLength messageLength : Nat) :
    errorFlags typeLength messageLength / 4 = 0 := by
  unfold errorFlags
  split <;> split <;> rfl

/-- The scalars that are read from an array of images. -/
theorem readScalars_of_slots {items : List (Scalar Obj)} {data : List UInt8}
    (hdata : data.length = RECORD_SIZE) (hcount : items.length ≤ 16)
    (h : Slots scalarImage SCALARS SCALAR_SIZE items data) :
    ∃ scalars : List (Scalar Obj),
      readArray (decodeScalar data) SCALARS SCALAR_SIZE 0 items.length = .ok scalars ∧
      ((∀ item ∈ items, Declared item) → List.Forall₂ SameScalar items scalars) := by
  have hitem : ∀ i : Fin items.length, ∃ value,
      decodeScalar data (SCALARS + i * SCALAR_SIZE) = .ok { items[i] with value := value } ∧
        (Declared items[i] → SameScalar items[i] { items[i] with value := value }) := by
    intro i
    refine decodeScalar_of_image ?_ (h.1 i i.isLt)
    have hi := i.isLt
    rw [hdata, SCALARS, SCALAR_SIZE, RECORD_SIZE]
    omega
  choose value hvalue hdeclared using hitem
  refine ⟨List.ofFn fun i => { items[i] with value := value i }, ?_, ?_⟩
  · rw [readArray_ok_iff]
    refine ⟨List.length_ofFn, ?_⟩
    intro i hi
    rw [List.length_ofFn] at hi
    rw [Nat.zero_add, hvalue ⟨i, hi⟩, List.getElem_ofFn]
  · intro hall
    rw [List.forall₂_iff_get]
    refine ⟨by rw [List.length_ofFn], ?_⟩
    intro i hi hi'
    rw [List.get_ofFn]
    exact hdeclared ⟨i, hi⟩ (hall _ (List.getElem_mem hi))

/-- What `decode` makes of a buffer that holds a record. Apart from the texts and scalars that
are not of their declared kind, this is the record. -/
theorem decode_of_encoded {record : Record Obj} {data : List UInt8} (h : Encoded record data) :
    ∃ scalars : List (Scalar Obj),
      ((∀ item ∈ record.scalars, Declared item) →
        List.Forall₂ SameScalar record.scalars scalars) ∧
      decode data record.generation = (do
        let (errorType, errorMessage) ← decodeError data
        return { record with
          scalars := scalars, errorType := errorType, errorMessage := errorMessage }) := by
  obtain ⟨scalars, hscalars, hdeclared⟩ := readScalars_of_slots h.size h.counts.2.1 h.scalars
  have htensors : readArray (decodeTensor data) TENSORS TENSOR_SIZE 0 record.tensors.length =
      .ok record.tensors := by
    rw [readArray_ok_iff]
    refine ⟨rfl, ?_⟩
    intro i hi
    have hroom : TENSORS + i * TENSOR_SIZE + TENSOR_SIZE ≤ data.length := by
      have hcount := h.counts.1
      rw [h.size, TENSORS, TENSOR_SIZE, RECORD_SIZE]
      omega
    rw [Nat.zero_add, decodeTensor_ok_iff hroom]
    exact h.tensors.1 i hi
  have houtputs : readArray (decodeOutput data) OUTPUTS OUTPUT_SIZE 0 record.outputs.length =
      .ok record.outputs := by
    rw [readArray_ok_iff]
    refine ⟨rfl, ?_⟩
    intro i hi
    have hroom : OUTPUTS + i * OUTPUT_SIZE + OUTPUT_SIZE ≤ data.length := by
      have hcount := h.counts.2.2
      rw [h.size, OUTPUTS, OUTPUT_SIZE, RECORD_SIZE]
      omega
    rw [Nat.zero_add, decodeOutput_ok_iff hroom]
    exact h.outputs.1 i hi
  refine ⟨scalars, hdeclared, ?_⟩
  have hcounts := h.counts
  unfold decode
  rw [if_neg (not_not.mpr h.size), h.header]
  simp only [headerValues, Int.toNat_natCast]
  rw [if_neg (by simp [h.submission]), h.reserved, show RECORD_SIZE - TAIL = 3312 from rfl,
    h.tail, anyNonzero_zeros, anyNonzero_zeros, if_neg (by simp), if_neg (by omega), htensors,
    Result.ok_bind, hscalars, Result.ok_bind, houtputs, Result.ok_bind, h.profile]

/-- `decode` rejects a record of another generation. -/
theorem decode_of_other_generation {record : Record Obj} {data : List UInt8}
    (h : Encoded record data) {generation : Int} (hne : generation ≠ record.generation) :
    (decode data generation : Except Exn (Record Obj)) =
      .error (.ringError "invalid ring record identity") := by
  unfold decode
  rw [if_neg (not_not.mpr h.size), h.header]
  simp only [headerValues]
  rw [if_pos (Or.inl (Ne.symm hne))]

/-- The text has a UTF-8 form of at most `size` bytes. -/
def Fits (text : Text) (size : Nat) : Prop :=
  ∃ bytes, Utf8.encode text = some bytes ∧ bytes.length ≤ size

/-- A text that fits its area is written and read as a whole. -/
theorem Fits.decodeText_take {text : Text} {size : Nat} (h : Fits text size)
    {encoded : List UInt8} (hencoded : encodeText text = .ok encoded) :
    decodeText (encoded.take size) = .ok text := by
  obtain ⟨bytes, hbytes, hlength⟩ := h
  rw [encodeText_ok_iff, hbytes] at hencoded
  cases hencoded
  rw [List.take_of_length_le hlength, decodeText_ok_iff]
  exact hbytes

/-- A record is read from a buffer that holds it when its scalars are of their kinds and its
texts fit. -/
theorem decode_of_fits {record : Record Obj} {data : List UInt8} (h : Encoded record data)
    (hscalars : ∀ item ∈ record.scalars, Declared item)
    (htype : Fits record.errorType 64) (hmessage : Fits record.errorMessage 1024) :
    ∃ scalars : List (Scalar Obj), List.Forall₂ SameScalar record.scalars scalars ∧
      decode data record.generation = .ok { record with scalars := scalars } := by
  obtain ⟨scalars, hdeclared, hdecode⟩ := decode_of_encoded h
  obtain ⟨encodedType, encodedMessage, htypeText, hmessageText, herror⟩ := h.error
  refine ⟨scalars, hdeclared hscalars, ?_⟩
  rw [hdecode,
    decodeError_of_image h.size (List.length_take_le _ _) (List.length_take_le _ _)
      (errorFlags_div _ _) herror,
    htype.decodeText_take htypeText, Result.ok_bind, hmessage.decodeText_take hmessageText]
  rfl

/-- **Round trip.** A record that `encode` accepts, whose scalars are of their declared kinds and
whose error texts fit, comes back as it was from either codec, and only for its generation. -/
theorem record_roundTrip (record : Record Obj) (data : List UInt8)
    (hencode : encode record = .ok data) (hscalars : ∀ item ∈ record.scalars, Declared item)
    (htype : Fits record.errorType 64) (hmessage : Fits record.errorMessage 1024) :
    data.length = RECORD_SIZE ∧
    (∃ decoded, decode data record.generation = .ok decoded ∧ SameRecord record decoded) ∧
    (∀ generation, generation ≠ record.generation → ∃ reason,
      (decode data generation : Except Exn (Record Obj)) = .error (.ringError reason)) ∧
    encodeSdk record = .ok data ∧
    (∃ decoded, decodeSdk data record.generation = .ok decoded ∧ SameRecord record decoded) ∧
    (∀ generation, generation ≠ record.generation → ∃ reason,
      (decodeSdk data generation : Except Exn (Record Obj)) = .error (.ringError reason)) := by
  have hencoded : Encoded record data := encode_ok_iff.mp hencode
  have hround : ∃ decoded, decode data record.generation = .ok decoded ∧
      SameRecord record decoded := by
    obtain ⟨scalars, hsame, hdecode⟩ := decode_of_fits hencoded hscalars htype hmessage
    exact ⟨_, hdecode, rfl, hsame⟩
  have hother : ∀ generation, generation ≠ record.generation → ∃ reason,
      (decode data generation : Except Exn (Record Obj)) = .error (.ringError reason) :=
    fun generation hne => ⟨_, decode_of_other_generation hencoded hne⟩
  exact ⟨hencoded.size, hround, hother, by rw [encodeSdk_eq_encode, hencode], hround, hother⟩

/-- A record with a descriptor of every kind, and texts outside of ASCII. -/
def sampleRecord : Record Value where
  kind := 1
  generation := 7
  submissionId := 3
  invocationId := 5
  operationId := 2
  flags := 1
  tensors := [⟨1, 4, 9, 64, 24, "float32", [2, 3], [3, 1], 1, 0, true⟩]
  scalars := [⟨1, "boolean", .bool true⟩, ⟨2, "int64", .int (-1)⟩,
    ⟨3, "float64", .float 0x3FF8000000000000⟩, ⟨4, "text", .str [0xE9, 0x1F600]⟩]
  outputs := [⟨0, [4], "bool"⟩]
  errorType := [0x45]
  errorMessage := [0xE9]

/-- The image of a record exists when `encode` accepts it. -/
theorem exists_encode {record : Record Obj} (h : (recordImage record).isOk = true) :
    ∃ data, encode record = .ok data := by
  rw [encode_eq_image]
  cases himage : recordImage record with
  | error e => rw [himage] at h; cases h
  | ok data => exact ⟨data, rfl⟩

/-- The sample comes back. -/
theorem record_roundTrip_sample : ∃ data, encode sampleRecord = .ok data ∧
    data.length = RECORD_SIZE ∧
    (∃ decoded, decodeSdk data 7 = .ok decoded ∧ SameRecord sampleRecord decoded) := by
  obtain ⟨data, hdata⟩ := exists_encode (show (recordImage sampleRecord).isOk = true by decide)
  have hscalars : ∀ item ∈ sampleRecord.scalars, Declared item := by
    intro item hitem
    simp only [sampleRecord, List.mem_cons, List.not_mem_nil, or_false] at hitem
    rcases hitem with rfl | rfl | rfl | rfl
    · exact ⟨fun _ => ⟨true, rfl⟩, by simp, by simp⟩
    · exact ⟨by simp, fun _ => ⟨-1, rfl, by decide, by decide⟩, by simp⟩
    · exact ⟨by simp, by simp, by simp⟩
    · exact ⟨by simp, by simp, fun _ => ⟨_, rfl⟩⟩
  obtain ⟨hsize, _, _, _, hsdk, _⟩ := record_roundTrip sampleRecord data hdata hscalars
    ⟨[0x45], by decide, by decide⟩ ⟨[0xC3, 0xA9], by decide, by decide⟩
  exact ⟨data, hdata, hsize, hsdk⟩

end Wmfs.Ring.Codec
