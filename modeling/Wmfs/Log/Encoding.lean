import Mathlib.Tactic
import Wmfs.Log.Codec

/-!
# `Wmfs.Log.Encoding`: what the log encoders write

An encoder carries a field with its name cut to 255 bytes and its text cut to the bytes that it
leaves to it (`carriedField`). `partOf` is the bytes of a field that is not cut any more, so
the loop over the fields writes `partOf (carriedField ..)` for one field after the other until
one does not fit (`encodeFields_cons`). `carriedFields` are the fields up to there.

`LawfulEncoder` is what the proofs need of an encoder. Both encoders are lawful. They differ in
the room that they leave to a text, and a lawful encoder leaves at least what is there.
-/

set_option autoImplicit false

namespace Wmfs.Log

open Wmfs.Lib
open Wmfs.Lib.Utf8 (Text)

/-! ### Fields as they are written -/

/-- The text of a value. -/
def textOf : LogValue → Text
  | .text value => value
  | _ => []

/-- `kind` of a value. -/
def wireKind : LogValue → Int
  | .boolean _ => 1
  | .integer value => if value < 0 then 2 else 3
  | .float _ => 4
  | .text _ => 5

/-- `bits` of a value. -/
def wireBits : LogValue → Int
  | .boolean value => if value then 1 else 0
  | .integer value => value % 2 ^ 64
  | .float bits => bits.toNat
  | .text _ => 0

/-- The value has a form in the packet. -/
def ValuePacks : LogValue → Prop
  | .boolean _ => True
  | .integer value => -2 ^ 63 ≤ value ∧ value ≤ 2 ^ 64 - 1
  | .float bits => Document.isFinite bits = true
  | .text value => (Utf8.encode value).isSome

instance : DecidablePred ValuePacks := fun value =>
  match value with
  | .boolean _ => inferInstanceAs (Decidable True)
  | .integer value => inferInstanceAs (Decidable (-2 ^ 63 ≤ value ∧ value ≤ 2 ^ 64 - 1))
  | .float bits => inferInstanceAs (Decidable (Document.isFinite bits = true))
  | .text value => inferInstanceAs (Decidable ((Utf8.encode value).isSome))

/-- The field has a form in a packet: it can be encoded when there is room. -/
def Packs (field : Text × LogValue) : Prop :=
  (Utf8.encode field.1).isSome ∧ ValuePacks field.2

instance : DecidablePred Packs := fun field =>
  inferInstanceAs (Decidable ((Utf8.encode field.1).isSome ∧ ValuePacks field.2))

/-- The bytes of a field that is not cut any more. -/
def partOf (field : Text × LogValue) : Option (List UInt8) := do
  let name ← Utf8.encode field.1
  let text ← Utf8.encode (textOf field.2)
  let head ← pack FIELD [wireKind field.2, 0, name.length, text.length, wireBits field.2, 0]
  return head ++ name ++ text

/-- A field has a part when its name, its text and its header have bytes. -/
theorem partOf_eq_some_iff {field : Text × LogValue} {part : List UInt8} :
    partOf field = some part ↔ ∃ name text head, Utf8.encode field.1 = some name ∧
      Utf8.encode (textOf field.2) = some text ∧
      pack FIELD [wireKind field.2, 0, name.length, text.length, wireBits field.2, 0]
        = some head ∧ part = head ++ name ++ text := by
  simp only [partOf, bind, pure, Option.bind_eq_some_iff, Option.some.injEq]
  constructor
  · intro ⟨name, hname, text, htext, head, hhead, hpart⟩
    exact ⟨name, text, head, hname, htext, hhead, hpart.symm⟩
  · intro ⟨name, text, head, hname, htext, hhead, hpart⟩
    exact ⟨name, hname, text, htext, head, hhead, hpart.symm⟩

/-- The bytes of a field: its header, its name and its text. -/
theorem length_of_partOf {field : Text × LogValue} {part : List UInt8}
    (h : partOf field = some part) :
    part.length = 24 + Utf8.size field.1 + Utf8.size (textOf field.2) := by
  obtain ⟨name, text, head, hname, htext, hhead, rfl⟩ := partOf_eq_some_iff.mp h
  rw [List.length_append, List.length_append, length_of_pack hhead, Utf8.length_of_encode hname,
    Utf8.length_of_encode htext]
  rfl

/-- A value that packs has a kind and bits that fit. -/
theorem wire_bounds {value : LogValue} (h : ValuePacks value) :
    (1 ≤ wireKind value ∧ wireKind value ≤ 5) ∧
      (0 ≤ wireBits value ∧ wireBits value < 2 ^ 64) := by
  cases value with
  | boolean value => cases value <;> decide
  | integer value =>
    show (1 ≤ (if value < 0 then (2 : Int) else 3) ∧ (if value < 0 then (2 : Int) else 3) ≤ 5) ∧
      (0 ≤ value % 2 ^ 64 ∧ value % 2 ^ 64 < 2 ^ 64)
    refine ⟨?_, Int.emod_nonneg _ (by decide), Int.emod_lt_of_pos _ (by decide)⟩
    split <;> omega
  | float bits =>
    have hbits := bits.toNat_lt
    show (1 ≤ (4 : Int) ∧ (4 : Int) ≤ 5) ∧ (0 ≤ (bits.toNat : Int) ∧ (bits.toNat : Int) < 2 ^ 64)
    omega
  | text value =>
    show (1 ≤ (5 : Int) ∧ (5 : Int) ≤ 5) ∧ (0 ≤ (0 : Int) ∧ (0 : Int) < 2 ^ 64)
    omega

/-- A text of a value that packs has a UTF-8 form. -/
theorem encode_textOf_isSome {value : LogValue} (h : ValuePacks value) :
    (Utf8.encode (textOf value)).isSome := by
  cases value with
  | text value => exact h
  | boolean value => rfl
  | integer value => rfl
  | float bits => rfl

/-- A field whose texts are not too long has bytes. -/
theorem partOf_isSome {field : Text × LogValue} (h : Packs field)
    (hname : Utf8.size field.1 < 2 ^ 32) (htext : Utf8.size (textOf field.2) < 2 ^ 32) :
    ∃ part, partOf field = some part := by
  obtain ⟨name, hn⟩ := Option.isSome_iff_exists.mp h.1
  obtain ⟨text, ht⟩ := Option.isSome_iff_exists.mp (encode_textOf_isSome h.2)
  have hnameLength := Utf8.length_of_encode hn
  have htextLength := Utf8.length_of_encode ht
  obtain ⟨⟨hkindLow, hkindHigh⟩, hbits⟩ := wire_bounds h.2
  have hpack : (pack FIELD [wireKind field.2, 0, name.length, text.length, wireBits field.2,
      0]).isSome := by
    rw [isSome_pack_iff]
    simp only [FIELD, List.forall₂_cons, Field.holds_H_iff, Field.holds_I_iff,
      Field.holds_Q_iff, List.Forall₂.nil, and_true]
    omega
  obtain ⟨head, hhead⟩ := Option.isSome_iff_exists.mp hpack
  exact ⟨_, partOf_eq_some_iff.mpr ⟨name, text, head, hn, ht, hhead, rfl⟩⟩

/-! ### Encoders -/

/-- What the proofs need of an encoder. -/
structure LawfulEncoder (e : Encoder) : Prop where
  checkHeader : ∀ level limit, e.checkHeader level limit = .ok () ↔
    unknownLevel level = false ∧ 100 ≤ limit ∧ limit ≤ 65536
  messageBudget : ∀ limit category,
    e.messageBudget limit category = min 32768 (max 0 (limit - 100 - category))
  integer : ∀ value, ValuePacks (.integer value) →
    e.integer value = .ok (wireKind (.integer value), wireBits (.integer value))
  integer_error : ∀ value, ¬ ValuePacks (.integer value) → ∃ error, e.integer value = .error error
  available_le : ∀ limit payload parts nameSize, 0 ≤ payload → 0 ≤ nameSize →
    e.available limit payload parts nameSize ≤ limit
  le_available : ∀ limit payload parts nameSize, (∀ part ∈ parts, 24 ≤ part.length) →
    limit - 100 - payload - totalLength parts - 24 - nameSize ≤
      e.available limit payload parts nameSize

/-- A length is not negative. -/
theorem totalLength_nonneg (parts : List (List UInt8)) : 0 ≤ totalLength parts :=
  Int.natCast_nonneg _

/-- No parts have no bytes. -/
theorem totalLength_nil : totalLength [] = 0 := rfl

/-- The length of the parts with one more. -/
theorem totalLength_append (parts : List (List UInt8)) (part : List UInt8) :
    totalLength (parts ++ [part]) = totalLength parts + part.length := by
  simp [totalLength]

/-- Fields have at least a header each. -/
theorem le_totalLength {parts : List (List UInt8)} (h : ∀ part ∈ parts, 24 ≤ part.length) :
    (parts.length : Int) * 24 ≤ totalLength parts := by
  induction parts with
  | nil => simp [totalLength]
  | cons part parts ih =>
    have hpart := h part (by simp)
    have hrest := ih fun p hp => h p (List.mem_cons_of_mem part hp)
    simp only [totalLength, List.map_cons, List.sum_cons, List.length_cons] at hrest ⊢
    omega

/-- The encoder of the runtime is lawful. -/
theorem runtimeEncoder_lawful : LawfulEncoder runtimeEncoder where
  checkHeader level limit := by
    show (raiseIf _ _ >>= fun _ => raiseIf _ _) = _ ↔ _
    rw [Result.check_bind_ok_iff, raiseIf_ok_iff, raiseIf_ok_iff, Bool.not_eq_true, not_not]
    rfl
  messageBudget limit category := by
    show max 0 (min 32768 (limit - 100 - category)) = _
    omega
  integer value h := by
    have hrange : -2 ^ 63 ≤ value ∧ value ≤ 2 ^ 64 - 1 := h
    show (if value < 0 then _ else _) = Except.ok (if value < 0 then (2 : Int) else 3, _)
    split
    · rw [raiseIf, if_neg (by omega)]
      rfl
    · rw [raiseIf, if_neg (by omega)]
      show Except.ok ((3 : Int), value) = .ok (3, value % 2 ^ 64)
      rw [Int.emod_eq_of_lt (by omega) (by omega)]
  integer_error value h := by
    have hrange : ¬ (-2 ^ 63 ≤ value ∧ value ≤ 2 ^ 64 - 1) := h
    show ∃ error, (if value < 0 then _ else _) = Except.error error
    split
    · rw [raiseIf, if_pos (by omega)]
      exact ⟨_, rfl⟩
    · rw [raiseIf, if_pos (by omega)]
      exact ⟨_, rfl⟩
  available_le limit payload parts nameSize hpayload hname := by
    show limit - 100 - payload - ((parts.length : Int) + 1) * 24 - nameSize ≤ limit
    omega
  le_available limit payload parts nameSize hparts := by
    have := le_totalLength hparts
    show _ ≤ limit - 100 - payload - ((parts.length : Int) + 1) * 24 - nameSize
    omega

/-- The encoder of the SDK is lawful. -/
theorem sdkEncoder_lawful : LawfulEncoder sdkEncoder where
  checkHeader level limit := by
    show raiseIf _ _ = _ ↔ _
    rw [raiseIf_ok_iff, not_or, Bool.not_eq_true, not_not]
    rfl
  messageBudget limit category := rfl
  integer value h := by
    have hrange : -2 ^ 63 ≤ value ∧ value ≤ 2 ^ 64 - 1 := h
    show (raiseIf _ _ >>= fun _ => _) = _
    rw [raiseIf, if_neg (by omega)]
    rfl
  integer_error value h := by
    have hrange : ¬ (-2 ^ 63 ≤ value ∧ value ≤ 2 ^ 64 - 1) := h
    show ∃ error, (raiseIf _ _ >>= fun _ => _) = _
    rw [raiseIf, if_pos (by omega)]
    exact ⟨_, rfl⟩
  available_le limit payload parts nameSize hpayload hname := by
    have := totalLength_nonneg parts
    show limit - 100 - payload - totalLength parts - 24 - nameSize ≤ limit
    omega
  le_available limit payload parts nameSize hparts := le_rfl

/-! ### The loop over the fields -/

/-- A value with its text cut to `room` bytes. -/
def cutValue (room : Int) : LogValue → LogValue
  | .text value => .text (Utf8.cut value (max 0 room).toNat)
  | value => value

/-- A name as it is written. -/
def cutName (name : Text) : Text := Utf8.cut name 255

/-- A field as it is written behind the fields `parts`. -/
def carriedField (e : Encoder) (limit payload : Int) (parts : List (List UInt8))
    (field : Text × LogValue) : Text × LogValue :=
  (cutName field.1,
    cutValue (e.available limit payload parts (Utf8.size (cutName field.1))) field.2)

section
variable {e : Encoder} {limit payload : Int} {parts : List (List UInt8)}

/-- A cut value still has a form. -/
theorem cutValue_packs {room : Int} {value : LogValue} (h : ValuePacks value) :
    ValuePacks (cutValue room value) := by
  cases value with
  | text value => exact Utf8.encode_prefix_isSome h (Utf8.cut_prefix _ _)
  | boolean value => exact h
  | integer value => exact h
  | float bits => exact h

/-- A cut field still has a form. -/
theorem carriedField_packs (e : Encoder) (limit payload : Int) (parts : List (List UInt8))
    {field : Text × LogValue} (h : Packs field) :
    Packs (carriedField e limit payload parts field) :=
  ⟨Utf8.encode_prefix_isSome h.1 (Utf8.cut_prefix _ _), cutValue_packs h.2⟩

/-- The text of a cut value fits into the room. -/
theorem size_textOf_cutValue (room : Int) (value : LogValue) :
    (Utf8.size (textOf (cutValue room value)) : Int) ≤ max 0 room := by
  cases value with
  | text value =>
    have := Utf8.size_cut_le value (max 0 room).toNat
    show (Utf8.size (Utf8.cut value (max 0 room).toNat) : Int) ≤ _
    omega
  | boolean value => exact le_max_left _ _
  | integer value => exact le_max_left _ _
  | float bits => exact le_max_left _ _

/-- What `encodeValue` returns: the kind, the bits and the text of the cut value. -/
theorem encodeValue_eq (he : LawfulEncoder e) (limit payload : Int) (parts : List (List UInt8))
    (nameSize : Int) {value : LogValue}
    (h : ValuePacks value) : ∃ text,
      Utf8.encode (textOf (cutValue (e.available limit payload parts nameSize) value))
        = some text ∧
      encodeValue e limit payload parts nameSize value = .ok
        (wireKind (cutValue (e.available limit payload parts nameSize) value),
          wireBits (cutValue (e.available limit payload parts nameSize) value), text,
          decide (cutValue (e.available limit payload parts nameSize) value ≠ value)) := by
  cases value with
  | boolean value =>
    refine ⟨[], rfl, ?_⟩
    rw [cutValue, decide_eq_false (by simp)]
    · rfl
    · simp
  | integer value =>
    refine ⟨[], rfl, ?_⟩
    rw [cutValue, decide_eq_false (by simp), encodeValue, he.integer value h]
    · rfl
    · simp
  | float bits =>
    have hfinite : Document.isFinite bits = true := h
    refine ⟨[], rfl, ?_⟩
    rw [cutValue, decide_eq_false (by simp), encodeValue, raiseIf, if_neg (by simp [hfinite])]
    · rfl
    · simp
  | text value =>
    obtain ⟨bytes, hbytes, hprefixed⟩ := utf8Prefix_eq
      (max 0 (e.available limit payload parts nameSize)) h (le_max_left _ _)
    refine ⟨bytes, hbytes, ?_⟩
    rw [encodeValue, hprefixed]
    -- The text is cut exactly when it is not the whole one.
    have hcut : decide (max 0 (e.available limit payload parts nameSize) < Utf8.size value) =
        decide (cutValue (e.available limit payload parts nameSize) (.text value)
          ≠ .text value) := by
      rw [decide_eq_decide, cutValue, ne_eq, LogValue.text.injEq, Utf8.cut_eq_self_iff]
      omega
    rw [hcut]
    rfl

/-- A value without a form raises. -/
theorem encodeValue_eq_error (he : LawfulEncoder e) (limit payload : Int)
    (parts : List (List UInt8)) (nameSize : Int) {value : LogValue}
    (h : ¬ ValuePacks value) :
    ∃ error, encodeValue e limit payload parts nameSize value = .error error := by
  cases value with
  | boolean value => exact absurd trivial h
  | integer value =>
    obtain ⟨error, herror⟩ := he.integer_error value h
    rw [encodeValue, herror]
    exact ⟨error, rfl⟩
  | float bits =>
    have hfinite : Document.isFinite bits = false := Bool.not_eq_true _ ▸ h
    rw [encodeValue, raiseIf, if_pos hfinite]
    exact ⟨_, rfl⟩
  | text value =>
    rw [encodeValue, utf8Prefix_eq_error h]
    exact ⟨_, rfl⟩

/-- An iteration, from what its calls return. -/
theorem encodeFields_cons_of_calls {name : Text} {value : LogValue} {kind bits : Int}
    {nameBytes text head : List UInt8} {nameCut textCut : Bool}
    (hname : utf8Prefix name MAX_LOG_NAME_BYTES = .ok (nameBytes, nameCut))
    (hvalue : encodeValue e limit payload parts nameBytes.length value
      = .ok (kind, bits, text, textCut))
    (hhead : pack FIELD [kind, 0, nameBytes.length, text.length, bits, 0] = some head)
    (items : List (Text × LogValue)) (truncated : Bool) :
    encodeFields e limit payload ((name, value) :: items) parts truncated =
      if 100 + payload + totalLength parts + (head ++ nameBytes ++ text).length > limit then
        .ok (parts, true)
      else
        encodeFields e limit payload items (parts ++ [head ++ nameBytes ++ text])
          (truncated || nameCut || textCut) := by
  have hrequired : LOG_HEADER_SIZE + payload + totalLength parts +
      (LOG_FIELD_SIZE + nameBytes.length + text.length) =
      100 + payload + totalLength parts + (head ++ nameBytes ++ text).length := by
    have hlength : head.length = 24 := length_of_pack hhead
    have h24 : LOG_FIELD_SIZE = 24 := rfl
    have h100 : LOG_HEADER_SIZE = 100 := rfl
    rw [h24, h100, List.length_append, List.length_append, hlength]
    omega
  rw [encodeFields, hname, Result.ok_bind]
  show (encodeValue e limit payload parts nameBytes.length value >>= _) = _
  rw [hvalue, Result.ok_bind]
  show (if LOG_HEADER_SIZE + payload + totalLength parts +
    (LOG_FIELD_SIZE + nameBytes.length + text.length) > limit then _ else _) = _
  rw [hrequired]
  split
  · rfl
  · show (structPack FIELD [kind, 0, nameBytes.length, text.length, bits, 0] >>= _) = _
    rw [structPack, hhead]
    rfl

/-- A field is cut exactly when its name or its text is. -/
theorem carriedField_ne_iff {name : Text} {value : LogValue} :
    carriedField e limit payload parts (name, value) ≠ (name, value) ↔
      MAX_LOG_NAME_BYTES < (Utf8.size name : Int) ∨
        cutValue (e.available limit payload parts (Utf8.size (cutName name))) value ≠ value := by
  have hname : cutName name ≠ name ↔ MAX_LOG_NAME_BYTES < (Utf8.size name : Int) := by
    rw [cutName, ne_eq, Utf8.cut_eq_self_iff, MAX_LOG_NAME_BYTES]
    omega
  rw [← hname, carriedField, ne_eq, ne_eq, ne_eq, Prod.mk.injEq]
  tauto

/-- An iteration over a field that packs writes the carried field, when it fits. -/
theorem encodeFields_cons (he : LawfulEncoder e) (hlimit : limit ≤ 65536) (hpayload : 0 ≤ payload)
    (parts : List (List UInt8)) {field : Text × LogValue} (h : Packs field) (items : List (Text × LogValue))
    (truncated : Bool) :
    ∃ part, partOf (carriedField e limit payload parts field) = some part ∧
      encodeFields e limit payload (field :: items) parts truncated =
        if 100 + payload + totalLength parts + part.length > limit then .ok (parts, true)
        else encodeFields e limit payload items (parts ++ [part])
          (truncated || decide (carriedField e limit payload parts field ≠ field)) := by
  obtain ⟨name, value⟩ := field
  have hnameLimit : Utf8.size (cutName name) ≤ 255 := Utf8.size_cut_le name 255
  have htextLimit := size_textOf_cutValue
    (e.available limit payload parts (Utf8.size (cutName name))) value
  have havailable := he.available_le limit payload parts (Utf8.size (cutName name)) hpayload
    (by omega)
  have htextSize : Utf8.size (textOf (carriedField e limit payload parts (name, value)).2) =
    Utf8.size (textOf (cutValue (e.available limit payload parts (Utf8.size (cutName name)))
      value)) := rfl
  -- The carried field has bytes.
  obtain ⟨part, hpart⟩ := partOf_isSome (carriedField_packs e limit payload parts h)
    (by show Utf8.size (cutName name) < _; omega) (by omega)
  refine ⟨part, hpart, ?_⟩
  obtain ⟨nameBytes, text, head, hname, htext, hhead, rfl⟩ := partOf_eq_some_iff.mp hpart
  -- They are the bytes that the calls of the iteration return.
  have hnameLength : nameBytes.length = Utf8.size (cutName name) := Utf8.length_of_encode hname
  obtain ⟨nameBytes', hname', hnamePrefix⟩ := utf8Prefix_eq MAX_LOG_NAME_BYTES h.1 (by decide)
  obtain rfl : nameBytes' = nameBytes := Option.some.inj (hname'.symm.trans hname)
  obtain ⟨text', htext', hvalue⟩ := encodeValue_eq he limit payload parts
    (Utf8.size (cutName name)) h.2
  obtain rfl : text' = text := Option.some.inj (htext'.symm.trans htext)
  rw [← hnameLength] at hvalue
  have hhead : pack FIELD [wireKind (cutValue (e.available limit payload parts nameBytes'.length)
      value), 0, nameBytes'.length, text'.length, wireBits (cutValue (e.available limit payload
      parts nameBytes'.length) value), 0] = some head := by
    rw [hnameLength] at hhead ⊢
    exact hhead
  rw [encodeFields_cons_of_calls hnamePrefix hvalue hhead items truncated]
  have hflag : (truncated || decide (MAX_LOG_NAME_BYTES < (Utf8.size name : Int)) ||
      decide (cutValue (e.available limit payload parts nameBytes'.length) value ≠ value))
      = (truncated ||
        decide (carriedField e limit payload parts (name, value) ≠ (name, value))) := by
    rw [Bool.or_assoc, ← Bool.decide_or, hnameLength]
    congr 1
    rw [decide_eq_decide, carriedField_ne_iff]
  rw [hflag]

/-- A field without a form ends the loop with an exception. -/
theorem encodeFields_cons_error (he : LawfulEncoder e) (limit payload : Int)
    (parts : List (List UInt8)) {field : Text × LogValue} (h : ¬ Packs field) (items : List (Text × LogValue)) (truncated : Bool) :
    ∃ error, encodeFields e limit payload (field :: items) parts truncated = .error error := by
  obtain ⟨name, value⟩ := field
  rw [encodeFields]
  by_cases hname : (Utf8.encode name).isSome
  · obtain ⟨nameBytes, _, hprefixed⟩ := utf8Prefix_eq MAX_LOG_NAME_BYTES hname (by decide)
    obtain ⟨error, herror⟩ := encodeValue_eq_error he limit payload parts nameBytes.length
      (fun hvalue => h ⟨hname, hvalue⟩)
    rw [hprefixed, Result.ok_bind]
    show ∃ error, (encodeValue e limit payload parts nameBytes.length value >>= _) = _
    rw [herror]
    exact ⟨error, rfl⟩
  · rw [utf8Prefix_eq_error hname]
    exact ⟨_, rfl⟩

/-- The loop adds fields to those that it has, and never takes `truncated` back. -/
theorem encodeFields_mono (he : LawfulEncoder e) (hlimit : limit ≤ 65536) (hpayload : 0 ≤ payload)
    {items : List (Text × LogValue)} {parts' : List (List UInt8)} {truncated truncated' : Bool}
    (h : encodeFields e limit payload items parts truncated = .ok (parts', truncated')) :
    parts.length ≤ parts'.length ∧ (truncated = true → truncated' = true) := by
  induction items generalizing parts truncated with
  | nil =>
    cases h
    exact ⟨le_rfl, id⟩
  | cons field items ih =>
    by_cases hpacks : Packs field
    · obtain ⟨part, _, hstep⟩ := encodeFields_cons he hlimit hpayload parts hpacks items
        truncated
      rw [hstep] at h
      split at h
      · cases h
        exact ⟨le_rfl, fun _ => rfl⟩
      · obtain ⟨hlength, htruncated⟩ := ih h
        rw [List.length_append, List.length_singleton] at hlength
        refine ⟨by omega, ?_⟩
        intro ht
        exact htruncated (by rw [ht, Bool.true_or])
    · obtain ⟨error, herror⟩ := encodeFields_cons_error he limit payload parts hpacks items
        truncated
      rw [herror] at h
      cases h

/-- The loop keeps the packet in its limit, and writes a part for each field at most. -/
theorem encodeFields_room (he : LawfulEncoder e) (hlimit : limit ≤ 65536) (hpayload : 0 ≤ payload)
    {items : List (Text × LogValue)} {parts' : List (List UInt8)} {truncated truncated' : Bool}
    (hroom : 100 + payload + totalLength parts ≤ limit)
    (h : encodeFields e limit payload items parts truncated = .ok (parts', truncated')) :
    100 + payload + totalLength parts' ≤ limit ∧
      parts'.length ≤ parts.length + items.length := by
  induction items generalizing parts truncated with
  | nil =>
    cases h
    exact ⟨hroom, by omega⟩
  | cons field items ih =>
    by_cases hpacks : Packs field
    · obtain ⟨part, _, hstep⟩ := encodeFields_cons he hlimit hpayload parts hpacks items
        truncated
      rw [hstep] at h
      split at h
      · cases h
        exact ⟨hroom, by omega⟩
      · obtain ⟨hroom', hlength⟩ := ih (by rw [totalLength_append]; omega) h
        rw [List.length_append, List.length_singleton] at hlength
        rw [List.length_cons]
        exact ⟨hroom', by omega⟩
    · obtain ⟨error, herror⟩ := encodeFields_cons_error he limit payload parts hpacks items
        truncated
      rw [herror] at h
      cases h

end

/-! ### The header and the packet -/

/-- The category as it is written. -/
def carriedCategory (record : LogRecord) (limit : Int) : Text :=
  Utf8.cut record.category (min 1024 (limit - 100)).toNat

/-- The message as it is written. -/
def carriedMessage (record : LogRecord) (limit : Int) : Text :=
  Utf8.cut record.message
    (min 32768 (max 0 (limit - 100 - Utf8.size (carriedCategory record limit)))).toNat

/-- The bytes of the texts in front of the fields. -/
def payloadSize (record : LogRecord) (limit : Int) : Int :=
  Utf8.size (carriedCategory record limit) + Utf8.size (carriedMessage record limit)

/-- The counters of a record, which its header holds as they are. -/
def counters (record : LogRecord) : List Int :=
  [record.sequence, record.timeNs, record.context.session, record.context.submission,
    record.context.invocation, record.context.operation, record.droppedBefore]

/-- The level, the flags and the counters of the record have a form in the header. -/
def HeaderPacks (record : LogRecord) : Prop :=
  unknownLevel record.level = false ∧ unknownFlags record.flags = false ∧
    ∀ counter ∈ counters record, 0 ≤ counter ∧ counter < 2 ^ 64

instance : DecidablePred HeaderPacks := fun record =>
  inferInstanceAs (Decidable (unknownLevel record.level = false ∧
    unknownFlags record.flags = false ∧ ∀ counter ∈ counters record, 0 ≤ counter ∧ counter < 2 ^ 64))

/-- The flags as they are written. -/
def carriedFlags (record : LogRecord) (truncated : Bool) : Int :=
  if truncated then setTruncated record.flags else record.flags

/-- The values of a header. -/
def headerValues (record : LogRecord) (flags : Int) (category message : List UInt8)
    (parts : List (List UInt8)) : List Int :=
  [LOG_MAGIC, LOG_ABI_MAJOR, LOG_ABI_MINOR, LOG_HEADER_SIZE,
    LOG_HEADER_SIZE + (category ++ message ++ parts.flatten).length, flags, record.level,
    parts.length, category.length, message.length, 0] ++ counters record

/-- The length of the parts in a row. -/
theorem length_flatten (parts : List (List UInt8)) :
    (parts.flatten.length : Int) = totalLength parts := by
  rw [totalLength, List.length_flatten]

/-- The truncation flag is a known one. -/
theorem unknownFlags_setTruncated (flags : Int) :
    unknownFlags (setTruncated flags) = unknownFlags flags := by
  unfold unknownFlags setTruncated
  rw [decide_eq_decide]
  split <;> omega

/-- The flags that are carried are known when those of the record are. -/
theorem unknownFlags_carried (record : LogRecord) (truncated : Bool) :
    unknownFlags (carriedFlags record truncated) = unknownFlags record.flags := by
  unfold carriedFlags
  split
  · exact unknownFlags_setTruncated _
  · rfl

/-- The known flags are the two lowest bits. -/
theorem unknownFlags_eq_false_iff {flags : Int} :
    unknownFlags flags = false ↔ 0 ≤ flags ∧ flags < 4 := by
  unfold unknownFlags
  rw [decide_eq_false_iff_not]
  omega

/-- The levels that are known. -/
theorem level_of_known {level : Int} (h : unknownLevel level = false) :
    level ∈ [10, 20, 30, 40, 50] := by
  rwa [unknownLevel, decide_eq_false_iff_not, not_not] at h

section
variable {record : LogRecord} {category message : List UInt8} {parts : List (List UInt8)}

/-- The header of a record, check by check. -/
theorem encodeHeader_eq (truncated : Bool) :
    encodeHeader record category message parts truncated = (do
      raiseIf (unknownFlags (carriedFlags record truncated)) (.protocol "unknown log flags")
      let header ← structPack HEADER
        (headerValues record (carriedFlags record truncated) category message parts)
      return header ++ (category ++ message ++ parts.flatten)) := rfl

/-- The header of a packet that is not too long is packed when the values of the record are. -/
theorem encodeHeader_ok (h : HeaderPacks record)
    (hsize : 100 + category.length + message.length + totalLength parts ≤ 65536)
    (hparts : parts.length ≤ 32) (truncated : Bool) :
    ∃ header, pack HEADER (headerValues record (carriedFlags record truncated) category message
        parts) = some header ∧
      encodeHeader record category message parts truncated
        = .ok (header ++ (category ++ message ++ parts.flatten)) := by
  obtain ⟨hlevel, hflags, hcounters⟩ := h
  have hcarried := unknownFlags_carried record truncated
  rw [hflags] at hcarried
  have hflagsRange := unknownFlags_eq_false_iff.mp hcarried
  have hlevelRange : 0 ≤ record.level ∧ record.level ≤ 50 := by
    have := level_of_known hlevel
    simp only [List.mem_cons, List.not_mem_nil, or_false] at this
    omega
  have hbody := length_flatten parts
  have htotal := totalLength_nonneg parts
  have hpack : (pack HEADER (headerValues record (carriedFlags record truncated) category message
      parts)).isSome := by
    rw [isSome_pack_iff]
    simp only [counters, List.forall_mem_cons, List.not_mem_nil, false_implies, implies_true,
      and_true] at hcounters
    simp only [HEADER, headerValues, counters, List.cons_append, List.nil_append,
      List.forall₂_cons, Field.holds_H_iff, Field.holds_I_iff, Field.holds_Q_iff,
      List.Forall₂.nil, and_true, List.length_append, LOG_MAGIC, LOG_ABI_MAJOR, LOG_ABI_MINOR,
      LOG_HEADER_SIZE]
    omega
  obtain ⟨header, hheader⟩ := Option.isSome_iff_exists.mp hpack
  refine ⟨header, hheader, ?_⟩
  rw [encodeHeader_eq, raiseIf, if_neg (by simp [hcarried]), structPack, hheader]
  rfl

/-- A header is not packed otherwise. -/
theorem encodeHeader_error (hlevel : unknownLevel record.level = false) (h : ¬ HeaderPacks record)
    (truncated : Bool) :
    ∃ error, encodeHeader record category message parts truncated = .error error := by
  rw [encodeHeader_eq]
  by_cases hflags : unknownFlags (carriedFlags record truncated) = true
  · rw [raiseIf, if_pos hflags]
    exact ⟨_, rfl⟩
  · rw [raiseIf, if_neg hflags, structPack]
    rw [unknownFlags_carried, Bool.not_eq_true] at hflags
    cases hpack : pack HEADER (headerValues record (carriedFlags record truncated) category message
        parts) with
    | none => exact ⟨_, rfl⟩
    | some header =>
      -- Packed counters are in range, so the values of the record have a form.
      have hholds := isSome_pack_iff.mp (Option.isSome_iff_exists.mpr ⟨header, hpack⟩)
      simp only [HEADER, headerValues, counters, List.cons_append, List.nil_append,
        List.forall₂_cons, Field.holds_H_iff, Field.holds_I_iff, Field.holds_Q_iff,
        List.Forall₂.nil, and_true] at hholds
      refine absurd ⟨hlevel, hflags, ?_⟩ h
      simp only [counters, List.forall_mem_cons, List.not_mem_nil, false_implies, implies_true,
        and_true]
      exact hholds.2.2.2.2.2.2.2.2.2.2.2

/-- A packet determines the number of its fields. -/
theorem length_parts_of_packet {record' : LogRecord} {flags flags' : Int}
    {category' message' header header' body body' : List UInt8} {parts' : List (List UInt8)}
    (h : pack HEADER (headerValues record flags category message parts) = some header)
    (h' : pack HEADER (headerValues record' flags' category' message' parts') = some header')
    (hsame : header ++ body = header' ++ body') : parts.length = parts'.length := by
  have hvalues := unpack_pack h body
  rw [hsame, unpack_pack h' body'] at hvalues
  simp only [headerValues, List.cons_append, List.cons.injEq] at hvalues
  have hcount : ((parts'.length : Nat) : Int) = parts.length := hvalues.2.2.2.2.2.2.2.1
  omega

end

/-! ### Records -/

/-- `truncated` in front of the fields: some fields are left out, or a text is cut. -/
def truncatedTexts (record : LogRecord) (limit : Int) : Bool :=
  decide (record.fields.entries.length > 32) ||
    decide (carriedCategory record limit ≠ record.category) ||
      decide (carriedMessage record limit ≠ record.message)

section
variable {e : Encoder} {record : LogRecord} {limit : Int}

/-- The first lines of `encode_log_record`. -/
theorem encodeRecord_eq (he : LawfulEncoder e) (hlevel : unknownLevel record.level = false)
    (hlimit : 100 ≤ limit ∧ limit ≤ 65536) (hcategory : (Utf8.encode record.category).isSome)
    (hmessage : (Utf8.encode record.message).isSome) :
    ∃ category message, Utf8.encode (carriedCategory record limit) = some category ∧
      Utf8.encode (carriedMessage record limit) = some message ∧
      encodeRecord e record limit =
        (encodeFields e limit (payloadSize record limit) (record.fields.entries.take 32) []
          (truncatedTexts record limit) >>= fun result =>
            encodeHeader record category message result.1 result.2) := by
  obtain ⟨category, hcategoryBytes, hcategoryPrefix⟩ := utf8Prefix_eq
    (min MAX_LOG_CATEGORY_BYTES (limit - LOG_HEADER_SIZE)) hcategory
    (by rw [MAX_LOG_CATEGORY_BYTES, LOG_HEADER_SIZE]; omega)
  have hcategoryBytes : Utf8.encode (carriedCategory record limit) = some category := hcategoryBytes
  have hcategoryLength := Utf8.length_of_encode hcategoryBytes
  obtain ⟨message, hmessageBytes, hmessagePrefix⟩ := utf8Prefix_eq
    (e.messageBudget limit category.length) hmessage
    (by rw [he.messageBudget]; omega)
  have hbudget : e.messageBudget limit category.length
      = min 32768 (max 0 (limit - 100 - Utf8.size (carriedCategory record limit))) := by
    rw [he.messageBudget, hcategoryLength]
  have hmessageBytes : Utf8.encode (carriedMessage record limit) = some message := by
    rw [hbudget] at hmessageBytes
    exact hmessageBytes
  have hmessageLength := Utf8.length_of_encode hmessageBytes
  refine ⟨category, message, hcategoryBytes, hmessageBytes, ?_⟩
  have hcategoryCut : decide (min MAX_LOG_CATEGORY_BYTES (limit - LOG_HEADER_SIZE)
      < (Utf8.size record.category : Int))
      = decide (carriedCategory record limit ≠ record.category) := by
    rw [decide_eq_decide, carriedCategory, ne_eq, Utf8.cut_eq_self_iff, MAX_LOG_CATEGORY_BYTES,
      LOG_HEADER_SIZE]
    omega
  have hmessageCut : decide (e.messageBudget limit category.length
      < (Utf8.size record.message : Int))
      = decide (carriedMessage record limit ≠ record.message) := by
    rw [hbudget, decide_eq_decide, carriedMessage, ne_eq, Utf8.cut_eq_self_iff]
    omega
  rw [encodeRecord, (he.checkHeader _ _).mpr ⟨hlevel, hlimit⟩, Result.ok_bind, hcategoryPrefix,
    Result.ok_bind]
  show (utf8Prefix record.message (e.messageBudget limit category.length) >>= _) = _
  rw [hmessagePrefix, hcategoryCut, hmessageCut, Result.ok_bind]
  show (encodeFields e limit (category.length + message.length) _ [] _ >>= _) = _
  rw [hcategoryLength, hmessageLength]
  rfl

/-- A record with an unknown level, or a category or a message without a UTF-8 form, is
refused. -/
theorem encodeRecord_error (he : LawfulEncoder e)
    (h : ¬ (unknownLevel record.level = false ∧ (Utf8.encode record.category).isSome ∧
      (Utf8.encode record.message).isSome)) :
    ∃ error, encodeRecord e record limit = .error error := by
  rw [encodeRecord]
  cases hcheck : e.checkHeader record.level limit with
  | error error => exact ⟨error, rfl⟩
  | ok u =>
    obtain ⟨hlevel, hlimit⟩ := (he.checkHeader _ _).mp hcheck
    rw [Result.ok_bind]
    by_cases hcategory : (Utf8.encode record.category).isSome
    · obtain ⟨category, _, hprefixed⟩ := utf8Prefix_eq
        (min MAX_LOG_CATEGORY_BYTES (limit - LOG_HEADER_SIZE)) hcategory
        (by rw [MAX_LOG_CATEGORY_BYTES, LOG_HEADER_SIZE]; omega)
      rw [hprefixed, Result.ok_bind]
      have hmessage : ¬ (Utf8.encode record.message).isSome :=
        fun hmessage => h ⟨hlevel, hcategory, hmessage⟩
      show ∃ error, (utf8Prefix record.message (e.messageBudget limit category.length) >>= _) = _
      rw [utf8Prefix_eq_error hmessage]
      exact ⟨_, rfl⟩
    · rw [utf8Prefix_eq_error hcategory]
      exact ⟨_, rfl⟩

/-- The texts leave room for the header. -/
theorem payloadSize_bounds (record : LogRecord) {limit : Int} (hlimit : 100 ≤ limit) :
    0 ≤ payloadSize record limit ∧ 100 + payloadSize record limit ≤ limit := by
  have hcategory := Utf8.size_cut_le record.category (min 1024 (limit - 100)).toNat
  have hmessage := Utf8.size_cut_le record.message
    (min 32768 (max 0 (limit - 100 - Utf8.size (carriedCategory record limit)))).toNat
  rw [← carriedCategory] at hcategory
  rw [← carriedMessage] at hmessage
  unfold payloadSize
  omega

end

end Wmfs.Log
