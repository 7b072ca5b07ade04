import Wmfs.Log.Loads

/-!
# `Wmfs.Log.Shape`: the packets that the C++ log decoder accepts

`Shape` says of the bytes of a packet what `wmfs_log_decode_v1` checks. The words of the header
are in their ranges, the category and the message together are UTF-8, every field header is in
order, the name and the text of a field together are UTF-8, and the last field ends with the
packet. The size of a name and a text is a sum that wraps around at `2^32`, as the decoder adds
them.

`wmfsLogDecodeV1_eq_ok_iff` shows that the decoder succeeds exactly for these packets, with
views that are functions of the bytes.
-/

set_option autoImplicit false

namespace Wmfs.Log.Native

open Wmfs.Lib

/-- The offsets of the headers of the fields, when that of the first is `start`. -/
def fieldOffsets (p : List UInt8) : Nat → Nat → List Nat
  | _, 0 => []
  | start, count + 1 => start :: fieldOffsets p (start + 24 + fieldBytes p start % 2 ^ 32) count

/-- The checks of a field, whose header is at `offset`. -/
structure FieldShape (p : List UInt8) (offset : Nat) : Prop where
  header : offset + 24 ≤ p.length
  kind : 1 ≤ word p offset 2 ∧ word p offset 2 ≤ 5
  flags : word p (offset + 2) 2 = 0
  name : 1 ≤ word p (offset + 4) 4 ∧ word p (offset + 4) 4 ≤ 255
  reserved : word p (offset + 20) 4 = 0
  inside : offset + 24 + fieldBytes p offset % 2 ^ 32 ≤ p.length
  text : word p offset 2 ≠ 5 → word p (offset + 8) 4 = 0
  bits : word p offset 2 = 5 → word p (offset + 12) 8 = 0
  boolean : word p offset 2 = 1 → word p (offset + 12) 8 ≤ 1
  utf8 : (Utf8.decode (slice p (offset + 24) (fieldBytes p offset % 2 ^ 32))).isSome

/-- The checks of the header, of the category and of the message. -/
structure HeaderShape (p : List UInt8) : Prop where
  size : 100 ≤ p.length ∧ p.length ≤ 65536
  magic : word p 0 8 = 0x31474F4C53464D57
  version : word p 8 2 = 1 ∧ word p 10 2 = 0
  header : word p 12 4 = 100
  total : word p 16 4 = p.length
  flags : word p 20 4 < 4
  level : word p 24 4 ∈ [10, 20, 30, 40, 50]
  count : word p 28 4 ≤ 32
  texts : word p 32 4 ≤ 1024 ∧ word p 36 4 ≤ 32768
  reserved : word p 40 4 = 0
  inside : 100 + word p 32 4 + word p 36 4 ≤ p.length
  utf8 : (Utf8.decode (slice p 100 (word p 32 4 + word p 36 4))).isSome

/-- The offset of the first field. -/
def start (p : List UInt8) : Nat := 100 + word p 32 4 + word p 36 4

/-- The offsets of the fields of a packet. -/
def offsets (p : List UInt8) : List Nat := fieldOffsets p (start p) (word p 28 4)

/-- The packets that the decoder accepts. -/
structure Shape (p : List UInt8) : Prop extends HeaderShape p where
  fields : ∀ offset ∈ offsets p, FieldShape p offset
  stop : fieldOffset p (start p) (word p 28 4) = p.length

/-! ### Views of the bytes -/

/-- The view of the field at `offset`. -/
def fieldView (p : List UInt8) (offset : Nat) : FieldView where
  kind := word16 p offset
  bits := word64 p (offset + 12)
  name := ⟨offset + 24, (word32 p (offset + 4)).toUInt64⟩
  text := ⟨offset + 24 + word p (offset + 4) 4, (word32 p (offset + 8)).toUInt64⟩

/-- The view of the header. -/
def recordView (p : List UInt8) : RecordView where
  flags := word32 p 20
  level := word32 p 24
  fieldCount := word32 p 28
  sequence := word64 p 44
  timeNs := word64 p 52
  sessionId := word64 p 60
  submissionId := word64 p 68
  invocationId := word64 p 76
  operationId := word64 p 84
  droppedBefore := word64 p 92
  category := ⟨100, (word32 p 32).toUInt64⟩
  message := ⟨100 + word p 32 4, (word32 p 36).toUInt64⟩

/-! ### The fields -/

section
variable {p : List UInt8} {size : UInt64}

/-- The bytes of the name and the text of a field. -/
theorem fieldBytes_eq {offset : Nat} (h : offset + 24 ≤ p.length) :
    fieldBytes p offset = word p (offset + 4) 4 + word p (offset + 8) 4 := by
  rw [fieldBytes, read32_eq_word (by omega), read32_eq_word (by omega)]

/-- The sum of the two sizes, as the decoder has it. -/
theorem toNat_fieldBytes {offset : Nat} (h : offset + 24 ≤ p.length) :
    (word32 p (offset + 4) + word32 p (offset + 8)).toUInt64.toNat =
      fieldBytes p offset % 2 ^ 32 := by
  rw [UInt32.toNat_toUInt64, UInt32.toNat_add, toNat_word32, toNat_word32, fieldBytes_eq h]

/-- The checks of an iteration, in numbers. -/
theorem fieldChecks_iff {offset : UInt64} (hsize : size.toNat = p.length)
    (hheader : offset.toNat + 24 ≤ p.length) :
    ¬ (word16 p offset.toNat < 1 ∨ word16 p offset.toNat > 5 ∨ word16 p (offset.toNat + 2) ≠ 0 ∨
      word32 p (offset.toNat + 20) ≠ 0 ∨ word32 p (offset.toNat + 4) = 0 ∨
      word32 p (offset.toNat + 4) > 255 ∨
      (word32 p (offset.toNat + 4) + word32 p (offset.toNat + 8)).toUInt64 >
        size - (offset + 24) ∨
      (word16 p offset.toNat ≠ 5 ∧ word32 p (offset.toNat + 8) ≠ 0) ∨
      (word16 p offset.toNat = 5 ∧ word64 p (offset.toNat + 12) ≠ 0)) ↔
    (1 ≤ word p offset.toNat 2 ∧ word p offset.toNat 2 ≤ 5) ∧ word p (offset.toNat + 2) 2 = 0 ∧
      word p (offset.toNat + 20) 4 = 0 ∧
      (1 ≤ word p (offset.toNat + 4) 4 ∧ word p (offset.toNat + 4) 4 ≤ 255) ∧
      offset.toNat + 24 + fieldBytes p offset.toNat % 2 ^ 32 ≤ p.length ∧
      (word p offset.toNat 2 ≠ 5 → word p (offset.toNat + 8) 4 = 0) ∧
      (word p offset.toNat 2 = 5 → word p (offset.toNat + 12) 8 = 0) := by
  have hbehind : (offset + 24).toNat = offset.toNat + 24 :=
    toNat_add size (show offset.toNat + 24 ≤ _ by omega)
  have hleft : (size - (offset + 24)).toNat = size.toNat - (offset.toNat + 24) := by
    rw [toNat_sub (by omega), hbehind]
  simp only [gt_iff_lt, UInt16.lt_iff_toNat_lt, UInt32.lt_iff_toNat_lt, UInt64.lt_iff_toNat_lt,
    ← UInt16.toNat_inj, ← UInt32.toNat_inj, ← UInt64.toNat_inj, ne_eq, toNat_word16, toNat_word32,
    toNat_word64, toNat_fieldBytes hheader, hleft, UInt16.reduceToNat, UInt32.reduceToNat,
    UInt64.reduceToNat]
  omega

/-- The outcome of an iteration over a field. -/
theorem loadField_eq_ok_iff {offset next : UInt64} {field : FieldView}
    (hsize : size.toNat = p.length) (hoffset : offset.toNat ≤ size.toNat) :
    loadField p size offset = .ok (field, next) ↔
      FieldShape p offset.toNat ∧ field = fieldView p offset.toNat ∧
        next.toNat = offset.toNat + 24 + fieldBytes p offset.toNat % 2 ^ 32 := by
  rw [loadField, Result.check_bind_ok_iff, raiseIf_ok_iff]
  by_cases hheader : offset.toNat + 24 ≤ p.length
  · have hroom : ¬ size - offset < 24 := by
      rw [UInt64.lt_iff_toNat_lt, toNat_sub hoffset]
      show ¬ _ < 24
      omega
    have hbehind : (offset + 24).toNat = offset.toNat + 24 :=
      toNat_add size (show offset.toNat + 24 ≤ _ by omega)
    have hboolean : (word16 p offset.toNat = 1 ∧ word64 p (offset.toNat + 12) > 1) ↔
        (word p offset.toNat 2 = 1 ∧ 1 < word p (offset.toNat + 12) 8) := by
      rw [← UInt16.toNat_inj, gt_iff_lt, UInt64.lt_iff_toNat_lt, toNat_word16, toNat_word64]
      rfl
    rw [load16_eq (by omega), load16_eq (by omega), load32_eq (by omega), load32_eq (by omega),
      load64_eq (by omega), load32_eq (by omega)]
    simp only [Result.ok_bind, hroom, not_false_eq_true, true_and]
    rw [Result.check_bind_ok_iff, raiseIf_ok_iff, fieldChecks_iff hsize hheader]
    constructor
    · rintro ⟨⟨hkind, hflags, hreserved, hname, hinside, htext, hbits⟩, h⟩
      rw [utf8_eq (by rw [hbehind, toNat_fieldBytes hheader]; exact hinside), Result.ok_bind,
        Result.check_bind_ok_iff, raiseIf_ok_iff, Result.check_bind_ok_iff, raiseIf_ok_iff,
        hboolean, hbehind, toNat_fieldBytes hheader] at h
      obtain ⟨hutf8, hone, h⟩ := h
      cases h
      refine ⟨?_, ?_, ?_⟩
      · exact {
          header := hheader
          kind := hkind
          flags := hflags
          name := hname
          reserved := hreserved
          inside := hinside
          text := htext
          bits := hbits
          boolean := by
            intro hkind
            exact not_lt.mp fun hlarge => hone ⟨hkind, hlarge⟩
          utf8 := by rwa [Bool.not_eq_false] at hutf8 }
      · rw [fieldView, toNat_word32]
      · rw [toNat_add size (by rw [hbehind, toNat_fieldBytes hheader]; omega), hbehind,
          toNat_fieldBytes hheader]
    · rintro ⟨hshape, hfield, hnext⟩
      have hinside := hshape.inside
      have hmoved : next = offset + 24 +
          (word32 p (offset.toNat + 4) + word32 p (offset.toNat + 8)).toUInt64 := by
        apply UInt64.toNat_inj.mp
        rw [toNat_add size (by rw [hbehind, toNat_fieldBytes hheader]; omega), hbehind,
          toNat_fieldBytes hheader, hnext]
      refine ⟨⟨hshape.kind, hshape.flags, hshape.reserved, hshape.name, hinside, hshape.text,
        hshape.bits⟩, ?_⟩
      rw [utf8_eq (by rw [hbehind, toNat_fieldBytes hheader]; exact hinside), Result.ok_bind,
        Result.check_bind_ok_iff, raiseIf_ok_iff, Result.check_bind_ok_iff, raiseIf_ok_iff,
        hboolean, hbehind, toNat_fieldBytes hheader, hfield, hmoved, toNat_word32]
      refine ⟨by rw [hshape.utf8]; decide, ?_, rfl⟩
      rintro ⟨hkind, hlarge⟩
      exact absurd (hshape.boolean hkind) (by omega)
  · constructor
    · rintro ⟨hroom, _⟩
      exact absurd (header_of_not_lt hoffset hroom) (by omega)
    · rintro ⟨hshape, _⟩
      exact absurd hshape.header hheader

/-- The outcome of the loop over the fields. -/
theorem loadFields_eq_ok_iff {count : Nat} {offset stop : UInt64} {fields : List FieldView}
    (hsize : size.toNat = p.length) (hoffset : offset.toNat ≤ size.toNat) :
    loadFields p size count offset = .ok (fields, stop) ↔
      (∀ header ∈ fieldOffsets p offset.toNat count, FieldShape p header) ∧
        fields = (fieldOffsets p offset.toNat count).map (fieldView p) ∧
        stop.toNat = fieldOffset p offset.toNat count := by
  induction count generalizing offset fields with
  | zero =>
    rw [loadFields]
    constructor
    · intro h
      cases h
      exact ⟨by simp [fieldOffsets], rfl, rfl⟩
    · rintro ⟨_, hfields, hstop⟩
      cases UInt64.toNat_inj.mp hstop
      rw [hfields]
      rfl
  | succ count ih =>
    rw [loadFields, fieldOffsets, fieldOffset, List.forall_mem_cons, List.map_cons]
    constructor
    · intro h
      obtain ⟨⟨field, next⟩, hfield, h⟩ := Result.bind_ok_iff.mp h
      obtain ⟨⟨rest, found⟩, hrest, h⟩ := Result.bind_ok_iff.mp h
      cases h
      obtain ⟨hshape, rfl, hnext⟩ := (loadField_eq_ok_iff hsize hoffset).mp hfield
      have hinside := hshape.inside
      obtain ⟨hshapes, rfl, hstop⟩ := (ih (by omega)).mp hrest
      rw [hnext] at hshapes hstop ⊢
      exact ⟨⟨hshape, hshapes⟩, rfl, hstop⟩
    · rintro ⟨⟨hshape, hshapes⟩, hfields, hstop⟩
      have hinside := hshape.inside
      have hlt : size.toNat < 2 ^ 64 := size.toNat_lt
      have hnext : (UInt64.ofNat (offset.toNat + 24 + fieldBytes p offset.toNat % 2 ^ 32)).toNat =
          offset.toNat + 24 + fieldBytes p offset.toNat % 2 ^ 32 := by
        rw [UInt64.toNat_ofNat']
        exact Nat.mod_eq_of_lt (by omega)
      have hfield := (loadField_eq_ok_iff hsize hoffset).mpr ⟨hshape, rfl, hnext⟩
      rw [← hnext] at hshapes hstop hfields
      have hrest := (ih (by omega)).mpr ⟨hshapes, rfl, hstop⟩
      rw [hfield, Result.ok_bind]
      dsimp only
      rw [hrest, Result.ok_bind, hfields]
      rfl

/-! ### The packet -/

/-- What is left of the flags without the two known ones. -/
theorem unknown_eq_zero_iff (flags : UInt32) : flags &&& ~~~3 = 0 ↔ flags.toNat < 4 := by
  have hsplit : (flags &&& 3) ||| (flags &&& ~~~3) = flags := by
    apply UInt32.toBitVec_inj.mp
    ext i hi
    simp only [UInt32.toBitVec_or, UInt32.toBitVec_and, UInt32.toBitVec_not, BitVec.getElem_or,
      BitVec.getElem_and, BitVec.getElem_not]
    cases flags.toBitVec[i] <;> simp
  have hlow : (flags &&& 3).toNat = flags.toNat % 4 := by
    rw [UInt32.toNat_and]
    exact Nat.and_two_pow_sub_one_eq_mod flags.toNat 2
  constructor
  · intro h
    rw [h, UInt32.or_zero] at hsplit
    rw [hsplit] at hlow
    omega
  · intro h
    obtain ⟨n, hn, rfl⟩ : ∃ n < 4, flags = .ofNat n :=
      ⟨flags.toNat, h, UInt32.ofNat_toNat.symm⟩
    clear h hsplit hlow
    revert n
    decide

/-- The checks of the header, in numbers. -/
theorem headerChecks_iff {capacity : UInt64} (hcapacity : capacity = 32) :
    ¬ ((word32 p 24 < 10 ∨ word32 p 24 > 50 ∨ word32 p 24 % 10 ≠ 0) ∨ word32 p 28 > 32 ∨
      (word32 p 28).toUInt64 > capacity ∨ (word32 p 28 ≠ 0 ∧ true = false) ∨ word32 p 32 > 1024 ∨
      word32 p 36 > 32768) ↔
    word p 24 4 ∈ [10, 20, 30, 40, 50] ∧ word p 28 4 ≤ 32 ∧ word p 32 4 ≤ 1024 ∧
      word p 36 4 ≤ 32768 := by
  subst hcapacity
  simp only [gt_iff_lt, UInt32.lt_iff_toNat_lt, UInt64.lt_iff_toNat_lt, UInt32.toNat_toUInt64,
    ← UInt32.toNat_inj, ne_eq, toNat_word32, UInt32.toNat_mod, UInt32.reduceToNat,
    UInt64.reduceToNat, List.mem_cons, List.not_mem_nil, or_false, Bool.true_eq_false, and_false,
    false_or]
  have hlevel : ¬ (word p 24 4 < 10 ∨ 50 < word p 24 4 ∨ ¬ word p 24 4 % 10 = 0) ↔
      word p 24 4 = 10 ∨ word p 24 4 = 20 ∨ word p 24 4 = 30 ∨ word p 24 4 = 40 ∨
        word p 24 4 = 50 := by omega
  rw [not_or, hlevel]
  omega

/-- The sizes and the offsets of the texts, as the decoder adds them. -/
theorem toNat_texts (htexts : word p 32 4 ≤ 1024 ∧ word p 36 4 ≤ 32768) :
    (word32 p 32 + word32 p 36).toNat = word p 32 4 + word p 36 4 ∧
      (100 + (word32 p 32).toUInt64).toNat = 100 + word p 32 4 ∧
      (100 + (word32 p 32).toUInt64 + (word32 p 36).toUInt64).toNat = start p := by
  have hmiddle : (100 + (word32 p 32).toUInt64).toNat = 100 + word p 32 4 := by
    rw [UInt64.toNat_add, UInt32.toNat_toUInt64, toNat_word32]
    exact Nat.mod_eq_of_lt (show 100 + word p 32 4 < 2 ^ 64 by omega)
  refine ⟨?_, hmiddle, ?_⟩
  · rw [UInt32.toNat_add, toNat_word32, toNat_word32]
    exact Nat.mod_eq_of_lt (by omega)
  · rw [UInt64.toNat_add, hmiddle, UInt32.toNat_toUInt64, toNat_word32, start]
    exact Nat.mod_eq_of_lt (by omega)

/-- The outcome of the decoder behind its first check. -/
theorem decodeBytes_eq_ok_iff {record : RecordView} {fields : List FieldView}
    (hsize : size.toNat = p.length) (hlimits : 100 ≤ p.length ∧ p.length ≤ 65536) :
    decodeBytes p size ⟨true, true, 32⟩ = .ok (record, fields) ↔
      Shape p ∧ record = recordView p ∧ fields = (offsets p).map (fieldView p) := by
  have hroom : 100 ≤ p.length := hlimits.1
  rw [decodeBytes, load64_eq (by omega), load16_eq (by omega), load16_eq (by omega),
    load32_eq (by omega), load32_eq (by omega), load32_eq (by omega), load32_eq (by omega),
    load32_eq (by omega), load32_eq (by omega), load32_eq (by omega), load32_eq (by omega),
    load64_eq (by omega), load64_eq (by omega), load64_eq (by omega), load64_eq (by omega),
    load64_eq (by omega), load64_eq (by omega), load64_eq (by omega)]
  simp only [Result.ok_bind, Result.check_bind_ok_iff, raiseIf_ok_iff, headerChecks_iff rfl]
  -- The words that are compared with constants.
  simp only [ne_eq, not_not, gt_iff_lt, unknown_eq_zero_iff, word16_eq_iff, word32_eq_iff,
    ← UInt64.toNat_inj, UInt16.lt_iff_toNat_lt, UInt64.lt_iff_toNat_lt, UInt32.toNat_toUInt64,
    toNat_word16, toNat_word32, toNat_word64, UInt16.reduceToNat, UInt32.reduceToNat,
    UInt64.reduceToNat, hsize]
  have hleft : (size - 100).toNat = p.length - 100 := by
    rw [toNat_sub (by show 100 ≤ _; omega), hsize]
    rfl
  rw [hleft]
  constructor
  · intro ⟨hmagic, hmajor, hminor, hheader, htotal, hflags, ⟨hlevel, hcount, htexts⟩, hreserved,
      hinside, h⟩
    obtain ⟨hsum, hmiddle, hstart⟩ := toNat_texts htexts
    rw [hsum] at hinside
    rw [utf8_eq (by rw [UInt32.toNat_toUInt64, hsum]; omega), Result.ok_bind,
      Result.check_bind_ok_iff, raiseIf_ok_iff, UInt32.toNat_toUInt64, hsum] at h
    obtain ⟨hutf8, h⟩ := h
    obtain ⟨⟨found, stop⟩, hfound, h⟩ := Result.bind_ok_iff.mp h
    rw [Result.check_bind_ok_iff, raiseIf_ok_iff, not_not] at h
    obtain ⟨hstop, h⟩ := h
    cases h
    rw [loadFields_eq_ok_iff hsize (by rw [hstart, start]; omega), hstart] at hfound
    obtain ⟨hshapes, hfields, hend⟩ := hfound
    refine ⟨?_, ?_, hfields⟩
    · exact {
        size := hlimits
        magic := hmagic
        version := ⟨hmajor, by omega⟩
        header := hheader
        total := htotal
        flags := hflags
        level := hlevel
        count := hcount
        texts := htexts
        reserved := hreserved
        inside := by omega
        utf8 := by rwa [Bool.not_eq_false] at hutf8
        fields := hshapes
        stop := hend.symm.trans hstop }
    · rw [recordView, hmiddle]
  · intro ⟨hshape, hrecord, hfields⟩
    obtain ⟨hsum, hmiddle, hstart⟩ := toNat_texts hshape.texts
    have hinside := hshape.inside
    have hloaded : loadFields p size (word p 28 4)
        (100 + (word32 p 32).toUInt64 + (word32 p 36).toUInt64) = .ok (fields, size) := by
      rw [loadFields_eq_ok_iff hsize (by rw [hstart, start]; omega), hstart, hsize]
      exact ⟨hshape.fields, hfields, hshape.stop.symm⟩
    refine ⟨hshape.magic, hshape.version.1, by rw [hshape.version.2]; omega, hshape.header,
      hshape.total, hshape.flags, ⟨hshape.level, hshape.count, hshape.texts⟩, hshape.reserved,
      by rw [hsum]; omega, ?_⟩
    rw [utf8_eq (by rw [UInt32.toNat_toUInt64, hsum]; omega), Result.ok_bind,
      Result.check_bind_ok_iff, raiseIf_ok_iff, UInt32.toNat_toUInt64, hsum, hloaded,
      Result.ok_bind, Result.check_bind_ok_iff, raiseIf_ok_iff, hrecord, hmiddle]
    exact ⟨by rw [hshape.utf8]; decide, not_not.mpr hsize, rfl⟩

end

/-- `wmfs_log_decode_v1` with room for every field: what it accepts, and what it returns. -/
theorem wmfsLogDecodeV1_eq_ok_iff {packet : Packet} {p : List UInt8} {record : RecordView}
    {fields : List FieldView} (hdata : packet.data = some p) :
    wmfsLogDecodeV1 packet ⟨true, true, 32⟩ = .ok (record, fields) ↔
      Shape p ∧ record = recordView p ∧ fields = (offsets p).map (fieldView p) := by
  have hsize := packet.size_eq p hdata
  have hlimits : ¬ (true = false ∨ packet.size < 100 ∨ packet.size > 65536) ↔
      100 ≤ p.length ∧ p.length ≤ 65536 := by
    simp only [gt_iff_lt, UInt64.lt_iff_toNat_lt, UInt64.reduceToNat, hsize, Bool.true_eq_false,
      false_or]
    omega
  rw [wmfsLogDecodeV1, hdata]
  dsimp only
  rw [Result.check_bind_ok_iff, raiseIf_ok_iff, hlimits]
  constructor
  · rintro ⟨hroom, h⟩
    exact (decodeBytes_eq_ok_iff hsize hroom).mp h
  · intro h
    exact ⟨h.1.size, (decodeBytes_eq_ok_iff hsize h.1.size).mpr h⟩

end Wmfs.Log.Native
