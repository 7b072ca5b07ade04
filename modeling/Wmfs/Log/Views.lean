import Mathlib.Tactic
import Wmfs.Lib.Bytes
import Wmfs.Lib.Extents
import Wmfs.Log.Native

/-!
# `Wmfs.Log.Views`: what the C++ log decoder reads and returns

`wmfs_log_decode_v1` reads only bytes of the packet: its outcome is a result or the return
value 1 (`contained_decodeBytes`). On success, the header, the texts, and the headers and texts
of the fields are regions of the packet (`regions`), and `Placed` says where they have to be.

The check of a field compares `name_size + text_size` with the bytes that are left. The sum is a
`uint32_t`, and only the name has a limit of its own, so a text size next to `2^32` passes.
`FieldsFit` says that no sum wraps around, along the offsets that the decoder takes. The
regions of an accepted packet are where they have to be exactly then: `loadFields_consecutive`
is the one direction, and `loadFields_overrun` finds a text that leaves the packet in the other.
-/

set_option autoImplicit false

namespace Wmfs.Log.Native

open Wmfs.Lib

/-! ### Reads inside the packet -/

section
variable {α β : Type}

/-- The outcome is a result or the return value 1. -/
def Contained (outcome : Except Stop α) : Prop :=
  ∀ stop, outcome = .error stop → stop = .malformed

/-- A result is contained. -/
theorem contained_ok (a : α) : Contained (.ok a) := by
  intro stop h
  cases h

/-- The same of `pure`. -/
theorem contained_pure (a : α) : Contained (pure a) := contained_ok a

/-- A check that refuses the packet is contained. -/
theorem contained_raiseIf (bad : Prop) [Decidable bad] : Contained (raiseIf bad .malformed) := by
  intro stop h
  unfold raiseIf at h
  split at h
  · cases h
    rfl
  · cases h

/-- Contained steps in a row are contained. -/
theorem Contained.bind {first : Except Stop α} {second : α → Except Stop β}
    (h : Contained first) (hsecond : ∀ a, first = .ok a → Contained (second a)) :
    Contained (first >>= second) := by
  cases first with
  | error stop =>
    intro stop' heq
    cases heq
    exact h stop rfl
  | ok a => exact hsecond a rfl

/-- A step that succeeds leaves the outcome to the rest. -/
theorem Contained.of_exists_ok {first : Except Stop α} (h : ∃ a, first = .ok a) :
    Contained first := by
  obtain ⟨a, rfl⟩ := h
  exact contained_ok a

end

/-- A byte inside the packet is read. -/
theorem byte_ok {p : List UInt8} {index : Nat} (h : index < p.length) :
    byte p index = .ok p[index] := by
  rw [byte, List.getElem?_eq_getElem h]

/-- Two bytes inside the packet are read. -/
theorem load16_ok {p : List UInt8} {offset : Nat} (h : offset + 2 ≤ p.length) :
    ∃ v, load16 p offset = .ok v := by
  rw [load16, byte_ok (by omega), byte_ok (by omega)]
  exact ⟨_, rfl⟩

/-- Four bytes inside the packet are read. -/
theorem load32_ok {p : List UInt8} {offset : Nat} (h : offset + 4 ≤ p.length) :
    ∃ v, load32 p offset = .ok v := by
  rw [load32, byte_ok (by omega), byte_ok (by omega), byte_ok (by omega), byte_ok (by omega)]
  exact ⟨_, rfl⟩

/-- Eight bytes inside the packet are read. -/
theorem load64_ok {p : List UInt8} {offset : Nat} (h : offset + 8 ≤ p.length) :
    ∃ v, load64 p offset = .ok v := by
  obtain ⟨low, hlow⟩ : ∃ v, load32 p offset = .ok v := load32_ok (by omega)
  obtain ⟨high, hhigh⟩ : ∃ v, load32 p (offset + 4) = .ok v := load32_ok (by omega)
  rw [load64, hlow, hhigh]
  exact ⟨_, rfl⟩

/-- The inner loop of `utf8` moves the index by the number of its iterations. -/
theorem continuations_ok {p : List UInt8} (base : Nat) (count : Nat) {i : UInt64}
    (value : UInt32) (hroom : base + i.toNat + count ≤ p.length)
    (hindex : i.toNat + count < 2 ^ 64) :
    ∃ outcome, continuations p base count i value = .ok outcome ∧
      ∀ j v, outcome = some (j, v) → j.toNat = i.toNat + count := by
  induction count generalizing i value with
  | zero =>
    refine ⟨some (i, value), rfl, ?_⟩
    intro j v h
    cases h
    rfl
  | succ count ih =>
    rw [continuations, byte_ok (by omega), Result.ok_bind]
    split
    · exact ⟨none, rfl, by simp⟩
    · have hnext : (i + 1).toNat = i.toNat + 1 := by
        rw [UInt64.toNat_add]
        exact Nat.mod_eq_of_lt (by show i.toNat + 1 < 2 ^ 64; omega)
      obtain ⟨outcome, houtcome, hmoved⟩ := ih (i := i + 1) _ (by omega) (by omega)
      refine ⟨outcome, houtcome, ?_⟩
      intro j v h
      rw [hmoved j v h, hnext]
      omega

/-- The outer loop of `utf8` stays inside its `size` bytes, and one iteration for each of them
is enough. -/
theorem utf8From_ok {p : List UInt8} {base : Nat} {size : UInt64} {fuel : Nat} {i : UInt64}
    (hroom : base + size.toNat ≤ p.length) (hi : i.toNat ≤ size.toNat)
    (hfuel : size.toNat ≤ i.toNat + fuel) :
    ∃ valid, utf8From p base size fuel i = .ok valid := by
  have hsize : size.toNat < 2 ^ 64 := size.toNat_lt
  induction fuel generalizing i with
  | zero =>
    rw [utf8From, if_neg (by rw [UInt64.lt_iff_toNat_lt]; omega)]
    exact ⟨true, rfl⟩
  | succ fuel ih =>
    rw [utf8From]
    split
    · rename_i hlt
      rw [UInt64.lt_iff_toNat_lt] at hlt
      have hnext : (i + 1).toNat = i.toNat + 1 := by
        rw [UInt64.toNat_add]
        exact Nat.mod_eq_of_lt (by show i.toNat + 1 < 2 ^ 64; omega)
      rw [byte_ok (by omega), Result.ok_bind]
      split
      · exact ih (by omega) (by omega)
      · cases hlead : lead p[base + i.toNat] with
        | none => exact ⟨false, rfl⟩
        | some found =>
          obtain ⟨value, extra⟩ := found
          show ∃ valid, (if extra > size - (i + 1) then _ else _) = _
          split
          · exact ⟨false, rfl⟩
          · rename_i hextra
            -- The subtraction does not wrap around, so the character ends inside.
            have hleft : (size - (i + 1)).toNat = size.toNat - (i.toNat + 1) := by
              rw [UInt64.toNat_sub_of_le _ _ (by rw [UInt64.le_iff_toNat_le]; omega), hnext]
            rw [gt_iff_lt, UInt64.lt_iff_toNat_lt, hleft] at hextra
            obtain ⟨outcome, houtcome, hmoved⟩ := continuations_ok (p := p) base
              extra.toNat (i := i + 1) value (by omega) (by omega)
            rw [houtcome, Result.ok_bind]
            cases outcome with
            | none => exact ⟨false, rfl⟩
            | some moved =>
              obtain ⟨j, value⟩ := moved
              have hj := hmoved j value rfl
              show ∃ valid, (if refused extra value = true then _ else _) = _
              split
              · exact ⟨false, rfl⟩
              · exact ih (by omega) (by omega)
    · exact ⟨true, rfl⟩

/-- A text inside the packet is checked. -/
theorem utf8_ok {p : List UInt8} {base : Nat} {size : UInt64}
    (hroom : base + size.toNat ≤ p.length) : ∃ valid, utf8 p base size = .ok valid :=
  utf8From_ok hroom (Nat.zero_le _) (by simp)

/-! ### Where the fields are -/

/-- The value of `load32`, as the decoder reads it from a packet with room for it. -/
def read32 (p : List UInt8) (offset : Nat) : Nat :=
  match load32 p offset with
  | .ok value => value.toNat
  | .error _ => 0

/-- The number that `load32` reads. -/
theorem read32_eq {p : List UInt8} {offset : Nat} {value : UInt32}
    (h : load32 p offset = .ok value) : read32 p offset = value.toNat := by
  rw [read32, h]

/-- `name_size + text_size` of the field header at `offset`, without wrap around. -/
def fieldBytes (p : List UInt8) (offset : Nat) : Nat :=
  read32 p (offset + 4) + read32 p (offset + 8)

/-- The offset of the header of a field, when that of the first is `start`. The sum of the sizes
wraps around, as the decoder computes it. -/
def fieldOffset (p : List UInt8) (start : Nat) : Nat → Nat
  | 0 => start
  | index + 1 => fieldOffset p (start + 24 + fieldBytes p start % 2 ^ 32) index

/-- The sizes of no field wrap around. -/
def FieldsFit (p : List UInt8) (start count : Nat) : Prop :=
  ∀ index < count, fieldBytes p (fieldOffset p start index) < 2 ^ 32

/-- Fields fit when the first one does and the others do. -/
theorem fieldsFit_succ_iff {p : List UInt8} {start count : Nat} :
    FieldsFit p start (count + 1) ↔ fieldBytes p start < 2 ^ 32 ∧
      FieldsFit p (start + 24 + fieldBytes p start % 2 ^ 32) count := by
  constructor
  · intro h
    refine ⟨h 0 (by omega), ?_⟩
    intro index hindex
    exact h (index + 1) (by omega)
  · intro ⟨hfirst, hrest⟩ index hindex
    cases index with
    | zero => exact hfirst
    | succ index => exact hrest index (by omega)

/-- What an iteration over a field returns. The texts follow the header, and the next offset is
the end of the packet at most. -/
structure Loaded (p : List UInt8) (size offset : UInt64) (field : FieldView) (next : UInt64) :
    Prop where
  header : offset.toNat + 24 ≤ size.toNat
  nameOffset : field.name.offset = offset.toNat + 24
  nameSize : field.name.size.toNat = read32 p (offset.toNat + 4)
  nameLimit : field.name.size.toNat ≤ 255
  textOffset : field.text.offset = field.name.offset + field.name.size.toNat
  textSize : field.text.size.toNat = read32 p (offset.toNat + 8)
  moved : next.toNat = offset.toNat + 24 + fieldBytes p offset.toNat % 2 ^ 32
  inside : next.toNat ≤ size.toNat

section
variable {p : List UInt8} {size : UInt64}

/-- The bytes that are left behind an offset of the packet. -/
theorem toNat_sub {size offset : UInt64} (h : offset.toNat ≤ size.toNat) :
    (size - offset).toNat = size.toNat - offset.toNat :=
  UInt64.toNat_sub_of_le _ _ (by rwa [UInt64.le_iff_toNat_le])

/-- An offset of the packet moved by no more than the bytes that are left. -/
theorem toNat_add (size : UInt64) {offset bytes : UInt64} (h : offset.toNat + bytes.toNat ≤ size.toNat) :
    (offset + bytes).toNat = offset.toNat + bytes.toNat := by
  have hsize : size.toNat < 2 ^ 64 := size.toNat_lt
  rw [UInt64.toNat_add]
  exact Nat.mod_eq_of_lt (by omega)

/-- An iteration reads its header only when the packet has room for it. -/
theorem header_of_not_lt {offset : UInt64} (hoffset : offset.toNat ≤ size.toNat)
    (h : ¬ size - offset < 24) : offset.toNat + 24 ≤ size.toNat := by
  rw [UInt64.lt_iff_toNat_lt, toNat_sub hoffset] at h
  have h24 : (24 : UInt64).toNat = 24 := rfl
  omega

/-- An iteration that passes its checks has texts, as the decoder adds their sizes, in the
packet. -/
theorem room_of_not_gt {offset bytes : UInt64} (hheader : offset.toNat + 24 ≤ size.toNat)
    (h : ¬ bytes > size - (offset + 24)) : offset.toNat + 24 + bytes.toNat ≤ size.toNat := by
  have hnext : (offset + 24).toNat = offset.toNat + 24 := toNat_add size hheader
  rw [gt_iff_lt, UInt64.lt_iff_toNat_lt, toNat_sub (by omega), hnext] at h
  omega

/-- A field is read inside the packet. -/
theorem contained_loadField {offset : UInt64} (hsize : size.toNat = p.length)
    (hoffset : offset.toNat ≤ size.toNat) : Contained (loadField p size offset) := by
  rw [loadField]
  apply (contained_raiseIf _).bind
  intro _ hroom
  have hheader := header_of_not_lt hoffset (raiseIf_ok_iff.mp hroom)
  have hnext : (offset + 24).toNat = offset.toNat + 24 := toNat_add size hheader
  apply (Contained.of_exists_ok (load16_ok (by omega))).bind
  intro kind _
  apply (Contained.of_exists_ok (load16_ok (by omega))).bind
  intro flags _
  apply (Contained.of_exists_ok (load32_ok (by omega))).bind
  intro nameSize _
  apply (Contained.of_exists_ok (load32_ok (by omega))).bind
  intro textSize _
  apply (Contained.of_exists_ok (load64_ok (by omega))).bind
  intro bits _
  apply (Contained.of_exists_ok (load32_ok (by omega))).bind
  intro reserved _
  apply (contained_raiseIf _).bind
  intro _ hchecks
  have hchecks := raiseIf_ok_iff.mp hchecks
  simp only [not_or] at hchecks
  have htexts := room_of_not_gt hheader hchecks.2.2.2.2.2.2.1
  apply (Contained.of_exists_ok (utf8_ok (by omega))).bind
  intro valid _
  apply (contained_raiseIf _).bind
  intro _ _
  apply (contained_raiseIf _).bind
  intro _ _
  exact contained_pure _

/-- What an iteration returns, read off its checks. -/
theorem loaded_of_loadField {offset next : UInt64} {field : FieldView}
    (hoffset : offset.toNat ≤ size.toNat) (h : loadField p size offset = .ok (field, next)) :
    Loaded p size offset field next := by
  rw [loadField, Result.check_bind_ok_iff, raiseIf_ok_iff] at h
  obtain ⟨hroom, h⟩ := h
  have hheader := header_of_not_lt hoffset hroom
  have hbehind : (offset + 24).toNat = offset.toNat + 24 := toNat_add size hheader
  simp only [Result.bind_ok_iff] at h
  obtain ⟨kind, _, flags, _, nameSize, hname, textSize, htext, bits, _, reserved, _, _, hchecks,
    valid, _, _, _, _, _, h⟩ := h
  rw [raiseIf_ok_iff] at hchecks
  simp only [not_or] at hchecks
  have htexts := room_of_not_gt hheader hchecks.2.2.2.2.2.2.1
  have hlimit : ¬ 255 < nameSize.toNat := hchecks.2.2.2.2.2.1
  -- The sum of the sizes, as the decoder has it.
  have hsum : (nameSize + textSize).toUInt64.toNat = fieldBytes p offset.toNat % 2 ^ 32 := by
    rw [UInt32.toNat_toUInt64, UInt32.toNat_add, fieldBytes, read32_eq hname, read32_eq htext]
  have hnext : (offset + 24 + (nameSize + textSize).toUInt64).toNat
      = offset.toNat + 24 + (nameSize + textSize).toUInt64.toNat := by
    rw [toNat_add size (by omega), hbehind]
  cases h
  exact {
    header := hheader
    nameOffset := hbehind
    nameSize := by rw [UInt32.toNat_toUInt64, read32_eq hname]
    nameLimit := by
      rw [UInt32.toNat_toUInt64]
      omega
    textOffset := by rw [UInt32.toNat_toUInt64]
    textSize := by rw [UInt32.toNat_toUInt64, read32_eq htext]
    moved := by rw [hnext, hsum]
    inside := by
      rw [hnext]
      exact htexts }

/-- The fields are read inside the packet. -/
theorem contained_loadFields {count : Nat} {offset : UInt64} (hsize : size.toNat = p.length)
    (hoffset : offset.toNat ≤ size.toNat) : Contained (loadFields p size count offset) := by
  induction count generalizing offset with
  | zero => exact contained_pure _
  | succ count ih =>
    rw [loadFields]
    apply (contained_loadField hsize hoffset).bind
    intro ⟨field, next⟩ hfield
    apply (ih (loaded_of_loadField hoffset hfield).inside).bind
    intro ⟨fields, stop⟩ _
    exact contained_pure _

end

/-! ### Regions of an accepted packet -/

/-- The bytes that a view points to. -/
def View.extent (view : View) : Extent := (view.offset, view.size.toNat)

/-- The regions of a field: its header, which stands in front of its name, and its texts. -/
def FieldView.regions (field : FieldView) : List Extent :=
  [(field.name.offset - 24, 24), field.name.extent, field.text.extent]

/-- The regions of a packet in their order. -/
def regions (record : RecordView) (fields : List FieldView) : List Extent :=
  (0, 100) :: record.category.extent :: record.message.extent :: fields.flatMap FieldView.regions

/-- The regions lie inside a packet of `size` bytes, in order and without overlap, and every byte
of the packet is in one. -/
structure Placed (size : Nat) (record : RecordView) (fields : List FieldView) : Prop where
  inside : ∀ region ∈ regions record fields, region.1 + region.2 ≤ size
  ordered : Ordered (regions record fields)
  covers : Tiles size (regions record fields)

section
variable {p : List UInt8} {size : UInt64}

/-- A field whose sizes do not wrap around fills the bytes up to the next one. -/
theorem Loaded.consecutive {offset next : UInt64} {field : FieldView}
    (h : Loaded p size offset field next) (hfit : fieldBytes p offset.toNat < 2 ^ 32) :
    Consecutive offset.toNat field.regions next.toNat := by
  have hmoved := h.moved
  have hname := h.nameOffset
  have htext := h.textOffset
  have hbytes : fieldBytes p offset.toNat = field.name.size.toNat + field.text.size.toNat := by
    rw [fieldBytes, h.nameSize, h.textSize]
  rw [Nat.mod_eq_of_lt hfit, hbytes] at hmoved
  refine ⟨?_, ?_, ?_, ?_⟩
  · show field.name.offset - 24 = offset.toNat
    omega
  · exact hname
  · show field.text.offset = offset.toNat + 24 + field.name.size.toNat
    omega
  · show offset.toNat + 24 + field.name.size.toNat + field.text.size.toNat = next.toNat
    omega

/-- The text of a field whose sizes wrap around leaves every packet. -/
theorem Loaded.overrun {offset next : UInt64} {field : FieldView}
    (h : Loaded p size offset field next) (hwrap : ¬ fieldBytes p offset.toNat < 2 ^ 32)
    (hsize : size.toNat ≤ 65536) : size.toNat < field.text.offset + field.text.size.toNat := by
  have hlimit := h.nameLimit
  have hbytes : fieldBytes p offset.toNat = field.name.size.toNat + field.text.size.toNat := by
    rw [fieldBytes, h.nameSize, h.textSize]
  omega

/-- The fields of a packet without wrap around fill the bytes behind the message. -/
theorem loadFields_consecutive {count : Nat} {offset stop : UInt64} {fields : List FieldView}
    (hoffset : offset.toNat ≤ size.toNat)
    (h : loadFields p size count offset = .ok (fields, stop))
    (hfit : FieldsFit p offset.toNat count) :
    Consecutive offset.toNat (fields.flatMap FieldView.regions) stop.toNat := by
  induction count generalizing offset fields with
  | zero =>
    cases h
    exact rfl
  | succ count ih =>
    obtain ⟨hfirst, hrest⟩ := fieldsFit_succ_iff.mp hfit
    rw [loadFields, Result.bind_ok_iff] at h
    obtain ⟨⟨field, next⟩, hfield, h⟩ := h
    rw [Result.bind_ok_iff] at h
    obtain ⟨⟨rest, stop'⟩, hfields, h⟩ := h
    cases h
    have hloaded := loaded_of_loadField hoffset hfield
    rw [← hloaded.moved] at hrest
    rw [List.flatMap_cons]
    exact (hloaded.consecutive hfirst).append (ih hloaded.inside hfields hrest)

/-- The text of some field leaves a packet with wrap around. -/
theorem loadFields_overrun {count : Nat} {offset stop : UInt64} {fields : List FieldView}
    (hsize : size.toNat ≤ 65536) (hoffset : offset.toNat ≤ size.toNat)
    (h : loadFields p size count offset = .ok (fields, stop))
    (hfit : ¬ FieldsFit p offset.toNat count) :
    ∃ field ∈ fields, size.toNat < field.text.offset + field.text.size.toNat := by
  induction count generalizing offset fields with
  | zero =>
    exact absurd (fun index hindex => absurd hindex (by omega)) hfit
  | succ count ih =>
    rw [fieldsFit_succ_iff, not_and] at hfit
    rw [loadFields, Result.bind_ok_iff] at h
    obtain ⟨⟨field, next⟩, hfield, h⟩ := h
    rw [Result.bind_ok_iff] at h
    obtain ⟨⟨rest, stop'⟩, hfields, h⟩ := h
    cases h
    have hloaded := loaded_of_loadField hoffset hfield
    by_cases hfirst : fieldBytes p offset.toNat < 2 ^ 32
    · have hrest := hfit hfirst
      rw [← hloaded.moved] at hrest
      obtain ⟨found, hmem, hover⟩ := ih hloaded.inside hfields hrest
      exact ⟨found, List.mem_cons_of_mem field hmem, hover⟩
    · exact ⟨field, List.mem_cons_self, hloaded.overrun hfirst hsize⟩

/-- There are as many views as the header counts. -/
theorem length_loadFields {count : Nat} {offset stop : UInt64} {fields : List FieldView}
    (h : loadFields p size count offset = .ok (fields, stop)) : fields.length = count := by
  induction count generalizing offset fields with
  | zero =>
    cases h
    rfl
  | succ count ih =>
    rw [loadFields, Result.bind_ok_iff] at h
    obtain ⟨⟨field, next⟩, _, h⟩ := h
    rw [Result.bind_ok_iff] at h
    obtain ⟨⟨rest, stop'⟩, hfields, h⟩ := h
    cases h
    rw [List.length_cons, ih hfields]

end

/-! ### The decoder -/

/-- The offset of the first field header. -/
def fieldsStart (p : List UInt8) : Nat := 100 + read32 p 32 + read32 p 36

/-- The sizes of no field of the packet wrap around. -/
def Packet.FieldsFit (packet : Packet) : Prop :=
  ∀ p, packet.data = some p → Native.FieldsFit p (fieldsStart p) (read32 p 28)

section
variable {p : List UInt8} {size : UInt64} {destination : Destination}

/-- The texts behind the header, when they pass their checks. -/
structure TextsFit (p : List UInt8) (size categorySize messageSize : UInt64) : Prop where
  category : categorySize.toNat = read32 p 32
  message : messageSize.toNat = read32 p 36
  room : 100 + categorySize.toNat + messageSize.toNat ≤ size.toNat

/-- The sum of the two sizes does not wrap around, since both have a limit. -/
theorem textsFit_of_checks {categorySize messageSize : UInt32} (hheader : 100 ≤ size.toNat)
    (hcategory : load32 p 32 = .ok categorySize) (hmessage : load32 p 36 = .ok messageSize)
    (hcategoryLimit : ¬ categorySize > 1024) (hmessageLimit : ¬ messageSize > 32768)
    (hroom : ¬ (categorySize + messageSize).toUInt64 > size - 100) :
    TextsFit p size categorySize.toUInt64 messageSize.toUInt64 ∧
      (categorySize + messageSize).toUInt64.toNat
        = categorySize.toUInt64.toNat + messageSize.toUInt64.toNat := by
  have hcategoryLimit : ¬ 1024 < categorySize.toNat := hcategoryLimit
  have hmessageLimit : ¬ 32768 < messageSize.toNat := hmessageLimit
  have h100 : (100 : UInt64).toNat = 100 := rfl
  have hsum : (categorySize + messageSize).toUInt64.toNat
      = categorySize.toNat + messageSize.toNat := by
    rw [UInt32.toNat_toUInt64, UInt32.toNat_add]
    exact Nat.mod_eq_of_lt (by omega)
  rw [gt_iff_lt, UInt64.lt_iff_toNat_lt, toNat_sub (by omega), hsum] at hroom
  rw [hsum, UInt32.toNat_toUInt64, UInt32.toNat_toUInt64]
  refine ⟨⟨?_, ?_, ?_⟩, rfl⟩
  · rw [UInt32.toNat_toUInt64, read32_eq hcategory]
  · rw [UInt32.toNat_toUInt64, read32_eq hmessage]
  · rw [UInt32.toNat_toUInt64, UInt32.toNat_toUInt64]
    omega

/-- The offset behind the texts. -/
theorem TextsFit.offset {categorySize messageSize : UInt64}
    (h : TextsFit p size categorySize messageSize) :
    (100 + categorySize).toNat = 100 + categorySize.toNat ∧
      (100 + categorySize + messageSize).toNat = fieldsStart p := by
  have hroom := h.room
  have hcategory : (100 + categorySize).toNat = 100 + categorySize.toNat :=
    toNat_add size (by show 100 + _ ≤ _; omega)
  refine ⟨hcategory, ?_⟩
  rw [toNat_add size (by omega), hcategory, h.category, h.message, fieldsStart]

/-- The record is read inside the packet. -/
theorem contained_decodeBytes (hsize : size.toNat = p.length) (hheader : 100 ≤ size.toNat) :
    Contained (decodeBytes p size destination) := by
  have h16 : ∀ i, i + 2 ≤ 100 → Contained (load16 p i) :=
    fun i hi => Contained.of_exists_ok (load16_ok (by omega))
  have h32 : ∀ i, i + 4 ≤ 100 → Contained (load32 p i) :=
    fun i hi => Contained.of_exists_ok (load32_ok (by omega))
  have h64 : ∀ i, i + 8 ≤ 100 → Contained (load64 p i) :=
    fun i hi => Contained.of_exists_ok (load64_ok (by omega))
  rw [decodeBytes]
  apply (h64 0 (by omega)).bind
  intro _ _
  apply (contained_raiseIf _).bind
  intro _ _
  apply (h16 8 (by omega)).bind
  intro _ _
  apply (contained_raiseIf _).bind
  intro _ _
  apply (h16 10 (by omega)).bind
  intro _ _
  apply (contained_raiseIf _).bind
  intro _ _
  apply (h32 12 (by omega)).bind
  intro _ _
  apply (contained_raiseIf _).bind
  intro _ _
  apply (h32 16 (by omega)).bind
  intro _ _
  apply (contained_raiseIf _).bind
  intro _ _
  apply (h32 20 (by omega)).bind
  intro flags _
  apply (contained_raiseIf _).bind
  intro _ _
  apply (h32 24 (by omega)).bind
  intro level _
  apply (h32 28 (by omega)).bind
  intro count _
  apply (h32 32 (by omega)).bind
  intro categorySize hcategory
  apply (h32 36 (by omega)).bind
  intro messageSize hmessage
  apply (contained_raiseIf _).bind
  intro _ hchecks
  have hchecks := raiseIf_ok_iff.mp hchecks
  simp only [not_or] at hchecks
  apply (h32 40 (by omega)).bind
  intro _ _
  apply (contained_raiseIf _).bind
  intro _ _
  apply (contained_raiseIf _).bind
  intro _ hroom
  obtain ⟨htexts, hsum⟩ := textsFit_of_checks hheader hcategory hmessage hchecks.2.2.2.2.1
    hchecks.2.2.2.2.2 (raiseIf_ok_iff.mp hroom)
  have hinside := htexts.room
  apply (Contained.of_exists_ok (utf8_ok (by show 100 + _ ≤ _; omega))).bind
  intro valid _
  apply (contained_raiseIf _).bind
  intro _ _
  apply (h64 44 (by omega)).bind
  intro _ _
  apply (h64 52 (by omega)).bind
  intro _ _
  apply (h64 60 (by omega)).bind
  intro _ _
  apply (h64 68 (by omega)).bind
  intro _ _
  apply (h64 76 (by omega)).bind
  intro _ _
  apply (h64 84 (by omega)).bind
  intro _ _
  apply (h64 92 (by omega)).bind
  intro _ _
  have hstart := htexts.offset.2
  have hcategorySize := htexts.category
  have hmessageSize := htexts.message
  apply (contained_loadFields hsize (by rw [hstart, fieldsStart]; omega)).bind
  intro ⟨fields, stop⟩ _
  apply (contained_raiseIf _).bind
  intro _ _
  exact contained_pure _

/-- What the decoder returns, read off its checks. -/
structure Decoded (p : List UInt8) (size : UInt64) (destination : Destination)
    (record : RecordView) (fields : List FieldView) : Prop where
  category : record.category.extent = (100, read32 p 32)
  message : record.message.extent = (100 + read32 p 32, read32 p 36)
  start : fieldsStart p ≤ size.toNat
  loaded : ∃ offset : UInt64, offset.toNat = fieldsStart p ∧
    loadFields p size (read32 p 28) offset = .ok (fields, size)
  capacity : fields.length ≤ destination.capacity.toNat

/-- What is accepted has the shape of a record. -/
theorem decoded_of_decodeBytes {record : RecordView} {fields : List FieldView}
    (hheader : 100 ≤ size.toNat) (h : decodeBytes p size destination = .ok (record, fields)) :
    Decoded p size destination record fields := by
  rw [decodeBytes] at h
  simp only [Result.bind_ok_iff, raiseIf_ok_iff] at h
  obtain ⟨_, _, _, _, _, _, _, _, _, _, _, _, _, _, _, _, _, _, _, _, flags, _, _, _, level, _,
    count, hcount, categorySize, hcategory, messageSize, hmessage, _, hchecks, _, _, _, _, _,
    hroom, valid, _, _, _, _, _, _, _, _, _, _, _, _, _, _, _, _, _, ⟨found, stop⟩, hfields, h⟩ := h
  simp only [not_or] at hchecks
  obtain ⟨htexts, _⟩ := textsFit_of_checks hheader hcategory hmessage hchecks.2.2.2.2.1
    hchecks.2.2.2.2.2 hroom
  obtain ⟨hmiddle, hstart⟩ := htexts.offset
  obtain ⟨_, hstop, h⟩ := h
  have hinside := htexts.room
  have hcategorySize := htexts.category
  have hmessageSize := htexts.message
  rw [ne_eq, not_not] at hstop
  cases h
  cases hstop
  have hcapacity : ¬ destination.capacity.toNat < count.toUInt64.toNat := hchecks.2.2.1
  rw [UInt32.toNat_toUInt64] at hcapacity
  exact {
    category := by
      show ((100 : UInt64).toNat, categorySize.toUInt64.toNat) = _
      rw [hcategorySize]
      rfl
    message := by
      show ((100 + categorySize.toUInt64).toNat, messageSize.toUInt64.toNat) = _
      rw [hmiddle, hcategorySize, hmessageSize]
    start := by
      rw [fieldsStart]
      omega
    loaded := ⟨_, hstart, by rw [read32_eq hcount]; exact hfields⟩
    capacity := by
      rw [length_loadFields hfields]
      omega }

/-- The regions of an accepted packet are where they have to be exactly when the sizes of no
field wrap around. -/
theorem Decoded.placed_iff {record : RecordView} {fields : List FieldView}
    (h : Decoded p size destination record fields) (hsize : size.toNat ≤ 65536) :
    Placed size.toNat record fields ↔ FieldsFit p (fieldsStart p) (read32 p 28) := by
  obtain ⟨offset, hoffset, hfields⟩ := h.loaded
  have hstart := h.start
  constructor
  · intro hplaced
    by_contra hfit
    rw [← hoffset] at hfit
    obtain ⟨field, hmem, hover⟩ := loadFields_overrun hsize (by omega) hfields hfit
    have hregion : field.text.extent ∈ regions record fields := by
      have : field.text.extent ∈ fields.flatMap FieldView.regions :=
        List.mem_flatMap.mpr ⟨field, hmem, by simp [FieldView.regions]⟩
      simp [regions, this]
    have hinside : field.text.offset + field.text.size.toNat ≤ size.toNat :=
      hplaced.inside _ hregion
    omega
  · intro hfit
    rw [← hoffset] at hfit
    have hrest := loadFields_consecutive (by omega) hfields hfit
    have hall : Consecutive 0 (regions record fields) size.toNat := by
      rw [regions, h.category, h.message]
      refine ⟨rfl, rfl, rfl, ?_⟩
      rw [hoffset] at hrest
      rw [Nat.zero_add]
      exact hrest
    exact ⟨fun region hregion => (hall.inside.2 region hregion).2, hall.ordered, hall.tiles⟩

end

/-- The decoder reads only bytes of the packet. When it succeeds, there is room for the fields
that it returns, and the regions of the packet are where they have to be exactly when the sizes
of no field wrap around. -/
theorem wmfsLogDecodeV1_placed_iff (packet : Packet) (destination : Destination) :
    Contained (wmfsLogDecodeV1 packet destination) ∧
      ∀ record fields, wmfsLogDecodeV1 packet destination = .ok (record, fields) →
        fields.length ≤ destination.capacity.toNat ∧
          (Placed packet.size.toNat record fields ↔ packet.FieldsFit) := by
  obtain ⟨data, size, hsize⟩ := packet
  cases data with
  | none =>
    constructor
    · intro stop h
      cases h
      rfl
    · intro record fields h
      cases h
  | some p =>
    have hlength := hsize p rfl
    have hroom : ¬ (destination.record = false ∨ size < 100 ∨ size > 65536) →
        100 ≤ size.toNat ∧ size.toNat ≤ 65536 := by
      intro h
      simp only [not_or, gt_iff_lt, UInt64.lt_iff_toNat_lt] at h
      have h100 : (100 : UInt64).toNat = 100 := rfl
      have h65536 : (65536 : UInt64).toNat = 65536 := rfl
      omega
    constructor
    · apply (contained_raiseIf _).bind
      intro _ hcheck
      have hroom := hroom (raiseIf_ok_iff.mp hcheck)
      exact contained_decodeBytes hlength hroom.1
    · intro record fields h
      rw [wmfsLogDecodeV1, Result.check_bind_ok_iff, raiseIf_ok_iff] at h
      have hroom := hroom h.1
      have hdecoded := decoded_of_decodeBytes hroom.1 h.2
      refine ⟨hdecoded.capacity, ?_⟩
      rw [hdecoded.placed_iff hroom.2]
      constructor
      · intro hfit p' hp'
        cases hp'
        exact hfit
      · intro hfit
        exact hfit p rfl

/-! ### Packets of one text field -/

/-- A packet with an empty category, an empty message and one text field, whose header has the
text size `textSize`. `texts` are the bytes behind it. -/
def textPacket (textSize texts : List UInt8) : List UInt8 :=
  [0x57, 0x4D, 0x46, 0x53, 0x4C, 0x4F, 0x47, 0x31, 1, 0, 0, 0, 100, 0, 0, 0] ++
    [.ofNat (124 + texts.length), 0, 0, 0] ++ [0, 0, 0, 0, 10, 0, 0, 0, 1, 0, 0, 0] ++ zeros 68 ++
    [5, 0, 0, 0, 1, 0, 0, 0] ++ textSize ++ zeros 12 ++ texts

/-- The field `a` with the text `b`. -/
def shortPacket : Packet where
  data := some (textPacket [1, 0, 0, 0] [97, 98])
  size := 126
  size_eq := by
    intro bytes h
    cases h
    rfl

/-- A field whose name has one byte and whose text has `2^32 - 1`, so that the sum is zero, and
no byte behind the field header. -/
def overlongPacket : Packet where
  data := some (textPacket [255, 255, 255, 255] [])
  size := 124
  size_eq := by
    intro bytes h
    cases h
    rfl

/-- Room for one field. -/
def oneField : Destination := ⟨true, true, 1⟩

/-- The views of a packet that fits are placed. -/
theorem shortPacket_placed : ∃ record fields,
    wmfsLogDecodeV1 shortPacket oneField = .ok (record, fields) ∧ Placed 126 record fields := by
  have hfit : shortPacket.FieldsFit := by
    intro p hp
    cases hp
    show Native.FieldsFit _ _ 1
    intro index hindex
    rw [show index = 0 by omega]
    decide +kernel
  refine ⟨_, _, rfl, ?_⟩
  exact (((wmfsLogDecodeV1_placed_iff shortPacket oneField).2 _ _ rfl).2).mpr hfit

/-- The decoder accepts a packet whose text lies outside. -/
theorem overlongPacket_outside : ¬ ∀ packet destination,
    Contained (wmfsLogDecodeV1 packet destination) ∧
      ∀ record fields, wmfsLogDecodeV1 packet destination = .ok (record, fields) →
        Placed packet.size.toNat record fields := by
  intro h
  have hplaced := (h overlongPacket oneField).2 _ [⟨5, 0, ⟨124, 1⟩, ⟨125, 4294967295⟩⟩] rfl
  have hinside := hplaced.inside (125, 4294967295) (by decide)
  revert hinside
  decide

end Wmfs.Log.Native
