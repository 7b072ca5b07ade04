import Wmfs.Log.Encoding

/-!
# `Wmfs.Log.Parity`: the runtime and the SDK encode log records differently

Both encoders cut a text field to the bytes that they leave to it. The SDK leaves what is there.
The runtime counts the headers of the fields so far, but not their names and their texts, so it
may leave more, and a text that fits into that may not fit into the packet. Then the runtime
leaves the field out, and the SDK writes a shorter text.

`Overcuts` finds such a field. Up to it both loops write the same parts, and where there is none
they return the same (`encodeRecord_of_not_overcut`). Where there is one, the runtime stops at
it and the SDK goes on (`encodeRecord_of_overcut`), so the packets differ in the number of their
fields. A record whose level, flags or counters have no form is refused by both in the end.
-/

set_option autoImplicit false

namespace Wmfs.Log

open Wmfs.Lib
open Wmfs.Lib.Utf8 (Text)

/-- Walks over the fields that fit whole. `room` bytes are left behind the fields so far, whose
names and texts have `extra` bytes. Of some text field the header and the name fit, and its text,
cut to `extra` bytes more than are left to it, does not. -/
def Overcuts : Int → Int → List (Text × LogValue) → Prop
  | _, _, [] => False
  | room, extra, field :: items =>
    let name : Int := Utf8.size (cutName field.1)
    let text : Int := Utf8.size (textOf field.2)
    let left := room - 24 - name
    Packs field ∧ 0 ≤ left ∧
      (left < Utf8.size (Utf8.cut (textOf field.2) (left + extra).toNat) ∨
        (text ≤ left ∧ Overcuts (left - text) (extra + name + text) items))

/-- The walk is finite, so its outcome can be computed. -/
def decidableOvercuts : ∀ room extra items, Decidable (Overcuts room extra items)
  | _, _, [] => inferInstanceAs (Decidable False)
  | room, extra, field :: items =>
    have := decidableOvercuts
      (room - 24 - Utf8.size (cutName field.1) - Utf8.size (textOf field.2))
      (extra + Utf8.size (cutName field.1) + Utf8.size (textOf field.2)) items
    inferInstanceAs (Decidable (Packs field ∧ 0 ≤ room - 24 - Utf8.size (cutName field.1) ∧
      (room - 24 - Utf8.size (cutName field.1) < Utf8.size (Utf8.cut (textOf field.2)
        (room - 24 - Utf8.size (cutName field.1) + extra).toNat) ∨
      ((Utf8.size (textOf field.2) : Int) ≤ room - 24 - Utf8.size (cutName field.1) ∧
        Overcuts (room - 24 - Utf8.size (cutName field.1) - Utf8.size (textOf field.2))
          (extra + Utf8.size (cutName field.1) + Utf8.size (textOf field.2)) items))))

instance (room extra : Int) (items : List (Text × LogValue)) :
    Decidable (Overcuts room extra items) := decidableOvercuts room extra items

/-- The first 32 fields hold a text field that the runtime cuts to more than is left to it. -/
def Overcut (record : LogRecord) (limit : Int) : Prop :=
  (Utf8.encode record.category).isSome ∧ (Utf8.encode record.message).isSome ∧
    Overcuts (limit - 100 - payloadSize record limit) 0 (record.fields.entries.take 32)

instance (record : LogRecord) (limit : Int) : Decidable (Overcut record limit) :=
  inferInstanceAs (Decidable ((Utf8.encode record.category).isSome ∧
    (Utf8.encode record.message).isSome ∧
      Overcuts (limit - 100 - payloadSize record limit) 0 (record.fields.entries.take 32)))

/-- A field that is cut too long has room for its header. -/
theorem room_of_overcuts {room extra : Int} {items : List (Text × LogValue)}
    (h : Overcuts room extra items) : 24 ≤ room := by
  cases items with
  | nil => exact h.elim
  | cons field items =>
    have hleft : 0 ≤ room - 24 - Utf8.size (cutName field.1) := h.2.1
    omega

/-- The text of a cut value. -/
theorem textOf_cutValue (room : Int) (value : LogValue) :
    textOf (cutValue room value) = Utf8.cut (textOf value) (max 0 room).toNat := by
  cases value with
  | text value => rfl
  | boolean value => rfl
  | integer value => rfl
  | float bits => rfl

/-- A value is the same at two cuts that leave the same text. -/
theorem cutValue_congr {room room' : Int} {value : LogValue}
    (h : textOf (cutValue room value) = textOf (cutValue room' value)) :
    cutValue room value = cutValue room' value := by
  cases value with
  | text value => exact congrArg LogValue.text h
  | boolean value => rfl
  | integer value => rfl
  | float bits => rfl

section
variable {limit payload : Int}

/-- What the runtime leaves to a text: as much as is there, and the names and texts of the
fields so far. -/
theorem runtime_available (parts : List (List UInt8)) (nameSize : Int) :
    runtimeEncoder.available limit payload parts nameSize =
      limit - 100 - payload - totalLength parts - 24 - nameSize +
        (totalLength parts - 24 * parts.length) := by
  show limit - 100 - payload - ((parts.length : Int) + 1) * 24 - nameSize = _
  omega

/-- What the SDK leaves to a text: as much as is there. -/
theorem sdk_available (parts : List (List UInt8)) (nameSize : Int) :
    sdkEncoder.available limit payload parts nameSize =
      limit - 100 - payload - totalLength parts - 24 - nameSize := rfl

/-- The length of the part that the runtime writes for a field. -/
theorem length_runtime_part {parts : List (List UInt8)} {field : Text × LogValue}
    {part : List UInt8} {room extra : Int}
    (hroom : room = limit - 100 - payload - totalLength parts)
    (hextra : extra = totalLength parts - 24 * parts.length)
    (h : partOf (carriedField runtimeEncoder limit payload parts field) = some part) :
    (part.length : Int) = 24 + Utf8.size (cutName field.1) + Utf8.size (Utf8.cut (textOf field.2)
      (max 0 (room - 24 - Utf8.size (cutName field.1) + extra)).toNat) := by
  rw [length_of_partOf h, carriedField, textOf_cutValue, runtime_available, ← hroom, ← hextra]
  push_cast
  rfl

/-- The length of the part that the SDK writes for a field. -/
theorem length_sdk_part {parts : List (List UInt8)} {field : Text × LogValue}
    {part : List UInt8} {room : Int} (hroom : room = limit - 100 - payload - totalLength parts)
    (h : partOf (carriedField sdkEncoder limit payload parts field) = some part) :
    (part.length : Int) = 24 + Utf8.size (cutName field.1) + Utf8.size (Utf8.cut (textOf field.2)
      (max 0 (room - 24 - Utf8.size (cutName field.1))).toNat) := by
  rw [length_of_partOf h, carriedField, textOf_cutValue, sdk_available, ← hroom]
  push_cast
  rfl

/-- The SDK cuts a text that the runtime leaves out. -/
theorem carriedField_ne_of_overcut {parts : List (List UInt8)} {field : Text × LogValue}
    {room extra : Int} (hroom : room = limit - 100 - payload - totalLength parts)
    (hleft : ¬ room - 24 - Utf8.size (cutName field.1) < 0)
    (hover : room - 24 - Utf8.size (cutName field.1) < Utf8.size (Utf8.cut
      (textOf field.2) (room - 24 - Utf8.size (cutName field.1) + extra).toNat)) :
    carriedField sdkEncoder limit payload parts field ≠ field := by
  have hlong : room - 24 - Utf8.size (cutName field.1) < Utf8.size (textOf field.2) := by
    have := Utf8.size_cut_le_size (textOf field.2)
      (room - 24 - Utf8.size (cutName field.1) + extra).toNat
    omega
  have hcut := size_textOf_cutValue (room - 24 - Utf8.size (cutName field.1)) field.2
  intro heq
  have hvalue : cutValue (sdkEncoder.available limit payload parts (Utf8.size (cutName field.1)))
      field.2 = field.2 := congrArg Prod.snd heq
  rw [sdk_available, ← hroom] at hvalue
  rw [hvalue] at hcut
  omega

/-- Both encoders carry the same field when the runtime does not cut it too long. -/
theorem carriedField_congr {parts : List (List UInt8)} {field : Text × LogValue}
    {room extra : Int} (hroom : room = limit - 100 - payload - totalLength parts)
    (hextra : extra = totalLength parts - 24 * parts.length) (hnonneg : 0 ≤ extra)
    (hleft : ¬ room - 24 - Utf8.size (cutName field.1) < 0)
    (hover : ¬ room - 24 - Utf8.size (cutName field.1) < Utf8.size (Utf8.cut
      (textOf field.2) (room - 24 - Utf8.size (cutName field.1) + extra).toNat)) :
    carriedField runtimeEncoder limit payload parts field
      = carriedField sdkEncoder limit payload parts field := by
  rw [carriedField, carriedField, runtime_available, sdk_available, ← hroom, ← hextra,
    Prod.mk.injEq]
  refine ⟨rfl, cutValue_congr ?_⟩
  rw [textOf_cutValue, textOf_cutValue,
    show max 0 (room - 24 - (Utf8.size (cutName field.1) : Int) + extra)
      = room - 24 - Utf8.size (cutName field.1) + extra by omega]
  exact Utf8.cut_eq_cut (by omega) (by omega)

/-- Behind a field that is not cut too long, the walk goes on with what the SDK has written: a
text that is cut leaves no room for another header. -/
theorem overcuts_cons_iff {field : Text × LogValue} {items : List (Text × LogValue)}
    {room extra : Int} (hpacks : Packs field)
    (hleft : ¬ room - 24 - Utf8.size (cutName field.1) < 0)
    (hover : ¬ room - 24 - Utf8.size (cutName field.1) < Utf8.size (Utf8.cut
      (textOf field.2) (room - 24 - Utf8.size (cutName field.1) + extra).toNat)) :
    Overcuts room extra (field :: items) ↔
      Overcuts (room - 24 - Utf8.size (cutName field.1) - Utf8.size (Utf8.cut (textOf field.2)
          (room - 24 - Utf8.size (cutName field.1)).toNat))
        (extra + Utf8.size (cutName field.1) + Utf8.size (Utf8.cut (textOf field.2)
          (room - 24 - Utf8.size (cutName field.1)).toNat)) items := by
  by_cases htext : (Utf8.size (textOf field.2) : Int) ≤ room - 24 - Utf8.size (cutName field.1)
  · rw [Utf8.cut_eq_self (show Utf8.size (textOf field.2) ≤ _ by omega)]
    constructor
    · intro ⟨_, _, h⟩
      rcases h with h | h
      · exact absurd h hover
      · exact h.2
    · intro h
      exact ⟨hpacks, by omega, .inr ⟨htext, h⟩⟩
  · have hfull : (room - 24 - Utf8.size (cutName field.1)).toNat < Utf8.size (Utf8.cut
        (textOf field.2) (room - 24 - Utf8.size (cutName field.1)).toNat) + 4 :=
      Utf8.lt_size_cut (by omega)
    constructor
    · intro ⟨_, _, h⟩
      rcases h with h | h
      · exact absurd h hover
      · exact absurd h.1 htext
    · intro h
      have := room_of_overcuts h
      omega

/-- Where no field is cut too long, both loops return the same, or both raise. Where one is, the
runtime stops at it, and the SDK writes more fields if it does not raise. -/
theorem encodeFields_parity (hlimit : limit ≤ 65536) (hpayload : 0 ≤ payload)
    {items : List (Text × LogValue)} {parts : List (List UInt8)} (truncated : Bool)
    (hparts : ∀ part ∈ parts, 24 ≤ part.length) {room extra : Int}
    (hroom : room = limit - 100 - payload - totalLength parts)
    (hextra : extra = totalLength parts - 24 * parts.length) :
    (¬ Overcuts room extra items →
      (encodeFields runtimeEncoder limit payload items parts truncated).toOption =
        (encodeFields sdkEncoder limit payload items parts truncated).toOption) ∧
    (Overcuts room extra items → ∃ found,
      encodeFields runtimeEncoder limit payload items parts truncated = .ok (found, true) ∧
        ∀ found' truncated', encodeFields sdkEncoder limit payload items parts truncated
          = .ok (found', truncated') → truncated' = true ∧ found.length < found'.length) := by
  induction items generalizing parts truncated room extra with
  | nil => exact ⟨fun _ => rfl, fun h => h.elim⟩
  | cons field items ih =>
    by_cases hpacks : Packs field
    · obtain ⟨part, hpart, hruntime⟩ := encodeFields_cons runtimeEncoder_lawful hlimit hpayload
        parts hpacks items truncated
      obtain ⟨part', hpart', hsdk⟩ := encodeFields_cons sdkEncoder_lawful hlimit hpayload
        parts hpacks items truncated
      have hextraNonneg : 0 ≤ extra := by
        have := le_totalLength hparts
        omega
      have hlength := length_runtime_part hroom hextra hpart
      have hlength' := length_sdk_part hroom hpart'
      have hcut' := Utf8.size_cut_le (textOf field.2)
        (max 0 (room - 24 - Utf8.size (cutName field.1))).toNat
      by_cases hleft : room - 24 - Utf8.size (cutName field.1) < 0
      · -- There is no room for the header and the name.
        rw [hruntime, hsdk, if_pos (by omega), if_pos (by omega)]
        exact ⟨fun _ => rfl, fun h => absurd h.2.1 (by omega)⟩
      have hfits : ¬ 100 + payload + totalLength parts + part'.length > limit := by omega
      rw [if_neg hfits] at hsdk
      have hmax : max 0 (room - 24 - Utf8.size (cutName field.1))
          = room - 24 - Utf8.size (cutName field.1) := by omega
      have hmaxExtra : max 0 (room - 24 - Utf8.size (cutName field.1) + extra)
          = room - 24 - Utf8.size (cutName field.1) + extra := by omega
      rw [hmax] at hlength' hcut'
      rw [hmaxExtra] at hlength
      by_cases hover : room - 24 - Utf8.size (cutName field.1) < Utf8.size (Utf8.cut
        (textOf field.2) (room - 24 - Utf8.size (cutName field.1) + extra).toNat)
      · have hovercuts : Overcuts room extra (field :: items) := ⟨hpacks, by omega, .inl hover⟩
        refine ⟨fun h => absurd hovercuts h, fun _ => ⟨parts, ?_, ?_⟩⟩
        · rw [hruntime, if_pos (by omega)]
        · intro found' truncated' h
          rw [hsdk] at h
          obtain ⟨hmore, htruncated⟩ := encodeFields_mono sdkEncoder_lawful hlimit hpayload h
          rw [List.length_append, List.length_singleton] at hmore
          -- The SDK has cut the text that the runtime left out.
          have hcutField := carriedField_ne_of_overcut hroom hleft hover
          refine ⟨htruncated (by simp [hcutField]), by omega⟩
      · have hsame : carriedField runtimeEncoder limit payload parts field
            = carriedField sdkEncoder limit payload parts field :=
          carriedField_congr hroom hextra hextraNonneg hleft hover
        obtain rfl : part = part' := by
          rw [hsame, hpart', Option.some.injEq] at hpart
          exact hpart.symm
        rw [hruntime, if_neg hfits, hsame, hsdk, overcuts_cons_iff hpacks hleft hover]
        apply ih
        · intro part'' hmem
          rcases List.mem_append.mp hmem with hmem | hmem
          · exact hparts part'' hmem
          · rw [List.mem_singleton.mp hmem]
            omega
        · rw [totalLength_append]
          omega
        · rw [totalLength_append, List.length_append, List.length_singleton]
          push_cast
          omega
    · -- Both raise.
      obtain ⟨error, herror⟩ := encodeFields_cons_error runtimeEncoder_lawful limit payload parts
        hpacks items truncated
      obtain ⟨error', herror'⟩ := encodeFields_cons_error sdkEncoder_lawful limit payload parts
        hpacks items truncated
      rw [herror, herror']
      exact ⟨fun _ => rfl, fun h => absurd h.1 hpacks⟩

/-- The loops of a record. -/
theorem encodeFields_parity_nil (hlimit : limit ≤ 65536) (hpayload : 0 ≤ payload)
    (items : List (Text × LogValue)) (truncated : Bool) :
    (¬ Overcuts (limit - 100 - payload) 0 items →
      (encodeFields runtimeEncoder limit payload items [] truncated).toOption =
        (encodeFields sdkEncoder limit payload items [] truncated).toOption) ∧
    (Overcuts (limit - 100 - payload) 0 items → ∃ found,
      encodeFields runtimeEncoder limit payload items [] truncated = .ok (found, true) ∧
        ∀ found' truncated', encodeFields sdkEncoder limit payload items [] truncated
          = .ok (found', truncated') → truncated' = true ∧ found.length < found'.length) := by
  apply encodeFields_parity hlimit hpayload truncated
  · exact List.forall_mem_nil _
  · rw [totalLength_nil]
    omega
  · rw [totalLength_nil]
    rfl

end

/-! ### Records -/

/-- Steps that return the same, or both raise, are followed alike. -/
theorem toOption_bind_congr {α β : Type} {first first' : Except LogError α}
    (h : first.toOption = first'.toOption) (second : α → Except LogError β) :
    (first >>= second).toOption = (first' >>= second).toOption := by
  cases first with
  | error error =>
    cases first' with
    | error error' => rfl
    | ok a => cases h
  | ok a =>
    cases first' with
    | error error' => cases h
    | ok a' =>
      cases h
      rfl

/-- An exception is no result. -/
theorem toOption_error {α : Type} {outcome : Except LogError α}
    (h : ∃ error, outcome = .error error) : outcome.toOption = none := by
  obtain ⟨error, rfl⟩ := h
  rfl

/-- The loops of a record without a field that is cut too long. -/
theorem encodeRecord_of_not_overcut {record : LogRecord} {limit : Int}
    (hlimit : 100 ≤ limit ∧ limit ≤ 65536) (h : ¬ Overcut record limit) :
    (Runtime.encodeLogRecord record limit).toOption
      = (Sdk.encodeLogRecord record limit).toOption := by
  unfold Runtime.encodeLogRecord Sdk.encodeLogRecord
  by_cases htexts : unknownLevel record.level = false ∧ (Utf8.encode record.category).isSome ∧
    (Utf8.encode record.message).isSome
  · obtain ⟨hlevel, hcategory, hmessage⟩ := htexts
    obtain ⟨category, message, hc, hm, hruntime⟩ := encodeRecord_eq runtimeEncoder_lawful hlevel
      hlimit hcategory hmessage
    obtain ⟨category', message', hc', hm', hsdk⟩ := encodeRecord_eq sdkEncoder_lawful hlevel
      hlimit hcategory hmessage
    cases hc.symm.trans hc'
    cases hm.symm.trans hm'
    rw [hruntime, hsdk]
    apply toOption_bind_congr
    apply (encodeFields_parity_nil hlimit.2 (payloadSize_bounds record hlimit.1).1 _ _).1
    intro hovercuts
    exact h ⟨hcategory, hmessage, hovercuts⟩
  · rw [toOption_error (encodeRecord_error runtimeEncoder_lawful htexts),
      toOption_error (encodeRecord_error sdkEncoder_lawful htexts)]

/-- A record whose header has no form is refused. -/
theorem encodeRecord_of_not_headerPacks {e : Encoder} (he : LawfulEncoder e) {record : LogRecord}
    {limit : Int} (hlimit : 100 ≤ limit ∧ limit ≤ 65536) (h : ¬ HeaderPacks record) :
    (encodeRecord e record limit).toOption = none := by
  by_cases htexts : unknownLevel record.level = false ∧ (Utf8.encode record.category).isSome ∧
    (Utf8.encode record.message).isSome
  · obtain ⟨hlevel, hcategory, hmessage⟩ := htexts
    obtain ⟨category, message, _, _, heq⟩ := encodeRecord_eq he hlevel hlimit hcategory hmessage
    rw [heq]
    cases hloop : encodeFields e limit (payloadSize record limit) (record.fields.entries.take 32)
        [] (truncatedTexts record limit) with
    | error error => rfl
    | ok result =>
      apply toOption_error
      exact encodeHeader_error hlevel h result.2
  · exact toOption_error (encodeRecord_error he htexts)

/-- The packets of a record with a field that is cut too long have different numbers of fields,
if there are two. -/
theorem encodeRecord_of_overcut {record : LogRecord} {limit : Int}
    (hlimit : 100 ≤ limit ∧ limit ≤ 65536) (h : Overcut record limit) (hpacks : HeaderPacks record) :
    (Runtime.encodeLogRecord record limit).toOption
      ≠ (Sdk.encodeLogRecord record limit).toOption := by
  obtain ⟨hcategory, hmessage, hovercuts⟩ := h
  obtain ⟨category, message, hc, hm, hruntime⟩ := encodeRecord_eq runtimeEncoder_lawful hpacks.1
    hlimit hcategory hmessage
  obtain ⟨category', message', hc', hm', hsdk⟩ := encodeRecord_eq sdkEncoder_lawful hpacks.1
    hlimit hcategory hmessage
  cases hc.symm.trans hc'
  cases hm.symm.trans hm'
  obtain ⟨hpayload, hroom⟩ := payloadSize_bounds record hlimit.1
  obtain ⟨parts, hparts, hmore⟩ := (encodeFields_parity_nil hlimit.2 hpayload _
    (truncatedTexts record limit)).2 hovercuts
  have hpayloadSize : payloadSize record limit = category.length + message.length := by
    rw [Utf8.length_of_encode hc, Utf8.length_of_encode hm]
    rfl
  have hnil : 100 + payloadSize record limit + totalLength [] ≤ limit := by
    rw [totalLength_nil]
    omega
  obtain ⟨hfit, hcount⟩ := encodeFields_room runtimeEncoder_lawful hlimit.2 hpayload hnil hparts
  rw [List.length_nil, Nat.zero_add] at hcount
  obtain ⟨header, hheader, hpacket⟩ := encodeHeader_ok hpacks (show 100 + (category.length : Int) +
    message.length + totalLength parts ≤ 65536 by omega) (hcount.trans (List.length_take_le _ _)) true
  rw [Runtime.encodeLogRecord, Sdk.encodeLogRecord, hruntime, hsdk, hparts, Result.ok_bind,
    hpacket]
  cases hloop : encodeFields sdkEncoder limit (payloadSize record limit)
      (record.fields.entries.take 32) [] (truncatedTexts record limit) with
  | error error =>
    intro heq
    cases heq
  | ok result =>
    obtain ⟨parts', truncated'⟩ := result
    obtain ⟨_, hless⟩ := hmore parts' truncated' hloop
    obtain ⟨hfit', hcount'⟩ := encodeFields_room sdkEncoder_lawful hlimit.2 hpayload hnil hloop
    rw [List.length_nil, Nat.zero_add] at hcount'
    obtain ⟨header', hheader', hpacket'⟩ := encodeHeader_ok hpacks
      (show 100 + (category.length : Int) + message.length + totalLength parts' ≤ 65536 by omega) (hcount'.trans (List.length_take_le _ _)) truncated'
    intro heq
    rw [Result.ok_bind, hpacket'] at heq
    have hsame := Option.some.inj heq
    have := length_parts_of_packet hheader hheader' hsame
    omega

/-- The encoders return the same packet, or both raise, exactly when the runtime cuts no field
too long, or the level, the flags or the counters of the record have no form in a header. -/
theorem encodeLogRecord_agree_iff (record : LogRecord) (limit : Int)
    (hlimit : 100 ≤ limit ∧ limit ≤ 65536) :
    (Runtime.encodeLogRecord record limit).toOption
        = (Sdk.encodeLogRecord record limit).toOption ↔
      ¬ Overcut record limit ∨ ¬ HeaderPacks record := by
  constructor
  · intro hagree
    by_contra hnot
    rw [not_or, not_not, not_not] at hnot
    exact encodeRecord_of_overcut hlimit hnot.1 hnot.2 hagree
  · intro h
    rcases h with h | h
    · exact encodeRecord_of_not_overcut hlimit h
    · exact (encodeRecord_of_not_headerPacks runtimeEncoder_lawful hlimit h).trans
        (encodeRecord_of_not_headerPacks sdkEncoder_lawful hlimit h).symm

/-- Two fields: `a` is 1, and `b` is a text of the letter `x`. -/
def twoFields (length : Nat) : Fields where
  entries := [([97], .integer 1), ([98], .text (List.replicate length 120))]
  nodup := by simp

/-- A record with two fields and nothing else. -/
def twoFieldRecord (length : Nat) : LogRecord where
  level := 20
  message := []
  category := []
  fields := twoFields length
  sequence := 0
  timeNs := 0
  context := ⟨0, 0, 0, 0⟩
  flags := 0
  droppedBefore := 0

/-- A text of ten bytes has room behind the other field, and the encoders agree. -/
theorem twoFieldRecord_ten :
    (Runtime.encodeLogRecord (twoFieldRecord 10) 160).toOption
      = (Sdk.encodeLogRecord (twoFieldRecord 10) 160).toOption :=
  (encodeLogRecord_agree_iff (twoFieldRecord 10) 160 (by decide)).mpr (.inl (by decide))

/-- A text of eleven bytes has not: the runtime leaves the field out, and the SDK cuts it. -/
theorem twoFieldRecord_eleven : ¬ ∀ record limit, 100 ≤ limit ∧ limit ≤ 65536 →
    (Runtime.encodeLogRecord record limit).toOption
      = (Sdk.encodeLogRecord record limit).toOption := by
  intro h
  have := h (twoFieldRecord 11) 160 (by decide)
  revert this
  decide +kernel

end Wmfs.Log
