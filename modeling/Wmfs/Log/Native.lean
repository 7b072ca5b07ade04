import Wmfs.Lib.Result

/-!
# `Wmfs.Log.Native`: the C++ decoder of log packets

`wmfs_log_decode_v1` and `utf8` of `src/log.cpp`. Integers have the types of the source, so
that their sums wrap around as they do there: sizes of texts are `uint32_t`, sizes of byte
strings and offsets are `size_t`. A pointer into the packet is its distance from
`packet.data`.

A read of a byte that the packet does not have is an outcome of its own, `Stop.outside`. The
loop of `utf8` takes fuel, and `Stop.diverged` is what remains when it runs out. The return
value 1 is `Stop.malformed`.
-/

set_option autoImplicit false

namespace Wmfs.Log.Native

open Wmfs.Lib

/-- Why the decoder does not return 0. -/
inductive Stop where
  | malformed
  | outside (index : Nat)
  | diverged
  deriving DecidableEq, Repr

/-! ### Loads -/

/-- `p[index]`. -/
def byte (p : List UInt8) (index : Nat) : Except Stop UInt8 :=
  match p[index]? with
  | some b => .ok b
  | none => .error (.outside index)

/-- `load16`. -/
def load16 (p : List UInt8) (offset : Nat) : Except Stop UInt16 := do
  let low ← byte p offset
  let high ← byte p (offset + 1)
  return low.toUInt16 ||| high.toUInt16 <<< 8

/-- `load32`. -/
def load32 (p : List UInt8) (offset : Nat) : Except Stop UInt32 := do
  let b0 ← byte p offset
  let b1 ← byte p (offset + 1)
  let b2 ← byte p (offset + 2)
  let b3 ← byte p (offset + 3)
  return b0.toUInt32 ||| b1.toUInt32 <<< 8 ||| b2.toUInt32 <<< 16 ||| b3.toUInt32 <<< 24

/-- `load64`. -/
def load64 (p : List UInt8) (offset : Nat) : Except Stop UInt64 := do
  let low ← load32 p offset
  let high ← load32 p (offset + 4)
  return low.toUInt64 ||| high.toUInt64 <<< 32

/-! ### Text -/

/-- The first byte of a character of more than one byte: its bits of the value, and how many
bytes follow it. -/
def lead (first : UInt8) : Option (UInt32 × UInt64) :=
  if first ≥ 0xC2 ∧ first ≤ 0xDF then some ((first &&& 31).toUInt32, 1)
  else if first ≥ 0xE0 ∧ first ≤ 0xEF then some ((first &&& 15).toUInt32, 2)
  else if first ≥ 0xF0 ∧ first ≤ 0xF4 then some ((first &&& 7).toUInt32, 3)
  else none

/-- The inner loop of `utf8`, `count` more times: the index and the value behind it, or none
when a byte is no continuation byte. -/
def continuations (p : List UInt8) (base : Nat) :
    Nat → UInt64 → UInt32 → Except Stop (Option (UInt64 × UInt32))
  | 0, i, value => return some (i, value)
  | count + 1, i, value => do
    let next ← byte p (base + i.toNat)
    if next &&& 0xC0 ≠ 0x80 then
      return none
    else
      continuations p base count (i + 1) (value <<< 6 ||| (next &&& 63).toUInt32)

/-- The value of a character is refused: it is overlong, too large or a surrogate. -/
def refused (extra : UInt64) (value : UInt32) : Bool :=
  (extra = 2 && value < 0x800) || (extra = 3 && value < 0x10000) || value > 0x10FFFF ||
    (value ≥ 0xD800 && value ≤ 0xDFFF)

/-- The outer loop of `utf8` from the index `i` on. -/
def utf8From (p : List UInt8) (base : Nat) (size : UInt64) : Nat → UInt64 → Except Stop Bool
  | 0, i => if i < size then throw .diverged else return true
  | fuel + 1, i =>
    if i < size then do
      let first ← byte p (base + i.toNat)
      if first < 0x80 then
        utf8From p base size fuel (i + 1)
      else match lead first with
      | none => return false
      | some (value, extra) =>
        if extra > size - (i + 1) then
          return false
        else match ← continuations p base extra.toNat (i + 1) value with
        | none => return false
        | some (i, value) =>
          if refused extra value then return false else utf8From p base size fuel i
    else
      return true

/-- `utf8`, on the `size` bytes from `base` on. -/
def utf8 (p : List UInt8) (base : Nat) (size : UInt64) : Except Stop Bool :=
  utf8From p base size size.toNat 0

/-! ### Records -/

/-- The argument `packet`: a pointer, which may be null, and the number of bytes behind it. -/
structure Packet where
  data : Option (List UInt8)
  size : UInt64
  size_eq : ∀ bytes, data = some bytes → size.toNat = bytes.length

/-- The other arguments: whether `record` and `fields` are not null, and how many fields there
is room for. -/
structure Destination where
  record : Bool
  fields : Bool
  capacity : UInt64
  deriving DecidableEq, Repr

/-- `wmfs_log_bytes_v1`, pointing into the packet. -/
structure View where
  offset : Nat
  size : UInt64
  deriving DecidableEq, Repr

/-- `wmfs_log_record_v1`. -/
structure RecordView where
  flags : UInt32
  level : UInt32
  fieldCount : UInt32
  sequence : UInt64
  timeNs : UInt64
  sessionId : UInt64
  submissionId : UInt64
  invocationId : UInt64
  operationId : UInt64
  droppedBefore : UInt64
  category : View
  message : View
  deriving DecidableEq, Repr

/-- `wmfs_log_field_view_v1`. -/
structure FieldView where
  kind : UInt16
  bits : UInt64
  name : View
  text : View
  deriving DecidableEq, Repr

/-- An iteration of the loop over the fields: the view of the field at `offset`, and the offset
behind it. `size` is `packet.size`. -/
def loadField (p : List UInt8) (size offset : UInt64) : Except Stop (FieldView × UInt64) := do
  raiseIf (size - offset < 24) .malformed
  let kind ← load16 p offset.toNat
  let flags ← load16 p (offset.toNat + 2)
  let nameSize ← load32 p (offset.toNat + 4)
  let textSize ← load32 p (offset.toNat + 8)
  let bits ← load64 p (offset.toNat + 12)
  let reserved ← load32 p (offset.toNat + 20)
  let offset := offset + 24
  -- `name_size + text_size` is a sum of `uint32_t`, and a `size_t` only behind it.
  let bytes := (nameSize + textSize).toUInt64
  raiseIf (kind < 1 ∨ kind > 5 ∨ flags ≠ 0 ∨ reserved ≠ 0 ∨ nameSize = 0 ∨ nameSize > 255 ∨
    bytes > size - offset ∨ (kind ≠ 5 ∧ textSize ≠ 0) ∨ (kind = 5 ∧ bits ≠ 0)) .malformed
  let valid ← utf8 p offset.toNat bytes
  raiseIf (valid = false) .malformed
  raiseIf (kind = 1 ∧ bits > 1) .malformed
  return (⟨kind, bits, ⟨offset.toNat, nameSize.toUInt64⟩,
    ⟨offset.toNat + nameSize.toNat, textSize.toUInt64⟩⟩, offset + bytes)

/-- The loop over the fields, `count` more times: the views, and the offset behind them. -/
def loadFields (p : List UInt8) (size : UInt64) :
    Nat → UInt64 → Except Stop (List FieldView × UInt64)
  | 0, offset => return ([], offset)
  | count + 1, offset => do
    let (field, next) ← loadField p size offset
    let (fields, stop) ← loadFields p size count next
    return (field :: fields, stop)

/-- `wmfs_log_decode_v1` behind its first check. -/
def decodeBytes (p : List UInt8) (size : UInt64) (destination : Destination) :
    Except Stop (RecordView × List FieldView) := do
  raiseIf ((← load64 p 0) ≠ 0x31474F4C53464D57) .malformed
  raiseIf ((← load16 p 8) ≠ 1) .malformed
  raiseIf ((← load16 p 10) > 0) .malformed
  raiseIf ((← load32 p 12) ≠ 100) .malformed
  raiseIf ((← load32 p 16).toUInt64 ≠ size) .malformed
  let flags ← load32 p 20
  raiseIf (flags &&& ~~~3 ≠ 0) .malformed
  let level ← load32 p 24
  let count ← load32 p 28
  let categorySize ← load32 p 32
  let messageSize ← load32 p 36
  raiseIf ((level < 10 ∨ level > 50 ∨ level % 10 ≠ 0) ∨ count > 32 ∨
    count.toUInt64 > destination.capacity ∨ (count ≠ 0 ∧ destination.fields = false) ∨
    categorySize > 1024 ∨ messageSize > 32768) .malformed
  raiseIf ((← load32 p 40) ≠ 0) .malformed
  let offset : UInt64 := 100
  raiseIf ((categorySize + messageSize).toUInt64 > size - offset) .malformed
  let valid ← utf8 p offset.toNat (categorySize + messageSize).toUInt64
  raiseIf (valid = false) .malformed
  let category : View := ⟨offset.toNat, categorySize.toUInt64⟩
  let offset := offset + categorySize.toUInt64
  let message : View := ⟨offset.toNat, messageSize.toUInt64⟩
  let offset := offset + messageSize.toUInt64
  let record : RecordView := ⟨flags, level, count, ← load64 p 44, ← load64 p 52, ← load64 p 60,
    ← load64 p 68, ← load64 p 76, ← load64 p 84, ← load64 p 92, category, message⟩
  let (fields, offset) ← loadFields p size count.toNat offset
  raiseIf (offset ≠ size) .malformed
  return (record, fields)

/-- `wmfs_log_decode_v1`. -/
def wmfsLogDecodeV1 (packet : Packet) (destination : Destination) :
    Except Stop (RecordView × List FieldView) :=
  match packet.data with
  | none => throw .malformed
  | some p => do
    raiseIf (destination.record = false ∨ packet.size < 100 ∨ packet.size > 65536) .malformed
    decodeBytes p packet.size destination

end Wmfs.Log.Native
