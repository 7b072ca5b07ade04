import Wmfs.Lib.Bytes

/-!
# `Wmfs.Log.Writer`: the log records of the native worker

`log_write` of `src/reference_worker.cpp` in the centralized mode, and the synthetic packet that
`LogSink::run` makes of a packet when records have been dropped. The sizes are natural numbers,
and a subtraction of two `size_t` is `subtract`, which wraps around as it does there and says
so. `Written.wrapped` collects what the subtractions say.

A vector is a list of bytes. A store into it is a `splice`, and `resize` appends zeros. The clock
and the numbers of the invocation are arguments. The branch for a worker file, which writes a JSON
document, is not modelled.
-/

set_option autoImplicit false

namespace Wmfs.Log.Native

open Wmfs.Lib

/-! ### Arguments -/

/-- `wmfs_text_view_v1`: a pointer, which may be null, and the number of bytes behind it. -/
structure TextView where
  data : Option (List UInt8)
  size : UInt64
  size_eq : ∀ bytes, data = some bytes → size.toNat = bytes.length

/-- The bytes behind the pointer. -/
def TextView.bytes (view : TextView) : List UInt8 := view.data.getD []

/-- `!view.data && view.size`. -/
def TextView.dangling (view : TextView) : Bool := view.data.isNone && view.size != 0

/-- `wmfs_log_field_v1`. `log_write` does not read `struct_size`. -/
structure LogField where
  kind : UInt32
  name : TextView
  bits : UInt64
  text : TextView

/-- What `log_write` reads of a `LogSink`. -/
structure LogSink where
  level : UInt32
  recordBytes : UInt64
  generation : UInt64
  sequence : UInt64

/-- `steady_nanoseconds()` and the numbers of the thread. -/
structure LogThread where
  timeNs : UInt64
  submissionId : UInt64
  invocationId : UInt64
  operationId : UInt64

/-- `log_enabled`. -/
def logEnabled (sink : LogSink) (level : UInt32) : Bool :=
  level ≥ sink.level && level ≥ 10 && level ≤ 50 && level % 10 = 0

/-! ### Sizes -/

/-- `left - right` of two `size_t`, and whether it wraps around. -/
def subtract (left right : Nat) : Nat × Bool :=
  ((left + 2 ^ 64 - right) % 2 ^ 64, decide (left < right))

/-- The loop of `utf8_prefix`: it goes back to a byte that no character contains behind its
first. -/
def backUp (data : List UInt8) : Nat → Nat
  | 0 => 0
  | size + 1 =>
    if data.getD (size + 1) 0 &&& 0xC0 = 0x80 then backUp data size else size + 1

/-- `utf8_prefix`. -/
def utf8Prefix (data : List UInt8) (limit : Nat) : Nat :=
  if data.length ≤ limit then data.length else backUp data limit

/-! ### Stores -/

/-- `store32`. -/
def store32 (p : List UInt8) (offset value : Nat) : List UInt8 := splice p offset (le 4 value)

/-- `store64`. -/
def store64 (p : List UInt8) (offset value : Nat) : List UInt8 := splice p offset (le 8 value)

/-- `p[offset] = value`. -/
def storeByte (p : List UInt8) (offset : Nat) (value : UInt8) : List UInt8 :=
  splice p offset [value]

/-- `p[offset] |= value`. -/
def orByte (p : List UInt8) (offset : Nat) (value : UInt8) : List UInt8 :=
  storeByte p offset (p.getD offset 0 ||| value)

/-! ### Fields -/

/-- The vector so far, `encoded_fields`, and whether a subtraction has wrapped around. -/
structure Draft where
  packet : List UInt8
  encodedFields : Nat
  wrapped : Bool

/-- The checks behind which the loop goes on with the next field. -/
def LogField.skipped (field : LogField) : Bool :=
  field.name.data.isNone || field.name.size = 0 || field.name.size > 255 || field.kind < 1 ||
    field.kind > 5

/-- `text_size`. -/
def LogField.textSize (field : LogField) (recordBytes : Nat) : Nat :=
  if field.kind = 5 ∧ field.text.data.isSome then utf8Prefix field.text.bytes recordBytes else 0

/-- `required`. -/
def LogField.required (field : LogField) (recordBytes : Nat) : Nat :=
  24 + field.name.size.toNat + field.textSize recordBytes

/-- The lines of the loop from `packet.resize` on. -/
def appendField (packet : List UInt8) (field : LogField) (recordBytes : Nat) : List UInt8 :=
  let offset := packet.length
  let textSize := field.textSize recordBytes
  let packet := packet ++ zeros (field.required recordBytes)
  let packet := storeByte packet offset field.kind.toUInt8
  let packet := store32 packet (offset + 4) field.name.size.toNat
  let packet := store32 packet (offset + 8) textSize
  let packet := store64 packet (offset + 12) (if field.kind = 5 then 0 else field.bits.toNat)
  let packet := splice packet (offset + 24) field.name.bytes
  if textSize = 0 then packet
  else splice packet (offset + 24 + field.name.size.toNat) (field.text.bytes.take textSize)

/-- The loop over the fields. -/
def writeFields (recordBytes : Nat) : List LogField → Draft → Draft
  | [], draft => draft
  | field :: fields, draft =>
    if field.skipped then
      writeFields recordBytes fields draft
    else
      let (left, wrapped) := subtract recordBytes draft.packet.length
      if field.required recordBytes > left then
        { draft with
          packet := orByte draft.packet 20 1
          wrapped := draft.wrapped || wrapped }
      else
        writeFields recordBytes fields {
          packet := appendField draft.packet field recordBytes
          encodedFields := draft.encodedFields + 1
          wrapped := draft.wrapped || wrapped }

/-! ### Records -/

/-- The packet that `log_write` enqueues, and whether a subtraction has wrapped around. -/
structure Written where
  packet : List UInt8
  wrapped : Bool

/-- `available`: the bytes that the message may have. -/
def available (recordBytes categorySize : Nat) : Nat × Bool :=
  if recordBytes > 100 + categorySize then
    let (behindHeader, wrapped) := subtract recordBytes 100
    let (left, wrapped') := subtract behindHeader categorySize
    (left, wrapped || wrapped')
  else (0, false)

/-- The vector in front of the loop: the header, the category and the message. -/
def startPacket (sink : LogSink) (thread : LogThread) (level : UInt32)
    (category message : List UInt8) (categorySize messageSize : Nat) : List UInt8 :=
  let packet := zeros (100 + categorySize + messageSize)
  let packet := store64 packet 0 0x31474F4C53464D57
  let packet := storeByte packet 8 1
  let packet := storeByte packet 10 0
  let packet := store32 packet 12 100
  let packet := store32 packet 16 packet.length
  let packet := store32 packet 20
    (if categorySize ≠ category.length ∨ messageSize ≠ message.length then 1 else 0)
  let packet := store32 packet 24 level.toNat
  let packet := store32 packet 32 categorySize
  let packet := store32 packet 36 messageSize
  let packet := store64 packet 44 (sink.sequence + 1).toNat
  let packet := store64 packet 52 thread.timeNs.toNat
  let packet := store64 packet 60 sink.generation.toNat
  let packet := store64 packet 68 thread.submissionId.toNat
  let packet := store64 packet 76 thread.invocationId.toNat
  let packet := store64 packet 84 thread.operationId.toNat
  let packet := splice packet 100 (category.take categorySize)
  splice packet (100 + categorySize) (message.take messageSize)

/-- `log_write`: what it enqueues, or none when it returns early. `fields` is none for a null
pointer. -/
def logWrite (sink : LogSink) (thread : LogThread) (level : UInt32) (message category : TextView)
    (fields : Option (List LogField)) : Option Written :=
  if !logEnabled sink level || message.dangling || category.dangling then none
  else
    let recordBytes := sink.recordBytes.toNat
    let categorySize := utf8Prefix category.bytes 1024
    let (left, wrapped) := available recordBytes categorySize
    let messageSize := utf8Prefix message.bytes (min left 32768)
    let packet := startPacket sink thread level category.bytes message.bytes categorySize
      messageSize
    let draft := writeFields recordBytes ((fields.getD []).take 32)
      { packet, encodedFields := 0, wrapped }
    let packet := store32 draft.packet 16 draft.packet.length
    let packet := store32 packet 28 draft.encodedFields
    some { packet, wrapped := draft.wrapped }

/-- The packet that `LogSink::run` sends in front of another one when records have been
dropped. -/
def synthetic (packet : List UInt8) (droppedBefore : UInt64) : List UInt8 :=
  let packet := orByte packet 20 2
  let packet := storeByte packet 24 30
  store64 packet 92 droppedBefore.toNat

end Wmfs.Log.Native
