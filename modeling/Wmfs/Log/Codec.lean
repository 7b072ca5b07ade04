import Wmfs.Lib.Bytes
import Wmfs.Lib.Document
import Wmfs.Lib.Utf8Prefix

/-!
# `Wmfs.Log.Codec`: the Python codecs of log records

`encode_log_record` and `decode_log_record` exist twice: in the runtime (`wmfs/logging.py`) and
in the SDK (`wmfs_plugin/log_codec.py`). What the two encoders share is `encodeRecord`, with
the places in which their texts differ as fields of an `Encoder`; `decodeRecord` and `Decoder`
do the same for the decoders. `runtimeEncoder` and `sdkEncoder` are the two, and
`Runtime.encodeLogRecord` and `Sdk.encodeLogRecord` the functions of the source.

The SDK packs a field before it compares the size of the packet with the limit, and the runtime
after that. Both compute the same size, so the model packs behind the comparison.

A `float` is its IEEE bits, as `struct` writes it. A `dict` of fields is a list without a
repeated name, in the order of insertion.
-/

set_option autoImplicit false

namespace Wmfs.Log

open Wmfs.Lib
open Wmfs.Lib.Utf8 (Text)

/-! ### Records -/

/-- `LOG_MAGIC`. -/
def LOG_MAGIC : Int := 0x31474F4C53464D57

/-- `LOG_ABI_MAJOR`. -/
def LOG_ABI_MAJOR : Int := 1

/-- `LOG_ABI_MINOR`. -/
def LOG_ABI_MINOR : Int := 0

/-- `LOG_HEADER_SIZE`. -/
def LOG_HEADER_SIZE : Int := 100

/-- `LOG_FIELD_SIZE`. -/
def LOG_FIELD_SIZE : Int := 24

/-- `MAX_LOG_RECORD_BYTES`. -/
def MAX_LOG_RECORD_BYTES : Int := 65536

/-- `MAX_LOG_FIELDS`. -/
def MAX_LOG_FIELDS : Nat := 32

/-- `MAX_LOG_MESSAGE_BYTES`. -/
def MAX_LOG_MESSAGE_BYTES : Int := 32768

/-- `MAX_LOG_CATEGORY_BYTES`. -/
def MAX_LOG_CATEGORY_BYTES : Int := 1024

/-- `MAX_LOG_NAME_BYTES`. -/
def MAX_LOG_NAME_BYTES : Int := 255

/-- `_HEADER`. -/
def HEADER : List Field :=
  [.Q, .H, .H, .I, .I, .I, .I, .I, .I, .I, .I, .Q, .Q, .Q, .Q, .Q, .Q, .Q]

/-- `_FIELD`. -/
def FIELD : List Field := [.H, .H, .I, .I, .Q, .I]

/-- `LogValue`. -/
inductive LogValue where
  | boolean (value : Bool)
  | integer (value : Int)
  | float (bits : UInt64)
  | text (value : Text)
  deriving DecidableEq, Repr

/-- `LogContext`. -/
structure LogContext where
  session : Int
  submission : Int
  invocation : Int
  operation : Int
  deriving DecidableEq, Repr

/-- The `fields` of a record: a dictionary in the order of insertion. -/
@[ext]
structure Fields where
  entries : List (Text × LogValue)
  nodup : (entries.map Prod.fst).Nodup
  deriving DecidableEq

/-- The dictionary without entries. -/
def Fields.empty : Fields := ⟨[], List.nodup_nil⟩

/-- `fields[name] = value` for a name that is not there. -/
def Fields.push (fields : Fields) (name : Text) (value : LogValue)
    (h : name ∉ fields.entries.map Prod.fst) : Fields where
  entries := fields.entries ++ [(name, value)]
  nodup := by
    rw [List.map_append, List.map_singleton, List.nodup_append]
    refine ⟨fields.nodup, List.nodup_singleton _, ?_⟩
    intro a ha b hb heq
    rw [List.mem_singleton] at hb
    rw [heq, hb] at ha
    exact h ha

/-- `LogRecord`. -/
structure LogRecord where
  level : Int
  message : Text
  category : Text
  fields : Fields
  sequence : Int
  timeNs : Int
  context : LogContext
  flags : Int
  droppedBefore : Int
  deriving DecidableEq

/-- What the codecs raise: `LogProtocolError`, `UnicodeEncodeError` and `struct.error`. -/
inductive LogError where
  | protocol (message : String)
  | unicode
  | struct
  deriving DecidableEq, Repr

/-- `level not in {10, 20, 30, 40, 50}`. -/
def unknownLevel (level : Int) : Bool := level ∉ [10, 20, 30, 40, 50]

/-- `flags & ~_KNOWN_FLAGS`: what is left without the two low bits. -/
def unknownFlags (flags : Int) : Bool := flags / 4 ≠ 0

/-- `flags | FLAG_TRUNCATED`. -/
def setTruncated (flags : Int) : Int := if flags % 2 = 0 then flags + 1 else flags

/-! ### Encoding -/

/-- `value.encode("utf-8")`. -/
def encodeText (value : Text) : Except LogError (List UInt8) :=
  match Utf8.encode value with
  | some bytes => .ok bytes
  | none => .error .unicode

/-- `struct.pack`. -/
def structPack (format : List Field) (values : List Int) : Except LogError (List UInt8) :=
  match pack format values with
  | some bytes => .ok bytes
  | none => .error .struct

/-- `_utf8_prefix` and `_text`. No caller passes a negative limit. -/
def utf8Prefix (value : Text) (limit : Int) : Except LogError (List UInt8 × Bool) := do
  let encoded ← encodeText value
  if encoded.length ≤ limit then
    return (encoded, false)
  else
    let kept ← encodeText (Utf8.decodeIgnore (encoded.take limit.toNat))
    return (kept, true)

/-- What is left of a text: its bytes, and whether some are missing. -/
theorem utf8Prefix_eq {value : Text} (limit : Int) (hvalue : (Utf8.encode value).isSome)
    (hlimit : 0 ≤ limit) : ∃ bytes, Utf8.encode (Utf8.cut value limit.toNat) = some bytes ∧
      utf8Prefix value limit = .ok (bytes, decide (limit < Utf8.size value)) := by
  obtain ⟨encoded, hencoded⟩ := Option.isSome_iff_exists.mp hvalue
  have hlength := Utf8.length_of_encode hencoded
  rw [utf8Prefix, encodeText, hencoded, Result.ok_bind]
  by_cases hfits : (encoded.length : Int) ≤ limit
  · refine ⟨encoded, ?_, ?_⟩
    · rw [Utf8.cut_eq_self (by omega), hencoded]
    · rw [if_pos hfits, decide_eq_false (by omega)]
      rfl
  · have hcut := Utf8.encode_prefix_isSome hvalue (Utf8.cut_prefix value limit.toNat)
    obtain ⟨bytes, hbytes⟩ := Option.isSome_iff_exists.mp hcut
    refine ⟨bytes, hbytes, ?_⟩
    rw [if_neg hfits, Utf8.decodeIgnore_take hencoded, encodeText, hbytes, Result.ok_bind,
      decide_eq_true (by omega)]
    rfl

/-- A text without a UTF-8 form cannot be cut. -/
theorem utf8Prefix_eq_error {value : Text} {limit : Int} (hvalue : ¬ (Utf8.encode value).isSome) :
    utf8Prefix value limit = .error .unicode := by
  rw [Option.not_isSome_iff_eq_none] at hvalue
  rw [utf8Prefix, encodeText, hvalue]
  rfl

/-- Where the two encoders differ: the checks of the level and of the limit, the bytes that they
leave to the message, given the limit and the bytes of the category, the kind and the bits of
an integer, and the bytes that they leave to the text of a field, given the limit, the bytes of
category and message, the fields so far and the bytes of the name. -/
structure Encoder where
  checkHeader : Int → Int → Except LogError Unit
  messageBudget : Int → Int → Int
  integer : Int → Except LogError (Int × Int)
  floatError : String
  available : Int → Int → List (List UInt8) → Int → Int

/-- `sum(map(len, encoded_fields))`. -/
def totalLength (parts : List (List UInt8)) : Int := ((parts.map List.length).sum : Nat)

/-- The kind, the bits and the text of a value, and whether the text was cut. -/
def encodeValue (e : Encoder) (limit payload : Int) (parts : List (List UInt8)) (nameSize : Int) :
    LogValue → Except LogError (Int × Int × List UInt8 × Bool)
  | .boolean value => return (1, if value then 1 else 0, [], false)
  | .integer value => do
    let (kind, bits) ← e.integer value
    return (kind, bits, [], false)
  | .float bits => do
    raiseIf (Document.isFinite bits = false) (.protocol e.floatError)
    return (4, bits.toNat, [], false)
  | .text value => do
    let (text, cut) ← utf8Prefix value (max 0 (e.available limit payload parts nameSize))
    return (5, 0, text, cut)

/-- The loop over the fields: `encoded_fields` and `truncated` behind it. -/
def encodeFields (e : Encoder) (limit payload : Int) :
    List (Text × LogValue) → List (List UInt8) → Bool →
      Except LogError (List (List UInt8) × Bool)
  | [], parts, truncated => return (parts, truncated)
  | (name, value) :: items, parts, truncated => do
    let (nameBytes, nameCut) ← utf8Prefix name MAX_LOG_NAME_BYTES
    let (kind, bits, text, textCut) ← encodeValue e limit payload parts nameBytes.length value
    let required := LOG_FIELD_SIZE + nameBytes.length + text.length
    if LOG_HEADER_SIZE + payload + totalLength parts + required > limit then
      return (parts, true)
    else
      let head ← structPack FIELD [kind, 0, nameBytes.length, text.length, bits, 0]
      encodeFields e limit payload items (parts ++ [head ++ nameBytes ++ text])
        (truncated || nameCut || textCut)

/-- The last lines of `encode_log_record`: the flags, the header and the packet. -/
def encodeHeader (record : LogRecord) (category message : List UInt8)
    (parts : List (List UInt8)) (truncated : Bool) : Except LogError (List UInt8) := do
  let flags := if truncated then setTruncated record.flags else record.flags
  raiseIf (unknownFlags flags) (.protocol "unknown log flags")
  let body := category ++ message ++ parts.flatten
  let header ← structPack HEADER [LOG_MAGIC, LOG_ABI_MAJOR, LOG_ABI_MINOR, LOG_HEADER_SIZE,
    LOG_HEADER_SIZE + body.length, flags, record.level, parts.length, category.length,
    message.length, 0, record.sequence, record.timeNs, record.context.session,
    record.context.submission, record.context.invocation, record.context.operation,
    record.droppedBefore]
  return header ++ body

/-- `encode_log_record`. -/
def encodeRecord (e : Encoder) (record : LogRecord) (limit : Int) :
    Except LogError (List UInt8) := do
  e.checkHeader record.level limit
  let fields := record.fields.entries.take MAX_LOG_FIELDS
  let truncated := decide (record.fields.entries.length > MAX_LOG_FIELDS)
  let (category, categoryCut) ← utf8Prefix record.category
    (min MAX_LOG_CATEGORY_BYTES (limit - LOG_HEADER_SIZE))
  let (message, messageCut) ← utf8Prefix record.message (e.messageBudget limit category.length)
  let (parts, truncated) ← encodeFields e limit (category.length + message.length) fields []
    (truncated || categoryCut || messageCut)
  encodeHeader record category message parts truncated

/-- The encoder of the runtime. -/
def runtimeEncoder : Encoder where
  checkHeader level limit := do
    raiseIf (unknownLevel level) (.protocol "invalid log level")
    raiseIf (¬ (LOG_HEADER_SIZE ≤ limit ∧ limit ≤ MAX_LOG_RECORD_BYTES))
      (.protocol "invalid log record limit")
  messageBudget limit category :=
    max 0 (min MAX_LOG_MESSAGE_BYTES (limit - LOG_HEADER_SIZE - category))
  integer value := do
    if value < 0 then
      raiseIf (value < -2 ^ 63) (.protocol "signed log field is outside int64")
      return (2, value % 2 ^ 64)
    else
      raiseIf (value > 2 ^ 64 - 1) (.protocol "unsigned log field is outside uint64")
      return (3, value)
  floatError := "float log fields must be finite"
  -- The names and the texts of the fields so far are not subtracted.
  available limit payload parts nameSize :=
    limit - LOG_HEADER_SIZE - payload - (parts.length + 1) * LOG_FIELD_SIZE - nameSize

/-- The encoder of the SDK. -/
def sdkEncoder : Encoder where
  checkHeader level limit :=
    raiseIf (unknownLevel level ∨ ¬ (LOG_HEADER_SIZE ≤ limit ∧ limit ≤ MAX_LOG_RECORD_BYTES))
      (.protocol "invalid log record header value")
  messageBudget limit category :=
    min MAX_LOG_MESSAGE_BYTES (max 0 (limit - LOG_HEADER_SIZE - category))
  integer value := do
    raiseIf (¬ (-2 ^ 63 ≤ value ∧ value ≤ 2 ^ 64 - 1))
      (.protocol "integer log field is out of range")
    return (if value < 0 then 2 else 3, value % 2 ^ 64)
  floatError := "float log field must be finite"
  available limit payload parts nameSize :=
    limit - LOG_HEADER_SIZE - payload - totalLength parts - LOG_FIELD_SIZE - nameSize

/-- `encode_log_record` of the runtime. -/
def Runtime.encodeLogRecord (record : LogRecord) (limit : Int) : Except LogError (List UInt8) :=
  encodeRecord runtimeEncoder record limit

/-- `encode_log_record` of the SDK. -/
def Sdk.encodeLogRecord (record : LogRecord) (limit : Int) : Except LogError (List UInt8) :=
  encodeRecord sdkEncoder record limit

/-! ### Decoding -/

/-- `bytes.decode("utf-8")` in a `try` that raises `LogProtocolError` with the message. -/
def decodeText (bytes : List UInt8) (message : String) : Except LogError Text :=
  match Utf8.decode bytes with
  | some text => .ok text
  | none => .error (.protocol message)

/-- Where the two decoders differ: the checks of the header up to its texts, given the size of
the packet and the values of the header, whether bits stand for a negative integer, and the
messages for bits that are no Boolean and no finite float. -/
structure Decoder where
  checkHeader : Int → List Int → Except LogError Unit
  negative : Int → Bool
  booleanError : String
  floatError : String

/-- The value of a field. -/
def decodeValue (d : Decoder) (kind bits : Int) (text : Text) : Except LogError LogValue :=
  if kind = 1 then do
    raiseIf (bits ∉ [0, 1]) (.protocol d.booleanError)
    return .boolean (decide (bits ≠ 0))
  else if kind = 2 then
    return .integer (if d.negative bits then bits - 2 ^ 64 else bits)
  else if kind = 3 then
    return .integer bits
  else if kind = 4 then do
    raiseIf (Document.isFinite (.ofNat bits.toNat) = false) (.protocol d.floatError)
    return .float (.ofNat bits.toNat)
  else
    return .text text

/-- An iteration of the loop over the fields: the fields with one more, and the offset behind
it. -/
def decodeField (d : Decoder) (packet : List UInt8) (fields : Fields) (offset : Nat) :
    Except LogError (Fields × Nat) := do
  raiseIf (offset + 24 > packet.length) (.protocol "truncated log field")
  match unpack FIELD (slice packet offset 24) with
  | [kind, flags, nameSize, textSize, bits, reserved] =>
    let offset := offset + 24
    let stop := offset + nameSize.toNat + textSize.toNat
    raiseIf (flags ≠ 0 ∨ reserved ≠ 0 ∨ nameSize = 0 ∨ nameSize > MAX_LOG_NAME_BYTES ∨
      stop > packet.length ∨ kind ∉ [1, 2, 3, 4, 5]) (.protocol "invalid log field")
    let name ← decodeText (slice packet offset nameSize.toNat) "log field is not UTF-8"
    let text ← decodeText (slice packet (offset + nameSize.toNat) textSize.toNat)
      "log field is not UTF-8"
    if h : name ∈ fields.entries.map Prod.fst then
      throw (.protocol "inconsistent log field")
    else do
      raiseIf ((kind ≠ 5 ∧ textSize ≠ 0) ∨ (kind = 5 ∧ bits ≠ 0))
        (.protocol "inconsistent log field")
      let value ← decodeValue d kind bits text
      return (fields.push name value h, stop)
  | _ => throw .struct

/-- The loop over the fields, `count` more times. -/
def decodeFields (d : Decoder) (packet : List UInt8) :
    Nat → Fields → Nat → Except LogError (Fields × Nat)
  | 0, fields, offset => return (fields, offset)
  | count + 1, fields, offset => do
    let (fields, offset) ← decodeField d packet fields offset
    decodeFields d packet count fields offset

/-- `decode_log_record`. -/
def decodeRecord (d : Decoder) (packet : List UInt8) : Except LogError LogRecord := do
  raiseIf (packet.length < LOG_HEADER_SIZE ∨ packet.length > MAX_LOG_RECORD_BYTES)
    (.protocol "invalid log packet size")
  let values := unpack HEADER packet
  d.checkHeader packet.length values
  match values with
  | [_, _, _, _, _, flags, level, count, categorySize, messageSize, _, sequence, timeNs, session,
      submission, invocation, operation, droppedBefore] =>
    let middle := 100 + categorySize.toNat
    let variableEnd := middle + messageSize.toNat
    raiseIf (categorySize > MAX_LOG_CATEGORY_BYTES ∨ messageSize > MAX_LOG_MESSAGE_BYTES ∨
      variableEnd > packet.length) (.protocol "invalid log text bounds")
    let category ← decodeText (slice packet 100 categorySize.toNat) "log text is not UTF-8"
    let message ← decodeText (slice packet middle messageSize.toNat) "log text is not UTF-8"
    let (fields, offset) ← decodeFields d packet count.toNat .empty variableEnd
    raiseIf (offset ≠ packet.length) (.protocol "trailing log packet data")
    return {
      level, message, category, fields, sequence, timeNs
      context := { session, submission, invocation, operation }
      flags, droppedBefore }
  | _ => throw .struct

/-- The decoder of the runtime. -/
def runtimeDecoder : Decoder where
  checkHeader size
    | magic :: major :: minor :: header :: total :: flags :: level :: count :: _ :: _ ::
        reserved :: _ => do
      raiseIf (magic ≠ LOG_MAGIC ∨ major ≠ LOG_ABI_MAJOR ∨ minor > LOG_ABI_MINOR)
        (.protocol "unsupported log ABI")
      raiseIf (header ≠ LOG_HEADER_SIZE ∨ total ≠ size ∨ unknownFlags flags)
        (.protocol "invalid log header")
      raiseIf (unknownLevel level ∨ count > MAX_LOG_FIELDS ∨ reserved ≠ 0)
        (.protocol "invalid log header value")
    | _ => throw .struct
  -- `bits & (1 << 63)`.
  negative bits := bits / 2 ^ 63 % 2 ≠ 0
  booleanError := "invalid Boolean log field"
  floatError := "non-finite float log field"

/-- The decoder of the SDK. -/
def sdkDecoder : Decoder where
  checkHeader size
    | magic :: major :: minor :: header :: total :: flags :: level :: count :: _ :: _ ::
        reserved :: _ => do
      raiseIf (magic ≠ LOG_MAGIC ∨ major ≠ 1 ∨ minor > 0 ∨ header ≠ LOG_HEADER_SIZE ∨
        total ≠ size) (.protocol "unsupported or invalid log header")
      raiseIf (unknownFlags flags ∨ unknownLevel level ∨ count > MAX_LOG_FIELDS ∨ reserved ≠ 0)
        (.protocol "invalid log header value")
    | _ => throw .struct
  -- `bits >> 63`.
  negative bits := bits / 2 ^ 63 ≠ 0
  booleanError := "invalid Boolean field"
  floatError := "non-finite float field"

/-- `decode_log_record` of the runtime. -/
def Runtime.decodeLogRecord (packet : List UInt8) : Except LogError LogRecord :=
  decodeRecord runtimeDecoder packet

/-- `decode_log_record` of the SDK. -/
def Sdk.decodeLogRecord (packet : List UInt8) : Except LogError LogRecord :=
  decodeRecord sdkDecoder packet

end Wmfs.Log
