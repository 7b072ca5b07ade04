import Wmfs.Lib.Bytes
import Wmfs.Lib.Utf8

/-!
# `Wmfs.Control.Codec`: the Python codecs of the control protocol

The control protocol carries the startup of a worker, the transfer of file descriptors and the
lifecycle of a session. A packet is a frame header of 32 bytes and a payload, whose layout
depends on the kind of the frame. `wmfs.protocol.control` is the codec of the runtime, and
`wmfs_plugin.control` is the copy of the plugin SDK, here in the namespace `Sdk`. The values are
the same in both. The copies group their checks differently, and word them differently.

An `IntEnum` is an inductive type with the numbers of its members. An `IntFlag` keeps unknown
bits, so it is a number.
-/

set_option autoImplicit false

namespace Wmfs.Control

open Wmfs.Lib
open Wmfs.Lib.Utf8 (Text)

/-! ### Enumerations -/

/-- `enum.IntEnum`: the members and their numbers. -/
class IntEnum (α : Type) where
  members : List α
  value : α → Int
  mem_members : ∀ member, member ∈ members
  value_injective : ∀ {a b}, value a = value b → a = b

/-- The member with a number, for `Kind(n)` and its like. The call raises when there is none. -/
def IntEnum.ofValue {α : Type} [IntEnum α] (n : Int) : Option α :=
  (IntEnum.members (α := α)).find? fun member => IntEnum.value member = n

/-- A number names the member with that value. -/
theorem IntEnum.ofValue_eq_some_iff {α : Type} [IntEnum α] {n : Int} {member : α} :
    IntEnum.ofValue n = some member ↔ IntEnum.value member = n := by
  constructor
  · intro h
    have hfound := List.find?_some h
    rwa [decide_eq_true_eq] at hfound
  · intro h
    cases hfind : (IntEnum.ofValue n : Option α) with
    | none =>
      have hnone := List.find?_eq_none.mp hfind member (IntEnum.mem_members member)
      rw [decide_eq_true_eq] at hnone
      exact absurd h hnone
    | some found =>
      have hfound := List.find?_some hfind
      rw [decide_eq_true_eq] at hfound
      rw [IntEnum.value_injective (hfound.trans h.symm)]

/-- `Kind`. -/
inductive Kind where
  | startupRequest | startupResponse | ping | pong | shutdown | shutdownAck | errorResponse
  | fdTransfer | fdTransferAck
  deriving DecidableEq, Repr

/-- The numbers of the frame kinds. -/
def Kind.value : Kind → Int
  | startupRequest => 1
  | startupResponse => 2
  | ping => 3
  | pong => 4
  | shutdown => 5
  | shutdownAck => 6
  | errorResponse => 7
  | fdTransfer => 16
  | fdTransferAck => 17

instance : IntEnum Kind where
  members := [.startupRequest, .startupResponse, .ping, .pong, .shutdown, .shutdownAck,
    .errorResponse, .fdTransfer, .fdTransferAck]
  value := Kind.value
  mem_members member := by cases member <;> decide
  value_injective {a b} h := by cases a <;> cases b <;> first | rfl | cases h

/-- `Status`. -/
inductive Status where
  | ok | invalidArgument | unsupported | identityMismatch | configurationRejected
  | internalError
  deriving DecidableEq, Repr

/-- The numbers of the status codes. -/
def Status.value : Status → Int
  | ok => 0
  | invalidArgument => 1
  | unsupported => 2
  | identityMismatch => 3
  | configurationRejected => 4
  | internalError => 5

instance : IntEnum Status where
  members := [.ok, .invalidArgument, .unsupported, .identityMismatch, .configurationRejected,
    .internalError]
  value := Status.value
  mem_members member := by cases member <;> decide
  value_injective {a b} h := by cases a <;> cases b <;> first | rfl | cases h

/-- `LogMode`. -/
inductive LogMode where
  | disabled | centralized | workerFile
  deriving DecidableEq, Repr

/-- The numbers of the log modes. -/
def LogMode.value : LogMode → Int
  | disabled => 0
  | centralized => 1
  | workerFile => 2

instance : IntEnum LogMode where
  members := [.disabled, .centralized, .workerFile]
  value := LogMode.value
  mem_members member := by cases member <;> decide
  value_injective {a b} h := by cases a <;> cases b <;> first | rfl | cases h

/-- `DescriptorRole`. -/
inductive DescriptorRole where
  | commandRing | commandDataEvent | commandSpaceEvent | completionRing | completionDataEvent
  | completionSpaceEvent | fdControl | log
  deriving DecidableEq, Repr

/-- The numbers of the descriptor roles. -/
def DescriptorRole.value : DescriptorRole → Int
  | commandRing => 1
  | commandDataEvent => 2
  | commandSpaceEvent => 3
  | completionRing => 4
  | completionDataEvent => 5
  | completionSpaceEvent => 6
  | fdControl => 7
  | log => 8

instance : IntEnum DescriptorRole where
  members := [.commandRing, .commandDataEvent, .commandSpaceEvent, .completionRing,
    .completionDataEvent, .completionSpaceEvent, .fdControl, .log]
  value := DescriptorRole.value
  mem_members member := by cases member <;> decide
  value_injective {a b} h := by cases a <;> cases b <;> first | rfl | cases h

/-- `FdEntryKind`. -/
inductive FdEntryKind where
  | map | retire
  deriving DecidableEq, Repr

/-- The numbers of the entry kinds. -/
def FdEntryKind.value : FdEntryKind → Int
  | map => 1
  | retire => 2

instance : IntEnum FdEntryKind where
  members := [.map, .retire]
  value := FdEntryKind.value
  mem_members member := by cases member <;> decide
  value_injective {a b} h := by cases a <;> cases b <;> first | rfl | cases h

/-! ### Values -/

/-- `Frame`. -/
structure Frame where
  kind : Kind
  requestId : Int
  payload : List UInt8
  deriving DecidableEq, Repr

/-- `Startup`. -/
structure Startup where
  sessionGeneration : Int
  interfaceFingerprint : List UInt8
  configurationFingerprint : List UInt8
  metadataFingerprint : Int
  capabilities : Int
  operationCount : Int
  protocolVersion : Int
  configurationSchemaVersion : Int
  config : List UInt8 := []
  descriptorRoles : List DescriptorRole := []
  logMode : LogMode := .disabled
  status : Status := .ok
  deriving DecidableEq, Repr

/-- `FdEntry`. -/
structure FdEntry where
  kind : FdEntryKind
  bufferId : Int
  generation : Int
  allocationId : Int
  invocationId : Int
  byteLength : Int
  flags : Int := 0
  deriving DecidableEq, Repr

/-- `FdBatch`. -/
structure FdBatch where
  transferId : Int
  sessionGeneration : Int
  entries : List FdEntry
  deriving DecidableEq, Repr

/-- `FdBatch.fd_count`. -/
def FdBatch.fdCount (batch : FdBatch) : Nat :=
  batch.entries.countP fun entry => entry.kind = .map

/-- `FdAck`. -/
structure FdAck where
  transferId : Int
  sessionGeneration : Int
  status : Status := .ok
  error : Text := []
  deriving DecidableEq, Repr

/-- `ErrorResponse`. -/
structure ErrorResponse where
  status : Status
  message : Text
  deriving DecidableEq, Repr

/-! ### Constants and formats -/

/-- `MAGIC`. -/
def MAGIC : Int := 0x314C544353464D57

/-- `ABI_MAJOR`. -/
def ABI_MAJOR : Int := 1

/-- `ABI_MINOR`. -/
def ABI_MINOR : Int := 0

/-- `FRAME_HEADER_SIZE`. -/
def FRAME_HEADER_SIZE : Nat := 32

/-- `STARTUP_FIXED_SIZE`. -/
def STARTUP_FIXED_SIZE : Nat := 112

/-- `MAX_CONFIG_BYTES`. -/
def MAX_CONFIG_BYTES : Nat := 65536

/-- `MAX_PACKET_BYTES`. -/
def MAX_PACKET_BYTES : Nat := 69632

/-- `MAX_ERROR_BYTES`. -/
def MAX_ERROR_BYTES : Nat := 1024

/-- `MAX_DESCRIPTOR_ROLES`. -/
def MAX_DESCRIPTOR_ROLES : Nat := 16

/-- `MAX_FD_ENTRIES`. -/
def MAX_FD_ENTRIES : Nat := 240

/-- `FD_BATCH_TRANSACTIONAL`. -/
def FD_BATCH_TRANSACTIONAL : Int := 1

/-- `_FRAME`, `"<QHHHHIIQ"`. -/
def FRAME : List Field := [.Q, .H, .H, .H, .H, .I, .I, .Q]

/-- The first field of `_STARTUP`, `"<Q32s32sQQIIIIHHI"`. Two digests of 32 bytes follow it. -/
def STARTUP_HEAD : List Field := [.Q]

/-- The fields of `_STARTUP` behind the digests. -/
def STARTUP_TAIL : List Field := [.Q, .Q, .I, .I, .I, .I, .H, .H, .I]

/-- `_ROLE`, `"<HHI"`. -/
def ROLE : List Field := [.H, .H, .I]

/-- `_FD_BATCH`, `"<QQHHIQ"`. -/
def FD_BATCH : List Field := [.Q, .Q, .H, .H, .I, .Q]

/-- `_FD_ENTRY`, `"<IIQQQQQ"`. -/
def FD_ENTRY : List Field := [.I, .I, .Q, .Q, .Q, .Q, .Q]

/-- `_FD_ACK`, `"<QQIIII"`. -/
def FD_ACK : List Field := [.Q, .Q, .I, .I, .I, .I]

/-- `_ERROR`, `"<II"`. -/
def ERROR : List Field := [.I, .I]

/-! ### Steps that may raise -/

/-- The exceptions that leave the codec. -/
inductive Exn where
  | protocolError (message : String)
  | structError
  | unicodeEncodeError
  deriving DecidableEq, Repr

/-- `if bad: raise ProtocolError(message)`. -/
def refuse (bad : Prop) [Decidable bad] (message : String) : Except Exn Unit :=
  if bad then .error (.protocolError message) else .ok ()

/-- `try: member = Enum(n)`, and a `ProtocolError` when there is no such member. -/
def parseEnum {α : Type} [IntEnum α] (n : Int) (message : String) : Except Exn α :=
  match IntEnum.ofValue n with
  | some member => .ok member
  | none => .error (.protocolError message)

/-- `struct.pack`. -/
def structPack (format : List Field) (values : List Int) : Except Exn (List UInt8) :=
  match pack format values with
  | some bytes => .ok bytes
  | none => .error .structError

/-- A field of the format `32s`. -/
def digest (bytes : List UInt8) : List UInt8 := padTo 32 (bytes.take 32)

/-- `text.encode("utf-8")`. -/
def encodeText (text : Text) : Except Exn (List UInt8) :=
  match Utf8.encode text with
  | some bytes => .ok bytes
  | none => .error .unicodeEncodeError

/-- `_validate_utf8`, with the text that was validated. -/
def validateUtf8 (value : List UInt8) (name : String) : Except Exn Text :=
  match Utf8.decode value with
  | some text => .ok text
  | none => .error (.protocolError (name ++ " is not valid UTF-8"))

/-- `_u64`. -/
def u64 (value : Int) (name : String) : Except Exn Unit :=
  refuse (¬ (0 ≤ value ∧ value ≤ 0xFFFFFFFFFFFFFFFF)) (name ++ " is outside uint64")

/-- `_u32`. -/
def u32 (value : Int) (name : String) : Except Exn Unit :=
  refuse (¬ (0 ≤ value ∧ value ≤ 0xFFFFFFFF)) (name ++ " is outside uint32")

/-! ### The codec of the runtime -/

/-- `encode_frame`. -/
def encodeFrame (kind : Kind) (requestId : Int) (payload : List UInt8) :
    Except Exn (List UInt8) := do
  u64 requestId "request ID"
  refuse (payload.length > MAX_PACKET_BYTES - FRAME_HEADER_SIZE)
    "control frame exceeds the packet limit"
  let header ← structPack FRAME [MAGIC, ABI_MAJOR, ABI_MINOR, kind.value, 0, FRAME_HEADER_SIZE,
    payload.length, requestId]
  return header ++ payload

/-- `decode_frame`. -/
def decodeFrame (packet : List UInt8) : Except Exn Frame := do
  refuse (packet.length < FRAME_HEADER_SIZE ∨ packet.length > MAX_PACKET_BYTES)
    "invalid control packet size"
  match unpack FRAME packet with
  | [magic, major, minor, kind, flags, headerSize, payloadSize, requestId] =>
    refuse (magic ≠ MAGIC ∨ major ≠ ABI_MAJOR ∨ minor > ABI_MINOR)
      "unsupported control frame ABI"
    refuse (flags ≠ 0 ∨ headerSize ≠ FRAME_HEADER_SIZE) "invalid control frame header"
    refuse (payloadSize ≠ packet.length - FRAME_HEADER_SIZE)
      "control frame payload size mismatch"
    let frameKind ← parseEnum kind "unknown control frame kind"
    return ⟨frameKind, requestId, packet.drop FRAME_HEADER_SIZE⟩
  | _ => throw .structError

/-- The first lines of the decoders: a frame of the expected kind whose payload has room for
its fixed part. `parse` is the rest. -/
def decodeFramed {α : Type} (frame : Except Exn Frame) (kind : Kind) (size : Nat)
    (message : String) (parse : List UInt8 → Except Exn α) : Except Exn (Int × α) := do
  let frame ← frame
  refuse (frame.kind ≠ kind ∨ frame.payload.length < size) message
  let result ← parse frame.payload
  return (frame.requestId, result)

/-- `Kind.STARTUP_RESPONSE if response else Kind.STARTUP_REQUEST`. -/
def startupKind (response : Bool) : Kind :=
  if response then .startupResponse else .startupRequest

/-- `_ROLE.pack(int(role), 0, 0)`. -/
def encodeRole (role : DescriptorRole) : Except Exn (List UInt8) :=
  structPack ROLE [role.value, 0, 0]

/-- The values of `_STARTUP` behind the digests. -/
def Startup.tail (startup : Startup) : List Int :=
  [startup.metadataFingerprint, startup.capabilities, startup.operationCount,
    startup.protocolVersion, startup.configurationSchemaVersion, startup.config.length,
    startup.descriptorRoles.length, startup.logMode.value, startup.status.value]

/-- `payload` of `encode_startup`, behind its checks. -/
def Startup.bytes (startup : Startup) : Except Exn (List UInt8) := do
  let head ← structPack STARTUP_HEAD [startup.sessionGeneration]
  let tail ← structPack STARTUP_TAIL startup.tail
  let roles ← concatArray encodeRole startup.descriptorRoles
  return head ++ digest startup.interfaceFingerprint ++
    digest startup.configurationFingerprint ++ tail ++ roles ++ startup.config

/-- `encode_startup`. -/
def encodeStartup (startup : Startup) (response : Bool) (requestId : Int) :
    Except Exn (List UInt8) := do
  let _ ← validateUtf8 startup.config "configuration"
  refuse (startup.config.length > MAX_CONFIG_BYTES) "configuration exceeds 64 KiB"
  refuse (startup.interfaceFingerprint.length ≠ 32 ∨ startup.configurationFingerprint.length ≠ 32)
    "startup fingerprints must be SHA-256 digests"
  refuse (startup.descriptorRoles.length > MAX_DESCRIPTOR_ROLES)
    "too many startup descriptor roles"
  u64 startup.sessionGeneration "session generation"
  u64 startup.metadataFingerprint "metadata fingerprint"
  u64 startup.capabilities "capabilities"
  u32 startup.operationCount "operation count"
  u32 startup.protocolVersion "protocol version"
  u32 startup.configurationSchemaVersion "configuration schema version"
  let payload ← startup.bytes
  encodeFrame (startupKind response) requestId payload

/-- An iteration of the loop over the roles. -/
def decodeRole (payload : List UInt8) (offset : Nat) : Except Exn DescriptorRole := do
  match unpack ROLE (payload.drop offset) with
  | [role, flags, reserved] =>
    refuse (flags ≠ 0 ∨ reserved ≠ 0) "invalid descriptor role flags"
    parseEnum role "unknown descriptor role"
  | _ => throw .structError

/-- `decode_startup` behind the frame. -/
def parseStartup (payload : List UInt8) : Except Exn Startup := do
  match unpack STARTUP_HEAD payload, unpack STARTUP_TAIL (payload.drop 72) with
  | [sessionGeneration], [metadataFingerprint, capabilities, operationCount, protocolVersion,
      configurationSchemaVersion, configLength, roleCount, logMode, status] =>
    refuse (configLength > MAX_CONFIG_BYTES ∨ roleCount > MAX_DESCRIPTOR_ROLES)
      "startup variable field exceeds its limit"
    let rolesEnd := STARTUP_FIXED_SIZE + roleCount.toNat * 8
    refuse (rolesEnd + configLength ≠ payload.length) "startup payload size mismatch"
    let roles ← readArray (decodeRole payload) STARTUP_FIXED_SIZE 8 0 roleCount.toNat
    let config := payload.drop rolesEnd
    let _ ← validateUtf8 config "configuration"
    let logMode ← parseEnum logMode "unknown startup enum value"
    let status ← parseEnum status "unknown startup enum value"
    return {
      sessionGeneration := sessionGeneration
      interfaceFingerprint := slice payload 8 32
      configurationFingerprint := slice payload 40 32
      metadataFingerprint := metadataFingerprint
      capabilities := capabilities
      operationCount := operationCount
      protocolVersion := protocolVersion
      configurationSchemaVersion := configurationSchemaVersion
      config := config
      descriptorRoles := roles
      logMode := logMode
      status := status }
  | _, _ => throw .structError

/-- `decode_startup`. -/
def decodeStartup (packet : List UInt8) (response : Bool) : Except Exn (Int × Startup) :=
  decodeFramed (decodeFrame packet) (startupKind response) STARTUP_FIXED_SIZE
    "unexpected or truncated startup frame" parseStartup

/-- The values of `_FD_ENTRY`. -/
def FdEntry.values (entry : FdEntry) : List Int :=
  [entry.kind.value, entry.flags, entry.bufferId, entry.generation, entry.allocationId,
    entry.invocationId, entry.byteLength]

/-- An iteration of the loop over the entries in `encode_fd_batch`. `flags & ~3` is zero when
`flags / 4` is. -/
def encodeEntry (entry : FdEntry) : Except Exn (List UInt8) := do
  refuse (entry.kind ≠ .map ∧ entry.kind ≠ .retire) "unknown FD entry kind"
  refuse (entry.flags / 4 ≠ 0) "unknown FD entry flags"
  refuse (entry.kind = .retire ∧ entry.flags ≠ 0) "RETIRE entries cannot carry MAP flags"
  u64 entry.bufferId "buffer ID"
  u64 entry.generation "generation"
  u64 entry.allocationId "allocation ID"
  u64 entry.invocationId "invocation ID"
  u64 entry.byteLength "byte length"
  structPack FD_ENTRY entry.values

/-- `encode_fd_batch`. -/
def encodeFdBatch (batch : FdBatch) (requestId : Int) : Except Exn (List UInt8) := do
  refuse (batch.entries = [] ∨ batch.entries.length > MAX_FD_ENTRIES)
    "FD batch entry count must be between 1 and 240"
  u64 batch.transferId "transfer ID"
  u64 batch.sessionGeneration "session generation"
  let encoded ← concatArray encodeEntry batch.entries
  let head ← structPack FD_BATCH [batch.transferId, batch.sessionGeneration,
    batch.entries.length, batch.fdCount, FD_BATCH_TRANSACTIONAL, 0]
  encodeFrame .fdTransfer requestId (head ++ encoded)

/-- An iteration of the loop over the entries in `decode_fd_batch`. -/
def decodeEntry (payload : List UInt8) (offset : Nat) : Except Exn FdEntry := do
  match unpack FD_ENTRY (payload.drop offset) with
  | [kind, flags, bufferId, generation, allocationId, invocationId, byteLength] =>
    let kind ← parseEnum kind "unknown FD entry value"
    refuse (flags / 4 ≠ 0) "unknown FD entry flags"
    refuse (kind = FdEntryKind.retire ∧ flags ≠ 0) "RETIRE entries cannot carry MAP flags"
    return ⟨kind, bufferId, generation, allocationId, invocationId, byteLength, flags⟩
  | _ => throw .structError

/-- The loop over the entries in `decode_fd_batch`, with `entries` and `maps`. -/
def decodeEntries (payload : List UInt8) :
    Nat → Nat → List FdEntry → Int → Except Exn (List FdEntry × Int)
  | _, 0, entries, maps => .ok (entries, maps)
  | index, count + 1, entries, maps => do
    let entry ← decodeEntry payload (32 + index * 48)
    decodeEntries payload (index + 1) count (entries ++ [entry])
      (maps + if entry.kind = .map then 1 else 0)

/-- `decode_fd_batch` behind the frame. -/
def parseFdBatch (payload : List UInt8) : Except Exn FdBatch := do
  match unpack FD_BATCH payload with
  | [transferId, generation, count, fdCount, flags, reserved] =>
    refuse (count = 0 ∨ count > MAX_FD_ENTRIES ∨ flags ≠ FD_BATCH_TRANSACTIONAL ∨ reserved ≠ 0)
      "invalid FD batch header"
    refuse (payload.length ≠ 32 + count * 48) "FD batch payload size mismatch"
    let (entries, maps) ← decodeEntries payload 0 count.toNat [] 0
    refuse (maps ≠ fdCount) "FD count does not match ordered MAP entries"
    return ⟨transferId, generation, entries⟩
  | _ => throw .structError

/-- `decode_fd_batch`. -/
def decodeFdBatch (packet : List UInt8) : Except Exn (Int × FdBatch) :=
  decodeFramed (decodeFrame packet) .fdTransfer 32
    "unexpected or truncated FD transfer frame" parseFdBatch

/-- `encode_fd_ack`. -/
def encodeFdAck (ack : FdAck) (requestId : Int) : Except Exn (List UInt8) := do
  let error ← encodeText ack.error
  refuse (error.length > MAX_ERROR_BYTES) "FD acknowledgement error exceeds its limit"
  let head ← structPack FD_ACK [ack.transferId, ack.sessionGeneration, ack.status.value, 0,
    error.length, 0]
  encodeFrame .fdTransferAck requestId (head ++ error)

/-- `decode_fd_ack` behind the frame. -/
def parseFdAck (payload : List UInt8) : Except Exn FdAck := do
  match unpack FD_ACK payload with
  | [transferId, generation, status, flags, errorLength, reserved] =>
    refuse (flags ≠ 0 ∨ reserved ≠ 0 ∨ errorLength > MAX_ERROR_BYTES ∨
      payload.length ≠ 32 + errorLength) "invalid FD acknowledgement"
    let error ← validateUtf8 (payload.drop 32) "FD acknowledgement error"
    let status ← parseEnum status "unknown acknowledgement status"
    return ⟨transferId, generation, status, error⟩
  | _ => throw .structError

/-- `decode_fd_ack`. -/
def decodeFdAck (packet : List UInt8) : Except Exn (Int × FdAck) :=
  decodeFramed (decodeFrame packet) .fdTransferAck 32
    "unexpected or truncated FD acknowledgement" parseFdAck

/-- `encode_error`. -/
def encodeError (error : ErrorResponse) (requestId : Int) : Except Exn (List UInt8) := do
  let message ← encodeText error.message
  refuse (error.status = .ok ∨ message.length > MAX_ERROR_BYTES) "invalid error response"
  let head ← structPack ERROR [error.status.value, message.length]
  encodeFrame .errorResponse requestId (head ++ message)

/-- `decode_error` behind the frame. -/
def parseError (payload : List UInt8) : Except Exn ErrorResponse := do
  match unpack ERROR payload with
  | [status, length] =>
    let message := payload.drop 8
    refuse (status = 0 ∨ length > MAX_ERROR_BYTES ∨ message.length ≠ length)
      "invalid error response"
    let message ← validateUtf8 message "error response"
    let status ← parseEnum status "unknown error status"
    return ⟨status, message⟩
  | _ => throw .structError

/-- `decode_error`. -/
def decodeError (packet : List UInt8) : Except Exn (Int × ErrorResponse) :=
  decodeFramed (decodeFrame packet) .errorResponse 8
    "unexpected or truncated error response" parseError

/-- The kinds with an empty payload. -/
def Kind.isEmpty (kind : Kind) : Bool :=
  kind = .ping || kind = .pong || kind = .shutdown || kind = .shutdownAck

/-- `encode_empty`. -/
def encodeEmpty (kind : Kind) (requestId : Int) : Except Exn (List UInt8) := do
  refuse (¬ kind.isEmpty) "frame kind does not have an empty payload"
  encodeFrame kind requestId []

/-! ### The codec of the SDK -/

namespace Sdk

/-- `_uint`. -/
def uint (value : Int) (name : String) (bits : Nat) : Except Exn Unit :=
  refuse (¬ (0 ≤ value ∧ value < 2 ^ bits)) (name ++ " is outside uint" ++ toString bits)

/-- `encode_frame`. -/
def encodeFrame (kind : Kind) (requestId : Int) (payload : List UInt8) :
    Except Exn (List UInt8) := do
  uint requestId "request ID" 64
  refuse (payload.length > MAX_PACKET_BYTES - FRAME_HEADER_SIZE)
    "control frame exceeds the packet limit"
  let header ← structPack FRAME [MAGIC, ABI_MAJOR, ABI_MINOR, kind.value, 0, FRAME_HEADER_SIZE,
    payload.length, requestId]
  return header ++ payload

/-- `decode_frame`. -/
def decodeFrame (packet : List UInt8) : Except Exn Frame := do
  refuse (packet.length < 32 ∨ packet.length > MAX_PACKET_BYTES) "invalid control packet size"
  match unpack FRAME packet with
  | [magic, major, minor, kind, flags, header, size, request] =>
    refuse (magic ≠ MAGIC ∨ major ≠ ABI_MAJOR ∨ minor > ABI_MINOR)
      "unsupported control frame ABI"
    refuse (flags ≠ 0 ∨ header ≠ 32 ∨ size ≠ packet.length - 32)
      "invalid control frame header or size"
    let parsed ← parseEnum kind "unknown control frame kind"
    return ⟨parsed, request, packet.drop 32⟩
  | _ => throw .structError

/-- `encode_startup`. -/
def encodeStartup (startup : Startup) (response : Bool) (requestId : Int) :
    Except Exn (List UInt8) := do
  let _ ← validateUtf8 startup.config "configuration"
  refuse (startup.config.length > MAX_CONFIG_BYTES ∨ startup.interfaceFingerprint.length ≠ 32 ∨
    startup.configurationFingerprint.length ≠ 32) "invalid startup variable field"
  refuse (startup.descriptorRoles.length > MAX_DESCRIPTOR_ROLES)
    "too many startup descriptor roles"
  uint startup.sessionGeneration "session generation" 64
  uint startup.metadataFingerprint "metadata fingerprint" 64
  uint startup.capabilities "capabilities" 64
  uint startup.operationCount "operation count" 32
  uint startup.protocolVersion "protocol version" 32
  uint startup.configurationSchemaVersion "configuration schema version" 32
  let payload ← startup.bytes
  encodeFrame (startupKind response) requestId payload

/-- `decode_startup` behind the frame. -/
def parseStartup (payload : List UInt8) : Except Exn Startup := do
  match unpack STARTUP_HEAD payload, unpack STARTUP_TAIL (payload.drop 72) with
  | [sessionGeneration], [metadataFingerprint, capabilities, operationCount, protocolVersion,
      configurationSchemaVersion, configLength, roleCount, logMode, status] =>
    let rolesEnd := 112 + roleCount.toNat * 8
    refuse (configLength > MAX_CONFIG_BYTES ∨ roleCount > MAX_DESCRIPTOR_ROLES ∨
      rolesEnd + configLength ≠ payload.length) "startup payload size mismatch"
    let roles ← readArray (decodeRole payload) 112 8 0 roleCount.toNat
    let config := payload.drop rolesEnd
    let _ ← validateUtf8 config "configuration"
    let logMode ← parseEnum logMode "unknown startup enum value"
    let status ← parseEnum status "unknown startup enum value"
    return {
      sessionGeneration := sessionGeneration
      interfaceFingerprint := slice payload 8 32
      configurationFingerprint := slice payload 40 32
      metadataFingerprint := metadataFingerprint
      capabilities := capabilities
      operationCount := operationCount
      protocolVersion := protocolVersion
      configurationSchemaVersion := configurationSchemaVersion
      config := config
      descriptorRoles := roles
      logMode := logMode
      status := status }
  | _, _ => throw .structError

/-- `decode_startup`. -/
def decodeStartup (packet : List UInt8) (response : Bool) : Except Exn (Int × Startup) :=
  decodeFramed (decodeFrame packet) (startupKind response) 112
    "unexpected or truncated startup frame" parseStartup

/-- An iteration of the loop over the entries in `encode_fd_batch`. -/
def encodeEntry (entry : FdEntry) : Except Exn (List UInt8) := do
  refuse (entry.kind ≠ .map ∧ entry.kind ≠ .retire) "unknown FD entry kind"
  refuse (entry.flags / 4 ≠ 0 ∨ (entry.kind = .retire ∧ entry.flags ≠ 0))
    "invalid FD entry flags"
  uint entry.bufferId "buffer ID" 64
  uint entry.generation "generation" 64
  uint entry.allocationId "allocation ID" 64
  uint entry.invocationId "invocation ID" 64
  uint entry.byteLength "byte length" 64
  structPack FD_ENTRY entry.values

/-- `encode_fd_batch`. -/
def encodeFdBatch (batch : FdBatch) (requestId : Int) : Except Exn (List UInt8) := do
  refuse (batch.entries = [] ∨ batch.entries.length > MAX_FD_ENTRIES)
    "FD batch entry count must be between 1 and 240"
  uint batch.transferId "transfer ID" 64
  uint batch.sessionGeneration "session generation" 64
  let encoded ← concatArray encodeEntry batch.entries
  let head ← structPack FD_BATCH [batch.transferId, batch.sessionGeneration,
    batch.entries.length, batch.fdCount, 1, 0]
  encodeFrame .fdTransfer requestId (head ++ encoded)

/-- An iteration of the loop over the entries in `decode_fd_batch`. -/
def decodeEntry (payload : List UInt8) (offset : Nat) : Except Exn FdEntry := do
  match unpack FD_ENTRY (payload.drop offset) with
  | [kind, flags, bufferId, generation, allocationId, invocationId, byteLength] =>
    let kind ← parseEnum kind "unknown FD entry value"
    refuse (flags / 4 ≠ 0 ∨ (kind = FdEntryKind.retire ∧ flags ≠ 0)) "invalid FD entry flags"
    return ⟨kind, bufferId, generation, allocationId, invocationId, byteLength, flags⟩
  | _ => throw .structError

/-- `decode_fd_batch` behind the frame. -/
def parseFdBatch (payload : List UInt8) : Except Exn FdBatch := do
  match unpack FD_BATCH payload with
  | [transfer, generation, count, fdCount, flags, reserved] =>
    refuse (count = 0 ∨ count > 240 ∨ flags ≠ 1 ∨ reserved ≠ 0 ∨
      payload.length ≠ 32 + count * 48) "invalid FD batch header"
    let entries ← readArray (decodeEntry payload) 32 48 0 count.toNat
    let batch : FdBatch := ⟨transfer, generation, entries⟩
    refuse (batch.fdCount ≠ fdCount) "FD count does not match ordered MAP entries"
    return batch
  | _ => throw .structError

/-- `decode_fd_batch`. -/
def decodeFdBatch (packet : List UInt8) : Except Exn (Int × FdBatch) :=
  decodeFramed (decodeFrame packet) .fdTransfer 32
    "unexpected or truncated FD transfer frame" parseFdBatch

/-- `encode_fd_ack`. -/
def encodeFdAck (ack : FdAck) (requestId : Int) : Except Exn (List UInt8) := do
  let error ← encodeText ack.error
  refuse (error.length > MAX_ERROR_BYTES) "FD acknowledgement error exceeds its limit"
  let head ← structPack FD_ACK [ack.transferId, ack.sessionGeneration, ack.status.value, 0,
    error.length, 0]
  encodeFrame .fdTransferAck requestId (head ++ error)

/-- `decode_fd_ack` behind the frame. -/
def parseFdAck (payload : List UInt8) : Except Exn FdAck := do
  match unpack FD_ACK payload with
  | [transfer, generation, status, flags, length, reserved] =>
    let error := payload.drop 32
    refuse (flags ≠ 0 ∨ reserved ≠ 0 ∨ length > 1024 ∨ error.length ≠ length)
      "invalid FD acknowledgement"
    let error ← validateUtf8 error "FD acknowledgement error"
    let parsed ← parseEnum status "unknown acknowledgement status"
    return ⟨transfer, generation, parsed, error⟩
  | _ => throw .structError

/-- `decode_fd_ack`. -/
def decodeFdAck (packet : List UInt8) : Except Exn (Int × FdAck) :=
  decodeFramed (decodeFrame packet) .fdTransferAck 32
    "unexpected or truncated FD acknowledgement" parseFdAck

/-- `encode_error`. -/
def encodeError (error : ErrorResponse) (requestId : Int) : Except Exn (List UInt8) := do
  let message ← encodeText error.message
  refuse (error.status = .ok ∨ message.length > MAX_ERROR_BYTES) "invalid error response"
  let head ← structPack ERROR [error.status.value, message.length]
  encodeFrame .errorResponse requestId (head ++ message)

/-- `decode_error` behind the frame. -/
def parseError (payload : List UInt8) : Except Exn ErrorResponse := do
  match unpack ERROR payload with
  | [status, length] =>
    let message := payload.drop 8
    refuse (status = 0 ∨ length > 1024 ∨ message.length ≠ length) "invalid error response"
    let message ← validateUtf8 message "error response"
    let parsed ← parseEnum status "unknown error status"
    return ⟨parsed, message⟩
  | _ => throw .structError

/-- `decode_error`. -/
def decodeError (packet : List UInt8) : Except Exn (Int × ErrorResponse) :=
  decodeFramed (decodeFrame packet) .errorResponse 8
    "unexpected or truncated error response" parseError

/-- `encode_empty`. -/
def encodeEmpty (kind : Kind) (requestId : Int) : Except Exn (List UInt8) := do
  refuse (¬ kind.isEmpty) "frame kind does not have an empty payload"
  encodeFrame kind requestId []

end Sdk

end Wmfs.Control
