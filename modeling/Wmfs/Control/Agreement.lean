import Wmfs.Control.Loads
import Wmfs.Control.RoundTrip

/-!
# `Wmfs.Control.Agreement`: the Python and the C++ decoders

The decoders of both languages read the same words from a packet and check them in different
orders. A packet that the Python decoder accepts is accepted by the C++ decoder, with the same
fields (`decodeStartup_iff` and its like). The C++ decoders do not look at the range of a status
word. A packet whose status is above the known ones, and that is in order otherwise, is
accepted by them alone.
-/

set_option autoImplicit false

namespace Wmfs.Control

open Wmfs.Lib
open Wmfs.Lib.Utf8 (Text)
open Native (byte load16 load32 load64 validUtf8 loadArray)

/-! ### Headers -/

/-- The fields of a frame are at the offsets of `wmfs_control_frame_v1`. -/
theorem unpack_FRAME {p : List UInt8} (h : 32 ≤ p.length) : unpack FRAME p =
    [(load64 p 0 : Int), load16 p 8, load16 p 10, load16 p 12, load16 p 14, load32 p 16,
      load32 p 20, load64 p 24] := by
  show unpack FRAME (p.drop 0) = _
  rw [FRAME, unpack_Q (by omega), unpack_H (by omega), unpack_H (by omega), unpack_H (by omega),
    unpack_H (by omega), unpack_I (by omega), unpack_I (by omega), unpack_Q (by omega), unpack]

/-- The first field of a startup. -/
theorem unpack_STARTUP_HEAD {p : List UInt8} (h : 112 ≤ p.length) :
    unpack STARTUP_HEAD p = [(load64 p 0 : Int)] := by
  show unpack STARTUP_HEAD (p.drop 0) = _
  rw [STARTUP_HEAD, unpack_Q (by omega), unpack]

/-- The fields of a startup behind its fingerprints. -/
theorem unpack_STARTUP_TAIL {p : List UInt8} (h : 112 ≤ p.length) :
    unpack STARTUP_TAIL (p.drop 72) =
      [(load64 p 72 : Int), load64 p 80, load32 p 88, load32 p 92, load32 p 96, load32 p 100,
        load16 p 104, load16 p 106, load32 p 108] := by
  rw [STARTUP_TAIL, unpack_Q (by omega), unpack_Q (by omega), unpack_I (by omega),
    unpack_I (by omega), unpack_I (by omega), unpack_I (by omega), unpack_H (by omega),
    unpack_H (by omega), unpack_I (by omega), unpack]

/-- The fields of a descriptor role. -/
theorem unpack_ROLE {p : List UInt8} {offset : Nat} (h : offset + 8 ≤ p.length) :
    unpack ROLE (p.drop offset) =
      [(load16 p offset : Int), load16 p (offset + 2), load32 p (offset + 4)] := by
  rw [ROLE, unpack_H (by omega), unpack_H (by omega), unpack_I (by omega), unpack]

/-- The fields of the head of a batch. -/
theorem unpack_FD_BATCH {p : List UInt8} (h : 32 ≤ p.length) : unpack FD_BATCH p =
    [(load64 p 0 : Int), load64 p 8, load16 p 16, load16 p 18, load32 p 20, load64 p 24] := by
  show unpack FD_BATCH (p.drop 0) = _
  rw [FD_BATCH, unpack_Q (by omega), unpack_Q (by omega), unpack_H (by omega),
    unpack_H (by omega), unpack_I (by omega), unpack_Q (by omega), unpack]

/-- The fields of an entry. -/
theorem unpack_FD_ENTRY {p : List UInt8} {offset : Nat} (h : offset + 48 ≤ p.length) :
    unpack FD_ENTRY (p.drop offset) =
      [(load32 p offset : Int), load32 p (offset + 4), load64 p (offset + 8),
        load64 p (offset + 16), load64 p (offset + 24), load64 p (offset + 32),
        load64 p (offset + 40)] := by
  rw [FD_ENTRY, unpack_I (by omega), unpack_I (by omega), unpack_Q (by omega),
    unpack_Q (by omega), unpack_Q (by omega), unpack_Q (by omega), unpack_Q (by omega), unpack]

/-- The fields of an acknowledgement. -/
theorem unpack_FD_ACK {p : List UInt8} (h : 32 ≤ p.length) : unpack FD_ACK p =
    [(load64 p 0 : Int), load64 p 8, load32 p 16, load32 p 20, load32 p 24, load32 p 28] := by
  show unpack FD_ACK (p.drop 0) = _
  rw [FD_ACK, unpack_Q (by omega), unpack_Q (by omega), unpack_I (by omega), unpack_I (by omega),
    unpack_I (by omega), unpack_I (by omega), unpack]

/-- The fields of the head of an error. -/
theorem unpack_ERROR {p : List UInt8} (h : 8 ≤ p.length) :
    unpack ERROR p = [(load32 p 0 : Int), load32 p 4] := by
  show unpack ERROR (p.drop 0) = _
  rw [ERROR, unpack_I (by omega), unpack_I (by omega), unpack]

/-! ### Frames -/

/-- A guard passes when its condition holds. -/
theorem guard_iff {p : Prop} [Decidable p] {u : Unit} : (guard p : Option Unit) = some u ↔ p := by
  rw [guard]
  split <;> simp_all

/-- The frames of both languages. -/
theorem encodeFrame_iff_frame {packet payload : List UInt8} {kind : Kind} {requestId : Int} :
    encodeFrame kind requestId payload = .ok packet ↔
      ∃ id : Nat, (id : Int) = requestId ∧
        Native.frame packet kind.value.toNat = some (payload, id) := by
  have hkind : 0 ≤ kind.value := by cases kind <;> decide
  have hlimits : FRAME_HEADER_SIZE = 32 ∧ MAX_PACKET_BYTES = 69632 ∧ MAGIC = 0x314C544353464D57 ∧
    ABI_MAJOR = 1 ∧ ABI_MINOR = 0 := ⟨rfl, rfl, rfl, rfl, rfl⟩
  rw [← @decodeFrame_ok_iff packet ⟨kind, requestId, payload⟩]
  simp only [decodeFrame, Native.frame, Result.bind_ok_iff, refuse_ok_iff, exists_const, hlimits,
    Option.bind_eq_bind, Option.bind_eq_some_iff, guard_iff]
  by_cases hsize : packet.length < 32 ∨ packet.length > 69632
  · simp [hsize]
  · rw [unpack_FRAME (by omega)]
    simp only [Result.bind_ok_iff, refuse_ok_iff, parseEnum_ok_iff, exists_const]
    constructor
    · intro ⟨_, habi, hheader, hlength, parsed, hparsed, h⟩
      cases h
      have hword : kind.value = load16 packet 12 := hparsed
      exact ⟨load64 packet 24, rfl, hsize, by omega, by omega, rfl⟩
    · intro ⟨id, hid, _, hheader, hlength, h⟩
      cases h
      have hword : (load16 packet 12 : Int) = kind.value := by omega
      refine ⟨hsize, by omega, by omega, by omega, kind, hword.symm, ?_⟩
      rw [hid]
      rfl

/-- A decoder of the other language behind a frame. -/
theorem withFrame_eq_some_iff {α : Type} {packet : List UInt8} (kind : Kind) {size : Nat}
    {rest : List UInt8 → Nat → Option α} {view : α} :
    Native.withFrame packet kind.value.toNat size rest = some view ↔
      ∃ (p : List UInt8) (id : Nat), encodeFrame kind id p = .ok packet ∧ size ≤ p.length ∧
        rest p id = some view := by
  simp only [Native.withFrame, Option.bind_eq_bind, Option.bind_eq_some_iff, guard_iff,
    exists_const, Prod.exists, encodeFrame_iff_frame, not_lt, Nat.cast_inj, exists_eq_left]

/-- Two decoders read the same values when they do so behind the frame. -/
theorem decodeFramed_iff_withFrame {α β : Type} {packet : List UInt8} {kind : Kind} {size : Nat}
    {message : String} {parse : List UInt8 → Except Exn α} {rest : List UInt8 → Nat → Option β}
    {same : Int → α → β → Prop}
    (h : ∀ p (id : Nat) value, size ≤ p.length →
      (parse p = .ok value ↔ ∃ view, rest p id = some view ∧ same id value view))
    (hrequest : ∀ {p view value} {id : Nat} {requestId : Int}, rest p id = some view →
      same requestId value view → (id : Int) = requestId)
    {requestId : Int} {value : α} :
    decodeFramed (decodeFrame packet) kind size message parse = .ok (requestId, value) ↔
      ∃ view, Native.withFrame packet kind.value.toNat size rest = some view ∧
        same requestId value view := by
  simp only [decodeFramed_ok_iff, withFrame_eq_some_iff kind]
  constructor
  · intro ⟨p, ⟨hsize, hparse⟩, hframe⟩
    obtain ⟨id, rfl, _⟩ := encodeFrame_iff_frame.mp hframe
    obtain ⟨view, hview, hsame⟩ := (h p id value hsize).mp hparse
    exact ⟨view, ⟨p, id, hframe, hsize, hview⟩, hsame⟩
  · intro ⟨view, ⟨p, id, hframe, hsize, hview⟩, hsame⟩
    have hid : (id : Int) = requestId := hrequest hview hsame
    rw [hid] at hframe
    exact ⟨p, ⟨hsize, (h p id value hsize).mpr ⟨view, hview, by rw [hid]; exact hsame⟩⟩, hframe⟩

/-! ### Arrays -/

/-- An element is read in both languages, or in neither. -/
theorem readArray_iff_loadArray {α β : Type} {read : Nat → Except Exn α} {load : Nat → Option β}
    {same : α → β → Prop} {base size bound : Nat}
    (h : ∀ {offset item}, offset + size ≤ bound →
      (read offset = .ok item ↔ ∃ record, load offset = some record ∧ same item record))
    {index count : Nat} (hroom : base + (index + count) * size ≤ bound) {items : List α} :
    readArray read base size index count = .ok items ↔
      ∃ records, loadArray load size (base + index * size) count = some records ∧
        List.Forall₂ same items records := by
  induction count generalizing index items with
  | zero =>
    simp only [readArray, loadArray, Except.ok.injEq, Option.some.injEq, exists_eq_left']
    constructor
    · intro hitems
      rw [← hitems]
      exact .nil
    · intro hsame
      cases hsame
      rfl
  | succ count ih =>
    have hnext : base + (index + 1) * size = base + index * size + size := by ring
    have hfirst : base + index * size + size ≤ bound := by
      have := Nat.mul_le_mul_right size (show index + 1 ≤ index + (count + 1) by omega)
      omega
    have hrest : base + (index + 1 + count) * size ≤ bound := by
      rwa [show index + 1 + count = index + (count + 1) by omega]
    simp only [readArray, loadArray, Result.bind_ok_iff, h hfirst, ih hrest, hnext,
      Option.bind_eq_bind, Option.bind_eq_some_iff]
    constructor
    · rintro ⟨item, ⟨record, hrecord, hsame⟩, rest, ⟨records, hrecords, hsames⟩, hitems⟩
      cases hitems
      exact ⟨record :: records, ⟨record, hrecord, records, hrecords, rfl⟩, .cons hsame hsames⟩
    · rintro ⟨_, ⟨record, hrecord, records, hrecords, hall⟩, hsames⟩
      cases hall
      cases hsames with
      | cons hsame hsames =>
        exact ⟨_, ⟨record, hrecord, hsame⟩, _, ⟨records, hrecords, hsames⟩, rfl⟩

/-! ### Acknowledgements and errors -/

/-- Bytes are valid when a text encodes to them. -/
theorem validUtf8_iff {bytes : List UInt8} :
    validUtf8 bytes = true ↔ ∃ text, Utf8.encode text = some bytes := by
  rw [validUtf8_eq, Option.isSome_iff_exists]
  constructor
  · intro ⟨text, htext⟩
    exact ⟨text, Utf8.encode_of_decode htext⟩
  · intro ⟨text, htext⟩
    exact ⟨text, Utf8.decode_encode htext⟩

/-- A slice up to the end is the rest. -/
theorem slice_eq_drop {p : List UInt8} {offset size : Nat} (h : p.length = offset + size) :
    slice p offset size = p.drop offset := by
  rw [slice, List.take_of_length_le (by rw [List.length_drop]; omega)]

/-- The fields of an acknowledgement in both languages. -/
structure SameAck (requestId : Int) (ack : FdAck) (view : Native.AckView) : Prop where
  requestId : (view.requestId : Int) = requestId
  transferId : (view.ack.transferId : Int) = ack.transferId
  sessionGeneration : (view.ack.sessionGeneration : Int) = ack.sessionGeneration
  status : (view.ack.status : Int) = ack.status.value
  error : Utf8.encode ack.error = some view.error

/-- The payload of an acknowledgement is in order, apart from its status. -/
structure AckShape (p : List UInt8) : Prop where
  flags : load32 p 20 = 0
  reserved : load32 p 28 = 0
  limit : load32 p 24 ≤ 1024
  size : p.length = 32 + load32 p 24
  text : ∃ text, Utf8.encode text = some (p.drop 32)

/-- The view of an acknowledgement. -/
def ackView (p : List UInt8) (requestId : Nat) : Native.AckView :=
  ⟨requestId, ⟨load64 p 0, load64 p 8, load32 p 16, load32 p 20, load32 p 24, load32 p 28⟩,
    p.drop 32⟩

/-- The C++ decoder accepts an acknowledgement of the right shape. -/
theorem viewFdAck_eq_some_iff {p : List UInt8} {requestId : Nat} {view : Native.AckView} :
    Native.viewFdAck p requestId = some view ↔ view = ackView p requestId ∧ AckShape p := by
  simp only [Native.viewFdAck, Option.bind_eq_bind, Option.bind_eq_some_iff, guard_iff,
    exists_const, validUtf8_iff, not_or, not_not, not_lt]
  constructor
  · intro ⟨⟨hflags, hreserved, hlimit, hsize⟩, htext, h⟩
    rw [slice_eq_drop hsize] at htext h
    exact ⟨(Option.some.inj h).symm, hflags, hreserved, hlimit, hsize, htext⟩
  · intro ⟨h, hshape⟩
    rw [slice_eq_drop hshape.size, h]
    exact ⟨⟨hshape.flags, hshape.reserved, hshape.limit, hshape.size⟩, hshape.text, rfl⟩

/-- Python reads an acknowledgement exactly when C++ has a view that stands for it. -/
theorem parseFdAck_iff_view {p : List UInt8} {id : Nat} {ack : FdAck} (hsize : 32 ≤ p.length) :
    parseFdAck p = .ok ack ↔
      ∃ view, Native.viewFdAck p id = some view ∧ SameAck id ack view := by
  simp only [viewFdAck_eq_some_iff, and_assoc, exists_eq_left]
  rw [parseFdAck, unpack_FD_ACK hsize]
  simp only [Result.bind_ok_iff, refuse_ok_iff, parseEnum_ok_iff, validateUtf8_ok_iff,
    exists_const, show MAX_ERROR_BYTES = 1024 from rfl, not_or, not_not, not_lt]
  constructor
  · rintro ⟨⟨hflags, hreserved, hlimit, hsize⟩, error, herror, status, hstatus, h⟩
    cases h
    refine ⟨⟨by omega, by omega, by omega, by omega, error, herror⟩, ?_⟩
    exact ⟨rfl, rfl, rfl, hstatus.symm, herror⟩
  · rintro ⟨hshape, hsame⟩
    have hflags := hshape.flags
    have hreserved := hshape.reserved
    have hlimit := hshape.limit
    have hlength := hshape.size
    refine ⟨by omega, ack.error, hsame.error, ack.status, hsame.status.symm, ?_⟩
    have htransfer := hsame.transferId
    have hgeneration := hsame.sessionGeneration
    simp only [ackView] at htransfer hgeneration
    rw [htransfer, hgeneration]
    rfl

/-- The same of a whole packet. -/
theorem decodeFdAck_iff {packet : List UInt8} {requestId : Int} {ack : FdAck} :
    decodeFdAck packet = .ok (requestId, ack) ↔
      ∃ view, Native.decodeFdAck packet = some view ∧ SameAck requestId ack view := by
  apply decodeFramed_iff_withFrame
  · intro p id value hsize
    exact parseFdAck_iff_view hsize
  · intro p view value id requestId hview hsame
    rw [viewFdAck_eq_some_iff] at hview
    rw [← hsame.requestId, hview.1, ackView]

/-- The fields of an error response in both languages. -/
structure SameError (requestId : Int) (error : ErrorResponse) (view : Native.ErrorView) :
    Prop where
  requestId : (view.requestId : Int) = requestId
  status : (view.status : Int) = error.status.value
  message : Utf8.encode error.message = some view.message

/-- The payload of an error response is in order, apart from its status. -/
structure ErrorShape (p : List UInt8) : Prop where
  status : load32 p 0 ≠ 0
  limit : load32 p 4 ≤ 1024
  size : p.length = 8 + load32 p 4
  text : ∃ text, Utf8.encode text = some (p.drop 8)

/-- The view of an error response. -/
def errorView (p : List UInt8) (requestId : Nat) : Native.ErrorView :=
  ⟨requestId, load32 p 0, load32 p 4, p.drop 8⟩

/-- The C++ decoder accepts an error of the right shape. -/
theorem viewError_eq_some_iff {p : List UInt8} {requestId : Nat} {view : Native.ErrorView} :
    Native.viewError p requestId = some view ↔ view = errorView p requestId ∧ ErrorShape p := by
  simp only [Native.viewError, Option.bind_eq_bind, Option.bind_eq_some_iff, guard_iff,
    exists_const, validUtf8_iff, not_or, not_not, not_lt]
  constructor
  · intro ⟨⟨hstatus, hlimit, hsize⟩, htext, h⟩
    rw [slice_eq_drop hsize] at htext h
    exact ⟨(Option.some.inj h).symm, hstatus, hlimit, hsize, htext⟩
  · intro ⟨h, hshape⟩
    rw [slice_eq_drop hshape.size, h]
    exact ⟨⟨hshape.status, hshape.limit, hshape.size⟩, hshape.text, rfl⟩

/-- Python reads an error exactly when C++ has a view that stands for it. -/
theorem parseError_iff_view {p : List UInt8} {id : Nat} {error : ErrorResponse}
    (hsize : 8 ≤ p.length) : parseError p = .ok error ↔
      ∃ view, Native.viewError p id = some view ∧ SameError id error view := by
  simp only [viewError_eq_some_iff, and_assoc, exists_eq_left]
  rw [parseError, unpack_ERROR hsize]
  simp only [Result.bind_ok_iff, refuse_ok_iff, parseEnum_ok_iff, validateUtf8_ok_iff,
    exists_const, show MAX_ERROR_BYTES = 1024 from rfl, not_or, not_not, not_lt,
    List.length_drop]
  constructor
  · rintro ⟨⟨hstatus, hlimit, hlength⟩, message, hmessage, status, hvalue, h⟩
    cases h
    refine ⟨⟨by omega, by omega, by omega, message, hmessage⟩, ?_⟩
    exact ⟨rfl, hvalue.symm, hmessage⟩
  · rintro ⟨hshape, hsame⟩
    have hstatus := hshape.status
    have hlimit := hshape.limit
    have hlength := hshape.size
    exact ⟨by omega, error.message, hsame.message, error.status, hsame.status.symm, rfl⟩

/-- The same of a whole packet. -/
theorem decodeError_iff {packet : List UInt8} {requestId : Int} {error : ErrorResponse} :
    decodeError packet = .ok (requestId, error) ↔
      ∃ view, Native.decodeError packet = some view ∧ SameError requestId error view := by
  apply decodeFramed_iff_withFrame
  · intro p id value hsize
    exact parseError_iff_view hsize
  · intro p view value id requestId hview hsame
    rw [viewError_eq_some_iff] at hview
    rw [← hsame.requestId, hview.1, errorView]

/-! ### Startup -/

/-- The fields of a role in both languages. -/
structure SameRole (role : DescriptorRole) (record : Native.RoleRecord) : Prop where
  role : (record.role : Int) = role.value
  flags : record.flags = 0
  reserved : record.reserved = 0

/-- The bytes of a role are in order. -/
def RoleShape (p : List UInt8) (offset : Nat) : Prop :=
  (1 ≤ load16 p offset ∧ load16 p offset ≤ 8) ∧ load16 p (offset + 2) = 0 ∧
    load32 p (offset + 4) = 0

/-- The C++ decoder accepts a descriptor role of the right shape. -/
theorem loadRole_eq_some_iff {p : List UInt8} {offset : Nat} {record : Native.RoleRecord} :
    Native.loadRole p offset = some record ↔
      record = ⟨load16 p offset, load16 p (offset + 2), load32 p (offset + 4)⟩ ∧
        RoleShape p offset := by
  simp only [Native.loadRole, Option.bind_eq_bind, Option.bind_eq_some_iff, guard_iff,
    exists_const, not_or, not_not, not_lt]
  constructor
  · intro ⟨⟨hzero, hmax, hflags, hreserved⟩, h⟩
    exact ⟨(Option.some.inj h).symm, ⟨by omega, hmax⟩, hflags, hreserved⟩
  · intro ⟨h, ⟨hzero, hmax⟩, hflags, hreserved⟩
    rw [h]
    exact ⟨⟨by omega, hmax, hflags, hreserved⟩, rfl⟩

/-- Python reads a descriptor role exactly when C++ loads one that stands for it. -/
theorem decodeRole_iff_load {p : List UInt8} {offset : Nat} {role : DescriptorRole}
    (hroom : offset + 8 ≤ p.length) : decodeRole p offset = .ok role ↔
      ∃ record, Native.loadRole p offset = some record ∧ SameRole role record := by
  simp only [loadRole_eq_some_iff, and_assoc, exists_eq_left]
  rw [decodeRole, unpack_ROLE hroom]
  simp only [Result.bind_ok_iff, refuse_ok_iff, parseEnum_ok_iff, exists_const, not_or, not_not]
  have hvalue : 1 ≤ role.value ∧ role.value ≤ 8 := by cases role <;> decide
  constructor
  · intro ⟨⟨hflags, hreserved⟩, hrole⟩
    have hrole : role.value = load16 p offset := hrole
    have hflagsZero : load16 p (offset + 2) = 0 := by omega
    have hreservedZero : load32 p (offset + 4) = 0 := by omega
    exact ⟨⟨⟨by omega, by omega⟩, hflagsZero, hreservedZero⟩, hrole.symm, hflagsZero,
      hreservedZero⟩
  · intro ⟨_, hsame⟩
    have hflags := hsame.flags
    have hreserved := hsame.reserved
    simp only at hflags hreserved
    exact ⟨by omega, hsame.role.symm⟩

/-- The fields of a startup in both languages. -/
structure SameStartup (requestId : Int) (startup : Startup) (view : Native.StartupView) :
    Prop where
  requestId : (view.requestId : Int) = requestId
  sessionGeneration : (view.startup.sessionGeneration : Int) = startup.sessionGeneration
  interfaceFingerprint : view.startup.interfaceFingerprint = startup.interfaceFingerprint
  configurationFingerprint :
    view.startup.configurationFingerprint = startup.configurationFingerprint
  metadataFingerprint : (view.startup.metadataFingerprint : Int) = startup.metadataFingerprint
  capabilities : (view.startup.capabilities : Int) = startup.capabilities
  operationCount : (view.startup.operationCount : Int) = startup.operationCount
  protocolVersion : (view.startup.protocolVersion : Int) = startup.protocolVersion
  configurationSchemaVersion :
    (view.startup.configurationSchemaVersion : Int) = startup.configurationSchemaVersion
  config : view.config = startup.config
  roles : List.Forall₂ SameRole startup.descriptorRoles view.roles
  logMode : (view.startup.logMode : Int) = startup.logMode.value
  status : (view.startup.status : Int) = startup.status.value

/-- The payload of a startup is in order, apart from its status and its roles. -/
structure StartupFields (p : List UInt8) : Prop where
  config : load32 p 100 ≤ 65536
  roles : load16 p 104 ≤ 16
  logMode : load16 p 106 ≤ 2
  size : p.length = 112 + load16 p 104 * 8 + load32 p 100
  text : ∃ text, Utf8.encode text = some (p.drop (112 + load16 p 104 * 8))

/-- The view of a startup with its roles. -/
def startupView (p : List UInt8) (requestId : Nat) (roles : List Native.RoleRecord) :
    Native.StartupView :=
  ⟨requestId, Native.startupLoad p, roles, p.drop (112 + load16 p 104 * 8)⟩

/-- The C++ decoder accepts a startup of the right shape. -/
theorem viewStartup_eq_some_iff {p : List UInt8} {requestId capacity : Nat}
    (hcapacity : 16 ≤ capacity) {view : Native.StartupView} :
    Native.viewStartup p requestId capacity = some view ↔
      ∃ roles, view = startupView p requestId roles ∧ StartupFields p ∧
        loadArray (Native.loadRole p) 8 112 (load16 p 104) = some roles := by
  have hconfig : ∀ h : p.length = 112 + load16 p 104 * 8 + load32 p 100,
      slice p (112 + (Native.startupLoad p).descriptorCount * 8)
        (Native.startupLoad p).configLength = p.drop (112 + load16 p 104 * 8) :=
    fun h => slice_eq_drop h
  simp only [Native.viewStartup, Option.bind_eq_bind, Option.bind_eq_some_iff, guard_iff,
    exists_const, validUtf8_iff, not_or, not_not, not_lt]
  constructor
  · intro ⟨⟨hlimit, hroles, _, hmode, hsize⟩, roles, hload, htext, h⟩
    rw [hconfig hsize] at htext h
    exact ⟨roles, (Option.some.inj h).symm, ⟨hlimit, hroles, hmode, hsize, htext⟩, hload⟩
  · intro ⟨roles, h, hfields, hload⟩
    have hroles := hfields.roles
    rw [hconfig hfields.size, h]
    exact ⟨⟨hfields.config, hroles, hroles.trans hcapacity, hfields.logMode, hfields.size⟩, roles,
      hload, hfields.text, rfl⟩

/-- Python reads a startup exactly when C++ has a view that stands for it. -/
theorem parseStartup_iff_view {p : List UInt8} {id capacity : Nat} {startup : Startup}
    (hcapacity : 16 ≤ capacity) (hsize : 112 ≤ p.length) :
    parseStartup p = .ok startup ↔
      ∃ view, Native.viewStartup p id capacity = some view ∧ SameStartup id startup view := by
  have hlimits : MAX_CONFIG_BYTES = 65536 ∧ MAX_DESCRIPTOR_ROLES = 16 ∧
    STARTUP_FIXED_SIZE = 112 := ⟨rfl, rfl, rfl⟩
  have hmode : ∀ mode : LogMode, mode.value ≤ 2 := by
    intro mode
    cases mode <;> decide
  simp only [viewStartup_eq_some_iff hcapacity]
  rw [parseStartup, unpack_STARTUP_HEAD hsize, unpack_STARTUP_TAIL hsize]
  simp only [Result.bind_ok_iff, refuse_ok_iff, parseEnum_ok_iff, validateUtf8_ok_iff,
    exists_const, hlimits, not_or, not_not, not_lt, Int.toNat_natCast]
  constructor
  · rintro ⟨⟨hconfig, hroleCount⟩, htotal, roles, hroles, text, htext, mode, hmodeValue, status,
      hstatus, h⟩
    cases h
    have hmodeValue : mode.value = load16 p 106 := hmodeValue
    have hmodeRange := hmode mode
    obtain ⟨records, hrecords, hsames⟩ :=
      (readArray_iff_loadArray (decodeRole_iff_load (p := p)) (by omega)).mp hroles
    rw [Nat.zero_mul, Nat.add_zero] at hrecords
    refine ⟨startupView p id records, ⟨records, rfl, ?_, hrecords⟩, ?_⟩
    · exact ⟨by omega, by omega, by omega, by omega, text, htext⟩
    · exact ⟨rfl, rfl, rfl, rfl, rfl, rfl, rfl, rfl, rfl, rfl, hsames, hmodeValue.symm,
        hstatus.symm⟩
  · rintro ⟨view, ⟨records, hview, hfields, hrecords⟩, hsame⟩
    rw [hview] at hsame
    obtain ⟨text, htext⟩ := hfields.text
    have hconfig := hfields.config
    have hroleCount := hfields.roles
    have htotal := hfields.size
    refine ⟨by omega, by omega, startup.descriptorRoles, ?_, text, htext, startup.logMode,
      hsame.logMode.symm, startup.status, hsame.status.symm, ?_⟩
    · apply (readArray_iff_loadArray (decodeRole_iff_load (p := p)) (by omega)).mpr
      rw [Nat.zero_mul, Nat.add_zero]
      exact ⟨records, hrecords, hsame.roles⟩
    · cases startup
      obtain ⟨_, hfirst, hinterface, hconfiguration, hmetadata, hcapabilities, hoperations,
        hprotocol, hschema, hbytes, _⟩ := hsame
      subst hfirst hinterface hconfiguration hmetadata hcapabilities hoperations hprotocol hschema
        hbytes
      rfl

/-- The same of a whole packet. -/
theorem decodeStartup_iff {packet : List UInt8} {response : Bool} {capacity : Nat}
    (hcapacity : 16 ≤ capacity) {requestId : Int} {startup : Startup} :
    decodeStartup packet response = .ok (requestId, startup) ↔
      ∃ view, Native.decodeStartup packet (startupKind response).value.toNat capacity =
        some view ∧ SameStartup requestId startup view := by
  apply decodeFramed_iff_withFrame
  · intro p id value hsize
    exact parseStartup_iff_view hcapacity hsize
  · intro p view value id requestId hview hsame
    obtain ⟨roles, hview, _⟩ := (viewStartup_eq_some_iff hcapacity).mp hview
    rw [← hsame.requestId, hview, startupView]

/-! ### Descriptor batches -/

/-- The fields of an entry in both languages. -/
structure SameEntry (entry : FdEntry) (record : Native.EntryRecord) : Prop where
  kind : (record.kind : Int) = entry.kind.value
  flags : (record.flags : Int) = entry.flags
  bufferId : (record.bufferId : Int) = entry.bufferId
  generation : (record.generation : Int) = entry.generation
  allocationId : (record.allocationId : Int) = entry.allocationId
  invocationId : (record.invocationId : Int) = entry.invocationId
  byteLength : (record.byteLength : Int) = entry.byteLength

/-- The bytes of an entry are in order. -/
def EntryShape (p : List UInt8) (offset : Nat) : Prop :=
  (load32 p offset = 1 ∨ load32 p offset = 2) ∧ load32 p (offset + 4) / 4 = 0 ∧
    (load32 p offset = 2 → load32 p (offset + 4) = 0)

/-- The record of an entry. -/
def entryRecord (p : List UInt8) (offset : Nat) : Native.EntryRecord :=
  ⟨load32 p offset, load32 p (offset + 4), load64 p (offset + 8), load64 p (offset + 16),
    load64 p (offset + 24), load64 p (offset + 32), load64 p (offset + 40)⟩

/-- The C++ decoder accepts an entry of the right shape. -/
theorem loadEntry_eq_some_iff {p : List UInt8} {offset : Nat} {record : Native.EntryRecord} :
    Native.loadEntry p offset = some record ↔
      record = entryRecord p offset ∧ EntryShape p offset := by
  simp only [Native.loadEntry, Option.bind_eq_bind, Option.bind_eq_some_iff, guard_iff,
    exists_const, not_or, not_not, not_and]
  constructor
  · intro ⟨hkind, ⟨hflags, hretire⟩, h⟩
    exact ⟨(Option.some.inj h).symm, hkind, hflags, hretire⟩
  · intro ⟨h, hkind, hflags, hretire⟩
    rw [h]
    exact ⟨hkind, ⟨hflags, hretire⟩, rfl⟩

/-- The number of a kind of entry determines it. -/
theorem FdEntryKind.value_eq_iff (kind : FdEntryKind) :
    (kind.value = 1 ↔ kind = .map) ∧ (kind.value = 2 ↔ kind = .retire) := by
  cases kind <;> decide

/-- Python reads an entry exactly when C++ loads one that stands for it. -/
theorem decodeEntry_iff_load {p : List UInt8} {offset : Nat} {entry : FdEntry}
    (hroom : offset + 48 ≤ p.length) : decodeEntry p offset = .ok entry ↔
      ∃ record, Native.loadEntry p offset = some record ∧ SameEntry entry record := by
  simp only [loadEntry_eq_some_iff, and_assoc, exists_eq_left]
  rw [decodeEntry, unpack_FD_ENTRY hroom]
  simp only [Result.bind_ok_iff, refuse_ok_iff, parseEnum_ok_iff, exists_const, not_and, not_not]
  constructor
  · intro ⟨kind, hkind, hflags, hretire, h⟩
    cases h
    have hkind : kind.value = load32 p offset := hkind
    have hvalue := FdEntryKind.value_eq_iff kind
    refine ⟨⟨?_, by omega, ?_⟩, hkind.symm, rfl, rfl, rfl, rfl, rfl, rfl⟩
    · cases kind with
      | map => exact Or.inl (by simp only [FdEntryKind.value] at hkind; omega)
      | retire => exact Or.inr (by simp only [FdEntryKind.value] at hkind; omega)
    · intro htwo
      have := hretire (hvalue.2.mp (by omega))
      omega
  · intro ⟨⟨_, hflags, hretire⟩, hsame⟩
    have hkind : (load32 p offset : Int) = entry.kind.value := hsame.kind
    have hvalue := FdEntryKind.value_eq_iff entry.kind
    refine ⟨entry.kind, hkind.symm, by omega, ?_, ?_⟩
    · intro h
      have hvalue := hvalue.2.mpr h
      have := hretire (by omega)
      omega
    · cases entry
      obtain ⟨_, hflagsEq, hbuffer, hgeneration, hallocation, hinvocation, hlength⟩ := hsame
      subst hflagsEq hbuffer hgeneration hallocation hinvocation hlength
      rfl

/-- Both languages count the same MAP entries. -/
theorem countP_of_same {entries : List FdEntry} {records : List Native.EntryRecord}
    (h : List.Forall₂ SameEntry entries records) :
    (entries.countP fun entry => entry.kind = .map) =
      records.countP fun record => record.kind = 1 := by
  induction h with
  | nil => rfl
  | @cons entry record entries records hsame _ ih =>
    have hkind := hsame.kind
    have hvalue := (FdEntryKind.value_eq_iff entry.kind).1
    have hmap : entry.kind = .map ↔ record.kind = 1 := by
      rw [← hvalue]
      omega
    simp only [List.countP_cons, ih, hmap]

/-- The fields of a batch in both languages. -/
structure SameBatch (requestId : Int) (batch : FdBatch) (view : Native.BatchView) : Prop where
  requestId : (view.requestId : Int) = requestId
  transferId : (view.batch.transferId : Int) = batch.transferId
  sessionGeneration : (view.batch.sessionGeneration : Int) = batch.sessionGeneration
  fdCount : view.batch.fdCount = batch.fdCount
  entries : List.Forall₂ SameEntry batch.entries view.entries

/-- The head of a batch is in order. -/
structure BatchFields (p : List UInt8) : Prop where
  count : load16 p 16 ≠ 0 ∧ load16 p 16 ≤ 240
  flags : load32 p 20 = 1
  reserved : load64 p 24 = 0
  size : p.length = 32 + load16 p 16 * 48

/-- The view of a batch with its entries. -/
def batchView (p : List UInt8) (requestId : Nat) (entries : List Native.EntryRecord) :
    Native.BatchView :=
  ⟨requestId, ⟨load64 p 0, load64 p 8, load16 p 16, load16 p 18, load32 p 20, load64 p 24⟩,
    entries⟩

/-- The C++ decoder accepts a batch of the right shape. -/
theorem viewFdBatch_eq_some_iff {p : List UInt8} {requestId capacity : Nat}
    (hcapacity : 240 ≤ capacity) {view : Native.BatchView} :
    Native.viewFdBatch p requestId capacity = some view ↔
      ∃ entries, view = batchView p requestId entries ∧ BatchFields p ∧
        loadArray (Native.loadEntry p) 48 32 (load16 p 16) = some entries ∧
        (entries.countP fun record => record.kind = 1) = load16 p 18 := by
  simp only [Native.viewFdBatch, Option.bind_eq_bind, Option.bind_eq_some_iff, guard_iff,
    exists_const, not_or, not_not, not_lt]
  constructor
  · intro ⟨⟨hzero, hmax, _, hreserved, hflags, hsize⟩, entries, hload, hmaps, h⟩
    exact ⟨entries, (Option.some.inj h).symm, ⟨⟨hzero, hmax⟩, hflags, hreserved, hsize⟩, hload,
      hmaps⟩
  · intro ⟨entries, h, hfields, hload, hmaps⟩
    rw [h]
    exact ⟨⟨hfields.count.1, hfields.count.2, hfields.count.2.trans hcapacity, hfields.reserved,
      hfields.flags, hfields.size⟩, entries, hload, hmaps, rfl⟩

/-- Python reads a batch exactly when C++ has a view that stands for it. -/
theorem parseFdBatch_iff_view {p : List UInt8} {id capacity : Nat} {batch : FdBatch}
    (hcapacity : 240 ≤ capacity) (hsize : 32 ≤ p.length) :
    parseFdBatch p = .ok batch ↔
      ∃ view, Native.viewFdBatch p id capacity = some view ∧ SameBatch id batch view := by
  simp only [viewFdBatch_eq_some_iff hcapacity]
  rw [parseFdBatch, unpack_FD_BATCH hsize]
  simp only [Result.bind_ok_iff, refuse_ok_iff, exists_const, Prod.exists, decodeEntries_ok_iff,
    List.nil_append, zero_add, show MAX_FD_ENTRIES = 240 from rfl,
    show FD_BATCH_TRANSACTIONAL = 1 from rfl, not_or, not_not, not_lt, Int.toNat_natCast]
  constructor
  · rintro ⟨⟨hzero, hmax, hflags, hreserved⟩, htotal, entries, maps, ⟨new, hread, hnew, hcount⟩,
      hmaps, h⟩
    subst hnew hcount
    cases h
    obtain ⟨records, hrecords, hsames⟩ :=
      (readArray_iff_loadArray (decodeEntry_iff_load (p := p)) (by omega)).mp hread
    rw [Nat.zero_mul, Nat.add_zero] at hrecords
    have hcounts := countP_of_same hsames
    have hfd : (entries.countP fun entry => entry.kind = .map) = load16 p 18 := by omega
    refine ⟨batchView p id records, ⟨records, rfl, ?_, hrecords, ?_⟩, ?_⟩
    · exact ⟨⟨by omega, by omega⟩, by omega, by omega, by omega⟩
    · rw [← hcounts, hfd]
    · exact ⟨rfl, rfl, rfl, hfd.symm, hsames⟩
  · rintro ⟨view, ⟨records, hview, hfields, hrecords, hmaps⟩, hsame⟩
    rw [hview] at hsame
    have hcounts := countP_of_same hsame.entries
    have hcount := hfields.count
    have hflags := hfields.flags
    have hreserved := hfields.reserved
    have htotal := hfields.size
    refine ⟨by omega, by omega, batch.entries, _, ⟨batch.entries, ?_, rfl, rfl⟩, ?_, ?_⟩
    · apply (readArray_iff_loadArray (decodeEntry_iff_load (p := p)) (by omega)).mpr
      rw [Nat.zero_mul, Nat.add_zero]
      exact ⟨records, hrecords, hsame.entries⟩
    · rw [hcounts]
      exact congrArg Nat.cast hmaps
    · cases batch
      obtain ⟨_, htransfer, hgeneration, _⟩ := hsame
      subst htransfer hgeneration
      rfl

/-- The same of a whole packet. -/
theorem decodeFdBatch_iff {packet : List UInt8} {capacity : Nat} (hcapacity : 240 ≤ capacity)
    {requestId : Int} {batch : FdBatch} :
    decodeFdBatch packet = .ok (requestId, batch) ↔
      ∃ view, Native.decodeFdBatch packet capacity = some view ∧
        SameBatch requestId batch view := by
  apply decodeFramed_iff_withFrame
  · intro p id value hsize
    exact parseFdBatch_iff_view hcapacity hsize
  · intro p view value id requestId hview hsame
    obtain ⟨entries, hview, _⟩ := (viewFdBatch_eq_some_iff hcapacity).mp hview
    rw [← hsame.requestId, hview, batchView]

/-! ### Packets with an unknown status -/

/-- The loop over an array succeeds when every element is loaded. -/
theorem exists_loadArray_iff {α : Type} {load : Nat → Option α} {size offset count : Nat} :
    (∃ items, loadArray load size offset count = some items) ↔
      ∀ i < count, ∃ item, load (offset + i * size) = some item := by
  induction count generalizing offset with
  | zero => simp [loadArray]
  | succ count ih =>
    have hshift : ∀ i, offset + size + i * size = offset + (i + 1) * size := fun i => by ring
    simp only [loadArray, Option.bind_eq_bind, Option.bind_eq_some_iff]
    constructor
    · intro ⟨_, item, hitem, items, hitems, _⟩ i hi
      cases i with
      | zero => exact ⟨item, by rw [Nat.zero_mul]; exact hitem⟩
      | succ i =>
        have := ih.mp ⟨items, hitems⟩ i (by omega)
        rwa [hshift] at this
    · intro h
      obtain ⟨item, hitem⟩ := h 0 (by omega)
      rw [Nat.zero_mul, Nat.add_zero] at hitem
      obtain ⟨items, hitems⟩ := ih.mpr fun i hi => by
        rw [hshift]
        exact h (i + 1) (by omega)
      exact ⟨item :: items, item, hitem, items, hitems, rfl⟩

/-- What was loaded has values when each element has one. -/
theorem exists_forall₂_of_loadArray {α β : Type} {load : Nat → Option β} {same : α → β → Prop}
    (h : ∀ {offset record}, load offset = some record → ∃ item, same item record)
    {size offset count : Nat} {records : List β}
    (hload : loadArray load size offset count = some records) :
    ∃ items, List.Forall₂ same items records := by
  induction count generalizing offset records with
  | zero =>
    cases hload
    exact ⟨[], .nil⟩
  | succ count ih =>
    simp only [loadArray, Option.bind_eq_bind, Option.bind_eq_some_iff] at hload
    obtain ⟨record, hrecord, rest, hrest, hall⟩ := hload
    cases hall
    obtain ⟨item, hitem⟩ := h hrecord
    obtain ⟨items, hitems⟩ := ih hrest
    exact ⟨item :: items, .cons hitem hitems⟩

/-- The known statuses are 0 to 5. -/
theorem exists_status_iff {n : Nat} : (∃ status : Status, (n : Int) = status.value) ↔ n ≤ 5 := by
  constructor
  · intro ⟨status, hstatus⟩
    cases status <;> simp only [Status.value] at hstatus <;> omega
  · intro h
    interval_cases n
    · exact ⟨.ok, rfl⟩
    · exact ⟨.invalidArgument, rfl⟩
    · exact ⟨.unsupported, rfl⟩
    · exact ⟨.identityMismatch, rfl⟩
    · exact ⟨.configurationRejected, rfl⟩
    · exact ⟨.internalError, rfl⟩

/-- The numbers up to 2 are log modes. -/
theorem exists_logMode {n : Nat} (h : n ≤ 2) : ∃ mode : LogMode, (n : Int) = mode.value := by
  interval_cases n
  · exact ⟨.disabled, rfl⟩
  · exact ⟨.centralized, rfl⟩
  · exact ⟨.workerFile, rfl⟩

/-- The numbers from 1 to 8 are descriptor roles. -/
theorem exists_role {n : Nat} (h : 1 ≤ n ∧ n ≤ 8) :
    ∃ role : DescriptorRole, (n : Int) = role.value := by
  obtain ⟨hlow, hhigh⟩ := h
  interval_cases n
  · exact ⟨.commandRing, rfl⟩
  · exact ⟨.commandDataEvent, rfl⟩
  · exact ⟨.commandSpaceEvent, rfl⟩
  · exact ⟨.completionRing, rfl⟩
  · exact ⟨.completionDataEvent, rfl⟩
  · exact ⟨.completionSpaceEvent, rfl⟩
  · exact ⟨.fdControl, rfl⟩
  · exact ⟨.log, rfl⟩

/-- The numbers 1 and 2 are kinds of entries. -/
theorem exists_entryKind {n : Nat} (h : n = 1 ∨ n = 2) :
    ∃ kind : FdEntryKind, (n : Int) = kind.value := by
  rcases h with rfl | rfl
  · exact ⟨.map, rfl⟩
  · exact ⟨.retire, rfl⟩

/-- A view of an acknowledgement stands for one in Python when its status has a name. -/
theorem exists_sameAck_iff {p : List UInt8} {id : Nat} (hshape : AckShape p) :
    (∃ requestId ack, SameAck requestId ack (ackView p id)) ↔ load32 p 16 ≤ 5 := by
  rw [← exists_status_iff]
  constructor
  · intro ⟨_, ack, hsame⟩
    exact ⟨ack.status, hsame.status⟩
  · intro ⟨status, hstatus⟩
    obtain ⟨text, htext⟩ := hshape.text
    exact ⟨_, ⟨_, _, status, text⟩, rfl, rfl, rfl, hstatus, htext⟩

/-- A view of an error stands for one in Python when its code has a name. -/
theorem exists_sameError_iff {p : List UInt8} {id : Nat} (hshape : ErrorShape p) :
    (∃ requestId error, SameError requestId error (errorView p id)) ↔ load32 p 0 ≤ 5 := by
  rw [← exists_status_iff]
  constructor
  · intro ⟨_, error, hsame⟩
    exact ⟨error.status, hsame.status⟩
  · intro ⟨status, hstatus⟩
    obtain ⟨text, htext⟩ := hshape.text
    exact ⟨_, ⟨status, text⟩, rfl, hstatus, htext⟩

/-- When a view of a startup stands for one in Python. -/
theorem exists_sameStartup_iff {p : List UInt8} {id : Nat} {records : List Native.RoleRecord}
    (hfields : StartupFields p)
    (hrecords : loadArray (Native.loadRole p) 8 112 (load16 p 104) = some records) :
    (∃ requestId startup, SameStartup requestId startup (startupView p id records)) ↔
      load32 p 108 ≤ 5 := by
  rw [← exists_status_iff]
  constructor
  · intro ⟨_, startup, hsame⟩
    exact ⟨startup.status, hsame.status⟩
  · intro ⟨status, hstatus⟩
    obtain ⟨mode, hmode⟩ := exists_logMode hfields.logMode
    have hrole : ∀ {offset record}, Native.loadRole p offset = some record →
        ∃ role, SameRole role record := by
      intro offset record hload
      obtain ⟨rfl, hrange, hflags, hreserved⟩ := loadRole_eq_some_iff.mp hload
      obtain ⟨role, hrole⟩ := exists_role hrange
      exact ⟨role, hrole, hflags, hreserved⟩
    obtain ⟨roles, hroles⟩ := exists_forall₂_of_loadArray hrole hrecords
    exact ⟨_, ⟨_, _, _, _, _, _, _, _, _, roles, mode, status⟩, rfl, rfl, rfl, rfl, rfl, rfl, rfl,
      rfl, rfl, rfl, hroles, hmode, hstatus⟩

/-- A view of a batch stands for one in Python. -/
theorem exists_sameBatch {p : List UInt8} {id : Nat} {records : List Native.EntryRecord}
    (hrecords : loadArray (Native.loadEntry p) 48 32 (load16 p 16) = some records)
    (hmaps : (records.countP fun record => record.kind = 1) = load16 p 18) :
    ∃ requestId batch, SameBatch requestId batch (batchView p id records) := by
  have hentry : ∀ {offset record}, Native.loadEntry p offset = some record →
      ∃ entry, SameEntry entry record := by
    intro offset record hload
    obtain ⟨rfl, hkind, _⟩ := loadEntry_eq_some_iff.mp hload
    obtain ⟨kind, hkind⟩ := exists_entryKind hkind
    exact ⟨⟨kind, _, _, _, _, _, _⟩, hkind, rfl, rfl, rfl, rfl, rfl, rfl⟩
  obtain ⟨entries, hentries⟩ := exists_forall₂_of_loadArray hentry hrecords
  refine ⟨_, ⟨_, _, entries⟩, rfl, rfl, rfl, ?_, hentries⟩
  rw [FdBatch.fdCount, countP_of_same hentries, hmaps]
  rfl

/-! ### Agreement -/

/-- Two decoders accept a packet together, with the same fields. -/
structure Agrees {α β : Type} (python : Except Exn (Int × α)) (native : Option β)
    (same : Int → α → β → Prop) : Prop where
  accept : (∃ result, python = .ok result) ↔ ∃ view, native = some view
  fields : ∀ requestId value view, python = .ok (requestId, value) → native = some view →
    same requestId value view

/-- The decoders of both languages agree on a packet. The arrays of the caller have room for
what a packet may hold. -/
structure DecodersAgree (packet : List UInt8) : Prop where
  startup : ∀ response capacity, 16 ≤ capacity → Agrees (decodeStartup packet response)
    (Native.decodeStartup packet (startupKind response).value.toNat capacity) SameStartup
  fdBatch : ∀ capacity, 240 ≤ capacity →
    Agrees (decodeFdBatch packet) (Native.decodeFdBatch packet capacity) SameBatch
  fdAck : Agrees (decodeFdAck packet) (Native.decodeFdAck packet) SameAck
  error : Agrees (decodeError packet) (Native.decodeError packet) SameError

/-- The packet is in order as a startup, an acknowledgement or an error response, but its status
is not a known one. -/
def UnknownStatus (packet : List UInt8) : Prop :=
  (∃ response requestId p, encodeFrame (startupKind response) requestId p = .ok packet ∧
    StartupFields p ∧ (∀ i < load16 p 104, RoleShape p (112 + i * 8)) ∧ 5 < load32 p 108) ∨
  (∃ requestId p, encodeFrame .fdTransferAck requestId p = .ok packet ∧ AckShape p ∧
    5 < load32 p 16) ∨
  (∃ requestId p, encodeFrame .errorResponse requestId p = .ok packet ∧ ErrorShape p ∧
    5 < load32 p 0)

/-- Agreement, when a value is decoded exactly when a view of it is: every view is of a value. -/
theorem agrees_iff {α β : Type} {python : Except Exn (Int × α)} {native : Option β}
    {same : Int → α → β → Prop}
    (h : ∀ {requestId value}, python = .ok (requestId, value) ↔
      ∃ view, native = some view ∧ same requestId value view) :
    Agrees python native same ↔
      ∀ view, native = some view → ∃ requestId value, same requestId value view := by
  constructor
  · intro hagrees view hview
    obtain ⟨⟨requestId, value⟩, hvalue⟩ := hagrees.accept.mpr ⟨view, hview⟩
    exact ⟨requestId, value, hagrees.fields _ _ _ hvalue hview⟩
  · intro hviews
    refine ⟨⟨?_, ?_⟩, ?_⟩
    · intro ⟨⟨requestId, value⟩, hvalue⟩
      obtain ⟨view, hview, _⟩ := h.mp hvalue
      exact ⟨view, hview⟩
    · intro ⟨view, hview⟩
      obtain ⟨requestId, value, hsame⟩ := hviews view hview
      exact ⟨_, h.mpr ⟨view, hview, hsame⟩⟩
    · intro requestId value view hvalue hview
      obtain ⟨view', hview', hsame⟩ := h.mp hvalue
      rw [hview] at hview'
      cases hview'
      exact hsame

/-- Agreement behind the frame: a frame whose payload has a view is of a value. -/
theorem agrees_withFrame_iff {α β : Type} {packet : List UInt8} {python : Except Exn (Int × α)}
    (kind : Kind) {size : Nat} {rest : List UInt8 → Nat → Option β} {same : Int → α → β → Prop}
    (h : ∀ {requestId value}, python = .ok (requestId, value) ↔
      ∃ view, Native.withFrame packet kind.value.toNat size rest = some view ∧
        same requestId value view)
    {bad : List UInt8 → Prop}
    (hbad : ∀ p (id : Nat), (size ≤ p.length ∧ ∃ view, rest p id = some view ∧
      ¬ ∃ requestId value, same requestId value view) ↔ bad p) :
    Agrees python (Native.withFrame packet kind.value.toNat size rest) same ↔
      ¬ ∃ requestId p, encodeFrame kind requestId p = .ok packet ∧ bad p := by
  rw [agrees_iff h]
  constructor
  · intro hviews ⟨requestId, p, hframe, hp⟩
    obtain ⟨id, rfl, _⟩ := encodeFrame_iff_frame.mp hframe
    obtain ⟨hsize, view, hview, hnone⟩ := (hbad p id).mpr hp
    exact hnone (hviews view ((withFrame_eq_some_iff kind).mpr ⟨p, id, hframe, hsize, hview⟩))
  · intro hnone view hview
    obtain ⟨p, id, hframe, hsize, hview⟩ := (withFrame_eq_some_iff kind).mp hview
    by_contra hvalue
    exact hnone ⟨id, p, hframe, (hbad p id).mp ⟨hsize, view, hview, hvalue⟩⟩

/-- The decoders agree on the acknowledgements but those whose status has no name. -/
theorem fdAck_agrees_iff {packet : List UInt8} :
    Agrees (decodeFdAck packet) (Native.decodeFdAck packet) SameAck ↔
      ¬ ∃ requestId p, encodeFrame .fdTransferAck requestId p = .ok packet ∧ AckShape p ∧
        5 < load32 p 16 := by
  apply agrees_withFrame_iff .fdTransferAck decodeFdAck_iff
  intro p id
  constructor
  · intro ⟨_, view, hview, hnone⟩
    obtain ⟨rfl, hshape⟩ := viewFdAck_eq_some_iff.mp hview
    rw [exists_sameAck_iff hshape] at hnone
    exact ⟨hshape, by omega⟩
  · intro ⟨hshape, hstatus⟩
    have hsize := hshape.size
    refine ⟨by omega, ackView p id, viewFdAck_eq_some_iff.mpr ⟨rfl, hshape⟩, ?_⟩
    rw [exists_sameAck_iff hshape]
    omega

/-- The decoders agree on the errors but those whose code has no name. -/
theorem error_agrees_iff {packet : List UInt8} :
    Agrees (decodeError packet) (Native.decodeError packet) SameError ↔
      ¬ ∃ requestId p, encodeFrame .errorResponse requestId p = .ok packet ∧ ErrorShape p ∧
        5 < load32 p 0 := by
  apply agrees_withFrame_iff .errorResponse decodeError_iff
  intro p id
  constructor
  · intro ⟨_, view, hview, hnone⟩
    obtain ⟨rfl, hshape⟩ := viewError_eq_some_iff.mp hview
    rw [exists_sameError_iff hshape] at hnone
    exact ⟨hshape, by omega⟩
  · intro ⟨hshape, hstatus⟩
    have hsize := hshape.size
    refine ⟨by omega, errorView p id, viewError_eq_some_iff.mpr ⟨rfl, hshape⟩, ?_⟩
    rw [exists_sameError_iff hshape]
    omega

/-- When the decoders agree on a startup packet. -/
theorem startup_agrees_iff {packet : List UInt8} {response : Bool} {capacity : Nat}
    (hcapacity : 16 ≤ capacity) :
    Agrees (decodeStartup packet response)
        (Native.decodeStartup packet (startupKind response).value.toNat capacity) SameStartup ↔
      ¬ ∃ requestId p, encodeFrame (startupKind response) requestId p = .ok packet ∧
        StartupFields p ∧ (∀ i < load16 p 104, RoleShape p (112 + i * 8)) ∧
        5 < load32 p 108 := by
  apply agrees_withFrame_iff (startupKind response) (decodeStartup_iff hcapacity)
  intro p id
  have hroles : (∃ roles, loadArray (Native.loadRole p) 8 112 (load16 p 104) = some roles) ↔
      ∀ i < load16 p 104, RoleShape p (112 + i * 8) := by
    rw [exists_loadArray_iff]
    simp only [loadRole_eq_some_iff, exists_eq_left]
  rw [← hroles]
  constructor
  · intro ⟨_, view, hview, hnone⟩
    obtain ⟨roles, rfl, hfields, hload⟩ := (viewStartup_eq_some_iff hcapacity).mp hview
    rw [exists_sameStartup_iff hfields hload] at hnone
    exact ⟨hfields, ⟨roles, hload⟩, by omega⟩
  · intro ⟨hfields, ⟨roles, hload⟩, hstatus⟩
    have hsize := hfields.size
    refine ⟨by omega, startupView p id roles,
      (viewStartup_eq_some_iff hcapacity).mpr ⟨roles, rfl, hfields, hload⟩, ?_⟩
    rw [exists_sameStartup_iff hfields hload]
    omega

/-- The decoders agree on every batch. -/
theorem fdBatch_agrees {packet : List UInt8} {capacity : Nat} (hcapacity : 240 ≤ capacity) :
    Agrees (decodeFdBatch packet) (Native.decodeFdBatch packet capacity) SameBatch := by
  rw [agrees_iff (decodeFdBatch_iff hcapacity)]
  intro view hview
  obtain ⟨p, id, _, _, hview⟩ := (withFrame_eq_some_iff .fdTransfer).mp hview
  obtain ⟨entries, rfl, _, hload, hmaps⟩ := (viewFdBatch_eq_some_iff hcapacity).mp hview
  exact exists_sameBatch hload hmaps

/-- **The decoders of both languages.** They accept a packet together and read the same fields
from it, unless its only fault is an unknown status. -/
theorem decodersAgree_iff (packet : List UInt8) :
    DecodersAgree packet ↔ ¬ UnknownStatus packet := by
  rw [UnknownStatus, not_or, not_or, ← fdAck_agrees_iff, ← error_agrees_iff]
  constructor
  · intro h
    refine ⟨?_, h.fdAck, h.error⟩
    intro ⟨response, hunknown⟩
    exact (startup_agrees_iff (le_refl 16)).mp (h.startup response 16 (le_refl 16)) hunknown
  · intro ⟨hstartup, hack, herror⟩
    exact {
      startup := fun response capacity hcapacity =>
        (startup_agrees_iff hcapacity).mpr fun hunknown => hstartup ⟨response, hunknown⟩
      fdBatch := fun capacity hcapacity => fdBatch_agrees hcapacity
      fdAck := hack
      error := herror }

/-- An error response with the status 6 and an empty message. -/
def unknownErrorPacket : List UInt8 :=
  [0x57, 0x4D, 0x46, 0x53, 0x43, 0x54, 0x4C, 0x31, 1, 0, 0, 0, 7, 0, 0, 0, 32, 0, 0, 0,
    8, 0, 0, 0, 0, 0, 0, 0, 0, 0, 0, 0, 6, 0, 0, 0, 0, 0, 0, 0]

/-- The C++ decoder accepts it, and the Python decoder does not. -/
theorem not_decodersAgree_unknown_status :
    Native.decodeError unknownErrorPacket = some ⟨0, 6, 0, []⟩ ∧
    decodeError unknownErrorPacket = .error (.protocolError "unknown error status") ∧
    ¬ DecodersAgree unknownErrorPacket := by
  have hnative : Native.decodeError unknownErrorPacket = some ⟨0, 6, 0, []⟩ := by
    have hframe : encodeFrame .errorResponse (0 : Nat) (unknownErrorPacket.drop 32) =
        .ok unknownErrorPacket := by decide +kernel
    have hshape : ErrorShape (unknownErrorPacket.drop 32) :=
      ⟨by decide, by decide, by decide, [], rfl⟩
    exact (withFrame_eq_some_iff .errorResponse).mpr
      ⟨_, 0, hframe, by decide, viewError_eq_some_iff.mpr ⟨by decide, hshape⟩⟩
  have hpython : decodeError unknownErrorPacket =
      .error (.protocolError "unknown error status") := by decide +kernel
  refine ⟨hnative, hpython, ?_⟩
  intro h
  obtain ⟨result, hresult⟩ := h.error.accept.mpr ⟨_, hnative⟩
  rw [hpython] at hresult
  cases hresult

end Wmfs.Control
