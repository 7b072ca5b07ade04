import Wmfs.Control.Codec

/-!
# `Wmfs.Control.RoundTrip`: the control codecs are inverse pairs

For each kind of frame, a packet decodes to a value exactly when the value encodes to the packet
(`decodeStartup_ok_iff` and its like). This is the round trip in one direction, and the canonical
form of accepted packets in the other. The frame is treated once (`decodeFrame_ok_iff`,
`decodeFramed_ok_iff`), and each payload on its own.

The SDK codec is compared with the runtime codec step by step.
-/

set_option autoImplicit false

namespace Wmfs.Control

open Wmfs.Lib
open Wmfs.Lib.Utf8 (Text)

/-! ### Steps -/

/-- `refuse` passes when the fault is absent. -/
@[simp] theorem refuse_ok_iff {bad : Prop} [Decidable bad] {message : String} {u : Unit} :
    refuse bad message = .ok u ↔ ¬ bad := by
  unfold refuse
  split <;> simp_all

/-- An enumeration accepts the numbers of its members. -/
@[simp] theorem parseEnum_ok_iff {α : Type} [IntEnum α] {n : Int} {message : String}
    {member : α} : parseEnum n message = .ok member ↔ IntEnum.value member = n := by
  unfold parseEnum
  rw [← IntEnum.ofValue_eq_some_iff]
  cases (IntEnum.ofValue n : Option α) <;> simp

/-- `struct.pack` succeeds when every value fits into its field. -/
@[simp] theorem structPack_ok_iff {format : List Field} {values : List Int}
    {bytes : List UInt8} : structPack format values = .ok bytes ↔
      pack format values = some bytes := by
  unfold structPack
  cases pack format values <;> simp

/-- A text is encoded when it has no surrogates. -/
@[simp] theorem encodeText_ok_iff {text : Text} {bytes : List UInt8} :
    encodeText text = .ok bytes ↔ Utf8.encode text = some bytes := by
  unfold encodeText
  cases Utf8.encode text <;> simp

/-- The bytes that are valid UTF-8 are the encodings of texts. -/
@[simp] theorem validateUtf8_ok_iff {value : List UInt8} {name : String} {text : Text} :
    validateUtf8 value name = .ok text ↔ Utf8.encode text = some value := by
  unfold validateUtf8
  constructor
  · intro h
    cases hdecode : Utf8.decode value with
    | none => rw [hdecode] at h; cases h
    | some decoded =>
      rw [hdecode] at h
      cases h
      exact Utf8.encode_of_decode hdecode
  · intro h
    rw [Utf8.decode_encode h]

/-- `_u64` accepts 64 bits. -/
@[simp] theorem u64_ok_iff {value : Int} {name : String} {u : Unit} :
    u64 value name = .ok u ↔ 0 ≤ value ∧ value < 2 ^ 64 := by
  rw [u64, refuse_ok_iff]
  omega

/-- `_u32` accepts 32 bits. -/
@[simp] theorem u32_ok_iff {value : Int} {name : String} {u : Unit} :
    u32 value name = .ok u ↔ 0 ≤ value ∧ value < 2 ^ 32 := by
  rw [u32, refuse_ok_iff]
  omega

/-- What was packed is in range. -/
theorem holds_of_pack {format : List Field} {values : List Int} {bytes : List UInt8}
    (h : pack format values = some bytes) : List.Forall₂ Field.Holds format values := by
  rw [← isSome_pack_iff, h]
  rfl

/-! ### Frames -/

/-- A frame is its header and its payload. -/
theorem encodeFrame_ok_iff {kind : Kind} {requestId : Int} {payload packet : List UInt8} :
    encodeFrame kind requestId payload = .ok packet ↔
      payload.length ≤ 69600 ∧ ∃ header,
        pack FRAME [MAGIC, ABI_MAJOR, ABI_MINOR, kind.value, 0, 32, payload.length, requestId] =
          some header ∧ packet = header ++ payload := by
  have hlimit : MAX_PACKET_BYTES - FRAME_HEADER_SIZE = 69600 := rfl
  simp only [encodeFrame, Result.bind_ok_iff, u64_ok_iff, refuse_ok_iff, structPack_ok_iff,
    exists_const, hlimit, not_lt]
  constructor
  · intro ⟨_, hlength, header, hheader, h⟩
    cases h
    exact ⟨hlength, header, hheader, rfl⟩
  · intro ⟨hlength, header, hheader, h⟩
    have hholds := holds_of_pack hheader
    simp only [FRAME, List.forall₂_cons, Field.holds_Q_iff] at hholds
    exact ⟨hholds.2.2.2.2.2.2.2.1, hlength, header, hheader, by rw [h]; rfl⟩

/-- A packet is decoded to a frame exactly when the frame encodes to the packet. -/
theorem decodeFrame_ok_iff {packet : List UInt8} {frame : Frame} :
    decodeFrame packet = .ok frame ↔
      encodeFrame frame.kind frame.requestId frame.payload = .ok packet := by
  have hsize : formatSize FRAME = 32 := rfl
  have hlimits : FRAME_HEADER_SIZE = 32 ∧ MAX_PACKET_BYTES = 69632 := ⟨rfl, rfl⟩
  rw [encodeFrame_ok_iff]
  constructor
  · intro h
    obtain ⟨_, hlength, h⟩ := Result.bind_ok_iff.mp h
    rw [refuse_ok_iff] at hlength
    split at h
    case h_2 => cases h
    rename_i magic major minor kind flags headerSize payloadSize requestId hvalues
    rw [unpack_eq_iff (by omega), hsize] at hvalues
    have hholds := holds_of_pack hvalues
    simp only [FRAME, List.forall₂_cons, Field.holds_H_iff] at hholds
    obtain ⟨_, _, hminorRange, _⟩ := hholds
    simp only [Result.bind_ok_iff, refuse_ok_iff, parseEnum_ok_iff, exists_const] at h
    obtain ⟨habi, hheader, hpayload, frameKind, hkind, h⟩ := h
    cases h
    simp only [not_or, not_not] at habi hheader hpayload
    obtain ⟨rfl, rfl, hminor⟩ := habi
    obtain ⟨rfl, rfl⟩ := hheader
    have hminor : minor = ABI_MINOR := by
      rw [ABI_MINOR] at hminor ⊢
      omega
    have hdrop : (packet.drop FRAME_HEADER_SIZE).length = packet.length - 32 := List.length_drop
    refine ⟨by rw [hdrop]; omega, packet.take 32, ?_, (List.take_append_drop 32 packet).symm⟩
    rw [hdrop, ← hvalues, hminor, hpayload, ← hkind]
    congr 8
    omega
  · intro ⟨hlength, header, hheader, hpacket⟩
    have hheaderLength : header.length = 32 := length_of_pack hheader
    have hpacketLength : packet.length = 32 + frame.payload.length := by
      rw [hpacket, List.length_append, hheaderLength]
    have hvalues := unpack_pack hheader frame.payload
    rw [← hpacket] at hvalues
    have hpayload : packet.drop 32 = frame.payload := by
      rw [hpacket, List.drop_left' hheaderLength]
    rw [decodeFrame, hvalues]
    simp only [Result.bind_ok_iff, refuse_ok_iff, parseEnum_ok_iff, exists_const]
    refine ⟨by omega, by simp [ABI_MINOR], by simp [hlimits], by omega, frame.kind, rfl, ?_⟩
    rw [hlimits.1, hpayload]
    rfl

/-- A framed value is decoded exactly when its payload was framed. -/
theorem decodeFramed_ok_iff {α : Type} {packet : List UInt8} {kind : Kind} {size : Nat}
    {message : String} {parse : List UInt8 → Except Exn α} {requestId : Int} {result : α} :
    decodeFramed (decodeFrame packet) kind size message parse = .ok (requestId, result) ↔
      ∃ payload, (size ≤ payload.length ∧ parse payload = .ok result) ∧
        encodeFrame kind requestId payload = .ok packet := by
  simp only [decodeFramed, Result.bind_ok_iff, refuse_ok_iff, exists_const, decodeFrame_ok_iff]
  constructor
  · intro ⟨frame, hframe, hkind, parsed, hparse, h⟩
    cases h
    rw [not_or, not_not, not_lt] at hkind
    rw [hkind.1] at hframe
    exact ⟨frame.payload, ⟨hkind.2, hparse⟩, hframe⟩
  · intro ⟨payload, ⟨hsize, hparse⟩, hframe⟩
    refine ⟨⟨kind, requestId, payload⟩, hframe, ?_, result, hparse, rfl⟩
    rw [not_or, not_not, not_lt]
    exact ⟨rfl, hsize⟩

/-! ### Startup -/

/-- A role is read from the bytes that it is written as. -/
theorem decodeRole_ok_iff {payload : List UInt8} {offset : Nat} {role : DescriptorRole}
    (hroom : offset + 8 ≤ payload.length) :
    decodeRole payload offset = .ok role ↔ encodeRole role = .ok (slice payload offset 8) := by
  have hsize : formatSize ROLE = 8 := rfl
  have hlength : formatSize ROLE ≤ (payload.drop offset).length := by
    rw [List.length_drop, hsize]
    omega
  rw [encodeRole, structPack_ok_iff, slice, ← hsize, ← unpack_eq_iff hlength]
  constructor
  · intro h
    unfold decodeRole at h
    split at h
    case h_2 => cases h
    rename_i number flags reserved hvalues
    simp only [Result.bind_ok_iff, refuse_ok_iff, parseEnum_ok_iff, exists_const, not_or,
      not_not] at h
    obtain ⟨⟨rfl, rfl⟩, rfl⟩ := h
    exact hvalues
  · intro hvalues
    rw [decodeRole, hvalues]
    simp only [Result.bind_ok_iff, refuse_ok_iff, parseEnum_ok_iff, exists_const]
    exact ⟨by simp, rfl⟩

/-- A descriptor role has 8 bytes. -/
theorem length_of_encodeRole {role : DescriptorRole} {bytes : List UInt8}
    (h : encodeRole role = .ok bytes) : bytes.length = 8 :=
  length_of_pack (structPack_ok_iff.mp h)

/-- The parts of the payload of a startup. -/
structure StartupParts (startup : Startup) (payload : List UInt8) : Prop where
  generation : pack STARTUP_HEAD [startup.sessionGeneration] = some (slice payload 0 8)
  interface : slice payload 8 32 = startup.interfaceFingerprint
  configuration : slice payload 40 32 = startup.configurationFingerprint
  tail : pack STARTUP_TAIL startup.tail = some (slice payload 72 40)
  roles : concatArray encodeRole startup.descriptorRoles =
    .ok (slice payload 112 (startup.descriptorRoles.length * 8))
  config : slice payload (112 + startup.descriptorRoles.length * 8) startup.config.length =
    startup.config
  size : 112 + startup.descriptorRoles.length * 8 + startup.config.length = payload.length

/-- The payload of a startup is the sequence of its parts. -/
theorem Startup.bytes_ok_iff {startup : Startup} {payload : List UInt8}
    (hinterface : startup.interfaceFingerprint.length = 32)
    (hconfiguration : startup.configurationFingerprint.length = 32) :
    startup.bytes = .ok payload ↔ StartupParts startup payload := by
  have hdigest : ∀ bytes : List UInt8, bytes.length = 32 → digest bytes = bytes := by
    intro bytes hbytes
    rw [digest, List.take_of_length_le hbytes.le, padTo_of_length_ge hbytes.ge]
  have hspells : ∀ {head tail roles : List UInt8}, head.length = 8 → tail.length = 40 →
      roles.length = startup.descriptorRoles.length * 8 →
      (payload = head ++ startup.interfaceFingerprint ++ startup.configurationFingerprint ++
          tail ++ roles ++ startup.config ↔
        slice payload 0 8 = head ∧ slice payload 8 32 = startup.interfaceFingerprint ∧
        slice payload 40 32 = startup.configurationFingerprint ∧ slice payload 72 40 = tail ∧
        slice payload 112 (startup.descriptorRoles.length * 8) = roles ∧
        slice payload (112 + startup.descriptorRoles.length * 8) startup.config.length =
          startup.config ∧
        112 + startup.descriptorRoles.length * 8 + startup.config.length = payload.length) := by
    intro head tail roles hhead htail hroles
    have hflatten : head ++ startup.interfaceFingerprint ++ startup.configurationFingerprint ++
        tail ++ roles ++ startup.config = [head, startup.interfaceFingerprint,
          startup.configurationFingerprint, tail, roles, startup.config].flatten := by
      simp
    rw [hflatten, eq_flatten_iff]
    simp only [Spells, hhead, hinterface, hconfiguration, htail, hroles]
  simp only [Startup.bytes, Result.bind_ok_iff, structPack_ok_iff, hdigest _ hinterface,
    hdigest _ hconfiguration]
  constructor
  · rintro ⟨head, hhead, tail, htail, roles, hroles, h⟩
    have hrolesLength := ((concatArray_ok_iff length_of_encodeRole).mp hroles).1
    obtain ⟨h0, h8, h40, h72, h112, hconfig, hsize⟩ :=
      (hspells (length_of_pack hhead) (length_of_pack htail) hrolesLength).mp
        (Except.ok.inj h).symm
    exact ⟨by rw [h0]; exact hhead, h8, h40, by rw [h72]; exact htail, by rw [h112]; exact hroles,
      hconfig, hsize⟩
  · intro h
    have hrolesLength := ((concatArray_ok_iff length_of_encodeRole).mp h.roles).1
    refine ⟨_, h.generation, _, h.tail, _, h.roles, congrArg Except.ok ?_⟩
    exact ((hspells (length_of_pack h.generation) (length_of_pack h.tail) hrolesLength).mpr
      ⟨rfl, h.interface, h.configuration, rfl, rfl, h.config, h.size⟩).symm

/-- What `encode_startup` asks of a startup, next to the ranges of its fields. -/
structure StartupFits (startup : Startup) : Prop where
  config : ∃ text, Utf8.encode text = some startup.config
  configLength : startup.config.length ≤ 65536
  interface : startup.interfaceFingerprint.length = 32
  configuration : startup.configurationFingerprint.length = 32
  roles : startup.descriptorRoles.length ≤ 16

/-- A startup is encoded when it fits, as the frame of its parts. -/
theorem encodeStartup_ok_iff {startup : Startup} {response : Bool} {requestId : Int}
    {packet : List UInt8} : encodeStartup startup response requestId = .ok packet ↔
      ∃ payload, (StartupFits startup ∧ StartupParts startup payload) ∧
        encodeFrame (startupKind response) requestId payload = .ok packet := by
  have hlimits : MAX_CONFIG_BYTES = 65536 ∧ MAX_DESCRIPTOR_ROLES = 16 := ⟨rfl, rfl⟩
  simp only [encodeStartup, Result.bind_ok_iff, refuse_ok_iff, u64_ok_iff, u32_ok_iff,
    validateUtf8_ok_iff, exists_const, hlimits, not_or, not_not, not_lt]
  constructor
  · intro ⟨text, htext, hlength, ⟨hinterface, hconfiguration⟩, hroles, _, _, _, _, _, _, payload,
      hpayload, hframe⟩
    rw [Startup.bytes_ok_iff hinterface hconfiguration] at hpayload
    exact ⟨payload, ⟨⟨⟨text, htext⟩, hlength, hinterface, hconfiguration, hroles⟩, hpayload⟩,
      hframe⟩
  · intro ⟨payload, ⟨hfits, hparts⟩, hframe⟩
    obtain ⟨text, htext⟩ := hfits.config
    -- The ranges that are checked are those of the packed fields.
    have hhead := holds_of_pack hparts.generation
    have htail := holds_of_pack hparts.tail
    simp only [STARTUP_HEAD, List.forall₂_cons, Field.holds_Q_iff] at hhead
    simp only [STARTUP_TAIL, Startup.tail, List.forall₂_cons, Field.holds_Q_iff,
      Field.holds_I_iff] at htail
    obtain ⟨hmetadata, hcapabilities, hoperations, hprotocol, hschema, _⟩ := htail
    exact ⟨text, htext, hfits.configLength, ⟨hfits.interface, hfits.configuration⟩, hfits.roles,
      hhead.1, hmetadata, hcapabilities, hoperations, hprotocol, hschema, payload,
      (Startup.bytes_ok_iff hfits.interface hfits.configuration).mpr hparts, hframe⟩

/-- A payload is parsed to a startup exactly when it is made of the parts of the startup. -/
theorem parseStartup_ok_iff {payload : List UInt8} {startup : Startup} :
    (112 ≤ payload.length ∧ parseStartup payload = .ok startup) ↔
      StartupFits startup ∧ StartupParts startup payload := by
  have hlimits : MAX_CONFIG_BYTES = 65536 ∧ MAX_DESCRIPTOR_ROLES = 16 ∧
    STARTUP_FIXED_SIZE = 112 := ⟨rfl, rfl, rfl⟩
  have hsizes : formatSize STARTUP_HEAD = 8 ∧ formatSize STARTUP_TAIL = 40 := ⟨rfl, rfl⟩
  constructor
  · rintro ⟨hsize, h⟩
    unfold parseStartup at h
    split at h
    case h_2 => cases h
    rename_i sessionGeneration metadataFingerprint capabilities operationCount protocolVersion
      configurationSchemaVersion configLength roleCount logMode status hhead htail
    rw [unpack_eq_iff (by omega), hsizes.1] at hhead
    rw [unpack_eq_iff (by rw [List.length_drop]; omega), hsizes.2] at htail
    have hholds := holds_of_pack htail
    simp only [STARTUP_TAIL, List.forall₂_cons, Field.holds_I_iff, Field.holds_H_iff] at hholds
    obtain ⟨_, _, _, _, _, hconfigRange, hroleRange, _⟩ := hholds
    simp only [Result.bind_ok_iff, refuse_ok_iff, parseEnum_ok_iff, validateUtf8_ok_iff,
      exists_const, hlimits, not_or, not_not, not_lt] at h
    obtain ⟨⟨hconfigLimit, hroleLimit⟩, htotal, roles, hroles, text, htext, parsedMode, rfl,
      parsedStatus, rfl, h⟩ := h
    cases h
    obtain ⟨hcount, hroles⟩ := (readArray_slots_iff length_of_encodeRole decodeRole_ok_iff
      (by omega)).mp hroles
    have hconfig : (payload.drop (112 + roleCount.toNat * 8)).length = configLength.toNat := by
      rw [List.length_drop]
      omega
    have hconfigCast : ((configLength.toNat : Nat) : Int) = configLength := by omega
    have hroleCast : ((roleCount.toNat : Nat) : Int) = roleCount := by omega
    refine ⟨?_, ?_⟩
    · exact {
        config := ⟨text, htext⟩
        configLength := by simp only [hconfig]; omega
        interface := length_slice (by omega)
        configuration := length_slice (by omega)
        roles := by simp only [hcount]; omega }
    · exact {
        generation := hhead
        interface := rfl
        configuration := rfl
        tail := by
          simp only [Startup.tail, hconfig, hcount, hconfigCast, hroleCast]
          exact htail
        roles := by
          simp only [hcount]
          exact hroles
        config := by
          simp only [hcount]
          rw [slice, List.take_length]
        size := by
          simp only [hcount, hconfig]
          omega }
  · rintro ⟨hfits, hparts⟩
    obtain ⟨text, htext⟩ := hfits.config
    have hsize := hparts.size
    have hconfigLimit := hfits.configLength
    have hroleLimit := hfits.roles
    have hhead := hparts.generation
    have htail := hparts.tail
    rw [slice, List.drop_zero, ← hsizes.1, ← unpack_eq_iff (by omega)] at hhead
    rw [slice, ← hsizes.2, ← unpack_eq_iff (by rw [List.length_drop]; omega)] at htail
    have hconfig : payload.drop (112 + startup.descriptorRoles.length * 8) = startup.config := by
      rw [← hparts.config, slice, List.take_of_length_le (by rw [List.length_drop]; omega)]
    refine ⟨by omega, ?_⟩
    rw [parseStartup, hhead, htail]
    simp only [Startup.tail, Result.bind_ok_iff, refuse_ok_iff, parseEnum_ok_iff,
      validateUtf8_ok_iff, exists_const, hlimits, Int.toNat_natCast, hconfig]
    refine ⟨by omega, by omega, startup.descriptorRoles,
      (readArray_slots_iff length_of_encodeRole decodeRole_ok_iff (by omega)).mpr
        ⟨rfl, hparts.roles⟩, text, htext, startup.logMode, rfl,
      startup.status, rfl, ?_⟩
    rw [hparts.interface, hparts.configuration]
    rfl

/-- A packet is decoded to a startup exactly when the startup encodes to the packet. -/
theorem decodeStartup_ok_iff {packet : List UInt8} {response : Bool} {requestId : Int}
    {startup : Startup} : decodeStartup packet response = .ok (requestId, startup) ↔
      encodeStartup startup response requestId = .ok packet := by
  rw [decodeStartup, decodeFramed_ok_iff, encodeStartup_ok_iff]
  simp only [show STARTUP_FIXED_SIZE = 112 from rfl, parseStartup_ok_iff]

/-! ### Descriptor batches -/

/-- An entry is encoded when its flags suit its kind. -/
theorem encodeEntry_ok_iff {entry : FdEntry} {bytes : List UInt8} :
    encodeEntry entry = .ok bytes ↔ entry.flags / 4 = 0 ∧
      (entry.kind = .retire → entry.flags = 0) ∧ pack FD_ENTRY entry.values = some bytes := by
  simp only [encodeEntry, Result.bind_ok_iff, refuse_ok_iff, u64_ok_iff, structPack_ok_iff,
    exists_const, not_and, not_not]
  constructor
  · intro ⟨_, hflags, hretire, _, _, _, _, _, hpack⟩
    exact ⟨hflags, hretire, hpack⟩
  · intro ⟨hflags, hretire, hpack⟩
    have hholds := holds_of_pack hpack
    simp only [FD_ENTRY, FdEntry.values, List.forall₂_cons, Field.holds_Q_iff] at hholds
    obtain ⟨_, _, hbuffer, hgeneration, hallocation, hinvocation, hlength, _⟩ := hholds
    refine ⟨?_, hflags, hretire, hbuffer, hgeneration, hallocation, hinvocation, hlength, hpack⟩
    cases entry.kind <;> simp

/-- An entry has 48 bytes. -/
theorem length_of_encodeEntry {entry : FdEntry} {bytes : List UInt8}
    (h : encodeEntry entry = .ok bytes) : bytes.length = 48 :=
  length_of_pack (encodeEntry_ok_iff.mp h).2.2

/-- An entry is read from the bytes that it is written as. -/
theorem decodeEntry_ok_iff {payload : List UInt8} {offset : Nat} {entry : FdEntry}
    (hroom : offset + 48 ≤ payload.length) :
    decodeEntry payload offset = .ok entry ↔
      encodeEntry entry = .ok (slice payload offset 48) := by
  have hsize : formatSize FD_ENTRY = 48 := rfl
  have hlength : formatSize FD_ENTRY ≤ (payload.drop offset).length := by
    rw [List.length_drop, hsize]
    omega
  rw [encodeEntry_ok_iff, slice, ← hsize, ← unpack_eq_iff hlength]
  constructor
  · intro h
    unfold decodeEntry at h
    split at h
    case h_2 => cases h
    rename_i hvalues
    simp only [Result.bind_ok_iff, refuse_ok_iff, parseEnum_ok_iff, exists_const, not_and,
      not_not] at h
    obtain ⟨kind, rfl, hflags, hretire, h⟩ := h
    cases h
    exact ⟨hflags, hretire, hvalues⟩
  · rintro ⟨hflags, hretire, hvalues⟩
    rw [decodeEntry, hvalues]
    simp only [FdEntry.values, Result.bind_ok_iff, refuse_ok_iff, parseEnum_ok_iff, exists_const,
      not_and, not_not]
    exact ⟨entry.kind, rfl, hflags, hretire, rfl⟩

/-- The loop over the entries reads them in order and counts the MAP entries. -/
theorem decodeEntries_ok_iff {payload : List UInt8} {index count : Nat}
    {entries all : List FdEntry} {maps total : Int} :
    decodeEntries payload index count entries maps = .ok (all, total) ↔
      ∃ new, readArray (decodeEntry payload) 32 48 index count = .ok new ∧
        all = entries ++ new ∧
        total = maps + (new.countP fun entry => entry.kind = .map : Nat) := by
  induction count generalizing index entries maps with
  | zero =>
    simp only [decodeEntries, readArray, Except.ok.injEq, Prod.mk.injEq, exists_eq_left',
      List.append_nil, List.countP_nil, Nat.cast_zero, add_zero]
    constructor
    · rintro ⟨hall, htotal⟩
      exact ⟨hall.symm, htotal.symm⟩
    · rintro ⟨hall, htotal⟩
      exact ⟨hall.symm, htotal.symm⟩
  | succ count ih =>
    have hcount : ∀ (entry : FdEntry) (rest : List FdEntry),
        (maps + if entry.kind = .map then 1 else 0) +
            (rest.countP fun entry => entry.kind = .map : Nat) =
          maps + ((entry :: rest).countP fun entry => entry.kind = .map : Nat) := by
      intro entry rest
      rw [List.countP_cons]
      by_cases hkind : entry.kind = .map
      · simp only [hkind, decide_true, if_true]
        omega
      · simp only [hkind, decide_false, if_false]
        simp
    simp only [decodeEntries, readArray, Result.bind_ok_iff, ih]
    constructor
    · rintro ⟨entry, hentry, rest, hrest, hall, htotal⟩
      refine ⟨entry :: rest, ⟨entry, hentry, rest, hrest, rfl⟩, ?_, ?_⟩
      · rw [hall, List.append_assoc]
        rfl
      · rw [htotal, hcount]
    · rintro ⟨new, ⟨entry, hentry, rest, hrest, hnew⟩, hall, htotal⟩
      cases hnew
      refine ⟨entry, hentry, rest, hrest, ?_, ?_⟩
      · rw [hall, List.append_assoc]
        rfl
      · rw [htotal, hcount]

/-- The payload of a batch: its head, and its entries behind it. -/
def FdBatchPayload (batch : FdBatch) (payload : List UInt8) : Prop :=
  (batch.entries ≠ [] ∧ batch.entries.length ≤ 240) ∧
  concatArray encodeEntry batch.entries = .ok (payload.drop 32) ∧
  pack FD_BATCH [batch.transferId, batch.sessionGeneration, batch.entries.length, batch.fdCount,
    1, 0] = some (payload.take 32)

/-- A batch is encoded as the frame of its payload. -/
theorem encodeFdBatch_ok_iff {batch : FdBatch} {requestId : Int} {packet : List UInt8} :
    encodeFdBatch batch requestId = .ok packet ↔
      ∃ payload, FdBatchPayload batch payload ∧
        encodeFrame .fdTransfer requestId payload = .ok packet := by
  have hlimit : MAX_FD_ENTRIES = 240 ∧ FD_BATCH_TRANSACTIONAL = 1 := ⟨rfl, rfl⟩
  simp only [encodeFdBatch, Result.bind_ok_iff, refuse_ok_iff, u64_ok_iff, structPack_ok_iff,
    exists_const, hlimit, not_or, not_lt]
  constructor
  · intro ⟨hcount, _, _, encoded, hencoded, head, hhead, hframe⟩
    have hlength : head.length = 32 := length_of_pack hhead
    refine ⟨head ++ encoded, ⟨hcount, ?_, ?_⟩, hframe⟩
    · rw [List.drop_left' hlength]
      exact hencoded
    · rw [List.take_left' hlength]
      exact hhead
  · intro ⟨payload, ⟨hcount, hencoded, hhead⟩, hframe⟩
    have hholds := holds_of_pack hhead
    simp only [FD_BATCH, List.forall₂_cons, Field.holds_Q_iff] at hholds
    refine ⟨hcount, hholds.1, hholds.2.1, _, hencoded, _, hhead, ?_⟩
    rw [List.take_append_drop]
    exact hframe

/-- The entries that are read are those whose encodings follow the head. -/
theorem readEntries_ok_iff {payload : List UInt8} {entries : List FdEntry} {count : Nat}
    (hroom : payload.length = 32 + count * 48) :
    readArray (decodeEntry payload) 32 48 0 count = .ok entries ↔
      entries.length = count ∧ concatArray encodeEntry entries = .ok (payload.drop 32) := by
  have hdrop : payload.drop 32 = slice payload 32 (count * 48) := by
    rw [slice, List.take_of_length_le (by rw [List.length_drop]; omega)]
  rw [hdrop]
  exact readArray_slots_iff length_of_encodeEntry decodeEntry_ok_iff (by omega)

/-- A payload is read as a batch when it is the payload of that batch. -/
theorem parseFdBatch_ok_iff {payload : List UInt8} {batch : FdBatch} :
    (32 ≤ payload.length ∧ parseFdBatch payload = .ok batch) ↔ FdBatchPayload batch payload := by
  have hlimit : MAX_FD_ENTRIES = 240 ∧ FD_BATCH_TRANSACTIONAL = 1 := ⟨rfl, rfl⟩
  have hsize : formatSize FD_BATCH = 32 := rfl
  constructor
  · intro ⟨hlength, h⟩
    unfold parseFdBatch at h
    split at h
    case h_2 => cases h
    rename_i transferId generation count fdCount flags reserved hvalues
    rw [unpack_eq_iff (by omega), hsize] at hvalues
    have hholds := holds_of_pack hvalues
    simp only [FD_BATCH, List.forall₂_cons, Field.holds_H_iff] at hholds
    obtain ⟨_, _, hcountRange, _⟩ := hholds
    simp only [Result.bind_ok_iff, refuse_ok_iff, exists_const, hlimit, not_or, not_not,
      not_lt] at h
    obtain ⟨⟨hzero, hmax, rfl, rfl⟩, htotal, ⟨entries, maps⟩, hentries, hmaps, h⟩ := h
    cases h
    obtain ⟨_, hread, rfl, rfl⟩ := decodeEntries_ok_iff.mp hentries
    obtain ⟨hcount, hconcat⟩ := (readEntries_ok_iff (by omega)).mp hread
    have hcast : ((count.toNat : Nat) : Int) = count := by omega
    refine ⟨⟨?_, ?_⟩, hconcat, ?_⟩
    · show entries ≠ []
      intro hnil
      rw [hnil, List.length_nil] at hcount
      omega
    · show entries.length ≤ 240
      omega
    · show pack FD_BATCH [transferId, generation, (entries.length : Int),
        (entries.countP fun entry => entry.kind = .map : Nat), 1, 0] = some (payload.take 32)
      rw [hcount, hcast, ← hvalues, ← hmaps, zero_add]
  · intro ⟨⟨hne, hmax⟩, hconcat, hpack⟩
    have hlength : (payload.take 32).length = 32 := length_of_pack hpack
    rw [List.length_take] at hlength
    have hrest := ((concatArray_ok_iff length_of_encodeEntry).mp hconcat).1
    rw [List.length_drop] at hrest
    rw [← hsize, ← unpack_eq_iff (by omega)] at hpack
    have hpos : 0 < batch.entries.length := List.length_pos_iff.mpr hne
    refine ⟨by omega, ?_⟩
    rw [parseFdBatch, hpack]
    simp only [Result.bind_ok_iff, refuse_ok_iff, exists_const, hlimit, Int.toNat_natCast]
    refine ⟨by omega, by omega, (batch.entries, batch.fdCount), ?_, by simp, rfl⟩
    rw [decodeEntries_ok_iff]
    refine ⟨batch.entries, (readEntries_ok_iff (by omega)).mpr ⟨rfl, hconcat⟩, rfl, ?_⟩
    rw [zero_add, FdBatch.fdCount]

/-- A packet is decoded to a batch exactly when the batch encodes to the packet. -/
theorem decodeFdBatch_ok_iff {packet : List UInt8} {requestId : Int} {batch : FdBatch} :
    decodeFdBatch packet = .ok (requestId, batch) ↔
      encodeFdBatch batch requestId = .ok packet := by
  rw [decodeFdBatch, decodeFramed_ok_iff, encodeFdBatch_ok_iff]
  simp only [parseFdBatch_ok_iff]

/-! ### Acknowledgements and errors -/

/-- The payload of an acknowledgement: its head, and its text behind it. -/
def FdAckPayload (ack : FdAck) (payload : List UInt8) : Prop :=
  Utf8.encode ack.error = some (payload.drop 32) ∧ payload.length ≤ 32 + 1024 ∧
  pack FD_ACK [ack.transferId, ack.sessionGeneration, ack.status.value, 0,
    (payload.drop 32).length, 0] = some (payload.take 32)

/-- An acknowledgement is encoded as the frame of its payload. -/
theorem encodeFdAck_ok_iff {ack : FdAck} {requestId : Int} {packet : List UInt8} :
    encodeFdAck ack requestId = .ok packet ↔
      ∃ payload, FdAckPayload ack payload ∧
        encodeFrame .fdTransferAck requestId payload = .ok packet := by
  have hlimit : MAX_ERROR_BYTES = 1024 := rfl
  simp only [encodeFdAck, Result.bind_ok_iff, refuse_ok_iff, encodeText_ok_iff,
    structPack_ok_iff, exists_const, hlimit, not_lt]
  constructor
  · intro ⟨error, herror, hlength, head, hhead, hframe⟩
    have h32 : head.length = 32 := length_of_pack hhead
    refine ⟨head ++ error, ⟨?_, ?_, ?_⟩, hframe⟩
    · rw [List.drop_left' h32]
      exact herror
    · rw [List.length_append]
      omega
    · rw [List.drop_left' h32, List.take_left' h32]
      exact hhead
  · intro ⟨payload, ⟨herror, hlength, hhead⟩, hframe⟩
    refine ⟨_, herror, by rw [List.length_drop]; omega, _, hhead, ?_⟩
    rw [List.take_append_drop]
    exact hframe

/-- A payload is read as an acknowledgement when it is the payload of that one. -/
theorem parseFdAck_ok_iff {payload : List UInt8} {ack : FdAck} :
    (32 ≤ payload.length ∧ parseFdAck payload = .ok ack) ↔ FdAckPayload ack payload := by
  have hlimit : MAX_ERROR_BYTES = 1024 := rfl
  have hsize : formatSize FD_ACK = 32 := rfl
  constructor
  · intro ⟨hlength, h⟩
    unfold parseFdAck at h
    split at h
    case h_2 => cases h
    rename_i transferId generation status flags errorLength reserved hvalues
    rw [unpack_eq_iff (by omega), hsize] at hvalues
    simp only [Result.bind_ok_iff, refuse_ok_iff, parseEnum_ok_iff, validateUtf8_ok_iff,
      exists_const, hlimit, not_or, not_not, not_lt] at h
    obtain ⟨⟨rfl, rfl, hmax, htotal⟩, error, herror, parsed, rfl, h⟩ := h
    cases h
    refine ⟨herror, by omega, ?_⟩
    have hcast : ((payload.drop 32).length : Int) = errorLength := by
      rw [List.length_drop]
      omega
    rw [hcast]
    exact hvalues
  · intro ⟨herror, hmax, hpack⟩
    have hlength : (payload.take 32).length = 32 := length_of_pack hpack
    rw [List.length_take] at hlength
    rw [← hsize, ← unpack_eq_iff (by omega)] at hpack
    refine ⟨by omega, ?_⟩
    rw [parseFdAck, hpack]
    simp only [hsize, List.length_drop, Result.bind_ok_iff, refuse_ok_iff, parseEnum_ok_iff,
      validateUtf8_ok_iff, exists_const, hlimit]
    exact ⟨by omega, ack.error, herror, ack.status, rfl, rfl⟩

/-- A packet is decoded to an acknowledgement exactly when it encodes to the packet. -/
theorem decodeFdAck_ok_iff {packet : List UInt8} {requestId : Int} {ack : FdAck} :
    decodeFdAck packet = .ok (requestId, ack) ↔ encodeFdAck ack requestId = .ok packet := by
  rw [decodeFdAck, decodeFramed_ok_iff, encodeFdAck_ok_iff]
  simp only [parseFdAck_ok_iff]

/-- The payload of an error response: its head, and its text behind it. -/
def ErrorPayload (error : ErrorResponse) (payload : List UInt8) : Prop :=
  error.status ≠ .ok ∧ Utf8.encode error.message = some (payload.drop 8) ∧
  payload.length ≤ 8 + 1024 ∧
  pack ERROR [error.status.value, (payload.drop 8).length] = some (payload.take 8)

/-- An error is encoded as the frame of its payload. -/
theorem encodeError_ok_iff {error : ErrorResponse} {requestId : Int} {packet : List UInt8} :
    encodeError error requestId = .ok packet ↔
      ∃ payload, ErrorPayload error payload ∧
        encodeFrame .errorResponse requestId payload = .ok packet := by
  have hlimit : MAX_ERROR_BYTES = 1024 := rfl
  simp only [encodeError, Result.bind_ok_iff, refuse_ok_iff, encodeText_ok_iff,
    structPack_ok_iff, exists_const, hlimit, not_or, not_lt]
  constructor
  · intro ⟨message, hmessage, ⟨hstatus, hlength⟩, head, hhead, hframe⟩
    have h8 : head.length = 8 := length_of_pack hhead
    refine ⟨head ++ message, ⟨hstatus, ?_, ?_, ?_⟩, hframe⟩
    · rw [List.drop_left' h8]
      exact hmessage
    · rw [List.length_append]
      omega
    · rw [List.drop_left' h8, List.take_left' h8]
      exact hhead
  · intro ⟨payload, ⟨hstatus, hmessage, hlength, hhead⟩, hframe⟩
    refine ⟨_, hmessage, ⟨hstatus, by rw [List.length_drop]; omega⟩, _, hhead, ?_⟩
    rw [List.take_append_drop]
    exact hframe

/-- A payload is read as an error when it is the payload of that error. -/
theorem parseError_ok_iff {payload : List UInt8} {error : ErrorResponse} :
    (8 ≤ payload.length ∧ parseError payload = .ok error) ↔ ErrorPayload error payload := by
  have hlimit : MAX_ERROR_BYTES = 1024 := rfl
  have hsize : formatSize ERROR = 8 := rfl
  have hok : ∀ status : Status, status.value = 0 ↔ status = .ok := by
    intro status
    cases status <;> simp [Status.value]
  constructor
  · intro ⟨hlength, h⟩
    unfold parseError at h
    split at h
    case h_2 => cases h
    rename_i status length hvalues
    rw [unpack_eq_iff (by omega), hsize] at hvalues
    simp only [Result.bind_ok_iff, refuse_ok_iff, parseEnum_ok_iff, validateUtf8_ok_iff,
      exists_const, hlimit, not_or, not_not, not_lt] at h
    obtain ⟨⟨hstatus, hmax, rfl⟩, message, hmessage, parsed, rfl, h⟩ := h
    cases h
    rw [List.length_drop] at hmax
    exact ⟨fun h => hstatus ((hok parsed).mpr h), hmessage, by omega, hvalues⟩
  · intro ⟨hstatus, hmessage, hmax, hpack⟩
    have hlength : (payload.take 8).length = 8 := length_of_pack hpack
    rw [List.length_take] at hlength
    rw [← hsize, ← unpack_eq_iff (by omega)] at hpack
    refine ⟨by omega, ?_⟩
    rw [parseError, hpack]
    simp only [hsize, Result.bind_ok_iff, refuse_ok_iff, parseEnum_ok_iff, validateUtf8_ok_iff,
      exists_const, hlimit, hok]
    refine ⟨?_, error.message, hmessage, error.status, rfl, rfl⟩
    rw [not_or, not_or]
    exact ⟨hstatus, by rw [List.length_drop]; omega, by simp⟩

/-- A packet is decoded to an error response exactly when it encodes to the packet. -/
theorem decodeError_ok_iff {packet : List UInt8} {requestId : Int} {error : ErrorResponse} :
    decodeError packet = .ok (requestId, error) ↔ encodeError error requestId = .ok packet := by
  rw [decodeError, decodeFramed_ok_iff, encodeError_ok_iff]
  simp only [parseError_ok_iff]

/-! ### The codec of the SDK -/

namespace Sdk

/-- `_uint` accepts the given number of bits. -/
@[simp] theorem uint_ok_iff {value : Int} {name : String} {bits : Nat} {u : Unit} :
    uint value name bits = .ok u ↔ 0 ≤ value ∧ value < 2 ^ bits := by
  rw [uint, refuse_ok_iff, not_not]

/-- Both packages encode the same frames. -/
theorem encodeFrame_ok_iff {kind : Kind} {requestId : Int} {payload packet : List UInt8} :
    encodeFrame kind requestId payload = .ok packet ↔
      Control.encodeFrame kind requestId payload = .ok packet := by
  simp only [encodeFrame, Control.encodeFrame, Result.bind_ok_iff, uint_ok_iff, u64_ok_iff]

/-- Both packages decode the same frames. -/
theorem decodeFrame_ok_iff {packet : List UInt8} {frame : Frame} :
    decodeFrame packet = .ok frame ↔ Control.decodeFrame packet = .ok frame := by
  simp only [decodeFrame, Control.decodeFrame, show FRAME_HEADER_SIZE = 32 from rfl,
    Result.bind_ok_iff]
  apply exists_congr
  intro _
  apply and_congr_right
  intro _
  split
  · simp only [Result.bind_ok_iff, refuse_ok_iff, parseEnum_ok_iff, exists_const, not_or,
      and_assoc]
    rfl
  · exact Iff.rfl

/-- The decoders of one kind accept the same packets when their rests accept the same
payloads. -/
theorem decodeFramed_congr {α : Type} {packet : List UInt8} {kind : Kind} {size : Nat}
    {message : String} {parse parse' : List UInt8 → Except Exn α}
    (hparse : ∀ payload result, size ≤ payload.length →
      (parse payload = .ok result ↔ parse' payload = .ok result))
    {result : Int × α} :
    decodeFramed (decodeFrame packet) kind size message parse = .ok result ↔
      decodeFramed (Control.decodeFrame packet) kind size message parse' = .ok result := by
  simp only [decodeFramed, Result.bind_ok_iff, refuse_ok_iff, exists_const, decodeFrame_ok_iff,
    not_or, not_lt]
  apply exists_congr
  intro frame
  apply and_congr_right
  intro _
  apply and_congr_right
  intro hframe
  simp only [hparse _ _ hframe.2]

/-- Both packages encode the same startups. -/
theorem encodeStartup_ok_iff {startup : Startup} {response : Bool} {requestId : Int}
    {packet : List UInt8} : encodeStartup startup response requestId = .ok packet ↔
      Control.encodeStartup startup response requestId = .ok packet := by
  simp only [encodeStartup, Control.encodeStartup, Result.bind_ok_iff, refuse_ok_iff, uint_ok_iff,
    u64_ok_iff, u32_ok_iff, exists_const, encodeFrame_ok_iff, not_or, and_assoc]

/-- Both packages decode the same startups. -/
theorem decodeStartup_ok_iff {packet : List UInt8} {response : Bool} {result : Int × Startup} :
    decodeStartup packet response = .ok result ↔
      Control.decodeStartup packet response = .ok result := by
  apply decodeFramed_congr
  intro payload startup _
  unfold parseStartup Control.parseStartup
  split
  · simp only [Result.bind_ok_iff, refuse_ok_iff, exists_const, not_or, and_assoc]
    rfl
  · exact Iff.rfl

/-- Both packages encode the same entries. -/
theorem encodeEntry_ok_iff {entry : FdEntry} {bytes : List UInt8} :
    encodeEntry entry = .ok bytes ↔ Control.encodeEntry entry = .ok bytes := by
  simp only [encodeEntry, Control.encodeEntry, Result.bind_ok_iff, refuse_ok_iff, uint_ok_iff,
    u64_ok_iff, exists_const, not_or, and_assoc]

/-- Both packages encode the same batches. -/
theorem encodeFdBatch_ok_iff {batch : FdBatch} {requestId : Int} {packet : List UInt8} :
    encodeFdBatch batch requestId = .ok packet ↔
      Control.encodeFdBatch batch requestId = .ok packet := by
  have hconcat : ∀ {entries : List FdEntry} {bytes : List UInt8},
      concatArray encodeEntry entries = .ok bytes ↔
        concatArray Control.encodeEntry entries = .ok bytes := by
    intro entries bytes
    induction entries generalizing bytes with
    | nil => rfl
    | cons entry entries ih =>
      simp only [concatArray, Result.bind_ok_iff, encodeEntry_ok_iff, ih]
  simp only [encodeFdBatch, Control.encodeFdBatch, Result.bind_ok_iff, refuse_ok_iff, uint_ok_iff,
    u64_ok_iff, exists_const, encodeFrame_ok_iff, hconcat]
  rfl

/-- Both packages decode the same entries. -/
theorem decodeEntry_ok_iff {payload : List UInt8} {offset : Nat} {entry : FdEntry} :
    decodeEntry payload offset = .ok entry ↔ Control.decodeEntry payload offset = .ok entry := by
  unfold decodeEntry Control.decodeEntry
  split
  · simp only [Result.bind_ok_iff, refuse_ok_iff, exists_const, not_or, and_assoc]
  · exact Iff.rfl

/-- Both packages decode the same batches. -/
theorem decodeFdBatch_ok_iff {packet : List UInt8} {result : Int × FdBatch} :
    decodeFdBatch packet = .ok result ↔ Control.decodeFdBatch packet = .ok result := by
  apply decodeFramed_congr
  intro payload batch _
  have hread : ∀ {entries : List FdEntry} {count : Nat},
      readArray (decodeEntry payload) 32 48 0 count = .ok entries ↔
        readArray (Control.decodeEntry payload) 32 48 0 count = .ok entries := by
    intro entries count
    simp only [readArray_ok_iff, decodeEntry_ok_iff]
  unfold parseFdBatch Control.parseFdBatch
  split
  · simp only [Result.bind_ok_iff, refuse_ok_iff, exists_const, hread, Prod.exists,
      decodeEntries_ok_iff, List.nil_append, zero_add, not_or, and_assoc]
    constructor
    · intro ⟨hzero, hmax, hflags, hreserved, hlength, entries, hentries, hmaps, h⟩
      exact ⟨hzero, hmax, hflags, hreserved, hlength, entries, _, ⟨entries, hentries, rfl, rfl⟩,
        hmaps, h⟩
    · intro ⟨hzero, hmax, hflags, hreserved, hlength, entries, _, ⟨new, hentries, hnew, hcount⟩,
        hmaps, h⟩
      subst hnew hcount
      exact ⟨hzero, hmax, hflags, hreserved, hlength, entries, hentries, hmaps, h⟩
  · exact Iff.rfl

/-- Both packages encode the same acknowledgements. -/
theorem encodeFdAck_ok_iff {ack : FdAck} {requestId : Int} {packet : List UInt8} :
    encodeFdAck ack requestId = .ok packet ↔
      Control.encodeFdAck ack requestId = .ok packet := by
  simp only [encodeFdAck, Control.encodeFdAck, Result.bind_ok_iff, encodeFrame_ok_iff]

/-- Both packages decode the same acknowledgements. -/
theorem decodeFdAck_ok_iff {packet : List UInt8} {result : Int × FdAck} :
    decodeFdAck packet = .ok result ↔ Control.decodeFdAck packet = .ok result := by
  apply decodeFramed_congr
  intro payload ack hlength
  unfold parseFdAck Control.parseFdAck
  split
  · rename_i errorLength _ _
    -- The length of the text is compared, or the length of the payload.
    have hlengths : ((payload.drop 32).length : Int) ≠ errorLength ↔
        (payload.length : Int) ≠ 32 + errorLength := by
      rw [List.length_drop]
      omega
    simp only [Result.bind_ok_iff, refuse_ok_iff, exists_const, hlengths]
    rfl
  · exact Iff.rfl

/-- Both packages encode the same errors. -/
theorem encodeError_ok_iff {error : ErrorResponse} {requestId : Int} {packet : List UInt8} :
    encodeError error requestId = .ok packet ↔
      Control.encodeError error requestId = .ok packet := by
  simp only [encodeError, Control.encodeError, Result.bind_ok_iff, encodeFrame_ok_iff]

/-- Both packages decode the same errors. -/
theorem decodeError_ok_iff {packet : List UInt8} {result : Int × ErrorResponse} :
    decodeError packet = .ok result ↔ Control.decodeError packet = .ok result :=
  decodeFramed_congr fun _ _ _ => Iff.rfl

/-- Both packages encode the same frames without a payload. -/
theorem encodeEmpty_ok_iff {kind : Kind} {requestId : Int} {packet : List UInt8} :
    encodeEmpty kind requestId = .ok packet ↔
      Control.encodeEmpty kind requestId = .ok packet := by
  simp only [encodeEmpty, Control.encodeEmpty, Result.bind_ok_iff, encodeFrame_ok_iff]

end Sdk

/-! ### Both codecs -/

/-- An encoder and a decoder of one kind of frame. -/
structure FrameCodec (α : Type) where
  encode : α → Int → Except Exn (List UInt8)
  decode : List UInt8 → Except Exn (Int × α)

/-- What was encoded is decoded to the same value, and what was decoded encodes to the same
packet. -/
structure FrameCodec.Inverse {α : Type} (codec : FrameCodec α) : Prop where
  roundTrip : ∀ value requestId packet, codec.encode value requestId = .ok packet →
    codec.decode packet = .ok (requestId, value)
  canonical : ∀ packet requestId value, codec.decode packet = .ok (requestId, value) →
    codec.encode value requestId = .ok packet

/-- The codecs write the same packets, and accept the same packets with the same values. -/
structure FrameCodec.Same {α : Type} (codec other : FrameCodec α) : Prop where
  encode : ∀ value requestId packet, codec.encode value requestId = .ok packet ↔
    other.encode value requestId = .ok packet
  decode : ∀ packet result, codec.decode packet = .ok result ↔ other.decode packet = .ok result

/-- A codec is inverse when `decode` accepts what `encode` writes and nothing else. -/
theorem FrameCodec.inverse_of_iff {α : Type} {codec : FrameCodec α}
    (h : ∀ {packet requestId value}, codec.decode packet = .ok (requestId, value) ↔
      codec.encode value requestId = .ok packet) : codec.Inverse :=
  ⟨fun _ _ _ => h.mpr, fun _ _ _ => h.mp⟩

/-- The codec of the startup frames. -/
def startupCodec (response : Bool) : FrameCodec Startup :=
  ⟨fun startup => encodeStartup startup response, fun packet => decodeStartup packet response⟩

/-- The codec of the batches. -/
def fdBatchCodec : FrameCodec FdBatch := ⟨encodeFdBatch, decodeFdBatch⟩

/-- The codec of the acknowledgements. -/
def fdAckCodec : FrameCodec FdAck := ⟨encodeFdAck, decodeFdAck⟩

/-- The codec of the errors. -/
def errorCodec : FrameCodec ErrorResponse := ⟨encodeError, decodeError⟩

/-- The empty kinds, which `decode_frame` decodes: the payload is empty. -/
def emptyCodec : FrameCodec Kind where
  encode := encodeEmpty
  decode packet := do
    let frame ← decodeFrame packet
    refuse (¬ frame.kind.isEmpty ∨ frame.payload ≠ []) "not an empty frame"
    return (frame.requestId, frame.kind)

namespace Sdk

/-- The codec of the startup frames in the SDK. -/
def startupCodec (response : Bool) : FrameCodec Startup :=
  ⟨fun startup => encodeStartup startup response, fun packet => decodeStartup packet response⟩

/-- The codec of the batches in the SDK. -/
def fdBatchCodec : FrameCodec FdBatch := ⟨encodeFdBatch, decodeFdBatch⟩

/-- The codec of the acknowledgements in the SDK. -/
def fdAckCodec : FrameCodec FdAck := ⟨encodeFdAck, decodeFdAck⟩

/-- The codec of the errors in the SDK. -/
def errorCodec : FrameCodec ErrorResponse := ⟨encodeError, decodeError⟩

/-- The codec of the frames without a payload. -/
def emptyCodec : FrameCodec Kind where
  encode := encodeEmpty
  decode packet := do
    let frame ← decodeFrame packet
    refuse (¬ frame.kind.isEmpty ∨ frame.payload ≠ []) "not an empty frame"
    return (frame.requestId, frame.kind)

end Sdk

/-- The codec of the frames without a payload is inverse. -/
theorem emptyCodec_inverse : emptyCodec.Inverse := by
  apply FrameCodec.inverse_of_iff
  intro packet requestId kind
  simp only [emptyCodec, encodeEmpty, Result.bind_ok_iff, refuse_ok_iff, exists_const,
    decodeFrame_ok_iff, not_or, not_not]
  constructor
  · intro ⟨frame, hframe, ⟨hempty, hpayload⟩, h⟩
    cases h
    rw [hpayload] at hframe
    exact ⟨hempty, hframe⟩
  · intro ⟨hempty, hframe⟩
    exact ⟨⟨kind, requestId, []⟩, hframe, ⟨hempty, rfl⟩, rfl⟩

/-- **The control codecs.** For every kind of frame the runtime codec is an inverse pair, and the
SDK codec is the same codec. -/
theorem control_codecs :
    ((∀ response, (startupCodec response).Inverse) ∧ fdBatchCodec.Inverse ∧ fdAckCodec.Inverse ∧
      errorCodec.Inverse ∧ emptyCodec.Inverse) ∧
    ((∀ response, (startupCodec response).Same (Sdk.startupCodec response)) ∧
      fdBatchCodec.Same Sdk.fdBatchCodec ∧ fdAckCodec.Same Sdk.fdAckCodec ∧
      errorCodec.Same Sdk.errorCodec ∧ emptyCodec.Same Sdk.emptyCodec) := by
  refine ⟨⟨fun response => ?_, ?_, ?_, ?_, emptyCodec_inverse⟩,
    ⟨fun response => ⟨?_, ?_⟩, ⟨?_, ?_⟩, ⟨?_, ?_⟩, ⟨?_, ?_⟩, ⟨?_, ?_⟩⟩⟩
  · exact FrameCodec.inverse_of_iff decodeStartup_ok_iff
  · exact FrameCodec.inverse_of_iff decodeFdBatch_ok_iff
  · exact FrameCodec.inverse_of_iff decodeFdAck_ok_iff
  · exact FrameCodec.inverse_of_iff decodeError_ok_iff
  · exact fun _ _ _ => Sdk.encodeStartup_ok_iff.symm
  · exact fun _ _ => Sdk.decodeStartup_ok_iff.symm
  · exact fun _ _ _ => Sdk.encodeFdBatch_ok_iff.symm
  · exact fun _ _ => Sdk.decodeFdBatch_ok_iff.symm
  · exact fun _ _ _ => Sdk.encodeFdAck_ok_iff.symm
  · exact fun _ _ => Sdk.decodeFdAck_ok_iff.symm
  · exact fun _ _ _ => Sdk.encodeError_ok_iff.symm
  · exact fun _ _ => Sdk.decodeError_ok_iff.symm
  · exact fun _ _ _ => Sdk.encodeEmpty_ok_iff.symm
  · intro packet result
    simp only [emptyCodec, Sdk.emptyCodec, Result.bind_ok_iff, Sdk.decodeFrame_ok_iff]

example : (encodeEmpty .ping 7).isOk = true := by decide

example : (encodeFdBatch ⟨1, 2, [⟨.map, 3, 4, 5, 6, 4096, 1⟩]⟩ 7).isOk = true := by
  decide +kernel

end Wmfs.Control
