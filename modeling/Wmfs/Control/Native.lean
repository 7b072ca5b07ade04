import Mathlib.Data.Option.Basic
import Wmfs.Lib.Bytes

/-!
# `Wmfs.Control.Native`: the C++ decoders of the control protocol

The decoders of `src/control.cpp`. A packet is the bytes behind its pointer, which is not null,
and an offset stands for a moved pointer. Integers are assembled from bytes with shifts, in
types that are wide enough, so that they are natural numbers here. A decoder returns a view, or
none for `INVALID`. Its last argument is the number of array elements that the caller has room
for.
-/

set_option autoImplicit false

namespace Wmfs.Control.Native

open Wmfs.Lib

/-! ### Loads -/

/-- `p[offset]`. -/
def byte (p : List UInt8) (offset : Nat) : Nat := (p.getD offset 0).toNat

/-- `load16`. -/
def load16 (p : List UInt8) (offset : Nat) : Nat :=
  byte p offset ||| byte p (offset + 1) <<< 8

/-- `load32`. -/
def load32 (p : List UInt8) (offset : Nat) : Nat :=
  byte p offset ||| byte p (offset + 1) <<< 8 ||| byte p (offset + 2) <<< 16 |||
    byte p (offset + 3) <<< 24

/-- `load64`. -/
def load64 (p : List UInt8) (offset : Nat) : Nat :=
  load32 p offset ||| load32 p (offset + 4) <<< 32

/-! ### Text -/

/-- The first byte of a character of more than one byte: its bits of the value, and how many
bytes follow it. -/
def lead (first : Nat) : Option (Nat × Nat) :=
  if first ≥ 0xC2 ∧ first ≤ 0xDF then some (first &&& 0x1F, 1)
  else if first ≥ 0xE0 ∧ first ≤ 0xEF then some (first &&& 0x0F, 2)
  else if first ≥ 0xF0 ∧ first ≤ 0xF4 then some (first &&& 0x07, 3)
  else none

/-- The inner loop of `valid_utf8`, over the bytes that follow the first. -/
def continuations (value : Nat) : List UInt8 → Option Nat
  | [] => some value
  | next :: rest =>
    if next.toNat &&& 0xC0 ≠ 0x80 then none
    else continuations (value <<< 6 ||| (next.toNat &&& 0x3F)) rest

/-- The value of a character is refused: it is overlong, too large or a surrogate. -/
def refused (extra value : Nat) : Bool :=
  (extra = 2 && value < 0x800) || (extra = 3 && value < 0x10000) || value > 0x10FFFF ||
    (value ≥ 0xD800 && value ≤ 0xDFFF)

/-- `valid_utf8`. -/
def validUtf8 : List UInt8 → Bool
  | [] => true
  | first :: rest =>
    if first.toNat < 0x80 then
      validUtf8 rest
    else match lead first.toNat with
    | none => false
    | some (value, extra) =>
      if extra > rest.length then
        false
      else match continuations value (rest.take extra) with
      | none => false
      | some value => if refused extra value then false else validUtf8 (rest.drop extra)
termination_by bytes => bytes.length
decreasing_by all_goals simp

/-! ### Frames -/

/-- `frame`: the payload and the request id. -/
def frame (packet : List UInt8) (kind : Nat) : Option (List UInt8 × Nat) := do
  guard (¬ (packet.length < 32 ∨ packet.length > 69632))
  guard (¬ (load64 packet 0 ≠ 0x314C544353464D57 ∨ load16 packet 8 ≠ 1 ∨ load16 packet 10 > 0 ∨
    load16 packet 12 ≠ kind ∨ load16 packet 14 ≠ 0 ∨ load32 packet 16 ≠ 32))
  guard (load32 packet 20 = packet.length - 32)
  return (packet.drop 32, load64 packet 24)

/-- The first lines of the decoders: a frame of the kind whose payload has room for its fixed
part. `rest` is what follows them. -/
def withFrame {α : Type} (packet : List UInt8) (kind size : Nat)
    (rest : List UInt8 → Nat → Option α) : Option α := do
  let (p, requestId) ← frame packet kind
  guard (¬ p.length < size)
  rest p requestId

/-- A loop over the elements of an array, from `offset` on. -/
def loadArray {α : Type} (load : Nat → Option α) (size : Nat) : Nat → Nat → Option (List α)
  | _, 0 => some []
  | offset, count + 1 => do
    let item ← load offset
    let items ← loadArray load size (offset + size) count
    return item :: items

/-! ### Startup -/

/-- `wmfs_control_descriptor_role_record_v1`. -/
structure RoleRecord where
  role : Nat
  flags : Nat
  reserved : Nat
  deriving DecidableEq, Repr

/-- `wmfs_control_startup_v1`. -/
structure StartupRecord where
  sessionGeneration : Nat
  interfaceFingerprint : List UInt8
  configurationFingerprint : List UInt8
  metadataFingerprint : Nat
  capabilities : Nat
  operationCount : Nat
  protocolVersion : Nat
  configurationSchemaVersion : Nat
  configLength : Nat
  descriptorCount : Nat
  logMode : Nat
  status : Nat
  deriving DecidableEq, Repr

/-- `wmfs_control_startup_view_v1`. -/
structure StartupView where
  requestId : Nat
  startup : StartupRecord
  roles : List RoleRecord
  config : List UInt8
  deriving DecidableEq, Repr

/-- `startup_load`. -/
def startupLoad (p : List UInt8) : StartupRecord where
  sessionGeneration := load64 p 0
  interfaceFingerprint := slice p 8 32
  configurationFingerprint := slice p 40 32
  metadataFingerprint := load64 p 72
  capabilities := load64 p 80
  operationCount := load32 p 88
  protocolVersion := load32 p 92
  configurationSchemaVersion := load32 p 96
  configLength := load32 p 100
  descriptorCount := load16 p 104
  logMode := load16 p 106
  status := load32 p 108

/-- An iteration of the loop over the roles. -/
def loadRole (p : List UInt8) (offset : Nat) : Option RoleRecord := do
  let role : RoleRecord := ⟨load16 p offset, load16 p (offset + 2), load32 p (offset + 4)⟩
  guard (¬ (role.role = 0 ∨ role.role > 8 ∨ role.flags ≠ 0 ∨ role.reserved ≠ 0))
  return role

/-- `wmfs_control_decode_startup_v1` behind the frame. -/
def viewStartup (p : List UInt8) (requestId : Nat) (roleCapacity : Nat) : Option StartupView := do
  let s := startupLoad p
  guard (¬ (s.configLength > 65536 ∨ s.descriptorCount > 16 ∨ s.descriptorCount > roleCapacity ∨
    s.logMode > 2 ∨ p.length ≠ 112 + s.descriptorCount * 8 + s.configLength))
  let roles ← loadArray (loadRole p) 8 112 s.descriptorCount
  let config := slice p (112 + s.descriptorCount * 8) s.configLength
  guard (validUtf8 config)
  return ⟨requestId, s, roles, config⟩

/-- `wmfs_control_decode_startup_v1`. -/
def decodeStartup (packet : List UInt8) (kind : Nat) (roleCapacity : Nat) : Option StartupView :=
  withFrame packet kind 112 fun p requestId => viewStartup p requestId roleCapacity

/-! ### Descriptor batches -/

/-- `wmfs_control_fd_entry_v1`. -/
structure EntryRecord where
  kind : Nat
  flags : Nat
  bufferId : Nat
  generation : Nat
  allocationId : Nat
  invocationId : Nat
  byteLength : Nat
  deriving DecidableEq, Repr

/-- `wmfs_control_fd_batch_v1`. -/
structure BatchRecord where
  transferId : Nat
  sessionGeneration : Nat
  entryCount : Nat
  fdCount : Nat
  flags : Nat
  reserved : Nat
  deriving DecidableEq, Repr

/-- `wmfs_control_fd_batch_view_v1`. -/
structure BatchView where
  requestId : Nat
  batch : BatchRecord
  entries : List EntryRecord
  deriving DecidableEq, Repr

/-- An iteration of the loop over the entries. `flags & ~3` is zero when `flags / 4` is. -/
def loadEntry (p : List UInt8) (offset : Nat) : Option EntryRecord := do
  let e : EntryRecord := ⟨load32 p offset, load32 p (offset + 4), load64 p (offset + 8),
    load64 p (offset + 16), load64 p (offset + 24), load64 p (offset + 32),
    load64 p (offset + 40)⟩
  guard (e.kind = 1 ∨ e.kind = 2)
  guard (¬ (e.flags / 4 ≠ 0 ∨ (e.kind = 2 ∧ e.flags ≠ 0)))
  return e

/-- `wmfs_control_decode_fd_batch_v1` behind the frame. `maps` counts at most 240 entries, so it
does not wrap. -/
def viewFdBatch (p : List UInt8) (requestId : Nat) (capacity : Nat) : Option BatchView := do
  let b : BatchRecord := ⟨load64 p 0, load64 p 8, load16 p 16, load16 p 18, load32 p 20,
    load64 p 24⟩
  guard (¬ (b.entryCount = 0 ∨ b.entryCount > 240 ∨ b.entryCount > capacity ∨ b.reserved ≠ 0 ∨
    b.flags ≠ 1 ∨ p.length ≠ 32 + b.entryCount * 48))
  let entries ← loadArray (loadEntry p) 48 32 b.entryCount
  let maps := entries.countP fun e => e.kind = 1
  guard (maps = b.fdCount)
  return ⟨requestId, b, entries⟩

/-- `wmfs_control_decode_fd_batch_v1`. -/
def decodeFdBatch (packet : List UInt8) (capacity : Nat) : Option BatchView :=
  withFrame packet 16 32 fun p requestId => viewFdBatch p requestId capacity

/-! ### Acknowledgements and errors -/

/-- `wmfs_control_fd_ack_v1`. -/
structure AckRecord where
  transferId : Nat
  sessionGeneration : Nat
  status : Nat
  flags : Nat
  errorLength : Nat
  reserved : Nat
  deriving DecidableEq, Repr

/-- What `wmfs_control_decode_fd_ack_v1` writes: the request id, the record and the text. -/
structure AckView where
  requestId : Nat
  ack : AckRecord
  error : List UInt8
  deriving DecidableEq, Repr

/-- `wmfs_control_decode_fd_ack_v1` behind the frame. -/
def viewFdAck (p : List UInt8) (requestId : Nat) : Option AckView := do
  let ack : AckRecord := ⟨load64 p 0, load64 p 8, load32 p 16, load32 p 20, load32 p 24,
    load32 p 28⟩
  guard (¬ (ack.flags ≠ 0 ∨ ack.reserved ≠ 0 ∨ ack.errorLength > 1024 ∨
    p.length ≠ 32 + ack.errorLength))
  let error := slice p 32 ack.errorLength
  guard (validUtf8 error)
  return ⟨requestId, ack, error⟩

/-- `wmfs_control_decode_fd_ack_v1`. -/
def decodeFdAck (packet : List UInt8) : Option AckView :=
  withFrame packet 17 32 viewFdAck

/-- What `wmfs_control_decode_error_v1` writes: the request id, the fields of
`wmfs_control_error_v1` and the text. -/
structure ErrorView where
  requestId : Nat
  status : Nat
  errorLength : Nat
  message : List UInt8
  deriving DecidableEq, Repr

/-- `wmfs_control_decode_error_v1` behind the frame. -/
def viewError (p : List UInt8) (requestId : Nat) : Option ErrorView := do
  let status := load32 p 0
  let errorLength := load32 p 4
  guard (¬ (status = 0 ∨ errorLength > 1024 ∨ p.length ≠ 8 + errorLength))
  let message := slice p 8 errorLength
  guard (validUtf8 message)
  return ⟨requestId, status, errorLength, message⟩

/-- `wmfs_control_decode_error_v1`. -/
def decodeError (packet : List UInt8) : Option ErrorView :=
  withFrame packet 7 8 viewError

end Wmfs.Control.Native
