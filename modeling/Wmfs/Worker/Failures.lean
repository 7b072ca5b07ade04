import Wmfs.Control.Agreement
import Wmfs.Session.MappingCache

/-!
# `Wmfs.Worker.Failures`: how a Python worker reports an exception

Two handlers of the plugin SDK turn an exception into a control frame. The startup handler of
`wmfs_plugin/worker.py` answers a `STARTUP_REQUEST` with an `ERROR_RESPONSE`, and
`FdReceiver._serve` of `wmfs_plugin/fd_transport.py` acknowledges a batch with a status that is
not `OK`. Both cut the text of the exception to 1024 characters, and the encoders refuse a text
of more than 1024 bytes or with a surrogate. The encoders run inside the handlers, so what they
raise leaves the handler and no frame is sent.

The startup handler does more before it encodes. It closes the descriptors of the request,
calls the shutdown hook, and closes the logger, whose descriptor is one of those that were
closed unless they have been handed over to the transport. Closing it again raises.

`failures_reported_iff` says exactly which exceptions are reported.
-/

set_option autoImplicit false

namespace Wmfs.Worker.Failures

open Wmfs.Lib
open Wmfs.Lib.Utf8 (Text)
open Wmfs.Control

/-- What was raised: an `Exception`, or another `BaseException` such as `SystemExit`, which
`except Exception` does not catch. `text` is its `str`. -/
structure Raised where
  isException : Bool
  text : Text
  deriving DecidableEq, Repr

/-- `str(error)[:1024]`. -/
def Raised.message (raised : Raised) : Text := raised.text.take 1024

/-- The message has a UTF-8 form, of at most `MAX_ERROR_BYTES` bytes. -/
def Reportable (raised : Raised) : Prop :=
  ∃ bytes, Utf8.encode raised.message = some bytes ∧ bytes.length ≤ MAX_ERROR_BYTES

/-- `sendmsg_strict` without descriptors, for a frame of a kind that carries none: the packets
that are sent. -/
def sendmsgStrict (packet : List UInt8) : List (List UInt8) :=
  match Sdk.decodeFrame packet with
  | .ok _ => [packet]
  | .error _ => []

/-- A packet is sent when it could be encoded. -/
def sendEncoded (packet : Except Exn (List UInt8)) : List (List UInt8) :=
  match packet with
  | .ok packet => sendmsgStrict packet
  | .error _ => []

/-! ### The receiver of descriptors -/

/-- An exception while `FdReceiver` applies a batch. -/
structure BatchFailure where
  requestId : UInt64
  transferId : UInt64
  sessionGeneration : UInt64
  raised : Raised

/-- The handler of `FdReceiver._serve`, and the frames that it sends. -/
def BatchFailure.report (failure : BatchFailure) : List (List UInt8) :=
  if failure.raised.isException then
    sendEncoded (Sdk.encodeFdAck ⟨failure.transferId.toNat, failure.sessionGeneration.toNat,
      .invalidArgument, failure.raised.message⟩ failure.requestId.toNat)
  else []

/-! ### The startup -/

/-- Where the startup was when the exception was raised.

* `decoding`: in `decode_startup`. The id of the request is not known.
* `checking`: in the checks of the request, up to the construction of the logger.
* `initializing`: behind the construction of the logger, in the `initialize` hook.
* `responding`: behind `descriptors.clear()`, in the construction of the response. -/
inductive Stage where
  | decoding
  | checking
  | initializing
  | responding
  deriving DecidableEq, Repr

/-- How the `shutdown` hook ends. -/
inductive Hook where
  | returns
  | raises (raised : Raised)
  deriving DecidableEq, Repr

/-- An exception while the worker handles a `STARTUP_REQUEST`. -/
structure StartupFailure where
  stage : Stage
  requestId : UInt64
  logMode : LogMode
  hasInitialize : Bool
  shutdown : Option Hook
  raised : Raised

namespace StartupFailure

/-- `request_id` in the handler. -/
def id (failure : StartupFailure) : Nat :=
  if failure.stage = .decoding then 0 else failure.requestId.toNat

/-- `logger is not NullLogger`. -/
def loggerOpen (failure : StartupFailure) : Bool :=
  failure.logMode ≠ .disabled ∧ (failure.stage = .initializing ∨ failure.stage = .responding)

/-- The descriptors of the request are still in `descriptors`, and the handler closes them. -/
def holdsDescriptors (failure : StartupFailure) : Bool := failure.stage ≠ .responding

/-- `initialized`. -/
def initialized (failure : StartupFailure) : Bool :=
  failure.hasInitialize ∧ failure.stage = .responding

/-- The shutdown hook is called and raises what its `except Exception` does not catch. -/
def shutdownEscapes (failure : StartupFailure) : Bool :=
  match failure.shutdown with
  | some (.raises raised) => failure.initialized && !raised.isException
  | _ => false

/-- The handler of `_serve`, and the frames that it sends. -/
def report (failure : StartupFailure) : List (List UInt8) :=
  if failure.raised.isException then
    if failure.shutdownEscapes then []
    -- The logger closes its descriptor, which was closed with the others.
    else if failure.loggerOpen && failure.holdsDescriptors then []
    else sendEncoded (Sdk.encodeError ⟨.identityMismatch, failure.raised.message⟩ failure.id)
  else []

end StartupFailure

/-! ### What is reported -/

/-- The batch is acknowledged with one frame, which the decoders of the runtime accept in both
languages, for the request and with a status that is not `OK`. -/
def BatchFailure.Reported (failure : BatchFailure) : Prop :=
  ∃ packet ack view, failure.report = [packet] ∧
    decodeFdAck packet = .ok (failure.requestId.toNat, ack) ∧ ack.status ≠ .ok ∧
    Native.decodeFdAck packet = some view ∧ SameAck failure.requestId.toNat ack view

/-- The startup is answered with one frame, which `decode_error` of the runtime accepts, and
with a prefix of the text of the exception. -/
def StartupFailure.Reported (failure : StartupFailure) : Prop :=
  ∃ packet requestId response, failure.report = [packet] ∧
    decodeError packet = .ok (requestId, response) ∧ response.message <+: failure.raised.text

/-- A frame that was encoded passes the check of `sendmsg_strict`. -/
theorem sendEncoded_of_frame {kind : Kind} {requestId : Int} {payload packet : List UInt8}
    (h : Control.encodeFrame kind requestId payload = .ok packet) :
    sendmsgStrict packet = [packet] := by
  have hframe : Sdk.decodeFrame packet = .ok ⟨kind, requestId, payload⟩ :=
    Sdk.decodeFrame_ok_iff.mpr (decodeFrame_ok_iff.mpr h)
  rw [sendmsgStrict, hframe]

/-- A payload within the packet limit can be framed under every request id. -/
theorem exists_encodeFrame (kind : Kind) (requestId : UInt64) {payload : List UInt8}
    (h : payload.length ≤ 69600) :
    ∃ packet, Control.encodeFrame kind requestId.toNat payload = .ok packet := by
  have hid : (requestId.toNat : Int) < 2 ^ 64 := by exact_mod_cast requestId.toNat_lt
  have hholds : List.Forall₂ Field.Holds FRAME [MAGIC, ABI_MAJOR, ABI_MINOR, kind.value, 0, 32,
      payload.length, requestId.toNat] := by
    simp only [FRAME, List.forall₂_cons, Field.holds_Q_iff, Field.holds_H_iff, Field.holds_I_iff,
      List.forall₂_nil_left_iff, and_true]
    have hkind : 0 ≤ kind.value ∧ kind.value < 2 ^ 16 := by cases kind <;> decide
    exact ⟨by decide, by decide, by decide, hkind, by decide, by decide, by omega, by omega⟩
  obtain ⟨header, hheader⟩ := Option.isSome_iff_exists.mp (isSome_pack_iff.mpr hholds)
  exact ⟨header ++ payload, encodeFrame_ok_iff.mpr ⟨h, header, hheader, rfl⟩⟩

/-- An acknowledgement can be encoded exactly when its text has a short enough UTF-8 form. -/
theorem exists_encodeFdAck_iff (transferId sessionGeneration requestId : UInt64) (status : Status)
    (error : Text) :
    (∃ packet, Control.encodeFdAck ⟨transferId.toNat, sessionGeneration.toNat, status, error⟩
        requestId.toNat = .ok packet) ↔
      ∃ bytes, Utf8.encode error = some bytes ∧ bytes.length ≤ 1024 := by
  simp only [encodeFdAck_ok_iff, FdAckPayload]
  constructor
  · intro ⟨_, payload, ⟨herror, hlength, _⟩, _⟩
    exact ⟨_, herror, by rw [List.length_drop]; omega⟩
  · intro ⟨bytes, herror, hlength⟩
    have htransfer : (transferId.toNat : Int) < 2 ^ 64 := by exact_mod_cast transferId.toNat_lt
    have hgeneration : (sessionGeneration.toNat : Int) < 2 ^ 64 := by
      exact_mod_cast sessionGeneration.toNat_lt
    have hholds : List.Forall₂ Field.Holds FD_ACK [(transferId.toNat : Int),
        sessionGeneration.toNat, status.value, 0, bytes.length, 0] := by
      simp only [FD_ACK, List.forall₂_cons, Field.holds_Q_iff, Field.holds_I_iff,
        List.forall₂_nil_left_iff, and_true]
      have hstatus : 0 ≤ status.value ∧ status.value < 2 ^ 32 := by cases status <;> decide
      exact ⟨by omega, by omega, hstatus, by decide, by omega, by decide⟩
    obtain ⟨head, hhead⟩ := Option.isSome_iff_exists.mp (isSome_pack_iff.mpr hholds)
    have h32 : head.length = 32 := length_of_pack hhead
    have htotal : (head ++ bytes).length ≤ 32 + 1024 := by
      rw [List.length_append]
      omega
    obtain ⟨packet, hpacket⟩ := exists_encodeFrame .fdTransferAck requestId
      (le_trans htotal (by decide))
    refine ⟨packet, head ++ bytes, ⟨?_, htotal, ?_⟩, hpacket⟩
    · rw [List.drop_left' h32]
      exact herror
    · rw [List.drop_left' h32, List.take_left' h32]
      exact hhead

/-- An error response can be encoded exactly when its text has a short enough UTF-8 form. -/
theorem exists_encodeError_iff (requestId : UInt64) {status : Status} (hstatus : status ≠ .ok)
    (message : Text) :
    (∃ packet, Control.encodeError ⟨status, message⟩ requestId.toNat = .ok packet) ↔
      ∃ bytes, Utf8.encode message = some bytes ∧ bytes.length ≤ 1024 := by
  simp only [encodeError_ok_iff, ErrorPayload]
  constructor
  · intro ⟨_, payload, ⟨_, hmessage, hlength, _⟩, _⟩
    exact ⟨_, hmessage, by rw [List.length_drop]; omega⟩
  · intro ⟨bytes, hmessage, hlength⟩
    have hholds : List.Forall₂ Field.Holds ERROR [status.value, (bytes.length : Int)] := by
      simp only [ERROR, List.forall₂_cons, Field.holds_I_iff, List.forall₂_nil_left_iff, and_true]
      have hvalue : 0 ≤ status.value ∧ status.value < 2 ^ 32 := by cases status <;> decide
      exact ⟨hvalue, by omega, by omega⟩
    obtain ⟨head, hhead⟩ := Option.isSome_iff_exists.mp (isSome_pack_iff.mpr hholds)
    have h8 : head.length = 8 := length_of_pack hhead
    have htotal : (head ++ bytes).length ≤ 8 + 1024 := by
      rw [List.length_append]
      omega
    obtain ⟨packet, hpacket⟩ := exists_encodeFrame .errorResponse requestId
      (le_trans htotal (by decide))
    refine ⟨packet, head ++ bytes, ⟨hstatus, ?_, htotal, ?_⟩, hpacket⟩
    · rw [List.drop_left' h8]
      exact hmessage
    · rw [List.drop_left' h8, List.take_left' h8]
      exact hhead

/-- What a handler sends of an acknowledgement that could be encoded. -/
theorem sendEncoded_fdAck {ack : FdAck} {requestId : Int} {packet : List UInt8}
    (h : Control.encodeFdAck ack requestId = .ok packet) :
    sendEncoded (Sdk.encodeFdAck ack requestId) = [packet] := by
  obtain ⟨payload, _, hframe⟩ := encodeFdAck_ok_iff.mp h
  rw [Sdk.encodeFdAck_ok_iff.mpr h]
  exact sendEncoded_of_frame hframe

/-- What a handler sends of an error response that could be encoded. -/
theorem sendEncoded_error {error : ErrorResponse} {requestId : Int} {packet : List UInt8}
    (h : Control.encodeError error requestId = .ok packet) :
    sendEncoded (Sdk.encodeError error requestId) = [packet] := by
  obtain ⟨payload, _, hframe⟩ := encodeError_ok_iff.mp h
  rw [Sdk.encodeError_ok_iff.mpr h]
  exact sendEncoded_of_frame hframe

/-- Nothing is sent of a packet that could not be encoded. -/
theorem exists_of_sendEncoded {encoded : Except Exn (List UInt8)} {packet : List UInt8}
    (h : sendEncoded encoded = [packet]) : ∃ bytes, encoded = .ok bytes := by
  cases encoded with
  | error e => cases h
  | ok bytes => exact ⟨bytes, rfl⟩

/-- A batch is acknowledged exactly when an `Exception` with a reportable text was raised. -/
theorem BatchFailure.reported_iff (failure : BatchFailure) :
    failure.Reported ↔ failure.raised.isException = true ∧ Reportable failure.raised := by
  unfold Reported report
  cases failure.raised.isException with
  | false => simp
  | true =>
    rw [if_pos rfl]
    constructor
    · intro ⟨packet, _, _, hsent, _⟩
      obtain ⟨bytes, hbytes⟩ := exists_of_sendEncoded hsent
      exact ⟨rfl, (exists_encodeFdAck_iff _ _ _ _ _).mp ⟨bytes, Sdk.encodeFdAck_ok_iff.mp hbytes⟩⟩
    · intro ⟨_, hreportable⟩
      obtain ⟨packet, hpacket⟩ := (exists_encodeFdAck_iff failure.transferId
        failure.sessionGeneration failure.requestId .invalidArgument _).mpr hreportable
      have hdecode := decodeFdAck_ok_iff.mpr hpacket
      obtain ⟨view, hview, hsame⟩ := decodeFdAck_iff.mp hdecode
      exact ⟨packet, _, view, sendEncoded_fdAck hpacket, hdecode,
        show Status.invalidArgument ≠ .ok by decide, hview, hsame⟩

namespace StartupFailure

/-- The id that the handler uses is a `uint64`. -/
theorem exists_id (failure : StartupFailure) : ∃ id : UInt64, failure.id = id.toNat := by
  unfold StartupFailure.id
  split
  · exact ⟨0, rfl⟩
  · exact ⟨failure.requestId, rfl⟩

/-- What the handler needs to reach its encoder: an `Exception`, a shutdown hook that lets it go
on, and no logger over a descriptor of the request. -/
def Encodes (failure : StartupFailure) : Prop :=
  failure.raised.isException = true ∧ failure.shutdownEscapes = false ∧
    ¬ (failure.loggerOpen = true ∧ failure.holdsDescriptors = true)

/-- A startup is answered exactly when the handler reaches its encoder with a reportable
text. -/
theorem reported_iff (failure : StartupFailure) :
    failure.Reported ↔ failure.Encodes ∧ Reportable failure.raised := by
  obtain ⟨id, hid⟩ := failure.exists_id
  unfold Reported report Encodes
  rw [hid]
  cases failure.raised.isException with
  | false => simp
  | true =>
    cases failure.shutdownEscapes with
    | true => simp
    | false =>
      cases hclosed : failure.loggerOpen && failure.holdsDescriptors with
      | true =>
        rw [Bool.and_eq_true] at hclosed
        simp [hclosed]
      | false =>
        have hopen : ¬ (failure.loggerOpen = true ∧ failure.holdsDescriptors = true) := by
          rw [← Bool.and_eq_true, hclosed]
          decide
        rw [if_pos rfl, if_neg (by decide), if_neg (by decide)]
        constructor
        · intro ⟨packet, _, _, hsent, _⟩
          obtain ⟨bytes, hbytes⟩ := exists_of_sendEncoded hsent
          have hencode := Sdk.encodeError_ok_iff.mp hbytes
          exact ⟨⟨rfl, rfl, hopen⟩, (exists_encodeError_iff id (by decide) _).mp ⟨bytes, hencode⟩⟩
        · intro ⟨_, hreportable⟩
          obtain ⟨packet, hpacket⟩ := (exists_encodeError_iff id
            (show Status.identityMismatch ≠ .ok by decide) _).mpr hreportable
          exact ⟨packet, _, _, sendEncoded_error hpacket, decodeError_ok_iff.mpr hpacket,
            List.take_prefix _ _⟩

end StartupFailure

/-- **Failures are reported.** The handlers of the worker report an exception to the runtime
exactly when it is an `Exception` whose text, cut to 1024 characters, has a UTF-8 form of at most
1024 bytes, and at startup when in addition neither the shutdown hook nor the closing of the
logger ends the handler first. -/
theorem failures_reported_iff (startup : StartupFailure) (batch : BatchFailure) :
    (startup.Reported ↔ startup.Encodes ∧ Reportable startup.raised) ∧
    (batch.Reported ↔ batch.raised.isException = true ∧ Reportable batch.raised) :=
  ⟨StartupFailure.reported_iff startup, BatchFailure.reported_iff batch⟩

/-- The UTF-8 form of a text of two-byte characters. -/
theorem length_encode_replicate {n : Nat} {bytes : List UInt8}
    (h : Utf8.encode (List.replicate n 0xE9) = some bytes) : bytes.length = 2 * n := by
  induction n generalizing bytes with
  | zero => cases h; rfl
  | succ n ih =>
    obtain ⟨head, tail, hhead, htail, rfl⟩ := Utf8.exists_of_encode_cons h
    have hpoint : Utf8.encodePoint 0xE9 = some [0xC3, 0xA9] := by decide
    rw [hpoint] at hhead
    cases hhead
    rw [List.length_append, ih htail]
    simp only [List.length_cons, List.length_nil]
    omega

/-- An `initialize` hook that raises an `Exception` with the text, of a session without a log. -/
def rejectedBy (text : Text) (logMode : LogMode) : StartupFailure where
  stage := .initializing
  requestId := 1
  logMode := logMode
  hasInitialize := true
  shutdown := none
  raised := ⟨true, text⟩

/-- A hook that raises 513 two-byte characters is not reported, and neither is any that raises
while the worker has a log. -/
theorem not_reported_accented_text :
    ¬ (rejectedBy (List.replicate 513 0xE9) .disabled).Reported ∧
      ∀ text, ¬ (rejectedBy text .centralized).Reported := by
  constructor
  · rw [StartupFailure.reported_iff]
    intro ⟨_, bytes, hbytes, hlength⟩
    have hmessage : (rejectedBy (List.replicate 513 0xE9) .disabled).raised.message =
        List.replicate 513 0xE9 := List.take_of_length_le (by
          show (List.replicate 513 (0xE9 : Utf8.CodePoint)).length ≤ 1024
          rw [List.length_replicate]
          decide)
    rw [hmessage] at hbytes
    rw [length_encode_replicate hbytes, MAX_ERROR_BYTES] at hlength
    omega
  · intro text
    rw [StartupFailure.reported_iff]
    intro ⟨⟨_, _, hopen⟩, _⟩
    exact hopen ⟨rfl, rfl⟩

end Wmfs.Worker.Failures
