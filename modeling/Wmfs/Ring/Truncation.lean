import Wmfs.Ring.RoundTrip

/-!
# `Wmfs.Ring.Truncation`: error texts that do not fit

`encode` cuts the type and the message of an error on bytes, at 64 and at 1024, and `decode`
decodes what is left as strict UTF-8. A text that fits is not cut. A longer one survives when
the cut falls between two characters. When it falls inside of one, `decode` raises, and with it
fails the whole record (`truncatesWell_iff`).
-/

set_option autoImplicit false

namespace Wmfs.Ring.Codec

open Wmfs.Lib
open Wmfs.Lib.Utf8 (Text)

variable {Obj : Type} [PyObject Obj]

/-- The flags of the error area of a buffer. -/
def readErrorFlags (data : List UInt8) : Int :=
  match unpackFrom ERROR_HEAD data ERROR_OFFSET with
  | [_, _, flags, _] => flags
  | _ => 0

/-- `decoded` is what is left of `text` in an area of `size` bytes, and `flag` says whether it
was shortened. -/
structure Shortened (text decoded : Text) (size : Nat) (flag : Bool) : Prop where
  isPrefix : decoded <+: text
  fits : Fits decoded size
  whole : Fits text size → decoded = text
  flagged : flag = true ↔ decoded ≠ text

/-- The record is encoded and decoded again, with its error texts shortened to their areas. -/
def TruncatesWell (record : Record Obj) : Prop :=
  ∃ data, encode record = .ok data ∧
    ∃ decoded : Record Obj, decode data record.generation = .ok decoded ∧
      Shortened record.errorType decoded.errorType 64 (readErrorFlags data % 2 = 1) ∧
      Shortened record.errorMessage decoded.errorMessage 1024 (readErrorFlags data / 2 % 2 = 1)

/-- The error area of cut texts can always be packed. -/
theorem exists_errorImage {errorType errorMessage : List UInt8} (htype : errorType.length ≤ 64)
    (hmessage : errorMessage.length ≤ 1024) (m n : Nat) :
    ∃ bytes, errorImage errorType errorMessage (errorFlags m n) = .ok bytes := by
  have hflags : 0 ≤ errorFlags m n ∧ errorFlags m n < 4 := by
    unfold errorFlags
    split <;> split <;> decide
  have hpack : (pack ERROR_HEAD [(errorType.length : Int), errorMessage.length, errorFlags m n,
      0]).isSome := by
    rw [isSome_pack_iff]
    simp only [ERROR_HEAD, List.forall₂_cons, Field.holds_I_iff, List.Forall₂.nil, and_true]
    omega
  obtain ⟨head, hhead⟩ := Option.isSome_iff_exists.mp hpack
  refine ⟨head ++ padTo 64 errorType ++ padTo 1024 errorMessage, ?_⟩
  rw [errorImage, structPack_ok_iff.mpr hhead]
  rfl

/-- `encode` accepts every text that has a UTF-8 form, of any length. -/
theorem exists_encode_of_texts {record : Record Obj} {base typeBytes messageBytes : List UInt8}
    (hbase : encode { record with errorType := [], errorMessage := [] } = .ok base)
    (htype : Utf8.encode record.errorType = some typeBytes)
    (hmessage : Utf8.encode record.errorMessage = some messageBytes) :
    ∃ data, encode record = .ok data := by
  rw [encode_eq_image, recordImage] at hbase
  -- The texts play no part in the body of the record.
  obtain ⟨body, hbody, _⟩ := Result.bind_ok_iff.mp hbase
  have hbody : bodyImage record = .ok body := hbody
  obtain ⟨error, herror⟩ := exists_errorImage (List.length_take_le 64 typeBytes)
    (List.length_take_le 1024 messageBytes) typeBytes.length messageBytes.length
  refine ⟨body ++ error ++ zeros 3312, ?_⟩
  rw [encode_eq_image, recordImage, hbody, Result.ok_bind, encodeText_ok_iff.mpr htype,
    Result.ok_bind, encodeText_ok_iff.mpr hmessage, Result.ok_bind, herror]
  rfl

/-- What is decoded from a text that was cut between two characters. -/
theorem shortened_of_decode {text decoded : Text} {bytes : List UInt8} {size : Nat}
    (htext : Utf8.encode text = some bytes)
    (hdecoded : decodeText (bytes.take size) = .ok decoded) :
    Shortened text decoded size (bytes.length > size) := by
  have hencoded : Utf8.encode decoded = some (bytes.take size) := decodeText_ok_iff.mp hdecoded
  have hinitial := (Utf8.prefix_of_decode_take htext (Utf8.decode_encode hencoded)).1
  have hwhole : bytes.length ≤ size → decoded = text := by
    intro hle
    rw [List.take_of_length_le hle] at hencoded
    have := Utf8.decode_encode hencoded
    rw [Utf8.decode_encode htext] at this
    exact (Option.some.inj this).symm
  refine ⟨hinitial, ⟨_, hencoded, List.length_take_le _ _⟩, ?_, ?_⟩
  · intro ⟨bytes', hbytes', hle⟩
    rw [htext] at hbytes'
    cases hbytes'
    exact hwhole hle
  · rw [decide_eq_true_eq]
    constructor
    · intro hgt heq
      -- The decoded text has fewer bytes than the whole one.
      rw [heq, htext, Option.some.injEq] at hencoded
      have := congrArg List.length hencoded
      rw [List.length_take] at this
      omega
    · intro hne
      by_contra hle
      exact hne (hwhole (by omega))

/-- The flags that `encode` leaves in the error area. -/
theorem readErrorFlags_of_encoded {record : Record Obj} {data typeBytes messageBytes : List UInt8}
    (h : Encoded record data) (htype : Utf8.encode record.errorType = some typeBytes)
    (hmessage : Utf8.encode record.errorMessage = some messageBytes) :
    readErrorFlags data = errorFlags typeBytes.length messageBytes.length := by
  obtain ⟨encodedType, encodedMessage, hencodedType, hencodedMessage, herror⟩ := h.error
  rw [encodeText_ok_iff, htype] at hencodedType
  rw [encodeText_ok_iff, hmessage] at hencodedMessage
  cases hencodedType
  cases hencodedMessage
  obtain ⟨hhead, _⟩ := (errorImage_ok_iff (by rw [h.size]; decide)
    (List.length_take_le _ _)).mp herror
  rw [readErrorFlags, hhead]

/-- The flag of a type that is cut. -/
theorem typeFlag_errorFlags (m n : Nat) : errorFlags m n % 2 = 1 ↔ m > 64 := by
  unfold errorFlags
  split <;> split <;> simp_all

/-- The flag of a message that is cut. -/
theorem messageFlag_errorFlags (m n : Nat) : errorFlags m n / 2 % 2 = 1 ↔ n > 1024 := by
  unfold errorFlags
  split <;> split <;> simp_all

/-- What `decode` makes of the record, in terms of the bytes of its two error texts. -/
theorem decode_of_texts {record : Record Obj} {data typeBytes messageBytes : List UInt8}
    (h : Encoded record data) (htype : Utf8.encode record.errorType = some typeBytes)
    (hmessage : Utf8.encode record.errorMessage = some messageBytes) :
    ∃ scalars : List (Scalar Obj), decode data record.generation = (do
      let errorType ← decodeText (typeBytes.take 64)
      let errorMessage ← decodeText (messageBytes.take 1024)
      return { record with
        scalars := scalars, errorType := errorType, errorMessage := errorMessage }) := by
  obtain ⟨scalars, _, hdecode⟩ := decode_of_encoded h
  obtain ⟨encodedType, encodedMessage, hencodedType, hencodedMessage, herror⟩ := h.error
  rw [encodeText_ok_iff, htype] at hencodedType
  rw [encodeText_ok_iff, hmessage] at hencodedMessage
  cases hencodedType
  cases hencodedMessage
  refine ⟨scalars, ?_⟩
  rw [hdecode, decodeError_of_image h.size (List.length_take_le _ _) (List.length_take_le _ _)
    (errorFlags_div _ _) herror]
  cases decodeText (typeBytes.take 64) with
  | error e => rw [Result.error_bind, Result.error_bind, Result.error_bind]
  | ok errorType =>
    rw [Result.ok_bind, Result.ok_bind]
    cases decodeText (messageBytes.take 1024) with
    | error e => rw [Result.error_bind, Result.error_bind, Result.error_bind]
    | ok errorMessage => rfl

/-- **Truncation.** The texts of an otherwise acceptable record survive `encode` and `decode`
exactly when neither byte 64 of the type nor byte 1024 of the message is inside a character. -/
theorem truncatesWell_iff (record : Record Obj) (base typeBytes messageBytes : List UInt8)
    (hbase : encode { record with errorType := [], errorMessage := [] } = .ok base)
    (htype : Utf8.encode record.errorType = some typeBytes)
    (hmessage : Utf8.encode record.errorMessage = some messageBytes) :
    TruncatesWell record ↔
      Utf8.cutsCharacter typeBytes 64 = false ∧ Utf8.cutsCharacter messageBytes 1024 = false := by
  obtain ⟨data, hdata⟩ := exists_encode_of_texts hbase htype hmessage
  have hencoded := encode_ok_iff.mp hdata
  have hflags := readErrorFlags_of_encoded hencoded htype hmessage
  obtain ⟨scalars, hdecode⟩ := decode_of_texts hencoded htype hmessage
  constructor
  · intro ⟨data', hdata', decoded, hdecoded, _⟩
    rw [hdata] at hdata'
    cases hdata'
    -- Both texts were decoded, so neither is cut inside a character.
    rw [hdecode] at hdecoded
    obtain ⟨errorType, ht, hdecoded⟩ := Result.bind_ok_iff.mp hdecoded
    obtain ⟨errorMessage, hm, _⟩ := Result.bind_ok_iff.mp hdecoded
    rw [decodeText_ok_iff] at ht hm
    exact ⟨(Utf8.prefix_of_decode_take htype (Utf8.decode_encode ht)).2,
      (Utf8.prefix_of_decode_take hmessage (Utf8.decode_encode hm)).2⟩
  · intro ⟨htypeCut, hmessageCut⟩
    obtain ⟨errorType, ht⟩ := Utf8.exists_decode_take htype htypeCut
    obtain ⟨errorMessage, hm⟩ := Utf8.exists_decode_take hmessage hmessageCut
    have ht : decodeText (typeBytes.take 64) = .ok errorType := by rw [decodeText, ht]
    have hm : decodeText (messageBytes.take 1024) = .ok errorMessage := by rw [decodeText, hm]
    rw [ht, Result.ok_bind, hm, Result.ok_bind] at hdecode
    refine ⟨data, hdata, _, hdecode, ?_, ?_⟩
    · simp only [hflags, typeFlag_errorFlags]
      exact shortened_of_decode htype ht
    · simp only [hflags, messageFlag_errorFlags]
      exact shortened_of_decode hmessage hm

/-- A record whose error type is `text`. -/
def errorRecord (text : Text) : Record Value where
  kind := 257
  generation := 1
  submissionId := 1
  invocationId := 1
  status := 4
  errorType := text

/-- The sample record is encoded. -/
theorem encode_errorRecord_nil : ∃ base, encode (errorRecord []) = .ok base :=
  exists_encode (by decide)

/-- A type of 66 bytes that is cut behind its 64th, between two characters. -/
theorem truncatesWell_at_boundary : TruncatesWell (errorRecord (List.replicate 33 0xE9)) := by
  obtain ⟨base, hbase⟩ := encode_errorRecord_nil
  exact (truncatesWell_iff (errorRecord (List.replicate 33 0xE9)) base
    (List.replicate 33 [0xC3, 0xA9]).flatten [] hbase (by decide) (by decide)).mpr (by decide)

/-- A type of 65 bytes whose last character starts at byte 63 cannot be decoded. -/
theorem not_truncatesWell_split_character :
    (∃ base, encode (errorRecord []) = .ok base) ∧
    (Utf8.encode (errorRecord (List.replicate 63 0x61 ++ [0xE9])).errorType).isSome ∧
    ¬ TruncatesWell (errorRecord (List.replicate 63 0x61 ++ [0xE9])) := by
  refine ⟨encode_errorRecord_nil, by decide, ?_⟩
  intro ⟨data, hdata, decoded, hdecoded, _⟩
  obtain ⟨scalars, hdecode⟩ := decode_of_texts (encode_ok_iff.mp hdata)
    (show Utf8.encode _ = some (List.replicate 63 0x61 ++ [0xC3, 0xA9]) by decide)
    (show Utf8.encode _ = some [] by decide)
  have hcut : decodeText ((List.replicate 63 (0x61 : UInt8) ++ [0xC3, 0xA9]).take 64) =
      .error .unicodeDecodeError := by decide
  rw [hdecode, hcut] at hdecoded
  cases hdecoded

end Wmfs.Ring.Codec
