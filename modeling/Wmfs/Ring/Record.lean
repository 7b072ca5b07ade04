import Mathlib.Tactic

/-!
# `Wmfs.Ring.Record`: ring records and their validation

A ring record is 16384 bytes of shared memory (`inc/wmfs/protocol/ring.h`). A `Record` is
its bytes, and the field readers decode little-endian integers at the offsets that the
header asserts.

`validateRecordGeneration` is the check of `src/ring.cpp` that `RingProducer::try_push`
makes before it publishes and that `RingConsumer::try_pop` makes on its copy. It reads the
session generation, the three descriptor counts and the reserved bytes, and nothing else.
`validateRecordGeneration_blank` shows that it accepts some record of every generation.
-/

set_option autoImplicit false

namespace Wmfs.Ring

/-- `WMFS_RING_RECORD_SIZE`. -/
def RECORD_SIZE : Nat := 16384

/-- `WMFS_RING_MAX_TENSORS`. -/
def MAX_TENSORS : Nat := 16

/-- `WMFS_RING_MAX_SCALARS`. -/
def MAX_SCALARS : Nat := 16

/-- `WMFS_RING_MAX_PLANNED_OUTPUTS`. -/
def MAX_PLANNED_OUTPUTS : Nat := 16

/-- The bytes of one `wmfs_ring_record_v1`. -/
abbrev Record : Type := Fin RECORD_SIZE → UInt8

/-- The reasons that `corrupt` is called with. -/
inductive Corrupt where
  | impossibleCounters
  | producerCounterOverflow
  | consumerCounterOverflow
  | recordSessionGeneration
  | recordDescriptorCounts
  | reservedRecordBytes
  | reservedTensorDescriptorBytes
  | reservedScalarDescriptorBytes
  | reservedOutputDescriptorBytes
  | reservedErrorBytes
  deriving DecidableEq, Repr

/-- The text of the `std::runtime_error` that `corrupt` throws. -/
def Corrupt.what : Corrupt → String
  | .impossibleCounters => "invalid ring: impossible counters"
  | .producerCounterOverflow => "invalid ring: producer counter overflow"
  | .consumerCounterOverflow => "invalid ring: consumer counter overflow"
  | .recordSessionGeneration => "invalid ring: record session generation"
  | .recordDescriptorCounts => "invalid ring: record descriptor counts"
  | .reservedRecordBytes => "invalid ring: reserved record bytes"
  | .reservedTensorDescriptorBytes => "invalid ring: reserved tensor descriptor bytes"
  | .reservedScalarDescriptorBytes => "invalid ring: reserved scalar descriptor bytes"
  | .reservedOutputDescriptorBytes => "invalid ring: reserved output descriptor bytes"
  | .reservedErrorBytes => "invalid ring: reserved error bytes"

namespace Record

/-- The byte at `offset`. Offsets past the record read as zero; no field reader uses them. -/
def byte (record : Record) (offset : Nat) : Nat :=
  if h : offset < RECORD_SIZE then (record ⟨offset, h⟩).toNat else 0

/-- The little-endian integer in the `size` bytes at `offset`. -/
def load (record : Record) : Nat → Nat → Nat
  | _, 0 => 0
  | offset, size + 1 => record.byte offset + 256 * load record (offset + 1) size

/-- `all_zero` on the `size` bytes at `offset`. -/
def allZero (record : Record) (offset size : Nat) : Bool :=
  (List.range size).all fun index => record.byte (offset + index) == 0

/-- The record with the little-endian `value` in the `size` bytes at `offset`. -/
def store (record : Record) (offset size value : Nat) : Record := fun index =>
  if offset ≤ index.val ∧ index.val < offset + size then
    UInt8.ofNat (value / 256 ^ (index.val - offset))
  else record index

/-- The field `kind`. -/
def kind (record : Record) : Nat := record.load 0 4

/-- The field `flags`. -/
def flags (record : Record) : Nat := record.load 4 4

/-- The field `session_generation`. -/
def sessionGeneration (record : Record) : Nat := record.load 8 8

/-- The field `submission_id`. -/
def submissionId (record : Record) : Nat := record.load 16 8

/-- The field `invocation_id`. -/
def invocationId (record : Record) : Nat := record.load 24 8

/-- The field `operation_id`. -/
def operationId (record : Record) : Nat := record.load 32 4

/-- The field `status`. -/
def status (record : Record) : Nat := record.load 36 4

/-- The field `tensor_count`. -/
def tensorCount (record : Record) : Nat := record.load 40 2

/-- The field `scalar_count`. -/
def scalarCount (record : Record) : Nat := record.load 42 2

/-- The field `planned_output_count`. -/
def plannedOutputCount (record : Record) : Nat := record.load 44 2

/-- The field `tensors[index].reserved0`. -/
def tensorReserved0 (record : Record) (index : Nat) : Nat :=
  record.load (128 + index * 312 + 54) 2

/-- The field `scalars[index].reserved0`. -/
def scalarReserved0 (record : Record) (index : Nat) : Nat :=
  record.load (5120 + index * 280 + 20) 4

/-- The field `planned_outputs[index].reserved0`. -/
def outputReserved0 (record : Record) (index : Nat) : Nat :=
  record.load (9600 + index * 144 + 12) 4

/-- The field `error.reserved0`. -/
def errorReserved0 (record : Record) : Nat := record.load (11968 + 12) 4

end Record

/-- `validate_record_generation`. The counts are compared with their limits, but the
descriptors behind the counts are read in full, for their reserved fields. -/
def validateRecordGeneration (record : Record) (generation : Nat) : Except Corrupt Unit :=
  if record.sessionGeneration ≠ generation then
    .error .recordSessionGeneration
  else if record.tensorCount > MAX_TENSORS ∨ record.scalarCount > MAX_SCALARS ∨
      record.plannedOutputCount > MAX_PLANNED_OUTPUTS then
    .error .recordDescriptorCounts
  -- `reserved0`, `reserved1`, `reserved_header` and `reserved_tail`.
  else if record.load 46 2 ≠ 0 ∨ record.load 48 4 ≠ 0 ∨ !record.allZero 52 76 ∨
      !record.allZero 13072 3312 then
    .error .reservedRecordBytes
  -- The three loops go over whole arrays, not only over the descriptors in use.
  else if (List.range 16).any fun index => record.tensorReserved0 index != 0 then
    .error .reservedTensorDescriptorBytes
  else if (List.range 16).any fun index => record.scalarReserved0 index != 0 then
    .error .reservedScalarDescriptorBytes
  else if (List.range 16).any fun index => record.outputReserved0 index != 0 then
    .error .reservedOutputDescriptorBytes
  else if record.errorReserved0 ≠ 0 then
    .error .reservedErrorBytes
  else
    .ok ()

/-- The reasons that blame the counters of the header. -/
def Corrupt.isCounter : Corrupt → Bool
  | .impossibleCounters => true
  | .producerCounterOverflow => true
  | .consumerCounterOverflow => true
  | _ => false

/-- The validation of a record does not blame the counters. -/
theorem isCounter_of_validateRecordGeneration {record : Record} {generation : Nat}
    {reason : Corrupt} (h : validateRecordGeneration record generation = .error reason) :
    reason.isCounter = false := by
  unfold validateRecordGeneration at h
  split_ifs at h <;> cases h <;> rfl

namespace Record

/-- A field reads the same in two records that agree on its bytes. -/
theorem load_congr {a b : Record} (size : Nat) : ∀ offset : Nat,
    (∀ k < size, a.byte (offset + k) = b.byte (offset + k)) →
    a.load offset size = b.load offset size := by
  induction size with
  | zero => intro offset _; rfl
  | succ size ih =>
    intro offset hbyte
    have hlow : a.byte offset = b.byte offset := by simpa using hbyte 0 (by omega)
    have hhigh : a.load (offset + 1) size = b.load (offset + 1) size := by
      refine ih (offset + 1) fun k hk => ?_
      rw [Nat.add_assoc, Nat.add_comm 1 k]
      exact hbyte (k + 1) (by omega)
    rw [load, load, hlow, hhigh]

/-- A store leaves the bytes outside of it alone. -/
theorem byte_store_of_outside (record : Record) (offset size value : Nat) {other : Nat}
    (h : other < offset ∨ offset + size ≤ other) :
    (record.store offset size value).byte other = record.byte other := by
  unfold byte store
  split
  · rw [if_neg (by simp only; omega)]
  · rfl

/-- A store leaves the fields that it does not overlap alone. -/
theorem load_store_of_disjoint (record : Record) (offset size value : Nat)
    {other width : Nat} (h : other + width ≤ offset ∨ offset + size ≤ other) :
    (record.store offset size value).load other width = record.load other width :=
  load_congr width other fun k hk => byte_store_of_outside record offset size value (by omega)

/-- A record of zeros. -/
def zero : Record := fun _ => 0

/-- The bytes of an empty record. -/
theorem byte_zero (offset : Nat) : zero.byte offset = 0 := by
  unfold byte zero
  split <;> rfl

/-- A record that is zero apart from its session generation. -/
def blank (generation : Nat) : Record := zero.store 8 8 generation

/-- The bytes of a blank record outside the session generation are zero. -/
theorem byte_blank_eq_zero (generation offset : Nat) (h : ¬ (8 ≤ offset ∧ offset < 16)) :
    (blank generation).byte offset = 0 := by
  rw [blank, byte_store_of_outside zero 8 8 generation (by omega), byte_zero]

/-- A field of a blank record that does not overlap the session generation reads zero. -/
theorem load_blank_eq_zero (generation : Nat) (size offset : Nat)
    (h : offset + size ≤ 8 ∨ 16 ≤ offset) : (blank generation).load offset size = 0 := by
  induction size generalizing offset with
  | zero => rfl
  | succ size ih =>
    rw [load, byte_blank_eq_zero generation offset (by omega), ih (offset + 1) (by omega)]

/-- The reserved areas of a blank record are zero. -/
theorem allZero_blank (generation offset size : Nat) (h : 16 ≤ offset) :
    (blank generation).allZero offset size = true := by
  -- The areas lie behind the generation, which ends at byte 16.
  simp only [allZero, List.all_eq_true, beq_iff_eq]
  intro index _
  exact byte_blank_eq_zero generation _ (by omega)

/-- A field whose bytes are the base-256 digits of `value` reads `value`, up to its width. -/
theorem load_eq_mod (record : Record) (size : Nat) : ∀ (value offset : Nat),
    (∀ k < size, record.byte (offset + k) = value / 256 ^ k % 256) →
    record.load offset size = value % 256 ^ size := by
  induction size with
  | zero => intro value offset _; simp [load, Nat.mod_one]
  | succ size ih =>
    intro value offset hbyte
    have hlow : record.byte offset = value % 256 := by simpa using hbyte 0 (by omega)
    have hhigh : record.load (offset + 1) size = value / 256 % 256 ^ size := by
      refine ih (value / 256) (offset + 1) fun k hk => ?_
      -- Digit `k` of `value / 256` is digit `k + 1` of `value`.
      rw [Nat.div_div_eq_div_mul, ← Nat.pow_succ', Nat.add_assoc, Nat.add_comm 1 k]
      exact hbyte (k + 1) (by omega)
    rw [load, hlow, hhigh, Nat.pow_succ', Nat.mod_mul]

/-- A field reads the value that was stored in it, up to its width. -/
theorem load_store (record : Record) {offset size : Nat} (value : Nat)
    (h : offset + size ≤ RECORD_SIZE) :
    (record.store offset size value).load offset size = value % 256 ^ size := by
  refine load_eq_mod _ size value offset fun k hk => ?_
  have hlt : offset + k < RECORD_SIZE := by omega
  unfold byte store
  rw [dif_pos hlt]
  simp [hk]

/-- The session generation of a blank record is the one it was made with. -/
theorem sessionGeneration_blank (generation : Nat) (h : generation < 2 ^ 64) :
    (blank generation).sessionGeneration = generation := by
  rw [sessionGeneration, blank, load_store zero generation (by decide)]
  exact Nat.mod_eq_of_lt (by norm_num at h ⊢; exact h)

end Record

/-- Every session generation has a record that the validation accepts. -/
theorem validateRecordGeneration_blank (generation : Nat) (h : generation < 2 ^ 64) :
    validateRecordGeneration (Record.blank generation) generation = .ok () := by
  have hzero : ∀ offset size, 16 ≤ offset →
      (Record.blank generation).load offset size = 0 := fun offset size ho =>
    Record.load_blank_eq_zero generation size offset (Or.inr ho)
  unfold validateRecordGeneration
  -- The first test passes by the stored generation, and all others read zeros.
  rw [Record.sessionGeneration_blank generation h]
  simp [Record.tensorCount, Record.scalarCount, Record.plannedOutputCount,
    Record.tensorReserved0, Record.scalarReserved0, Record.outputReserved0,
    Record.errorReserved0, hzero, Record.allZero_blank]
  intro index _
  exact hzero _ _ (by omega)

end Wmfs.Ring
