import Mathlib.Tactic.IntervalCases
import Wmfs.Views.Native

/-!
# `Wmfs.Views.Agreement`: the workers accept the same tensor descriptors

The Python worker computes with integers of any size, and makes its views from a tensor of the
whole mapping. The native worker computes with 64-bit integers that refuse to wrap, and makes its
views from a pointer. Whatever the workers did before, what they answer does not depend on it, and
both accept exactly the descriptors that are admissible (`Admissible`), with one exception. The
tensor of the whole mapping exists only when the length of the mapping is a multiple of the item
size. So the Python worker refuses an admissible view in a mapping of another length, which the
native worker makes (`tensor_agree_iff`).
-/

set_option autoImplicit false

namespace Wmfs.Views

open Wmfs.Lib
open Wmfs.Lib.Strided (reach)
open Wmfs.Invocation (Exn)
open Wmfs.Ring.Codec (ID_TO_DTYPE)

attribute [local instance] neZero_one neZero_four neZero_eight

/-! ### What is accepted -/

/-- The descriptor names the buffer of the mapping, and the call may use it. -/
structure Identified (spec : MappingSpec) (call : Call) : Prop where
  generation : spec.generation.toNat = call.descriptor.bufferGeneration.toNat
  allocation : spec.arena = false → spec.allocationId = call.descriptor.allocationId
  writable : call.requireWritable = true → spec.writable = true
  invocation : call.requireWritable = true → spec.arena = false →
    spec.invocationId = call.invocationId

/-- The dtypes of `wmfs_ring_dtype_v1` that the workers have, and their item sizes. -/
def elementOf (dtype : UInt32) : Option (ElementType × ℕ+) :=
  if dtype = 8 then some (.float32, 4)
  else if dtype = 9 then some (.float64, 8)
  else if dtype = 6 then some (.int64, 8)
  else if dtype = 3 then some (.uint8, 1)
  else none

/-- A descriptor that is admissible for a mapping. All sums and products are exact. -/
structure Admissible (spec : MappingSpec) (call : Call) (element : ElementType) (itemSize : ℕ+) :
    Prop where
  identified : Identified spec call
  dtype : elementOf call.descriptor.dtype = some (element, itemSize)
  view : validateView spec.byteLength.toNat call.descriptor.byteOffset.toNat
    call.descriptor.byteLength.toNat itemSize (call.descriptor.shape.map Int64.toInt)
    (call.descriptor.strides.map Int64.toInt) = .ok ()

/-- The view that a descriptor denotes. -/
def viewOf (descriptor : RingTensor) (element : ElementType) (itemSize : ℕ+) : View where
  element := element
  shape := descriptor.shape.map Int64.toInt
  strides := descriptor.strides.map fun stride => stride.toInt / (itemSize : Nat)
  start := descriptor.byteOffset.toNat

/-- The mapping of an admissible descriptor has a whole number of elements. -/
def WholeElements (specs : UInt64 → Option MappingSpec) (call : Call) : Prop :=
  ∀ spec element itemSize, specs call.descriptor.bufferId = some spec →
    Admissible spec call element itemSize → (itemSize : Nat) ∣ spec.byteLength.toNat

/-- An element has at most eight bytes. -/
theorem elementOf_le {dtype : UInt32} {element : ElementType} {itemSize : ℕ+}
    (h : elementOf dtype = some (element, itemSize)) : (itemSize : Nat) ≤ 8 := by
  unfold elementOf at h
  split_ifs at h <;> cases h <;> decide

/-! ### The Python worker -/

namespace Python

/-- The call without the history of the worker. -/
def resolve (specs : UInt64 → Option MappingSpec) (call : Call) : Except Exn View := do
  let descriptor ← decodeTensor call.descriptor
  Memo.direct construct (Invocation.valueError "Tensor references an unmapped buffer") specs
    descriptor.bufferId (viewKey descriptor call.invocationId.toNat call.requireWritable)

/-- A call returns what it resolves to, and keeps the memo coherent. -/
theorem tensor_coherent {specs : UInt64 → Option MappingSpec} {buffers : Buffers}
    (h : Memo.Coherent construct specs buffers) (call : Call) :
    (tensor buffers call).1 = resolve specs call ∧
      Memo.Coherent construct specs (tensor buffers call).2 := by
  unfold tensor resolve
  cases decodeTensor call.descriptor with
  | error error => exact ⟨rfl, h⟩
  | ok descriptor => exact h.callAt _ _ _ _

/-- After any calls the memo is coherent. -/
theorem after_coherent (specs : UInt64 → Option MappingSpec) (calls : List Call) :
    Memo.Coherent construct specs (after specs calls) := by
  induction calls using List.reverseRecOn with
  | nil => exact Memo.coherent_fresh construct specs
  | append_singleton calls call ih =>
    rw [after, List.foldl_append, List.foldl_cons, List.foldl_nil]
    exact (tensor_coherent ih call).2

/-- A worker answers the same after any calls. -/
theorem tensor_after (specs : UInt64 → Option MappingSpec) (calls : List Call) (call : Call) :
    (tensor (after specs calls) call).1 = resolve specs call :=
  (tensor_coherent (after_coherent specs calls) call).1

/-- The name that the ring gives a dtype, looked up by the cache. -/
theorem dtypeOf_lookup (dtype : UInt32) :
    ((ID_TO_DTYPE.lookup (dtype.toNat : Int)).bind fun name => (dtypeOf name).toOption) =
      elementOf dtype := by
  by_cases hlt : dtype.toNat < 11
  · obtain ⟨n, hn⟩ : ∃ n, dtype.toNat = n := ⟨_, rfl⟩
    obtain rfl : dtype = UInt32.ofNat n := by
      rw [← hn, UInt32.ofNat_toNat]
    rw [hn] at hlt ⊢
    interval_cases n <;> decide
  · -- No table has a larger id.
    have hnone : ID_TO_DTYPE.lookup (dtype.toNat : Int) = none := by
      rw [List.lookup_eq_none_iff]
      intro entry hmem
      rw [bne_iff_ne]
      have hsmall : ∀ entry ∈ ID_TO_DTYPE, entry.1 < 11 := by decide
      have hentry := hsmall entry hmem
      omega
    have hne : ∀ id : UInt32, id.toNat < 11 → dtype ≠ id := by
      intro id hid heq
      rw [heq] at hlt
      exact hlt hid
    rw [hnone, elementOf, if_neg (hne 8 (by decide)), if_neg (hne 9 (by decide)),
      if_neg (hne 6 (by decide)), if_neg (hne 3 (by decide))]
    rfl

/-- The descriptor that the ring makes, with the name of its dtype. -/
def described (source : RingTensor) (dtype : String) : Descriptor where
  bufferId := source.bufferId
  generation := source.bufferGeneration.toNat
  allocationId := source.allocationId.toNat
  offset := source.byteOffset.toNat
  byteLength := source.byteLength.toNat
  dtype := dtype
  shape := source.shape.map Int64.toInt
  strides := source.strides.map Int64.toInt

/-- When a tensor of the ring is decoded. -/
theorem decodeTensor_ok_iff {source : RingTensor} {descriptor : Descriptor} :
    decodeTensor source = .ok descriptor ↔ source.shape ≠ [] ∧
      ∃ dtype, ID_TO_DTYPE.lookup (source.dtype.toNat : Int) = some dtype ∧
        described source dtype = descriptor := by
  rw [decodeTensor, Result.check_bind_ok_iff, raiseIf_ok_iff, List.length_eq_zero_iff]
  refine and_congr_right fun _ => ?_
  cases ID_TO_DTYPE.lookup (source.dtype.toNat : Int) with
  | none =>
    constructor
    · intro h
      cases h
    · intro ⟨_, h, _⟩
      cases h
  | some dtype =>
    constructor
    · intro h
      exact ⟨dtype, rfl, Except.ok.inj h⟩
    · intro ⟨_, h, heq⟩
      cases h
      exact congrArg Except.ok heq

/-- When the mapping is the one that the call asks for. -/
theorem checkIdentity_ok_iff {spec : MappingSpec} {call : Call} {dtype : String} :
    checkIdentity spec (described call.descriptor dtype) call.invocationId.toNat
      call.requireWritable = .ok () ↔ Identified spec call := by
  simp only [checkIdentity, described, Result.check_bind_ok_iff, raiseIf_ok_iff, not_and, not_not,
    ne_eq, Nat.cast_inj, UInt64.toNat_inj, Bool.not_eq_true, Bool.not_eq_false]
  constructor
  · rintro ⟨hgeneration, hallocation, hwritable, hinvocation⟩
    exact ⟨hgeneration, hallocation, hwritable, hinvocation⟩
  · intro h
    exact ⟨h.generation, h.allocation, h.writable, h.invocation⟩

/-- The dtype of a name that the ring knows. -/
theorem dtypeOf_eq_ok {name : String} {dtype : UInt32} {pair : ElementType × ℕ+}
    (hname : ID_TO_DTYPE.lookup (dtype.toNat : Int) = some name) :
    dtypeOf name = .ok pair ↔ elementOf dtype = some pair := by
  rw [← dtypeOf_lookup, hname, Option.bind_some]
  cases dtypeOf name with
  | error error => simp [Except.toOption]
  | ok other => simp [Except.toOption]

/-- Whole elements before the offset. -/
theorem start_eq {offset : Int} {itemSize : ℕ+} (h : ((itemSize : Nat) : Int) ∣ offset) :
    offset / (itemSize : Nat) * (itemSize : Nat) = offset :=
  Int.ediv_mul_cancel h

/-- When a call has a key, and which. -/
theorem viewKey_ok_iff {spec : MappingSpec} {call : Call} {dtype : String} {key : ViewKey} :
    viewKey (described call.descriptor dtype) call.invocationId.toNat call.requireWritable spec =
        .ok key ↔
      Identified spec call ∧ (∃ pair, dtypeOf dtype = .ok pair) ∧
        { allocationId := call.descriptor.allocationId.toNat
          offset := call.descriptor.byteOffset.toNat
          byteLength := call.descriptor.byteLength.toNat
          dtype := dtype
          shape := call.descriptor.shape.map Int64.toInt
          byteStrides := call.descriptor.strides.map Int64.toInt } = key := by
  rw [viewKey, Result.check_bind_ok_iff, checkIdentity_ok_iff, Result.bind_ok_iff]
  refine and_congr_right fun _ => ?_
  constructor
  · intro ⟨pair, hpair, hkey⟩
    exact ⟨⟨pair, hpair⟩, Except.ok.inj hkey⟩
  · intro ⟨⟨pair, hpair⟩, hkey⟩
    exact ⟨pair, hpair, congrArg Except.ok hkey⟩

/-- `frombuffer` takes whole elements only. -/
theorem frombuffer_ok_iff {byteLength itemSize : Nat} :
    frombuffer byteLength itemSize = .ok () ↔ itemSize ∣ byteLength := by
  rw [frombuffer, raiseIf_ok_iff, not_not, ← Int.dvd_iff_emod_eq_zero, Int.natCast_dvd_natCast]

/-- When a view is made, and which. -/
theorem construct_ok_iff {spec : MappingSpec} {key : ViewKey} {view : View} :
    construct spec key = .ok view ↔ ∃ element itemSize, dtypeOf key.dtype = .ok (element, itemSize) ∧
      validateView spec.byteLength.toNat key.offset key.byteLength itemSize key.shape
        key.byteStrides = .ok () ∧
      (itemSize : Nat) ∣ spec.byteLength.toNat ∧
      { element := element
        shape := key.shape
        strides := key.byteStrides.map fun stride => stride / (itemSize : Nat)
        start := key.offset / (itemSize : Nat) * (itemSize : Nat) } = view := by
  rw [construct, Result.bind_ok_iff]
  constructor
  · intro ⟨(element, itemSize), hdtype, h⟩
    rw [Result.check_bind_ok_iff, Result.check_bind_ok_iff, frombuffer_ok_iff] at h
    obtain ⟨hvalid, hwhole, hview⟩ := h
    exact ⟨element, itemSize, hdtype, hvalid, hwhole, Except.ok.inj hview⟩
  · intro ⟨element, itemSize, hdtype, hvalid, hwhole, hview⟩
    refine ⟨(element, itemSize), hdtype, ?_⟩
    rw [Result.check_bind_ok_iff, Result.check_bind_ok_iff, frombuffer_ok_iff]
    exact ⟨hvalid, hwhole, congrArg Except.ok hview⟩

/-- The Python worker accepts what is admissible, in a mapping of whole elements. -/
theorem resolve_ok_iff {specs : UInt64 → Option MappingSpec} {call : Call} {view : View} :
    resolve specs call = .ok view ↔ ∃ spec element itemSize,
      specs call.descriptor.bufferId = some spec ∧ Admissible spec call element itemSize ∧
        (itemSize : Nat) ∣ spec.byteLength.toNat ∧
          viewOf call.descriptor element itemSize = view := by
  rw [resolve, Result.bind_ok_iff]
  constructor
  · intro ⟨descriptor, hdescriptor, h⟩
    obtain ⟨_, name, hname, rfl⟩ := decodeTensor_ok_iff.mp hdescriptor
    obtain ⟨spec, hspec, key, hkey, h⟩ := Memo.direct_ok_iff.mp h
    obtain ⟨hidentified, _, rfl⟩ := viewKey_ok_iff.mp hkey
    obtain ⟨element, itemSize, hdtype, hvalid, hwhole, hview⟩ := construct_ok_iff.mp h
    have haligned := (validateView_iff.mp hvalid).1.aligned
    rw [start_eq haligned, List.map_map] at hview
    exact ⟨spec, element, itemSize, hspec,
      ⟨hidentified, (dtypeOf_eq_ok hname).mp hdtype, hvalid⟩, hwhole, hview⟩
  · intro ⟨spec, element, itemSize, hspec, h, hwhole, hview⟩
    have hwell := (validateView_iff.mp h.view).1
    have hne : call.descriptor.shape ≠ [] := by
      intro hnil
      have hrank := hwell.rank.1
      rw [hnil] at hrank
      exact absurd hrank (by decide)
    -- A dtype of the workers has a name.
    obtain ⟨name, hname⟩ : ∃ name, ID_TO_DTYPE.lookup (call.descriptor.dtype.toNat : Int) =
        some name := by
      have hlookup := dtypeOf_lookup call.descriptor.dtype
      rw [h.dtype] at hlookup
      obtain ⟨name, hname, _⟩ := Option.bind_eq_some_iff.mp hlookup
      exact ⟨name, hname⟩
    have hdtype := (dtypeOf_eq_ok hname).mpr h.dtype
    refine ⟨_, decodeTensor_ok_iff.mpr ⟨hne, name, hname, rfl⟩, ?_⟩
    refine Memo.direct_ok_iff.mpr ⟨spec, hspec, _,
      viewKey_ok_iff.mpr ⟨h.identified, ⟨_, hdtype⟩, rfl⟩, ?_⟩
    refine construct_ok_iff.mpr ⟨element, itemSize, hdtype, h.view, hwhole, ?_⟩
    rw [start_eq hwell.aligned, List.map_map]
    exact hview

end Python

/-! ### The native worker -/

namespace Native

-- The dimensions of the shape are checked one by one, and not all values of their type.
attribute [local instance (2000)] List.decidableBAll

/-- The call without the history of the worker. -/
def resolve (specs : UInt64 → Option MappingSpec) (call : Call) : Except Failure View :=
  if ∀ dimension ∈ call.descriptor.shape, dimension > 0 then
    Memo.direct construct ⟨"Tensor references an unmapped buffer"⟩ specs call.descriptor.bufferId
      (viewKey (ringDescriptor call.descriptor) call.invocationId call.requireWritable)
  else .error ⟨"Ring tensor shape is invalid"⟩

/-- The same of the native worker. -/
theorem tensor_coherent {specs : UInt64 → Option MappingSpec} {buffers : Buffers}
    (h : Memo.Coherent construct specs buffers) (call : Call) :
    (tensor buffers call).1 = resolve specs call ∧
      Memo.Coherent construct specs (tensor buffers call).2 := by
  unfold tensor resolve
  split
  · exact h.callAt _ _ _ _
  · exact ⟨rfl, h⟩

/-- After any calls the memo of the native worker is coherent. -/
theorem after_coherent (specs : UInt64 → Option MappingSpec) (calls : List Call) :
    Memo.Coherent construct specs (after specs calls) := by
  induction calls using List.reverseRecOn with
  | nil => exact Memo.coherent_fresh construct specs
  | append_singleton calls call ih =>
    rw [after, List.foldl_append, List.foldl_cons, List.foldl_nil]
    exact (tensor_coherent ih call).2

/-- A worker answers the same after any calls. -/
theorem tensor_after (specs : UInt64 → Option MappingSpec) (calls : List Call) (call : Call) :
    (tensor (after specs calls) call).1 = resolve specs call :=
  (tensor_coherent (after_coherent specs calls) call).1

/-! #### Conversions of checked values -/

/-- A number that is not negative is the same without a sign. -/
theorem toNat_toUInt64 {value : Int64} (h : 0 ≤ value.toInt) :
    (value.toUInt64.toNat : Int) = value.toInt := by
  have hle : 0 ≤ value := Int64.le_iff_toInt_le.mpr h
  rw [Int64.toNat_toUInt64_of_le hle, Int64.cast_toNatClampNeg value hle]

/-- A remainder of zero means divisibility. -/
theorem mod_eq_zero_iff {value size : UInt64} : value % size = 0 ↔ size.toNat ∣ value.toNat := by
  rw [← UInt64.toNat_inj, UInt64.toNat_mod]
  exact (Nat.dvd_iff_mod_eq_zero ..).symm

/-- A number that is not zero is positive. -/
theorem ne_zero_iff {value : UInt64} : ¬ value = 0 ↔ 0 < value.toNat := by
  rw [← UInt64.toNat_inj, Nat.pos_iff_ne_zero]
  rfl

/-- The comparison of the numbers. -/
theorem not_gt_iff {left right : UInt64} : ¬ left > right ↔ left.toNat ≤ right.toNat := by
  rw [gt_iff_lt, UInt64.lt_iff_toNat_lt, not_lt]

/-- A positive dimension has a predecessor. -/
theorem toInt_pred {dimension : Int64} (h : 0 < dimension.toInt) :
    (dimension - 1).toInt = dimension.toInt - 1 := by
  have hlt := dimension.toInt_lt
  rw [Int64.toInt_sub, Int64.toInt_one]
  exact Int.bmod_eq_of_le (by omega) (by omega)

/-- A byte stride in elements. -/
theorem toInt_elementStride {stride : Int64} {itemSize : UInt64} (h : 0 ≤ stride.toInt)
    (hle : itemSize.toNat ≤ 8) :
    (stride / itemSize.toInt64).toInt = stride.toInt / itemSize.toNat := by
  have hsize : itemSize.toInt64.toInt = itemSize.toNat := by
    have hof := Int64.toInt_ofNat_of_lt (n := itemSize.toNat) (by omega)
    rwa [← UInt64.toInt64_ofNat', UInt64.ofNat_toNat] at hof
  have hne : stride ≠ Int64.minValue := by
    intro heq
    rw [heq] at h
    exact absurd h (by decide)
  rw [Int64.toInt_div_of_ne_left _ _ hne, hsize, Int.tdiv_eq_ediv_of_nonneg h]

/-- The terms of the sum over the dimensions. -/
theorem sum_products_eq_reach {shape strides : List Int64}
    (hshape : ∀ dimension ∈ shape, 0 < dimension.toInt)
    (hstrides : ∀ stride ∈ strides, 0 ≤ stride.toInt) :
    (((((shape.zip strides).map fun axis => ((axis.1 - 1).toUInt64, axis.2.toUInt64)).map
      fun pair => pair.1.toNat * pair.2.toNat).sum : Nat) : Int) =
        reach (shape.map Int64.toInt) (strides.map Int64.toInt) := by
  induction shape generalizing strides with
  | nil => rfl
  | cons dimension shape ih =>
    cases strides with
    | nil => rfl
    | cons stride strides =>
      rw [List.forall_mem_cons] at hshape hstrides
      have hpred := toInt_pred hshape.1
      have hdimension := @toNat_toUInt64 (dimension - 1) (by omega)
      have hstride := toNat_toUInt64 hstrides.1
      rw [List.zip_cons_cons, List.map_cons, List.map_cons, List.sum_cons, List.map_cons,
        List.map_cons, Strided.reach_cons, Nat.cast_add, Nat.cast_mul, hdimension, hstride, hpred,
        ih hshape.2 hstrides.2]

/-! #### The checks -/

/-- When the native worker knows a dtype. -/
theorem dtypeInfo_ok_iff {dtype : UInt32} {element : ElementType} {size : UInt64} :
    dtypeInfo dtype = .ok (element, size) ↔
      ∃ itemSize : ℕ+, elementOf dtype = some (element, itemSize) ∧ size.toNat = itemSize := by
  have hsize : ∀ {n : ℕ+} {k : UInt64}, k.toNat = n → (k = size ↔ size.toNat = n) := by
    intro n k hk
    rw [← hk, UInt64.toNat_inj, eq_comm]
  unfold dtypeInfo elementOf
  split_ifs
  · simp [hsize (n := 4) (k := 4) rfl]
  · simp [hsize (n := 8) (k := 8) rfl]
  · simp [hsize (n := 8) (k := 8) rfl]
  · simp [hsize (n := 1) (k := 1) rfl]
  · simp

/-- When the mapping of the native worker is the one that the call asks for. -/
theorem checkIdentity_ok_iff {spec : MappingSpec} {call : Call}
    (hgeneration : call.descriptor.bufferGeneration.toNat < 2 ^ 32) :
    checkIdentity spec (ringDescriptor call.descriptor) call.invocationId call.requireWritable =
      .ok () ↔ Identified spec call := by
  have hcast : call.descriptor.bufferGeneration.toUInt32.toNat =
      call.descriptor.bufferGeneration.toNat := by
    rw [UInt64.toNat_toUInt32, Nat.mod_eq_of_lt hgeneration]
  simp only [checkIdentity, ringDescriptor, Result.check_bind_ok_iff, raiseIf_ok_iff, not_and,
    not_not, ne_eq, ← UInt32.toNat_inj, hcast, Bool.not_eq_true, Bool.not_eq_false]
  constructor
  · rintro ⟨hgeneration, hallocation, hwritable, hinvocation⟩
    exact ⟨hgeneration, hallocation, hwritable, hinvocation⟩
  · intro h
    exact ⟨h.generation, h.allocation, h.writable, h.invocation⟩

/-- A positive dimension passes, with a stride that is not negative and aligned. -/
theorem checkAxis_ok_iff {size : UInt64} {axis result : Int64 × Int64} (h : 0 < axis.1.toInt) :
    checkAxis size (axis.1.toUInt64, axis.2) = .ok result ↔
      (0 ≤ axis.2.toInt ∧ (size.toNat : Int) ∣ axis.2.toInt) ∧ axis = result := by
  have hdimension := @toNat_toUInt64 axis.1 (by omega)
  have hlt := axis.1.toInt_lt
  have hpositive : ¬ (axis.1.toUInt64 = 0 ∨ axis.1.toUInt64 > Int64.maxValue.toUInt64) := by
    rw [← UInt64.toNat_inj, gt_iff_lt, UInt64.lt_iff_toNat_lt]
    show ¬ (axis.1.toUInt64.toNat = 0 ∨ 2 ^ 63 - 1 < axis.1.toUInt64.toNat)
    omega
  have hstride : ¬ (axis.2 < 0 ∨ axis.2.toUInt64 % size ≠ 0) ↔
      0 ≤ axis.2.toInt ∧ (size.toNat : Int) ∣ axis.2.toInt := by
    rw [not_or, not_not, Int64.lt_iff_toInt_lt, Int64.toInt_zero, not_lt]
    refine and_congr_right fun hnonneg => ?_
    rw [mod_eq_zero_iff, ← toNat_toUInt64 hnonneg, Int.natCast_dvd_natCast]
  rw [checkAxis, Result.check_bind_ok_iff, Result.check_bind_ok_iff, raiseIf_ok_iff,
    raiseIf_ok_iff, hstride]
  show _ ∧ _ ∧ Except.ok (axis.1.toUInt64.toInt64, axis.2) = _ ↔ _
  rw [Int64.toInt64_toUInt64, Except.ok.injEq]
  constructor
  · intro ⟨_, haligned, hresult⟩
    exact ⟨haligned, hresult⟩
  · intro ⟨haligned, hresult⟩
    exact ⟨hpositive, haligned, hresult⟩

/-- When the loop over the axes accepts them. -/
theorem checkAxes_ok_iff {size : UInt64} {axes results : List (Int64 × Int64)}
    (h : ∀ axis ∈ axes, 0 < axis.1.toInt) :
    (axes.map fun axis => (axis.1.toUInt64, axis.2)).mapM (checkAxis size) = .ok results ↔
      (∀ axis ∈ axes, 0 ≤ axis.2.toInt ∧ (size.toNat : Int) ∣ axis.2.toInt) ∧ axes = results := by
  rw [Result.mapM_ok_iff, List.forall₂_map_left_iff]
  induction axes generalizing results with
  | nil => simp [eq_comm]
  | cons axis axes ih =>
    rw [List.forall_mem_cons] at h
    rw [List.forall₂_cons_left_iff, List.forall_mem_cons]
    constructor
    · intro ⟨result, rest, hresult, hrest, heq⟩
      obtain ⟨haxis, rfl⟩ := (checkAxis_ok_iff h.1).mp hresult
      obtain ⟨haxes, rfl⟩ := (ih h.2).mp hrest
      exact ⟨⟨haxis, haxes⟩, heq.symm⟩
    · intro ⟨⟨haxis, haxes⟩, heq⟩
      exact ⟨axis, axes, (checkAxis_ok_iff h.1).mpr ⟨haxis, rfl⟩, (ih h.2).mpr ⟨haxes, rfl⟩,
        heq.symm⟩

/-- The key of a descriptor. -/
def keyOf (source : RingTensor) : ViewKey where
  allocationId := source.allocationId
  offset := source.byteOffset
  byteLength := source.byteLength
  dtype := source.dtype
  shape := source.shape
  strides := source.strides

/-- When a call has a key in the native worker, and which. -/
theorem viewKey_ok_iff {spec : MappingSpec} {call : Call} {key : ViewKey}
    (hgeneration : call.descriptor.bufferGeneration.toNat < 2 ^ 32)
    (hshape : ∀ dimension ∈ call.descriptor.shape, 0 < dimension.toInt) :
    viewKey (ringDescriptor call.descriptor) call.invocationId call.requireWritable spec =
        .ok key ↔
      Identified spec call ∧ (∃ element itemSize,
        elementOf call.descriptor.dtype = some (element, itemSize) ∧
        call.descriptor.shape ≠ [] ∧
        ∀ stride ∈ call.descriptor.strides, 0 ≤ stride.toInt ∧
          ((itemSize : Nat) : Int) ∣ stride.toInt) ∧
        keyOf call.descriptor = key := by
  have hrank := call.descriptor.strides_rank
  have hle := call.descriptor.rank_le
  have hpositive : ∀ axis ∈ call.descriptor.shape.zip call.descriptor.strides,
      0 < axis.1.toInt := fun axis hmem => hshape axis.1 (List.of_mem_zip hmem).1
  have hzip : (ringDescriptor call.descriptor).shape.zip (ringDescriptor call.descriptor).strides =
      (call.descriptor.shape.zip call.descriptor.strides).map
        fun axis => (axis.1.toUInt64, axis.2) := by
    show (call.descriptor.shape.map Int64.toUInt64).zip call.descriptor.strides = _
    rw [List.zip_map_left]
    rfl
  have hstrides {size : Nat} : (∀ axis ∈ call.descriptor.shape.zip call.descriptor.strides,
      0 ≤ axis.2.toInt ∧ (size : Int) ∣ axis.2.toInt) ↔
        ∀ stride ∈ call.descriptor.strides, 0 ≤ stride.toInt ∧ (size : Int) ∣ stride.toInt := by
    conv_rhs => rw [← List.map_snd_zip hrank.le]
    rw [List.forall_mem_map]
  have hranks : ¬ ((ringDescriptor call.descriptor).shape.length = 0 ∨
      (ringDescriptor call.descriptor).shape.length ≠
        (ringDescriptor call.descriptor).strides.length ∨
      (ringDescriptor call.descriptor).shape.length > 16) ↔ call.descriptor.shape ≠ [] := by
    show ¬ ((call.descriptor.shape.map Int64.toUInt64).length = 0 ∨
      (call.descriptor.shape.map Int64.toUInt64).length ≠ call.descriptor.strides.length ∨
      (call.descriptor.shape.map Int64.toUInt64).length > 16) ↔ _
    rw [List.length_map, ← List.length_pos_iff]
    omega
  rw [viewKey, Result.check_bind_ok_iff, checkIdentity_ok_iff hgeneration, Result.bind_ok_iff]
  refine and_congr_right fun _ => ?_
  constructor
  · intro ⟨(element, size), hdtype, h⟩
    obtain ⟨itemSize, helement, hsize⟩ := dtypeInfo_ok_iff.mp hdtype
    rw [Result.check_bind_ok_iff, raiseIf_ok_iff, hranks, Result.bind_ok_iff] at h
    obtain ⟨hne, axes, haxes, hkey⟩ := h
    rw [hzip, checkAxes_ok_iff hpositive, hstrides, hsize] at haxes
    obtain ⟨haligned, rfl⟩ := haxes
    refine ⟨⟨element, itemSize, helement, hne, haligned⟩, ?_⟩
    have hkey := Except.ok.inj hkey
    rw [List.map_fst_zip (by omega), List.map_snd_zip (by omega)] at hkey
    exact hkey
  · intro ⟨⟨element, itemSize, helement, hne, haligned⟩, hkey⟩
    obtain ⟨size, hsize⟩ := Checked.exists_eq_toNat (n := itemSize)
      (lt_of_le_of_lt (elementOf_le helement) (by decide))
    refine ⟨(element, size), dtypeInfo_ok_iff.mpr ⟨itemSize, helement, hsize⟩, ?_⟩
    rw [Result.check_bind_ok_iff, raiseIf_ok_iff, hranks, Result.bind_ok_iff]
    refine ⟨hne, call.descriptor.shape.zip call.descriptor.strides, ?_, ?_⟩
    · rw [hzip, checkAxes_ok_iff hpositive, hstrides, hsize]
      exact ⟨haligned, rfl⟩
    · rw [← hkey, List.map_fst_zip (by omega), List.map_snd_zip (by omega)]
      rfl

/-- The sum that the loop over the dimensions computes is the exact one, when it fits. -/
theorem requiredBytes_ok_iff {size : UInt64} {itemSize : ℕ+} {shape strides : List Int64}
    (hsize : size.toNat = itemSize) (hshape : ∀ dimension ∈ shape, 0 < dimension.toInt)
    (hstrides : ∀ stride ∈ strides, 0 ≤ stride.toInt) {bytes : UInt64} :
    requiredBytes size shape strides = .ok bytes ↔
      (bytes.toNat : Int) = required itemSize (shape.map Int64.toInt) (strides.map Int64.toInt) := by
  rw [requiredBytes, Checked.addProducts_ok_iff, required,
    ← sum_products_eq_reach hshape hstrides, hsize, ← Nat.cast_add, Nat.cast_inj]

/-- When a view is made in the native worker, and which. -/
theorem construct_ok_iff {spec : MappingSpec} {source : RingTensor} {view : View}
    (hshape : ∀ dimension ∈ source.shape, 0 < dimension.toInt)
    (hstrides : ∀ stride ∈ source.strides, 0 ≤ stride.toInt) :
    construct spec (keyOf source) = .ok view ↔ ∃ element itemSize,
      elementOf source.dtype = some (element, itemSize) ∧
      (itemSize : Nat) ∣ source.byteOffset.toNat ∧ 0 < source.byteLength.toNat ∧
      source.byteOffset.toNat + source.byteLength.toNat ≤ spec.byteLength.toNat ∧
      required itemSize (source.shape.map Int64.toInt) (source.strides.map Int64.toInt) ≤
        source.byteLength.toNat ∧
      viewOf source element itemSize = view := by
  have hlength := spec.byteLength.toNat_lt
  have hview {element : ElementType} {itemSize : ℕ+} {size : UInt64}
      (helement : elementOf source.dtype = some (element, itemSize))
      (hsize : size.toNat = itemSize) :
      ({ element := element
         shape := source.shape.map Int64.toInt
         strides := source.strides.map fun stride => (stride / size.toInt64).toInt
         start := source.byteOffset.toNat } : View) = viewOf source element itemSize := by
    have hle := elementOf_le helement
    rw [viewOf, View.mk.injEq]
    refine ⟨rfl, rfl, ?_, rfl⟩
    apply List.map_congr_left
    intro stride hmem
    rw [toInt_elementStride (hstrides stride hmem) (by omega), hsize]
  rw [construct, Result.bind_ok_iff]
  constructor
  · intro ⟨(element, size), hdtype, h⟩
    obtain ⟨itemSize, helement, hsize⟩ := dtypeInfo_ok_iff.mp hdtype
    rw [Result.check_bind_ok_iff, raiseIf_ok_iff, not_ne_iff, mod_eq_zero_iff,
      Result.check_bind_ok_iff, raiseIf_ok_iff, ne_zero_iff] at h
    obtain ⟨haligned, hpositive, h⟩ := h
    obtain ⟨stop, hstop, h⟩ := Result.bind_ok_iff.mp h
    rw [Result.check_bind_ok_iff, raiseIf_ok_iff, not_gt_iff, Result.bind_ok_iff] at h
    obtain ⟨hend, bytes, hbytes, h⟩ := h
    rw [Result.check_bind_ok_iff, raiseIf_ok_iff, not_gt_iff] at h
    obtain ⟨hroom, hresult⟩ := h
    rw [checkedAdd, Checked.add_ok_iff] at hstop
    have hrequired := (requiredBytes_ok_iff hsize hshape hstrides).mp hbytes
    refine ⟨element, itemSize, helement, hsize ▸ haligned, hpositive, hstop ▸ hend, ?_, ?_⟩
    · rw [← hrequired]
      exact Int.ofNat_le.mpr hroom
    · rw [← hview helement hsize]
      exact Except.ok.inj hresult
  · intro ⟨element, itemSize, helement, haligned, hpositive, hend, hroom, hresult⟩
    -- No intermediate value leaves the range of 64 bits, because the bounds are in it.
    obtain ⟨size, hsize⟩ := Checked.exists_eq_toNat (n := itemSize)
      (lt_of_le_of_lt (elementOf_le helement) (by decide))
    obtain ⟨stop, hstop⟩ := Checked.exists_eq_toNat
      (n := source.byteOffset.toNat + source.byteLength.toNat) (by omega)
    have hnonneg : 0 ≤ required itemSize (source.shape.map Int64.toInt)
        (source.strides.map Int64.toInt) := by
      rw [required, ← sum_products_eq_reach hshape hstrides]
      omega
    obtain ⟨bytes, hbytes⟩ := Checked.exists_eq_toNat (n := (required itemSize
      (source.shape.map Int64.toInt) (source.strides.map Int64.toInt)).toNat) (by omega)
    have hrequired : (bytes.toNat : Int) = required itemSize (source.shape.map Int64.toInt)
        (source.strides.map Int64.toInt) := by
      rw [hbytes, Int.toNat_of_nonneg hnonneg]
    refine ⟨(element, size), dtypeInfo_ok_iff.mpr ⟨itemSize, helement, hsize⟩, ?_⟩
    rw [Result.check_bind_ok_iff, raiseIf_ok_iff, not_ne_iff, mod_eq_zero_iff,
      Result.check_bind_ok_iff, raiseIf_ok_iff, ne_zero_iff]
    refine ⟨hsize ▸ haligned, hpositive, ?_⟩
    refine Result.bind_ok_iff.mpr ⟨stop, Checked.add_ok_iff.mpr hstop, ?_⟩
    rw [Result.check_bind_ok_iff, raiseIf_ok_iff, not_gt_iff, Result.bind_ok_iff]
    refine ⟨hstop ▸ hend, bytes, (requiredBytes_ok_iff hsize hshape hstrides).mpr hrequired, ?_⟩
    rw [Result.check_bind_ok_iff, raiseIf_ok_iff, not_gt_iff]
    refine ⟨Int.ofNat_le.mp (hrequired ▸ hroom), ?_⟩
    rw [← hresult, ← hview helement hsize]
    rfl

/-- The native worker accepts exactly what is admissible. -/
theorem resolve_ok_iff {specs : UInt64 → Option MappingSpec} {call : Call} {view : View}
    (hgeneration : call.descriptor.bufferGeneration.toNat < 2 ^ 32) :
    resolve specs call = .ok view ↔ ∃ spec element itemSize,
      specs call.descriptor.bufferId = some spec ∧ Admissible spec call element itemSize ∧
        viewOf call.descriptor element itemSize = view := by
  have hrank := call.descriptor.strides_rank
  have hpositive : (∀ dimension ∈ call.descriptor.shape, dimension > 0) ↔
      ∀ dimension ∈ call.descriptor.shape, 0 < dimension.toInt := by
    simp only [gt_iff_lt, Int64.lt_iff_toInt_lt, Int64.toInt_zero]
  constructor
  · intro h
    unfold resolve at h
    split at h
    · next hshape =>
      rw [hpositive] at hshape
      obtain ⟨spec, hspec, key, hkey, h⟩ := Memo.direct_ok_iff.mp h
      obtain ⟨hidentified, ⟨element, itemSize, helement, hne, hstrides⟩, rfl⟩ :=
        (viewKey_ok_iff hgeneration hshape).mp hkey
      obtain ⟨_, _, helement', haligned, hlength, hend, hroom, hview⟩ :=
        (construct_ok_iff hshape fun stride hmem => (hstrides stride hmem).1).mp h
      cases helement.symm.trans helement'
      refine ⟨spec, element, itemSize, hspec, ⟨hidentified, helement, ?_⟩, hview⟩
      refine validateView_iff.mpr ⟨?_, ⟨Int.natCast_nonneg _, by omega⟩, hroom⟩
      exact {
        rank := ⟨by rw [List.length_map]; exact List.length_pos_iff.mpr hne,
          by rw [List.length_map]; exact call.descriptor.rank_le⟩
        strides_rank := by rw [List.length_map, List.length_map, hrank]
        positive := List.forall_mem_map.mpr hshape
        aligned := Int.natCast_dvd_natCast.mpr haligned
        length_pos := Int.natCast_pos.mpr hlength
        strides_nonneg := List.forall_mem_map.mpr fun stride hmem => (hstrides stride hmem).1
        strides_aligned := List.forall_mem_map.mpr fun stride hmem => (hstrides stride hmem).2 }
    · cases h
  · intro ⟨spec, element, itemSize, hspec, h, hview⟩
    obtain ⟨hwell, ⟨_, hend⟩, hroom⟩ := validateView_iff.mp h.view
    have hshape := List.forall_mem_map.mp hwell.positive
    have hstrides := List.forall_mem_map.mp hwell.strides_nonneg
    have hne : call.descriptor.shape ≠ [] := by
      intro hnil
      have hrank := hwell.rank.1
      rw [hnil] at hrank
      exact absurd hrank (by decide)
    rw [resolve, if_pos (hpositive.mpr hshape)]
    refine Memo.direct_ok_iff.mpr ⟨spec, hspec, _, (viewKey_ok_iff hgeneration hshape).mpr
      ⟨h.identified, ⟨element, itemSize, h.dtype, hne, ?_⟩, rfl⟩, ?_⟩
    · intro stride hmem
      exact ⟨hstrides stride hmem, List.forall_mem_map.mp hwell.strides_aligned stride hmem⟩
    · exact (construct_ok_iff hshape hstrides).mpr ⟨element, itemSize, h.dtype,
        Int.natCast_dvd_natCast.mp hwell.aligned, Int.natCast_pos.mp hwell.length_pos,
        by omega, hroom, hview⟩

end Native

/-! ### Both -/

/-- Whatever the workers did before, the native worker accepts exactly the admissible descriptors.
The two workers give the same answer unless the descriptor is admissible and the mapping does not
have a whole number of its elements. -/
theorem tensor_agree_iff (specs : UInt64 → Option MappingSpec)
    (pythonCalls nativeCalls : List Call) (call : Call)
    (hgeneration : call.descriptor.bufferGeneration.toNat < 2 ^ 32) :
    ((∀ view, (Python.tensor (Python.after specs pythonCalls) call).1 = .ok view ↔
        (Native.tensor (Native.after specs nativeCalls) call).1 = .ok view) ↔
      WholeElements specs call) ∧
    ∀ view, (Native.tensor (Native.after specs nativeCalls) call).1 = .ok view ↔
      ∃ spec element itemSize, specs call.descriptor.bufferId = some spec ∧
        Admissible spec call element itemSize ∧
        viewOf call.descriptor element itemSize = view := by
  simp only [Python.tensor_after, Native.tensor_after, Python.resolve_ok_iff,
    Native.resolve_ok_iff hgeneration]
  refine ⟨?_, fun _ => trivial⟩
  constructor
  · intro h spec element itemSize hspec hadmissible
    obtain ⟨spec', element', itemSize', hspec', hadmissible', hwhole, _⟩ :=
      (h _).mpr ⟨spec, element, itemSize, hspec, hadmissible, rfl⟩
    cases hspec.symm.trans hspec'
    cases hadmissible.dtype.symm.trans hadmissible'.dtype
    exact hwhole
  · intro h view
    constructor
    · intro ⟨spec, element, itemSize, hspec, hadmissible, _, hview⟩
      exact ⟨spec, element, itemSize, hspec, hadmissible, hview⟩
    · intro ⟨spec, element, itemSize, hspec, hadmissible, hview⟩
      exact ⟨spec, element, itemSize, hspec, hadmissible,
        h spec element itemSize hspec hadmissible, hview⟩

/-- One mapping of this length, for the input of an invocation. -/
def oneMapping (byteLength : UInt64) : UInt64 → Option MappingSpec := fun bufferId =>
  if bufferId = 1 then
    some { generation := 1, allocationId := 7, byteLength, invocationId := 0, writable := false,
           arena := false }
  else none

/-- The first `float64` of a buffer. -/
def firstDouble : Call where
  descriptor :=
    { bufferId := 1, bufferGeneration := 1, allocationId := 7, byteOffset := 0, byteLength := 8,
      dtype := 9, shape := [1], strides := [8], strides_rank := rfl, rank_le := by decide }
  invocationId := 1
  requireWritable := false

/-- In a mapping of 16 bytes the workers make the view or neither does. -/
theorem tensor_agree_firstDouble :
    (Python.tensor (Python.after (oneMapping 16) []) firstDouble).1 =
        .ok (viewOf firstDouble.descriptor .float64 8) ↔
      (Native.tensor (Native.after (oneMapping 16) [firstDouble]) firstDouble).1 =
        .ok (viewOf firstDouble.descriptor .float64 8) := by
  apply (tensor_agree_iff (oneMapping 16) [] [firstDouble] firstDouble (by decide)).1.mpr
  intro spec element itemSize hspec hadmissible
  cases hspec
  cases hadmissible.dtype
  decide

/-- In a mapping of 12 bytes only the native worker makes it. -/
theorem tensor_disagree_firstDouble :
    ¬ ∀ (specs : UInt64 → Option MappingSpec) (pythonCalls nativeCalls : List Call) (call : Call),
      call.descriptor.bufferGeneration.toNat < 2 ^ 32 →
        ∀ view, (Python.tensor (Python.after specs pythonCalls) call).1 = .ok view ↔
          (Native.tensor (Native.after specs nativeCalls) call).1 = .ok view := by
  intro h
  have hadmissible : Admissible
      { generation := 1, allocationId := 7, byteLength := 12, invocationId := 0, writable := false,
        arena := false } firstDouble .float64 8 :=
    { identified := ⟨rfl, fun _ => rfl, nofun, nofun⟩
      dtype := rfl
      view := by decide }
  have hnative : (Native.tensor (Native.after (oneMapping 12) []) firstDouble).1 =
      .ok (viewOf firstDouble.descriptor .float64 8) := by
    rw [Native.tensor_after, Native.resolve_ok_iff (by decide)]
    exact ⟨_, _, _, rfl, hadmissible, rfl⟩
  have hpython := (h (oneMapping 12) [] [] firstDouble (by decide) _).mpr hnative
  rw [Python.tensor_after, Python.resolve_ok_iff] at hpython
  obtain ⟨spec, element, itemSize, hspec, hadmissible, hwhole, _⟩ := hpython
  cases hspec
  cases hadmissible.dtype
  exact absurd hwhole (by decide)

end Wmfs.Views
