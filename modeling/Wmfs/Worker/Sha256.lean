import Mathlib.Data.List.GetD
import Wmfs.Lib.Bytes
import Wmfs.Lib.Sha256

/-!
# `Wmfs.Worker.Sha256`: the hash function of the native worker

`sha256` of `src/reference_worker.cpp`, and the check of the runtime that compares its result with
that of `hashlib` (`_worker_connection` of `wmfs/transport/worker_process.py`).

* `padded_eq`: the padding loop stops, and leaves the message, `0x80`, zeros and the length.
* `scheduled_extend`: the array of words is the message schedule of the block.
* `variables_compress`: the loop over a block is the computation of the standard.
* `sha256_exact`: the result is the digest of FIPS 180-4.
-/

set_option autoImplicit false

namespace Wmfs.Worker.Native

open Wmfs.Lib
open Wmfs.Lib.Utf8 (Text)

/-! ### The function -/

/-- `constants`. -/
def constants : List UInt32 :=
  [0x428a2f98, 0x71374491, 0xb5c0fbcf, 0xe9b5dba5, 0x3956c25b, 0x59f111f1,
    0x923f82a4, 0xab1c5ed5, 0xd807aa98, 0x12835b01, 0x243185be, 0x550c7dc3,
    0x72be5d74, 0x80deb1fe, 0x9bdc06a7, 0xc19bf174, 0xe49b69c1, 0xefbe4786,
    0x0fc19dc6, 0x240ca1cc, 0x2de92c6f, 0x4a7484aa, 0x5cb0a9dc, 0x76f988da,
    0x983e5152, 0xa831c66d, 0xb00327c8, 0xbf597fc7, 0xc6e00bf3, 0xd5a79147,
    0x06ca6351, 0x14292967, 0x27b70a85, 0x2e1b2138, 0x4d2c6dfc, 0x53380d13,
    0x650a7354, 0x766a0abb, 0x81c2c92e, 0x92722c85, 0xa2bfe8a1, 0xa81a664b,
    0xc24b8b70, 0xc76c51a3, 0xd192e819, 0xd6990624, 0xf40e3585, 0x106aa070,
    0x19a4c116, 0x1e376c08, 0x2748774c, 0x34b0bcb5, 0x391c0cb3, 0x4ed8aa4a,
    0x5b9cca4f, 0x682e6ff3, 0x748f82ee, 0x78a5636f, 0x84c87814, 0x8cc70208,
    0x90befffa, 0xa4506ceb, 0xbef9a3f7, 0xc67178f2]

/-- The variables `a` to `h`, and the eight words of `hash`. -/
structure Registers where
  a : UInt32
  b : UInt32
  c : UInt32
  d : UInt32
  e : UInt32
  f : UInt32
  g : UInt32
  h : UInt32
  deriving DecidableEq, Repr

/-- `hash` at its start. -/
def initialHash : Registers :=
  ⟨0x6a09e667, 0xbb67ae85, 0x3c6ef372, 0xa54ff53a, 0x510e527f, 0x9b05688c, 0x1f83d9ab, 0x5be0cd19⟩

/-- `while (bytes.size() % 64 != 56) bytes.push_back(0)`. -/
def padZeros (bytes : List UInt8) : List UInt8 :=
  if bytes.length % 64 ≠ 56 then padZeros (bytes ++ [0]) else bytes
termination_by (120 - bytes.length % 64) % 64
decreasing_by
  rw [List.length_append, List.length_singleton]
  omega

/-- `bytes` behind the loops that extend it. -/
def padded (value : List UInt8) : List UInt8 :=
  let bitLength : UInt64 := .ofNat value.length * 8
  padZeros (value ++ [0x80]) ++
    [56, 48, 40, 32, 24, 16, 8, 0].map fun shift : UInt64 => (bitLength >>> shift).toUInt8

/-- `rotate`. -/
def rotate (input bits : UInt32) : UInt32 := input >>> bits ||| input <<< (32 - bits)

/-- The word of four bytes. -/
def loadWord (bytes : List UInt8) (offset : Nat) : UInt32 :=
  (bytes.getD offset 0).toUInt32 <<< 24 ||| (bytes.getD (offset + 1) 0).toUInt32 <<< 16 |||
    (bytes.getD (offset + 2) 0).toUInt32 <<< 8 ||| (bytes.getD (offset + 3) 0).toUInt32

/-- The word that the second loop writes. -/
def extendWord (words : List UInt32) (index : Nat) : UInt32 :=
  let first := rotate (words.getD (index - 15) 0) 7 ^^^ rotate (words.getD (index - 15) 0) 18 ^^^
    words.getD (index - 15) 0 >>> 3
  let second := rotate (words.getD (index - 2) 0) 17 ^^^ rotate (words.getD (index - 2) 0) 19 ^^^
    words.getD (index - 2) 0 >>> 10
  words.getD (index - 16) 0 + first + words.getD (index - 7) 0 + second

/-- `words` of the block at the offset. -/
def blockWords (bytes : List UInt8) (offset : Nat) : List UInt32 :=
  let loaded := (List.range 16).foldl (fun words index =>
    words.set index (loadWord bytes (offset + index * 4))) (List.replicate 64 0)
  (List.range' 16 48).foldl (fun words index => words.set index (extendWord words index)) loaded

/-- An iteration of the loop over the words. -/
def Registers.step (r : Registers) (constant word : UInt32) : Registers :=
  let upper := rotate r.e 6 ^^^ rotate r.e 11 ^^^ rotate r.e 25
  let choice := (r.e &&& r.f) ^^^ (~~~r.e &&& r.g)
  let temporary1 := r.h + upper + choice + constant + word
  let lower := rotate r.a 2 ^^^ rotate r.a 13 ^^^ rotate r.a 22
  let majority := (r.a &&& r.b) ^^^ (r.a &&& r.c) ^^^ (r.b &&& r.c)
  let temporary2 := lower + majority
  { h := r.g, g := r.f, f := r.e, e := r.d + temporary1, d := r.c, c := r.b, b := r.a
    a := temporary1 + temporary2 }

/-- `hash[index] += state[index]` for every index. -/
def Registers.add (hash state : Registers) : Registers where
  a := hash.a + state.a
  b := hash.b + state.b
  c := hash.c + state.c
  d := hash.d + state.d
  e := hash.e + state.e
  f := hash.f + state.f
  g := hash.g + state.g
  h := hash.h + state.h

/-- An iteration of the loop over the blocks. -/
def compress (hash : Registers) (bytes : List UInt8) (offset : Nat) : Registers :=
  let words := blockWords bytes offset
  hash.add ((List.range 64).foldl (fun r index =>
    r.step (constants.getD index 0) (words.getD index 0)) hash)

/-- `hexadecimal`. -/
def hexadecimal : Text := Utf8.ofString "0123456789abcdef"

/-- The two characters of a byte of a word. -/
def hexPair (word : UInt32) (byte : UInt32) : Text :=
  let valueByte := (word >>> ((3 - byte) * 8)).toUInt8
  [hexadecimal.getD (valueByte >>> 4).toNat 0, hexadecimal.getD (valueByte &&& 15).toNat 0]

/-- `result`, which is written from its start to its end. -/
def hexResult (hash : Registers) : Text :=
  [hash.a, hash.b, hash.c, hash.d, hash.e, hash.f, hash.g, hash.h].flatMap fun word =>
    [0, 1, 2, 3].flatMap (hexPair word)

/-- `sha256`. The loop over the blocks ends at the first offset that is not below the size. -/
def sha256 (value : List UInt8) : Text :=
  let bytes := padded value
  hexResult ((List.range ((bytes.length + 63) / 64)).foldl (fun hash block =>
    compress hash bytes (64 * block)) initialHash)

/-- The check of `configurationDigest` in `_worker_connection`. The key may be missing. -/
def digestConfirmed (configurationDigest : Option Text) (config : List UInt8) : Bool :=
  ! (configurationDigest.isSome && configurationDigest != some (Sha256.hexdigest config))

/-! ### Padding -/

/-- The loop adds the zeros of the padding. -/
theorem padZeros_eq (bytes : List UInt8) :
    padZeros bytes = bytes ++ zeros ((120 - bytes.length % 64) % 64) := by
  induction bytes using padZeros.induct with
  | case1 bytes hmore ih =>
    have hmod : bytes.length % 64 < 64 := Nat.mod_lt _ (by omega)
    have hcount : (120 - bytes.length % 64) % 64 = 1 + (120 - (bytes.length + 1) % 64) % 64 := by
      omega
    rw [padZeros, if_pos hmore, ih, List.length_append, List.length_singleton, hcount,
      List.append_assoc, ← zeros_append_zeros]
    rfl
  | case2 bytes hdone =>
    have hdone : bytes.length % 64 = 56 := not_not.mp hdone
    rw [padZeros, if_neg (not_not.mpr hdone), hdone]
    exact (List.append_nil bytes).symm

/-- The eight bytes of a number, the highest first. -/
def bigEndian64 (n : Nat) : List UInt8 :=
  [56, 48, 40, 32, 24, 16, 8, 0].map fun shift => .ofNat (n / 2 ^ shift)

/-- The zeros that the loop appends. -/
def zeroCount (length : Nat) : Nat := (120 - (length + 1) % 64) % 64

/-- What the loops leave behind the message. -/
theorem padded_eq {value : List UInt8} (h : value.length < 2 ^ 61) :
    padded value = value ++ 0x80 :: zeros (zeroCount value.length) ++
      bigEndian64 (8 * value.length) := by
  have hlength : (UInt64.ofNat value.length * 8).toNat = 8 * value.length := by
    rw [UInt64.toNat_mul, UInt64.toNat_ofNat_of_lt' (by show value.length < 2 ^ 64; omega)]
    show value.length * 8 % 2 ^ 64 = _
    omega
  have hbyte : ∀ shift : UInt64, shift.toNat < 64 →
      ((UInt64.ofNat value.length * 8) >>> shift).toUInt8 =
        UInt8.ofNat (8 * value.length / 2 ^ shift.toNat) := by
    intro shift hshift
    apply UInt8.toNat_inj.mp
    rw [UInt64.toNat_toUInt8, UInt64.toNat_shiftRight, hlength, Nat.mod_eq_of_lt hshift,
      Nat.shiftRight_eq_div_pow, UInt8.toNat_ofNat']
  have hbytes : ([56, 48, 40, 32, 24, 16, 8, 0].map fun shift : UInt64 =>
      ((UInt64.ofNat value.length * 8) >>> shift).toUInt8) = bigEndian64 (8 * value.length) := by
    simp only [List.map_cons, List.map_nil, bigEndian64]
    rw [hbyte 56 (by decide), hbyte 48 (by decide), hbyte 40 (by decide), hbyte 32 (by decide),
      hbyte 24 (by decide), hbyte 16 (by decide), hbyte 8 (by decide), hbyte 0 (by decide)]
    rfl
  show padZeros (value ++ [0x80]) ++ _ = _
  rw [padZeros_eq, hbytes, List.length_append, List.length_singleton, zeroCount, List.append_assoc]
  simp

/-- The bits of what the loops leave are the padded message of the standard. -/
theorem bitsOf_padded {value : List UInt8} (h : value.length < 2 ^ 61) :
    Sha256.bitsOf (padded value) = Sha256.pad (Sha256.bitsOf value) := by
  have hzeros : ∀ n, Sha256.bitsOf (zeros n) = List.replicate (8 * n) false := by
    intro n
    induction n with
    | zero => rfl
    | succ n ih =>
      have hsplit : zeros (n + 1) = 0 :: zeros n := rfl
      rw [hsplit, Sha256.bitsOf_cons, ih, Nat.mul_succ, Nat.add_comm, List.replicate_add]
      rfl
  have hone : Sha256.bits 8 (0x80 : UInt8).toNat = true :: List.replicate 7 false := by decide
  have hcount : Sha256.zeroBits (8 * value.length) = 7 + 8 * zeroCount value.length := by
    rw [Sha256.zeroBits, zeroCount]
    omega
  have hlength : Sha256.bitsOf (bigEndian64 (8 * value.length)) =
      Sha256.bits 64 (8 * value.length) := by
    have hbytes : bigEndian64 (8 * value.length) = (List.range 8).reverse.map fun i =>
        .ofNat ((8 * value.length) >>> (8 * i)) := by
      simp only [Nat.shiftRight_eq_div_pow]
      rfl
    rw [hbytes, Sha256.bitsOf_bigEndian]
  rw [padded_eq h, Sha256.pad, Sha256.length_bitsOf, hcount, Sha256.bitsOf_append, hlength,
    Sha256.bitsOf_append, Sha256.bitsOf_cons, hzeros, hone, List.replicate_add]
  simp

/-! ### Words -/

/-- A rotation by less than 32 bits. -/
theorem toBitVec_rotate (input bits : UInt32) (h : 0 < bits.toNat ∧ bits.toNat < 32) :
    (rotate input bits).toBitVec = input.toBitVec.rotateRight bits.toNat := by
  have hsub : (32 - bits).toNat = 32 - bits.toNat := by
    rw [UInt32.toNat_sub_of_le]
    · rfl
    · exact UInt32.le_iff_toNat_le.mpr h.2.le
  apply BitVec.eq_of_toNat_eq
  rw [UInt32.toNat_toBitVec, rotate, UInt32.toNat_or, UInt32.toNat_shiftRight,
    UInt32.toNat_shiftLeft, hsub, BitVec.toNat_rotateRight, UInt32.toNat_toBitVec,
    Nat.mod_eq_of_lt h.2, Nat.mod_eq_of_lt (show 32 - bits.toNat < 32 by omega)]

/-- The words of the standard's functions. -/
theorem toBitVec_rotate_word (input : UInt32) :
    (rotate input 7 ^^^ rotate input 18 ^^^ input >>> 3).toBitVec =
        Sha256.smallSigma0 input.toBitVec ∧
      (rotate input 17 ^^^ rotate input 19 ^^^ input >>> 10).toBitVec =
        Sha256.smallSigma1 input.toBitVec ∧
      (rotate input 2 ^^^ rotate input 13 ^^^ rotate input 22).toBitVec =
        Sha256.bigSigma0 input.toBitVec ∧
      (rotate input 6 ^^^ rotate input 11 ^^^ rotate input 25).toBitVec =
        Sha256.bigSigma1 input.toBitVec := by
  simp only [UInt32.toBitVec_xor]
  rw [toBitVec_rotate input 7 (by decide), toBitVec_rotate input 18 (by decide),
    toBitVec_rotate input 17 (by decide), toBitVec_rotate input 19 (by decide),
    toBitVec_rotate input 2 (by decide), toBitVec_rotate input 13 (by decide),
    toBitVec_rotate input 22 (by decide), toBitVec_rotate input 6 (by decide),
    toBitVec_rotate input 11 (by decide), toBitVec_rotate input 25 (by decide)]
  exact ⟨rfl, rfl, rfl, rfl⟩

/-- A number without low bits is joined with low bits by addition. -/
theorem or_eq_add {a b : Nat} (i : Nat) (hb : b < 2 ^ i) (ha : a % 2 ^ i = 0) :
    a ||| b = a + b := by
  obtain ⟨high, rfl⟩ := Nat.dvd_of_mod_eq_zero ha
  exact (Nat.two_pow_add_eq_or_of_lt hb high).symm

/-- Four bytes are a word of the standard. -/
theorem toBitVec_loadWord {bytes : List UInt8} {offset : Nat} (h : offset + 4 ≤ bytes.length) :
    (loadWord bytes offset).toBitVec =
      Sha256.wordOf (((Sha256.bitsOf bytes).drop (8 * offset)).take 32) := by
  have hfour : (bytes.drop offset).take 4 = [bytes.getD offset 0, bytes.getD (offset + 1) 0,
      bytes.getD (offset + 2) 0, bytes.getD (offset + 3) 0] := by
    rw [List.drop_eq_getElem_cons (by omega), List.drop_eq_getElem_cons (by omega),
      List.drop_eq_getElem_cons (by omega), List.drop_eq_getElem_cons (by omega),
      List.getD_eq_getElem _ _ (by omega), List.getD_eq_getElem _ _ (by omega),
      List.getD_eq_getElem _ _ (by omega), List.getD_eq_getElem _ _ (by omega)]
    rfl
  have hword := Sha256.wordOf_bitsOf (bytes.getD offset 0) (bytes.getD (offset + 1) 0)
    (bytes.getD (offset + 2) 0) (bytes.getD (offset + 3) 0)
  rw [← hfour, Sha256.bitsOf_take, Sha256.bitsOf_drop] at hword
  rw [hword, loadWord]
  have h0 := (bytes.getD offset 0).toNat_lt
  have h1 := (bytes.getD (offset + 1) 0).toNat_lt
  have h2 := (bytes.getD (offset + 2) 0).toNat_lt
  have h3 := (bytes.getD (offset + 3) 0).toNat_lt
  apply BitVec.eq_of_toNat_eq
  have hshift : ∀ (byte : UInt8) (bits : UInt32), bits.toNat ≤ 24 →
      (byte.toUInt32 <<< bits).toNat = byte.toNat * 2 ^ bits.toNat := by
    intro byte bits hbits
    have hpow : 2 ^ bits.toNat ≤ 2 ^ 24 := Nat.pow_le_pow_right (by omega) hbits
    have hbyte : byte.toNat ≤ 255 := Nat.le_of_lt_succ byte.toNat_lt
    have hproduct := Nat.mul_le_mul hbyte hpow
    rw [UInt32.toNat_shiftLeft, UInt8.toNat_toUInt32,
      Nat.mod_eq_of_lt (show bits.toNat < 32 by omega), Nat.shiftLeft_eq,
      Nat.mod_eq_of_lt (by omega)]
  rw [BitVec.toNat_ofNat, UInt32.toNat_toBitVec, UInt32.toNat_or, UInt32.toNat_or, UInt32.toNat_or,
    hshift _ 24 (by decide), hshift _ 16 (by decide), hshift _ 8 (by decide), UInt8.toNat_toUInt32]
  generalize (bytes.getD offset 0).toNat = n0 at h0
  generalize (bytes.getD (offset + 1) 0).toNat = n1 at h1
  generalize (bytes.getD (offset + 2) 0).toNat = n2 at h2
  generalize (bytes.getD (offset + 3) 0).toNat = n3 at h3
  have htwo : n0 * 2 ^ 24 ||| n1 * 2 ^ 16 = n0 * 2 ^ 24 + n1 * 2 ^ 16 :=
    or_eq_add 24 (by omega) (by omega)
  have hthree : n0 * 2 ^ 24 + n1 * 2 ^ 16 ||| n2 * 2 ^ 8 =
      n0 * 2 ^ 24 + n1 * 2 ^ 16 + n2 * 2 ^ 8 := or_eq_add 16 (by omega) (by omega)
  have hall : n0 * 2 ^ 24 + n1 * 2 ^ 16 + n2 * 2 ^ 8 ||| n3 =
      n0 * 2 ^ 24 + n1 * 2 ^ 16 + n2 * 2 ^ 8 + n3 := or_eq_add 8 (by omega) (by omega)
  show n0 * 2 ^ 24 ||| n1 * 2 ^ 16 ||| n2 * 2 ^ 8 ||| n3 = _
  rw [htwo, hthree, hall]
  omega

/-! ### The message schedule -/

/-- The array holds the first words of the schedule. -/
def Scheduled (message : Nat → Sha256.Word) (count : Nat) (words : List UInt32) : Prop :=
  words.length = 64 ∧ ∀ t < count, (words.getD t 0).toBitVec = Sha256.schedule message t

section
variable {message : Nat → Sha256.Word}

/-- An iteration writes the next word. -/
theorem Scheduled.set {count : Nat} {words : List UInt32} {word : UInt32}
    (h : Scheduled message count words) (hcount : count < 64)
    (hword : word.toBitVec = Sha256.schedule message count) :
    Scheduled message (count + 1) (words.set count word) := by
  obtain ⟨hlength, hwords⟩ := h
  constructor
  · rw [List.length_set, hlength]
  · intro t ht
    rcases Nat.lt_succ_iff_lt_or_eq.mp ht with hlt | rfl
    · rw [List.getD_eq_getElem?_getD, List.getElem?_set_ne (by omega),
        ← List.getD_eq_getElem?_getD]
      exact hwords t hlt
    · rw [List.getD_eq_getElem?_getD, List.getElem?_set_self (by omega)]
      exact hword

/-- The word that the second loop writes is that of the standard. -/
theorem toBitVec_extendWord {n : Nat} {words : List UInt32}
    (h : Scheduled message (16 + n) words) :
    (extendWord words (16 + n)).toBitVec = Sha256.schedule message (16 + n) := by
  have hword : ∀ t < 16 + n, (words.getD t 0).toBitVec = Sha256.schedule message t := h.2
  rw [extendWord, show 16 + n - 2 = 14 + n by omega, show 16 + n - 7 = 9 + n by omega,
    show 16 + n - 15 = 1 + n by omega, show 16 + n - 16 = n by omega]
  rw [UInt32.toBitVec_add, UInt32.toBitVec_add, UInt32.toBitVec_add,
    (toBitVec_rotate_word _).1, (toBitVec_rotate_word _).2.1, hword n (by omega),
    hword (1 + n) (by omega), hword (9 + n) (by omega), hword (14 + n) (by omega),
    Sha256.schedule_add]
  ac_rfl

/-- The first loop writes the words of the block. -/
theorem scheduled_load {bytes : List UInt8} {offset : Nat}
    (hmessage : ∀ t < 16, (loadWord bytes (offset + t * 4)).toBitVec = message t) {n : Nat}
    (hn : n ≤ 16) : Scheduled message n ((List.range n).foldl (fun words index =>
      words.set index (loadWord bytes (offset + index * 4))) (List.replicate 64 0)) := by
  induction n with
  | zero => exact ⟨List.length_replicate, nofun⟩
  | succ n ih =>
    rw [List.range_succ, List.foldl_append, List.foldl_cons, List.foldl_nil]
    apply (ih (by omega)).set (by omega)
    rw [hmessage n (by omega), Sha256.schedule_of_lt message (by omega)]

/-- The second loop writes the others. -/
theorem scheduled_extend {loaded : List UInt32} (h : Scheduled message 16 loaded) {n : Nat}
    (hn : n ≤ 48) : Scheduled message (16 + n) ((List.range' 16 n).foldl
      (fun words index => words.set index (extendWord words index)) loaded) := by
  induction n with
  | zero => exact h
  | succ n ih =>
    rw [List.range'_1_concat, List.foldl_append, List.foldl_cons, List.foldl_nil]
    exact (ih (by omega)).set (by omega) (toBitVec_extendWord (ih (by omega)))

/-! ### The computation -/

/-- The registers as the variables of the standard. -/
def Registers.variables (r : Registers) : Sha256.Variables :=
  ⟨r.a.toBitVec, r.b.toBitVec, r.c.toBitVec, r.d.toBitVec, r.e.toBitVec, r.f.toBitVec,
    r.g.toBitVec, r.h.toBitVec⟩

/-- The initial values are square roots of primes. -/
theorem variables_initialHash : initialHash.variables = Sha256.initial := by
  rw [Sha256.initial, Sha256.primes_eq]
  decide +kernel

/-- The constants are cube roots of primes. -/
theorem toBitVec_constants (t : Nat) :
    (constants.getD t 0).toBitVec = Sha256.constant t := by
  have htable : constants.map UInt32.toBitVec = Sha256.primes.map (Sha256.fraction 3) := by
    rw [Sha256.primes_eq]
    decide +kernel
  have hzero : Sha256.fraction 3 0 = (0 : UInt32).toBitVec := by decide
  rw [Sha256.constant, ← List.getD_map _ _ (Sha256.fraction 3), ← htable, hzero,
    List.getD_map _ _ UInt32.toBitVec]

/-- A step of the loop is a round of the standard. -/
theorem variables_step (r : Registers) (constant word : UInt32) :
    (r.step constant word).variables =
      Sha256.round r.variables constant.toBitVec word.toBitVec := by
  rw [Registers.step, Sha256.round]
  simp only [Registers.variables, UInt32.toBitVec_add, (toBitVec_rotate_word _).2.2.1,
    (toBitVec_rotate_word _).2.2.2]
  rfl

/-- The sums at the end of a block. -/
theorem variables_add (hash state : Registers) : (hash.add state).variables =
    ⟨state.variables.a + hash.variables.a, state.variables.b + hash.variables.b,
      state.variables.c + hash.variables.c, state.variables.d + hash.variables.d,
      state.variables.e + hash.variables.e, state.variables.f + hash.variables.f,
      state.variables.g + hash.variables.g, state.variables.h + hash.variables.h⟩ := by
  simp only [Registers.variables, Registers.add, UInt32.toBitVec_add, BitVec.add_comm]

/-- An iteration over the blocks is the computation of the standard. -/
theorem variables_compress {hash : Registers} {bytes : List UInt8} {offset : Nat}
    (hmessage : ∀ t < 16, (loadWord bytes (offset + t * 4)).toBitVec = message t) :
    (compress hash bytes offset).variables = Sha256.compress hash.variables message := by
  have hwords : ∀ t < 64, ((blockWords bytes offset).getD t 0).toBitVec =
      Sha256.schedule message t :=
    (scheduled_extend (scheduled_load hmessage (le_refl 16)) (le_refl 48)).2
  have hrounds : ∀ n ≤ 64, ((List.range n).foldl (fun r index =>
      r.step (constants.getD index 0) ((blockWords bytes offset).getD index 0)) hash).variables =
      (List.range n).foldl (fun v t =>
        Sha256.round v (Sha256.constant t) (Sha256.schedule message t)) hash.variables := by
    intro n hn
    induction n with
    | zero => rfl
    | succ n ih =>
      rw [List.range_succ, List.foldl_append, List.foldl_append, List.foldl_cons, List.foldl_nil,
        List.foldl_cons, List.foldl_nil, variables_step, ih (by omega), toBitVec_constants,
        hwords n (by omega)]
  rw [Sha256.compress, Sha256.rounds, ← hrounds 64 (le_refl 64), compress]
  exact variables_add _ _

end

/-! ### The result -/

/-- The characters of a byte. -/
theorem hexPair_eq (word byte : UInt32) (h : byte.toNat < 4) :
    hexPair word byte =
      Hex.hexDigits 2 (UInt8.ofNat (word.toNat >>> ((3 - byte.toNat) * 8))).toNat := by
  have hdigit : ∀ n < 16, hexadecimal.getD n 0 = Hex.hexDigit n := by decide
  have hshift : ((3 - byte) * 8).toNat = (3 - byte.toNat) * 8 := by
    rw [UInt32.toNat_mul, UInt32.toNat_sub_of_le _ _ (UInt32.le_iff_toNat_le.mpr (by
      show byte.toNat ≤ 3
      omega))]
    show (3 - byte.toNat) * 8 % 2 ^ 32 = _
    omega
  have hbyte : (word >>> ((3 - byte) * 8)).toUInt8 =
      UInt8.ofNat (word.toNat >>> ((3 - byte.toNat) * 8)) := by
    apply UInt8.toNat_inj.mp
    rw [UInt32.toNat_toUInt8, UInt32.toNat_shiftRight, hshift,
      Nat.mod_eq_of_lt (show (3 - byte.toNat) * 8 < 32 by omega), UInt8.toNat_ofNat']
  have hlt := (UInt8.ofNat (word.toNat >>> ((3 - byte.toNat) * 8))).toNat_lt
  rw [hexPair, hbyte]
  generalize UInt8.ofNat (word.toNat >>> ((3 - byte.toNat) * 8)) = value at hlt
  have hhigh : (value >>> 4).toNat = value.toNat / 16 := by
    rw [UInt8.toNat_shiftRight, Nat.shiftRight_eq_div_pow]
    rfl
  have hlow : (value &&& 15).toNat = value.toNat % 16 := by
    rw [UInt8.toNat_and]
    exact Nat.and_two_pow_sub_one_eq_mod value.toNat 4
  show [hexadecimal.getD (value >>> 4).toNat 0, hexadecimal.getD (value &&& 15).toNat 0] = _
  rw [hhigh, hlow, hdigit _ (by omega), hdigit _ (by omega), Hex.hexDigits, Hex.hexDigits,
    Hex.hexDigits, Nat.mod_eq_of_lt (show value.toNat / 16 < 16 by omega)]
  rfl

/-- The result has the digits of the words. -/
theorem hexResult_eq (hash : Registers) :
    hexResult hash = Hex.hexBytes (hash.variables.words.flatMap Sha256.bytesOf) := by
  have hword : ∀ word : UInt32, [0, 1, 2, 3].flatMap (hexPair word) =
      Hex.hexBytes (Sha256.bytesOf word.toBitVec) := by
    intro word
    simp only [List.flatMap_cons, List.flatMap_nil, Hex.hexBytes, Sha256.bytesOf]
    rw [hexPair_eq word 0 (by decide), hexPair_eq word 1 (by decide),
      hexPair_eq word 2 (by decide), hexPair_eq word 3 (by decide)]
    rfl
  rw [hexResult, Hex.hexBytes, List.flatMap_assoc]
  simp only [hword]
  rfl

/-- The length behind the loops is a number of whole blocks. -/
theorem length_padded {value : List UInt8} (h : value.length < 2 ^ 61) :
    (padded value).length = value.length + 9 + zeroCount value.length ∧
      (padded value).length % 64 = 0 := by
  have hlength : (padded value).length = value.length + 9 + zeroCount value.length := by
    rw [padded_eq h, List.length_append, List.length_append, List.length_cons, length_zeros]
    show _ + 8 = _
    omega
  refine ⟨hlength, ?_⟩
  rw [hlength, zeroCount]
  omega

/-- The loop over the blocks computes the hash value. -/
theorem variables_sha256 {value : List UInt8} (h : value.length < 2 ^ 61) :
    ((List.range (((padded value).length + 63) / 64)).foldl (fun hash block =>
      compress hash (padded value) (64 * block)) initialHash).variables =
      Sha256.hash (Sha256.bitsOf value) := by
  have hblocks := (length_padded h).2
  have hloop : ∀ n ≤ (padded value).length / 64, ((List.range n).foldl (fun hash block =>
      compress hash (padded value) (64 * block)) initialHash).variables =
      (List.range n).foldl (fun v block => Sha256.compress v
        (Sha256.messageWord (Sha256.bitsOf (padded value)) block)) Sha256.initial := by
    intro n hn
    induction n with
    | zero => exact variables_initialHash
    | succ n ih =>
      rw [List.range_succ, List.foldl_append, List.foldl_append, List.foldl_cons, List.foldl_nil,
        List.foldl_cons, List.foldl_nil, ← ih (by omega)]
      apply variables_compress
      intro t ht
      rw [toBitVec_loadWord (by omega), Sha256.messageWord]
      congr 3
      omega
  have hcount : ((padded value).length + 63) / 64 = (padded value).length / 64 := by omega
  have hbits : (Sha256.bitsOf (padded value)).length / 512 = (padded value).length / 64 := by
    rw [Sha256.length_bitsOf]
    omega
  rw [hcount, hloop _ (le_refl _), Sha256.hash, ← bitsOf_padded h, hbits]

/-- **The hash function of the native worker is SHA-256.** Every message of less than `2 ^ 61` bytes
is padded as the standard says, and the result is its digest in lower-case hexadecimal digits.
So the runtime confirms the digest of every configuration. -/
theorem sha256_exact (value : List UInt8) (h : value.length < 2 ^ 61) :
    (padded value = value ++ 0x80 :: zeros (zeroCount value.length) ++
        bigEndian64 (8 * value.length) ∧
      zeroCount value.length < 64 ∧ (padded value).length % 64 = 0 ∧
      Sha256.bitsOf (padded value) = Sha256.pad (Sha256.bitsOf value)) ∧
    sha256 value = Sha256.hexdigest value ∧
    digestConfirmed (some (sha256 value)) value = true := by
  have hresult : sha256 value = Sha256.hexdigest value := by
    show hexResult _ = _
    rw [hexResult_eq, variables_sha256 h]
    rfl
  refine ⟨⟨padded_eq h, ?_, (length_padded h).2, bitsOf_padded h⟩, hresult, ?_⟩
  · rw [zeroCount]
    omega
  · rw [digestConfirmed, hresult]
    simp

/-- A message of 56 bytes leaves no room for its length in the first block. -/
theorem sha256_exact_secondBlock :
    let message : List UInt8 := List.replicate 56 97
    padded message = message ++ 0x80 :: zeros 63 ++ bigEndian64 448 ∧
      sha256 message = Sha256.hexdigest message := by
  intro message
  obtain ⟨⟨hpadded, -⟩, hdigest, -⟩ := sha256_exact message (by simp [message])
  exact ⟨hpadded, hdigest⟩

end Wmfs.Worker.Native
