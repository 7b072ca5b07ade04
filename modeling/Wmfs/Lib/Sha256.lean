import Mathlib.Data.Nat.NthRoot.Defs
import Mathlib.Data.Nat.Prime.Basic
import Mathlib.Tactic.IntervalCases
import Wmfs.Lib.Hex

/-!
# `Wmfs.Lib.Sha256`: the hash function of FIPS 180-4

The definitions follow the standard: functions on words (4.1.2), constants (4.2.2, 5.3.3), padding
and parsing (5.1.1, 5.2.1) and the computation (6.2). A message is a list of bits. The constants
are not a table. They are the first 32 bits of the fractional parts of roots of primes, as the
standard says.

A message of bytes has the bits of its bytes, from the highest on. What programs do with bytes is
tied to the bits by a few lemmas: `bitsOf` of a part of the bytes is a part of the bits
(`bitsOf_drop`, `bitsOf_take`), and four bytes are a word (`wordOf_bitsOf`).

Nothing here refers to a particular program.
-/

set_option autoImplicit false

namespace Wmfs.Lib.Sha256

/-- A word of 32 bits. -/
abbrev Word : Type := BitVec 32

/-! ### Functions -/

/-- `Ch` of the standard. -/
def ch (x y z : Word) : Word := (x &&& y) ^^^ (~~~x &&& z)

/-- `Maj` of the standard. -/
def maj (x y z : Word) : Word := (x &&& y) ^^^ (x &&& z) ^^^ (y &&& z)

/-- `Σ₀` of the standard. -/
def bigSigma0 (x : Word) : Word := x.rotateRight 2 ^^^ x.rotateRight 13 ^^^ x.rotateRight 22

/-- `Σ₁` of the standard. -/
def bigSigma1 (x : Word) : Word := x.rotateRight 6 ^^^ x.rotateRight 11 ^^^ x.rotateRight 25

/-- `σ₀` of the standard. -/
def smallSigma0 (x : Word) : Word := x.rotateRight 7 ^^^ x.rotateRight 18 ^^^ x >>> 3

/-- `σ₁` of the standard. -/
def smallSigma1 (x : Word) : Word := x.rotateRight 17 ^^^ x.rotateRight 19 ^^^ x >>> 10

/-! ### Constants -/

/-- The first sixty-four primes: there are as many below 312 (`length_primes`). -/
def primes : List Nat := (List.range 312).filter Nat.Prime

/-- The first 32 bits of the fractional part of a root. -/
def fraction (degree n : Nat) : Word := .ofNat 32 (Nat.nthRoot degree (n * 2 ^ (32 * degree)))

/-- `K_t`, from the cube roots of the first sixty-four primes. -/
def constant (t : Nat) : Word := fraction 3 (primes.getD t 0)

/-- The first 64 primes. -/
theorem primes_eq : primes =
    [2, 3, 5, 7, 11, 13, 17, 19, 23, 29, 31, 37, 41, 43, 47, 53, 59, 61, 67, 71, 73, 79, 83, 89,
      97, 101, 103, 107, 109, 113, 127, 131, 137, 139, 149, 151, 157, 163, 167, 173, 179, 181,
      191, 193, 197, 199, 211, 223, 227, 229, 233, 239, 241, 251, 257, 263, 269, 271, 277, 281,
      283, 293, 307, 311] := by
  decide +kernel

/-- The variables `a` to `h`, and the eight words of a hash value. -/
structure Variables where
  a : Word
  b : Word
  c : Word
  d : Word
  e : Word
  f : Word
  g : Word
  h : Word
  deriving DecidableEq, Repr

/-- The words in their order. -/
def Variables.words (v : Variables) : List Word := [v.a, v.b, v.c, v.d, v.e, v.f, v.g, v.h]

/-- The initial hash value, from the square roots of the first eight primes. -/
def initial : Variables where
  a := fraction 2 (primes.getD 0 0)
  b := fraction 2 (primes.getD 1 0)
  c := fraction 2 (primes.getD 2 0)
  d := fraction 2 (primes.getD 3 0)
  e := fraction 2 (primes.getD 4 0)
  f := fraction 2 (primes.getD 5 0)
  g := fraction 2 (primes.getD 6 0)
  h := fraction 2 (primes.getD 7 0)

/-! ### Padding and parsing -/

/-- The last `width` bits of a number, the highest first. -/
def bits (width n : Nat) : List Bool := (List.range width).map fun i => n.testBit (width - 1 - i)

/-- The number of zero bits of the padding. -/
def zeroBits (length : Nat) : Nat := (959 - length % 512) % 512

/-- It is the least that leaves room for 64 bits in the last block. -/
theorem isLeast_zeroBits (length : Nat) :
    IsLeast {k | (length + 1 + k) % 512 = 448} (zeroBits length) := by
  have hmod : length % 512 < 512 := Nat.mod_lt _ (by omega)
  constructor
  · show (length + 1 + zeroBits length) % 512 = 448
    rw [zeroBits]
    omega
  · intro k hk
    have hk : (length + 1 + k) % 512 = 448 := hk
    rw [zeroBits]
    omega

/-- A bit `1`, zero bits, and the length as 64 bits. -/
def pad (message : List Bool) : List Bool :=
  message ++ true :: List.replicate (zeroBits message.length) false ++ bits 64 message.length

/-- The number of a list of bits. -/
def ofBits (message : List Bool) : Nat := message.foldl (fun n bit => 2 * n + bit.toNat) 0

/-- The word of 32 bits. -/
def wordOf (message : List Bool) : Word := .ofNat 32 (ofBits message)

/-- `M_t` of a block. -/
def messageWord (padded : List Bool) (block t : Nat) : Word :=
  wordOf ((padded.drop (512 * block + 32 * t)).take 32)

/-! ### Computation -/

/-- `W_t`. -/
def schedule (message : Nat → Word) (t : Nat) : Word :=
  if t < 16 then message t
  else smallSigma1 (schedule message (t - 2)) + schedule message (t - 7) +
    smallSigma0 (schedule message (t - 15)) + schedule message (t - 16)

/-- One iteration, with `K_t` and `W_t`. -/
def round (v : Variables) (k w : Word) : Variables :=
  let t1 := v.h + bigSigma1 v.e + ch v.e v.f v.g + k + w
  let t2 := bigSigma0 v.a + maj v.a v.b v.c
  { a := t1 + t2, b := v.a, c := v.b, d := v.c, e := v.d + t1, f := v.e, g := v.f, h := v.g }

/-- All sixty-four of them. -/
def rounds (message : Nat → Word) (v : Variables) : Variables :=
  (List.range 64).foldl (fun v t => round v (constant t) (schedule message t)) v

/-- The intermediate hash value behind a block. -/
def compress (value : Variables) (message : Nat → Word) : Variables :=
  let v := rounds message value
  { a := v.a + value.a, b := v.b + value.b, c := v.c + value.c, d := v.d + value.d
    e := v.e + value.e, f := v.f + value.f, g := v.g + value.g, h := v.h + value.h }

/-- The hash value of a message. -/
def hash (message : List Bool) : Variables :=
  let padded := pad message
  (List.range (padded.length / 512)).foldl (fun value block =>
    compress value (messageWord padded block)) initial

/-! ### Messages of bytes -/

/-- The bits of the bytes, the highest of a byte first. -/
def bitsOf (bytes : List UInt8) : List Bool := bytes.flatMap fun byte => bits 8 byte.toNat

/-- The bytes of a word, the highest first. -/
def bytesOf (word : Word) : List UInt8 :=
  [.ofNat (word.toNat >>> 24), .ofNat (word.toNat >>> 16), .ofNat (word.toNat >>> 8),
    .ofNat word.toNat]

/-- `hashlib.sha256(message).digest()`. -/
def digest (message : List UInt8) : List UInt8 := (hash (bitsOf message)).words.flatMap bytesOf

/-- The digest as a vector of its 32 bytes. -/
def digestVector (message : List UInt8) : Hex.Digest :=
  Vector.ofFn fun i => (digest message).getD i 0

/-- `hashlib.sha256(message).hexdigest()`. -/
def hexdigest (message : List UInt8) : Utf8.Text := Hex.hexBytes (digest message)

/-! ### The schedule -/

/-- The first 16 words of the schedule are those of the block. -/
theorem schedule_of_lt (message : Nat → Word) {t : Nat} (h : t < 16) :
    schedule message t = message t := by
  rw [schedule, if_pos h]

/-- Each later word of the schedule, from four earlier ones. -/
theorem schedule_add (message : Nat → Word) (n : Nat) :
    schedule message (16 + n) = smallSigma1 (schedule message (14 + n)) +
      schedule message (9 + n) + smallSigma0 (schedule message (1 + n)) + schedule message n := by
  rw [schedule, if_neg (by omega), show 16 + n - 2 = 14 + n by omega,
    show 16 + n - 7 = 9 + n by omega, show 16 + n - 15 = 1 + n by omega,
    show 16 + n - 16 = n by omega]

/-! ### Bits -/

/-- A number has as many bits as asked for. -/
@[simp] theorem length_bits (width n : Nat) : (bits width n).length = width := by
  rw [bits, List.length_map, List.length_range]

/-- No bytes have no bits. -/
@[simp] theorem bitsOf_nil : bitsOf [] = [] := rfl

/-- The bits of the first byte come first. -/
theorem bitsOf_cons (byte : UInt8) (bytes : List UInt8) :
    bitsOf (byte :: bytes) = bits 8 byte.toNat ++ bitsOf bytes := rfl

/-- The bits of two messages in a row. -/
theorem bitsOf_append (front back : List UInt8) :
    bitsOf (front ++ back) = bitsOf front ++ bitsOf back := List.flatMap_append

/-- A byte has eight bits. -/
@[simp] theorem length_bitsOf (bytes : List UInt8) : (bitsOf bytes).length = 8 * bytes.length := by
  induction bytes with
  | nil => rfl
  | cons byte bytes ih =>
    rw [bitsOf_cons, List.length_append, ih, length_bits, List.length_cons]
    omega

/-- The bits behind the first bytes. -/
theorem bitsOf_drop (bytes : List UInt8) (n : Nat) :
    bitsOf (bytes.drop n) = (bitsOf bytes).drop (8 * n) := by
  induction n generalizing bytes with
  | zero => rfl
  | succ n ih =>
    cases bytes with
    | nil => simp
    | cons byte bytes =>
      rw [List.drop_succ_cons, ih, bitsOf_cons, Nat.mul_succ, Nat.add_comm, ← List.drop_drop,
        List.drop_left' (length_bits 8 _)]

/-- The bits of the first bytes. -/
theorem bitsOf_take (bytes : List UInt8) (n : Nat) :
    bitsOf (bytes.take n) = (bitsOf bytes).take (8 * n) := by
  induction n generalizing bytes with
  | zero => rfl
  | succ n ih =>
    cases bytes with
    | nil => simp
    | cons byte bytes =>
      have hwhole : (bits 8 byte.toNat).take (8 + 8 * n) = bits 8 byte.toNat :=
        List.take_of_length_le (by rw [length_bits]; omega)
      rw [List.take_succ_cons, bitsOf_cons, ih, bitsOf_cons, Nat.mul_succ, Nat.add_comm,
        List.take_append, hwhole, length_bits, Nat.add_sub_cancel_left]

/-- The highest byte of a number is in front of the rest. -/
theorem bits_add (width n : Nat) :
    bits (8 + width) n = bits 8 (n >>> width % 256) ++ bits width n := by
  apply List.ext_getElem
  · simp
  · intro i hi _
    rw [length_bits] at hi
    rcases Nat.lt_or_ge i 8 with hfirst | hrest
    · rw [List.getElem_append_left (by simpa using hfirst)]
      simp only [bits, List.getElem_map, List.getElem_range]
      rw [show (256 : Nat) = 2 ^ 8 from rfl, Nat.testBit_mod_two_pow, Nat.testBit_shiftRight,
        decide_eq_true (by omega), Bool.true_and]
      congr 1
      omega
    · rw [List.getElem_append_right (by simpa using hrest)]
      simp only [bits, List.getElem_map, List.getElem_range, List.length_map, List.length_range]
      congr 1
      omega

/-- The bytes of a number, the highest first, have its bits. -/
theorem bitsOf_bigEndian (count n : Nat) :
    bitsOf ((List.range count).reverse.map fun i => .ofNat (n >>> (8 * i))) = bits (8 * count) n := by
  induction count with
  | zero => rfl
  | succ count ih =>
    rw [List.range_succ, List.reverse_append, List.reverse_singleton, List.map_append,
      List.map_singleton, List.singleton_append, bitsOf_cons, ih, Nat.mul_succ, Nat.add_comm,
      bits_add, UInt8.toNat_ofNat']

/-- The last bit is the lowest one. -/
theorem ofBits_concat (message : List Bool) (bit : Bool) :
    ofBits (message ++ [bit]) = 2 * ofBits message + bit.toNat := by
  rw [ofBits, List.foldl_append]
  rfl

/-- The number of two bit strings in a row. -/
theorem ofBits_append (front back : List Bool) :
    ofBits (front ++ back) = ofBits front * 2 ^ back.length + ofBits back := by
  induction back using List.reverseRecOn with
  | nil => simp [ofBits]
  | append_singleton back bit ih =>
    rw [← List.append_assoc, ofBits_concat, ofBits_concat, ih, List.length_append,
      List.length_singleton, Nat.pow_succ]
    ring

/-- The bits of a number are its binary digits. -/
theorem ofBits_bits (width n : Nat) : ofBits (bits width n) = n % 2 ^ width := by
  induction width generalizing n with
  | zero => rw [Nat.pow_zero, Nat.mod_one]; rfl
  | succ width ih =>
    have hlast : bits (width + 1) n = bits width (n / 2) ++ [n.testBit 0] := by
      rw [bits, List.range_succ, List.map_append, bits]
      congr 1
      · apply List.map_congr_left
        intro i hi
        have hi : i < width := List.mem_range.mp hi
        rw [← Nat.testBit_succ]
        congr 1
        omega
      · rw [List.map_singleton]
        congr 2
        omega
    rw [hlast, ofBits_concat, ih, Nat.testBit_zero, Nat.pow_succ, Nat.mul_comm (2 ^ width),
      Nat.mod_mul]
    rcases Nat.mod_two_eq_zero_or_one n with h | h
    · rw [h]
      simp
    · rw [h]
      simp [Nat.add_comm]

/-- Four bytes are a word. -/
theorem wordOf_bitsOf (b0 b1 b2 b3 : UInt8) : wordOf (bitsOf [b0, b1, b2, b3]) =
    .ofNat 32 (((b0.toNat * 256 + b1.toNat) * 256 + b2.toNat) * 256 + b3.toNat) := by
  have hbyte : ∀ byte : UInt8, ofBits (bits 8 byte.toNat) = byte.toNat := by
    intro byte
    rw [ofBits_bits]
    exact Nat.mod_eq_of_lt byte.toNat_lt
  rw [wordOf]
  congr 1
  rw [bitsOf_cons, bitsOf_cons, bitsOf_cons, bitsOf_cons, bitsOf_nil, List.append_nil,
    ofBits_append, ofBits_append, ofBits_append, hbyte, hbyte, hbyte, hbyte]
  simp only [List.length_append, length_bits]
  ring

end Wmfs.Lib.Sha256
