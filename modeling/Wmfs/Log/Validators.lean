import Wmfs.Lib.Utf8Scalars
import Wmfs.Log.Loads

/-!
# `Wmfs.Log.Validators`: the UTF-8 validators of the C++ decoders

`valid_utf8` of `src/control.cpp` and `utf8` of `src/log.cpp` have the same text. Both scan a
buffer with a `size_t` index and collect a code point in a `uint32_t`. They never leave the buffer,
they stop, and they accept exactly the well-formed bytes (`validators_exact`).
-/

set_option autoImplicit false

namespace Wmfs

open Lib
open Lib.Utf8 (WellFormed)

/-- `valid_utf8` with the integers of the source, on the `size` bytes from `base` on. -/
def Control.Native.validUtf8At (p : List UInt8) (base : Nat) (size : UInt64) :
    Except Log.Native.Stop Bool :=
  Log.Native.utf8 p base size

namespace Log.Native

/-- Whatever the fuel is, when it is not less than the size. -/
theorem utf8From_zero {p : List UInt8} {size : UInt64} {fuel : Nat}
    (hsize : size.toNat = p.length) (hfuel : size.toNat ≤ fuel) :
    utf8From p 0 size fuel 0 = .ok (Utf8.decode p).isSome := by
  have hindex : (0 : UInt64).toNat = 0 := rfl
  rw [utf8From_eq (by omega) (Nat.zero_le _) (by omega), Control.validUtf8_eq, hindex, hsize]
  show Except.ok (Utf8.decode (slice p 0 p.length)).isSome = _
  rw [slice_length]

/-- The validators on a buffer that has these bytes and no others. A read outside it would be an
error, and so would be a loop that runs out of fuel. The result is the same for more fuel. -/
theorem validators_exact (bytes : List UInt8) (size : UInt64) (hsize : size.toNat = bytes.length) :
    ∃ valid, utf8 bytes 0 size = .ok valid ∧
      Control.Native.validUtf8At bytes 0 size = .ok valid ∧
      Control.Native.validUtf8 bytes = valid ∧
      (∀ fuel, size.toNat ≤ fuel → utf8From bytes 0 size fuel 0 = .ok valid) ∧
      (valid = true ↔ WellFormed bytes) ∧
      (valid = true ↔ ∃ text, Utf8.decode bytes = some text) := by
  have hutf8 : utf8 bytes 0 size = .ok (Utf8.decode bytes).isSome :=
    utf8From_zero hsize (Nat.le_refl _)
  refine ⟨(Utf8.decode bytes).isSome, hutf8, hutf8, Control.validUtf8_eq bytes, ?_, ?_, ?_⟩
  · intro fuel hfuel
    exact utf8From_zero hsize hfuel
  · exact Utf8.decode_isSome_iff_wellFormed
  · exact Option.isSome_iff_exists

/-- A euro sign and a truncated one. -/
theorem validators_exact_euro :
    (∃ valid, utf8 [0xE2, 0x82, 0xAC] 0 3 = .ok valid ∧ (valid = true ↔
      WellFormed [0xE2, 0x82, 0xAC])) ∧
    ∃ valid, utf8 [0xE2, 0x82] 0 2 = .ok valid ∧ (valid = true ↔ WellFormed [0xE2, 0x82]) := by
  obtain ⟨valid, hvalid, -, -, -, hform, -⟩ := validators_exact [0xE2, 0x82, 0xAC] 3 rfl
  obtain ⟨cut, hcut, -, -, -, hcutForm, -⟩ := validators_exact [0xE2, 0x82] 2 rfl
  exact ⟨⟨valid, hvalid, hform⟩, cut, hcut, hcutForm⟩

end Log.Native

end Wmfs
