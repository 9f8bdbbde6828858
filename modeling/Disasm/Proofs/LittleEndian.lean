import Disasm.Reader
import Mathlib

/-!
# Numbers as bytes

Numbers stand in files and in encodings lowest byte first. What they come to is said here without
the reading of them: `byteValue` is the number whose digits in base 256 are the bytes.

* `ofLittleEndian_eq_byteValue` — what is read is this number.
* `toLittleEndian` — a number as so many bytes; those of a number that was read are the bytes it
  was read from (`toLittleEndian_byteValue`).
-/

namespace Disasm

/-- The number whose digits in base 256, lowest first, are these bytes. -/
def byteValue (bytes : List UInt8) : Nat := Nat.ofDigits 256 (bytes.map UInt8.toNat)

/-- The `width` lowest bytes of `v`, lowest first. -/
def toLittleEndian : (width : Nat) → (v : Nat) → List UInt8
  | 0, _ => []
  | width + 1, v => UInt8.ofNat (v % 256) :: toLittleEndian width (v / 256)

theorem byteValue_cons (b : UInt8) (bytes : List UInt8) :
    byteValue (b :: bytes) = b.toNat + 256 * byteValue bytes := by
  rw [byteValue, List.map_cons, Nat.ofDigits_cons, byteValue]

theorem ofLittleEndian_eq_byteValue (bytes : List UInt8) :
    ofLittleEndian bytes = byteValue bytes := by
  induction bytes with
  | nil => rfl
  | cons b bytes ih => rw [ofLittleEndian, ih, byteValue_cons]

theorem byteValue_lt (bytes : List UInt8) : byteValue bytes < 256 ^ bytes.length := by
  have hdigits : ∀ d ∈ bytes.map UInt8.toNat, d < 256 := by
    intro d hd
    obtain ⟨b, -, rfl⟩ := List.mem_map.1 hd
    exact b.toNat_lt
  have hlt := Nat.ofDigits_lt_base_pow_length (by decide) hdigits
  rwa [List.length_map] at hlt

/-- Writing a number that was read gives its bytes back. -/
theorem toLittleEndian_byteValue (bytes : List UInt8) :
    toLittleEndian bytes.length (byteValue bytes) = bytes := by
  induction bytes with
  | nil => rfl
  | cons b bytes ih =>
    have hb : b.toNat < 256 := b.toNat_lt
    have hmod : (b.toNat + 256 * byteValue bytes) % 256 = b.toNat := by omega
    have hdiv : (b.toNat + 256 * byteValue bytes) / 256 = byteValue bytes := by omega
    rw [byteValue_cons, List.length_cons, toLittleEndian, hmod, hdiv, ih, UInt8.ofNat_toNat]

end Disasm
