import Disasm.Size

/-!
# Operating modes

The mode in which a processor runs code decides the default sizes and which encodings exist.
A `Context` is a mode with the address of a buffer's first byte. `ConfigurationError` lists what
can be wrong with a request before any byte is decoded; bytes that form no instruction are
never an error.
-/

namespace Disasm

/-- The mode that code runs in: real or 16-bit protected, 32-bit, or 64-bit. -/
inductive Mode
  | m16 | m32 | m64
deriving DecidableEq, Inhabited

/-- What can be wrong with a request to decode. -/
inductive ConfigurationError
  | unsupportedBitness
  | emptyBuffer
  | cursorOutOfRange
deriving DecidableEq, Inhabited

def ConfigurationError.message : ConfigurationError → String
  | unsupportedBitness => "bitness must be 16, 32 or 64"
  | emptyBuffer => "there are no bytes to decode"
  | cursorOutOfRange => "decoding cursor is beyond the end of the buffer"

namespace Mode

def bits : Mode → Nat
  | m16 => 16
  | m32 => 32
  | m64 => 64

/-- The mode with this many bits. -/
def ofBits (n : Int) : Except ConfigurationError Mode :=
  if n = 16 then .ok m16
  else if n = 32 then .ok m32
  else if n = 64 then .ok m64
  else .error .unsupportedBitness

/-- The width of addresses in this mode; the override (prefix 67) picks the other one. -/
def addressSize (mode : Mode) (override : Bool) : AddressSize :=
  match mode, override with
  | m16, false => .a16
  | m16, true => .a32
  | m32, false => .a32
  | m32, true => .a16
  | m64, false => .a64
  | m64, true => .a32

@[simp] theorem ofBits_bits (m : Mode) : ofBits m.bits = .ok m := by
  cases m <;> rfl

end Mode

/-- How a buffer is to be decoded: the mode and the address of its first byte. -/
structure Context where
  mode : Mode := .m64
  base : UInt64 := 0
deriving DecidableEq, Inhabited

/-- The context with a mode of `bits` bits. -/
def Context.ofBits (bits : Int) (base : UInt64) : Except ConfigurationError Context :=
  (Mode.ofBits bits).map fun mode => ⟨mode, base⟩

end Disasm
