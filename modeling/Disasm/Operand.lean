import Disasm.Register

/-!
# Operands

What an instruction works on: a register, a place in memory, an immediate value, a displacement
from the next instruction, or a far pointer. Displacements and immediates are signed 64-bit
numbers; they are kept as integers.
-/

namespace Disasm

/-- A place in memory: `base + index * scale + displacement`, or, if `ripRelative`, the address of
the next instruction plus the displacement. -/
structure Memory where
  base : Option Register := none
  index : Option Register := none
  scale : Nat := 1
  displacement : Int := 0
  /-- An explicit override; `none` where the default segment applies. -/
  segment : Option Register := none
  addressSize : AddressSize := .a64
  /-- What is accessed; `none` where that has no meaning, as for LEA. -/
  size : DataSize := .none
  ripRelative : Bool := false
deriving DecidableEq, Inhabited

/-- A constant, already sign extended where its encoding calls for that. -/
structure Immediate where
  value : Int := 0
  size : DataSize := .byte
deriving DecidableEq, Inhabited

/-- A branch target, counted from the next instruction. -/
structure Relative where
  displacement : Int := 0
  size : DataSize := .byte
deriving DecidableEq, Inhabited

/-- A selector and an offset in its segment. -/
structure FarPointer where
  selector : Nat := 0
  offset : Nat := 0
  size : DataSize := .dword
deriving DecidableEq, Inhabited

/-- An operand. A `register` is `none` where a register of the size asked for does not exist. -/
inductive Operand
  | register (r : Option Register)
  | memory (m : Memory)
  | immediate (i : Immediate)
  | relative (r : Relative)
  | far (p : FarPointer)
deriving DecidableEq, Inhabited

namespace Operand

def memory? : Operand → Option Memory
  | memory m => some m
  | _ => none

def relative? : Operand → Option Relative
  | relative r => some r
  | _ => none

end Operand

end Disasm
