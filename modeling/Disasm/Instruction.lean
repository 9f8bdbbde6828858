import Disasm.Mnemonic
import Disasm.Operand
import Disasm.Prefixes

/-!
# Instruction records

One record for each run of bytes in a buffer: an instruction with its operands, or bytes that
form none. Addresses are 64-bit words and wrap round; the addresses an operand leads to are cut
to the width of the instruction pointer or of the address.
-/

namespace Disasm

/-- A decoded instruction, destination operand first, or, if `mnemonic` is `INVALID`, a run of
bytes that form none. The default record stands for the end of a buffer. -/
structure Instruction where
  address : UInt64 := 0
  mode : Mode := .m64
  bytes : List UInt8 := []
  mnemonic : Mnemonic := .INVALID
  prefixes : Prefixes := {}
  operationSize : DataSize := .none
  addressSize : AddressSize := .a64
  operands : List Operand := []
deriving DecidableEq, Inhabited

namespace Instruction

/-- The most bytes that an instruction can have. -/
def maxLength : Nat := 15

/-- The most operands that an instruction can have. -/
def maxOperands : Nat := 4

/-- A record for `bytes`, of which those past the longest instruction are dropped. -/
def ofBytes (address : UInt64) (mode : Mode) (bytes : List UInt8) (mnemonic : Mnemonic)
    (prefixes : Prefixes) (operationSize : DataSize) (addressSize : AddressSize) : Instruction :=
  { address, mode, bytes := bytes.take maxLength, mnemonic, prefixes, operationSize, addressSize }

/-- A record for bytes that form no instruction. -/
def invalid (address : UInt64) (mode : Mode) (bytes : List UInt8) : Instruction :=
  ofBytes address mode bytes .INVALID {} .none (mode.addressSize false)

/-- The record with one more operand, if it has room for it. -/
def push (i : Instruction) (o : Operand) : Instruction :=
  { i with operands := (i.operands ++ [o]).take maxOperands }

def length (i : Instruction) : Nat := i.bytes.length

def nextAddress (i : Instruction) : UInt64 := i.address + UInt64.ofNat i.length

def isValid (i : Instruction) : Bool := i.mnemonic ≠ .INVALID

/-- A string operation. `MOVSD` and `CMPSD` are string operations where they have no operands. -/
def isString (i : Instruction) : Bool :=
  i.mnemonic.isString || ((i.mnemonic = .MOVSD || i.mnemonic = .CMPSD) && i.operands.isEmpty)

/-- Where a relative operand leads. A 64-bit instruction pointer is not cut unless the operation
is a word's; elsewhere the target has the width of the operation. -/
def relativeTarget (i : Instruction) (r : Relative) : UInt64 :=
  let destination := i.nextAddress + UInt64.ofInt r.displacement
  if i.mode = .m64 ∧ i.operationSize ≠ .word then destination
  else if i.operationSize = .word then DataSize.word.truncate destination
  else DataSize.dword.truncate destination

/-- The address of a memory operand, where no register but the instruction pointer takes part in
it. -/
def memoryTarget (i : Instruction) (m : Memory) : Option UInt64 :=
  if m.ripRelative then
    some (m.addressSize.dataSize.truncate (i.nextAddress + UInt64.ofInt m.displacement))
  else if m.base = none ∧ m.index = none then
    some (m.addressSize.dataSize.truncate (UInt64.ofInt m.displacement))
  else none

/-- Where the first relative operand leads. -/
def branchTarget (i : Instruction) : Option UInt64 :=
  (i.operands.findSome? Operand.relative?).map i.relativeTarget

end Instruction

end Disasm
