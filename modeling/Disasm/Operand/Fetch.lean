import Disasm.Addressing

/-!
# Reading operands

`OperandType.size` gives the size of an operand of a type, and `fetchOperand` the operand that a
form's specification describes. Operands that ModRM describes need no more bytes; immediates,
displacements, offsets and far pointers are read in turn.
-/

namespace Disasm

/-- The size of an operand of this type, for an operation size and according to whether the operand
is a register. -/
def OperandType.size (type : OperandType) (operation : DataSize) (isRegister : Bool) : DataSize :=
  match type with
  | .none | .m => .none
  | .b => .byte
  | .w => .word
  | .d => .dword
  | .q => .qword
  | .dq => .dqword
  | .s => .fword
  | .t => .tbyte
  | .v | .bs => operation
  | .z => if operation = .word then .word else .dword
  | .y => if operation = .qword then .qword else .dword
  | .wv => if isRegister then operation else .word
  | .bd => if isRegister then .dword else .byte
  | .wd => if isRegister then .dword else .word
  | .p => if operation = .word then .dword else if operation = .qword then .tbyte else .fword
  | .a => if operation = .word then .dword else .qword

namespace Addressing

/-- The place in memory, as an operand of this type; none where ModRM names a register. -/
def memoryOperand (a : Addressing) (c : OperandContext) (type : OperandType) : Option Operand :=
  match a.modrm with
  | some m =>
    if m.isRegister then none
    else some (.memory { a.memory with size := type.size c.operationSize false })
  | none => none

/-- A register that the fields of ModRM name. -/
def registerOperand (a : Addressing) (f : ModRM → Option Register) : Option Operand :=
  a.modrm.map fun m => .register (f m)

/-- A register that ModRM.rm names, where ModRM.mod says that it names one. -/
def onlyRegister (a : Addressing) (f : ModRM → Option Register) : Option Operand :=
  (a.modrm.filter (·.isRegister)).map fun m => .register (f m)

/-- A register that ModRM.rm names, or the place in memory. -/
def registerOrMemory (a : Addressing) (c : OperandContext) (type : OperandType)
    (f : ModRM → Option Register) : Option Operand :=
  (a.onlyRegister f).or (a.memoryOperand c type)

end Addressing

namespace OperandContext

/-- A general-purpose register of the size that a type asks for. -/
def general (c : OperandContext) (type : OperandType) (n : Fin 16) : Option Register :=
  Register.gpr n (type.size c.operationSize true) c.prefixes.rex.present

/-- The operands that need no bytes of their own: those named by the form, by the opcode and by
ModRM. -/
def named (c : OperandContext) (a : Addressing) (s : OperandSpec) : Option Operand :=
  let rex := c.prefixes.rex
  match s.method with
  | .fixed =>
    some (.register
      (Register.gpr (low4 s.number) (s.type.size c.operationSize true) false))
  | .fixedSegment => some (.register (Register.segmentOfNumber s.number))
  | .fixedX87 => some (.register (some (.x87 (low3 s.number))))
  | .fixedXMM => some (.register (some (.xmm (low4 s.number))))
  | .one => some (.immediate ⟨1, .byte⟩)
  | .opcode => some (.register (c.general s.type (extend rex.b (low3 c.opcode.toNat))))
  | .E => a.registerOrMemory c s.type fun m => c.general s.type (extend rex.b m.rm)
  | .G => a.registerOperand fun m => c.general s.type (extend rex.r m.reg)
  | .M => a.memoryOperand c s.type
  | .R => a.onlyRegister fun m => c.general s.type (extend rex.b m.rm)
  | .S => a.modrm.bind fun m => (Register.segmentOfNumber m.reg).map fun r => .register (some r)
  | .C => a.registerOperand fun m => some (.control (extend rex.r m.reg))
  | .D => a.registerOperand fun m => some (.debug (extend rex.r m.reg))
  | .P => a.registerOperand fun m => some (.mmx m.reg)
  | .Q => a.registerOrMemory c s.type fun m => some (.mmx m.rm)
  | .N => a.onlyRegister fun m => some (.mmx m.rm)
  | .V => a.registerOperand fun m => some (.xmm (extend rex.r m.reg))
  | .W => a.registerOrMemory c s.type fun m => some (.xmm (extend rex.b m.rm))
  | .U => a.onlyRegister fun m => some (.xmm (extend rex.b m.rm))
  | .X87 => a.onlyRegister fun m => some (.x87 m.rm)
  | .none | .I | .J | .O | .A => none

end OperandContext

/-! ## Operands with bytes of their own -/

/-- An immediate. Bytes and words are taken from 0, `bs` and `z` are signed; the largest, of 64
bits, is as wide as an immediate can be. -/
def fetchImmediate (c : OperandContext) : OperandType → Fetch Operand
  | .b => do return .immediate ⟨← Fetch.unsigned 1, .byte⟩
  | .bs => do return .immediate ⟨← Fetch.signed 1, c.operationSize⟩
  | .w => do return .immediate ⟨← Fetch.unsigned 2, .word⟩
  | .z =>
    if c.operationSize = .word then do return .immediate ⟨← Fetch.signed 2, .word⟩
    else do return .immediate ⟨← Fetch.signed 4, c.operationSize⟩
  | .v =>
    match c.operationSize with
    | .word => do return .immediate ⟨← Fetch.unsigned 2, .word⟩
    | .qword => do return .immediate ⟨← Fetch.signed 8, .qword⟩
    | _ => do return .immediate ⟨← Fetch.unsigned 4, .dword⟩
  | _ => Fetch.fail

/-- A displacement from the next instruction: a byte, or a word or doubleword by the operation
size. -/
def fetchRelative (c : OperandContext) (type : OperandType) : Fetch Operand :=
  if type = .b then do return .relative ⟨← Fetch.signed 1, .byte⟩
  else if c.operationSize = .word then do return .relative ⟨← Fetch.signed 2, .word⟩
  else do return .relative ⟨← Fetch.signed 4, .dword⟩

/-- An offset as wide as an address; the widest are signed like every other displacement. -/
def fetchAbsolute : AddressSize → Fetch Int
  | .a16 => do return ((← Fetch.unsigned 2) : Nat)
  | .a32 => do return ((← Fetch.unsigned 4) : Nat)
  | .a64 => Fetch.signed 8

/-- A place in memory given by its whole offset, which is as wide as an address. -/
def fetchOffset (c : OperandContext) (type : OperandType) : Fetch Operand := do
  return .memory
    { displacement := ← fetchAbsolute c.addressSize
      segment := c.segmentOverride
      addressSize := c.addressSize
      size := type.size c.operationSize false }

/-- A far pointer: an offset of 16 or 32 bits, then a selector. -/
def fetchFar (c : OperandContext) : Fetch Operand :=
  if c.operationSize = .word then do
    let offset ← Fetch.unsigned 2
    return .far { offset, selector := ← Fetch.unsigned 2, size := .word }
  else do
    let offset ← Fetch.unsigned 4
    return .far { offset, selector := ← Fetch.unsigned 2, size := .dword }

/-- The operand that a specification describes. It fails where bytes are missing and where the
encoding does not allow the operand. -/
def fetchOperand (c : OperandContext) (a : Addressing) (s : OperandSpec) : Fetch Operand :=
  match s.method with
  | .I => fetchImmediate c s.type
  | .J => fetchRelative c s.type
  | .O => fetchOffset c s.type
  | .A => fetchFar c
  | _ => Fetch.ofOption (c.named a s)

/-- The operands of a form, in order. -/
def fetchOperands (c : OperandContext) (a : Addressing) : List OperandSpec → Fetch (List Operand)
  | [] => pure []
  | s :: rest => do
    let o ← fetchOperand c a s
    return o :: (← fetchOperands c a rest)

end Disasm
