import Disasm.Instruction
import Disasm.Opcode.Map
import Disasm.Operand.Fetch

/-!
# Decoding one instruction

An instruction is a run of prefixes, an opcode with its escape bytes, a ModRM byte if the opcode
has one, what ModRM describes, and the operands that have bytes of their own. All of it has to lie
in the first 15 bytes.

* `Opcode.fetch`, `fetchOperation` — reading the parts in order.
* `decode` — the record at the start of some bytes. Bytes that do not form an instruction give an
  invalid record for those looked at before that became apparent, and for one byte at least.
* `decodeAt` — the record at a place in a buffer.
-/

namespace Disasm

/-! ## The opcode -/

/-- An opcode and the map that it belongs to. -/
structure Opcode where
  escape : Escape
  byte : UInt8
deriving DecidableEq, Inhabited

namespace Opcode

/-- Reads what follows the escape byte 0F. -/
def fetchEscaped : Fetch Opcode := do
  let second ← Fetch.byte
  if second = 0x38 then return ⟨.threeByte38, ← Fetch.byte⟩
  else if second = 0x3a then return ⟨.threeByte3A, ← Fetch.byte⟩
  else return ⟨.twoByte, second⟩

/-- Reads an opcode with its escape bytes. -/
def fetch : Fetch Opcode := do
  let first ← Fetch.byte
  if first = 0x0f then fetchEscaped
  else return ⟨if OpcodeMap.isX87 first then .x87 else .oneByte, first⟩

/-- The prefix that selects among the forms of this opcode. Opcodes without an escape have none. -/
def selector (o : Opcode) (p : Prefixes) : Selector :=
  match o.escape with
  | .oneByte | .x87 => .none
  | _ => p.selector

def hasModRM (o : Opcode) (s : Selector) : Bool := OpcodeMap.hasModRM o.escape o.byte s

def lookup (o : Opcode) (m : ModRM) (s : Selector) (mode : Mode) : Option Form :=
  OpcodeMap.lookup o.escape o.byte m s mode

/-- An exchange of the accumulator with itself does nothing: opcode 90 is NOP, or PAUSE with F3,
unless REX names another register. -/
def rename (o : Opcode) (p : Prefixes) (f : Form) : Form :=
  if o.escape = .oneByte ∧ o.byte = 0x90 ∧ p.rex.b = false then
    { mnemonic := if p.repetition = .rep then .PAUSE else .NOP }
  else f

end Opcode

/-! ## Sizes and names -/

/-- The size of the operation that a form performs. -/
def Form.operationSize (f : Form) (p : Prefixes) (override : Bool) (mode : Mode) : DataSize :=
  match mode with
  | .m16 => if override then .dword else .word
  | .m32 => if override then .word else .dword
  | .m64 =>
    if f.flags.force64 || p.rex.w then .qword
    else if override then .word
    else if f.flags.default64 then .qword
    else .dword

/-- Whether 66 changes the operation size: not where it selected the form. -/
def Form.sizeOverride (f : Form) (p : Prefixes) (s : Selector) : Bool :=
  p.operandSize && !(f.flags.prefixSelected && s = .operandSize)

namespace Mnemonic

/-- Operations with a name for each operation size: word, doubleword and quadword. The maps hold the
first. -/
def sizedNames : List (Mnemonic × Mnemonic × Mnemonic) :=
  [(CBW, CWDE, CDQE), (CWD, CDQ, CQO),
   (MOVSW, MOVSD, MOVSQ), (CMPSW, CMPSD, CMPSQ), (STOSW, STOSD, STOSQ),
   (LODSW, LODSD, LODSQ), (SCASW, SCASD, SCASQ),
   (IRET, IRETD, IRETQ), (PUSHF, PUSHFD, PUSHFQ), (POPF, POPFD, POPFQ),
   (INSW, INSD, INSD), (OUTSW, OUTSD, OUTSD), (PUSHA, PUSHAD, PUSHAD), (POPA, POPAD, POPAD)]

/-- The name of an operation at a size. The jump on a zero counter is named after the address size,
which is its counter's. -/
def sized (m : Mnemonic) (size : DataSize) (addressSize : AddressSize) : Mnemonic :=
  if m = JCXZ then
    match addressSize with
    | .a16 => JCXZ
    | .a32 => JECXZ
    | .a64 => JRCXZ
  else
    match sizedNames.lookup m with
    | none => m
    | some (dword, qword) => if size = .word then m else if size = .qword then qword else dword

/-- Operations that REX.W gives another name. -/
def wideNames : List (Mnemonic × Mnemonic) :=
  [(MOVD, MOVQ), (PEXTRD, PEXTRQ), (PINSRD, PINSRQ), (CMPXCHG8B, CMPXCHG16B)]

/-- The name of an operation under REX.W, if `w`. -/
def widened (m : Mnemonic) (w : Bool) : Mnemonic := if w then (wideNames.lookup m).getD m else m

end Mnemonic

/-! ## Reading an instruction -/

/-- What the bytes of an instruction say, apart from where they stand. -/
structure Decoded where
  mnemonic : Mnemonic
  prefixes : Prefixes
  operationSize : DataSize
  addressSize : AddressSize
  operands : List Operand
deriving DecidableEq, Inhabited

/-- CMPXCHG16B works on 16 bytes of memory, which no operand type says. -/
def widenOperands (m : Mnemonic) : List Operand → List Operand
  | .memory p :: rest => if m = .CMPXCHG16B then .memory { p with size := .dqword } :: rest
    else .memory p :: rest
  | operands => operands

/-- The prefixes that still mean something: an F2 or F3 that selected the form, or made PAUSE of
NOP, does not. -/
def Prefixes.remaining (p : Prefixes) (f : Form) (s : Selector) (m : Mnemonic) : Prefixes :=
  if m = .PAUSE ∨ (f.flags.prefixSelected ∧ (s = .rep ∨ s = .repne)) then
    { p with repetition := .none }
  else p

/-- The ModRM byte, where the opcode has one. -/
def Opcode.fetchModRM (o : Opcode) (s : Selector) : Fetch (Option ModRM) :=
  if o.hasModRM s then do return some (ModRM.ofByte (← Fetch.byte)) else pure none

/-- What the operands of a form depend on, besides their own bytes. -/
def OperandContext.ofForm (mode : Mode) (p : Prefixes) (o : Opcode) (f : Form) :
    OperandContext where
  mode
  prefixes := p
  operationSize := f.operationSize p (f.sizeOverride p (o.selector p)) mode
  addressSize := mode.addressSize p.addressSize
  opcode := o.byte

/-- What the ModRM byte of a form describes, if it has one. -/
def Form.fetchAddressing (f : Form) (c : OperandContext) : Option ModRM → Fetch Addressing
  | none => pure {}
  | some m => Disasm.fetchAddressing c (if f.registerOnly then m.asRegister else m)

/-- Reads everything after the opcode. -/
def fetchOperation (mode : Mode) (p : Prefixes) (opcode : Opcode) : Fetch Decoded := do
  let selector := opcode.selector p
  let modrm ← opcode.fetchModRM selector
  let found ← Fetch.ofOption (opcode.lookup (modrm.getD default) selector mode)
  let form := opcode.rename p found
  let context := OperandContext.ofForm mode p opcode form
  let addressing ← form.fetchAddressing context modrm
  let operands ← fetchOperands context addressing form.operands
  let mnemonic := (form.mnemonic.sized context.operationSize context.addressSize).widened p.rex.w
  return {
    mnemonic
    prefixes := p.remaining form selector mnemonic
    operationSize := context.operationSize
    addressSize := context.addressSize
    operands := widenOperands mnemonic operands }

/-- Reads everything after the prefixes. -/
def fetchDecoded (mode : Mode) (p : Prefixes) : Fetch Decoded := do
  fetchOperation mode p (← Opcode.fetch)

/-! ## Records -/

/-- The record of `bytes` that say this, or that form no instruction. -/
def Instruction.ofDecoded (address : UInt64) (mode : Mode) (bytes : List UInt8) :
    Option Decoded → Instruction
  | some d =>
    d.operands.foldl push
      (ofBytes address mode bytes d.mnemonic d.prefixes d.operationSize d.addressSize)
  | none => invalid address mode bytes

/-- The bytes that an instruction may take. -/
def window (bytes : List UInt8) : List UInt8 := bytes.take Instruction.maxLength

/-- The record at the start of `bytes`, which stand at `address`. -/
def decode (mode : Mode) (address : UInt64) (bytes : List UInt8) : Instruction :=
  let bytes := window bytes
  let run := Prefixes.run mode bytes
  let (decoded, r) := fetchDecoded mode (Prefixes.ofRun mode run) ⟨bytes, run.length⟩
  Instruction.ofDecoded address mode (bytes.take (max 1 r.position)) decoded

/-- The record at `cursor` in a buffer. -/
def decodeAt (buffer : List UInt8) (cursor : Nat) (address : UInt64) (mode : Mode) :
    Except ConfigurationError Instruction :=
  if cursor < buffer.length then .ok (decode mode address (buffer.drop cursor))
  else .error .cursorOutOfRange

end Disasm
