import Disasm.Text.Hex
import Disasm.Text.StringForm

/-!
# Intel syntax

Destination first, constants with an `h`, and the size of every access spelled out before the
brackets. Far calls and jumps print under the names of the near ones.
-/

namespace Disasm.Intel

/-- The words before a memory operand of this size. -/
def sizeText : DataSize → String
  | .byte => "byte ptr "
  | .word => "word ptr "
  | .dword => "dword ptr "
  | .fword => "fword ptr "
  | .qword => "qword ptr "
  | .tbyte => "tbyte ptr "
  | .dqword => "xmmword ptr "
  | .none => ""

def register (r : Option Register) : String := (r.map Register.name).getD ""

/-- A displacement after registers: nothing where it is zero, else its sign and magnitude. -/
def displacement (d : Int) : String :=
  if 0 < d then "+" ++ Hex.constant d.natAbs
  else if d < 0 then "-" ++ Hex.constant d.natAbs
  else ""

/-- The registers of an address: base, plus sign, index and its scale where it is more than 1. -/
def registers (m : Memory) : String :=
  let base := register m.base
  match m.index with
  | none => base
  | some index =>
    (if m.base.isSome then base ++ "+" else "") ++ index.name ++
      (if 1 < m.scale then "*" ++ toString m.scale else "")

/-- A memory operand. An address that is known is printed itself, whatever it is computed from. -/
def memory (i : Instruction) (m : Memory) : String :=
  sizeText m.size ++
  (match m.segment with
    | some s => s.name ++ ":"
    | none => "") ++
  "[" ++
  (match i.memoryTarget m with
    | some target => Hex.constant target.toNat
    | none => registers m ++ displacement m.displacement) ++
  "]"

def operand (i : Instruction) : Operand → String
  | .register r => register r
  | .memory m => memory i m
  | .immediate v => Hex.constant (v.size.truncate (UInt64.ofInt v.value)).toNat
  | .relative r => Hex.constant (i.relativeTarget r).toNat
  | .far p => "far ptr " ++ Hex.constant p.selector ++ ":" ++ Hex.constant p.offset

/-- The name of the operation. -/
def name (i : Instruction) : String :=
  match i.stringForm? with
  | some f => f.family
  | none =>
    if i.mnemonic = .CALLF then "call"
    else if i.mnemonic = .JMPF then "jmp"
    else i.mnemonic.name

/-- Operands after a name: a space, then commas with spaces between them. -/
def operands (i : Instruction) : String :=
  let os := i.shownOperands.map (operand i)
  if os.isEmpty then "" else " " ++ ", ".intercalate os

/-- A valid instruction. -/
def text (i : Instruction) : String := i.prefixText ++ name i ++ operands i

end Disasm.Intel
