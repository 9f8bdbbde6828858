import Disasm.Opcode.OneByte
import Disasm.Opcode.ThreeByte
import Disasm.Opcode.TwoByte

/-!
# Looking up opcodes

An opcode's escape says which map it belongs to. `hasModRM` tells, before any ModRM byte is read,
whether one follows; `lookup` then finds the form, if the mode has one.
-/

namespace Disasm

/-- The bytes before an opcode that choose its map. The coprocessor's opcodes have none, but a map
of their own within the one-byte map. -/
inductive Escape
  | oneByte | twoByte | threeByte38 | threeByte3A | x87
deriving DecidableEq, Inhabited

namespace OpcodeMap

/-- Whether an opcode without escape bytes is one of the coprocessor's. -/
def isX87 (opcode : UInt8) : Bool := opcode.toNat / 8 = 0xd8 / 8

/-- The place of an opcode in its map. -/
def entry (escape : Escape) (opcode : UInt8) : Entry :=
  match escape with
  | .oneByte => oneByteMap.getD opcode.toNat .undefined
  | .twoByte => twoByteMap.getD opcode.toNat .undefined
  | .threeByte38 => (map38.lookup opcode).getD .undefined
  | .threeByte3A => (map3A.lookup opcode).getD .undefined
  | .x87 => if isX87 opcode then x87Map.getD (opcode.toNat % 8) .undefined else .undefined

/-- Whether a ModRM byte follows the opcode. Undefined opcodes have none; whatever the
coprocessor's escape leads to has one. -/
def hasModRM (escape : Escape) (opcode : UInt8) (s : Selector) : Bool :=
  escape = .x87 || (entry escape opcode).hasModRM s

/-- The form of an opcode in a mode, if there is one. ModRM matters only where `hasModRM`. -/
def lookup (escape : Escape) (opcode : UInt8) (m : ModRM) (s : Selector) (mode : Mode) :
    Option Form :=
  ((entry escape opcode).resolve s mode m).filter (·.definedIn mode)

/-- The form in 64-bit mode without a selecting prefix, for a memory operand and this
ModRM.reg. -/
def lookupPlain (escape : Escape) (opcode : UInt8) (reg : Fin 8) : Option Form :=
  lookup escape opcode { (default : ModRM) with reg } .none .m64

end OpcodeMap

end Disasm
