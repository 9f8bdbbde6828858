import Disasm.Decode
import Mathlib

/-!
# The shape of an encoding

An instruction is encoded as prefixes, an opcode with its escape bytes, a ModRM byte, a SIB byte
with a displacement, and the fields of its operands. This module says how long each part is and
when the parts fit together, from the bytes alone and without reading them in order. Bytes that
are missing count as 0; whether they are there is asked once, of the length of the whole.

* `prefixLength`, `opcodeLength`, `modrmLength`, `addressingLength`, `fieldsLength` — the parts.
* `length` — the whole, for the form that the opcode has.
* `Form.Admits` — which ModRM bytes a form allows.
-/

namespace Disasm

/-! ## Operands -/

/-- How many bytes of its own an operand has. -/
def OperandSpec.fieldLength (s : OperandSpec) (operation : DataSize) (address : AddressSize) :
    Nat :=
  match s.method, s.type with
  | .I, .b | .I, .bs => 1
  | .I, .w => 2
  | .I, .z => if operation = .word then 2 else 4
  | .I, .v => if operation = .word then 2 else if operation = .qword then 8 else 4
  | .J, .b => 1
  | .J, _ => if operation = .word then 2 else 4
  | .O, _ => address.bits / 8
  | .A, _ => if operation = .word then 2 + 2 else 4 + 2
  | _, _ => 0

/-- Whether ModRM names what an operand needs: memory, a register, or a segment register that
exists. -/
def OperandSpec.Admits (s : OperandSpec) (m : ModRM) : Prop :=
  match s.method with
  | .M => m.mod.val ≠ 3
  | .N | .U | .X87 => m.mod.val = 3
  | .S => m.reg.val < 6
  | _ => True

instance (s : OperandSpec) (m : ModRM) : Decidable (s.Admits m) := by
  unfold OperandSpec.Admits
  split <;> infer_instance

/-- Whether ModRM names what every operand needs. -/
def Form.Admits (f : Form) (m : ModRM) : Prop := ∀ s ∈ f.operands, s.Admits m

instance (f : Form) (m : ModRM) : Decidable (f.Admits m) :=
  inferInstanceAs (Decidable (∀ s ∈ f.operands, s.Admits m))

/-! ## Addresses -/

/-- How many bytes follow a ModRM byte that names memory: a SIB byte and a displacement. -/
def AddressSize.memoryLength (size : AddressSize) (m : ModRM) (sib : SIB) : Nat :=
  match size with
  | .a16 =>
    if m.mod.val = 0 then (if m.rm.val = 6 then 2 else 0)
    else if m.mod.val = 1 then 1
    else 2
  | .a32 | .a64 =>
    (if m.rm.val = 4 then 1 else 0) +
      if m.mod.val = 0 then (if m.rm.val = 5 ∨ m.rm.val = 4 ∧ sib.base.val = 5 then 4 else 0)
      else if m.mod.val = 1 then 1
      else 4

/-! ## The parts -/

namespace Encoding

/-- The byte at a place. -/
def byteAt (bytes : List UInt8) (k : Nat) : UInt8 := bytes.getD k 0

/-- ModRM: the two highest bits of a byte, the three below them and the three lowest. -/
def modrmOf (b : UInt8) : ModRM where
  mod := ⟨b.toNat / 64 % 4, Nat.mod_lt _ (by decide)⟩
  reg := ⟨b.toNat / 8 % 8, Nat.mod_lt _ (by decide)⟩
  rm := ⟨b.toNat % 8, Nat.mod_lt _ (by decide)⟩

/-- A SIB byte, which has fields of the same widths. -/
def sibOf (b : UInt8) : SIB where
  scale := ⟨b.toNat / 64 % 4, Nat.mod_lt _ (by decide)⟩
  index := ⟨b.toNat / 8 % 8, Nat.mod_lt _ (by decide)⟩
  base := ⟨b.toNat % 8, Nat.mod_lt _ (by decide)⟩

theorem modrm_ofByte (b : UInt8) : ModRM.ofByte b = modrmOf b := rfl

theorem sib_ofByte (b : UInt8) : SIB.ofByte b = sibOf b := rfl

variable (mode : Mode) (bytes : List UInt8)

def prefixes : Prefixes := (Prefixes.scan mode bytes 0).1

def prefixLength : Nat := (Prefixes.scan mode bytes 0).2.1

/-- The first byte after the prefixes. -/
def firstByte : UInt8 := byteAt bytes (prefixLength mode bytes)

def secondByte : UInt8 := byteAt bytes (prefixLength mode bytes + 1)

def thirdByte : UInt8 := byteAt bytes (prefixLength mode bytes + 2)

/-- One byte, or two after 0F, or three after 0F 38 and 0F 3A. -/
def opcodeLength : Nat :=
  if firstByte mode bytes ≠ 0x0f then 1
  else if secondByte mode bytes = 0x38 ∨ secondByte mode bytes = 0x3a then 3
  else 2

def opcode : Opcode :=
  if firstByte mode bytes ≠ 0x0f then
    ⟨if 0xd8 ≤ firstByte mode bytes ∧ firstByte mode bytes ≤ 0xdf then .x87 else .oneByte,
      firstByte mode bytes⟩
  else if secondByte mode bytes = 0x38 then ⟨.threeByte38, thirdByte mode bytes⟩
  else if secondByte mode bytes = 0x3a then ⟨.threeByte3A, thirdByte mode bytes⟩
  else ⟨.twoByte, secondByte mode bytes⟩

def selector : Selector := (opcode mode bytes).selector (prefixes mode bytes)

def hasModRM : Bool := (opcode mode bytes).hasModRM (selector mode bytes)

def modrmLength : Nat := if hasModRM mode bytes then 1 else 0

/-- The ModRM byte, where the opcode has one. -/
def modrm? : Option ModRM :=
  if hasModRM mode bytes then
    some (modrmOf (byteAt bytes (prefixLength mode bytes + opcodeLength mode bytes)))
  else none

/-- The ModRM byte; all its fields are 0 where the opcode has none. -/
def modrm : ModRM := (modrm? mode bytes).getD default

/-- The byte after ModRM, as a SIB byte. -/
def sib : SIB := sibOf (byteAt bytes (prefixLength mode bytes + opcodeLength mode bytes + 1))

/-- The form of the opcode, if it has one. -/
def form? : Option Form :=
  (opcode mode bytes).lookup (modrm mode bytes) (selector mode bytes) mode

/-- 66 asks for another operation size, unless it selected the form. -/
def OverridesSize (f : Form) : Prop :=
  (prefixes mode bytes).operandSize ∧
    ¬ (f.flags.prefixSelected ∧ selector mode bytes = .operandSize)

instance (f : Form) : Decidable (OverridesSize mode bytes f) :=
  inferInstanceAs (Decidable (_ ∧ _))

/-- The operation size of the form. It is 16 bits in 16-bit mode and 32 bits elsewhere, and 66 asks
for the other of the two. In 64-bit mode it is 64 bits with REX.W and for forms that have no other
size, and, where 66 asks for nothing, for forms that have this size by default. -/
def operationSize (f : Form) : DataSize :=
  if mode = .m64 ∧ ((prefixes mode bytes).rex.w ∨ f.flags.force64) then .qword
  else if OverridesSize mode bytes f then if mode = .m16 then .dword else .word
  else if mode = .m16 then .word
  else if mode = .m64 ∧ f.flags.default64 then .qword
  else .dword

/-- The width of addresses. Each mode has its own, and 67 asks for another. -/
def addressSize : AddressSize :=
  match mode with
  | .m16 => if (prefixes mode bytes).addressSize then .a32 else .a16
  | .m32 => if (prefixes mode bytes).addressSize then .a16 else .a32
  | .m64 => if (prefixes mode bytes).addressSize then .a32 else .a64

/-- A SIB byte and a displacement follow where ModRM names memory. -/
def addressingLength (f : Form) : Nat :=
  if hasModRM mode bytes ∧ (modrm mode bytes).mod.val ≠ 3 ∧ f.registerOnly = false then
    (addressSize mode bytes).memoryLength (modrm mode bytes) (sib mode bytes)
  else 0

/-- The fields of all operands. -/
def fieldsLength (f : Form) : Nat :=
  (f.operands.map
    (·.fieldLength (operationSize mode bytes f) (addressSize mode bytes))).sum

/-- An encoding from its first prefix to its last field. -/
def length (f : Form) : Nat :=
  prefixLength mode bytes + opcodeLength mode bytes + modrmLength mode bytes +
    addressingLength mode bytes f + fieldsLength mode bytes f

/-- Operands are read for the address size that the encoding says. -/
theorem addressSize_ofForm (f : Form) :
    (OperandContext.ofForm mode (prefixes mode bytes) (opcode mode bytes) f).addressSize =
      addressSize mode bytes := by
  show mode.addressSize (prefixes mode bytes).addressSize = _
  unfold Mode.addressSize addressSize
  cases mode with
  | m16 | m32 | m64 => cases (prefixes _ bytes).addressSize <;> rfl

/-- Operands are read for the operation size that the encoding says. -/
theorem operationSize_ofForm (f : Form) :
    (OperandContext.ofForm mode (prefixes mode bytes) (opcode mode bytes) f).operationSize =
      operationSize mode bytes f := by
  have hoverride : f.sizeOverride (prefixes mode bytes) (selector mode bytes) ↔
      OverridesSize mode bytes f := by
    rw [Form.sizeOverride, OverridesSize, Bool.and_eq_true, Bool.not_eq_true', ← Bool.not_eq_true,
      Bool.and_eq_true, decide_eq_true_eq]
  show f.operationSize (prefixes mode bytes)
    (f.sizeOverride (prefixes mode bytes) (selector mode bytes)) mode = _
  unfold Form.operationSize operationSize
  cases mode with
  | m16 => simp [hoverride]
  | m32 => simp [hoverride]
  | m64 => simp [hoverride, or_comm]

end Encoding

end Disasm
