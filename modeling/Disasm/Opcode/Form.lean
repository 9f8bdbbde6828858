import Disasm.Mnemonic
import Disasm.Prefixes

/-!
# Instruction forms and opcode trees

* `Form` — a mnemonic, where each of its operands is encoded, and the mode rules it follows.
* `ModRM` — the byte that names a register and a register or a place in memory.
* `Entry` — one place of an opcode map: a tree that the selecting prefix, the mode and the fields
  of ModRM lead through to a form. `Entry.forms` lists the leaves, so that what holds of every
  form is checked over a list.
-/

namespace Disasm

/-- Where an operand is encoded; the letters are those of the processor manuals' opcode maps. -/
inductive AddressingMethod
  | none
  /-- A general-purpose register named by the form. -/
  | fixed
  /-- A segment register named by the form. -/
  | fixedSegment
  /-- An x87 stack register named by the form. -/
  | fixedX87
  /-- An XMM register named by the form; the mask of the variable blends. -/
  | fixedXMM
  /-- The constant 1, as in a shift by one. -/
  | one
  /-- A general-purpose register in the opcode's low three bits. -/
  | opcode
  /-- ModRM.rm: general-purpose register or memory. -/
  | E
  /-- ModRM.reg: general-purpose register. -/
  | G
  /-- ModRM.rm: memory only. -/
  | M
  /-- ModRM.rm: general-purpose register, whatever ModRM.mod is. -/
  | R
  /-- ModRM.reg: segment register. -/
  | S
  /-- ModRM.reg: control register. -/
  | C
  /-- ModRM.reg: debug register. -/
  | D
  /-- ModRM.reg: MMX register. -/
  | P
  /-- ModRM.rm: MMX register or memory. -/
  | Q
  /-- ModRM.rm: MMX register only. -/
  | N
  /-- ModRM.reg: XMM register. -/
  | V
  /-- ModRM.rm: XMM register or memory. -/
  | W
  /-- ModRM.rm: XMM register only. -/
  | U
  /-- ModRM.rm: x87 stack register. -/
  | X87
  /-- An immediate. -/
  | I
  /-- A displacement from the next instruction. -/
  | J
  /-- An absolute offset of the address size, without ModRM. -/
  | O
  /-- An immediate far pointer. -/
  | A
deriving DecidableEq, Inhabited

/-- How large an operand is. -/
inductive OperandType
  | none
  /-- A byte. -/
  | b
  /-- A byte, sign extended to the operation size. -/
  | bs
  /-- A word. -/
  | w
  /-- A doubleword. -/
  | d
  /-- A quadword. -/
  | q
  /-- The operation size. -/
  | v
  /-- A word for 16-bit operations, else a doubleword. -/
  | z
  /-- A quadword for 64-bit operations, else a doubleword. -/
  | y
  /-- A double quadword. -/
  | dq
  /-- A far pointer: 16:16, 16:32 or 16:64. -/
  | p
  /-- A pair of words or doublewords, for BOUND. -/
  | a
  /-- A six-byte descriptor-table image. -/
  | s
  /-- A ten-byte coprocessor value. -/
  | t
  /-- Memory of no particular size. -/
  | m
  /-- A word in memory, the operation size in a register. -/
  | wv
  /-- A byte in memory, a doubleword in a register. -/
  | bd
  /-- A word in memory, a doubleword in a register. -/
  | wd
deriving DecidableEq, Inhabited

/-- An operand of a form; `number` matters only to the methods that name a register by it. -/
structure OperandSpec where
  method : AddressingMethod
  type : OperandType
  number : Nat := 0
deriving DecidableEq, Inhabited

/-- The rules of a form that depend on the mode and on the prefixes. -/
structure FormFlags where
  /-- In 64-bit mode the operation has 64 bits unless 66 says otherwise. -/
  default64 : Bool := false
  /-- In 64-bit mode the operation always has 64 bits. -/
  force64 : Bool := false
  /-- Undefined in 64-bit mode. -/
  invalid64 : Bool := false
  /-- Defined only in 64-bit mode. -/
  only64 : Bool := false
  /-- The selecting prefix chose this form and means nothing else. -/
  prefixSelected : Bool := false
deriving DecidableEq, Inhabited

/-- An instruction form. -/
structure Form where
  mnemonic : Mnemonic
  operands : List OperandSpec := []
  flags : FormFlags := {}
deriving DecidableEq, Inhabited

namespace AddressingMethod

/-- Whether the operand is encoded in the ModRM byte. -/
def usesModRM : AddressingMethod → Bool
  | E | G | M | R | S | C | D | P | Q | N | V | W | U | X87 => true
  | _ => false

end AddressingMethod

namespace Form

def usesModRM (f : Form) : Bool := f.operands.any (·.method.usesModRM)

/-- Whether an operand takes ModRM.rm as a register even where ModRM.mod says memory. -/
def registerOnly (f : Form) : Bool := f.operands.any (·.method = .R)

/-- Whether the form exists in a mode. -/
def definedIn (f : Form) (mode : Mode) : Bool :=
  if mode = .m64 then !f.flags.invalid64 else !f.flags.only64

/-- The form, marked as chosen by a prefix. -/
def selected (f : Form) : Form := { f with flags := { f.flags with prefixSelected := true } }

end Form

/-! ## ModRM -/

/-- The fields of a ModRM byte. -/
structure ModRM where
  mod : Fin 4
  reg : Fin 8
  rm : Fin 8
deriving DecidableEq, Inhabited

namespace ModRM

def ofByte (b : UInt8) : ModRM where
  mod := low2 (b.toNat / 64)
  reg := low3 (b.toNat / 8)
  rm := low3 b.toNat

/-- Whether `rm` names a register. -/
def isRegister (m : ModRM) : Bool := m.mod = 3

/-- The byte with `rm` taken as a register. -/
def asRegister (m : ModRM) : ModRM := { m with mod := 3 }

end ModRM

/-! ## Opcode trees -/

/-- One place of an opcode map. -/
inductive Entry
  | undefined
  | form (f : Form)
  /-- By the selecting prefix. -/
  | bySelector (none operandSize rep repne : Entry)
  /-- By the mode: 16- and 32-bit modes, or 64-bit mode. -/
  | byMode (legacy long : Entry)
  /-- By ModRM.mod: memory or register. -/
  | byMod (memory register : Entry)
  /-- By ModRM.reg. -/
  | byReg (r0 r1 r2 r3 r4 r5 r6 r7 : Entry)
  /-- By ModRM.rm. -/
  | byRM (r0 r1 r2 r3 r4 r5 r6 r7 : Entry)
deriving Inhabited

namespace Entry

/-- One of eight, by number. -/
def pick {α : Type} (n : Fin 8) (a0 a1 a2 a3 a4 a5 a6 a7 : α) : α :=
  match n with
  | 0 => a0
  | 1 => a1
  | 2 => a2
  | 3 => a3
  | 4 => a4
  | 5 => a5
  | 6 => a6
  | 7 => a7

/-- The form that prefix, mode and ModRM lead to, if any. -/
def resolve (s : Selector) (mode : Mode) (m : ModRM) : Entry → Option Form
  | undefined => none
  | form f => some f
  | bySelector a b c d =>
    match s with
    | .none => a.resolve s mode m
    | .operandSize => b.resolve s mode m
    | .rep => c.resolve s mode m
    | .repne => d.resolve s mode m
  | byMode legacy long => if mode = .m64 then long.resolve s mode m else legacy.resolve s mode m
  | byMod memory register =>
    if m.isRegister then register.resolve s mode m else memory.resolve s mode m
  | byReg r0 r1 r2 r3 r4 r5 r6 r7 =>
    pick m.reg (r0.resolve s mode m) (r1.resolve s mode m) (r2.resolve s mode m)
      (r3.resolve s mode m) (r4.resolve s mode m) (r5.resolve s mode m) (r6.resolve s mode m)
      (r7.resolve s mode m)
  | byRM r0 r1 r2 r3 r4 r5 r6 r7 =>
    pick m.rm (r0.resolve s mode m) (r1.resolve s mode m) (r2.resolve s mode m)
      (r3.resolve s mode m) (r4.resolve s mode m) (r5.resolve s mode m) (r6.resolve s mode m)
      (r7.resolve s mode m)

/-- Whether the opcode is followed by a ModRM byte, given the selecting prefix. A tree that asks
for a field of ModRM has one whatever it leads to. -/
def hasModRM (s : Selector) : Entry → Bool
  | undefined => false
  | form f => f.usesModRM
  | bySelector a b c d =>
    match s with
    | .none => a.hasModRM s
    | .operandSize => b.hasModRM s
    | .rep => c.hasModRM s
    | .repne => d.hasModRM s
  | byMode legacy long => legacy.hasModRM s || long.hasModRM s
  | byMod _ _ => true
  | byReg _ _ _ _ _ _ _ _ => true
  | byRM _ _ _ _ _ _ _ _ => true

/-- Every form in the tree. -/
def forms : Entry → List Form
  | undefined => []
  | form f => [f]
  | bySelector a b c d => a.forms ++ b.forms ++ c.forms ++ d.forms
  | byMode legacy long => legacy.forms ++ long.forms
  | byMod memory register => memory.forms ++ register.forms
  | byReg r0 r1 r2 r3 r4 r5 r6 r7 =>
    r0.forms ++ r1.forms ++ r2.forms ++ r3.forms ++ r4.forms ++ r5.forms ++ r6.forms ++ r7.forms
  | byRM r0 r1 r2 r3 r4 r5 r6 r7 =>
    r0.forms ++ r1.forms ++ r2.forms ++ r3.forms ++ r4.forms ++ r5.forms ++ r6.forms ++ r7.forms

/-- What a tree leads to is one of its leaves. -/
theorem mem_forms_of_resolve {s : Selector} {mode : Mode} {m : ModRM} {e : Entry} {f : Form}
    (h : e.resolve s mode m = some f) : f ∈ e.forms := by
  induction e with
  | undefined => cases h
  | form g =>
    cases h
    simp [forms]
  | bySelector a b c d iha ihb ihc ihd =>
    cases s <;> simp only [resolve] at h <;> simp [forms, iha, ihb, ihc, ihd, h]
  | byMode legacy long ihl ihr =>
    simp only [resolve] at h
    split at h <;> simp [forms, ihl, ihr, h]
  | byMod memory register ihm ihr =>
    simp only [resolve] at h
    split at h <;> simp [forms, ihm, ihr, h]
  | byReg r0 r1 r2 r3 r4 r5 r6 r7 h0 h1 h2 h3 h4 h5 h6 h7 =>
    simp only [resolve, pick] at h
    split at h <;> simp [forms, h0, h1, h2, h3, h4, h5, h6, h7, h]
  | byRM r0 r1 r2 r3 r4 r5 r6 r7 h0 h1 h2 h3 h4 h5 h6 h7 =>
    simp only [resolve, pick] at h
    split at h <;> simp [forms, h0, h1, h2, h3, h4, h5, h6, h7, h]

end Entry

end Disasm
