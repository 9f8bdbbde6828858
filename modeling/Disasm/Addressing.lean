import Disasm.Opcode.Form
import Disasm.Operand
import Disasm.Reader

/-!
# Addresses from ModRM

A ModRM byte that does not name a register describes an address: which registers take part in it,
and how wide the displacement is that follows. In 32- and 64-bit addressing a register field of 4
stands for a SIB byte that names base, index and scale.

* `AddressForm` — the description, before the displacement is read.
* `AddressForm.ofModRM` — the tables of 16-bit, and of 32- and 64-bit addressing.
* `fetchMemory` — reads what follows ModRM; `Addressing` keeps its outcome for the operands.
-/

namespace Disasm

/-- What the meaning of an operand depends on, besides its own bytes. -/
structure OperandContext where
  mode : Mode := .m64
  prefixes : Prefixes := {}
  operationSize : DataSize := .dword
  addressSize : AddressSize := .a64
  opcode : UInt8 := 0
deriving DecidableEq, Inhabited

/-- The fields of a SIB byte. -/
structure SIB where
  scale : Fin 4
  index : Fin 8
  base : Fin 8
deriving DecidableEq, Inhabited

/-- The registers of an address and the width in bytes of the displacement that is added. -/
structure AddressForm where
  base : Option Register := none
  index : Option Register := none
  scale : Nat := 1
  ripRelative : Bool := false
  displacementWidth : Nat := 0
deriving DecidableEq, Inhabited

def SIB.ofByte (b : UInt8) : SIB where
  scale := low2 (b.toNat / 64)
  index := low3 (b.toNat / 8)
  base := low3 b.toNat

/-- A three-bit register field with a fourth bit from REX. -/
def extend (high : Bool) (n : Fin 8) : Fin 16 :=
  ⟨if high then n.val + 8 else n.val, by split <;> omega⟩

namespace OperandContext

/-- The register that holds part of an address. -/
def addressRegister (c : OperandContext) (n : Fin 16) : Option Register :=
  Register.gpr n (if c.addressSize = .a64 then .qword else .dword) false

/-- The segment that an address is overridden with. In 64-bit mode only FS and GS are. -/
def segmentOverride (c : OperandContext) : Option Register :=
  if c.mode = .m64 ∧ c.prefixes.segment ≠ some (.segment .fs) ∧
      c.prefixes.segment ≠ some (.segment .gs) then none
  else c.prefixes.segment

/-- Whether a SIB byte follows ModRM. -/
def hasSIB (c : OperandContext) (m : ModRM) : Bool :=
  c.addressSize ≠ .a16 ∧ !m.isRegister ∧ m.rm.val = 4

end OperandContext

namespace AddressForm

/-- 16-bit addressing: base and index for each ModRM.rm. -/
def registers16 (rm : Fin 8) : Option Register × Option Register :=
  let bx := some Register.bx
  let bp := some Register.bp
  let si := some Register.si
  let di := some Register.di
  Entry.pick rm (bx, si) (bx, di) (bp, si) (bp, di) (si, none) (di, none) (bp, none) (bx, none)

/-- 16-bit addressing. In place of BP alone without a displacement there is a bare offset. -/
def ofModRM16 (m : ModRM) : AddressForm :=
  if m.mod.val = 0 ∧ m.rm.val = 6 then { displacementWidth := 2 }
  else
    { base := (registers16 m.rm).1
      index := (registers16 m.rm).2
      displacementWidth := if m.mod.val = 1 then 1 else if m.mod.val = 2 then 2 else 0 }

/-- The width of the displacement that ModRM.mod asks for in 32- and 64-bit addressing. -/
def width32 (m : ModRM) : Nat := if m.mod.val = 1 then 1 else if m.mod.val = 2 then 4 else 0

/-- Addressing through a SIB byte. Index 4 means none; base 5 without a displacement means a bare
offset. The fourth bits of REX count for the index but not for that base. -/
def ofSIB (c : OperandContext) (m : ModRM) (s : SIB) : AddressForm :=
  let index := extend c.prefixes.rex.x s.index
  let bare := s.base.val = 5 ∧ m.mod.val = 0
  { base := if bare then none else c.addressRegister (extend c.prefixes.rex.b s.base)
    index := if index.val = 4 then none else c.addressRegister index
    scale := if index.val = 4 then 1 else 1 <<< s.scale.val
    displacementWidth := if bare then 4 else width32 m }

/-- 32- and 64-bit addressing without SIB. In place of BP without a displacement there is a bare
offset, which 64-bit mode counts from the next instruction. -/
def ofModRM32 (c : OperandContext) (m : ModRM) : AddressForm :=
  if m.rm.val = 5 ∧ m.mod.val = 0 then
    if c.mode = .m64 then
      { base := some (.ip c.addressSize), ripRelative := true, displacementWidth := 4 }
    else { displacementWidth := 4 }
  else
    { base := c.addressRegister (extend c.prefixes.rex.b m.rm), displacementWidth := width32 m }

/-- The address that ModRM, and SIB if there is one, describe. -/
def ofModRM (c : OperandContext) (m : ModRM) (s : Option SIB) : AddressForm :=
  if c.addressSize = .a16 then ofModRM16 m
  else
    match s with
    | some s => ofSIB c m s
    | none => ofModRM32 c m

/-- The place in memory, once the displacement is known. -/
def toMemory (f : AddressForm) (c : OperandContext) (displacement : Int) : Memory :=
  { base := f.base
    index := f.index
    scale := f.scale
    displacement
    segment := c.segmentOverride
    addressSize := c.addressSize
    ripRelative := f.ripRelative }

end AddressForm

/-! ## Reading -/

/-- The SIB byte, where ModRM calls for one. -/
def fetchSIB (c : OperandContext) (m : ModRM) : Fetch (Option SIB) :=
  if c.hasSIB m then do return some (SIB.ofByte (← Fetch.byte))
  else pure none

/-- A signed displacement of this width; without one it is 0. -/
def fetchDisplacement (width : Nat) : Fetch Int :=
  if width = 0 then pure 0 else Fetch.signed width

/-- The place in memory that ModRM describes, reading what follows it. -/
def fetchMemory (c : OperandContext) (m : ModRM) : Fetch Memory := do
  let f := AddressForm.ofModRM c m (← fetchSIB c m)
  return f.toMemory c (← fetchDisplacement f.displacementWidth)

/-- What is known of a place in memory whose bytes run out: without its SIB byte nothing but its
address size and segment, without its displacement everything else. -/
def knownMemory (c : OperandContext) (m : ModRM) (r : Reader) : Memory :=
  match fetchSIB c m r with
  | (some s, _) => (AddressForm.ofModRM c m s).toMemory c 0
  | (none, _) => AddressForm.toMemory {} c 0

/-- What ModRM has described so far: its fields, once it was read, and the place in memory that the
last of them to describe one named. -/
structure Addressing where
  modrm : Option ModRM := none
  memory : Memory := {}
deriving DecidableEq, Inhabited

/-- Takes a ModRM byte and reads what follows it; tells also whether it was all there. A ModRM that
names a register leaves the place in memory as it was. -/
def Addressing.describe (a : Addressing) (c : OperandContext) (m : ModRM) (r : Reader) :
    Addressing × Bool × Reader :=
  if m.isRegister then ({ a with modrm := some m }, true, r)
  else
    match fetchMemory c m r with
    | (some memory, r') => (⟨some m, memory⟩, true, r')
    | (none, r') => (⟨some m, knownMemory c m r⟩, false, r')

/-- The addressing of an instruction with this ModRM. -/
def fetchAddressing (c : OperandContext) (m : ModRM) : Fetch Addressing :=
  if m.isRegister then pure { modrm := some m }
  else do return { modrm := some m, memory := ← fetchMemory c m }

end Disasm
