import Disasm.Mode
import Disasm.Register

/-!
# Prefixes

An instruction may start with legacy prefixes in any order and, in 64-bit mode, with a REX byte
that counts only if nothing but the opcode follows it. `Prefixes.run` is the run of such bytes at
the start of a buffer, never more than 14, and `Prefixes.ofRun` is what the run means: each legacy
prefix is recorded, the last of several segment overrides and the last of several F2 and F3 count,
and a legacy prefix discards a REX before it.
-/

namespace Disasm

/-- F3 asks for `rep` or `repe`, F2 for `repne`. -/
inductive Repetition
  | none | rep | repne
deriving DecidableEq, Inhabited

/-- The bits of a REX prefix: 64-bit operands, and a fourth bit for each of three register
fields. -/
structure Rex where
  present : Bool := false
  w : Bool := false
  r : Bool := false
  x : Bool := false
  b : Bool := false
deriving DecidableEq, Inhabited

/-- What the prefixes before an opcode ask for. -/
structure Prefixes where
  lock : Bool := false
  repetition : Repetition := .none
  segment : Option Register := none
  operandSize : Bool := false
  addressSize : Bool := false
  rex : Rex := {}
deriving DecidableEq, Inhabited

/-- The prefix that tells forms of one opcode apart in the two- and three-byte maps. -/
inductive Selector
  | none | operandSize | rep | repne
deriving DecidableEq, Inhabited

/-- The REX prefix with this byte's four low bits. -/
def Rex.ofByte (b : UInt8) : Rex where
  present := true
  w := b.toNat.testBit 3
  r := b.toNat.testBit 2
  x := b.toNat.testBit 1
  b := b.toNat.testBit 0

namespace Prefixes

/-- The most prefix bytes that an instruction can have. -/
def maxLength : Nat := 14

/-- The segment that a byte overrides with, if it is such a prefix. -/
def segmentOverride? (b : UInt8) : Option Segment :=
  if b = 0x26 then some .es
  else if b = 0x2e then some .cs
  else if b = 0x36 then some .ss
  else if b = 0x3e then some .ds
  else if b = 0x64 then some .fs
  else if b = 0x65 then some .gs
  else none

/-- The repetition that a byte asks for, if it is such a prefix. -/
def repetition? (b : UInt8) : Option Repetition :=
  if b = 0xf3 then some .rep
  else if b = 0xf2 then some .repne
  else none

def isLegacy (b : UInt8) : Bool :=
  b = 0x66 ∨ b = 0x67 ∨ b = 0xf0 ∨ (repetition? b).isSome ∨ (segmentOverride? b).isSome

/-- The bytes 40 to 4F are REX prefixes in 64-bit mode and instructions elsewhere. -/
def isRex (mode : Mode) (b : UInt8) : Bool := mode = .m64 ∧ b.toNat / 16 = 4

def isPrefix (mode : Mode) (b : UInt8) : Bool := isRex mode b || isLegacy b

/-- The effect of one more prefix byte. -/
def step (mode : Mode) (p : Prefixes) (b : UInt8) : Prefixes :=
  if isRex mode b then { p with rex := Rex.ofByte b }
  else
    { lock := p.lock || b = 0xf0
      repetition := (repetition? b).getD p.repetition
      segment := ((segmentOverride? b).map Register.segment).or p.segment
      operandSize := p.operandSize || b = 0x66
      addressSize := p.addressSize || b = 0x67
      rex := {} }

/-- The prefix bytes that `bytes` start with, at most `maxLength` of them. -/
def run (mode : Mode) (bytes : List UInt8) : List UInt8 :=
  (bytes.take maxLength).takeWhile (isPrefix mode)

/-- What a run of prefix bytes asks for. -/
def ofRun (mode : Mode) (run : List UInt8) : Prefixes := run.foldl (step mode) {}

/-- The prefix that selects a form: the last F2 or F3 if there is one, else 66. -/
def selector (p : Prefixes) : Selector :=
  match p.repetition with
  | .rep => .rep
  | .repne => .repne
  | .none => if p.operandSize then .operandSize else .none

/-- The prefixes at `cursor`, how many bytes they take and where the bytes after them start. A
cursor at or past the end finds none. -/
def scan (mode : Mode) (bytes : List UInt8) (cursor : Nat) : Prefixes × Nat × Nat :=
  let found := run mode (bytes.drop cursor)
  (ofRun mode found, found.length, cursor + found.length)

end Prefixes

end Disasm
