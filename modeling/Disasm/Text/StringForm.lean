import Disasm.Instruction

/-!
# String operations and prefixes in text

A string operation has no operands of its own. Where a segment override is in force it is printed
with the operands that the override applies to: the source at SI in the overridden segment and, if
there is one, the destination at DI in ES. Operations that read nothing through SI have no such
form.

`Instruction.prefixWords` gives the words before the mnemonic: an override that no operand shows,
`lock`, and a repetition.
-/

namespace Disasm

/-- What a string operation does between memory at SI and another place. -/
inductive StringShape
  | move | compare | load | output
deriving DecidableEq, Inhabited

/-- The family and element size of a string operation. -/
structure StringForm where
  family : String
  shape : StringShape
  size : DataSize
deriving DecidableEq, Inhabited

namespace StringForm

/-- The string operations that read memory at SI. -/
def all : List (Mnemonic × StringForm) :=
  [(.MOVSB, ⟨"movs", .move, .byte⟩), (.MOVSW, ⟨"movs", .move, .word⟩),
   (.MOVSD, ⟨"movs", .move, .dword⟩), (.MOVSQ, ⟨"movs", .move, .qword⟩),
   (.CMPSB, ⟨"cmps", .compare, .byte⟩), (.CMPSW, ⟨"cmps", .compare, .word⟩),
   (.CMPSD, ⟨"cmps", .compare, .dword⟩), (.CMPSQ, ⟨"cmps", .compare, .qword⟩),
   (.LODSB, ⟨"lods", .load, .byte⟩), (.LODSW, ⟨"lods", .load, .word⟩),
   (.LODSD, ⟨"lods", .load, .dword⟩), (.LODSQ, ⟨"lods", .load, .qword⟩),
   (.OUTSB, ⟨"outs", .output, .byte⟩), (.OUTSW, ⟨"outs", .output, .word⟩),
   (.OUTSD, ⟨"outs", .output, .dword⟩)]

/-- Memory at SI in the overridden segment. -/
def source (f : StringForm) (i : Instruction) : Memory :=
  { base := Register.gpr (low4 6) i.addressSize.dataSize false
    segment := i.prefixes.segment
    addressSize := i.addressSize
    size := f.size }

/-- Memory at DI, which no override moves out of ES. -/
def destination (f : StringForm) (i : Instruction) : Memory :=
  { base := Register.gpr (low4 7) i.addressSize.dataSize false
    segment := some (.segment .es)
    addressSize := i.addressSize
    size := f.size }

/-- The operands that the operation works on, destination first. -/
def operands (f : StringForm) (i : Instruction) : List Operand :=
  match f.shape with
  | .move => [.memory (f.destination i), .memory (f.source i)]
  | .compare => [.memory (f.source i), .memory (f.destination i)]
  | .load => [.register (Register.gpr (low4 0) f.size false), .memory (f.source i)]
  | .output => [.register (some .dx), .memory (f.source i)]

end StringForm

namespace Instruction

/-- The form with operands that a string operation under an override is printed in. -/
def stringForm? (i : Instruction) : Option StringForm :=
  if i.prefixes.segment ≠ none ∧ i.isString then StringForm.all.lookup i.mnemonic else none

/-- The operands that are printed. -/
def shownOperands (i : Instruction) : List Operand :=
  match i.stringForm? with
  | some f => f.operands i
  | none => i.operands

/-- Whether a printed operand names a segment. -/
def showsSegment (i : Instruction) : Bool :=
  i.shownOperands.any fun o => o.memory?.any fun m => m.segment.isSome

/-- The word for a repetition: string operations repeat, near branches mark bounds, and elsewhere
the prefix has no meaning of its own. -/
def repetitionWord (i : Instruction) : Option String :=
  match i.prefixes.repetition with
  | .none => none
  | .rep =>
    if i.isString then
      some (if Mnemonic.stringComparisons.contains i.mnemonic then "repe" else "rep")
    else some "repz"
  | .repne =>
    if i.isString then some "repne"
    else some (if i.mnemonic.isBranch then "bnd" else "repnz")

/-- The words before the mnemonic, in order. -/
def prefixWords (i : Instruction) : List String :=
  (if i.showsSegment then [] else (i.prefixes.segment.map Register.name).toList) ++
  (if i.prefixes.lock then ["lock"] else []) ++
  i.repetitionWord.toList

/-- The words before the mnemonic, each with a space after it. -/
def prefixText (i : Instruction) : String := String.join (i.prefixWords.map (· ++ " "))

end Instruction

end Disasm
