import Disasm.Text.Hex
import Disasm.Text.StringForm

/-!
# AT&T syntax

Source first, `%` before registers and `$` before constants. Operands carry no size; where no
register implies it, a suffix on the mnemonic tells the size of the access.
-/

namespace Disasm.ATT

/-! ## Suffixes -/

/-- The letter for the size of an integer. -/
def integerSuffix : DataSize → String
  | .byte => "b"
  | .word => "w"
  | .dword => "l"
  | .qword => "q"
  | _ => ""

/-- Coprocessor operations whose memory operand is a floating-point number. -/
def realOperations : List Mnemonic :=
  [.FADD, .FMUL, .FCOM, .FCOMP, .FSUB, .FSUBR, .FDIV, .FDIVR, .FLD, .FST, .FSTP]

/-- Coprocessor operations whose memory operand is an integer. -/
def integerOperations : List Mnemonic :=
  [.FIADD, .FIMUL, .FICOM, .FICOMP, .FISUB, .FISUBR, .FIDIV, .FIDIVR,
   .FILD, .FIST, .FISTP, .FISTTP]

/-- The suffix of a coprocessor operation on memory. -/
def x87Suffix (m : Mnemonic) (size : DataSize) : String :=
  if realOperations.contains m then
    match size with
    | .dword => "s"
    | .qword => "l"
    | .tbyte => "t"
    | _ => ""
  else if integerOperations.contains m then
    match size with
    | .word => "s"
    | .dword => "l"
    | .qword => "ll"
    | _ => ""
  else ""

/-- Whether an operand is a register that tells the size of the operation: a general-purpose one
that is not a shift's count. -/
def impliesSize (m : Mnemonic) (place : Nat) : Operand → Bool
  | .register (some r) =>
    r.isGeneral && !(0 < place && r = .cl && Mnemonic.shifts.contains m)
  | _ => false

/-- The size suffix of an instruction. -/
def suffix (i : Instruction) : String :=
  let m := i.mnemonic
  if m.isBranch || i.isString then ""
  else if i.operands.zipIdx.any fun (o, place) => impliesSize m place o then ""
  else
    match (i.operands.filterMap Operand.memory?).getLast? with
    | none => ""
    | some memory =>
      if m.isX87 then x87Suffix m memory.size
      else if m.isVector then ""
      else integerSuffix memory.size

/-! ## Names -/

/-- Names of its own that the syntax has for an operation. -/
def ownNames : List (Mnemonic × String) :=
  [(.CBW, "cbtw"), (.CWDE, "cwtl"), (.CDQE, "cltq"), (.CWD, "cwtd"), (.CDQ, "cltd"),
   (.CQO, "cqto"), (.CALLF, "lcall"), (.JMPF, "ljmp"), (.RETF, "lret")]

/-- The size of an operand that an extension converts from or to. -/
def integerSize : Operand → DataSize
  | .register (some r) => if r.isGeneral then r.width else .none
  | .memory m => m.size
  | _ => .none

/-- An extension's name with the sizes of its source and its destination. -/
def extensionName (stem : String) : List Operand → String
  | [destination, source] =>
    stem ++ integerSuffix (integerSize source) ++ integerSuffix (integerSize destination)
  | _ => stem

/-- A string operation's name: the doubleword forms end in `l` where Intel's end in `d`. -/
def stringName (name : String) : String :=
  if name.toList.getLast? = some 'd' then String.ofList (name.toList.dropLast ++ ['l'])
  else name

/-- The name of the operation with its suffix. -/
def name (i : Instruction) : String :=
  match ownNames.lookup i.mnemonic with
  | some own => own
  | none =>
    if i.mnemonic = .MOVSXD then (if i.operationSize = .qword then "movslq" else "movsxd")
    else if i.mnemonic = .MOVZX then extensionName "movz" i.operands
    else if i.mnemonic = .MOVSX then extensionName "movs" i.operands
    else if i.isString then stringName i.mnemonic.name
    else i.mnemonic.name ++ suffix i

/-! ## Operands -/

def register (r : Option Register) : String := "%" ++ (r.map Register.name).getD ""

/-- A memory operand. Without registers it is the address itself. -/
def memory (m : Memory) : String :=
  (match m.segment with
    | some s => register (some s) ++ ":"
    | none => "") ++
  if m.base = none ∧ m.index = none then
    Hex.lower (m.addressSize.dataSize.truncate (UInt64.ofInt m.displacement)).toNat
  else
    (if m.displacement ≠ 0 ∨ m.base = none ∨ m.ripRelative then Hex.signed m.displacement
      else "") ++
    "(" ++
    (match m.base with
      | some b => register (some b)
      | none => "") ++
    (match m.index with
      | some x => "," ++ register (some x) ++ "," ++ toString m.scale
      | none => "") ++
    ")"

/-- An operand without regard to what the instruction does with it. -/
def operand (i : Instruction) : Operand → String
  | .register r => register r
  | .memory m => memory m
  | .immediate v => "$" ++ Hex.lower (v.size.truncate (UInt64.ofInt v.value)).toNat
  | .relative r => Hex.lower (i.relativeTarget r).toNat
  | .far p => "$" ++ Hex.lower p.selector ++ ",$" ++ Hex.lower p.offset

/-- An operand in its place: an indirect target has a star before it, and a port number in DX stands
in parentheses. -/
def operandInPlace (i : Instruction) (o : Operand) : String :=
  let star :=
    if Mnemonic.indirectBranches.contains i.mnemonic then
      match o with
      | .register _ | .memory _ => "*"
      | _ => ""
    else ""
  let port := (i.mnemonic = .IN || i.mnemonic = .OUT) && o = .register (some .dx)
  star ++ if port then "(%dx)" else operand i o

/-- The printed order: source first. ENTER alone keeps the order of its encoding. -/
def order (i : Instruction) (os : List Operand) : List Operand :=
  if i.mnemonic = .ENTER then os else os.reverse

/-- The address that an operand counts from the instruction pointer, as a comment. The last such
operand counts. -/
def comment (i : Instruction) (os : List Operand) : String :=
  let targets := os.filterMap fun o =>
    match o with
    | .memory m => if m.ripRelative then i.memoryTarget m else none
    | _ => none
  match targets.getLast? with
  | some target => "  # " ++ Hex.lower target.toNat
  | none => ""

/-- A valid instruction. -/
def text (i : Instruction) : String :=
  let os := order i i.shownOperands
  i.prefixText ++ name i ++
    (if os.isEmpty then "" else " " ++ ",".intercalate (os.map (operandInPlace i))) ++
    comment i os

end Disasm.ATT
