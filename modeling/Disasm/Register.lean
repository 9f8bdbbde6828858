import Disasm.Size

/-!
# Registers

Every register that an operand or an address can name, by family and by its number in that
family. A number outside an encoding's range never reaches a constructor: numbers are `Fin`s,
and `Register.gpr` and `Register.segmentOfNumber` answer `none` where no register exists.
-/

namespace Disasm

/-- The segment registers, in encoding order. -/
inductive Segment
  | es | cs | ss | ds | fs | gs
deriving DecidableEq, Inhabited

/-- A register. `byte` numbers 4 to 7 are SPL, BPL, SIL and DIL, which exist only under REX;
`high` are AH, CH, DH and BH, which exist only without it. `ip` is the instruction pointer of a
given width; it occurs only as the base of an address. -/
inductive Register
  | byte (n : Fin 16)
  | high (n : Fin 4)
  | word (n : Fin 16)
  | dword (n : Fin 16)
  | qword (n : Fin 16)
  | segment (s : Segment)
  | control (n : Fin 16)
  | debug (n : Fin 16)
  | mmx (n : Fin 8)
  | xmm (n : Fin 16)
  | x87 (n : Fin 8)
  | ip (width : AddressSize)
deriving DecidableEq, Inhabited

/-! ## Fields

Register numbers stand in two, three or four bits of an encoding. -/

/-- The two lowest bits of a number. -/
def low2 (n : Nat) : Fin 4 := ⟨n % 4, by omega⟩

/-- The three lowest bits of a number. -/
def low3 (n : Nat) : Fin 8 := ⟨n % 8, by omega⟩

/-- The four lowest bits of a number. -/
def low4 (n : Nat) : Fin 16 := ⟨n % 16, by omega⟩

namespace Segment

/-- The segment registers in encoding order. -/
def all : List Segment := [es, cs, ss, ds, fs, gs]

/-- The segment register with this encoding; there are six. -/
def ofNumber (n : Nat) : Option Segment := all[n]?

def name : Segment → String
  | es => "es"
  | cs => "cs"
  | ss => "ss"
  | ds => "ds"
  | fs => "fs"
  | gs => "gs"

end Segment

namespace Register

/-- The number `n` in a family of `k` registers, wrapping round at its end. -/
def wrap (k : Nat) (n : Int) (hk : 0 < k := by decide) : Fin k :=
  ⟨(n % k).toNat % k, Nat.mod_lt _ hk⟩

def cl : Register := byte 1

def dx : Register := word 2

def bx : Register := word 3

def bp : Register := word 5

def si : Register := word 6

def di : Register := word 7

/-- The general-purpose register with encoding `n`, if there are any of this size. Under REX the
byte encodings 4 to 7 name the low bytes of SP, BP, SI and DI; otherwise they name AH to BH. -/
def gpr (n : Fin 16) (size : DataSize) (rex : Bool) : Option Register :=
  match size with
  | .byte =>
    if h : 4 ≤ n.val ∧ n.val < 8 ∧ rex = false then some (.high ⟨n.val - 4, by omega⟩)
    else some (.byte n)
  | .word => some (.word n)
  | .dword => some (.dword n)
  | .qword => some (.qword n)
  | _ => none

/-- The segment register with encoding `n`, if it is one of the six. -/
def segmentOfNumber (n : Nat) : Option Register := (Segment.ofNumber n).map segment

/-- How much a register holds. -/
def width : Register → DataSize
  | byte _ | high _ => .byte
  | word _ | segment _ => .word
  | dword _ => .dword
  | qword _ | control _ | debug _ | mmx _ => .qword
  | xmm _ => .dqword
  | x87 _ => .tbyte
  | ip w => w.dataSize

def isGeneral : Register → Bool
  | byte _ | high _ | word _ | dword _ | qword _ => true
  | _ => false

def isSegment : Register → Bool
  | segment _ => true
  | _ => false

def isX87 : Register → Bool
  | x87 _ => true
  | _ => false

def byteNames : List String :=
  ["al", "cl", "dl", "bl", "spl", "bpl", "sil", "dil",
   "r8b", "r9b", "r10b", "r11b", "r12b", "r13b", "r14b", "r15b"]

def highNames : List String := ["ah", "ch", "dh", "bh"]

def wordNames : List String :=
  ["ax", "cx", "dx", "bx", "sp", "bp", "si", "di",
   "r8w", "r9w", "r10w", "r11w", "r12w", "r13w", "r14w", "r15w"]

def dwordNames : List String :=
  ["eax", "ecx", "edx", "ebx", "esp", "ebp", "esi", "edi",
   "r8d", "r9d", "r10d", "r11d", "r12d", "r13d", "r14d", "r15d"]

def qwordNames : List String :=
  ["rax", "rcx", "rdx", "rbx", "rsp", "rbp", "rsi", "rdi",
   "r8", "r9", "r10", "r11", "r12", "r13", "r14", "r15"]

def controlNames : List String :=
  ["cr0", "cr1", "cr2", "cr3", "cr4", "cr5", "cr6", "cr7",
   "cr8", "cr9", "cr10", "cr11", "cr12", "cr13", "cr14", "cr15"]

def debugNames : List String :=
  ["dr0", "dr1", "dr2", "dr3", "dr4", "dr5", "dr6", "dr7",
   "dr8", "dr9", "dr10", "dr11", "dr12", "dr13", "dr14", "dr15"]

def mmxNames : List String := ["mm0", "mm1", "mm2", "mm3", "mm4", "mm5", "mm6", "mm7"]

def xmmNames : List String :=
  ["xmm0", "xmm1", "xmm2", "xmm3", "xmm4", "xmm5", "xmm6", "xmm7",
   "xmm8", "xmm9", "xmm10", "xmm11", "xmm12", "xmm13", "xmm14", "xmm15"]

def x87Names : List String :=
  ["st(0)", "st(1)", "st(2)", "st(3)", "st(4)", "st(5)", "st(6)", "st(7)"]

/-- The name both syntaxes give a register. -/
def name : Register → String
  | byte n => byteNames.getD n ""
  | high n => highNames.getD n ""
  | word n => wordNames.getD n ""
  | dword n => dwordNames.getD n ""
  | qword n => qwordNames.getD n ""
  | segment s => s.name
  | control n => controlNames.getD n ""
  | debug n => debugNames.getD n ""
  | mmx n => mmxNames.getD n ""
  | xmm n => xmmNames.getD n ""
  | x87 n => x87Names.getD n ""
  | ip .a16 => "ip"
  | ip .a32 => "eip"
  | ip .a64 => "rip"

/-- Every register, once, family by family. Among the byte registers AH to BH take the places
after BL, where their encodings are. -/
def all : List Register :=
  ((List.finRange 16).take 4).map byte ++ (List.finRange 4).map high ++
  ((List.finRange 16).drop 4).map byte ++
  (List.finRange 16).map word ++ (List.finRange 16).map dword ++ (List.finRange 16).map qword ++
  Segment.all.map segment ++
  (List.finRange 16).map control ++ (List.finRange 16).map debug ++
  (List.finRange 8).map mmx ++ (List.finRange 16).map xmm ++ (List.finRange 8).map x87 ++
  [ip .a16, ip .a32, ip .a64]

/-- The place of a register in `all`. -/
def number (r : Register) : Nat := all.idxOf r

/-- The register with this name. -/
def ofName? (s : String) : Option Register := all.find? fun r => r.name == s

/-! ## Laws -/

theorem mem_all (r : Register) : r ∈ all := by
  cases r with
  | byte n => revert n; decide
  | high n => revert n; decide
  | word n => revert n; decide
  | dword n => revert n; decide
  | qword n => revert n; decide
  | segment s => cases s <;> decide
  | control n => revert n; decide
  | debug n => revert n; decide
  | mmx n => revert n; decide
  | xmm n => revert n; decide
  | x87 n => revert n; decide
  | ip w => cases w <;> decide

end Register

end Disasm
