import Disasm.Image.Fields

/-!
# Sections of an image

An entry of the section table has 40 bytes. It names a section and tells where it lies in memory
and in the file.
-/

namespace Disasm.Image

/-- An entry of the section table. -/
structure Section where
  name : String
  virtualSize : UInt32
  virtualAddress : UInt32
  rawSize : UInt32
  rawPointer : UInt32
  relocationPointer : UInt32
  lineNumberPointer : UInt32
  relocationCount : UInt16
  lineNumberCount : UInt16
  characteristics : UInt32
deriving DecidableEq, Inhabited

namespace Section

/-- The length of an entry of the section table. -/
def entryLength : Nat := 40

/-- The length of the field of an entry that holds the name. -/
def nameLength : Nat := 8

def ofBytes? (bs : List UInt8) : Option Section := do
  return {
    name := byteText ((bs.take nameLength).takeWhile (· ≠ 0))
    virtualSize := ← u32? bs 8
    virtualAddress := ← u32? bs 12
    rawSize := ← u32? bs 16
    rawPointer := ← u32? bs 20
    relocationPointer := ← u32? bs 24
    lineNumberPointer := ← u32? bs 28
    relocationCount := ← u16? bs 32
    lineNumberCount := ← u16? bs 34
    characteristics := ← u32? bs 36 }

/-- The first `n` entries of a section table. -/
def table? : Nat → List UInt8 → Option (List Section)
  | 0, _ => some []
  | n + 1, bs => do
    return (← ofBytes? (bs.take entryLength)) :: (← table? n (bs.drop entryLength))

/-- The bits of `characteristics` of which one at least makes a section code: that it contains
code, and that it may be executed. -/
def codeFlags : Nat := 0x20000020

def isCode (s : Section) : Bool := s.characteristics.toNat &&& codeFlags ≠ 0

/-- The bits of `characteristics` that have a name. -/
def characteristicTable : List (Nat × String) :=
  [(0x00000020, "CNT_CODE"), (0x00000040, "CNT_INITIALIZED_DATA"),
   (0x00000080, "CNT_UNINITIALIZED_DATA"), (0x00000200, "LNK_INFO"), (0x00000800, "LNK_REMOVE"),
   (0x00001000, "LNK_COMDAT"), (0x00008000, "GPREL"), (0x01000000, "LNK_NRELOC_OVFL"),
   (0x02000000, "MEM_DISCARDABLE"), (0x04000000, "MEM_NOT_CACHED"),
   (0x08000000, "MEM_NOT_PAGED"), (0x10000000, "MEM_SHARED"), (0x20000000, "MEM_EXECUTE"),
   (0x40000000, "MEM_READ"), (0x80000000, "MEM_WRITE")]

def characteristicNames (s : Section) : List String :=
  flagNames characteristicTable s.characteristics.toNat

/-- How many bytes of the file belong to the section, as far as the entry goes: its size in the
file, or in memory if that is less and not 0. -/
def declaredLength (s : Section) : Nat :=
  if s.virtualSize = 0 then s.rawSize.toNat else min s.rawSize.toNat s.virtualSize.toNat

/-- The bytes of a file that belong to the section: the declared ones, as far as they exist. -/
def bytes (s : Section) (file : List UInt8) : List UInt8 :=
  (file.drop s.rawPointer.toNat).take s.declaredLength

end Section

end Disasm.Image
