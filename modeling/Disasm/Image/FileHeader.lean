import Disasm.Image.Fields
import Disasm.Mode

/-!
# The file header of an image

Twenty bytes: the machine that the code is for, when the image was made, how long its optional
header is and how many sections it has.
-/

namespace Disasm.Image

/-- The code number of a kind of machine. -/
structure Machine where
  code : UInt16
deriving DecidableEq, Inhabited

namespace Machine

/-- The machines with a name. -/
def names : List (UInt16 × String) :=
  [(0x0000, "unknown"), (0x014c, "i386"), (0x0162, "r3000"), (0x0166, "r4000"),
   (0x0168, "r10000"), (0x0169, "wcemipsv2"), (0x0184, "alpha"), (0x01a2, "sh3"),
   (0x01a3, "sh3dsp"), (0x01a6, "sh4"), (0x01a8, "sh5"), (0x01c0, "arm"), (0x01c2, "thumb"),
   (0x01c4, "armnt"), (0x01d3, "am33"), (0x01f0, "powerpc"), (0x01f1, "powerpcfp"),
   (0x0200, "ia64"), (0x0266, "mips16"), (0x0284, "alpha64"), (0x0366, "mipsfpu"),
   (0x0466, "mipsfpu16"), (0x0520, "tricore"), (0x0ebc, "ebc"), (0x5032, "riscv32"),
   (0x5064, "riscv64"), (0x5128, "riscv128"), (0x6232, "loongarch32"),
   (0x6264, "loongarch64"), (0x8664, "amd64"), (0x9041, "m32r"), (0xaa64, "arm64")]

def i386 : Machine := ⟨0x014c⟩

def amd64 : Machine := ⟨0x8664⟩

def name (m : Machine) : String := (names.lookup m.code).getD "unrecognised"

/-- The mode of the machine's code, if it is code that can be decoded. -/
def mode? (m : Machine) : Option Mode :=
  if m = i386 then some .m32 else if m = amd64 then some .m64 else none

end Machine

/-- The file header. `optionalHeaderLength` tells where the section table starts. -/
structure FileHeader where
  machine : Machine
  sectionCount : UInt16
  timestamp : UInt32
  symbolTable : UInt32
  symbolCount : UInt32
  optionalHeaderLength : UInt16
  characteristics : UInt16
deriving DecidableEq, Inhabited

namespace FileHeader

def length : Nat := 20

def ofBytes? (bs : List UInt8) : Option FileHeader := do
  return {
    machine := ⟨← u16? bs 0⟩
    sectionCount := ← u16? bs 2
    timestamp := ← u32? bs 4
    symbolTable := ← u32? bs 8
    symbolCount := ← u32? bs 12
    optionalHeaderLength := ← u16? bs 16
    characteristics := ← u16? bs 18 }

/-- The bits of `characteristics` that have a name. -/
def characteristicTable : List (Nat × String) :=
  [(0x0001, "RELOCS_STRIPPED"), (0x0002, "EXECUTABLE_IMAGE"), (0x0004, "LINE_NUMS_STRIPPED"),
   (0x0008, "LOCAL_SYMS_STRIPPED"), (0x0010, "AGGRESSIVE_WS_TRIM"),
   (0x0020, "LARGE_ADDRESS_AWARE"), (0x0080, "BYTES_REVERSED_LO"), (0x0100, "32BIT_MACHINE"),
   (0x0200, "DEBUG_STRIPPED"), (0x0400, "REMOVABLE_RUN_FROM_SWAP"), (0x0800, "NET_RUN_FROM_SWAP"),
   (0x1000, "SYSTEM"), (0x2000, "DLL"), (0x4000, "UP_SYSTEM_ONLY"), (0x8000, "BYTES_REVERSED_HI")]

def characteristicNames (h : FileHeader) : List String :=
  flagNames characteristicTable h.characteristics.toNat

end FileHeader

end Disasm.Image
