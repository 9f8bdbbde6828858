import Disasm.Image

/-!
# The summary of an image

What the headers of an image say, as text: a line for each of a few fields, for each data directory
that is not empty, and for each section.
-/

namespace Disasm.CommandLine

/-- Names with a blank before each. -/
def flags (names : List String) : String := String.join (names.map (" " ++ ·))

/-- Text filled up with blanks behind it. -/
def padRight (width : Nat) (s : String) : String := String.ofList (s.toList.rightpad width ' ')

/-- Text filled up with blanks before it. -/
def padLeft (width : Nat) (s : String) : String := String.ofList (s.toList.leftpad width ' ')

def directoryLine (index : Nat) (d : Image.DataDirectory) : String :=
  if d.size = 0 then ""
  else "\t" ++ padRight 20 (Image.directoryName index) ++ " " ++
    Hex.padded 8 d.virtualAddress.toNat ++ " " ++ Hex.padded 8 d.size.toNat ++ "\n"

def sectionLine (index : Nat) (s : Image.Section) : String :=
  padLeft 3 (toString index) ++ " " ++ padRight 8 s.name ++ " " ++
    Hex.padded 8 s.virtualSize.toNat ++ " " ++ Hex.padded 8 s.virtualAddress.toNat ++ " " ++
    Hex.padded 8 s.rawSize.toNat ++ " " ++ Hex.padded 8 s.rawPointer.toNat ++
    flags s.characteristicNames ++ "\n"

/-- The summary, with an empty line at its end. -/
def summary (image : Image) : String :=
  let file := image.fileHeader
  let optional := image.optionalHeader
  "Machine:\t\t" ++ file.machine.name ++ " (" ++ Hex.padded 4 file.machine.code.toNat ++ ")\n" ++
  "Timestamp:\t\t" ++ Hex.padded 8 file.timestamp.toNat ++ "\n" ++
  "Characteristics:\t" ++ flags file.characteristicNames ++ "\n" ++
  "Format:\t\t\t" ++ optional.magic.name ++ "\n" ++
  "Linker version:\t\t" ++ toString optional.majorLinkerVersion.toNat ++ "." ++
    toString optional.minorLinkerVersion.toNat ++ "\n" ++
  "Image base:\t\t" ++ Hex.padded 16 optional.imageBase.toNat ++ "\n" ++
  "Entry point:\t\t" ++ Hex.padded 8 optional.addressOfEntryPoint.toNat ++ "\n" ++
  "Subsystem:\t\t" ++ toString optional.subsystem.toNat ++ "\n" ++
  String.join (optional.directories.mapIdx directoryLine) ++
  "\nIdx Name     VirtSize VirtAddr RawSize  RawPtr\n" ++
  String.join (image.sections.mapIdx sectionLine) ++
  "\n"

end Disasm.CommandLine
