import Disasm.Image.Fields

/-!
# The optional header of an image

Its first two bytes tell which of three forms it has, and so how long its fixed part is. The two
forms for Windows, with 32-bit and with 64-bit addresses, differ in the width of five fields; the
form for ROM images has the standard fields only. A list of data directories follows the fixed
part: as many as the header declares, but no more than it has room for, and 16 at most.
-/

namespace Disasm.Image

/-- The forms of an optional header. -/
inductive Magic
  | pe32 | pe32Plus | rom
deriving DecidableEq, Inhabited

namespace Magic

def code : Magic → UInt16
  | pe32 => 0x010b
  | pe32Plus => 0x020b
  | rom => 0x0107

def ofCode? (code : UInt16) : Option Magic :=
  [pe32, pe32Plus, rom].find? (·.code == code)

/-- How many bytes a header of this form has before its data directories. -/
def fixedLength : Magic → Nat
  | pe32 => 96
  | pe32Plus => 112
  | rom => 56

def name : Magic → String
  | pe32 => "PE32"
  | pe32Plus => "PE32+"
  | rom => "ROM"

/-- The width of the fields that hold an address or the size of a stack or heap. -/
def wordLength : Magic → Nat
  | pe32Plus => 8
  | _ => 4

end Magic

/-- Where a table lies, relative to the image's base, and how long it is. -/
structure DataDirectory where
  virtualAddress : UInt32
  size : UInt32
deriving DecidableEq, Inhabited

/-- The most data directories that a header has. -/
def maxDirectories : Nat := 16

def directoryNames : List String :=
  ["Export", "Import", "Resource", "Exception", "Security", "BaseRelocation", "Debug",
   "Architecture", "GlobalPointer", "TLS", "LoadConfig", "BoundImport", "ImportAddressTable",
   "DelayImport", "CLRRuntime", "Reserved"]

/-- What the data directory in place `index` is for. -/
def directoryName (index : Nat) : String := directoryNames.getD index "Unknown"

/-- The optional header. A field that its form lacks is 0. -/
structure OptionalHeader where
  magic : Magic
  majorLinkerVersion : UInt8
  minorLinkerVersion : UInt8
  sizeOfCode : UInt32
  sizeOfInitializedData : UInt32
  sizeOfUninitializedData : UInt32
  addressOfEntryPoint : UInt32
  baseOfCode : UInt32
  baseOfData : UInt32 := 0
  imageBase : UInt64 := 0
  sectionAlignment : UInt32 := 0
  fileAlignment : UInt32 := 0
  majorOperatingSystemVersion : UInt16 := 0
  minorOperatingSystemVersion : UInt16 := 0
  majorImageVersion : UInt16 := 0
  minorImageVersion : UInt16 := 0
  majorSubsystemVersion : UInt16 := 0
  minorSubsystemVersion : UInt16 := 0
  sizeOfImage : UInt32 := 0
  sizeOfHeaders : UInt32 := 0
  checksum : UInt32 := 0
  subsystem : UInt16 := 0
  dllCharacteristics : UInt16 := 0
  sizeOfStackReserve : UInt64 := 0
  sizeOfStackCommit : UInt64 := 0
  sizeOfHeapReserve : UInt64 := 0
  sizeOfHeapCommit : UInt64 := 0
  loaderFlags : UInt32 := 0
  directories : List DataDirectory := []
deriving DecidableEq, Inhabited

/-- Why some bytes are no optional header. -/
inductive OptionalHeaderError
  | tooShort
  | unknownMagic (code : UInt16)
deriving DecidableEq, Inhabited

namespace OptionalHeader

/-- The fields that all forms share, which are all there is to a ROM image but `baseOfData`. -/
def standard? (magic : Magic) (bs : List UInt8) : Option OptionalHeader := do
  return {
    magic
    majorLinkerVersion := ← u8? bs 2
    minorLinkerVersion := ← u8? bs 3
    sizeOfCode := ← u32? bs 4
    sizeOfInitializedData := ← u32? bs 8
    sizeOfUninitializedData := ← u32? bs 12
    addressOfEntryPoint := ← u32? bs 16
    baseOfCode := ← u32? bs 20 }

/-- A field as wide as the addresses of the form. -/
def word? (magic : Magic) (bs : List UInt8) (offset : Nat) : Option UInt64 :=
  (number? bs offset magic.wordLength).map UInt64.ofNat

/-- The data directories from `offset` on. -/
def directories? (bs : List UInt8) (offset : Nat) : Nat → Option (List DataDirectory)
  | 0 => some []
  | n + 1 => do
    let directory := ⟨← u32? bs offset, ← u32? bs (offset + 4)⟩
    return directory :: (← directories? bs (offset + 8) n)

/-- How many of the declared directories are read: those for which there is room. -/
def directoryCount (declared fixedLength length : Nat) : Nat :=
  min declared (min ((length - fixedLength) / 8) maxDirectories)

/-- The fields that only the forms for Windows have, added to those already read. -/
def windows? (h : OptionalHeader) (bs : List UInt8) : Option OptionalHeader := do
  let word := h.magic.wordLength
  let declared ← u32? bs (76 + 4 * word)
  let count := directoryCount declared.toNat h.magic.fixedLength bs.length
  return { h with
    sectionAlignment := ← u32? bs 32
    fileAlignment := ← u32? bs 36
    majorOperatingSystemVersion := ← u16? bs 40
    minorOperatingSystemVersion := ← u16? bs 42
    majorImageVersion := ← u16? bs 44
    minorImageVersion := ← u16? bs 46
    majorSubsystemVersion := ← u16? bs 48
    minorSubsystemVersion := ← u16? bs 50
    sizeOfImage := ← u32? bs 56
    sizeOfHeaders := ← u32? bs 60
    checksum := ← u32? bs 64
    subsystem := ← u16? bs 68
    dllCharacteristics := ← u16? bs 70
    sizeOfStackReserve := ← word? h.magic bs 72
    sizeOfStackCommit := ← word? h.magic bs (72 + word)
    sizeOfHeapReserve := ← word? h.magic bs (72 + 2 * word)
    sizeOfHeapCommit := ← word? h.magic bs (72 + 3 * word)
    loaderFlags := ← u32? bs (72 + 4 * word)
    directories := ← directories? bs (80 + 4 * word) count }

/-- A header of the given form, if there are enough bytes for its fixed part. -/
def ofForm? (magic : Magic) (bs : List UInt8) : Option OptionalHeader := do
  let h ← standard? magic bs
  match magic with
  | .rom => return { h with baseOfData := ← u32? bs 24 }
  | .pe32 => windows? { h with baseOfData := ← u32? bs 24, imageBase := ← word? magic bs 28 } bs
  | .pe32Plus => windows? { h with imageBase := ← word? magic bs 24 } bs

/-- The header that all of these bytes are. -/
def ofBytes (bs : List UInt8) : Except OptionalHeaderError OptionalHeader :=
  match u16? bs 0 with
  | none => .error .tooShort
  | some code =>
    match Magic.ofCode? code with
    | none => .error (.unknownMagic code)
    | some magic =>
      if bs.length < magic.fixedLength then .error .tooShort
      else
        match ofForm? magic bs with
        | some h => .ok h
        | none => .error .tooShort

end OptionalHeader

end Disasm.Image
