import Disasm.File
import Disasm.Image.FileHeader
import Disasm.Image.OptionalHeader
import Disasm.Image.Section
import Disasm.Region

/-!
# Executable images

A portable executable: an old header that only points to the new one, a file header, an optional
header and a table of sections.

* `Image.ofBytes` — the image that some bytes are, or the first thing wrong with them.
* `Image.ofFile` — the same through an open file, which is looked at before it is loaded.
* `Image.codeRegion?`, `Image.codeRegions` — sections as regions of code, at the addresses where
  they lie in memory.
-/

namespace Disasm

/-- What can be wrong with an image. -/
inductive ImageError
  /-- The bytes do not start with the letters of an executable. -/
  | noSignature
  /-- The new header, at this offset, does not start as it should. -/
  | noHeaderSignature (offset : Nat)
  /-- So many bytes at this offset are not all there. -/
  | outOfRange (length offset : Nat)
  /-- The optional header is too short for its form. -/
  | shortOptionalHeader
  /-- No form of optional header starts with this number. -/
  | unknownMagic (code : UInt16)
  /-- Code for this machine cannot be decoded. -/
  | unsupportedMachine (machine : Image.Machine)
  /-- The file does not start with the letters of an executable. -/
  | fileWithoutSignature (name : String)
  /-- The file ends before its new header. -/
  | fileTooShort (name : String)
deriving DecidableEq, Inhabited

/-- The kinds of errors that a caller tells apart. -/
inductive ImageFault
  | notExecutable | truncated | badOptionalHeader | unsupportedMachine
deriving DecidableEq, Inhabited

def ImageFault.description : ImageFault → String
  | notExecutable => "not a PE executable"
  | truncated => "file is truncated"
  | badOptionalHeader => "optional header is malformed"
  | unsupportedMachine => "machine type has no x86 code; try --bits"

namespace ImageError

def fault : ImageError → ImageFault
  | noSignature | noHeaderSignature _ | fileWithoutSignature _ => .notExecutable
  | outOfRange .. | fileTooShort _ => .truncated
  | shortOptionalHeader | unknownMagic _ => .badOptionalHeader
  | unsupportedMachine _ => .unsupportedMachine

/-- The words of what is reported of an error. -/
def noteText? : ImageError → Option String
  | noSignature | shortOptionalHeader => none
  | noHeaderSignature offset => some ("No PE signature at " ++ toString offset)
  | outOfRange length offset => some
      (toString length ++ " bytes at " ++ toString offset ++ " lie beyond the end of the file")
  | unknownMagic code => some ("Unknown optional header magic " ++ Hex.padded 4 code.toNat)
  | unsupportedMachine machine => some ("Can't decode code for " ++ machine.name)
  | fileWithoutSignature name => some (name ++ " has no MZ signature")
  | fileTooShort name => some (name ++ " is too short for its PE header")

/-- What is reported of an error. -/
def note? (e : ImageError) : Option Log.Message :=
  e.noteText?.map fun text => ⟨.image, .error, text⟩

end ImageError

/-- An image: its bytes and what its headers say. -/
structure Image where
  bytes : List UInt8
  fileHeader : Image.FileHeader
  optionalHeader : Image.OptionalHeader
  sections : List Image.Section
deriving DecidableEq, Inhabited

namespace Image

/-! ## Reading an image -/

/-- The letters that every executable starts with: `MZ`. -/
def signature : List UInt8 := [0x4d, 0x5a]

/-- The letters that the new header starts with: `PE` and two zeros. -/
def headerSignature : List UInt8 := [0x50, 0x45, 0, 0]

/-- The length of the old header. -/
def oldHeaderLength : Nat := 0x40

/-- Where the old header tells the offset of the new one. -/
def headerPointer : Nat := 0x3c

/-- What `read` makes of the `length` bytes at `offset`. -/
def part {α : Type} (bytes : List UInt8) (offset length : Nat) (read : List UInt8 → Option α) :
    Except ImageError α :=
  if offset + length ≤ bytes.length then
    match read ((bytes.drop offset).take length) with
    | some a => .ok a
    | none => .error (.outOfRange length offset)
  else .error (.outOfRange length offset)

def optionalHeaderOf (bytes : List UInt8) : Except ImageError OptionalHeader :=
  match OptionalHeader.ofBytes bytes with
  | .ok h => .ok h
  | .error .tooShort => .error .shortOptionalHeader
  | .error (.unknownMagic code) => .error (.unknownMagic code)

/-- The image that some bytes are. -/
def ofBytes (bytes : List UInt8) : Except ImageError Image := do
  if bytes.take 2 ≠ signature then throw .noSignature
  let start ← part bytes 0 oldHeaderLength (number? · headerPointer 4)
  if (← part bytes start 4 some) ≠ headerSignature then throw (.noHeaderSignature start)
  let fileHeader ← part bytes (start + 4) FileHeader.length FileHeader.ofBytes?
  let optionalStart := start + 4 + FileHeader.length
  let optionalLength := fileHeader.optionalHeaderLength.toNat
  if optionalLength < 2 then throw .shortOptionalHeader
  let optionalHeader ← optionalHeaderOf (← part bytes optionalStart optionalLength some)
  let count := fileHeader.sectionCount.toNat
  let sections ← part bytes (optionalStart + optionalLength) (Section.entryLength * count)
    (Section.table? count)
  return { bytes, fileHeader, optionalHeader, sections }

/-- What is reported of an image that has been read. -/
def note (image : Image) : Log.Message :=
  ⟨.image, .info, image.optionalHeader.magic.name ++ " image for " ++
    image.fileHeader.machine.name ++ ", base " ++
    Hex.padded 8 image.optionalHeader.imageBase.toNat ++ ", " ++
    toString image.sections.length ++ " sections"⟩

/-- Why an image could not be had from a file. -/
inductive OpenError
  | file (e : FileError)
  | image (e : ImageError)
deriving DecidableEq, Inhabited

def OpenError.note? : OpenError → Option Log.Message
  | file e => e.note?
  | image e => e.note?

/-- How the opening of an image ended, and what was reported on the way. -/
structure Opening where
  image : Except OpenError Image
  notes : List Log.Message

/-- An opening that failed. -/
def Opening.failed (e : OpenError) : Opening := ⟨.error e, e.note?.toList⟩

/-- The image that an open file holds. Before the file is loaded, it is checked that it looks like
an executable and that its new header starts within it. -/
def ofFile (f : File) : Opening :=
  let (signed, f) := f.startsWith signature
  if signed then
    match f.seek headerPointer .start with
    | .error e => .failed (.file e)
    | .ok f =>
      let (start, f) := f.number 4
      if f.atEnd ∨ f.size ≤ start then .failed (.image (.fileTooShort f.name))
      else
        match f.contents with
        | (.error e, _) => .failed (.file e)
        | (.ok bytes, _) =>
          match ofBytes bytes with
          | .ok image => ⟨.ok image, [f.loadedNote, image.note]⟩
          | .error e => ⟨.error (.image e), f.loadedNote :: e.note?.toList⟩
  else .failed (.image (.fileWithoutSignature f.name))

/-! ## Code -/

/-- The mode of the image's code. -/
def mode (image : Image) : Except ImageError Mode :=
  match image.fileHeader.machine.mode? with
  | some mode => .ok mode
  | none => .error (.unsupportedMachine image.fileHeader.machine)

/-- The mode to decode code in, if it is given, or else that of the image. -/
def modeOr (image : Image) (given : Option Mode) : Except ImageError Mode :=
  match given with
  | some mode => .ok mode
  | none => image.mode

/-- The first section of a name. -/
def section? (image : Image) (name : String) : Option Section :=
  image.sections.find? (·.name == name)

/-- A section as a region of code, at its address in memory. -/
def region (image : Image) (s : Section) (mode : Mode) : Region :=
  { bytes := s.bytes image.bytes
    context := ⟨mode, image.optionalHeader.imageBase + s.virtualAddress.toUInt64⟩
    name := s.name }

/-- The section of a name as a region, if there is one. Only then does it matter whether the
machine's code can be decoded. -/
def codeRegion? (image : Image) (name : String) (given : Option Mode) :
    Except ImageError (Option Region) := do
  match image.section? name with
  | none => return none
  | some s => return some (image.region s (← image.modeOr given))

/-- A region for every section that is code and has bytes in the file. -/
def codeRegions (image : Image) (given : Option Mode) : Except ImageError (List Region) := do
  let mode ← image.modeOr given
  return (image.sections.filter fun s => s.isCode && !(s.bytes image.bytes).isEmpty).map
    (image.region · mode)

end Image

end Disasm
