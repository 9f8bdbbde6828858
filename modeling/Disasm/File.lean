import Disasm.File.Stored
import Disasm.Log
import Disasm.Reader

/-!
# Files

An open file is a cursor: a place within its bytes, and an indicator that is set by a read which
asks for a byte past the end and cleared by a seek.

* `File.byte`, `File.number` — what stands at the cursor; past the end every byte reads as `0xff`.
* `File.startsWith` — whether a signature stands at the cursor.
* `File.seek` — a new place, which may lie past the end but not before the start.
* `File.contents` — the whole file, wherever the cursor is.

**Reading ahead.** Bytes are taken from the file in blocks. What is in the block at hand is read
from there, even if the file has been changed meanwhile. A seek to a place in the block keeps the
block, if it is known for certain where the block stands: that is so from the first seek on, until
the end of the file is met. Any other seek drops the block, and takes a new one up to the place
sought and, if there was a block before, past it. As long as nobody changes the file, none of this
shows.
-/

namespace Disasm

/-- Why a file could not be used. -/
inductive FileError
  /-- There is no regular file of that name. -/
  | cantOpen (name : String)
  /-- The place sought is none that a file can have. -/
  | cantSeek
  /-- The file is shorter than it was when it was opened. -/
  | cantRead (name : String) (read size : Nat)
deriving DecidableEq, Inhabited

namespace FileError

/-- What could not be done. -/
def message : FileError → String
  | cantOpen _ => "open file"
  | cantSeek => "seek within file"
  | cantRead .. => "read file"

/-- What is reported of an error. -/
def note? : FileError → Option Log.Message
  | cantOpen name => some ⟨.file, .error, name ++ " is not a readable file"⟩
  | cantSeek => none
  | cantRead name read size => some ⟨.file, .error,
      "Read " ++ toString read ++ " of " ++ toString size ++ " bytes from " ++ name⟩

end FileError

/-- How many bytes a block has, unless the file ends within it. -/
def File.blockLength : Nat := 4096

/-- The last place in a file whose blocks are numbered with 32 bits. -/
def File.lastPlace32 : Nat := (UInt32.size - 1) * File.blockLength

/-- An open file. -/
structure File where
  name : String
  /-- What the file holds now. -/
  stored : Stored
  /-- How much the file held when it was opened. -/
  size : Nat := stored.length
  /-- The last place that a file can have. This is up to the file system that it is in. -/
  lastPlace : Nat := File.lastPlace32
  /-- The block at hand. -/
  block : List UInt8 := []
  /-- How many bytes of the block lie before the cursor. -/
  used : Nat := 0
  /-- The place behind the block. -/
  next : Nat := 0
  /-- Whether it is known for certain where the block stands. -/
  anchored : Bool := false
  /-- Whether a read has asked for more than there is. -/
  atEnd : Bool := false
deriving DecidableEq, Inhabited

/-- What a seek counts from. -/
inductive Whence
  | start | current | finish
deriving DecidableEq, Inhabited

namespace File

/-- The part of a name that counts: it ends before the first NUL. -/
def properName (name : String) : String :=
  String.ofList (name.toList.takeWhile fun c => c.toNat ≠ 0)

/-- An open file that holds these bytes, with the cursor at its start. -/
def ofBytes (name : String) (bytes : List UInt8) (lastPlace : Nat := lastPlace32) : File :=
  { name, stored := ⟨bytes, 0⟩, lastPlace }

/-- The file of this name, given the bytes of the regular file that the name leads to. -/
def ofBytes? (name : String) (bytes : Option (List UInt8)) : Except FileError File :=
  match bytes with
  | some bytes => .ok (ofBytes (properName name) bytes)
  | none => .error (.cantOpen (properName name))

/-! ## Reading -/

/-- What is left of the block at hand. -/
def unread (f : File) : List UInt8 := f.block.drop f.used

/-- The place of the cursor. -/
def position (f : File) : Nat := f.next - f.unread.length

/-- Takes the next block. If there is none, the end has been met, and as long as that is so no block
is taken. -/
def fill (f : File) : File :=
  if f.atEnd then f
  else
    let block := f.stored.slice f.next blockLength
    if block = [] then { f with block := [], used := 0, anchored := false, atEnd := true }
    else { f with block, used := 0, next := f.next + block.length }

/-- At most `n` bytes of the block at hand. -/
def readBlock (f : File) (n : Nat) : List UInt8 × File :=
  let found := f.unread.take n
  (found, { f with used := f.used + found.length })

/-- As many of `n` bytes as make whole blocks, straight from the file. The end has been met if they
are short by a block or more. -/
def readWhole (f : File) (n : Nat) : List UInt8 × File :=
  if n < blockLength ∨ f.atEnd then ([], f)
  else
    let found := f.stored.slice f.next (n - n % blockLength)
    (found, { f with
      block := []
      used := 0
      next := f.next + found.length
      atEnd := blockLength ≤ n - found.length })

/-- At most `n` bytes, fewer than a block, from a new block. The end has been met if they are
short. -/
def readPart (f : File) (n : Nat) : List UInt8 × File :=
  if n = 0 then ([], f)
  else
    let (found, f) := f.fill.readBlock n
    (found, if found.length < n then f.fill else f)

/-- The next `n` bytes, or as many as there are: the rest of the block at hand, then whole blocks,
then a part of another. A read that meets the end sets the indicator, and as long as it is set
nothing is read. -/
def read (f : File) (n : Nat) : List UInt8 × File :=
  let (rest, f) := f.readBlock n
  let (whole, f) := f.readWhole (n - rest.length)
  let (part, f) := f.readPart (n - rest.length - whole.length)
  (rest ++ whole ++ part, f)

/-- The next byte, or `0xff` where there is none. -/
def byte (f : File) : UInt8 × File :=
  let (found, f) := f.read 1
  (found.headD 0xff, f)

/-- The next `n` bytes one by one. -/
def bytesHere : Nat → File → List UInt8 × File
  | 0, f => ([], f)
  | n + 1, f =>
    let (b, f) := f.byte
    let (bs, f) := bytesHere n f
    (b :: bs, f)

/-- The next `width` bytes as a number, lowest byte first. -/
def number (f : File) (width : Nat) : Nat × File :=
  let (bs, f) := bytesHere width f
  (ofLittleEndian bs, f)

/-- Whether the next bytes are those of `signature`. All of them are read, if they are there. -/
def startsWith (f : File) (signature : List UInt8) : Bool × File :=
  let (found, f) := f.read signature.length
  (found == signature, f)

/-! ## Seeking -/

/-- The file with the cursor at a place and no block at hand. -/
def jump (f : File) (place : Nat) : File :=
  { f with block := [], used := 0, next := place, anchored := true, atEnd := false }

/-- The file with the cursor at a place and a new block around it. It starts where blocks do, and
has to reach up to the place. Without a block before, it ends there. -/
def reload (f : File) (place : Nat) : File :=
  let used := place % blockLength
  let start := place - used
  let block := f.stored.slice start (if f.block = [] then used else blockLength)
  if used = 0 ∨ block.length < used then f.jump place
  else { f with block, used, next := start + block.length, anchored := true, atEnd := false }

/-- The file with the cursor at a place, which may be in the block at hand. -/
def moveTo (f : File) (place : Nat) : File :=
  let start := f.next - f.block.length
  if f.anchored ∧ start ≤ place ∧ place < f.next then
    { f with used := place - start, atEnd := false }
  else f.reload place

/-- A place `offset` bytes from the start, from here or from the end. It has to be a place that a
file can have; if it is not, the file stays as it is. -/
def seek (f : File) (offset : Int) (whence : Whence) : Except FileError File :=
  let origin : Nat := match whence with
    | .start => 0
    | .current => f.position
    | .finish => f.stored.length
  let place : Int := origin + offset
  if place < 0 ∨ f.lastPlace < place then .error .cantSeek
  else if whence = .current ∧ f.anchored = false then .ok (f.jump place.toNat)
  else .ok (f.moveTo place.toNat)

/-! ## The whole file -/

/-- Reported when a file has been loaded. -/
def loadedNote (f : File) : Log.Message :=
  ⟨.file, .info, "Loaded " ++ toString f.size ++ " bytes from " ++ f.name⟩

/-- All that the file held when it was opened, and the cursor after it. -/
def contents (f : File) : Except FileError (List UInt8) × File :=
  let (found, g) := (f.moveTo 0).read f.size
  if found.length = f.size then (.ok found, g)
  else (.error (.cantRead f.name found.length f.size), g)

/-- The file after it was cut off, or filled up with zeros, to `length` bytes behind the cursor's
back. -/
def resize (f : File) (length : Nat) : File := { f with stored := f.stored.resize length }

end File

end Disasm
