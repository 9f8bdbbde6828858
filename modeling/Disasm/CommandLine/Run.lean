import Disasm.CommandLine.Options
import Disasm.CommandLine.Summary

/-!
# Runs

What a command line leads to, given the regular files that names lead to: the text on standard
output and standard error, and whether the run is a success.

Messages of the main thread pass through its accumulator, so that each is printed when the next
one arrives, or at the end of the run. Workers have accumulators of their own, which are flushed
before the listing is printed.
-/

namespace Disasm.CommandLine

/-! ## Names -/

/-- The last part of a path with slashes of either kind, not counting those at its end. -/
def finalComponent (path : String) : String :=
  let slash (c : Char) : Bool := c = '/' ∨ c = '\\'
  let backwards := path.toList.reverse.dropWhile slash
  String.ofList (backwards.takeWhile (!slash ·)).reverse

/-! ## The console -/

/-- Everything a run has printed, and the state of its log. -/
structure Console where
  out : String := ""
  err : String := ""
  level : Log.Level := .none
  log : Log.Accumulator := {}
deriving Inhabited

namespace Console

def print (s : String) (c : Console) : Console := { c with out := c.out ++ s }

def complain (s : String) (c : Console) : Console := { c with err := c.err ++ s }

/-- A message of the main thread. -/
def note (c : Console) (m : Log.Message) : Console :=
  let (row, log) := c.log.append (m.line c.level)
  { c with err := c.err ++ Log.renderRows row.toList, log }

/-- The messages of a worker, from its first to its last. -/
def worker (messages : List Log.Message) (c : Console) : Console :=
  { c with err := c.err ++ Log.renderRows (Log.rowsOfThread c.level messages) }

/-- The end of the main thread's messages. -/
def flush (c : Console) : Console :=
  let (row, log) := c.log.flush
  { c with err := c.err ++ Log.renderRows row.toList, log }

end Console

/-- How a run ends. -/
inductive Exit
  | success | failure
deriving DecidableEq, Inhabited

def Exit.code : Exit → Nat
  | success => 0
  | failure => 1

/-! ## Disassembling -/

/-- What ends a run early. -/
inductive RunError
  | configuration (e : ConfigurationError)
  | file (e : FileError)
  | image (e : ImageError)
deriving DecidableEq, Inhabited

def RunError.description : RunError → String
  | configuration e => e.message
  | file e => "can't " ++ e.message
  | image e => e.fault.description

/-- Computations that print, and may end the run. -/
abbrev Session := ExceptT RunError (StateM Console)

namespace Session

def print (s : String) : Session Unit := modify (Console.print s)

def complain (s : String) : Session Unit := modify (Console.complain s)

def note (messages : List Log.Message) : Session Unit :=
  modify fun c => messages.foldl Console.note c

/-- Ends the run with an error and what is reported of it. -/
def fail {α : Type} (e : RunError) (messages : List Log.Message) : Session α := do
  note messages
  throw e

end Session

open Session

/-- The file of a name. -/
def openFile (lookup : String → Option (List UInt8)) (name : String) : Session File :=
  match File.ofBytes? name (lookup name) with
  | .ok f => return f
  | .error e => fail (.file e) e.note?.toList

/-- All bytes of a file. -/
def load (f : File) : Session (List UInt8) :=
  match f.contents with
  | (.ok bytes, _) => do
    note [f.loadedNote]
    return bytes
  | (.error e, _) => fail (.file e) e.note?.toList

/-- The image in a file. -/
def openImage (f : File) : Session Image :=
  let opening := Image.ofFile f
  match opening.image with
  | .ok image => do
    note opening.notes
    return image
  | .error (.file e) => fail (.file e) opening.notes
  | .error (.image e) => fail (.image e) opening.notes

/-- A result that depends on the machine of an image. -/
def needMachine {α : Type} (result : Except ImageError α) : Session α :=
  match result with
  | .ok a => return a
  | .error e => fail (.image e) e.note?.toList

/-- The rows of a listing, each on a line. -/
def listing (o : Options) (records : List Instruction) : String :=
  let width := if o.hex then Instruction.defaultWidth else 0
  String.join (records.map fun i => i.listingLine o.dialect width ++ "\n")

/-- Decodes some regions and prints their listing. -/
def printListing (o : Options) (regions : List Region) : Session Unit := do
  let outcome := Region.perform o.threads regions
  note outcome.notes
  modify (Console.worker outcome.workerNotes)
  match outcome.records with
  | .ok records => print (listing o records)
  | .error e => throw (.configuration e)

/-- A whole file as code. -/
def disassembleRaw (o : Options) (f : File) (mode : Mode) : Session Exit := do
  let bytes ← load f
  printListing o [⟨bytes, ⟨mode, o.base⟩, finalComponent o.fileName⟩]
  return .success

/-- Reported of a region that is left out. -/
def skippedNote (r : Region) : Log.Message :=
  ⟨.terminal, .info, "Skipping empty section " ++ r.name⟩

/-- The regions to decode, empty ones among them, or nothing if the section asked for is not
there. -/
def wantedRegions (o : Options) (image : Image) : Except ImageError (Option (List Region)) :=
  if o.allSections then (image.codeRegions o.mode).map some
  else (image.codeRegion? o.sectionName o.mode).map fun r => r.map ([·])

/-- The code of an image. -/
def disassembleImage (o : Options) (f : File) : Session Exit := do
  let image ← openImage f
  if o.headers then print (summary image)
  match ← needMachine (wantedRegions o image) with
  | none =>
    complain (o.fileName ++ ": no section named " ++ o.sectionName ++ "\n")
    return .failure
  | some regions =>
    note ((regions.filter (·.bytes.isEmpty)).map skippedNote)
    let regions := regions.filter (!·.bytes.isEmpty)
    if regions.isEmpty then
      complain (o.fileName ++ ": no code to disassemble\n")
      return .failure
    else
      printListing o regions
      return .success

/-- What the options ask for. -/
def disassemble (lookup : String → Option (List UInt8)) (o : Options) : Session Exit := do
  let f ← openFile lookup o.fileName
  match o.raw, o.mode with
  | true, some mode => disassembleRaw o f mode
  | _, _ => disassembleImage o f

/-! ## Whole runs -/

/-- Runs a command line. `lookup` gives the bytes of the regular file that a name leads to, and
`level` is how much of the log is shown unless less is asked for. -/
def run (lookup : String → Option (List UInt8)) (level : Log.Level) (program : String)
    (args : List String) : Exit × Console :=
  let name := finalComponent program
  let console : Console := { level }
  match Options.ofArguments (.ofList args) with
  | .error e =>
    let text := name ++ ": " ++ e.fault.message ++ "; use --help for usage\n"
    (.failure, ((console.note e.note).complain text).flush)
  | .ok o =>
    if o.help then (.success, console.print (usage name))
    else
      let level := if o.quiet then level.min .errors else level
      match (disassemble lookup o).run.run { console with level } with
      | (.ok exit, c) => (exit, c.flush)
      | (.error e, c) => (.failure, (c.complain (name ++ ": " ++ e.description ++ "\n")).flush)

end Disasm.CommandLine
