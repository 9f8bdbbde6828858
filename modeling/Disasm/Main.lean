import Disasm.CommandLine.Run

/-!
# The program

Arguments, file names and output are bytes; within the library they are texts of one character per
byte.
-/

namespace Disasm.Main

/-- The bytes of a text as characters. -/
def toByteText (s : String) : String := Image.byteText s.toUTF8.toList

/-- The bytes that the characters of a text stand for. -/
def ofByteText (s : String) : ByteArray := ⟨(s.toList.map fun c => UInt8.ofNat c.toNat).toArray⟩

/-- What the regular file of a name holds, if there is one that can be read. -/
def readFile (name : String) : IO (Option (List UInt8)) := do
  try
    let path ← IO.FS.realPath name
    if (← path.metadata).type == .file then
      return some (← IO.FS.readBinFile path).toList
    else return none
  catch _ => return none

/-- The file that a command line names, if it names one that is needed. -/
def neededFile (args : List String) : Option String :=
  match CommandLine.Options.ofArguments (.ofList args) with
  | .ok o => if o.help then none else some o.fileName
  | .error _ => none

end Disasm.Main

open Disasm Disasm.Main in
/-- Runs the command line it is given, without a log. -/
def main (args : List String) : IO UInt32 := do
  let program := toByteText (toString (← IO.appPath))
  let texts := args.map toByteText
  let file ← match args.find? fun s => some (toByteText s) = neededFile texts with
    | some name => readFile name
    | none => pure none
  let (exit, console) := CommandLine.run (fun _ => file) .none program texts
  (← IO.getStdout).write (ofByteText console.out)
  (← IO.getStderr).write (ofByteText console.err)
  return UInt32.ofNat exit.code
