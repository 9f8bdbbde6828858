import Disasm.CommandLine.Arguments
import Disasm.CommandLine.Numeral
import Disasm.Log
import Disasm.Mode
import Disasm.Text.Listing

/-!
# Options

What a command line asks for. The selected options are applied in the order of their names, so that
of several wrong ones the first in that order is the one complained about; only then is it checked
that there is exactly one file, and that raw code comes with its mode.
-/

namespace Disasm.CommandLine

/-- The options there are. -/
inductive OptionKey
  | allSections | base | bits | headers | help | noHex | quiet | raw | sectionName | dialect
  | threads
deriving DecidableEq, Inhabited

/-- What the options are called. -/
def OptionKey.names : List (String × OptionKey) :=
  [("all-sections", allSections), ("base", base), ("bits", bits), ("h", help),
   ("headers", headers), ("help", help), ("no-hex", noHex), ("quiet", quiet), ("raw", raw),
   ("section", sectionName), ("syntax", dialect), ("threads", threads)]

def OptionKey.ofName? (name : String) : Option OptionKey := names.lookup name

/-- Everything that can be asked for. With `raw`, a whole file is code that starts at `base`. -/
structure Options where
  dialect : Dialect := .intel
  sectionName : String := ".text"
  allSections : Bool := false
  raw : Bool := false
  mode : Option Mode := none
  base : UInt64 := 0
  threads : Nat := 1
  hex : Bool := true
  headers : Bool := false
  quiet : Bool := false
  help : Bool := false
  fileName : String := ""
deriving DecidableEq, Inhabited

/-- What can be wrong with a command line. -/
inductive OptionError
  | unknownOption (name : String)
  | badValue (name value : String)
  | wrongFileCount (count : Nat)
  | rawWithoutBits
deriving DecidableEq, Inhabited

/-- The kinds of errors that a caller tells apart. -/
inductive OptionFault
  | unknownOption | badValue | missingFile
deriving DecidableEq, Inhabited

def OptionFault.message : OptionFault → String
  | unknownOption => "unrecognised option"
  | badValue => "bad option value"
  | missingFile => "exactly one input file is required"

namespace OptionError

def fault : OptionError → OptionFault
  | unknownOption _ => .unknownOption
  | badValue .. | rawWithoutBits => .badValue
  | wrongFileCount _ => .missingFile

/-- What is reported of an error. -/
def note (e : OptionError) : Log.Message :=
  ⟨.terminal, .error, match e with
    | unknownOption name => "Unknown option --" ++ name
    | badValue name value => "Can't use '" ++ value ++ "' for --" ++ name
    | wrongFileCount count => "Expected one file name but got " ++ toString count
    | rawWithoutBits => "--raw requires --bits"⟩

end OptionError

/-- The mode that a text gives in bits. -/
def mode? (s : String) : Option Mode :=
  match decimal? s with
  | some 16 => some .m16
  | some 32 => some .m32
  | some 64 => some .m64
  | _ => none

def dialect? (s : String) : Option Dialect :=
  if s = "intel" then some .intel else if s = "att" then some .att else none

namespace Options

/-- The options with one more of them set, if its value will do. A flag has none. -/
def assign? (o : Options) (key : OptionKey) (value : String) : Option Options :=
  let flag (o : Options) := if value = "" then some o else none
  match key with
  | .allSections => flag { o with allSections := true }
  | .base => (hexadecimal? value).map fun n => { o with base := UInt64.ofNat n }
  | .bits => (mode? value).map fun m => { o with mode := some m }
  | .headers => flag { o with headers := true }
  | .help => flag { o with help := true }
  | .noHex => flag { o with hex := false }
  | .quiet => flag { o with quiet := true }
  | .raw => flag { o with raw := true }
  | .sectionName => if value = "" then none else some { o with sectionName := value }
  | .dialect => (dialect? value).map fun d => { o with dialect := d }
  | .threads => ((decimal? value).filter (0 < ·)).map fun n => { o with threads := n }

/-- The options with the one of this name set. -/
def set (o : Options) (name value : String) : Except OptionError Options :=
  match OptionKey.ofName? name with
  | none => .error (.unknownOption name)
  | some key =>
    match o.assign? key value with
    | none => .error (.badValue name value)
    | some o => .ok o

/-- The options with all of these set, one after the other. -/
def setAll (o : Options) : Selections → Except OptionError Options
  | [] => .ok o
  | (name, value) :: rest =>
    match o.set name value with
    | .ok o => o.setAll rest
    | .error e => .error e

/-- What the arguments ask for. A request for help needs no file. -/
def ofArguments (a : Arguments) : Except OptionError Options :=
  match ({} : Options).setAll a.selections with
  | .error e => .error e
  | .ok o =>
    if o.help then .ok o
    else
      match a.files with
      | [file] =>
        if o.raw ∧ o.mode = none then .error .rawWithoutBits else .ok { o with fileName := file }
      | files => .error (.wrongFileCount files.length)

end Options

/-- What is printed in answer to a request for help. -/
def usage (program : String) : String :=
  "Usage: " ++ program ++ " [OPTIONS] file\n" ++
  "\n" ++
  "\t--syntax=\x7bintel|att\x7d\tassembly syntax; Intel by default\n" ++
  "\t--section=NAME\t\tsection to disassemble; .text by default\n" ++
  "\t--all-sections\t\tdisassemble every section containing code\n" ++
  "\t--raw\t\t\ttreat the whole file as code; requires --bits\n" ++
  "\t--bits=\x7b16|32|64\x7d\tdecoding mode; otherwise implied by the machine type\n" ++
  "\t--base=ADDRESS\t\thexadecimal address of the first byte in --raw mode\n" ++
  "\t--threads=N\t\tnumber of sections to decode concurrently\n" ++
  "\t--no-hex\t\tomit raw instruction bytes\n" ++
  "\t--headers\t\tsummarise the PE headers before the listing\n" ++
  "\t--quiet\t\t\tlog errors only\n"

end Disasm.CommandLine
