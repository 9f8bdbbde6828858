/-!
# Arguments

An argument that starts with a dash selects an option, with a value after `=` or without one; any
other names a file. How many dashes there are does not matter.

`Arguments` holds the names of the files in the order given and the selected options in the order
of their names, each once.
-/

namespace Disasm.CommandLine

/-- An argument by itself. -/
inductive Argument
  | file (name : String)
  | flag (name : String)
  | setting (name value : String)
deriving DecidableEq, Inhabited

def Argument.ofString (s : String) : Argument :=
  match s.toList with
  | '-' :: cs =>
    let body := cs.dropWhile (· == '-')
    let name := String.ofList (body.takeWhile (· != '='))
    match body.dropWhile (· != '=') with
    | [] => flag name
    | _ :: value => setting name (String.ofList value)
  | _ => file s

/-- Options with their values, in ascending order of their names. -/
abbrev Selections := List (String × String)

namespace Selections

/-- Sets the value of an option. -/
def put (name value : String) : Selections → Selections
  | [] => [(name, value)]
  | (n, v) :: rest =>
    if name < n then (name, value) :: (n, v) :: rest
    else if name = n then (name, value) :: rest
    else (n, v) :: put name value rest

/-- Selects an option. One that has a value keeps it. -/
def select (name : String) (s : Selections) : Selections :=
  match s.lookup name with
  | some _ => s
  | none => put name "" s

end Selections

/-- What a command line says. -/
structure Arguments where
  files : List String := []
  selections : Selections := []
deriving DecidableEq, Inhabited

namespace Arguments

def add (a : Arguments) : Argument → Arguments
  | .file name => { a with files := a.files ++ [name] }
  | .flag name => { a with selections := a.selections.select name }
  | .setting name value => { a with selections := a.selections.put name value }

def ofList (args : List String) : Arguments :=
  args.foldl (fun a s => a.add (.ofString s)) {}

end Arguments

end Disasm.CommandLine
