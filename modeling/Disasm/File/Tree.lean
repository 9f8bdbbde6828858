import Disasm.File

/-!
# Trees of files

A directory with what it holds, as far as it matters to opening files: which path leads to a regular
file, and what that file holds.

Paths start in the directory. `..` leads back up the way that was come. What lies outside is known
as far as it was written there: at the top, `..` is an entry like another, and so is the root `/`,
at which paths with a slash in front of them start.
-/

namespace Disasm

/-- A regular file or a directory. -/
inductive FileTree
  | file (bytes : List UInt8)
  | directory (entries : List (String × FileTree))
deriving Inhabited

namespace FileTree

/-- A directory without entries. -/
def empty : FileTree := directory []

/-- What a directory calls by a name. -/
def entry? (t : FileTree) (name : String) : Option FileTree :=
  match t with
  | file _ => none
  | directory entries => entries.lookup name

/-- The directory with one entry set. -/
def setEntry (t : FileTree) (name : String) (e : FileTree) : FileTree :=
  match t with
  | file _ => directory [(name, e)]
  | directory entries => directory ((name, e) :: entries.filter (·.1 != name))

/-! ## Paths -/

/-- The most characters that a path can have. -/
def maxPathLength : Nat := 4095

/-- The names on the way that a path describes. -/
def parts (path : String) : List String :=
  match (File.properName path).splitOn "/" with
  | "" :: name :: names => "/" :: name :: names
  | names => names

/-- Whether a name stays where it is. -/
def isHere (name : String) : Bool := name = "" ∨ name = "."

/-- Follows names from a directory, whose parents are given, innermost first. -/
def follow (parents : List FileTree) (t : FileTree) : List String → Option FileTree
  | [] => some t
  | name :: names =>
    match t with
    | file _ => none
    | directory _ =>
      if isHere name then follow parents t names
      else
        match name, parents with
        | "..", parent :: parents => follow parents parent names
        | _, _ =>
          match t.entry? name with
          | some e => follow (if name = ".." ∨ name = "/" then [] else t :: parents) e names
          | none => none

/-- The bytes of the regular file that a path leads to. -/
def bytes? (t : FileTree) (path : String) : Option (List UInt8) :=
  if maxPathLength < (File.properName path).length then none
  else
    match t.follow [] (parts path) with
    | some (file bytes) => some bytes
    | _ => none

/-! ## Writing -/

/-- The entries that some names lead through without going back, given those that led here,
innermost first. -/
def route (back : List String) : List String → List String
  | [] => back.reverse
  | name :: names =>
    if isHere name then route back names
    else if name = ".." then
      match back with
      | [] => route [".."] names
      | ".." :: _ => route (".." :: back) names
      | "/" :: _ => route back names
      | _ :: back => route back names
    else route (name :: back) names

/-- The tree with an entry at the end of a route, and the directories on the way to it. -/
def insert : FileTree → List String → FileTree → FileTree
  | _, [], e => e
  | t, name :: names, e => t.setEntry name (insert ((t.entry? name).getD empty) names e)

/-- The tree with directories along a route. -/
def makeDirectories : FileTree → List String → FileTree
  | t, [] => t
  | t, name :: names => t.setEntry name (makeDirectories ((t.entry? name).getD empty) names)

/-- The tree with a regular file at a path, and with every directory that the path leads through. A
path that ends without a name for the file makes directories only. -/
def write (t : FileTree) (path : String) (bytes : List UInt8) : FileTree :=
  let names := parts path
  let t := (List.range names.length).foldl
    (fun t n => t.makeDirectories (route [] (names.take n))) t
  let last := names.getLastD ""
  if isHere last ∨ last = ".." then t else t.insert (route [] names) (file bytes)

end FileTree

end Disasm
