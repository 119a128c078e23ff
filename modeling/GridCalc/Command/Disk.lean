import GridCalc.Stop

/-!
# Files

What a command sees of the files around it: the bytes that reading a path gives, and whether a
path can be opened for writing. A small tree of files and directories, given by their paths, is
one way to answer.
-/

set_option autoImplicit false

namespace GridCalc.Command
open GridCalc

structure Disk where
  read : String → Except Breakdown ByteArray
  create : String → Except Breakdown Unit

/-- A directory or file by the names on the way to it, or anything outside the tree. -/
abbrev Place := Option (List String)

namespace Place

def above : Place → Place
  | some (name :: names) => some (name :: names).dropLast
  | _ => none

def isStep (part : String) : Bool := part = "" || part = "." || part = ".."

def enter (here : Place) (part : String) : Place :=
  if part = ".." then above here
  else if isStep part then here
  else here.map (· ++ [part])

def start (path : String) : Place := if path.startsWith "/" then none else some []

def ofPath (path : String) : Place := (path.splitOn "/").foldl enter (start path)

end Place

/-- Files with their bytes, and directories, by the names on the way to them. -/
abbrev FileTree := List (List String × Option ByteArray)

namespace FileTree

def ofNames (files : List (String × Option ByteArray)) : FileTree :=
  files.filterMap fun (name, bytes) => (Place.ofPath name).map fun names => (names, bytes)

inductive Found where
  | file (bytes : ByteArray)
  | directory
  | nothing

def look (t : FileTree) (names : List String) : Found :=
  match t.find? (·.1 = names) with
  | some (_, some bytes) => .file bytes
  | some (_, none) => .directory
  | none => if names = [] ∨ t.any (fun e => names.isPrefixOf e.1) then .directory else .nothing

def found (t : FileTree) : Place → Found
  | some names => t.look names
  | none => .nothing

def longestName : Nat := 255

def longestPath : Nat := 4096

/-- Follows the parts of a path from a directory on. All but the last have to be directories. A
name with a slash after it is not looked for if a file is to be made of it: it can only stand for
a directory. -/
def follow (t : FileTree) (path : String) (creating : Bool) :
    Place → List String → Except Breakdown Found
  | _, [] => .ok .directory
  | here, part :: rest =>
    let next := here.enter part
    if Place.isStep part then t.follow path creating next rest
    else if creating ∧ rest ≠ [] ∧ rest.all (· = "") then .ok .directory
    else if longestName < part.utf8ByteSize then .error (.longPath path)
    else match t.found next with
      | .directory => t.follow path creating next rest
      | .file bytes => if rest = [] then .ok (.file bytes) else .error (.directoryExpected path)
      | .nothing => if rest.all (· = "") then .ok .nothing else .error (.missingFile path)

def resolve (t : FileTree) (creating : Bool) (path : String) : Except Breakdown Found :=
  if path.contains '\x00' then .error .brokenPath
  else if path = "" then .error (.missingFile path)
  else if longestPath ≤ path.utf8ByteSize then .error (.longPath path)
  else t.follow path creating (Place.start path) (path.splitOn "/")

def read (t : FileTree) (path : String) : Except Breakdown ByteArray := do
  match ← t.resolve false path with
  | .file bytes => return bytes
  | .directory => .error (.directoryFile path)
  | .nothing => .error (.missingFile path)

def create (t : FileTree) (path : String) : Except Breakdown Unit := do
  match ← t.resolve true path with
  | .directory => .error (.directoryFile path)
  | _ => return ()

def toDisk (t : FileTree) : Disk := ⟨t.read, t.create⟩

end FileTree

end GridCalc.Command
