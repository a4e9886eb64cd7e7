/-
# The file tree

Directories and files below one root, without links. A `Location` is the list of
names that leads from the root to an entry; the root itself is a directory.

A path is followed step by step, and the first thing in the way is the error:

* a step into or out of what is no directory (`notADirectory`) or what is not there
  (`notFound`),
* a name of more than 255 bytes, looked up in a directory that is there, or a path of
  more than 4095 bytes (`invalidFilename`),
* a zero character anywhere in the path (`invalidInput`), which comes before all else.

Nothing that exists is ever replaced by `createFile` or `makeDirectory`; they add one
entry or change nothing.
-/

import Cashpoint.Error
import Cashpoint.Files.Path
import Cashpoint.Table

namespace Cashpoint

/-- The names from the root to an entry. -/
abbrev Location := List String

/-- What can stand at a location. -/
inductive Entry
  | directory
  | file (content : List UInt8)
  deriving DecidableEq

/-- Everything that stands in a file system, by its location, and the current directory. -/
structure FileTree where
  entries : Table Location Entry := .empty
  /-- The directory at which relative paths start. -/
  home : Location := []
  deriving DecidableEq

namespace FileTree

/-- The size in bytes of the longest name. -/
def longestName : Nat := 255

/-- The size in bytes of the longest path. -/
def longestPath : Nat := 4095

/-- What stands at a location. -/
def lookup (t : FileTree) (place : Location) : Option Entry :=
  if place = [] then some .directory else t.entries.get? place

/-- The tree with an entry put at a location. -/
def put (t : FileTree) (place : Location) (entry : Entry) : FileTree :=
  { t with entries := t.entries.set place entry }

/-- The tree without the entry at a location. -/
def remove (t : FileTree) (place : Location) : FileTree :=
  { t with entries := t.entries.erase place }

/-- A new entry stands at its location, and changes no other. -/
theorem lookup_put {t : FileTree} {place at' : Location} {entry : Entry} (h : place ≠ []) :
    (t.put place entry).lookup at' = if place = at' then some entry else t.lookup at' := by
  simp only [lookup, put, Table.get?_set]
  by_cases h' : at' = []
  · subst h'; simp [h]
  · simp [h']

/-! ## Following a path -/

/-- Whether a directory stands at a location, and what is in the way if not. -/
def requireDirectory (t : FileTree) (place : Location) : Except IoKind Unit :=
  match t.lookup place with
  | some .directory => .ok ()
  | some (.file _) => .error .notADirectory
  | none => .error .notFound

/-- The location of a name in a directory. -/
def child (place : Location) (name : String) : Except IoKind Location :=
  if name.utf8ByteSize > longestName then .error .invalidFilename else .ok (place ++ [name])

/-- The location one step away from a directory. The root is above itself. -/
def step (t : FileTree) (place : Location) : Path.Step → Except IoKind Location
  | .stay => do t.requireDirectory place; return place
  | .up => do t.requireDirectory place; return place.dropLast
  | .down name => do t.requireDirectory place; child place name

/-- The location that steps lead to. What stands there is not looked at. -/
def walk (t : FileTree) (start : Location) (steps : List Path.Step) : Except IoKind Location :=
  steps.foldlM (step t) start

/-- Whether a path can be followed at all. -/
def checkPath (p : Path) : Except IoKind Unit :=
  if p.text.toList.contains (Char.ofNat 0) then .error .invalidInput
  else if p.text = "" then .error .notFound
  else if p.text.utf8ByteSize > longestPath then .error .invalidFilename
  else .ok ()

/-- The location at which a path starts. -/
def start (t : FileTree) (p : Path) : Location := if p.isAbsolute then [] else t.home

/-- The entry that a path names, and its location. -/
def resolve (t : FileTree) (p : Path) : Except IoKind (Location × Entry) := do
  checkPath p
  let place ← t.walk (t.start p) p.steps
  match t.lookup place with
  | none => throw .notFound
  | some (.file content) =>
    if p.endsInSlash then throw .notADirectory else return (place, .file content)
  | some .directory => return (place, .directory)

/-- The location for a new entry: the directory that the path leads to before its last step, and the
name it gives. A path that ends in no name is taken already. -/
def vacancy (t : FileTree) (p : Path) : Except IoKind Location := do
  checkPath p
  let directory ← t.walk (t.start p) p.steps.dropLast
  t.requireDirectory directory
  match p.steps.getLast? with
  | some (.down name) =>
    let place ← child directory name
    if (t.lookup place).isSome then throw .alreadyExists else return place
  | _ => throw .alreadyExists

/-! ## Operations -/

/-- Whether a path leads to something. -/
def exists? (t : FileTree) (p : Path) : Bool := (t.resolve p).toOption.isSome

/-- Whether a path leads to a directory. -/
def isDirectory (t : FileTree) (p : Path) : Bool :=
  match t.resolve p with
  | .ok (_, .directory) => true
  | _ => false

/-- The content of a file. -/
def read (t : FileTree) (p : Path) : Except IoKind (List UInt8) := do
  match ← t.resolve p with
  | (_, .directory) => throw .isADirectory
  | (_, .file content) => return content

/-- The tree with a new file. -/
def createFile (t : FileTree) (p : Path) (content : List UInt8) : Except IoKind FileTree := do
  if p.endsInSlash then
    checkPath p
    throw .isADirectory
  let place ← t.vacancy p
  return t.put place (.file content)

/-- The tree with a new directory. -/
def makeDirectory (t : FileTree) (p : Path) : Except IoKind FileTree := do
  let place ← t.vacancy p
  return t.put place .directory

/-- Makes the first of some directories, each inside the next, and those around it that are missing.
The tree is returned also where that fails, with the directories made until then. -/
def makeDirectories (t : FileTree) : List Path → Except IoKind Unit × FileTree
  | [] => (.ok (), t)
  | p :: around =>
    match t.makeDirectory p with
    | .ok t => (.ok (), t)
    | .error .notFound =>
      match t.makeDirectories around with
      | (.error e, t) => (.error e, t)
      | (.ok (), t) =>
        match t.makeDirectory p with
        | .ok t => (.ok (), t)
        | .error e => (if t.isDirectory p then .ok () else .error e, t)
    | .error e => (if t.isDirectory p then .ok () else .error e, t)

/-- The entries below a location, each with the names that lead to it from there. -/
def below (t : FileTree) (place : Location) : List (Location × Entry) :=
  t.entries.entries.filterMap fun (at', entry) =>
    if place <+: at' ∧ at' ≠ place then some (at'.drop place.length, entry) else none

end FileTree
end Cashpoint
