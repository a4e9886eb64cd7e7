/-
# The machine's files

A program looks at few paths, all of them known before it looks. `observe` copies what
stands on the way of a path into a file tree, the program works on the tree, and
`settle` makes what it added. Making is exclusive, so what came in between is never
replaced.
-/

import Cashpoint.Files.Tree

namespace Cashpoint
namespace Disk

/-- The name of a location for the system. -/
def nameOf (place : Location) : String := "/" ++ String.intercalate "/" place

/-- The location of the current directory. -/
def home : IO Location := do
  let directory ← IO.currentDir
  return (Path.mk directory.toString).pieces.filter (· ≠ "")

/-- What stands at a location. What cannot be looked at counts as missing. -/
def entryAt (place : Location) : IO (Option Entry) :=
  try
    let path := (← IO.currentDir) / nameOf place
    if ← path.isDir then return some .directory
    else if ← path.pathExists then return some (.file (← IO.FS.readBinFile path).toList)
    else return none
  catch _ => return none

/-- The tree with what stands at a location. -/
def look (t : FileTree) (place : Location) : IO FileTree := do
  if place = [] then return t
  match ← entryAt place with
  | some entry => return t.put place entry
  | none => return t

/-- The tree with all that stands on the way of a path. -/
def observe (t : FileTree) (p : Path) : IO FileTree := do
  let mut place := t.start p
  let mut t ← look t place
  for step in p.steps do
    place := match step with
      | .stay => place
      | .up => place.dropLast
      | .down name => place ++ [name]
    t ← look t place
  return t

/-- The tree with all that stands on the way of several paths. -/
def observeAll (paths : List Path) : IO FileTree := do
  paths.foldlM observe { home := ← home }

/-- Makes what one tree has and the other has not. -/
def settle (before after : FileTree) : IO Unit := do
  for (place, entry) in after.entries.entries do
    if (before.lookup place).isNone then
      match entry with
      | .directory => IO.FS.createDir (nameOf place)
      | .file content =>
        let handle ← IO.FS.Handle.mk (nameOf place) .writeNew
        handle.write ⟨content.toArray⟩

end Disk
end Cashpoint
