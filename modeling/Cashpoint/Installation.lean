/-
# Installations

An installation is a pair of key files with the same content, one for the Bank and
one for the ATM. `provision` makes it: nothing is written if either file is there,
directories that are missing on the way to the base are made, and each file is
created, never replaced.
-/

import Cashpoint.Keys

namespace Cashpoint

/-- Where the two files with the keys are. -/
structure Installation where
  bankFile : Path
  atmFile : Path
  deriving DecidableEq, Repr

namespace Installation

/-- The ending of the Bank's key file. -/
def bankEnding : String := ".bank"

/-- The ending of the ATM's key file. -/
def atmEnding : String := ".atm"

/-- The installation with a common base. -/
def ofBase (base : Path) : Installation where
  bankFile := base.append bankEnding
  atmFile := base.append atmEnding

/-- The error of a base whose installation exists already. -/
def alreadyThere : Error := .io ⟨.alreadyExists, some "one of the files already exists"⟩

/-- Both key files, in the order in which they are created. -/
def writeFiles (files : FileTree) (installation : Installation) (keys : Keys) :
    Except IoKind Unit × FileTree :=
  match files.createFile installation.bankFile keys.toBytes with
  | .error kind => (.error kind, files)
  | .ok files =>
    match files.createFile installation.atmFile keys.toBytes with
    | .error kind => (.error kind, files)
    | .ok files => (.ok (), files)

/-- A new installation, with the keys that the random source gives. It is asked only when the directories are
there. The tree is returned also where that fails. -/
def provisionFrom (files : FileTree) (base : Path) (random : Except String (Bytes 64)) :
    Except Error Installation × FileTree :=
  let installation := ofBase base
  if files.exists? installation.bankFile || files.exists? installation.atmFile then
    (.error alreadyThere, files)
  else
    match files.makeDirectories base.enclosing with
    | (.error kind, files) => (.error (.ofKind kind), files)
    | (.ok (), files) =>
      match random with
      | .error reason => (.error (.entropy reason), files)
      | .ok fresh =>
        match writeFiles files installation (.ofFile fresh) with
        | (.error kind, files) => (.error (.ofKind kind), files)
        | (.ok (), files) => (.ok installation, files)

/-- A new installation with the keys in `fresh`. -/
def provision (files : FileTree) (base : Path) (fresh : Bytes 64) : Except Error Installation × FileTree :=
  provisionFrom files base (.ok fresh)

end Installation
end Cashpoint
