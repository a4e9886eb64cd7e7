/-
# The program `init`

Makes an installation: `init <filename>` writes `<filename>.bank` and `<filename>.atm`.
-/

import Cashpoint.Program.Launch

namespace Cashpoint
namespace Program
namespace Init

def usage : String := "Usage:  init <filename>"

def grammar : Grammar where
  takesPath := true
  takesConfig := false

/-- The end of the program for what became of the installation. -/
def exitFor : Except Error Installation → Exit
  | .ok _ => { code := exitSuccess, output := line "Successfully initialized bank state" }
  | .error (.io ⟨.alreadyExists, _⟩) =>
    { code := exitExists, output := line "Error: one of the files already exists" }
  | .error _ => { code := exitFile }

/-- The whole program, with the random bytes of the keys. -/
def run (arguments : List String) (files : FileTree) (fresh : Bytes 64) : Exit × FileTree :=
  match Arguments.read grammar arguments with
  | .error refusal => (refuse usage refusal, files)
  | .ok a =>
    let (result, files) := Installation.provision files ⟨a.path?.getD ""⟩ fresh
    (exitFor result, files)

end Init
end Program
end Cashpoint
