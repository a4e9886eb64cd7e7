/-
# How the programs start

The ATM and the Bank start in the same way: the command line, the key file with the right
ending, the keys in it, the configuration, and last the address to bind. The first of
these that fails ends the program with its exit code. The relay needs no key file.

| exit code | reason |
| ---: | --- |
| 62 | no command line of the program, or no usable configuration |
| 63 | `init`: one of the key files exists |
| 64 | no usable key file, an address that cannot be bound, files that cannot be made |
-/

import Cashpoint.Config.Load
import Cashpoint.Installation
import Cashpoint.Program.Arguments

namespace Cashpoint
namespace Program

/-- The exit code of a program that has done what it was asked for. -/
def exitSuccess : UInt32 := 0

/-- The exit code of a program that was called in a wrong way. -/
def exitUsage : UInt32 := 62

/-- The exit code when a file is there already. -/
def exitExists : UInt32 := 63

/-- The exit code of any other failure with files. -/
def exitFile : UInt32 := 64

/-- The command line of a program with a key file. -/
def keyedGrammar : Grammar where
  takesPath := true
  takesConfig := true

/-- What a program is started with. -/
structure Start where
  arguments : List String
  /-- The configuration file that the environment names. -/
  environment : Option Path := none
  files : FileTree
  /-- Whether the machine lets a program bind an address. -/
  canBind : SocketAddress → Bool

/-- The end of a program, and what it printed until then. -/
structure Exit where
  code : UInt32
  output : String := ""
  deriving DecidableEq, Repr

/-- A line of output. -/
def line (text : String) : String := text ++ "\n"

/-- The end of a program that was not given a command line of its own. -/
def refuse (usage : String) : Refusal → Exit
  | .help => { code := exitSuccess, output := line usage }
  | .usage => { code := exitUsage, output := line usage }

/-- The end of a program that cannot go on. -/
def fail {α β : Type} (code : UInt32) : Except α β → Except Exit β
  | .ok value => .ok value
  | .error _ => .error { code }

/-- The configuration that a command line and an environment lead to. -/
def configure (start : Start) (a : Arguments) : Except Exit Config :=
  fail exitUsage (Config.resolve start.files (a.config?.map Path.mk) start.environment)

/-- Whether an address can be bound. -/
def bind (start : Start) (address : SocketAddress) : Except Exit Unit :=
  if start.canBind address then .ok () else .error { code := exitFile }

/-- The keys in a file that has the ending of the program's key files. -/
def loadKeys (start : Start) (ending : String) (file : Path) : Except Exit Keys :=
  if file.hasEnding ending then fail exitFile (Keys.load start.files file)
  else .error { code := exitFile }

/-- What a program with a key file works with. -/
structure Started where
  keys : Keys
  config : Config

/-- The keys and the configuration of a program started on a machine where it can bind the address that
the configuration gives it. -/
def begin (usage ending : String) (address : Config → SocketAddress) (start : Start) :
    Except Exit Started := do
  match Arguments.read keyedGrammar start.arguments with
  | .error refusal => throw (refuse usage refusal)
  | .ok a =>
    let keys ← loadKeys start ending ⟨a.path?.getD ""⟩
    let config ← configure start a
    bind start (address config)
    return { keys, config }

end Program
end Cashpoint
