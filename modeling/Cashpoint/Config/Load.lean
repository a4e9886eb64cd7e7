/-
# Configuration files

A program takes its configuration from the file it is told, else from the file that its
environment names, else from the defaults.
-/

import Cashpoint.Config.Json
import Cashpoint.Files.Tree
import Cashpoint.Text.Utf8

namespace Cashpoint
namespace Config

/-- The configuration in the content of a file. -/
def ofBytes (content : List UInt8) : Except Error Config :=
  match Utf8.decode? content with
  | none => .error (.ofKind .invalidData)
  | some text =>
    match ofJson text with
    | .error fault => .error (.serialization fault)
    | .ok config => config.validate

/-- The configuration in a file. -/
def load (files : FileTree) (p : Path) : Except Error Config :=
  match files.read p with
  | .error kind => .error (.ofKind kind)
  | .ok content => ofBytes content

/-- The configuration in the first of two files that is given, or the defaults. -/
def resolve (files : FileTree) (told environment : Option Path) : Except Error Config :=
  match told <|> environment with
  | some p => load files p
  | none => .ok {}

end Config
end Cashpoint
