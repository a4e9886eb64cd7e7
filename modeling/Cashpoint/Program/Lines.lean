/-
# Lines of input

Input is cut after every newline. A line keeps its newline, which only the last may be
without, and is `none` if it is not well-formed UTF-8.
-/

import Cashpoint.Text.Utf8

namespace Cashpoint
namespace Program

/-- Input cut after every newline. -/
def cutLines : List UInt8 → List (List UInt8)
  | [] => []
  | byte :: rest =>
    if byte = 10 then [byte] :: cutLines rest
    else
      match cutLines rest with
      | [] => [[byte]]
      | first :: more => (byte :: first) :: more

/-- The lines of an input. -/
def linesOf (input : List UInt8) : List (Option String) := (cutLines input).map Utf8.decode?

end Program
end Cashpoint
