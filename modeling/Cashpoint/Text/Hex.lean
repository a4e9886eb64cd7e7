/-
# Hexadecimal digits

Read in either case, as address groups and character escapes are.
-/

namespace Cashpoint
namespace Hex

/-- The value of a hexadecimal digit. -/
def digit? (c : Char) : Option Nat :=
  if '0' ≤ c ∧ c ≤ '9' then some (c.toNat - '0'.toNat)
  else if 'a' ≤ c ∧ c ≤ 'f' then some (c.toNat - 'a'.toNat + 10)
  else if 'A' ≤ c ∧ c ≤ 'F' then some (c.toNat - 'A'.toNat + 10)
  else none

/-- Whether a character is a hexadecimal digit. -/
def isDigit (c : Char) : Bool := (digit? c).isSome

/-- The value of a string of digits. Other characters count as zero. -/
def value (digits : List Char) : Nat :=
  digits.foldl (fun sum c => 16 * sum + (digit? c).getD 0) 0

end Hex
end Cashpoint
