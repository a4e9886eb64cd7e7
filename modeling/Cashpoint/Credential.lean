/-
# User names and PINs

A user name is 1 to 250 ASCII letters, so that it is a file name together with any
short extension, and a word of a console line. A PIN is four ASCII digits.
-/

namespace Cashpoint
namespace Credential

/-- The length of the longest user name. -/
def longestUserName : Nat := 250

/-- Whether a text is a user name: letters, at least one and not too many. -/
def isUserName (text : String) : Bool :=
  0 < text.toList.length && text.toList.length ≤ longestUserName && text.toList.all Char.isAlpha

/-- Whether a text is a PIN: four digits. -/
def isPin (text : String) : Bool := text.toList.length == 4 && text.toList.all Char.isDigit

end Credential
end Cashpoint
