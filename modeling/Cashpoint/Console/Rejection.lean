/-
# Refused console lines

A line is refused for one of three reasons, and each has its own answer: a blank
line none, a known verb with wrong arguments the usage line of that verb, and any
other line `Invalid command`.
-/

namespace Cashpoint
namespace Console

/-- The verbs of the two consoles, each with its own arguments. -/
inductive Usage
  | beginSession
  | withdraw
  | ownBalance
  | endSession
  | createUser
  | deposit
  | balanceOf
  deriving DecidableEq, Repr

/-- The usage line of a verb. -/
def Usage.line : Usage → String
  | beginSession => "Usage: begin-session <user-name>"
  | withdraw => "Usage: withdraw <amt>"
  | ownBalance => "Usage: balance"
  | endSession => "Usage: end-session"
  | createUser => "Usage: create-user <user-name> <pin> <balance>"
  | deposit => "Usage: deposit <user-name> <amt>"
  | balanceOf => "Usage: balance <user-name>"

/-- Why a line is no command. -/
inductive Rejection
  /-- There is no word in it. -/
  | empty
  /-- Its verb is known and its arguments are wrong. -/
  | usage (expected : Usage)
  /-- Its verb is unknown. -/
  | invalid
  deriving DecidableEq, Repr

/-- What the console answers, if anything. -/
def Rejection.message : Rejection → Option String
  | empty => none
  | usage expected => some expected.line
  | invalid => some "Invalid command"

end Console
end Cashpoint
