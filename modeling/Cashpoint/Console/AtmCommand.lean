/-
# Commands at the ATM

| command | line |
| --- | --- |
| `beginSession u` | `begin-session u` |
| `withdraw n` | `withdraw n` |
| `balance` | `balance` |
| `endSession` | `end-session` |

The words decide, not the blanks between them.
-/

import Cashpoint.Amount
import Cashpoint.Console.Rejection
import Cashpoint.Credential
import Cashpoint.Text.Blank

namespace Cashpoint
namespace Console

/-- What can be asked for at the ATM. -/
inductive AtmCommand
  | beginSession (user : String)
  | withdraw (amount : Amount)
  | balance
  | endSession
  deriving DecidableEq, Repr

namespace AtmCommand

/-- The line that stands for a command. -/
def render : AtmCommand → String
  | beginSession user => "begin-session " ++ user
  | withdraw amount => "withdraw " ++ amount.render
  | balance => "balance"
  | endSession => "end-session"

/-- The arguments of `begin-session`. -/
def beginSessionOf : List String → Except Rejection AtmCommand
  | [user] => if Credential.isUserName user then .ok (beginSession user) else .error (.usage .beginSession)
  | _ => .error (.usage .beginSession)

/-- The arguments of `withdraw`. -/
def withdrawOf : List String → Except Rejection AtmCommand
  | [amount] =>
    match Amount.ofString? amount with
    | some amount => .ok (withdraw amount)
    | none => .error (.usage .withdraw)
  | _ => .error (.usage .withdraw)

/-- The arguments of `balance`. -/
def balanceOf : List String → Except Rejection AtmCommand
  | [] => .ok balance
  | _ => .error (.usage .ownBalance)

/-- The arguments of `end-session`. -/
def endSessionOf : List String → Except Rejection AtmCommand
  | [] => .ok endSession
  | _ => .error (.usage .endSession)

/-- The command of a line's words. -/
def ofWords : List String → Except Rejection AtmCommand
  | [] => .error .empty
  | verb :: arguments =>
    if verb = "begin-session" then beginSessionOf arguments
    else if verb = "withdraw" then withdrawOf arguments
    else if verb = "balance" then balanceOf arguments
    else if verb = "end-session" then endSessionOf arguments
    else .error .invalid

/-- The command that a line stands for. -/
def ofLine (line : String) : Except Rejection AtmCommand := ofWords (Text.words line)

end AtmCommand
end Console
end Cashpoint
