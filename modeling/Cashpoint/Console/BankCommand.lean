/-
# Commands at the Bank

| command | line |
| --- | --- |
| `createUser u p n` | `create-user u p n` |
| `deposit u n` | `deposit u n` |
| `balance u` | `balance u` |

Whichever argument of a line is wrong, the answer is the usage line of its verb.
-/

import Cashpoint.Amount
import Cashpoint.Console.Rejection
import Cashpoint.Credential
import Cashpoint.Text.Blank

namespace Cashpoint
namespace Console

/-- What can be asked for at the Bank. -/
inductive BankCommand
  | createUser (user pin : String) (opening : Amount)
  | deposit (user : String) (amount : Amount)
  | balance (user : String)
  deriving DecidableEq, Repr

namespace BankCommand

/-- The user that a command is about. -/
def user : BankCommand → String
  | createUser user _ _ | deposit user _ | balance user => user

/-- The line that stands for a command. -/
def render : BankCommand → String
  | createUser user pin opening => "create-user " ++ user ++ " " ++ pin ++ " " ++ opening.render
  | deposit user amount => "deposit " ++ user ++ " " ++ amount.render
  | balance user => "balance " ++ user

/-- The arguments of `create-user`. -/
def createUserOf : List String → Except Rejection BankCommand
  | [user, pin, opening] =>
    if Credential.isUserName user && Credential.isPin pin then
      match Amount.ofString? opening with
      | some opening => .ok (createUser user pin opening)
      | none => .error (.usage .createUser)
    else
      .error (.usage .createUser)
  | _ => .error (.usage .createUser)

/-- The arguments of `deposit`. -/
def depositOf : List String → Except Rejection BankCommand
  | [user, amount] =>
    if Credential.isUserName user then
      match Amount.ofString? amount with
      | some amount => .ok (deposit user amount)
      | none => .error (.usage .deposit)
    else
      .error (.usage .deposit)
  | _ => .error (.usage .deposit)

/-- The arguments of `balance`. -/
def balanceOf : List String → Except Rejection BankCommand
  | [user] => if Credential.isUserName user then .ok (balance user) else .error (.usage .balanceOf)
  | _ => .error (.usage .balanceOf)

/-- The command of a line's words. -/
def ofWords : List String → Except Rejection BankCommand
  | [] => .error .empty
  | verb :: arguments =>
    if verb = "create-user" then createUserOf arguments
    else if verb = "deposit" then depositOf arguments
    else if verb = "balance" then balanceOf arguments
    else .error .invalid

/-- The command that a line stands for. -/
def ofLine (line : String) : Except Rejection BankCommand := ofWords (Text.words line)

end BankCommand
end Console
end Cashpoint
