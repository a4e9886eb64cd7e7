/-
# Requests

The plaintext that an ATM sends to its Bank: a verb, a user name and, for a
withdrawal, an amount, as words of a line.

| request | text |
| --- | --- |
| `beginSession u` | `begin-session u` |
| `withdraw u n` | `withdraw u n` |
| `balance u` | `balance u` |

Reading checks the user name and the amount; everything else is `none`.
-/

import Cashpoint.Amount
import Cashpoint.Credential
import Cashpoint.Text.Blank

namespace Cashpoint

/-- What the ATM asks the Bank for. -/
inductive Request
  | beginSession (user : String)
  | withdraw (user : String) (amount : Amount)
  | balance (user : String)
  deriving DecidableEq, Repr

namespace Request

/-- The user on whose behalf the request is made. -/
def user : Request → String
  | beginSession user | withdraw user _ | balance user => user

/-- The line that stands for a request. -/
def render : Request → String
  | beginSession user => "begin-session " ++ user
  | withdraw user amount => "withdraw " ++ user ++ " " ++ amount.render
  | balance user => "balance " ++ user

/-- The request of a line's words, its user name unchecked. -/
def ofWords? : List String → Option Request
  | ["begin-session", user] => some (beginSession user)
  | ["withdraw", user, amount] => (Amount.ofString? amount).map (withdraw user)
  | ["balance", user] => some (balance user)
  | _ => none

/-- The request that a text stands for. -/
def ofString? (text : String) : Option Request :=
  (ofWords? (Text.words text)).filter fun request => Credential.isUserName request.user

end Request
end Cashpoint
