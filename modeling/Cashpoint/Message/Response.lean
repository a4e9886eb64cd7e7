/-
# Responses

The plaintext that a Bank sends back. Blanks at the end of the text do not matter,
everything before them does.

A response `answers` a request when a Bank could have sent it for that request. An
ATM takes nothing else for an answer: cash goes out only for a withdrawal, and only
the amount that was asked for.
-/

import Cashpoint.Message.Request

namespace Cashpoint

/-- What the Bank answers. -/
inductive Response
  | success
  | noSuchUser
  | insufficientFunds
  | dispensed (amount : Amount)
  | balance (amount : Amount)
  | invalidCommand
  deriving DecidableEq, Repr

namespace Response

/-- The text of a response. -/
def render : Response → String
  | success => "success"
  | noSuchUser => "No such user"
  | insufficientFunds => "Insufficient funds"
  | dispensed amount => "$" ++ amount.render ++ " dispensed"
  | balance amount => "$" ++ amount.render
  | invalidCommand => "Invalid command"

/-- The end of the text of a dispensed amount. -/
def dispensedEnding : List Char := " dispensed".toList

/-- The response of a text that starts with a dollar sign, given what follows the sign. -/
def ofMoney? (text : List Char) : Option Response :=
  if dispensedEnding <:+ text then
    (Amount.ofDigits? (text.take (text.length - dispensedEnding.length))).map dispensed
  else
    (Amount.ofDigits? text).map balance

/-- The response that a text without blanks at its end stands for. -/
def ofTrimmed? (text : String) : Option Response :=
  if text = success.render then some success
  else if text = noSuchUser.render then some noSuchUser
  else if text = insufficientFunds.render then some insufficientFunds
  else if text = invalidCommand.render then some invalidCommand
  else
    match text.toList with
    | '$' :: rest => ofMoney? rest
    | _ => none

/-- The response that a text stands for. -/
def ofString? (text : String) : Option Response := ofTrimmed? (Text.trimEnd text)

/-- Whether a Bank could have sent the response for the request. -/
def answers : Response → Request → Bool
  | noSuchUser, _ => true
  | success, .beginSession _ => true
  | dispensed paid, .withdraw _ asked => paid == asked
  | insufficientFunds, .withdraw _ _ => true
  | balance _, .balance _ => true
  | _, _ => false

/-- **Cash is an answer only to a withdrawal of that amount.** -/
theorem answers_dispensed {amount : Amount} {request : Request} :
    (dispensed amount).answers request = true ↔ ∃ user, request = .withdraw user amount := by
  cases request with
  | withdraw user asked => simp [answers, @eq_comm _ amount]
  | beginSession user => simp [answers]
  | balance user => simp [answers]

end Response
end Cashpoint
