/-
# The ledger

The Bank's balance of each user, from 0 to `2^31 - 1`. An operation finds its first
fault in the order negative amount, missing or existing user, range; then it changes
one balance, or nothing.
-/

import Cashpoint.Amount
import Cashpoint.Error
import Cashpoint.Table

namespace Cashpoint

/-- The sum of two amounts, if it is an amount. -/
def Amount.sum? (a b : Amount) : Option Amount :=
  let sum := a.toInt + b.toInt
  if -(Amount.largest + 1 : Int) ≤ sum ∧ sum ≤ Amount.largest then some (a + b) else none

/-- The balances of all users. -/
structure Ledger where
  balances : Table String Amount := .empty
  deriving DecidableEq

namespace Ledger

/-- The ledger without users. -/
def empty : Ledger := { balances := .empty }

/-- Whether a user is in the ledger. -/
def contains (ledger : Ledger) (user : String) : Bool := ledger.balances.contains user

/-- The balance of a user, if there is one. -/
def balance? (ledger : Ledger) (user : String) : Option Amount := ledger.balances.get? user

/-- The number of users. -/
def size (ledger : Ledger) : Nat := ledger.balances.size

/-- The balance of a user, or an error. -/
def balance (ledger : Ledger) (user : String) : Except Error Amount :=
  match ledger.balance? user with
  | some balance => .ok balance
  | none => .error (.noSuchUser user)

/-- The ledger with the balance of a user set. -/
def setBalance (ledger : Ledger) (user : String) (balance : Amount) : Ledger :=
  { ledger with balances := ledger.balances.set user balance }

/-- Setting a balance changes that of its user, and no other. -/
theorem balance?_setBalance (ledger : Ledger) (user other : String) (balance : Amount) :
    (ledger.setBalance user balance).balance? other =
      if user = other then some balance else ledger.balance? other :=
  Table.get?_set ..

/-- A balance that is set and then set back leaves the ledger as it was. -/
theorem setBalance_setBalance_of_balance? {ledger : Ledger} {user : String} {balance : Amount}
    (h : ledger.balance? user = some balance) (other : Amount) :
    (ledger.setBalance user other).setBalance user balance = ledger := by
  obtain ⟨balances⟩ := ledger
  simp only [setBalance, Table.set_set, mk.injEq]
  exact Table.set_of_get? h

/-- The ledger with a new user. -/
def create (ledger : Ledger) (user : String) (opening : Amount) : Except Error Ledger :=
  if opening < 0 then .error (.invalidAmount opening)
  else if ledger.contains user then .error (.userExists user)
  else .ok (ledger.setBalance user opening)

/-- The new balance, and the ledger after a deposit. -/
def deposit (ledger : Ledger) (user : String) (amount : Amount) : Except Error (Amount × Ledger) :=
  if amount < 0 then .error (.invalidAmount amount)
  else
    match ledger.balance? user with
    | none => .error (.noSuchUser user)
    | some balance =>
      match balance.sum? amount with
      | none => .error .overflow
      | some sum => .ok (sum, ledger.setBalance user sum)

/-- The new balance, and the ledger after a withdrawal. -/
def withdraw (ledger : Ledger) (user : String) (amount : Amount) : Except Error (Amount × Ledger) :=
  if amount < 0 then .error (.invalidAmount amount)
  else
    match ledger.balance? user with
    | none => .error (.noSuchUser user)
    | some balance =>
      if amount > balance then .error .insufficientFunds
      else .ok (balance - amount, ledger.setBalance user (balance - amount))

end Ledger
end Cashpoint
