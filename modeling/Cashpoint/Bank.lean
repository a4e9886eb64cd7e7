/-
# The Bank

A Bank keeps the ledger and answers two parties: the operator at its console, line
by line (`console`), and an ATM, datagram by datagram (`handle`).

Each request of the ATM is executed at most once. Its sequence number must be above
that of every request executed before, the high-water mark. One exception: the very
request executed last may come again, and gets the very same reply. A datagram that
is no frame, does not authenticate or comes too late gets no reply and changes
nothing.

Random bytes are arguments: the vector of the reply, and that of a new card.
-/

import Cashpoint.Card
import Cashpoint.Console.BankCommand
import Cashpoint.Frame
import Cashpoint.Keys
import Cashpoint.Ledger
import Cashpoint.Message.Response

namespace Cashpoint

/-- The request executed last, and its reply. -/
structure Answered where
  iv : Bytes 12
  tag : Block
  reply : List UInt8
  deriving DecidableEq

/-- The Bank: its keys, cards and ledger, and what it remembers of the requests that it has executed. -/
structure Bank where
  keys : Keys
  cards : CardStore
  ledger : Ledger := .empty
  /-- The sequence number of the request executed last, or 0. -/
  highWater : Nat := 0
  last? : Option Answered := none
  deriving DecidableEq

namespace Bank

/-! ## The console -/

def tooRich : String := "Too rich for this program"

def noSuchUser : String := "No such user"

def userExists (user : String) : String := "Error: user " ++ user ++ " already exists"

def cardFailed (user : String) : String := "Error creating card file for " ++ user

def userCreated (user : String) : String := "Created user " ++ user

def deposited (amount : Amount) (user : String) : String :=
  "$" ++ amount.render ++ " added to " ++ user ++ "'s account"

/-- A new user. The card is written before the ledger is, so that no user is without one. -/
def createUser (bank : Bank) (files : FileTree) (cardIv : Block) (user pin : String) (opening : Amount) :
    String × Bank × FileTree :=
  if bank.ledger.contains user then
    (userExists user, bank, files)
  else
    match bank.cards.create files bank.keys.pinKey cardIv user pin with
    | .error _ => (cardFailed user, bank, files)
    | .ok files =>
      match bank.ledger.create user opening with
      | .error _ => (userExists user, bank, files)
      | .ok ledger => (userCreated user, { bank with ledger }, files)

/-- The answer to a deposit at the console. -/
def deposit (bank : Bank) (user : String) (amount : Amount) : String × Bank :=
  match bank.ledger.deposit user amount with
  | .ok (_, ledger) => (deposited amount user, { bank with ledger })
  | .error (.noSuchUser _) => (noSuchUser, bank)
  | .error .overflow => (tooRich, bank)
  | .error _ => (Console.Usage.deposit.line, bank)

/-- The answer to a balance query at the console. -/
def balance (bank : Bank) (user : String) : String :=
  match bank.ledger.balance? user with
  | some balance => "$" ++ balance.render
  | none => noSuchUser

/-- The answer to a command at the console. -/
def execute (bank : Bank) (files : FileTree) (cardIv : Block) :
    Console.BankCommand → String × Bank × FileTree
  | .createUser user pin opening => bank.createUser files cardIv user pin opening
  | .deposit user amount =>
    let (reply, bank) := bank.deposit user amount
    (reply, bank, files)
  | .balance user => (bank.balance user, bank, files)

/-- The answer to a line at the console. A blank line has none. -/
def console (bank : Bank) (files : FileTree) (cardIv : Block) (line : String) :
    Option String × Bank × FileTree :=
  match Console.BankCommand.ofLine line with
  | .error rejection => (rejection.message, bank, files)
  | .ok command =>
    let (reply, bank, files) := bank.execute files cardIv command
    (some reply, bank, files)

/-! ## Requests of the ATM -/

/-- The response to a request, and the ledger after it. -/
def respond (ledger : Ledger) : Request → Response × Ledger
  | .beginSession user => (if ledger.contains user then .success else .noSuchUser, ledger)
  | .withdraw user amount =>
    match ledger.withdraw user amount with
    | .ok (_, ledger) => (.dispensed amount, ledger)
    | .error .insufficientFunds => (.insufficientFunds, ledger)
    | .error (.noSuchUser _) => (.noSuchUser, ledger)
    | .error _ => (.invalidCommand, ledger)
  | .balance user =>
    match ledger.balance? user with
    | some balance => (.balance balance, ledger)
    | none => (.noSuchUser, ledger)

/-- The response to a plaintext. What is no request is answered like an unknown command. -/
def respondTo (ledger : Ledger) (plaintext : List UInt8) : Response × Ledger :=
  match (Utf8.decode? plaintext).bind Request.ofString? with
  | some request => respond ledger request
  | none => (.invalidCommand, ledger)

/-- The sealed reply to a request, as a datagram. -/
def sealResponse (bank : Bank) (replyIv : Bytes 12) (request : Frame) (response : Response) :
    Except Error (List UInt8) := do
  let reply ← Frame.sealReply bank.keys.messageKey replyIv request (Utf8.encode response.render)
  reply.encode

/-- The answer to a request that is not new: the last reply again, if it is the last request. -/
def repeatLast (bank : Bank) (request : Frame) : Except Error (List UInt8) :=
  match bank.last? with
  | some last =>
    if last.iv = request.iv ∧ last.tag = request.tag then .ok last.reply
    else .error (.replayed request.sequence)
  | none => .error (.replayed request.sequence)

/-- Executes a new request and seals the reply. -/
def run (bank : Bank) (replyIv : Bytes 12) (request : Frame) (plaintext : List UInt8) :
    Except Error (List UInt8) × Bank :=
  let (response, ledger) := respondTo bank.ledger plaintext
  match bank.sealResponse replyIv request response with
  | .error e => (.error e, { bank with ledger })
  | .ok reply =>
    (.ok reply,
      { bank with
        ledger
        highWater := request.sequence
        last? := some { iv := request.iv, tag := request.tag, reply } })

/-- The request in a datagram and its plaintext, if it is an authentic frame. -/
def openRequest (bank : Bank) (datagram : List UInt8) : Except Error (Frame × List UInt8) := do
  let request ← Frame.decode datagram
  let plaintext ← request.openPlain bank.keys.messageKey
  return (request, plaintext)

/-- The reply to a datagram, and the Bank after it. -/
def handle (bank : Bank) (replyIv : Bytes 12) (datagram : List UInt8) :
    Except Error (List UInt8) × Bank :=
  match bank.openRequest datagram with
  | .error e => (.error e, bank)
  | .ok (request, plaintext) =>
    if request.sequence ≤ bank.highWater then
      (bank.repeatLast request, bank)
    else
      bank.run replyIv request plaintext

end Bank
end Cashpoint
