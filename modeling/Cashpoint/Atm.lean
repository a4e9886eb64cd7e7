/-
# The ATM

A line of the ATM's console takes a turn: at most one datagram goes to the Bank,
and after its reply at most one PIN is asked for; then the lines to print are known.
`submit` starts the turn, `Exchange.receive` continues it with what the network
brought back, and `Login.enter` ends it with the PIN. The types of the three say
already that nothing is sent twice and that no PIN is asked for before something has
come back.

A reply counts only if it opens against the request just sent and could answer it.
The PIN is compared with the card here; it never leaves the ATM.
-/

import Cashpoint.Card
import Cashpoint.Console.AtmCommand
import Cashpoint.Keys
import Cashpoint.Message.Response
import Cashpoint.Sequencer
import Cashpoint.Session

namespace Cashpoint

/-- The ATM: its keys and cards, who is logged in, and the numbers of its requests. -/
structure Atm where
  keys : Keys
  cards : CardStore
  session : Session := {}
  sequencer : Sequencer

/-- A request under way, and the ATM that waits for its reply. -/
structure Exchange where
  atm : Atm
  request : Request
  /-- The request as it was sent. -/
  sealed : Frame

/-- A login that the Bank has confirmed, and the ATM that waits for the PIN. -/
structure Login where
  atm : Atm
  user : String

/-- What a line leads to. -/
inductive Turn
  /-- It is over, and these lines are printed. -/
  | done (lines : List String) (atm : Atm)
  /-- A datagram goes to the Bank. -/
  | send (datagram : List UInt8) (exchange : Exchange)

/-- What the end of an exchange leads to. -/
inductive Outcome
  /-- The turn is over, and these lines are printed. -/
  | done (lines : List String) (atm : Atm)
  /-- The PIN is asked for. -/
  | askPin (login : Login)

namespace Atm

/-! ## What the console shows -/

def pinPrompt : String := "PIN? "

def alreadyLoggedIn : String := "A user is already logged in"

def noUserLoggedIn : String := "No user logged in"

def noSuchUser : String := "No such user"

def notAuthorized : String := "Not authorized"

def authorized : String := "Authorized"

def userLoggedOut : String := "User logged out"

def unableToReachBank : String := "Unable to reach bank"

def responseRejected : String := "Bank response rejected"

def locked (user : String) : String :=
  "Too many attempts. " ++ user ++ "'s card file has been locked."

def unableToAccess (user : String) : String := "Unable to access " ++ user ++ "'s card"

/-- The prompt, with the user who is logged in. -/
def prompt (atm : Atm) : String :=
  match atm.session.user? with
  | some user => "ATM (" ++ user ++ "): "
  | none => "ATM: "

/-- What is printed for an exchange that brought no answer: whether the Bank was not reached, or
sent what is not trusted. -/
def failure : Error → String
  | .timeout _ | .io _ => unableToReachBank
  | _ => responseRejected

/-! ## Handling a line -/

/-- Sends a request under the next vector. -/
def request (atm : Atm) (request : Request) : Turn :=
  match atm.sequencer.next with
  | .error e => .done [failure e] atm
  | .ok (iv, sequencer) =>
    let atm := { atm with sequencer }
    match Frame.sealPlain atm.keys.messageKey iv (Utf8.encode request.render) with
    | .error e => .done [failure e] atm
    | .ok sealed =>
      match sealed.encode with
      | .error e => .done [failure e] atm
      | .ok datagram => .send datagram { atm, request, sealed }

/-- What `begin-session` does, up to the request. -/
def beginSession (atm : Atm) (user : String) : Turn :=
  if atm.session.user?.isSome then .done [alreadyLoggedIn] atm
  else if atm.session.isLocked user then .done [locked user] atm
  else atm.request (.beginSession user)

/-- A request on behalf of the user who is logged in. -/
def requestAs (atm : Atm) (request : String → Request) : Turn :=
  match atm.session.user? with
  | none => .done [noUserLoggedIn] atm
  | some user => atm.request (request user)

/-- What `end-session` does. -/
def endSession (atm : Atm) : Turn :=
  match atm.session.logOut with
  | .ok (_, session) => .done [userLoggedOut] { atm with session }
  | .error _ => .done [noUserLoggedIn] atm

/-- Starts the turn of a line. -/
def submit (atm : Atm) (line : String) : Turn :=
  match Console.AtmCommand.ofLine line with
  | .error rejection => .done rejection.message.toList atm
  | .ok (.beginSession user) => atm.beginSession user
  | .ok (.withdraw amount) => atm.requestAs fun user => .withdraw user amount
  | .ok .balance => atm.requestAs .balance
  | .ok .endSession => atm.endSession

/-- The lines, with the lock message at their end if the user is locked by now. -/
def withLock (session : Session) (user : String) (lines : List String) : List String :=
  if session.isLocked user then lines ++ [locked user] else lines

end Atm

namespace Exchange

/-- The answer in what came back: a frame that opens against the request, holds a text, and is a
response to that request. -/
def answer (x : Exchange) (reply : Except Error (List UInt8)) : Except Error Response := do
  let frame ← Frame.decode (← reply)
  let plaintext ← frame.openReply x.atm.keys.messageKey x.sealed
  match Utf8.decode? plaintext with
  | none => throw (.unexpectedResponse "reply is not UTF-8")
  | some text =>
    match Response.ofString? text with
    | some response =>
      if response.answers x.request then return response else throw (.unexpectedResponse text)
    | none => throw (.unexpectedResponse text)

/-- Continues the turn with a response to `begin-session`. -/
def confirm (x : Exchange) (user : String) : Response → Outcome
  | .success => .askPin { atm := x.atm, user }
  | .noSuchUser =>
    let session := x.atm.session.recordUnknown user
    .done (Atm.withLock session user [Atm.noSuchUser]) { x.atm with session }
  | _ => .done [Atm.responseRejected] x.atm

/-- Continues the turn with what the network brought back. -/
def receive (x : Exchange) (reply : Except Error (List UInt8)) : Outcome :=
  match x.answer reply with
  | .error e => .done [Atm.failure e] x.atm
  | .ok response =>
    match x.request with
    | .beginSession user => x.confirm user response
    | _ => .done [response.render] x.atm

end Exchange

namespace Login

/-- What was typed, without the line ends after it. -/
def trimLineEnds (typed : String) : String :=
  String.ofList (typed.toList.reverse.dropWhile fun c => c == '\r' || c == '\n').reverse

/-- A failed login, with the lines that tell of it. -/
def refuse (login : Login) (lines : List String) : List String × Atm :=
  let session := login.atm.session.recordFailure login.user
  (Atm.withLock session login.user lines, { login.atm with session })

/-- Whether what was typed is the PIN on the card. No input at all is a wrong PIN. -/
def check (login : Login) (files : FileTree) (typed : Option String) : Except Error Bool :=
  match typed with
  | some typed => login.atm.cards.verify files login.atm.keys.pinKey login.user (trimLineEnds typed)
  | none => .ok false

/-- Ends the turn with what was typed at the PIN prompt. -/
def enter (login : Login) (files : FileTree) (typed : Option String) : List String × Atm :=
  match login.check files typed with
  | .ok true =>
    match login.atm.session.logIn login.user with
    | .ok session => ([Atm.authorized], { login.atm with session })
    | .error _ => ([Atm.locked login.user], login.atm)
  | .ok false => login.refuse [Atm.notAuthorized]
  | .error _ => login.refuse [Atm.unableToAccess login.user, Atm.notAuthorized]

end Login

namespace Atm

/-- What an ATM is connected to: a way to exchange a datagram for a reply, and the files of its cards,
both as they are in a state of its surroundings. -/
structure Surroundings (σ : Type) where
  exchange : σ → List UInt8 → Except Error (List UInt8) × σ
  files : σ → FileTree

/-- What a whole turn leads to. -/
structure Handled (σ : Type) where
  /-- The lines to print. -/
  lines : List String
  /-- Whether the PIN was asked for. -/
  askedPin : Bool
  atm : Atm
  state : σ

/-- Ends a turn at the PIN prompt. -/
def finish {σ : Type} (world : Surroundings σ) (typed : Option String) (s : σ) : Outcome → Handled σ
  | .done lines atm => { lines, askedPin := false, atm, state := s }
  | .askPin login =>
    let (lines, atm) := login.enter (world.files s) typed
    { lines, askedPin := true, atm, state := s }

/-- A whole turn among given surroundings, with what will be typed if a PIN is asked for. -/
def command {σ : Type} (world : Surroundings σ) (atm : Atm) (line : String) (typed : Option String)
    (s : σ) : Handled σ :=
  match atm.submit line with
  | .done lines atm => { lines, askedPin := false, atm, state := s }
  | .send datagram x =>
    let (reply, s) := world.exchange s datagram
    finish world typed s (x.receive reply)

end Atm
end Cashpoint
