/-
# An ATM and a Bank on an open network

Whoever owns the network decides what arrives: a datagram may be lost, doubled,
delayed, sent again later or made up, towards the Bank as towards the ATM. So every
event brings its own bytes, and what was sent before binds nothing. Lines of the two
consoles and datagrams may come in any order, also while a turn of the ATM is under
way.

Beside the two parties stands what has happened: the requests that the ATM has sealed,
the ones that the Bank has executed, and the lines that the ATM has printed. A run is
`Unforged` if no frame passes for one that it is not: the Bank opens nothing but
requests that the ATM has sealed, and the ATM nothing but replies that the Bank has
sealed for a request with that vector and tag.
-/

import Cashpoint.Proofs.Atm.Turn
import Cashpoint.Proofs.Bank.Replay

namespace Cashpoint

open Bank (Execution)

/-- Where an ATM is in a turn. -/
inductive Phase
  | idle (atm : Atm)
  | waiting (x : Exchange)
  | asking (login : Login)

/-- The ATM, wherever it is in a turn. -/
def Phase.atm : Phase → Atm
  | idle atm => atm
  | waiting x => x.atm
  | asking login => login.atm

/-- A line that the ATM has printed. -/
structure Print where
  /-- The user who was logged in. -/
  user? : Option String
  /-- The request whose reply led to the line. -/
  request? : Option Frame
  line : String

/-- Lines printed at once. -/
def Print.all (user? : Option String) (request? : Option Frame) (lines : List String) : List Print :=
  lines.map fun line => { user?, request?, line }

/-- What is printed at once is the lines. -/
theorem Print.map_line_all (user? : Option String) (request? : Option Frame) (lines : List String) :
    (Print.all user? request? lines).map Print.line = lines := by
  rw [Print.all, List.map_map]
  exact List.map_id lines

/-- The two parties, and what has happened so far. -/
structure OpenNetwork where
  phase : Phase
  branch : Branch
  /-- The requests that the ATM has sealed, oldest first. -/
  sent : List Frame := []
  /-- The requests that the Bank has executed, oldest first. -/
  executed : List Execution := []
  /-- The lines that the ATM has printed, oldest first. -/
  printed : List Print := []

namespace OpenNetwork

/-- What happens on the network. An event of the ATM has no effect in a phase that does not wait for it. -/
inductive Event
  /-- A line at the ATM. -/
  | line (text : String)
  /-- What the ATM gets for its request. -/
  | reply (reply : Except Error (List UInt8))
  /-- What is typed at the PIN prompt, and the files at that moment. -/
  | pin (files : FileTree) (typed : Option String)
  /-- Something happens at the Bank. -/
  | bank (event : Bank.Event)

/-- The two parties before anything has happened. -/
def start (atm : Atm) (branch : Branch) : OpenNetwork where
  phase := .idle atm
  branch

/-- Submits a line to the ATM. -/
def submit (n : OpenNetwork) (atm : Atm) (text : String) : OpenNetwork :=
  match atm.submit text with
  | .done lines next => { n with
      phase := .idle next
      printed := n.printed ++ Print.all atm.session.user? none lines }
  | .send _ x => { n with phase := .waiting x, sent := n.sent ++ [x.sealed] }

/-- Ends an exchange of the ATM. -/
def receive (n : OpenNetwork) (x : Exchange) (reply : Except Error (List UInt8)) : OpenNetwork :=
  match x.receive reply with
  | .done lines next => { n with
      phase := .idle next
      printed := n.printed ++ Print.all x.atm.session.user? (some x.sealed) lines }
  | .askPin login => { n with phase := .asking login }

/-- Ends a turn of the ATM at the PIN prompt. -/
def enter (n : OpenNetwork) (login : Login) (files : FileTree) (typed : Option String) : OpenNetwork :=
  { n with
    phase := .idle (login.enter files typed).2
    printed := n.printed ++ Print.all login.atm.session.user? none (login.enter files typed).1 }

/-- The two parties after an event. -/
def step (n : OpenNetwork) : Event → OpenNetwork
  | .line text =>
    match n.phase with
    | .idle atm => n.submit atm text
    | _ => n
  | .reply reply =>
    match n.phase with
    | .waiting x => n.receive x reply
    | _ => n
  | .pin files typed =>
    match n.phase with
    | .asking login => n.enter login files typed
    | _ => n
  | .bank event => { n with
      branch := n.branch.step event
      executed := n.executed ++ (n.branch.execution? event).toList }

/-- The two parties after a sequence of events. -/
def run (n : OpenNetwork) (events : List Event) : OpenNetwork := events.foldl step n

@[simp] theorem run_nil (n : OpenNetwork) : n.run [] = n := rfl

@[simp] theorem run_cons (n : OpenNetwork) (event : Event) (rest : List Event) :
    n.run (event :: rest) = (n.step event).run rest := rfl

/-- **A turn is a line, what came back for it, and the PIN.** -/
theorem run_turn (atm : Atm) (branch : Branch) (i : Atm.Input) :
    let n := (start atm branch).run [.line i.line, .reply i.reply, .pin i.files i.typed]
    n.phase = .idle (atm.turn i).atm ∧ n.printed.map Print.line = (atm.turn i).lines := by
  simp only [run_cons, run_nil, start, step, submit, Atm.turn, Atm.command]
  cases atm.submit i.line with
  | done lines next => simp [Print.map_line_all]
  | send datagram x =>
    simp only [receive]
    cases x.receive i.reply with
    | done lines next => simp [Atm.finish, Print.map_line_all]
    | askPin login => simp [enter, Atm.finish, Print.map_line_all]

/-! ## No forgery -/

/-- No frame passes for one that it is not in an event. -/
def Genuine (n : OpenNetwork) : Event → Prop
  | .bank (.datagram _ bytes) => ∀ request plaintext,
      n.branch.bank.openRequest bytes = .ok (request, plaintext) → request ∈ n.sent
  | .reply (.ok bytes) => ∀ x, n.phase = .waiting x → ∀ frame plaintext, Frame.decode bytes = .ok frame →
      frame.openReply x.atm.keys.messageKey x.sealed = .ok plaintext →
        ∃ e ∈ n.executed, e.request.iv = x.sealed.iv ∧ e.request.tag = x.sealed.tag ∧
          ∃ datagram, e.reply = .ok datagram ∧ Frame.decode datagram = .ok frame
  | _ => True

/-- No frame passes for one that it is not in a run. -/
def Unforged (n : OpenNetwork) : List Event → Prop
  | [] => True
  | event :: rest => n.Genuine event ∧ (n.step event).Unforged rest

end OpenNetwork
end Cashpoint
