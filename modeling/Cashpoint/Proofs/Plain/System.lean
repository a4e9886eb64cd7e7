/-
# The plain system

What an ATM and a Bank do together, without frames, keys, vectors, sequence numbers or
files: one map from user names to PINs and balances, and the session of the ATM with its
counts of failed logins. The lines of the two consoles are read as they are there.

One thing of the files remains. A user whose card would have too long a path gets no
card, so the operator cannot create that user; `fits` tells who can be created.
-/

import Cashpoint.Atm
import Cashpoint.Bank
import Cashpoint.Proofs.Console.Commands

namespace Cashpoint

/-- What is known of a user. -/
structure Account where
  pin : String
  balance : Nat

/-- Accounts and a session, and nothing else. -/
structure Plain where
  accounts : Table String Account := .empty
  session : Session

namespace Plain

/-- A line at one of the two consoles, with what is typed if the ATM asks for a PIN, and the random bytes
that the plain system does not need: the vector of a reply, and that of a new card. -/
inductive Input
  | atm (text : String) (typed : Option String) (replyIv : Bytes 12)
  | bank (text : String) (cardIv : Block)

/-- An amount of money as it is shown. -/
def money (amount : Nat) : String := "$" ++ toString amount

/-- The account of a user with a new balance. -/
def setBalance (p : Plain) (user : String) (account : Account) (balance : Nat) : Plain :=
  { p with accounts := p.accounts.set user { account with balance } }

/-! ## The ATM -/

/-- The answer to `begin-session`, with what is typed if the PIN is asked for. -/
def beginSession (p : Plain) (user : String) (typed : Option String) : List String × Plain :=
  if p.session.user?.isSome then ([Atm.alreadyLoggedIn], p)
  else if p.session.isLocked user then ([Atm.locked user], p)
  else
    match p.accounts.get? user with
    | none =>
      let session := p.session.recordUnknown user
      (Atm.withLock session user [Atm.noSuchUser], { p with session })
    | some account =>
      if typed.map Login.trimLineEnds = some account.pin then
        ([Atm.authorized], { p with session := { p.session with user? := some user } })
      else
        let session := p.session.recordFailure user
        (Atm.withLock session user [Atm.notAuthorized], { p with session })

/-- The answer to a withdrawal. -/
def withdraw (p : Plain) (user : String) (amount : Nat) : String × Plain :=
  match p.accounts.get? user with
  | none => (Atm.noSuchUser, p)
  | some account =>
    if account.balance < amount then ("Insufficient funds", p)
    else (money amount ++ " dispensed", p.setBalance user account (account.balance - amount))

/-- The answer to a question for the balance. -/
def balance (p : Plain) (user : String) : String :=
  match p.accounts.get? user with
  | none => Atm.noSuchUser
  | some account => money account.balance

/-- The answer to `end-session`. -/
def endSession (p : Plain) : List String × Plain :=
  match p.session.user? with
  | none => ([Atm.noUserLoggedIn], p)
  | some user => ([Atm.userLoggedOut], { p with
      session := { p.session with user? := none, attempts := p.session.attempts.reset user } })

/-- The lines that the ATM prints for a line. -/
def atm (p : Plain) (text : String) (typed : Option String) : List String × Plain :=
  match Console.AtmCommand.ofLine text with
  | .error rejection => (rejection.message.toList, p)
  | .ok (.beginSession user) => p.beginSession user typed
  | .ok (.withdraw amount) =>
    match p.session.user? with
    | none => ([Atm.noUserLoggedIn], p)
    | some user => ([(p.withdraw user amount.toInt.toNat).1], (p.withdraw user amount.toInt.toNat).2)
  | .ok .balance =>
    match p.session.user? with
    | none => ([Atm.noUserLoggedIn], p)
    | some user => ([p.balance user], p)
  | .ok .endSession => p.endSession

/-! ## The Bank -/

/-- The answer to the creation of a user, whose name has to fit. -/
def createUser (fits : String → Bool) (p : Plain) (user pin : String) (opening : Nat) : String × Plain :=
  if (p.accounts.get? user).isSome then (Bank.userExists user, p)
  else if fits user then
    (Bank.userCreated user, { p with accounts := p.accounts.set user { pin, balance := opening } })
  else (Bank.cardFailed user, p)

/-- The answer to a deposit. -/
def deposit (p : Plain) (user : String) (amount : Nat) : String × Plain :=
  match p.accounts.get? user with
  | none => (Bank.noSuchUser, p)
  | some account =>
    if account.balance + amount ≤ Amount.largest then
      (money amount ++ " added to " ++ user ++ "'s account",
        p.setBalance user account (account.balance + amount))
    else (Bank.tooRich, p)

/-- The lines that the Bank prints for a line. -/
def bank (fits : String → Bool) (p : Plain) (text : String) : List String × Plain :=
  match Console.BankCommand.ofLine text with
  | .error rejection => (rejection.message.toList, p)
  | .ok (.createUser user pin opening) =>
    ([(p.createUser fits user pin opening.toInt.toNat).1], (p.createUser fits user pin opening.toInt.toNat).2)
  | .ok (.deposit user amount) =>
    ([(p.deposit user amount.toInt.toNat).1], (p.deposit user amount.toInt.toNat).2)
  | .ok (.balance user) => ([p.balance user], p)

/-! ## Runs -/

/-- The lines printed for a line, and the system after it. -/
def step (fits : String → Bool) (p : Plain) : Input → List String × Plain
  | .atm text typed _ => p.atm text typed
  | .bank text _ => p.bank fits text

/-- The lines printed for each line of a run. -/
def lines (fits : String → Bool) (p : Plain) : List Input → List (List String)
  | [] => []
  | i :: rest => (p.step fits i).1 :: lines fits (p.step fits i).2 rest

/-- The system after a sequence of inputs. -/
def run (fits : String → Bool) (p : Plain) (inputs : List Input) : Plain :=
  inputs.foldl (fun p i => (p.step fits i).2) p

/-- Whether both programs have a part in a line. -/
def asks (p : Plain) : Input → Bool
  | .atm text _ _ =>
    match Console.AtmCommand.ofLine text with
    | .ok (.beginSession user) => p.session.user?.isNone && !p.session.isLocked user
    | .ok (.withdraw _) | .ok .balance => p.session.user?.isSome
    | _ => false
  | .bank _ _ => false

/-- The number of lines of a run in which both programs have a part. -/
def exchanges (fits : String → Bool) (p : Plain) : List Input → Nat
  | [] => 0
  | i :: rest => (p.asks i).toNat + exchanges fits (p.step fits i).2 rest

/-- What counts of `fits` is its value at user names. -/
theorem step_congr {fits fits' : String → Bool}
    (h : ∀ user, Credential.isUserName user = true → fits user = fits' user) (p : Plain) (i : Input) :
    p.step fits i = p.step fits' i := by
  cases i with
  | atm text typed replyIv => rfl
  | bank text cardIv =>
    show p.bank fits text = p.bank fits' text
    unfold bank
    cases hline : Console.BankCommand.ofLine text with
    | error rejection => rfl
    | ok command =>
      cases command with
      | createUser user pin opening =>
        have huser : Credential.isUserName user = true := (Console.BankCommand.wellFormed_of_ofLine hline).1
        simp only [createUser, h user huser]
      | deposit user amount => rfl
      | balance user => rfl

/-- What is printed depends on which user names fit, and not on any other text. -/
theorem lines_congr {fits fits' : String → Bool}
    (h : ∀ user, Credential.isUserName user = true → fits user = fits' user) (p : Plain) (inputs : List Input) :
    p.lines fits inputs = p.lines fits' inputs := by
  induction inputs generalizing p with
  | nil => rfl
  | cons i rest ih => rw [lines, lines, step_congr h, ih]

/-- So does the state after it. -/
theorem run_congr {fits fits' : String → Bool}
    (h : ∀ user, Credential.isUserName user = true → fits user = fits' user) (p : Plain) (inputs : List Input) :
    p.run fits inputs = p.run fits' inputs := by
  have hstep : (fun (p : Plain) i => (p.step fits i).2) = fun p i => (p.step fits' i).2 :=
    funext fun p => funext fun i => congrArg Prod.snd (step_congr h p i)
  rw [run, run, hstep]

/-! ## What is never printed -/

/-- A line that tells of an exchange that brought no answer. -/
def TellsOfFailure (line : String) : Prop := line = Atm.unableToReachBank ∨ line = Atm.responseRejected

instance (line : String) : Decidable (TellsOfFailure line) :=
  inferInstanceAs (Decidable (line = Atm.unableToReachBank ∨ line = Atm.responseRejected))

/-- A line that tells of a failure starts with one of two letters. -/
theorem not_tellsOfFailure {line : String} (h : line.toList.head? ≠ some 'U' ∧ line.toList.head? ≠ some 'B') :
    ¬ TellsOfFailure line := by
  rintro (rfl | rfl)
  · exact h.1 (by decide)
  · exact h.2 (by decide)

/-- A line that shows money begins with a dollar sign. -/
theorem head?_money_append (amount : Nat) (rest : String) :
    (money amount ++ rest).toList.head? = some '$' := by
  unfold money
  simp

/-- A line that shows money tells of no failure. -/
theorem not_tellsOfFailure_money (amount : Nat) (rest : String) : ¬ TellsOfFailure (money amount ++ rest) := by
  refine not_tellsOfFailure ?_
  rw [head?_money_append]
  decide

/-- That a name is locked is no failure. -/
theorem not_tellsOfFailure_locked (user : String) : ¬ TellsOfFailure (Atm.locked user) := by
  refine not_tellsOfFailure ?_
  unfold Atm.locked
  simp

/-- Nothing that the lock adds tells of a failure. -/
theorem not_tellsOfFailure_withLock {session : Session} {user line other : String}
    (hother : ¬ TellsOfFailure other) (h : line ∈ Atm.withLock session user [other]) : ¬ TellsOfFailure line := by
  unfold Atm.withLock at h
  split at h
  · rcases List.mem_cons.1 h with rfl | hmem
    · exact hother
    · rw [List.mem_singleton.1 hmem]
      exact not_tellsOfFailure_locked user
  · rw [List.mem_singleton.1 h]
    exact hother

/-- What is said about a line that is no command tells of no failure. -/
theorem not_tellsOfFailure_rejection {rejection : Console.Rejection} {line : String}
    (h : line ∈ rejection.message.toList) : ¬ TellsOfFailure line := by
  cases rejection with
  | empty => simp [Console.Rejection.message] at h
  | usage expected =>
    rw [List.mem_singleton.1 h]
    cases expected <;> decide
  | invalid =>
    rw [List.mem_singleton.1 h]
    decide

/-- No answer about a balance tells of a failure. -/
theorem not_tellsOfFailure_balance (p : Plain) (user : String) : ¬ TellsOfFailure (p.balance user) := by
  unfold balance
  split
  · decide
  · rename_i account _
    rw [← String.append_empty (s := money account.balance)]
    exact not_tellsOfFailure_money account.balance ""

/-- No answer to a withdrawal does. -/
theorem not_tellsOfFailure_withdraw (p : Plain) (user : String) (amount : Nat) :
    ¬ TellsOfFailure (p.withdraw user amount).1 := by
  unfold withdraw
  split
  · show ¬ TellsOfFailure Atm.noSuchUser
    decide
  · split
    · show ¬ TellsOfFailure "Insufficient funds"
      decide
    · exact not_tellsOfFailure_money amount " dispensed"

/-- No answer to `begin-session` does. -/
theorem not_tellsOfFailure_beginSession {p : Plain} {user : String} {typed : Option String} {line : String}
    (h : line ∈ (p.beginSession user typed).1) : ¬ TellsOfFailure line := by
  unfold beginSession at h
  split at h
  · rw [List.mem_singleton.1 h]
    decide
  · split at h
    · rw [List.mem_singleton.1 h]
      exact not_tellsOfFailure_locked user
    · split at h
      · exact not_tellsOfFailure_withLock (by decide) h
      · split at h
        · rw [List.mem_singleton.1 h]
          decide
        · exact not_tellsOfFailure_withLock (by decide) h

/-- No answer to `end-session` does. -/
theorem not_tellsOfFailure_endSession {p : Plain} {line : String} (h : line ∈ p.endSession.1) :
    ¬ TellsOfFailure line := by
  unfold endSession at h
  split at h
  · rw [List.mem_singleton.1 h]
    decide
  · rw [List.mem_singleton.1 h]
    decide

/-- So nothing that is printed at the ATM does. -/
theorem not_tellsOfFailure_atm {p : Plain} {text : String} {typed : Option String} {line : String}
    (h : line ∈ (p.atm text typed).1) : ¬ TellsOfFailure line := by
  unfold atm at h
  split at h
  · exact not_tellsOfFailure_rejection h
  · exact not_tellsOfFailure_beginSession h
  · split at h
    · rw [List.mem_singleton.1 h]
      decide
    · rw [List.mem_singleton.1 h]
      exact not_tellsOfFailure_withdraw p _ _
  · split at h
    · rw [List.mem_singleton.1 h]
      decide
    · rw [List.mem_singleton.1 h]
      exact not_tellsOfFailure_balance p _
  · exact not_tellsOfFailure_endSession h

/-- No answer to the creation of a user tells of a failure. -/
theorem not_tellsOfFailure_createUser (fits : String → Bool) (p : Plain) (user pin : String) (opening : Nat) :
    ¬ TellsOfFailure (p.createUser fits user pin opening).1 := by
  have hexists : ¬ TellsOfFailure (Bank.userExists user) := not_tellsOfFailure (by unfold Bank.userExists; simp)
  have hcreated : ¬ TellsOfFailure (Bank.userCreated user) := not_tellsOfFailure (by unfold Bank.userCreated; simp)
  have hfailed : ¬ TellsOfFailure (Bank.cardFailed user) := not_tellsOfFailure (by unfold Bank.cardFailed; simp)
  unfold createUser
  split
  · exact hexists
  · split
    · exact hcreated
    · exact hfailed

/-- No answer to a deposit does. -/
theorem not_tellsOfFailure_deposit (p : Plain) (user : String) (amount : Nat) :
    ¬ TellsOfFailure (p.deposit user amount).1 := by
  unfold deposit
  split
  · show ¬ TellsOfFailure Bank.noSuchUser
    decide
  · split
    · rw [String.append_assoc, String.append_assoc]
      exact not_tellsOfFailure_money amount _
    · show ¬ TellsOfFailure Bank.tooRich
      decide

/-- **Neither program tells of a failed exchange.** -/
theorem not_tellsOfFailure_step {fits : String → Bool} {p : Plain} {i : Input} {line : String}
    (h : line ∈ (p.step fits i).1) : ¬ TellsOfFailure line := by
  cases i with
  | atm text typed replyIv => exact not_tellsOfFailure_atm h
  | bank text cardIv =>
    change line ∈ (p.bank fits text).1 at h
    unfold bank at h
    split at h
    · exact not_tellsOfFailure_rejection h
    · rw [List.mem_singleton.1 h]
      exact not_tellsOfFailure_createUser fits p _ _ _
    · rw [List.mem_singleton.1 h]
      exact not_tellsOfFailure_deposit p _ _
    · rw [List.mem_singleton.1 h]
      exact not_tellsOfFailure_balance p _

/-- So nothing that is printed in a run does. -/
theorem not_tellsOfFailure_lines {fits : String → Bool} {p : Plain} {inputs : List Input} {printed : List String}
    (h : printed ∈ p.lines fits inputs) {line : String} (hline : line ∈ printed) : ¬ TellsOfFailure line := by
  induction inputs generalizing p with
  | nil => simp [lines] at h
  | cons i rest ih =>
    rcases List.mem_cons.1 h with rfl | hrest
    · exact not_tellsOfFailure_step hline
    · exact ih hrest

end Plain
end Cashpoint
