/-
# The secured system behaves as the plain one

An ATM and a Bank with the same keys and the same directory of cards, over a transport
that carries every datagram to the Bank and every reply back, print what the plain system
prints (`lines_eq_plain`). `Refines` relates the two at every point of a run: same session,
accounts held by ledger and cards, and a mark of the Bank that is not above the number the
ATM used last. Every line keeps it (`Refines.agrees`), because a request that is sent is
then new to the Bank, and the response comes back as it was.

The plain system keeps one thing of the files, the users whose cards have too long a
path. Without that the two differ (`lines_ne_of_longName`).
-/

import Cashpoint.Proofs.Plain.Answers

namespace Cashpoint

open Plain (Input)

/-- An ATM and a Bank. -/
structure Secured where
  atm : Atm
  branch : Branch

namespace Secured

/-- The transport that carries every datagram to the Bank and every reply back. -/
def transport (replyIv : Bytes 12) : Atm.Surroundings Branch where
  exchange b datagram := ((b.bank.handle replyIv datagram).1, b.step (.datagram replyIv datagram))
  files := Branch.files

/-- The lines printed for a line, and the system after it. -/
def step (s : Secured) : Input → List String × Secured
  | .atm text typed replyIv =>
    let handled := s.atm.command (transport replyIv) text typed s.branch
    (handled.lines, { atm := handled.atm, branch := handled.state })
  | .bank text cardIv =>
    ((s.branch.bank.console s.branch.files cardIv text).1.toList,
      { s with branch := s.branch.step (.line cardIv text) })

/-- The lines printed for each line of a run. -/
def lines (s : Secured) : List Input → List (List String)
  | [] => []
  | i :: rest => (s.step i).1 :: lines (s.step i).2 rest

/-- The two parties after a sequence of inputs. -/
def run (s : Secured) (inputs : List Input) : Secured := inputs.foldl (fun s i => (s.step i).2) s

/-- How the exchange for a line ends, if there is one. -/
def answer? (s : Secured) : Input → Option (Except Error Response)
  | .atm text _ replyIv =>
    match s.atm.submit text with
    | .done _ _ => none
    | .send datagram x => some (x.answer (s.branch.bank.handle replyIv datagram).1)
  | .bank _ _ => none

/-- How the exchanges of a run end, in their order. -/
def answers (s : Secured) : List Input → List (Except Error Response)
  | [] => []
  | i :: rest => (s.answer? i).toList ++ answers (s.step i).2 rest

/-! ## The relation -/

/-- The secured system is at the point of a run at which the plain one is. -/
structure Refines (v : Vault) (s : Secured) (p : Plain) : Prop where
  session_eq : s.atm.session = p.session
  keys_eq : s.branch.bank.keys = s.atm.keys
  pinKey_eq : s.atm.keys.pinKey = v.pinKey
  atmCards_eq : s.atm.cards = v.cards
  bankCards_eq : s.branch.bank.cards = v.cards
  highWater_le : s.branch.bank.highWater ≤ s.atm.sequencer.last
  isUserName : ∀ user, p.session.user? = some user → Credential.isUserName user = true
  holds : v.Holds s.branch.bank.ledger s.branch.files p.accounts

/-- A line for which both systems print the same, and every exchange brings a response. -/
structure Agrees (v : Vault) (s : Secured) (p : Plain) (i : Input) : Prop where
  lines_eq : (s.step i).1 = (p.step v.cards.fits i).1
  answered : ∃ responses : List Response,
    (s.answer? i).toList = responses.map .ok ∧ responses.length = (p.asks i).toNat
  last_eq : (s.step i).2.atm.sequencer.last = s.atm.sequencer.last + (p.asks i).toNat
  refines : Refines v (s.step i).2 (p.step v.cards.fits i).2

variable {v : Vault} {s : Secured} {p : Plain} {text : String} {typed : Option String} {replyIv : Bytes 12}

/-! ## Lines without an exchange -/

/-- A turn of the ATM that is over at once makes the systems agree if it leaves the same session. -/
theorem Refines.agrees_of_done (h : Refines v s p) {printed : List String} {atm : Atm} {p' : Plain}
    (hsubmit : s.atm.submit text = .done printed atm) (hplain : p.atm text typed = (printed, p'))
    (hatm : atm = { s.atm with session := p'.session }) (hasks : p.asks (.atm text typed replyIv) = false)
    (huser : ∀ user, p'.session.user? = some user → Credential.isUserName user = true)
    (haccounts : p'.accounts = p.accounts) : Agrees v s p (.atm text typed replyIv) := by
  subst hatm
  have hstep : s.step (.atm text typed replyIv) =
      (printed, { s with atm := { s.atm with session := p'.session } }) := by
    simp only [step, Atm.command, hsubmit]
  have hplain' : p.step v.cards.fits (.atm text typed replyIv) = (printed, p') := hplain
  exact {
    lines_eq := by rw [hstep, hplain']
    answered := ⟨[], by simp only [answer?, hsubmit]; rfl, by rw [hasks]; rfl⟩
    last_eq := by rw [hstep, hasks]; rfl
    refines := by
      rw [hstep, hplain']
      exact {
        session_eq := rfl
        keys_eq := h.keys_eq
        pinKey_eq := h.pinKey_eq
        atmCards_eq := h.atmCards_eq
        bankCards_eq := h.bankCards_eq
        highWater_le := h.highWater_le
        isUserName := huser
        holds := haccounts ▸ h.holds } }

/-- What is printed at once is printed at once in the plain system. -/
theorem atm_of_atOnce {printed : List String} (honce : Atm.AtOnce p.session text printed)
    (typed : Option String) (replyIv : Bytes 12) :
    p.atm text typed = (printed, p) ∧ p.asks (.atm text typed replyIv) = false := by
  cases honce with
  | rejected hline => simp only [Plain.atm, Plain.asks, hline, and_self]
  | loggedIn hline hin =>
    have hsome : p.session.user?.isNone = false := by
      rw [Option.isNone_eq_false_iff]
      exact hin
    simp only [Plain.atm, Plain.asks, hline, Plain.beginSession, hin, if_true, hsome, Bool.false_and, and_self]
  | locked hline hout hlocked =>
    simp [Plain.atm, Plain.asks, hline, Plain.beginSession, hout, hlocked]
  | @loggedOut command hline hother hout =>
    cases command with
    | beginSession user => exact absurd rfl (hother user)
    | withdraw amount => simp [Plain.atm, Plain.asks, hline, hout]
    | balance => simp [Plain.atm, Plain.asks, hline, hout]
    | endSession => simp [Plain.atm, Plain.asks, hline, hout, Plain.endSession]

/-! ## Exchanges -/

/-- A request that went out for a line of the ATM, was executed at the Bank and came back answered. -/
structure Exchanged (s : Secured) (text : String) (replyIv : Bytes 12) (request : Request) (x : Exchange)
    (bank : Bank) (reply : List UInt8) : Prop where
  sent : ∃ datagram, s.atm.submit text = .send datagram x ∧ s.atm.Sends request datagram x ∧
    s.branch.bank.handle replyIv datagram = (.ok reply, bank)
  keys_eq : bank.keys = s.branch.bank.keys
  cards_eq : bank.cards = s.branch.bank.cards
  ledger_eq : bank.ledger = (Bank.respond s.branch.bank.ledger request).2
  highWater_eq : bank.highWater = x.atm.sequencer.last
  answer_eq : x.answer (.ok reply) = .ok (Bank.respond s.branch.bank.ledger request).1

/-- **Every request that a line asks for is exchanged**, as long as the ATM has numbers left. -/
theorem Refines.exists_exchanged (h : Refines v s p) {request : Request}
    (hasks : Atm.Asks s.atm.session text request) (hsubmit : s.atm.submit text = s.atm.request request)
    (hlast : s.atm.sequencer.last < lastSequence) (replyIv : Bytes 12) :
    ∃ x bank reply, s.Exchanged text replyIv request x bank reply := by
  have hwf : request.WellFormed := hasks.wellFormed (h.session_eq ▸ h.isUserName)
  obtain ⟨datagram, x, hsend, hx⟩ := Atm.exists_send hlast hwf
  obtain ⟨-, reply, hhandle, hanswer⟩ :=
    hx.exchanged hwf h.keys_eq h.holds.inRange h.highWater_le replyIv
  exact ⟨x, _, reply, {
    sent := ⟨datagram, hsubmit.trans hsend, hx, hhandle⟩
    keys_eq := rfl
    cards_eq := rfl
    ledger_eq := rfl
    highWater_eq := hx.sequence_eq
    answer_eq := hanswer }⟩

/-- An exchange makes the systems agree if the turn ends in the lines and the session of the plain one,
and the ledger after it still holds the accounts. -/
theorem Refines.agrees_of_exchanged (h : Refines v s p) {request : Request} {x : Exchange} {bank : Bank}
    {reply : List UInt8} (hx : s.Exchanged text replyIv request x bank reply) (asked : Bool)
    {printed : List String} {p' : Plain} (hplain : p.atm text typed = (printed, p'))
    (hasks : p.asks (.atm text typed replyIv) = true)
    (hfinish : Atm.finish (transport replyIv) typed { s.branch with bank } (x.receive (.ok reply)) =
      ⟨printed, asked, { x.atm with session := p'.session }, { s.branch with bank }⟩)
    (huser : ∀ user, p'.session.user? = some user → Credential.isUserName user = true)
    (hholds : v.Holds bank.ledger s.branch.files p'.accounts) : Agrees v s p (.atm text typed replyIv) := by
  obtain ⟨datagram, hsubmit, hsends, hhandle⟩ := hx.sent
  have hstep : s.step (.atm text typed replyIv) =
      (printed, { atm := { x.atm with session := p'.session }, branch := { s.branch with bank } }) := by
    simp only [step, Atm.command, hsubmit, transport, Branch.step, hhandle]
    simp only [transport, Branch.step] at hfinish
    rw [hfinish]
  have hplain' : p.step v.cards.fits (.atm text typed replyIv) = (printed, p') := hplain
  exact {
    lines_eq := by rw [hstep, hplain']
    answered := ⟨[(Bank.respond s.branch.bank.ledger request).1],
      by simp only [answer?, hsubmit, hhandle, hx.answer_eq]; rfl, by rw [hasks]; rfl⟩
    last_eq := by rw [hstep, hasks]; exact hsends.last_eq
    refines := by
      rw [hstep, hplain']
      exact {
        session_eq := rfl
        keys_eq := (hx.keys_eq.trans h.keys_eq).trans hsends.keys_eq.symm
        pinKey_eq := (congrArg Keys.pinKey hsends.keys_eq).trans h.pinKey_eq
        atmCards_eq := hsends.cards_eq.trans h.atmCards_eq
        bankCards_eq := hx.cards_eq.trans h.bankCards_eq
        highWater_le := Nat.le_of_eq hx.highWater_eq
        isUserName := huser
        holds := hholds } }

/-- The ATM compares what was typed with the PIN of the account. -/
theorem check_eq {login : Login} {user : String} {account : Account} {ledger : Ledger} {files : FileTree}
    {accounts : Table String Account} (hholds : v.Holds ledger files accounts)
    (hget : accounts.get? user = some account) (huser : login.user = user)
    (hcards : login.atm.cards = v.cards) (hkey : login.atm.keys.pinKey = v.pinKey) (typed : Option String) :
    login.check files typed = .ok (decide (typed.map Login.trimLineEnds = some account.pin)) := by
  cases typed with
  | none => rfl
  | some typed =>
    rw [Login.check, hcards, hkey, huser, hholds.verify hget, Option.map_some]
    simp only [Option.some.injEq]

/-- **A login** is confirmed or denied by the accounts, and accepted by their PINs. -/
theorem Refines.agrees_beginSession (h : Refines v s p) {user : String}
    (hline : Console.AtmCommand.ofLine text = .ok (.beginSession user)) (hout : p.session.user? = none)
    (hopen : p.session.isLocked user = false) {x : Exchange} {bank : Bank} {reply : List UInt8}
    (hx : s.Exchanged text replyIv (.beginSession user) x bank reply) :
    Agrees v s p (.atm text typed replyIv) := by
  obtain ⟨datagram, -, hsends, -⟩ := hx.sent
  have hwf : Credential.isUserName user = true := Console.AtmCommand.wellFormed_of_ofLine hline
  have hsession : x.atm.session = p.session := hsends.session_eq.trans h.session_eq
  have hasks : p.asks (.atm text typed replyIv) = true := by simp [Plain.asks, hline, hout, hopen]
  have hrespond := h.holds.respond_beginSession user
  have hanswer := hx.answer_eq
  have hholds : v.Holds bank.ledger s.branch.files p.accounts := by
    rw [hx.ledger_eq, hrespond]
    exact h.holds
  rw [hrespond] at hanswer
  cases hget : p.accounts.get? user with
  | none =>
    have hplain : p.atm text typed = (Atm.withLock (p.session.recordUnknown user) user [Atm.noSuchUser],
        { p with session := p.session.recordUnknown user }) := by
      simp [Plain.atm, hline, Plain.beginSession, hout, hopen, hget]
    refine h.agrees_of_exchanged hx false hplain hasks ?_ ?_ hholds
    · simp [Exchange.receive, hanswer, hget, hsends.request_eq, Exchange.confirm, Atm.finish, hsession]
    · intro other hother
      exact absurd hother (by simp [Session.recordUnknown, hout])
  | some account =>
    have hreceive : x.receive (.ok reply) = .askPin { atm := x.atm, user } := by
      simp [Exchange.receive, hanswer, hget, hsends.request_eq, Exchange.confirm]
    have hcheck : ({ atm := x.atm, user } : Login).check s.branch.files typed =
        .ok (decide (typed.map Login.trimLineEnds = some account.pin)) :=
      check_eq h.holds hget rfl (hsends.cards_eq.trans h.atmCards_eq)
        ((congrArg Keys.pinKey hsends.keys_eq).trans h.pinKey_eq) typed
    by_cases hright : typed.map Login.trimLineEnds = some account.pin
    · have hplain : p.atm text typed = ([Atm.authorized],
          { p with session := { p.session with user? := some user } }) := by
        simp [Plain.atm, hline, Plain.beginSession, hout, hopen, hget, hright]
      refine h.agrees_of_exchanged hx true hplain hasks ?_ ?_ hholds
      · simp [hreceive, Atm.finish, transport, Login.enter, hcheck, hright, Session.logIn, hsession, hout, hopen]
      · intro other hother
        obtain rfl : user = other := Option.some.inj hother
        exact hwf
    · have hplain : p.atm text typed = (Atm.withLock (p.session.recordFailure user) user [Atm.notAuthorized],
          { p with session := p.session.recordFailure user }) := by
        simp [Plain.atm, hline, Plain.beginSession, hout, hopen, hget, hright]
      refine h.agrees_of_exchanged hx true hplain hasks ?_ ?_ hholds
      · simp [hreceive, Atm.finish, transport, Login.enter, hcheck, hright, Login.refuse, hsession]
      · intro other hother
        exact absurd hother (by simp [Session.recordFailure, hout])

/-- What the ATM prints for a response to any other request. -/
theorem finish_other {request : Request} {x : Exchange} {bank : Bank} {reply : List UInt8}
    (hx : s.Exchanged text replyIv request x bank reply) (hother : ∀ user, request ≠ .beginSession user)
    (b : Branch) :
    Atm.finish (transport replyIv) typed b (x.receive (.ok reply)) =
      ⟨[(Bank.respond s.branch.bank.ledger request).1.render], false, x.atm, b⟩ := by
  obtain ⟨datagram, -, hsends, -⟩ := hx.sent
  have hrequest : ∀ user, x.request ≠ .beginSession user := hsends.request_eq ▸ hother
  rcases x.receive_cases (.ok reply) with ⟨e, ha, -⟩ | ⟨user, hq, -⟩ | ⟨user, hq, -⟩ | ⟨response, -, ha, hr⟩
  · rw [hx.answer_eq] at ha
    simp at ha
  · exact absurd hq (hrequest user)
  · exact absurd hq (hrequest user)
  · rw [hx.answer_eq] at ha
    obtain rfl := Except.ok.inj ha
    rw [hr]
    rfl

/-- **A request for the user who is logged in** is answered as in the plain system. -/
theorem Refines.agrees_withdraw (h : Refines v s p) {user : String} {amount : Amount}
    (hline : Console.AtmCommand.ofLine text = .ok (.withdraw amount)) (hin : p.session.user? = some user)
    {x : Exchange} {bank : Bank} {reply : List UInt8}
    (hx : s.Exchanged text replyIv (.withdraw user amount) x bank reply) :
    Agrees v s p (.atm text typed replyIv) := by
  obtain ⟨datagram, -, hsends, -⟩ := hx.sent
  have hpos : 0 ≤ amount.toInt := Console.AtmCommand.wellFormed_of_ofLine hline
  have hasks : p.asks (.atm text typed replyIv) = true := by simp [Plain.asks, hline, hin]
  obtain ⟨hrender, hholds, hsession⟩ := h.holds.respond_withdraw user hpos
  have hplain : p.atm text typed =
      ([(p.withdraw user amount.toInt.toNat).1], (p.withdraw user amount.toInt.toNat).2) := by
    simp only [Plain.atm, hline, hin]
  refine h.agrees_of_exchanged hx false hplain hasks ?_ ?_ ?_
  · rw [finish_other hx (by simp), hrender, hsession, ← h.session_eq, ← hsends.session_eq]
  · rw [hsession]
    exact h.isUserName
  · rw [hx.ledger_eq]
    exact hholds

/-- A balance line at the ATM prints the same, and leaves the states in step. -/
theorem Refines.agrees_balance (h : Refines v s p) {user : String}
    (hline : Console.AtmCommand.ofLine text = .ok .balance) (hin : p.session.user? = some user)
    {x : Exchange} {bank : Bank} {reply : List UInt8}
    (hx : s.Exchanged text replyIv (.balance user) x bank reply) :
    Agrees v s p (.atm text typed replyIv) := by
  obtain ⟨datagram, -, hsends, -⟩ := hx.sent
  have hasks : p.asks (.atm text typed replyIv) = true := by simp [Plain.asks, hline, hin]
  obtain ⟨hrender, hledger⟩ := h.holds.respond_balance user
  have hplain : p.atm text typed = ([p.balance user], p) := by simp only [Plain.atm, hline, hin]
  refine h.agrees_of_exchanged hx false hplain hasks ?_ h.isUserName ?_
  · rw [finish_other hx (by simp), hrender, ← h.session_eq, ← hsends.session_eq]
  · rw [hx.ledger_eq, hledger]
    exact h.holds

/-! ## Steps and runs -/

/-- **Both systems agree on a line of the ATM**, if the numbers suffice for the exchange. -/
theorem Refines.agrees_atm (h : Refines v s p) (text : String) (typed : Option String) (replyIv : Bytes 12)
    (hroom : s.atm.sequencer.last + (p.asks (.atm text typed replyIv)).toNat ≤ lastSequence) :
    Agrees v s p (.atm text typed replyIv) := by
  rcases s.atm.submit_cases text with
    ⟨request, hasks, hsubmit⟩ | ⟨user, hline, hin, hsubmit⟩ | ⟨printed, honce, hsubmit⟩
  · have hlast : p.asks (.atm text typed replyIv) = true → s.atm.sequencer.last < lastSequence := by
      intro hasks'
      rw [hasks', Bool.toNat_true] at hroom
      omega
    cases hasks with
    | beginSession hline hout hopen =>
      obtain ⟨x, bank, reply, hx⟩ := h.exists_exchanged (.beginSession hline hout hopen) hsubmit
        (hlast (by simp [Plain.asks, hline, ← h.session_eq, hout, hopen])) replyIv
      exact h.agrees_beginSession hline (h.session_eq ▸ hout) (h.session_eq ▸ hopen) hx
    | withdraw hline hin =>
      obtain ⟨x, bank, reply, hx⟩ := h.exists_exchanged (.withdraw hline hin) hsubmit
        (hlast (by simp [Plain.asks, hline, ← h.session_eq, hin])) replyIv
      exact h.agrees_withdraw hline (h.session_eq ▸ hin) hx
    | balance hline hin =>
      obtain ⟨x, bank, reply, hx⟩ := h.exists_exchanged (.balance hline hin) hsubmit
        (hlast (by simp [Plain.asks, hline, ← h.session_eq, hin])) replyIv
      exact h.agrees_balance hline (h.session_eq ▸ hin) hx
  · rw [h.session_eq] at hin hsubmit
    have hplain : p.atm text typed = ([Atm.userLoggedOut], { p with
        session := { p.session with user? := none, attempts := p.session.attempts.reset user } }) := by
      simp only [Plain.atm, hline, Plain.endSession, hin]
    exact h.agrees_of_done hsubmit hplain rfl (by simp [Plain.asks, hline]) (by simp) rfl
  · rw [h.session_eq] at honce
    obtain ⟨hplain, hasks⟩ := atm_of_atOnce honce typed replyIv
    exact h.agrees_of_done hsubmit hplain (by rw [← h.session_eq]) hasks h.isUserName rfl

/-- **Both systems agree on a line of the Bank.** -/
theorem Refines.agrees_bank (h : Refines v s p) (text : String) (cardIv : Block) :
    Agrees v s p (.bank text cardIv) := by
  have hkey : s.branch.bank.keys.pinKey = v.pinKey := (congrArg Keys.pinKey h.keys_eq).trans h.pinKey_eq
  obtain ⟨hline, hholds, hsession⟩ := h.holds.console hkey h.bankCards_eq cardIv text
  have hbank := Branch.bank_step_line s.branch cardIv text
  exact {
    lines_eq := hline
    answered := ⟨[], rfl, rfl⟩
    last_eq := rfl
    refines := {
      session_eq := h.session_eq.trans hsession.symm
      keys_eq := (Branch.keys_step ..).trans h.keys_eq
      pinKey_eq := h.pinKey_eq
      atmCards_eq := h.atmCards_eq
      bankCards_eq := (congrArg Bank.cards hbank).trans h.bankCards_eq
      highWater_le := Nat.le_trans (Nat.le_of_eq (congrArg Bank.highWater hbank)) h.highWater_le
      isUserName := by
        intro user huser
        exact h.isUserName user (hsession ▸ huser)
      holds := hholds } }

/-- So does every input, as long as there is a vector for the request that it asks for. -/
theorem Refines.agrees (h : Refines v s p) (i : Input)
    (hroom : s.atm.sequencer.last + (p.asks i).toNat ≤ lastSequence) : Agrees v s p i := by
  cases i with
  | atm text typed replyIv => exact h.agrees_atm text typed replyIv hroom
  | bank text cardIv => exact h.agrees_bank text cardIv

/-- **Both systems agree on every line of a run**, if the numbers suffice for its exchanges. -/
theorem Refines.run (h : Refines v s p) (inputs : List Input)
    (hroom : s.atm.sequencer.last + p.exchanges v.cards.fits inputs ≤ lastSequence) :
    s.lines inputs = p.lines v.cards.fits inputs ∧
      (∃ responses : List Response, s.answers inputs = responses.map .ok ∧
        responses.length = p.exchanges v.cards.fits inputs) ∧
      Refines v (s.run inputs) (p.run v.cards.fits inputs) := by
  induction inputs generalizing s p with
  | nil => exact ⟨rfl, ⟨[], rfl, rfl⟩, h⟩
  | cons i rest ih =>
    simp only [Plain.exchanges] at hroom
    have hi := h.agrees i (by omega)
    obtain ⟨responses, hresponses, hcount⟩ := hi.answered
    obtain ⟨hlines, ⟨others, hothers, hrest⟩, hrefines⟩ := ih hi.refines (by rw [hi.last_eq]; omega)
    refine ⟨?_, ⟨responses ++ others, ?_, ?_⟩, hrefines⟩
    · rw [lines, Plain.lines, hi.lines_eq, hlines]
    · rw [answers, hresponses, hothers, List.map_append]
    · rw [List.length_append, hcount, hrest, Plain.exchanges]

/-! ## From the start -/

/-- An ATM and a Bank with the same keys and the same cards. The Bank has no users yet; its mark may be
left from before. -/
def start (keys : Keys) (cards : CardStore) (files : FileTree) (session : Session) (sequencer : Sequencer)
    (highWater : Nat) (last? : Option Answered) : Secured where
  atm := { keys, cards, session, sequencer }
  branch := { bank := { keys, cards, highWater, last? }, files }

/-- Two parties that have just started are in step with the plain system. -/
theorem refines_start (keys : Keys) (cards : CardStore) {files : FileTree} {place : Location}
    (hdirectory : files.resolve cards.directory = .ok (place, .directory)) (hempty : files.below place = [])
    {session : Session} (hout : session.user? = none) {sequencer : Sequencer} {highWater : Nat}
    (hmark : highWater ≤ sequencer.last) (last? : Option Answered) :
    Refines ⟨keys.pinKey, cards, place⟩ (start keys cards files session sequencer highWater last?) { session } where
  session_eq := rfl
  keys_eq := rfl
  pinKey_eq := rfl
  atmCards_eq := rfl
  bankCards_eq := rfl
  highWater_le := hmark
  isUserName user huser := by
    rw [show session.user? = some user from huser] at hout
    simp at hout
  holds := Vault.holds_empty (FileTree.leads_of_resolve hdirectory) (FileTree.lookup_of_below hempty)

/-- **The secured system is the plain one to everybody at its consoles.** The cards are in a directory that is
there and empty; the mark of the Bank is not above the number of the ATM, and numbers are left for all
exchanges. Then every line is answered as in the plain system, whatever is typed, in whatever order the two
consoles take turns, and the balances are the same at the end. Every exchange brings a response, so neither
program tells of a failed one. If the path of the directory has at most 3839 bytes, every user can be created. -/
theorem lines_eq_plain (keys : Keys) (cards : CardStore) {files : FileTree} {place : Location}
    (hdirectory : files.resolve cards.directory = .ok (place, .directory)) (hempty : files.below place = [])
    {session : Session} (hout : session.user? = none) {sequencer : Sequencer} {highWater : Nat}
    (hmark : highWater ≤ sequencer.last) (last? : Option Answered) (inputs : List Input)
    (hroom : sequencer.last + Plain.exchanges cards.fits { session } inputs ≤ lastSequence) :
    let s := start keys cards files session sequencer highWater last?
    let p : Plain := { session }
    s.lines inputs = p.lines cards.fits inputs ∧
      (s.run inputs).atm.session = (p.run cards.fits inputs).session ∧
      (∀ user, ((s.run inputs).branch.bank.ledger.balance? user).map Int32.toInt =
        ((p.run cards.fits inputs).accounts.get? user).map fun account => (account.balance : Int)) ∧
      (∃ responses : List Response, s.answers inputs = responses.map .ok ∧
        responses.length = p.exchanges cards.fits inputs) ∧
      (∀ printed ∈ s.lines inputs, ∀ line ∈ printed, ¬ Plain.TellsOfFailure line) ∧
      (cards.directory.text.utf8ByteSize ≤ 3839 →
        p.lines cards.fits inputs = p.lines (fun _ => true) inputs ∧
          p.run cards.fits inputs = p.run (fun _ => true) inputs) := by
  intro s p
  have hstart : Refines ⟨keys.pinKey, cards, place⟩ s p :=
    refines_start keys cards hdirectory hempty hout hmark last?
  obtain ⟨hlines, hanswers, hrefines⟩ := hstart.run inputs hroom
  refine ⟨hlines, hrefines.session_eq, hrefines.holds.balances_eq, hanswers, ?_, ?_⟩
  · intro printed hprinted line hline
    rw [hlines] at hprinted
    exact Plain.not_tellsOfFailure_lines hprinted hline
  · intro hshort
    have hfits : ∀ user, Credential.isUserName user = true → cards.fits user = true := fun user huser =>
      decide_eq_true (CardStore.fits_of_short hshort huser)
    exact ⟨Plain.lines_congr hfits p inputs, Plain.run_congr hfits p inputs⟩

/-- A new user takes 3 of the 5 that the account was opened with. -/
theorem lines_eq_plain_session :
    let keys : Keys := ⟨Bytes.zero 32, Bytes.zero 32⟩
    let sequencer : Sequencer := { start := Bytes.zero 4, last := 0 }
    (start keys ⟨⟨"."⟩⟩ {} {} sequencer 0 none).lines
        [.bank "create-user a 1234 5" (Bytes.zero 16), .atm "begin-session a" (some "1234\n") (Bytes.zero 12),
          .atm "withdraw 3" none (Bytes.zero 12), .atm "balance" none (Bytes.zero 12)] =
      [["Created user a"], ["Authorized"], ["$3 dispensed"], ["$2"]] := by
  intro keys sequencer
  have hdirectory : ({} : FileTree).resolve ⟨"."⟩ = .ok ([], .directory) := by rfl
  have hempty : ({} : FileTree).below [] = [] := by rfl
  have hout : ({} : Session).user? = none := by rfl
  have hmark : 0 ≤ sequencer.last := by decide
  have hagree := lines_eq_plain keys ⟨⟨"."⟩⟩ hdirectory hempty hout hmark none
    [.bank "create-user a 1234 5" (Bytes.zero 16), .atm "begin-session a" (some "1234\n") (Bytes.zero 12),
      .atm "withdraw 3" none (Bytes.zero 12), .atm "balance" none (Bytes.zero 12)] (by decide)
  exact hagree.1.trans (by rfl)

end Secured

/-! ## A path that is too long -/

/-- The current directory is found with many slashes after it, up to the longest path. -/
theorem FileTree.resolve_dotSlashes {n : Nat} (h : 0 < n) (hn : n < longestPath) :
    ({} : FileTree).resolve (Path.dotSlashes n) = .ok ([], .directory) := by
  have hsize := Path.size_dotSlashes n
  have hzero : (Path.dotSlashes n).text.toList.contains (Char.ofNat 0) = false := by simp [Path.dotSlashes]
  have habsolute : (Path.dotSlashes n).isAbsolute = false := by simp [Path.isAbsolute, Path.dotSlashes]
  have hne : (Path.dotSlashes n).text ≠ "" := by
    intro heq
    rw [heq] at hsize
    simp at hsize
  have hchecked : checkPath (Path.dotSlashes n) = .ok () := by
    rw [checkPath, hzero, if_neg (by decide), if_neg hne, hsize, if_neg (by omega)]
  simp [resolve, hchecked, Path.steps_dotSlashes h, walk, start, habsolute, step, requireDirectory, lookup,
    bind, Except.bind, pure, Except.pure]

/-- A user name of the greatest length. -/
def Credential.longName : String := String.ofList (List.replicate longestUserName 'a')

/-- The long name is a user name. -/
theorem Credential.isUserName_longName : isUserName longName = true := by
  have hlist : longName.toList = List.replicate longestUserName 'a' := String.toList_ofList
  rw [isUserName, hlist, List.length_replicate, List.all_replicate]
  decide

/-- In a directory with so long a path there is no room for a card of that name. -/
theorem CardStore.not_fits_longName : ¬ (CardStore.mk (Path.dotSlashes 3899)).Fits Credential.longName := by
  have hname : (fileName Credential.longName).utf8ByteSize = 255 := by
    have hlist : Credential.longName.toList = List.replicate Credential.longestUserName 'a' := String.toList_ofList
    rw [fileName, String.utf8ByteSize_append,
      Utf8.utf8ByteSize_of_ascii (Text.isAscii_userName Credential.isUserName_longName), hlist, List.length_replicate]
    decide
  have hjoin := Path.le_size_join (Path.dotSlashes 3899) (fileName Credential.longName)
  have hsize := Path.size_dotSlashes 3899
  simp only [Fits, FileTree.longestPath]
  omega

/-- The operator's line for a user with that name. -/
def Console.createLong : String := "create-user" ++ " " ++ (Credential.longName ++ " " ++ "1234 5")

/-- The line creates the user with the long name. -/
theorem Console.ofLine_createLong :
    BankCommand.ofLine createLong = .ok (.createUser Credential.longName "1234" 5) := by
  have hword := Credential.isWord_userName Credential.isUserName_longName
  have hwords : Text.words createLong = ["create-user", Credential.longName, "1234", "5"] := by
    rw [createLong, Text.words_append_blank (by decide), Text.words_append_blank hword]
    rfl
  have hpin : Credential.isPin "1234" = true := by decide
  have hfive : Amount.ofString? "5" = some 5 := by decide
  rw [BankCommand.ofLine, hwords]
  simp [BankCommand.ofWords, BankCommand.createUserOf, Credential.isUserName_longName, hpin, hfive]

/-- The plain answer to a line that creates a user. -/
theorem Plain.lines_of_createUser {fits : String → Bool} {p : Plain} {text user pin : String} {opening : Amount}
    (hline : Console.BankCommand.ofLine text = .ok (.createUser user pin opening))
    (hnew : p.accounts.get? user = none) (cardIv : Block) :
    p.lines fits [.bank text cardIv] =
      [[if fits user then Bank.userCreated user else Bank.cardFailed user]] := by
  simp only [lines, step, bank, hline, createUser, hnew, Option.isSome_none, Bool.false_eq_true, if_false]
  split <;> rfl

/-- A card that could not be made is not answered like the creation of a user. -/
theorem Bank.cardFailed_ne_userCreated (user : String) : cardFailed user ≠ userCreated user := by
  intro heq
  have hhead := congrArg (fun line => line.toList.head?) heq
  unfold cardFailed userCreated at hhead
  simp at hhead

/-- **Where a path is too long, fewer users can be created than in one map**: in an empty directory under a
path of 3900 bytes, a user with a name of 250 letters gets no card. -/
theorem Secured.lines_ne_of_longName :
    let keys : Keys := ⟨Bytes.zero 32, Bytes.zero 32⟩
    let sequencer : Sequencer := { start := Bytes.zero 4, last := 0 }
    let s := start keys ⟨.dotSlashes 3899⟩ {} {} sequencer 0 none
    let p : Plain := { session := {} }
    ({} : FileTree).resolve (.dotSlashes 3899) = .ok ([], .directory) ∧ ({} : FileTree).below [] = [] ∧
      s.lines [.bank Console.createLong (Bytes.zero 16)] ≠
        p.lines (fun _ => true) [.bank Console.createLong (Bytes.zero 16)] := by
  intro keys sequencer s p
  have hlong : 3899 < FileTree.longestPath := by decide
  have hdirectory := FileTree.resolve_dotSlashes (Nat.succ_pos 3898) hlong
  have hempty : ({} : FileTree).below [] = [] := by rfl
  have hout : ({} : Session).user? = none := by rfl
  have hmark : 0 ≤ sequencer.last := by decide
  have hstart : Refines ⟨keys.pinKey, ⟨.dotSlashes 3899⟩, []⟩ s p :=
    refines_start keys ⟨.dotSlashes 3899⟩ hdirectory hempty hout hmark none
  obtain ⟨hlines, -, -⟩ := hstart.run [.bank Console.createLong (Bytes.zero 16)] (Nat.zero_le _)
  have hfits : CardStore.fits ⟨.dotSlashes 3899⟩ Credential.longName = false :=
    decide_eq_false CardStore.not_fits_longName
  refine ⟨hdirectory, hempty, ?_⟩
  rw [hlines, Plain.lines_of_createUser Console.ofLine_createLong (Table.get?_empty _),
    Plain.lines_of_createUser Console.ofLine_createLong (Table.get?_empty _), hfits]
  intro heq
  exact Bank.cardFailed_ne_userCreated _ (List.singleton_inj.1 (List.singleton_inj.1 heq))

end Cashpoint
