/-
# Late replies

A link discards what lies in its inbox once, when a round trip begins. After that it returns
whatever its peer sends first, and a reply to an earlier request may well be that, if it is
late or comes twice. Such a reply does not open, so nothing false is shown. But the reply to
the request itself, which may be the next to arrive, is not waited for any more.

So a command shows the answer that the Bank has sent for it if that is the first to come
(`shown_if_first`). Otherwise it prints that the response was rejected, though the Bank has
executed the request (`Steady.spoiled`): a withdrawal is booked and no cash goes out
(`spoiled_withdrawal`).
-/

import Cashpoint.Proofs.Atm.Effect
import Cashpoint.Proofs.Network.Backlog
import Cashpoint.Proofs.Network.Login

namespace Cashpoint

open Bank (Execution)
open Console (AtmCommand BankCommand)

/-! ## What a turn shows -/

namespace Atm

variable {σ : Type}

/-- What a turn shows of the response to its request: `success` by asking for the PIN, and any other in
words. -/
def Handled.Shows (handled : Handled σ) : Request → Response → Prop
  | .beginSession _, .success => handled.askedPin = true
  | _, response => handled.askedPin = false ∧ handled.lines.head? = some response.render

/-- The answer to a withdrawal is printed. -/
theorem Handled.Shows.head?_lines {handled : Handled σ} {user : String} {amount : Amount} {response : Response}
    (h : handled.Shows (.withdraw user amount) response) : handled.lines.head? = some response.render := h.2

/-- **An answer is shown.** -/
theorem shows_of_answer {x : Exchange} {reply : Except Error (List UInt8)} {response : Response}
    (h : x.answer reply = .ok response) (world : Surroundings σ) (typed : Option String) (s : σ) :
    (finish world typed s (x.receive reply)).Shows x.request response := by
  rcases x.receive_cases reply with ⟨e, hanswer, -⟩ | ⟨user, hq, hanswer, hr⟩ | ⟨user, hq, hanswer, hr⟩ |
    ⟨other, hq, hanswer, hr⟩
  · rw [hanswer] at h
    simp at h
  · obtain rfl := Except.ok.inj (hanswer.symm.trans h)
    rw [hq, hr]
    refine ⟨rfl, ?_⟩
    simp only [finish, withLock]
    split <;> rfl
  · obtain rfl := Except.ok.inj (hanswer.symm.trans h)
    rw [hq, hr]
    rfl
  · obtain rfl := Except.ok.inj (hanswer.symm.trans h)
    rw [hr]
    cases hrequest : x.request with
    | beginSession user => exact absurd hrequest (hq user)
    | withdraw user amount => exact ⟨rfl, rfl⟩
    | balance user => exact ⟨rfl, rfl⟩

end Atm

/-! ## Commands -/

/-- An ATM, its link, and a Bank behind a network that delivers late. -/
structure LateNetwork (peer : SocketAddress) where
  atm : Atm
  link : Link
  backlog : Backlog peer

namespace LateNetwork

variable {peer : SocketAddress}

/-- What happens to the two parties. -/
inductive Input (peer : SocketAddress)
  /-- Something happens while no command is under way. -/
  | between (happening : Happening peer)
  /-- A line at the ATM, what will be typed if the PIN is asked for, and what happens in each attempt to send the
  request. -/
  | command (text : String) (typed : Option String) (plan : List (List (Happening peer)))

/-- What the ATM is connected to. -/
def world : Atm.Surroundings (Link × Backlog peer) where
  exchange s datagram := s.1.roundTrip Backlog.transmit s.2 datagram
  files s := s.2.branch.files

/-- The link and the network at the beginning of a command. -/
def facing (n : LateNetwork peer) (plan : List (List (Happening peer))) : Link × Backlog peer :=
  (n.link, { n.backlog with arrived := [], plan })

/-- A command at the ATM. -/
def command (n : LateNetwork peer) (text : String) (typed : Option String)
    (plan : List (List (Happening peer))) : Atm.Handled (Link × Backlog peer) :=
  n.atm.command world text typed (n.facing plan)

/-- The two parties after an input. What arrives between commands lies in the inbox of the link. -/
def step (n : LateNetwork peer) : Input peer → LateNetwork peer
  | .between happening =>
    let next := n.backlog.happen happening
    { n with
      link := { n.link with inbox := n.link.inbox ++ next.arrived.drop n.backlog.arrived.length }
      backlog := next }
  | .command text typed plan =>
    let handled := n.command text typed plan
    { atm := handled.atm, link := handled.state.1, backlog := handled.state.2 }

/-- The two parties after a sequence of inputs. -/
def run (n : LateNetwork peer) (inputs : List (Input peer)) : LateNetwork peer := inputs.foldl step n

@[simp] theorem run_nil (n : LateNetwork peer) : n.run [] = n := rfl

@[simp] theorem run_cons (n : LateNetwork peer) (input : Input peer) (rest : List (Input peer)) :
    n.run (input :: rest) = (n.step input).run rest := rfl

/-- An ATM and a Bank with the same keys that have just started, with nothing under way. -/
def start (atm : Atm) (link : Link) (branch : Branch) : LateNetwork link.peer where
  atm
  link
  backlog := { branch }

/-! ## What holds in every run -/

/-- After a command the link and the network are as at its beginning, or as its round trip has left them. -/
theorem state_command (n : LateNetwork peer) (text : String) (typed : Option String)
    (plan : List (List (Happening peer))) :
    (n.command text typed plan).state = n.facing plan ∨
      ∃ datagram, (n.command text typed plan).state = (world.exchange (n.facing plan) datagram).2 := by
  unfold LateNetwork.command
  cases hsubmit : n.atm.submit text with
  | done lines next => exact .inl (by rw [Atm.command_of_done hsubmit])
  | send datagram x => exact .inr ⟨datagram, by rw [Atm.command_of_send hsubmit, Atm.state_finish]⟩

/-- The link goes on making as many attempts. -/
theorem attempts_step (n : LateNetwork peer) (input : Input peer) :
    (n.step input).link.attempts = n.link.attempts := by
  cases input with
  | between happening => rfl
  | command text typed plan =>
    show (n.command text typed plan).state.1.attempts = n.link.attempts
    rcases n.state_command text typed plan with hstate | ⟨datagram, hstate⟩
    · rw [hstate]
      rfl
    · obtain ⟨inbox, hlink⟩ : ∃ inbox, (world.exchange (n.facing plan) datagram).2.1 = { n.link with inbox } :=
        Link.roundTrip_keeps ..
      rw [hstate, hlink]
      rfl

/-- A run leaves the number of attempts as it is. -/
theorem attempts_run (n : LateNetwork peer) (inputs : List (Input peer)) :
    (n.run inputs).link.attempts = n.link.attempts := by
  induction inputs generalizing n with
  | nil => rfl
  | cons input rest ih => exact (ih _).trans (n.attempts_step input)

/-- What holds of the two in every run. -/
structure Steady (n : LateNetwork peer) : Prop where
  named : ∀ user, n.atm.session.user? = some user → Credential.isUserName user = true
  peer_eq : n.link.peer = peer
  timeout_pos : 0 < n.link.timeout
  faithful : n.backlog.Faithful n.atm.keys

variable {n : LateNetwork peer}

/-- **What the round trip of a command brings**: the first payload of the peer among all that arrives. -/
theorem Steady.exchange (h : n.Steady) (plan : List (List (Happening peer))) (datagram : List UInt8) :
    let out := world.exchange (n.facing plan) datagram
    (∃ inbox, out.2.1 = { n.link with inbox }) ∧ out.2.2.Faithful n.atm.keys ∧
      out.1 = match Link.first? peer out.2.2.arrived with
        | some payload => .ok payload
        | none => .error (.timeout n.link.attempts) := by
  intro out
  have hfacing : (n.facing plan).2.Faithful n.atm.keys :=
    ⟨h.faithful.keys_eq, h.faithful.inRange, h.faithful.honest, by simp [facing]⟩
  refine ⟨Link.roundTrip_keeps n.link (n.facing plan).2, ?_, ?_⟩
  · exact Link.attempt_preserves (fun b hb => hb.transmit datagram) n.link.attempts n.link.drain hfacing
  · obtain ⟨heard, harrived, hresult⟩ := Link.attempt_heard Backlog.arrived
      (fun b => b.arrived_transmit datagram) n.link.attempts (show 0 < n.link.drain.timeout from h.timeout_pos) rfl
      (n.facing plan).2
    have hall : out.2.2.arrived = heard := harrived
    have hpeer : n.link.drain.peer = peer := h.peer_eq
    rw [hpeer] at hresult
    rw [hall]
    exact hresult

/-- A command keeps the ATM, the link and the network steady. -/
theorem Steady.command (h : n.Steady) (text : String) (typed : Option String)
    (plan : List (List (Happening peer))) : (n.step (.command text typed plan)).Steady := by
  have hkeys : (n.command text typed plan).atm.keys = n.atm.keys := Atm.keys_command ..
  have hnamed := Atm.named_command world h.named text typed (n.facing plan)
  have hstate : (∃ inbox, (n.command text typed plan).state.1 = { n.link with inbox }) ∧
      (n.command text typed plan).state.2.Faithful n.atm.keys := by
    rcases n.state_command text typed plan with hstate | ⟨datagram, hstate⟩
    · rw [hstate]
      exact ⟨⟨n.link.inbox, rfl⟩, h.faithful.keys_eq, h.faithful.inRange, h.faithful.honest, by simp [facing]⟩
    · obtain ⟨hlink, hfaithful, -⟩ := h.exchange plan datagram
      rw [hstate]
      exact ⟨hlink, hfaithful⟩
  obtain ⟨⟨inbox, hlink⟩, hfaithful⟩ := hstate
  exact {
    named := hnamed
    peer_eq := by
      show (n.command text typed plan).state.1.peer = peer
      rw [hlink]
      exact h.peer_eq
    timeout_pos := by
      show 0 < (n.command text typed plan).state.1.timeout
      rw [hlink]
      exact h.timeout_pos
    faithful := hkeys.symm ▸ hfaithful }

/-- So does every input. -/
theorem Steady.step (h : n.Steady) (input : Input peer) : (n.step input).Steady := by
  cases input with
  | between happening => exact ⟨h.named, h.peer_eq, h.timeout_pos, h.faithful.happen happening⟩
  | command text typed plan => exact h.command text typed plan

/-- So does every run. -/
theorem Steady.run (h : n.Steady) (inputs : List (Input peer)) : (n.run inputs).Steady := by
  induction inputs generalizing n with
  | nil => exact h
  | cons input rest ih => exact ih (h.step input)

/-- Two parties that have just started are steady. -/
theorem steady_start {atm : Atm} {link : Link} {branch : Branch} (hout : atm.session.user? = none)
    (htimeout : 0 < link.timeout) (hkeys : branch.bank.keys = atm.keys) (hrange : branch.bank.ledger.InRange) :
    (start atm link branch).Steady where
  named user hin := by
    have hnone : (start atm link branch).atm.session.user? = none := hout
    rw [hnone] at hin
    simp at hin
  peer_eq := rfl
  timeout_pos := htimeout
  faithful := ⟨hkeys, hrange, by simp [start], by simp [start]⟩

/-! ## A request that reaches the Bank -/

/-- What has become of a request that reached the Bank as a new one, before replies of these ages arrived. -/
structure Executed (before after : Backlog peer) (x : Exchange) (reply : List UInt8) (e : Execution)
    (ages : List Nat) : Prop where
  mem_executed : e ∈ after.executed
  request_eq : e.request = x.sealed
  before_eq : e.before = before.branch.bank.ledger
  reply_eq : e.reply = .ok reply
  answer_eq : x.answer (.ok reply) = .ok (Bank.respond e.before x.request).1
  ledger_eq : after.branch.bank.ledger = (Bank.respond e.before x.request).2
  highWater_eq : after.branch.bank.highWater = x.atm.sequencer.last
  files_eq : after.branch.files = before.branch.files
  replies_eq : after.replies = before.replies ++ [reply]
  arrived_eq : after.arrived = Backlog.datagrams peer after.replies ages

variable {before after : Backlog peer} {x : Exchange} {reply : List UInt8} {e : Execution} {ages : List Nat}

/-- The reply to the request is the youngest. -/
theorem Executed.reverse_replies (h : Executed before after x reply e ages) :
    after.replies.reverse = reply :: before.replies.reverse := by
  rw [h.replies_eq, List.reverse_append]
  rfl

/-- The reply to the request has arrived, if the youngest reply is among those that do. -/
theorem Executed.mem_arrived (h : Executed before after x reply e ages) (hnew : 0 ∈ ages) :
    { source := peer, payload := reply } ∈ after.arrived := by
  rw [h.arrived_eq]
  refine List.mem_filterMap.2 ⟨0, hnew, ?_⟩
  rw [Arrival.datagram?, h.reverse_replies]
  rfl

/-- The link takes the reply to the request, if that is the first to arrive. -/
theorem Executed.first?_eq {later : List Nat} (h : Executed before after x reply e (0 :: later)) :
    Link.first? peer after.arrived = some reply := by
  have hfirst : after.replies.reverse[0]? = some reply := by
    rw [h.reverse_replies]
    rfl
  rw [h.arrived_eq, Backlog.datagrams_cons hfirst, Link.first?, Link.firstFrom, if_pos rfl]
  rfl

/-- **A command whose request reaches the Bank**, in its first attempt. The Bank executes the request, and the
command ends with the reply that arrives first, of whatever age. -/
theorem Steady.command_reaching (h : n.Steady) (hattempts : 0 < n.link.attempts) {text : String}
    {request : Request} {datagram : List UInt8} (hsubmit : n.atm.submit text = .send datagram x)
    (hx : n.atm.Sends request datagram x) (hwf : request.WellFormed)
    (hmark : n.backlog.branch.bank.highWater ≤ n.atm.sequencer.last)
    (replyIv : Bytes 12) {age : Nat} (hage : age ≤ n.backlog.replies.length) (later : List Nat)
    (typed : Option String) :
    let plan : List (List (Happening peer)) := [Backlog.reaching replyIv (age :: later)]
    let handled := n.command text typed plan
    ∃ reply e first, Executed n.backlog handled.state.2 x reply e (age :: later) ∧
      handled.state.2.replies.reverse[age]? = some first ∧
      handled = Atm.finish world typed handled.state (x.receive (.ok first)) := by
  intro plan handled
  obtain ⟨hnew, reply, hhandle, hanswer⟩ := hx.exchanged hwf h.faithful.keys_eq h.faithful.inRange hmark replyIv
  obtain ⟨e, hrequest, hbefore, hreply, hreach⟩ :=
    Backlog.transmit_reaching (b := (n.facing plan).2) rfl hnew hhandle
  obtain ⟨first, hfirst⟩ : ∃ first, (n.backlog.replies ++ [reply]).reverse[age]? = some first :=
    ⟨_, List.getElem?_eq_getElem (by simpa using Nat.lt_succ_of_le hage)⟩
  let rest := Backlog.datagrams peer (n.backlog.replies ++ [reply]) later
  let next : Backlog peer := (Backlog.transmit (n.facing plan).2 datagram).2
  have hsend : Backlog.transmit (n.facing plan).2 datagram =
      (.ok ({ source := peer, payload := first } :: rest), next) := by
    refine Prod.ext ?_ rfl
    show Except.ok (List.drop 0 (Backlog.transmit (n.facing plan).2 datagram).2.arrived) = _
    rw [hreach]
    exact congrArg Except.ok (Backlog.datagrams_cons hfirst later)
  have hexchange : world.exchange (n.facing plan) datagram = (.ok first, { n.link with inbox := rest }, next) := by
    have htaken : Link.firstFrom n.link.drain.peer
        (n.link.drain.inbox ++ { source := peer, payload := first } :: rest) = some (first, rest) :=
      if_pos h.peer_eq.symm
    obtain ⟨left, hleft⟩ := Nat.exists_eq_add_one.2 hattempts
    show Link.attempt Backlog.transmit datagram n.link.attempts n.link.drain (n.facing plan).2 = _
    rw [hleft, Link.attempt_succ (show 0 < n.link.drain.timeout from h.timeout_pos) hsend, htaken]
    rfl
  have hhandled : handled = _ := Atm.command_of_send hsubmit
  rw [hexchange] at hhandled
  have hstate : handled.state = ({ n.link with inbox := rest }, next) := by
    rw [hhandled, Atm.state_finish]
  have hnext : handled.state.2 = _ := (congrArg Prod.snd hstate).trans hreach
  have hledger : e.before = n.backlog.branch.bank.ledger := hbefore
  refine ⟨reply, e, first, ?_, by rw [hnext]; exact hfirst, by rw [hstate]; exact hhandled⟩
  rw [hnext]
  exact {
    mem_executed := List.mem_append_right _ (List.mem_singleton.2 rfl)
    request_eq := hrequest
    before_eq := hbefore
    reply_eq := hreply
    answer_eq := by rw [hledger, hx.request_eq]; exact hanswer
    ledger_eq := by rw [hledger, hx.request_eq]
    highWater_eq := hx.sequence_eq
    files_eq := rfl
    replies_eq := rfl
    arrived_eq := rfl }

/-- What a line asks for is sent, as long as there are vectors. -/
theorem Steady.exists_send (h : n.Steady) {text : String} {request : Request}
    (hasks : Atm.Asks n.atm.session text request) (hlast : n.atm.sequencer.last < lastSequence) :
    ∃ datagram x, n.atm.submit text = .send datagram x ∧ n.atm.Sends request datagram x := by
  rw [hasks.submit_eq]
  exact Atm.exists_send hlast (hasks.wellFormed h.named)

/-- **A user whom the Bank knows can begin a session.** -/
theorem Steady.begins (h : n.Steady) (hattempts : 0 < n.link.attempts) {user pin line : String}
    (hknows : n.backlog.branch.Knows user pin) (hcards : n.atm.cards = n.backlog.branch.bank.cards)
    (hout : n.atm.session.user? = none) (hopen : n.atm.session.isLocked user = false)
    (hlast : n.atm.sequencer.last < lastSequence)
    (hmark : n.backlog.branch.bank.highWater ≤ n.atm.sequencer.last)
    (hline : AtmCommand.ofLine line = .ok (.beginSession user)) (replyIv : Bytes 12) :
    let after := n.step (.command line (some pin) [Backlog.reaching replyIv [0]])
    after.atm.session.user? = some user ∧ after.atm.sequencer.last = n.atm.sequencer.last + 1 ∧
      after.backlog.branch.bank.highWater ≤ after.atm.sequencer.last ∧
      after.backlog.branch.bank.ledger = n.backlog.branch.bank.ledger ∧
      ∃ (y : Exchange) (reply : List UInt8), y.atm.keys = after.atm.keys ∧
        after.backlog.replies = n.backlog.replies ++ [reply] ∧ y.answer (.ok reply) = .ok .success := by
  intro after
  have hasks : Atm.Asks n.atm.session line (.beginSession user) := .beginSession hline hout hopen
  obtain ⟨datagram, x, hsend, hx⟩ := h.exists_send hasks hlast
  obtain ⟨reply, e, first, hexec, hfirst, hhandled⟩ :=
    h.command_reaching hattempts hsend hx (hasks.wellFormed h.named) hmark replyIv (Nat.zero_le _) [] (some pin)
  obtain rfl : reply = first := by
    rw [hexec.reverse_replies] at hfirst
    exact Option.some.inj hfirst
  have hrespond : Bank.respond e.before x.request = (.success, n.backlog.branch.bank.ledger) := by
    rw [hexec.before_eq, hx.request_eq, Bank.respond, if_pos hknows.contains]
  have hanswer : x.answer (.ok reply) = .ok .success := hexec.answer_eq.trans (by rw [hrespond])
  have hreceive : x.receive (.ok reply) = .askPin { atm := x.atm, user } := by
    simp only [Exchange.receive, hanswer, hx.request_eq, Exchange.confirm]
  have henter : Login.enter { atm := x.atm, user } n.backlog.branch.files (some (pin ++ "")) =
      ([Atm.authorized], { x.atm with session := { x.atm.session with user? := some user } }) :=
    hknows.enter_eq (hx.keys_eq.trans h.faithful.keys_eq.symm) (hx.cards_eq.trans hcards)
      ((congrArg Session.user? hx.session_eq).trans hout)
      ((congrArg (Session.isLocked · user) hx.session_eq).trans hopen) (by simp)
  rw [String.append_empty] at henter
  have hatm : after.atm = { x.atm with session := { x.atm.session with user? := some user } } := by
    show (n.command line (some pin) [Backlog.reaching replyIv [0]]).atm = _
    rw [hhandled, hreceive]
    simp only [Atm.finish, world, hexec.files_eq, henter]
  have hcount : after.atm.sequencer.last = x.atm.sequencer.last := by rw [hatm]
  refine ⟨by rw [hatm], hcount.trans hx.last_eq, ?_, ?_, x, reply, by rw [hatm], hexec.replies_eq, hanswer⟩
  · rw [hcount]
    exact Nat.le_of_eq hexec.highWater_eq
  · exact hexec.ledger_eq.trans (congrArg Prod.snd hrespond)

/-- The user `a` is created with $100 and begins a session. -/
def visit (peer : SocketAddress) : List (Input peer) :=
  [.between (.line (Bytes.zero 16) "create-user a 1234 100"),
   .command "begin-session a" (some "1234") [Backlog.reaching (Bytes.zero 12) [0]]]

/-- The user can withdraw, and the reply to the login may come again. -/
theorem visit_sends (atm : Atm) (link : Link) (hcards : atm.cards = ⟨⟨"."⟩⟩) (hout : atm.session.user? = none)
    (hopen : atm.session.isLocked "a" = false) (htimeout : 0 < link.timeout) (hattempts : 0 < link.attempts)
    (hlast : atm.sequencer.last + 1 < lastSequence) :
    let n := (start atm link (.start atm.keys atm.cards {})).run (visit link.peer)
    n.Steady ∧ 0 < n.link.attempts ∧ n.backlog.branch.bank.highWater ≤ n.atm.sequencer.last ∧
      n.backlog.branch.bank.ledger = Ledger.empty.setBalance "a" 100 ∧
      (∃ datagram x, n.atm.submit "withdraw 30" = .send datagram x ∧ n.atm.Sends (.withdraw "a" 30) datagram x) ∧
      ∃ (y : Exchange) (reply : List UInt8), y.atm.keys = n.atm.keys ∧ n.backlog.replies = [reply] ∧
        y.answer (.ok reply) = .ok .success := by
  intro n
  have hcreates : BankCommand.ofLine "create-user a 1234 100" = .ok (.createUser "a" "1234" 100) := by rfl
  have hbegins : AtmCommand.ofLine "begin-session a" = .ok (.beginSession "a") := by rfl
  have hwithdraws : AtmCommand.ofLine "withdraw 30" = .ok (.withdraw 30) := by rfl
  have hleads : ({} : FileTree).Leads atm.cards.directory [] := hcards ▸ FileTree.leads_here
  have hfits : atm.cards.Fits "a" := hcards ▸ CardStore.fits_of_short (by decide) (by decide)
  let created := (start atm link (.start atm.keys atm.cards {})).step
    (.between (.line (Bytes.zero 16) "create-user a 1234 100"))
  obtain ⟨hbank, hknows⟩ := OpenNetwork.knows_of_line (b := .start atm.keys atm.cards {}) hcreates hleads hfits
    (by rfl) rfl (Bytes.zero 16)
  have hsteady : created.Steady := (steady_start hout htimeout rfl Ledger.inRange_empty).step _
  have hfirst : created.backlog.branch.bank = _ := hbank
  have hmark : created.backlog.branch.bank.highWater ≤ atm.sequencer.last := by
    rw [hfirst]
    exact Nat.zero_le _
  obtain ⟨hin, hcount, hmark', hledger, hreply⟩ := hsteady.begins hattempts hknows (congrArg Bank.cards hbank).symm
    hout hopen (Nat.lt_of_succ_lt hlast) hmark hbegins (Bytes.zero 12)
  have hbegun : n.Steady := hsteady.step (.command "begin-session a" (some "1234") _)
  rw [hfirst] at hledger
  refine ⟨hbegun, ?_, hmark', hledger, hbegun.exists_send (.withdraw hwithdraws hin) (hcount ▸ hlast), hreply⟩
  rwa [attempts_run]

/-- **A late reply spoils a command.**  Let the request reach the Bank, let a reply to something else arrive after
that, and only then the reply to the request. The Bank has executed the request and its reply has come, and yet
the command prints that the response was rejected. -/
theorem Steady.spoiled (h : n.Steady) (hattempts : 0 < n.link.attempts) {text : String} {request : Request}
    {datagram : List UInt8} (hsubmit : n.atm.submit text = .send datagram x) (hx : n.atm.Sends request datagram x)
    (hwf : request.WellFormed) (hmark : n.backlog.branch.bank.highWater ≤ n.atm.sequencer.last)
    {age : Nat} {late : List UInt8} (hlate : n.backlog.replies.reverse[age]? = some late)
    {y : Exchange} (hkeys : y.atm.keys = n.atm.keys) {other : Response} (hother : y.answer (.ok late) = .ok other)
    (hanswers : other.answers request = false) (replyIv : Bytes 12) (typed : Option String) :
    let handled := n.command text typed [Backlog.reaching replyIv [age + 1, 0]]
    ∃ reply e, Executed n.backlog handled.state.2 x reply e [age + 1, 0] ∧
      handled.lines = [Atm.responseRejected] ∧ handled.atm.session = n.atm.session := by
  intro handled
  have hage : age < n.backlog.replies.length := by
    rw [← List.length_reverse]
    exact (List.getElem?_eq_some_iff.1 hlate).1
  obtain ⟨reply, e, first, hexec, hfirst, hhandled⟩ :=
    h.command_reaching hattempts hsubmit hx hwf hmark replyIv (show age + 1 ≤ _ from hage) [0] typed
  obtain rfl : late = first := by
    rw [hexec.reverse_replies, List.getElem?_cons_succ, hlate] at hfirst
    exact Option.some.inj hfirst
  obtain ⟨failed, hfailed⟩ : ∃ failed, x.answer (.ok late) = .error failed := by
    cases htaken : x.answer (.ok late) with
    | error failed => exact ⟨failed, rfl⟩
    | ok response =>
      -- bound to this request or not, it holds the response that it has held for the other
      obtain ⟨_, _, _, _, _, _, _, _, _, hresponse⟩ := Exchange.answer_eq_ok_iff.1 htaken
      obtain rfl := Exchange.answer_unique (by rw [hkeys, hx.keys_eq]) hother htaken
      rw [hx.request_eq, hanswers] at hresponse
      simp at hresponse
  have hreceive : x.receive (.ok late) = .done [Atm.responseRejected] x.atm := by
    simp only [Exchange.receive, hfailed, Exchange.failure_of_answer hfailed]
  have hdone : handled = _ := hhandled.trans (congrArg _ hreceive)
  exact ⟨reply, e, hexec, by rw [hdone]; rfl, by rw [hdone]; exact hx.session_eq⟩

/-! ## The first reply -/

/-- The first payload of the peer among datagrams is one of them. -/
theorem exists_first? {arrived : List Datagram} {payload : List UInt8}
    (h : { source := peer, payload } ∈ arrived) :
    ∃ first, Link.first? peer arrived = some first ∧ { source := peer, payload := first } ∈ arrived := by
  cases hfirst : Link.firstFrom peer arrived with
  | none => exact absurd rfl (Link.firstFrom_eq_none_iff.1 hfirst _ h)
  | some found => exact ⟨found.1, by rw [Link.first?, hfirst]; rfl, Link.mem_of_firstFrom hfirst⟩

/-- **A reply counts only if it is the first to come.**  An ATM and a Bank with the same keys have just started, the
link between them waits at all, and the network delivers late but forges nothing. Take any state that they reach,
and any command that sends a request there. Let the Bank have executed the request by the end of the command, and
let its reply have arrived at the link from its peer during the attempts of the command.

The link has then taken the first payload of its peer that arrived, which is a reply that the Bank has sent. If it
is the reply to this request, then the command shows the response of the Bank. If it does not open for this
request, then the command prints that the response was rejected, and the session is as before, although the Bank
has executed the request and the reply to it has come. -/
theorem shown_if_first (keys : Keys) (cards cards' : CardStore) (files : FileTree) (sequencer : Sequencer)
    (capacity ceiling : Nat) (link : Link) (htimeout : 0 < link.timeout) (inputs : List (Input link.peer))
    (text : String) (typed : Option String) (plan : List (List (Happening link.peer))) :
    let atm : Atm := { keys, cards, sequencer,
                       session := { attempts := .withCapacity capacity, maxAttempts := ceiling } }
    let n := (start atm link (.start keys cards' files)).run inputs
    let handled := n.command text typed plan
    let after := handled.state.2
    ∀ datagram x, n.atm.submit text = .send datagram x → ∀ e ∈ after.executed, e.request = x.sealed →
      ∀ reply, e.reply = .ok reply → { source := link.peer, payload := reply } ∈ after.arrived →
        ∃ response, Bank.respond e.before x.request = (response, e.after) ∧
          ∃ first ∈ after.replies, Link.first? link.peer after.arrived = some first ∧
            (first = reply → handled.Shows x.request response) ∧
            ((∀ text, ¬ x.Opens (.ok first) text) → handled.lines = [Atm.responseRejected] ∧
              handled.askedPin = false ∧ handled.atm.session = n.atm.session) := by
  intro atm n handled after datagram x hsubmit e he hrequest reply hreply harrived
  have hsteady : n.Steady := (steady_start rfl htimeout rfl Ledger.inRange_empty).run inputs
  obtain ⟨request, hasks, hx⟩ := Atm.sends_of_submit hsubmit
  have hhandled : handled = Atm.finish world typed (world.exchange (n.facing plan) datagram).2
      (x.receive (world.exchange (n.facing plan) datagram).1) := Atm.command_of_send hsubmit
  obtain ⟨-, hfaithful, hresult⟩ := hsteady.exchange plan datagram
  have hafter : after = (world.exchange (n.facing plan) datagram).2.2 := by
    show handled.state.2 = _
    rw [hhandled, Atm.state_finish]
  rw [← hafter] at hfaithful hresult
  obtain ⟨hhonest, hrange⟩ := hfaithful.honest e he
  obtain ⟨response, hanswer, hrespond⟩ := Exchange.answer_of_execution (hx.keys_eq ▸ hhonest) hrequest
    (by rw [hx.keys_eq, hx.request_eq]; exact hx.opens)
    (hx.request_eq ▸ hasks.wellFormed hsteady.named) hrange hreply
  obtain ⟨first, hfirst, hmem⟩ := exists_first? harrived
  rw [hfirst] at hresult
  rw [hresult] at hhandled
  refine ⟨response, hrespond, first, hfaithful.arrived_replies first hmem, hfirst, ?_, fun hunopened => ?_⟩
  · rintro rfl
    rw [hhandled]
    exact Atm.shows_of_answer hanswer ..
  · rcases x.receive_cases (.ok first) with ⟨failed, hfailed, hr⟩ | ⟨_, _, htaken, -⟩ | ⟨_, _, htaken, -⟩ |
      ⟨_, _, htaken, -⟩
    · rw [hhandled, hr, Exchange.failure_of_answer hfailed]
      exact ⟨rfl, rfl, hx.session_eq⟩
    all_goals
      obtain ⟨text, hopens, -⟩ := Exchange.answer_eq_ok_iff_opens.1 htaken
      exact absurd hopens (hunopened text)

/-- Two replies come back for a withdrawal, first the one to it and then that to the login. -/
theorem shown_if_first_withdrawal :
    let keys : Keys := ⟨Bytes.zero 32, Bytes.zero 32⟩
    let cards : CardStore := ⟨⟨"."⟩⟩
    let sequencer : Sequencer := { start := Bytes.zero 4, last := 0 }
    let atm : Atm := { keys, cards, sequencer, session := { attempts := .withCapacity 4, maxAttempts := 3 } }
    let link : Link := { peer := .v4 #v[127, 0, 0, 1] 9, timeout := 2000, maxRetries := 0 }
    let n := (start atm link (.start keys cards {})).run (visit link.peer)
    let handled := n.command "withdraw 30" none [Backlog.reaching (Bytes.zero 12) [0, 1]]
    0 < link.timeout ∧ handled.lines.head? = some "$30 dispensed" := by
  intro keys cards sequencer atm link n
  have htimeout : 0 < link.timeout := by decide
  refine ⟨htimeout, ?_⟩
  obtain ⟨hsteady, hattempts, hmark, hledger, ⟨datagram, x, hsubmit, hx⟩, -⟩ :=
    visit_sends atm link rfl rfl (by decide) htimeout (by decide) (by decide)
  have hwf : (Request.withdraw "a" 30).WellFormed := ⟨by decide, by decide⟩
  obtain ⟨reply, e, -, hexec, -, -⟩ :=
    hsteady.command_reaching hattempts hsubmit hx hwf hmark (Bytes.zero 12) (Nat.zero_le _) [1] none
  obtain ⟨response, hrespond, found, -, hfound, hshows, -⟩ := shown_if_first keys cards cards {} sequencer 4 3 link
    htimeout (visit link.peer) "withdraw 30" none [Backlog.reaching (Bytes.zero 12) [0, 1]] datagram x hsubmit
    e hexec.mem_executed hexec.request_eq reply hexec.reply_eq (hexec.mem_arrived (by simp))
  have hlines := hshows (Option.some.inj (hfound.symm.trans hexec.first?_eq))
  rw [hexec.before_eq, hledger] at hrespond
  rw [hx.request_eq] at hrespond hlines
  have hdispensed : response = .dispensed 30 := (congrArg Prod.fst hrespond).symm.trans (by rfl)
  rw [hdispensed] at hlines
  exact hlines.head?_lines.trans (by rfl)

/-- The same two come back in the other order. The account is debited, and nothing is dispensed. -/
theorem spoiled_withdrawal :
    let keys : Keys := ⟨Bytes.zero 32, Bytes.zero 32⟩
    let cards : CardStore := ⟨⟨"."⟩⟩
    let atm : Atm := { keys, cards, sequencer := { start := Bytes.zero 4, last := 0 },
                       session := { attempts := .withCapacity 4, maxAttempts := 3 } }
    let link : Link := { peer := .v4 #v[127, 0, 0, 1] 9, timeout := 2000, maxRetries := 0 }
    let n := (start atm link (.start keys cards {})).run (visit link.peer)
    let handled := n.command "withdraw 30" none [Backlog.reaching (Bytes.zero 12) [1, 0]]
    (∃ datagram x e reply, n.atm.submit "withdraw 30" = .send datagram x ∧ e ∈ handled.state.2.executed ∧
      e.request = x.sealed ∧ e.reply = .ok reply ∧
      { source := link.peer, payload := reply } ∈ handled.state.2.arrived) ∧
      n.backlog.branch.bank.ledger.balance? "a" = some 100 ∧
      handled.state.2.branch.bank.ledger.balance? "a" = some 70 ∧ handled.lines = [Atm.responseRejected] := by
  intro keys cards atm link n
  obtain ⟨hsteady, hattempts, hmark, hledger, ⟨datagram, x, hsubmit, hx⟩, y, old, hkeys, hreplies, hold⟩ :=
    visit_sends atm link rfl rfl (by decide) (by decide) (by decide) (by decide)
  have hwf : (Request.withdraw "a" 30).WellFormed := ⟨by decide, by decide⟩
  have hlate : n.backlog.replies.reverse[0]? = some old := by
    rw [hreplies]
    rfl
  obtain ⟨reply, e, hexec, hlines, -⟩ := hsteady.spoiled hattempts hsubmit hx hwf hmark hlate hkeys hold (by rfl)
    (Bytes.zero 12) none
  have hafter := hexec.ledger_eq
  rw [hexec.before_eq, hx.request_eq, hledger] at hafter
  exact ⟨⟨datagram, x, e, reply, hsubmit, hexec.mem_executed, hexec.request_eq, hexec.reply_eq,
    hexec.mem_arrived (by simp)⟩, by rw [hledger]; rfl, by rw [hafter]; rfl, hlines⟩

end LateNetwork
end Cashpoint
