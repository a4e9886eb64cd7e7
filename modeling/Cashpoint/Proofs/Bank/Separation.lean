/-
# Users do not interfere

What happens at a Bank is mostly about one user: a line at its console asks for something
for a user, and so does a request of the ATM. `Event.user?` says for which one. What a user
is told (`toldTo`) and owns, a balance and a card, depends on nothing but the events that name
this user. As for this user, the others might as well not exist (`users_separate`).

The comparison is between two Banks. `Agree` says that they are the same to one user: they
have one balance for the user, and among their files the card of the user is the same. An
event that names somebody else keeps a Bank in agreement with what it was
(`agree_step_of_other`); one that names the user gets one answer from both, and keeps them in
agreement (`Agree.step`). The mark of the Bank is shared by all users. It separates them only
because the sequence numbers of the requests grow: then every request is new to a Bank,
whichever of those before it have come there (`Fresh`).
-/

import Cashpoint.Proofs.Bank.Console
import Cashpoint.Proofs.Bank.Replay

namespace Cashpoint

open Console (BankCommand)

/-! ## What events are about -/

namespace Bank
namespace Event

/-- The authentic request in a datagram, and its plaintext. -/
def opened? (key : Bytes 32) : Event → Option (Frame × List UInt8)
  | .datagram _ bytes =>
    (do
      let request ← Frame.decode bytes
      let plaintext ← request.openPlain key
      return (request, plaintext) : Except Error (Frame × List UInt8)).toOption
  | _ => none

/-- The sequence number of an authentic request. -/
def sequence? (key : Bytes 32) (event : Event) : Option Nat :=
  (event.opened? key).map fun opened => opened.1.sequence

/-- The user whom an event names: whom the command on a line is about, or the request in an authentic datagram. -/
def user? (key : Bytes 32) : Event → Option String
  | .line _ text => (BankCommand.ofLine text).toOption.map BankCommand.user
  | event => do
    let (_, plaintext) ← event.opened? key
    let request ← (Utf8.decode? plaintext).bind Request.ofString?
    return request.user

/-- Something that comes from the console or the network. -/
def IsInput : Event → Prop
  | .change _ => False
  | _ => True

/-- The same input: the same line with the same vector for a card, or the same datagram, whatever the vector of
the reply. -/
inductive SameInput : Event → Event → Prop
  | line (cardIv : Block) (text : String) : SameInput (.line cardIv text) (.line cardIv text)
  | datagram (bytes : List UInt8) (replyIv replyIv' : Bytes 12) :
    SameInput (.datagram replyIv bytes) (.datagram replyIv' bytes)

variable {bank : Bank} {key : Bytes 32} {replyIv : Bytes 12} {bytes plaintext : List UInt8} {request : Frame}

/-- The same input opens to the same request. -/
theorem SameInput.opened?_eq {event event' : Event} (h : SameInput event event') :
    event.opened? key = event'.opened? key := by
  cases h <;> rfl

/-- The same input is about the same user. -/
theorem SameInput.user?_eq {event event' : Event} (h : SameInput event event') :
    event.user? key = event'.user? key := by
  cases h <;> rfl

/-- It is the request that a Bank with the key opens. -/
theorem opened?_eq_some_iff (replyIv : Bytes 12) :
    opened? bank.keys.messageKey (.datagram replyIv bytes) = some (request, plaintext) ↔
      bank.openRequest bytes = .ok (request, plaintext) := by
  show (bank.openRequest bytes).toOption = _ ↔ _
  cases bank.openRequest bytes <;> simp [Except.toOption]

/-- A line that stands for a command is about the user of the command. -/
theorem user?_of_command {command : BankCommand} {text : String} (h : BankCommand.ofLine text = .ok command)
    (key : Bytes 32) (cardIv : Block) : user? key (.line cardIv text) = some command.user := by
  simp [user?, h, Except.toOption]

@[simp] theorem sequence?_line (key : Bytes 32) (cardIv : Block) (text : String) :
    sequence? key (.line cardIv text) = none := rfl

/-- Every request can come in an authentic datagram, under any number. -/
theorem exists_datagram (key : Bytes 32) {asked : Request} (hwf : asked.WellFormed) {n : Nat}
    (hn : n ≤ lastSequence) : ∃ bytes, ∀ replyIv, sequence? key (.datagram replyIv bytes) = some n ∧
      user? key (.datagram replyIv bytes) = some asked.user := by
  have hlen := Request.length_encode_render_le hwf
  have hsmall : (Utf8.encode asked.render).length ≤ Frame.largestPlaintext := by
    simp only [Frame.largestPlaintext]
    omega
  obtain ⟨request, bytes, hs, he⟩ := Frame.exists_sealWith hsmall key (Sequencer.vector (Bytes.zero 4) n) []
  have hopen : request.openPlain key = .ok (Utf8.encode asked.render) := Frame.openPlain_of_sealPlain hs
  have hnumber := Sequencer.sequence_of_iv (Frame.iv_of_sealWith hs) hn
  refine ⟨bytes, fun replyIv => ?_⟩
  have hopened : opened? key (.datagram replyIv bytes) = some (request, Utf8.encode asked.render) := by
    simp [opened?, Frame.decode_of_encode he, hopen, bind, Except.bind, pure, Except.pure, Except.toOption]
  constructor
  · rw [sequence?, hopened, Option.map_some, hnumber]
  · simp [user?, hopened, Utf8.decode?_encode, Request.ofString?_render hwf]

end Event

/-! ## The console -/

variable {bank : Bank} {files : FileTree} {command : BankCommand} {user : String}

/-- **A command about somebody else** leaves a balance and a card as they are. -/
theorem execute_of_other (h : command.user ≠ user) (bank : Bank) (files : FileTree) (cardIv : Block) :
    (bank.execute files cardIv command).2.1.ledger.balance? user = bank.ledger.balance? user ∧
      bank.cards.SameCard files (bank.execute files cardIv command).2.2 user := by
  have hsame := CardStore.SameCard.refl bank.cards files user
  cases command with
  | createUser other pin opening =>
    simp only [execute, createUser]
    split
    · exact ⟨rfl, hsame⟩
    · cases hcreate : bank.cards.create files bank.keys.pinKey cardIv other pin with
      | error e => exact ⟨rfl, hsame⟩
      | ok after =>
        have hafter := CardStore.SameCard.of_create hcreate h
        rcases Ledger.create_congr (rfl : bank.ledger.balance? other = _) opening with
          ⟨e, hledger, -⟩ | ⟨hledger, -⟩ <;> simp only [hledger]
        · exact ⟨trivial, hafter⟩
        · exact ⟨(Ledger.balance?_setBalance ..).trans (if_neg h), hafter⟩
  | deposit other amount =>
    simp only [execute, deposit]
    refine ⟨?_, hsame⟩
    rcases Ledger.deposit_congr (rfl : bank.ledger.balance? other = _) amount with
      ⟨e, hledger, -⟩ | ⟨sum, hledger, -⟩ <;> rw [hledger]
    · cases e <;> rfl
    · exact (Ledger.balance?_setBalance ..).trans (if_neg h)
  | balance other => exact ⟨rfl, hsame⟩

end Bank

namespace Branch

open Bank (Event)

/-- The text that an event gets as its answer: at the console, or in the reply, for whoever has sent the request. -/
def told? (b : Branch) : Event → Option String
  | .line cardIv text => (b.bank.console b.files cardIv text).1
  | .datagram replyIv bytes => do
    let (request, _) ← (b.bank.openRequest bytes).toOption
    let reply ← (b.bank.handle replyIv bytes).1.toOption
    let frame ← (Frame.decode reply).toOption
    let plaintext ← (frame.openReply b.bank.keys.messageKey request).toOption
    Utf8.decode? plaintext
  | .change _ => none

/-- The answers to the events that name a user, oldest first. -/
def toldTo (b : Branch) (user : String) : List Event → List (Option String)
  | [] => []
  | event :: rest =>
    if event.user? b.bank.keys.messageKey = some user then b.told? event :: (b.step event).toldTo user rest
    else (b.step event).toldTo user rest

/-- Whether there is something under the name of a user's card file. -/
def hasCard (b : Branch) (user : String) : Bool :=
  match b.bank.cards.path user with
  | .ok p => b.files.exists? p
  | .error _ => false

/-- Two Banks are the same to a user. -/
structure Agree (user : String) (a b : Branch) : Prop where
  keys : a.bank.keys = b.bank.keys
  cards : a.bank.cards = b.bank.cards
  balance : a.bank.ledger.balance? user = b.bank.ledger.balance? user
  card : a.bank.cards.SameCard a.files b.files user

/-- A request with this number is new to the Bank, or is refused because there is nothing below it. -/
def Fresh (b : Branch) (n : Nat) : Prop :=
  b.bank.highWater < n ∨ n = 0 ∧ b.bank.highWater = 0 ∧ b.bank.last? = none

variable {a b c : Branch} {user : String} {event event' : Event} {command : BankCommand} {key : Bytes 32}

namespace Agree

/-- Every state agrees with itself. -/
theorem refl (user : String) (b : Branch) : Agree user b b := ⟨rfl, rfl, rfl, .refl ..⟩

/-- Agreement goes both ways. -/
theorem symm (h : Agree user a b) : Agree user b a where
  keys := h.keys.symm
  cards := h.cards.symm
  balance := h.balance.symm
  card := h.cards ▸ h.card.symm

/-- States that agree with the same one agree with each other. -/
theorem trans (h : Agree user a b) (h' : Agree user b c) : Agree user a c where
  keys := h.keys.trans h'.keys
  cards := h.cards.trans h'.cards
  balance := h.balance.trans h'.balance
  card := h.card.trans (h.cards ▸ h'.card)

/-- Both look at a user's card alike. -/
theorem hasCard_eq (h : Agree user a b) : a.hasCard user = b.hasCard user := by
  unfold hasCard
  rw [← h.cards]
  cases hpath : a.bank.cards.path user with
  | error e => rfl
  | ok p => simp only [FileTree.exists?, h.card.resolve_eq p hpath]

/-- **A command about the user** gets one answer from Banks that agree, and leaves the user the same. -/
theorem execute (h : Agree user a b) (huser : command.user = user) (cardIv : Block) :
    (a.bank.execute a.files cardIv command).1 = (b.bank.execute b.files cardIv command).1 ∧
      (a.bank.execute a.files cardIv command).2.1.ledger.balance? user =
        (b.bank.execute b.files cardIv command).2.1.ledger.balance? user ∧
      a.bank.cards.SameCard (a.bank.execute a.files cardIv command).2.2
        (b.bank.execute b.files cardIv command).2.2 user := by
  have hbalance := h.balance
  cases command with
  | balance name =>
    obtain rfl : name = user := huser
    exact ⟨by simp only [Bank.execute, Bank.balance, hbalance], hbalance, h.card⟩
  | deposit name amount =>
    obtain rfl : name = user := huser
    simp only [Bank.execute, Bank.deposit]
    rcases Ledger.deposit_congr hbalance amount with ⟨e, hd, hd'⟩ | ⟨sum, hd, hd'⟩ <;> rw [hd, hd']
    · cases e <;> exact ⟨rfl, hbalance, h.card⟩
    · exact ⟨rfl, by simp [Ledger.balance?_setBalance], h.card⟩
  | createUser name pin opening =>
    obtain rfl : name = user := huser
    have hcontains : a.bank.ledger.contains name = b.bank.ledger.contains name := by
      rw [Ledger.contains_eq, Ledger.contains_eq, hbalance]
    simp only [Bank.execute, Bank.createUser, hcontains, ← h.keys, ← h.cards]
    split
    · exact ⟨rfl, hbalance, h.card⟩
    · rcases h.card.create a.bank.keys.pinKey cardIv pin with
        ⟨e, hc, hc'⟩ | ⟨after, after', hc, hc', hafter⟩ <;> rw [hc, hc']
      · exact ⟨rfl, hbalance, h.card⟩
      · rcases Ledger.create_congr hbalance opening with ⟨e, hd, hd'⟩ | ⟨hd, hd'⟩ <;> rw [hd, hd']
        · exact ⟨rfl, hbalance, hafter⟩
        · exact ⟨rfl, by simp [Ledger.balance?_setBalance], hafter⟩

end Agree

/-! ## One event -/

/-- A new request is told the response. -/
theorem told?_of_newRequest {replyIv : Bytes 12} {bytes plaintext : List UInt8} {request : Frame}
    (h : b.bank.newRequest? bytes = some (request, plaintext)) :
    b.told? (.datagram replyIv bytes) = some (Bank.respondTo b.bank.ledger plaintext).1.render := by
  obtain ⟨hopen, -⟩ := Bank.newRequest?_eq_some_iff.1 h
  obtain ⟨reply, hreply, hhandle⟩ := Bank.handle_of_newRequest h replyIv
  obtain ⟨frame, datagram, hs, he, hd⟩ :=
    b.bank.exists_sealResponse replyIv request (Bank.respondTo b.bank.ledger plaintext).1
  obtain rfl : datagram = reply := Except.ok.inj (hd.symm.trans hreply)
  simp [told?, hopen, hhandle, Frame.decode_of_encode he, Frame.openReply_of_sealReply hs, Except.toOption,
    Utf8.decode?_encode]

/-- A request whose number is not new, at a Bank that has answered none, is told nothing. -/
theorem step_of_unanswered {bytes plaintext : List UInt8} {request : Frame}
    (hopen : b.bank.openRequest bytes = .ok (request, plaintext)) (hmark : request.sequence ≤ b.bank.highWater)
    (hlast : b.bank.last? = none) (replyIv : Bytes 12) :
    b.told? (.datagram replyIv bytes) = none ∧ b.step (.datagram replyIv bytes) = b := by
  have hhandle := Bank.handle_of_old hopen hmark replyIv
  constructor
  · simp [told?, hhandle, Bank.repeatLast, hlast, Except.toOption]
  · simp only [step, hhandle]

/-- **An event that does not name the user** leaves the Bank the same to the user. -/
theorem agree_step_of_other (hinput : event.IsInput) (hother : event.user? b.bank.keys.messageKey ≠ some user) :
    Agree user b (b.step event) := by
  have hkeys := (b.keys_step event).symm
  have hcards := (b.cards_step event).symm
  cases event with
  | change files => exact hinput.elim
  | line cardIv text =>
    cases hline : BankCommand.ofLine text with
    | error rejection =>
      have hstep : b.step (.line cardIv text) = b := by simp only [step, Bank.console, hline]
      rw [hstep]
      exact .refl user b
    | ok command =>
      have hne : command.user ≠ user := by
        rintro rfl
        exact hother (by simp [Event.user?, hline, Except.toOption])
      obtain ⟨hbalance, hcard⟩ := Bank.execute_of_other hne b.bank b.files cardIv
      refine ⟨hkeys, hcards, ?_, ?_⟩ <;> simp only [step, Bank.console_of_command hline]
      · exact hbalance.symm
      · exact hcard
  | datagram replyIv bytes =>
    refine ⟨hkeys, hcards, ?_, .refl ..⟩
    cases hnew : b.bank.newRequest? bytes with
    | none =>
      simp only [step, Bank.handle_of_not_newRequest hnew]
    | some opened =>
      obtain ⟨request, plaintext⟩ := opened
      obtain ⟨hopen, -⟩ := Bank.newRequest?_eq_some_iff.1 hnew
      obtain ⟨reply, -, hhandle⟩ := Bank.handle_of_newRequest hnew replyIv
      simp only [step, hhandle, Bank.respondTo]
      split
      · rename_i asked hasked
        have hne : asked.user ≠ user := by
          rintro rfl
          exact hother (by simp [Event.user?, (Event.opened?_eq_some_iff _).2 hopen, hasked])
        exact (Bank.balance?_respond_of_other hne _).symm
      · rfl

/-- **An event that names the user** gets one answer from Banks that agree, and keeps them in agreement, if a
request is as fresh to the one as to the other. -/
theorem Agree.step (h : Agree user a b) (hsame : Event.SameInput event event')
    (huser : event.user? a.bank.keys.messageKey = some user)
    (hfresh : ∀ n, event.sequence? a.bank.keys.messageKey = some n → a.Fresh n ∧ b.Fresh n) :
    a.told? event = b.told? event' ∧ Agree user (a.step event) (b.step event') := by
  have hkeys : (a.step event).bank.keys = (b.step event').bank.keys := by
    rw [keys_step, keys_step, h.keys]
  have hcards : (a.step event).bank.cards = (b.step event').bank.cards := by
    rw [cards_step, cards_step, h.cards]
  cases hsame with
  | line cardIv text =>
    obtain ⟨command, hline, hcommand⟩ :
        ∃ command, BankCommand.ofLine text = .ok command ∧ command.user = user := by
      cases hline : BankCommand.ofLine text with
      | error rejection => simp [Event.user?, hline, Except.toOption] at huser
      | ok command => exact ⟨command, rfl, by simpa [Event.user?, hline, Except.toOption] using huser⟩
    obtain ⟨hanswer, hbalance, hcard⟩ := h.execute hcommand cardIv
    have htold : a.told? (.line cardIv text) = b.told? (.line cardIv text) := by
      simp only [told?, Bank.console_of_command hline, hanswer]
    refine ⟨htold, hkeys, hcards, ?_, ?_⟩
    · simpa only [Branch.step, Bank.console_of_command hline] using hbalance
    · rw [cards_step]
      simpa only [Branch.step, Bank.console_of_command hline] using hcard
  | datagram bytes replyIv replyIv' =>
    obtain ⟨⟨request, plaintext⟩, hopened, hasks⟩ := Option.bind_eq_some_iff.1 huser
    obtain ⟨asked, hasked, hname⟩ := Option.bind_eq_some_iff.1 hasks
    have hname : asked.user = user := Option.some.inj hname
    have hopen := (Event.opened?_eq_some_iff _).1 hopened
    have hopen' : b.bank.openRequest bytes = .ok (request, plaintext) := by
      rw [Bank.openRequest, ← h.keys]
      exact hopen
    obtain ⟨hfirst, hfirst'⟩ := hfresh request.sequence (by rw [Event.sequence?, hopened]; rfl)
    rcases hfirst with hmark | ⟨hzero, hmark, hlast⟩
    · -- new to the one, so not 0, so new to the other
      have hmark' : b.bank.highWater < request.sequence := hfirst'.resolve_right fun hzero => by omega
      have hnew := Bank.newRequest?_eq_some_iff.2 ⟨hopen, hmark⟩
      have hnew' := Bank.newRequest?_eq_some_iff.2 ⟨hopen', hmark'⟩
      obtain ⟨reply, -, hhandle⟩ := Bank.handle_of_newRequest hnew replyIv
      obtain ⟨reply', -, hhandle'⟩ := Bank.handle_of_newRequest hnew' replyIv'
      obtain ⟨hresponse, hbalance⟩ := Bank.respond_congr hname h.balance
      have hrespond (ledger : Ledger) : Bank.respondTo ledger plaintext = Bank.respond ledger asked := by
        rw [Bank.respondTo, hasked]
      refine ⟨?_, hkeys, hcards, ?_, ?_⟩
      · rw [told?_of_newRequest hnew, told?_of_newRequest hnew', hrespond, hrespond, hresponse]
      · simpa only [Branch.step, hhandle, hhandle', hrespond] using hbalance
      · rw [cards_step]
        exact h.card
    · obtain ⟨-, hmark', hlast'⟩ := hfirst'.resolve_left (by omega)
      obtain ⟨htold, hstep⟩ := step_of_unanswered hopen (by omega) hlast replyIv
      obtain ⟨htold', hstep'⟩ := step_of_unanswered hopen' (by omega) hlast' replyIv'
      rw [htold, htold', hstep, hstep']
      exact ⟨rfl, h⟩

/-! ## Runs -/

/-- A Bank keeps ahead of requests whose numbers grow. -/
theorem Fresh.step {n : Nat} (h : b.Fresh n)
    (hbelow : ∀ m, event.sequence? b.bank.keys.messageKey = some m → m < n) : (b.step event).Fresh n := by
  cases hexecution : b.execution? event with
  | none =>
    obtain ⟨hmark, hlast⟩ := step_of_no_execution hexecution
    simpa only [Fresh, hmark, hlast] using h
  | some e =>
    obtain ⟨replyIv, bytes, rfl, hnew, -⟩ := execution?_eq_some hexecution
    obtain ⟨hopen, -⟩ := Bank.newRequest?_eq_some_iff.1 hnew
    have hlt := hbelow e.sequence (by rw [Event.sequence?, (Event.opened?_eq_some_iff _).2 hopen]; rfl)
    rw [Fresh, (step_of_execution hexecution).2.1]
    exact Or.inl hlt

/-- At the start every number is fresh. -/
theorem fresh_start (keys : Keys) (cards : CardStore) (files : FileTree) (n : Nat) :
    (start keys cards files).Fresh n := by
  rcases Nat.eq_zero_or_pos n with rfl | hpos
  · exact Or.inr ⟨rfl, rfl, rfl⟩
  · exact Or.inl hpos

/-- The numbers of the requests of a list whose first event is known. -/
theorem sequences_cons (key : Bytes 32) (event : Event) (rest : List Event) :
    (event :: rest).filterMap (Event.sequence? key) =
      (event.sequence? key).toList ++ rest.filterMap (Event.sequence? key) := by
  cases h : event.sequence? key <;> simp [h]

/-- What a user is told, and what the two states agree on after that, does not depend on the inputs of others. -/
theorem Agree.run {events own : List Event} (h : Agree user a b) (hkey : a.bank.keys.messageKey = key)
    (hinput : ∀ event ∈ events, event.IsInput)
    (hgrow : (events.filterMap (Event.sequence? key)).Pairwise (· < ·))
    (hfresh : ∀ n ∈ events.filterMap (Event.sequence? key), a.Fresh n ∧ b.Fresh n)
    (hown : List.Forall₂ Event.SameInput (events.filter fun event => event.user? key = some user) own) :
    a.toldTo user events = b.toldTo user own ∧ Agree user (a.run events) (b.run own) := by
  induction events generalizing a b own with
  | nil =>
    cases hown
    exact ⟨rfl, h⟩
  | cons event rest ih =>
    rw [sequences_cons] at hgrow hfresh
    have hrest := (List.pairwise_append.1 hgrow).2.1
    have hbelow {n m : Nat} (hn : n ∈ rest.filterMap (Event.sequence? key))
        (hm : event.sequence? key = some m) : m < n :=
      (List.pairwise_append.1 hgrow).2.2 m (by simp [hm]) n hn
    have hkey' : (a.step event).bank.keys.messageKey = key := by rw [keys_step, hkey]
    have hlater := fun event' hmem => hinput event' (List.mem_cons_of_mem _ hmem)
    have hstay {n : Nat} (hn : n ∈ rest.filterMap (Event.sequence? key)) : a.Fresh n ∧ b.Fresh n :=
      hfresh n (List.mem_append_right _ hn)
    by_cases huser : event.user? key = some user
    · rw [List.filter_cons_of_pos (by simpa using huser)] at hown
      obtain ⟨event', own', hsame, hown', rfl⟩ := List.forall₂_cons_left_iff.1 hown
      have hsequence : event'.sequence? b.bank.keys.messageKey = event.sequence? key := by
        rw [← h.keys, hkey, Event.sequence?, Event.sequence?, hsame.opened?_eq]
      have huser' : event'.user? b.bank.keys.messageKey = some user := by
        rw [← h.keys, hkey, ← hsame.user?_eq, huser]
      obtain ⟨htold, hagree⟩ := h.step hsame (hkey ▸ huser) fun n hn =>
        hfresh n (List.mem_append_left _ (by simpa [hkey] using hn))
      obtain ⟨htolds, hrun⟩ := ih hagree hkey' hlater hrest
        (fun n hn => ⟨(hstay hn).1.step fun m hm => hbelow hn (hkey ▸ hm),
          (hstay hn).2.step fun m hm => hbelow hn (hsequence ▸ hm)⟩) hown'
      exact ⟨by rw [toldTo, toldTo, hkey, if_pos huser, if_pos huser', htold, htolds], hrun⟩
    · rw [List.filter_cons_of_neg (by simpa using huser)] at hown
      have hagree := (agree_step_of_other (hinput event List.mem_cons_self) (hkey ▸ huser)).symm.trans h
      obtain ⟨htold, hrun⟩ := ih hagree hkey' hlater hrest
        (fun n hn => ⟨(hstay hn).1.step fun m hm => hbelow hn (hkey ▸ hm), (hstay hn).2⟩) hown
      exact ⟨by rw [toldTo, hkey, if_neg huser, htold], hrun⟩

/-- **Users do not interfere with each other.** Lines at the console and datagrams come to a Bank that has just
started, in any order and whatever the files are. The authentic requests among them have growing sequence
numbers. To a second Bank, started in the same way, comes nothing but the events that name one user, with the
same vector for a card. Then this user cannot tell the difference: the answers to those events are the same,
and at the end so are the balance of the user, if there is one, whether there is a card, and what becomes of
every PIN that is tried at it. -/
theorem users_separate (keys : Keys) (cards : CardStore) (files : FileTree) (user : String) (events own : List Event)
    (hinput : ∀ event ∈ events, event.IsInput)
    (hgrow : (events.filterMap (Event.sequence? keys.messageKey)).Pairwise (· < ·))
    (hown : List.Forall₂ Event.SameInput
      (events.filter fun event => event.user? keys.messageKey = some user) own) :
    let b := start keys cards files
    let among := b.run events
    let alone := b.run own
    b.toldTo user events = b.toldTo user own ∧
      among.bank.ledger.balance? user = alone.bank.ledger.balance? user ∧
      among.hasCard user = alone.hasCard user ∧
      ∀ pin, cards.verify among.files keys.pinKey user pin = cards.verify alone.files keys.pinKey user pin := by
  intro b among alone
  obtain ⟨htold, hagree⟩ := (Agree.refl user b).run (rfl : b.bank.keys.messageKey = keys.messageKey) hinput hgrow
    (fun n _ => ⟨fresh_start keys cards files n, fresh_start keys cards files n⟩) hown
  have hcards : among.bank.cards = cards := cards_run b events
  exact ⟨htold, hagree.balance, hagree.hasCard_eq, (hcards ▸ hagree.card).verify_eq keys.pinKey⟩

/-- The users `a` and `b` are created, `b` withdraws 3, and `a` asks for the balance. Without `b` that would be
the same to `a`. -/
theorem users_separate_two :
    ∃ (b : Branch) (events own : List Event), b = start b.bank.keys b.bank.cards b.files ∧
      (∀ event ∈ events, event.IsInput) ∧
      events.filterMap (Event.sequence? b.bank.keys.messageKey) = [1, 2] ∧
      events.map (Event.user? b.bank.keys.messageKey) = [some "a", some "b", some "b", some "a"] ∧
      own.map (Event.user? b.bank.keys.messageKey) = [some "a", some "a"] ∧
      b.toldTo "a" events = b.toldTo "a" own ∧
      (b.run events).bank.ledger.balance? "a" = (b.run own).bank.ledger.balance? "a" := by
  obtain ⟨b, hb⟩ : ∃ b : Branch, b = start ⟨Bytes.zero 32, Bytes.zero 32⟩ ⟨⟨"."⟩⟩ {} := ⟨_, rfl⟩
  have hstart : b = start b.bank.keys b.bank.cards b.files := by
    rw [hb]
    rfl
  obtain ⟨withdrawal, hwithdrawal⟩ := Event.exists_datagram b.bank.keys.messageKey
    (show (Request.withdraw "b" 3).WellFormed from ⟨by decide, by decide⟩) (show 1 ≤ lastSequence by decide)
  obtain ⟨query, hquery⟩ := Event.exists_datagram b.bank.keys.messageKey
    (show (Request.balance "a").WellFormed from show Credential.isUserName "a" = true by decide)
    (show 2 ≤ lastSequence by decide)
  have hline : BankCommand.ofLine "create-user a 1234 5" = .ok (.createUser "a" "1234" 5) := by rfl
  have hline' : BankCommand.ofLine "create-user b 4321 7" = .ok (.createUser "b" "4321" 7) := by rfl
  have ha := Event.user?_of_command hline b.bank.keys.messageKey (Bytes.zero 16)
  have hb := Event.user?_of_command hline' b.bank.keys.messageKey (Bytes.zero 16)
  have hnumbers : [Event.line (Bytes.zero 16) "create-user a 1234 5", .line (Bytes.zero 16) "create-user b 4321 7",
      .datagram (Bytes.zero 12) withdrawal, .datagram (Bytes.zero 12) query].filterMap
        (Event.sequence? b.bank.keys.messageKey) = [1, 2] := by
    simp [sequences_cons, hwithdrawal, hquery, Event.sequence?_line]
  have hseparate := users_separate b.bank.keys b.bank.cards b.files "a"
    [.line (Bytes.zero 16) "create-user a 1234 5", .line (Bytes.zero 16) "create-user b 4321 7",
      .datagram (Bytes.zero 12) withdrawal, .datagram (Bytes.zero 12) query]
    [.line (Bytes.zero 16) "create-user a 1234 5", .datagram (Bytes.zero 12) query]
    (by simp [Event.IsInput]) (by rw [hnumbers]; decide)
    (by simpa [hwithdrawal, hquery, ha, hb, BankCommand.user, Request.user] using ⟨.line .., .datagram ..⟩)
  rw [← hstart] at hseparate
  refine ⟨b, _, _, hstart, ?_, hnumbers, ?_, ?_, hseparate.1, hseparate.2.1⟩
  · simp [Event.IsInput]
  · simp [hwithdrawal, hquery, ha, hb, BankCommand.user, Request.user]
  · simp [hquery, ha, BankCommand.user, Request.user]

end Branch
end Cashpoint
