/-
# Who can log in

A PIN never leaves the ATM. The Bank writes it on a card when it creates the user, the ATM
compares the card with what is typed, and the Bank only says whether the name is that of a
user. What the two do fits together as long as nobody else writes the cards and no reply
passes for one that it is not (`Undisturbed`): whoever is logged in was created with just
the PIN that was typed, and whoever types the PIN is logged in (`login_iff_pin`).

Nothing is assumed of the requests that reach the Bank, and nothing of the files at the
start. A card that was there before is never overwritten, and its name never becomes that
of a user.
-/

import Cashpoint.Proofs.Bank.Console
import Cashpoint.Proofs.Card.Store
import Cashpoint.Proofs.Network.Exchange
import Cashpoint.Proofs.Network.Open

namespace Cashpoint

open Bank (Execution)
open Console (AtmCommand BankCommand)

/-! ## What is typed -/

/-- **Line ends after a PIN do not matter.** -/
theorem Login.trimLineEnds_append {pin ending : String} (hpin : Credential.isPin pin = true)
    (hending : ∀ c ∈ ending.toList, c = '\r' ∨ c = '\n') : trimLineEnds (pin ++ ending) = pin := by
  have hend : ∀ c ∈ ending.toList.reverse, (c == '\r' || c == '\n') = true := by
    intro c hc
    simpa using hending c (List.mem_reverse.1 hc)
  have hdigits : pin.toList.reverse.dropWhile (fun c => c == '\r' || c == '\n') = pin.toList.reverse := by
    simp only [Credential.isPin, Bool.and_eq_true, List.all_eq_true] at hpin
    cases hlist : pin.toList.reverse with
    | nil => rfl
    | cons c rest =>
      have hdigit : c.isDigit = true := hpin.2 c (List.mem_reverse.1 (hlist ▸ List.mem_cons_self))
      have hother : (c == '\r' || c == '\n') = false := by
        rw [Bool.eq_false_iff]
        intro h
        rcases (by simpa using h : c = '\r' ∨ c = '\n') with rfl | rfl <;> exact absurd hdigit (by decide)
      rw [List.dropWhile_cons, hother]
      rfl
  rw [trimLineEnds, String.toList_append, List.reverse_append, List.dropWhile_append_of_pos hend, hdigits,
    List.reverse_reverse, String.ofList_toList]

namespace OpenNetwork

/-! ## The assumption -/

/-- No reply passes for one that it is not, and nobody but the Bank writes cards: the ATM reads those of the
Bank, and where somebody changes the files, every card that could be read before reads the same after. -/
def Proper (n : OpenNetwork) : Event → Prop
  | .reply (.ok bytes) => ∀ x, n.phase = .waiting x → ∀ frame plaintext, Frame.decode bytes = .ok frame →
      frame.openReply x.atm.keys.messageKey x.sealed = .ok plaintext →
        ∃ e ∈ n.executed, e.request = x.sealed ∧
          ∃ datagram, e.reply = .ok datagram ∧ Frame.decode datagram = .ok frame
  | .pin files _ => files = n.branch.files
  | .bank (.change files) => ∀ user card, n.branch.bank.cards.read n.branch.files user = .ok card →
      n.branch.bank.cards.read files user = .ok card
  | _ => True

/-- Every event of a run is as it should be. -/
def Undisturbed (n : OpenNetwork) : List Event → Prop
  | [] => True
  | event :: rest => n.Proper event ∧ (n.step event).Undisturbed rest

/-! ## What has happened -/

/-- What the events of a run tell, oldest first. -/
def told {α : Type} (tells? : OpenNetwork → Event → Option α) (n : OpenNetwork) : List Event → List α
  | [] => []
  | event :: rest => (tells? n event).toList ++ (n.step event).told tells? rest

/-- The user and the PIN of a line at the Bank that is answered `Created user u`. -/
def created? (n : OpenNetwork) : Event → Option (String × String)
  | .bank (.line cardIv text) =>
    match BankCommand.ofLine text with
    | .ok (.createUser user pin _) =>
      if (n.branch.bank.console n.branch.files cardIv text).1 = some (Bank.userCreated user) then
        some (user, pin)
      else none
    | _ => none
  | _ => none

/-- The user and what was typed, of a PIN prompt that ends in `Authorized`. -/
def login? (n : OpenNetwork) : Event → Option (String × String)
  | .pin files (some typed) =>
    match n.phase with
    | .asking login =>
      if (login.enter files (some typed)).1 = [Atm.authorized] then some (login.user, typed) else none
    | _ => none
  | _ => none

/-- The users who were created, each with the PIN. -/
def created (n : OpenNetwork) (events : List Event) : List (String × String) := n.told created? events

/-- The users who logged in, each with what was typed. -/
def logins (n : OpenNetwork) (events : List Event) : List (String × String) := n.told login? events

/-! ## The invariant -/

end OpenNetwork

/-- What holds of an ATM in the middle of a turn: a line has asked for what it does, the request that it waits
for is the one that it has sealed, and a name whose PIN it asks for is that of a user. -/
def Phase.Justified (ledger : Ledger) : Phase → Prop
  | .idle _ => True
  | .waiting x => (∃ line, Atm.Asks x.atm.session line x.request) ∧
      x.sealed.openPlain x.atm.keys.messageKey = .ok (Utf8.encode x.request.render)
  | .asking login => (∃ line, Atm.Asks login.atm.session line (.beginSession login.user)) ∧
      ledger.contains login.user = true

/-- A user with a PIN: the name is in the ledger, and the card is made from the PIN. -/
structure Branch.Knows (b : Branch) (user pin : String) : Prop where
  contains : b.bank.ledger.contains user = true
  isPin : Credential.isPin pin = true
  card : ∃ iv card, Card.ofPin b.bank.keys.pinKey iv pin = .ok card ∧ b.bank.cards.read b.files user = .ok card

/-- **The PIN of a user is what the ATM accepts**, and nothing else. -/
theorem Branch.Knows.check_eq {b : Branch} {login : Login} {pin : String} (h : b.Knows login.user pin)
    (hkeys : login.atm.keys = b.bank.keys) (hcards : login.atm.cards = b.bank.cards) (typed : String) :
    login.check b.files (some typed) = .ok (decide (Login.trimLineEnds typed = pin)) := by
  obtain ⟨iv, card, hcard, hread⟩ := h.card
  rw [Login.check, hkeys, hcards]
  exact CardStore.verify_of_read hread hcard _

/-- **Whoever types the PIN is logged in**, with any line ends after it, if nobody is and the name is not
locked. -/
theorem Branch.Knows.enter_eq {b : Branch} {login : Login} {pin : String} (h : b.Knows login.user pin)
    (hkeys : login.atm.keys = b.bank.keys) (hcards : login.atm.cards = b.bank.cards)
    (hout : login.atm.session.user? = none) (hopen : login.atm.session.isLocked login.user = false)
    {ending : String} (hending : ∀ c ∈ ending.toList, c = '\r' ∨ c = '\n') :
    login.enter b.files (some (pin ++ ending)) =
      ([Atm.authorized], { login.atm with session := { login.atm.session with user? := some login.user } }) := by
  have hcheck : login.check b.files (some (pin ++ ending)) = .ok true := by
    rw [h.check_eq hkeys hcards, Login.trimLineEnds_append h.isPin hending]
    simp
  simp [Login.enter, hcheck, Session.logIn, hout, hopen]

namespace OpenNetwork

/-- What holds after a run that nobody disturbs, given the users who were created in it and the logins. -/
structure Kept (n : OpenNetwork) (created logins : List (String × String)) : Prop where
  keys_eq : n.phase.atm.keys = n.branch.bank.keys
  cards_eq : n.phase.atm.cards = n.branch.bank.cards
  inRange : n.branch.bank.ledger.InRange
  /-- A user is in the ledger because of being created. -/
  origin : ∀ user, n.branch.bank.ledger.contains user = true → ∃ pin, (user, pin) ∈ created
  knows : ∀ user pin, (user, pin) ∈ created → n.branch.Knows user pin
  honest : ∀ e ∈ n.executed, e.Honest n.branch.bank.keys.messageKey
  /-- No user has gone since a request was executed. -/
  stays : ∀ e ∈ n.executed, ∀ user, e.before.contains user = true → n.branch.bank.ledger.contains user = true
  justified : n.phase.Justified n.branch.bank.ledger
  /-- Who is logged in has typed the PIN. -/
  inside : ∀ user, n.phase.atm.session.user? = some user → ∃ pin typed, (user, pin) ∈ created ∧
    logins.getLast? = some (user, typed) ∧ Login.trimLineEnds typed = pin

/-- At the start nobody was created and nobody is logged in. -/
theorem kept_start {atm : Atm} (hout : atm.session.user? = none) (files : FileTree) :
    (start atm (.start atm.keys atm.cards files)).Kept [] [] where
  keys_eq := rfl
  cards_eq := rfl
  inRange := Ledger.inRange_empty
  origin user h := by simp [start, Branch.start, Ledger.contains_eq, Ledger.balance?, Ledger.empty] at h
  knows user pin h := absurd h List.not_mem_nil
  honest e h := absurd h List.not_mem_nil
  stays e h := absurd h List.not_mem_nil
  justified := trivial
  inside user h := by
    have hnone : (start atm (.start atm.keys atm.cards files)).phase.atm.session.user? = none := hout
    rw [hnone] at h
    simp at h

variable {n : OpenNetwork} {created logins : List (String × String)}

/-! ## The ATM's part -/

/-- The ATM goes on. -/
theorem Kept.proceed (h : n.Kept created logins) (phase : Phase) (hkeys : phase.atm.keys = n.phase.atm.keys)
    (hcards : phase.atm.cards = n.phase.atm.cards) (hjustified : phase.Justified n.branch.bank.ledger)
    {logins' : List (String × String)}
    (hinside : ∀ user, phase.atm.session.user? = some user → ∃ pin typed, (user, pin) ∈ created ∧
      logins'.getLast? = some (user, typed) ∧ Login.trimLineEnds typed = pin)
    (sent : List Frame) (printed : List Print) : Kept { n with phase, sent, printed } created logins' where
  keys_eq := hkeys.trans h.keys_eq
  cards_eq := hcards.trans h.cards_eq
  inRange := h.inRange
  origin := h.origin
  knows := h.knows
  honest := h.honest
  stays := h.stays
  justified := hjustified
  inside := hinside

/-- The turn is over, and nobody was logged in by it. -/
theorem Kept.settle (h : n.Kept created logins) {next : Atm} (hsettles : n.phase.atm.Settles next)
    (printed : List Print) : Kept { n with phase := .idle next, printed } created logins :=
  h.proceed (.idle next) hsettles.keys_eq hsettles.cards_eq trivial
    (fun user hin => h.inside user (hsettles.user?_of user hin)) n.sent printed

/-- A line at the ATM keeps what holds. -/
theorem Kept.submit (h : n.Kept created logins) {atm : Atm} (hphase : n.phase = .idle atm) (text : String) :
    (n.submit atm text).Kept created logins := by
  obtain rfl : n.phase.atm = atm := by rw [hphase]; rfl
  unfold OpenNetwork.submit
  rcases n.phase.atm.submit_sends_or_settles text with
    ⟨request, datagram, x, hasks, hsend, hx⟩ | ⟨lines, next, hdone, hsettles⟩
  · rw [hsend]
    refine h.proceed (.waiting x) hx.keys_eq hx.cards_eq ⟨⟨text, ?_⟩, ?_⟩ (fun user hin => ?_) _ _
    · rw [hx.session_eq, hx.request_eq]
      exact hasks
    · rw [hx.keys_eq, hx.request_eq]
      exact hx.opens
    · exact h.inside user (hx.session_eq ▸ hin)
  · rw [hdone]
    exact h.settle hsettles _

/-- **A name that the Bank confirms is that of a user.** -/
theorem Kept.contains_of_success (h : n.Kept created logins) {x : Exchange} (hphase : n.phase = .waiting x)
    {reply : Except Error (List UInt8)} (hproper : n.Proper (.reply reply)) {user : String}
    (hrequest : x.request = .beginSession user) (hanswer : x.answer reply = .ok .success) :
    n.branch.bank.ledger.contains user = true := by
  have hatm : n.phase.atm = x.atm := by rw [hphase]; rfl
  have hkeys := h.keys_eq
  have hjustified := h.justified
  rw [hatm] at hkeys
  rw [hphase] at hjustified
  obtain ⟨⟨line, hasks⟩, hopens⟩ := hjustified
  have hwf : x.request.WellFormed := by
    rw [hrequest] at hasks ⊢
    cases hasks with
    | beginSession hline => exact AtmCommand.wellFormed_of_ofLine hline
  obtain ⟨bytes, frame, plaintext, _, rfl, hdecode, hopen, -⟩ := Exchange.answer_eq_ok_iff.1 hanswer
  obtain ⟨e, he, hsame, datagram, hreply, hsealed⟩ := hproper x hphase frame plaintext hdecode hopen
  have hhonest := h.honest e he
  rw [← hkeys] at hhonest
  obtain ⟨-, hrespond⟩ := Exchange.respond_of_answer hhonest hsame hopens hwf hreply hsealed hdecode hanswer
  refine h.stays e he user ?_
  cases hcontains : e.before.contains user with
  | true => rfl
  | false => simp [hrequest, Bank.respond, hcontains] at hrespond

/-- So does a reply, which logs nobody in by itself. -/
theorem Kept.receive (h : n.Kept created logins) {x : Exchange} (hphase : n.phase = .waiting x)
    {reply : Except Error (List UInt8)} (hproper : n.Proper (.reply reply)) :
    (n.receive x reply).Kept created logins := by
  have hatm : n.phase.atm = x.atm := by rw [hphase]; rfl
  have hjustified := h.justified
  rw [hphase] at hjustified
  obtain ⟨⟨line, hasks⟩, -⟩ := hjustified
  have hkeys : x.atm.keys = n.phase.atm.keys := by rw [hatm]
  have hcards : x.atm.cards = n.phase.atm.cards := by rw [hatm]
  unfold OpenNetwork.receive
  rcases x.receive_confirms_or_settles reply with ⟨user, hq, hanswer, hr⟩ | ⟨lines, next, hr, hsettles⟩
  · rw [hr]
    have hcontains := h.contains_of_success hphase hproper hq hanswer
    rw [hq] at hasks
    have hinside := h.inside
    rw [hatm] at hinside
    exact h.proceed (.asking { atm := x.atm, user }) hkeys hcards ⟨⟨line, hasks⟩, hcontains⟩ hinside _ _
  · rw [hr]
    exact h.settle (hatm ▸ hsettles) _

/-- So does the PIN prompt, which may add a login. -/
theorem Kept.enter (h : n.Kept created logins) {login : Login} (hphase : n.phase = .asking login)
    (typed : Option String) :
    (n.enter login n.branch.files typed).Kept created
      (logins ++ (n.login? (.pin n.branch.files typed)).toList) := by
  have hatm : n.phase.atm = login.atm := by rw [hphase]; rfl
  have hkeys : login.atm.keys = n.phase.atm.keys := by rw [hatm]
  have hcards : login.atm.cards = n.phase.atm.cards := by rw [hatm]
  have hjustified := h.justified
  rw [hphase] at hjustified
  obtain ⟨⟨line, hasks⟩, hcontains⟩ := hjustified
  obtain ⟨pin, hmem⟩ := h.origin login.user hcontains
  cases hasks with
  | beginSession _ hout hopen =>
    unfold OpenNetwork.enter
    rcases login.enter_admits_or_settles n.branch.files typed hout hopen with ⟨hcheck, he⟩ | hsettles
    · rw [he]
      refine h.proceed (.idle { login.atm with session := { login.atm.session with user? := some login.user } })
        hkeys hcards trivial (fun user hin => ?_) _ _
      obtain rfl := Option.some.inj hin
      cases typed with
      | none => simp [Login.check] at hcheck
      | some typed =>
        rw [(h.knows _ _ hmem).check_eq (hkeys.trans h.keys_eq) (hcards.trans h.cards_eq)] at hcheck
        have hlogin : n.login? (.pin n.branch.files (some typed)) = some (login.user, typed) := by
          simp [login?, hphase, he]
        exact ⟨pin, typed, hmem, by simp [hlogin], by simpa using hcheck⟩
    · -- nobody is logged in, so what was typed before no longer matters
      refine h.proceed (.idle _) (hsettles.keys_eq.trans hkeys) (hsettles.cards_eq.trans hcards) trivial
        (fun user hin => ?_) _ _
      have hin' := hsettles.user?_of user hin
      rw [hout] at hin'
      simp at hin'

/-! ## The Bank's part -/

/-- **A new user has the PIN of the command**, and every other card stays. -/
theorem knows_of_create {b : Branch} {cardIv : Block} {user pin : String} {files' : FileTree} (opening : Amount)
    (hpin : Credential.isPin pin = true)
    (hcreate : b.bank.cards.create b.files b.bank.keys.pinKey cardIv user pin = .ok files') :
    let after : Branch :=
      { bank := { b.bank with ledger := b.bank.ledger.setBalance user opening }, files := files' }
    after.Knows user pin ∧ ∀ other old, b.Knows other old → after.Knows other old := by
  intro after
  obtain ⟨card, hcard, hread⟩ := CardStore.read_of_create hcreate
  refine ⟨⟨?_, hpin, cardIv, card, hcard, hread⟩, fun other old hold => ⟨?_, hold.isPin, ?_⟩⟩
  · rw [Ledger.contains_setBalance]
    simp
  · rw [Ledger.contains_setBalance, hold.contains, Bool.or_true]
  · obtain ⟨iv, found, hfound, hread'⟩ := hold.card
    exact ⟨iv, found, hfound, CardStore.read_after_create hcreate hread'⟩

/-- **A line that creates a user makes the user known**, if the name is new and the path of the card can be
followed. -/
theorem knows_of_line {b : Branch} {text user pin : String} {opening : Amount} {place : Location}
    (hline : BankCommand.ofLine text = .ok (.createUser user pin opening))
    (hleads : b.files.Leads b.bank.cards.directory place) (hfits : b.bank.cards.Fits user)
    (hfree : b.files.lookup (place ++ [CardStore.fileName user]) = none)
    (hnew : b.bank.ledger.balance? user = none) (cardIv : Block) :
    let after := b.step (.line cardIv text)
    after.bank = { b.bank with ledger := b.bank.ledger.setBalance user opening } ∧ after.Knows user pin := by
  intro after
  obtain ⟨huser, hpin, hpos⟩ := BankCommand.wellFormed_of_ofLine hline
  obtain ⟨card, -, hcreate⟩ := CardStore.create_of_free hleads huser hpin hfits hfree b.bank.keys.pinKey cardIv
  generalize b.files.put (place ++ [CardStore.fileName user]) (.file card.toBytes) = files' at hcreate
  have hconsole := Bank.console_of_command hline b.bank b.files cardIv
  rw [Bank.execute, Bank.createUser_of_new hpos hnew hcreate] at hconsole
  have hafter : after =
      { bank := { b.bank with ledger := b.bank.ledger.setBalance user opening }, files := files' } := by
    simp only [after, Branch.step, hconsole]
  rw [hafter]
  exact ⟨rfl, (knows_of_create opening hpin hcreate).1⟩

/-- What is justified stays so when users are added. -/
theorem Justified.mono {phase : Phase} {ledger ledger' : Ledger} (h : phase.Justified ledger)
    (hmore : ∀ user, ledger.contains user = true → ledger'.contains user = true) : phase.Justified ledger' := by
  cases phase with
  | idle atm => exact h
  | waiting x => exact h
  | asking login => exact ⟨h.1, hmore _ h.2⟩

/-- The Bank goes on, and keeps its users. -/
theorem Kept.advance (h : n.Kept created logins) {b : Branch} {created' : List (String × String)}
    {executed : List Execution} (hkeys : b.bank.keys = n.branch.bank.keys)
    (hcards : b.bank.cards = n.branch.bank.cards) (hrange : b.bank.ledger.InRange)
    (hmore : ∀ user, n.branch.bank.ledger.contains user = true → b.bank.ledger.contains user = true)
    (horigin : ∀ user, b.bank.ledger.contains user = true → ∃ pin, (user, pin) ∈ created')
    (hknows : ∀ user pin, (user, pin) ∈ created' → b.Knows user pin)
    (hsub : ∀ entry ∈ created, entry ∈ created')
    (hexecuted : ∀ e ∈ executed, e ∈ n.executed ∨
      e.Honest n.branch.bank.keys.messageKey ∧ e.before = n.branch.bank.ledger) :
    Kept { n with branch := b, executed } created' logins where
  keys_eq := h.keys_eq.trans hkeys.symm
  cards_eq := h.cards_eq.trans hcards.symm
  inRange := hrange
  origin := horigin
  knows := hknows
  honest e he := by
    rw [hkeys]
    rcases hexecuted e he with hold | ⟨hhonest, -⟩
    · exact h.honest e hold
    · exact hhonest
  stays e he user hin := by
    rcases hexecuted e he with hold | ⟨-, hbefore⟩
    · exact hmore user (h.stays e hold user hin)
    · exact hmore user (hbefore ▸ hin)
  justified := Justified.mono h.justified hmore
  inside user hin := by
    obtain ⟨pin, typed, hmem, hlast, htyped⟩ := h.inside user hin
    exact ⟨pin, typed, hsub _ hmem, hlast, htyped⟩

/-- The Bank goes on with the same users, and their cards can still be read. -/
theorem Kept.advance_same (h : n.Kept created logins) {b : Branch} {executed : List Execution}
    (hkeys : b.bank.keys = n.branch.bank.keys) (hcards : b.bank.cards = n.branch.bank.cards)
    (hrange : b.bank.ledger.InRange)
    (hsame : ∀ user, b.bank.ledger.contains user = n.branch.bank.ledger.contains user)
    (hread : ∀ user card, n.branch.bank.cards.read n.branch.files user = .ok card →
      n.branch.bank.cards.read b.files user = .ok card)
    (hexecuted : ∀ e ∈ executed, e ∈ n.executed ∨
      e.Honest n.branch.bank.keys.messageKey ∧ e.before = n.branch.bank.ledger) :
    Kept { n with branch := b, executed } created logins := by
  refine h.advance hkeys hcards hrange (fun user hin => by rw [hsame, hin]) (fun user hin => ?_)
    (fun user pin hmem => ?_) (fun entry hmem => hmem) hexecuted
  · rw [hsame] at hin
    exact h.origin user hin
  · have hknown := h.knows user pin hmem
    obtain ⟨iv, card, hcard, hfound⟩ := hknown.card
    refine ⟨by rw [hsame, hknown.contains], hknown.isPin, iv, card, by rwa [hkeys], ?_⟩
    rw [hcards]
    exact hread user card hfound

/-- Nothing is created by a line whose answer tells of nobody new. -/
theorem created?_of_uneventful {cardIv : Block} {text : String}
    (h : Bank.Uneventful (n.branch.bank.console n.branch.files cardIv text).1) :
    n.created? (.bank (.line cardIv text)) = none := by
  simp only [created?]
  split
  · exact if_neg (h.ne_userCreated _)
  · rfl

/-- A line at the Bank keeps what holds, and may create a user. -/
theorem Kept.line (h : n.Kept created logins) (cardIv : Block) (text : String) :
    Kept { n with branch := n.branch.step (.line cardIv text) }
      (created ++ (n.created? (.bank (.line cardIv text))).toList) logins := by
  have hold : ∀ e ∈ n.executed, e ∈ n.executed ∨
      e.Honest n.branch.bank.keys.messageKey ∧ e.before = n.branch.bank.ledger := fun e he => Or.inl he
  rcases n.branch.bank.console_cases h.inRange n.branch.files cardIv text with
    ⟨user, pin, opening, files', hline, hwf, hnew, hcreate, hout⟩ |
      ⟨user, amount, balance, sum, hline, hwf, hb, hsum, hout⟩ | ⟨answer, hnone, hout⟩
  · have hcreated : n.created? (.bank (.line cardIv text)) = some (user, pin) := by
      simp [created?, hline, hout]
    obtain ⟨hnewcomer, hothers⟩ := knows_of_create opening hwf.2.1 hcreate
    have hstep : n.branch.step (.line cardIv text) =
        { bank := { n.branch.bank with ledger := n.branch.bank.ledger.setBalance user opening },
          files := files' } := by
      simp only [Branch.step, hout]
    rw [hcreated, hstep, Option.toList_some]
    refine h.advance rfl rfl (h.inRange.setBalance hwf.2.2) ?_ ?_ ?_ ?_ hold
    · intro other hin
      rw [Ledger.contains_setBalance, hin, Bool.or_true]
    · intro other hin
      rw [Ledger.contains_setBalance, Bool.or_eq_true, decide_eq_true_iff] at hin
      rcases hin with rfl | hin
      · exact ⟨pin, by simp⟩
      · obtain ⟨old, hmem⟩ := h.origin other hin
        exact ⟨old, List.mem_append_left _ hmem⟩
    · intro other old hmem
      rcases List.mem_append.1 hmem with hmem | hmem
      · exact hothers other old (h.knows other old hmem)
      · obtain ⟨rfl, rfl⟩ := Prod.mk.inj (List.mem_singleton.1 hmem)
        exact hnewcomer
    · exact fun entry hmem => List.mem_append_left _ hmem
  · have hcreated : n.created? (.bank (.line cardIv text)) = none := by
      simp [created?, hline]
    have hstep : n.branch.step (.line cardIv text) =
        { n.branch with
          bank := { n.branch.bank with ledger := n.branch.bank.ledger.setBalance user sum } } := by
      simp only [Branch.step, hout]
    have hpos := h.inRange user balance hb
    have hamount : 0 ≤ amount.toInt := hwf.2
    rw [hcreated, hstep, Option.toList_none, List.append_nil]
    exact h.advance_same rfl rfl (h.inRange.setBalance (by omega))
      (Ledger.contains_setBalance_of_user hb sum) (fun _ _ hread => hread) hold
  · have hstep : n.branch.step (.line cardIv text) = n.branch := by
      simp only [Branch.step, hout]
    rw [created?_of_uneventful (by rwa [hout]), hstep, Option.toList_none, List.append_nil]
    exact h

/-- A datagram at the Bank keeps what holds, and creates nobody. -/
theorem Kept.datagram (h : n.Kept created logins) (replyIv : Bytes 12) (bytes : List UInt8) :
    (n.step (.bank (.datagram replyIv bytes))).Kept created logins := by
  have hkeys : (n.branch.step (.datagram replyIv bytes)).bank.keys = n.branch.bank.keys := n.branch.keys_step _
  cases hnew : n.branch.bank.newRequest? bytes with
  | none =>
    have hkeep := Bank.handle_of_not_newRequest hnew replyIv
    have hexec : n.branch.execution? (.datagram replyIv bytes) = none := by
      simp [Branch.execution?, Bank.execution?, hnew]
    simp only [OpenNetwork.step, Branch.step, hkeep, hexec, Option.toList_none, List.append_nil]
    exact h
  | some opened =>
    obtain ⟨request, plaintext⟩ := opened
    obtain ⟨reply, -, hhandle⟩ := Bank.handle_of_newRequest hnew replyIv
    obtain ⟨hrange, hsame⟩ := Bank.ledger_respondTo h.inRange plaintext
    refine h.advance_same hkeys ?_ ?_ ?_ (fun _ _ hread => hread) ?_
    · simp only [Branch.step, hhandle]
    · simpa only [Branch.step, hhandle] using hrange
    · simpa only [Branch.step, hhandle] using hsame
    · intro e he
      rcases List.mem_append.1 he with hold | hlast
      · exact Or.inl hold
      · have hexec := Option.mem_toList.1 hlast
        exact Or.inr ⟨Bank.honest_of_execution hexec, (Bank.ledger_of_execution hexec).1⟩

/-- **Every event keeps it.** -/
theorem Kept.step (h : n.Kept created logins) {event : Event} (hproper : n.Proper event) :
    (n.step event).Kept (created ++ (n.created? event).toList) (logins ++ (n.login? event).toList) := by
  cases event with
  | line text =>
    simp only [created?, login?, Option.toList_none, List.append_nil]
    cases hphase : n.phase with
    | idle atm =>
      simp only [OpenNetwork.step, hphase]
      exact h.submit hphase text
    | waiting x | asking login => simpa only [OpenNetwork.step, hphase] using h
  | reply reply =>
    simp only [created?, login?, Option.toList_none, List.append_nil]
    cases hphase : n.phase with
    | waiting x =>
      simp only [OpenNetwork.step, hphase]
      exact h.receive hphase hproper
    | idle atm | asking login => simpa only [OpenNetwork.step, hphase] using h
  | pin files typed =>
    obtain rfl : files = n.branch.files := hproper
    simp only [created?, Option.toList_none, List.append_nil]
    cases hphase : n.phase with
    | asking login =>
      simp only [OpenNetwork.step, hphase]
      exact h.enter hphase typed
    | idle atm | waiting x =>
      have hnone : n.login? (.pin n.branch.files typed) = none := by
        cases typed <;> simp [login?, hphase]
      simpa only [OpenNetwork.step, hphase, hnone, Option.toList_none, List.append_nil] using h
  | bank event =>
    simp only [login?, Option.toList_none, List.append_nil]
    cases event with
    | line cardIv text =>
      have hexec : n.branch.execution? (.line cardIv text) = none := rfl
      simpa only [OpenNetwork.step, hexec, Option.toList_none, List.append_nil] using h.line cardIv text
    | datagram replyIv bytes =>
      simpa only [created?, Option.toList_none, List.append_nil] using h.datagram replyIv bytes
    | change files =>
      have hexec : n.branch.execution? (.change files) = none := rfl
      simp only [OpenNetwork.step, hexec, created?, Option.toList_none, List.append_nil]
      exact h.advance_same rfl rfl h.inRange (fun _ => rfl) hproper fun e he => Or.inl he

/-- Every run that nobody disturbs keeps what holds, with the users and the logins that it adds. -/
theorem Kept.run (h : n.Kept created logins) {events : List Event} (hundisturbed : n.Undisturbed events) :
    (n.run events).Kept (created ++ n.created events) (logins ++ n.logins events) := by
  induction events generalizing n created logins with
  | nil => simpa [OpenNetwork.created, OpenNetwork.logins, told] using h
  | cons event rest ih =>
    have hrest := ih (h.step hundisturbed.1) hundisturbed.2
    simpa only [run_cons, OpenNetwork.created, OpenNetwork.logins, told, List.append_assoc] using hrest

/-- What is known after an undisturbed run from the start is what that run told. -/
theorem kept_run {atm : Atm} (hout : atm.session.user? = none) (files : FileTree) {events : List Event}
    (hundisturbed : (start atm (.start atm.keys atm.cards files)).Undisturbed events) :
    let n₀ := start atm (.start atm.keys atm.cards files)
    (n₀.run events).Kept (n₀.created events) (n₀.logins events) := by
  simpa only [List.nil_append] using (kept_start hout files).run hundisturbed

/-! ## A login -/

/-- One run after another is a run. -/
theorem run_append (n : OpenNetwork) (events rest : List Event) :
    n.run (events ++ rest) = (n.run events).run rest := List.foldl_append ..

/-- A run is undisturbed if its first part is, and the second part is from there. -/
theorem undisturbed_append (n : OpenNetwork) (events rest : List Event) :
    n.Undisturbed (events ++ rest) ↔ n.Undisturbed events ∧ (n.run events).Undisturbed rest := by
  induction events generalizing n with
  | nil => simp [Undisturbed]
  | cons event later ih =>
    rw [List.cons_append, Undisturbed, Undisturbed, run_cons, ih, and_assoc]

/-- What the events of two runs tell is told one after the other. -/
theorem told_append {α : Type} (tells? : OpenNetwork → Event → Option α) (n : OpenNetwork)
    (events rest : List Event) :
    n.told tells? (events ++ rest) = n.told tells? events ++ (n.run events).told tells? rest := by
  induction events generalizing n with
  | nil => rfl
  | cons event later ih => rw [List.cons_append, told, told, run_cons, ih, List.append_assoc]

/-- What happens at the Bank leaves the ATM where it is. -/
theorem run_bank (n : OpenNetwork) (events : List Bank.Event) :
    n.run (events.map .bank) =
      { n with branch := n.branch.run events, executed := n.executed ++ n.branch.executions events } := by
  induction events generalizing n with
  | nil => simp [Branch.executions]
  | cons event rest ih =>
    rw [List.map_cons, run_cons, ih]
    simp [OpenNetwork.step, Branch.executions]

/-- The events of a turn with a PIN prompt: the line, the reply and what is typed, and in between what happens
at the Bank. -/
def visit (text : String) (early : List Bank.Event) (reply : List UInt8) (late : List Bank.Event)
    (files : FileTree) (typed : String) : List Event :=
  .line text :: early.map .bank ++ .reply (.ok reply) :: late.map .bank ++ [.pin files (some typed)]

/-- A turn is undisturbed in which the request reaches the Bank, the Bank's reply comes back, and the ATM reads the
cards of the Bank. -/
theorem undisturbed_visit {n : OpenNetwork} {atm : Atm} (hphase : n.phase = .idle atm) {text : String}
    {datagram : List UInt8} {x : Exchange} (hsend : atm.submit text = .send datagram x) {replyIv : Bytes 12}
    {e : Execution} (hexec : n.branch.bank.execution? replyIv datagram = some e) (hrequest : e.request = x.sealed)
    {reply : List UInt8} (hreply : e.reply = .ok reply) (typed : String) :
    (n.run [.line text, .bank (.datagram replyIv datagram)]).executed = n.executed ++ [e] ∧
      n.Undisturbed (visit text [.datagram replyIv datagram] reply [] n.branch.files typed) := by
  have hasked : n.step (.line text) = { n with phase := .waiting x, sent := n.sent ++ [x.sealed] } := by
    simp [OpenNetwork.step, hphase, OpenNetwork.submit, hsend]
  have hexecuted : (n.run [.line text, .bank (.datagram replyIv datagram)]).executed = n.executed ++ [e] := by
    rw [run_cons, run_cons, hasked]
    simp [OpenNetwork.step, Branch.execution?, hexec]
  have hmem : e ∈ (n.run [.line text, .bank (.datagram replyIv datagram)]).executed := by
    rw [hexecuted]
    exact List.mem_append_right _ List.mem_cons_self
  refine ⟨hexecuted, trivial, trivial, fun y hy frame plaintext hdecode _ => ?_, ?_, trivial⟩
  · rw [hasked] at hy
    obtain rfl : x = y := Phase.waiting.inj hy
    exact ⟨e, hmem, hrequest, reply, hreply, hdecode⟩
  · rw [hasked]
    simp only [OpenNetwork.step, OpenNetwork.receive, Branch.step]
    split <;> rfl

/-- **A user who types the PIN is logged in.** -/
theorem Kept.run_visit (h : n.Kept created logins) {atm : Atm} (hphase : n.phase = .idle atm)
    (hout : atm.session.user? = none) {user pin : String} (hopen : atm.session.isLocked user = false)
    (hmem : (user, pin) ∈ created) {text : String} (hline : AtmCommand.ofLine text = .ok (.beginSession user))
    {datagram : List UInt8} {x : Exchange} (hsend : atm.submit text = .send datagram x) {replyIv : Bytes 12}
    {reply : List UInt8} (hreply : n.branch.bank.sealResponse replyIv x.sealed .success = .ok reply)
    {early late : List Bank.Event} (hproper : n.Undisturbed ((early ++ late).map .bank)) {ending : String}
    (hending : ∀ c ∈ ending.toList, c = '\r' ∨ c = '\n') :
    let after := n.run (visit text early reply late (n.branch.run (early ++ late)).files (pin ++ ending))
    after.phase = .idle { x.atm with session := { x.atm.session with user? := some user } } ∧
      after.printed = n.printed ++ Print.all none none [Atm.authorized] := by
  intro after
  have hatm : n.phase.atm = atm := by rw [hphase]; rfl
  -- the request
  have hx : atm.Sends (.beginSession user) datagram x :=
    Atm.sends_of_request ((Atm.Asks.beginSession hline hout hopen).submit_eq.symm.trans hsend)
  -- the reply
  have hanswer : x.answer (.ok reply) = .ok .success := by
    obtain ⟨frame, datagram', hs, he, hsealed⟩ :=
      Bank.exists_sealResponse n.branch.bank replyIv x.sealed .success
    obtain rfl : datagram' = reply := Except.ok.inj (hsealed.symm.trans hreply)
    rw [← h.keys_eq, hatm, ← hx.keys_eq] at hs
    exact Exchange.answer_of_sealReply hs he trivial (by rw [hx.request_eq]; rfl)
  have hreceive : x.receive (.ok reply) = .askPin { atm := x.atm, user } := by
    simp only [Exchange.receive, hanswer, hx.request_eq, Exchange.confirm]
  -- the PIN
  have hkept := h.run hproper
  rw [run_bank] at hkept
  have hknown := hkept.knows user pin (List.mem_append_left _ hmem)
  have hkeys : x.atm.keys = (n.branch.run (early ++ late)).bank.keys :=
    hx.keys_eq.trans ((congrArg Atm.keys hatm).symm.trans hkept.keys_eq)
  have hcards : x.atm.cards = (n.branch.run (early ++ late)).bank.cards :=
    hx.cards_eq.trans ((congrArg Atm.cards hatm).symm.trans hkept.cards_eq)
  have henter : Login.enter { atm := x.atm, user } (n.branch.run (early ++ late)).files (some (pin ++ ending)) =
      ([Atm.authorized], { x.atm with session := { x.atm.session with user? := some user } }) :=
    hknown.enter_eq hkeys hcards ((congrArg Session.user? hx.session_eq).trans hout)
      ((congrArg (Session.isLocked · user) hx.session_eq).trans hopen) hending
  have hasked : n.step (.line text) = { n with phase := .waiting x, sent := n.sent ++ [x.sealed] } := by
    simp [OpenNetwork.step, hphase, OpenNetwork.submit, hsend]
  simp only [after, visit, run_append, run_cons, run_nil, hasked, run_bank]
  simp only [OpenNetwork.step, OpenNetwork.receive, hreceive, OpenNetwork.enter, ← Branch.run_append, henter,
    hx.session_eq, hout, true_and]

/-- **To be logged in is to have typed the PIN.**  Let an ATM where nobody is logged in and a Bank that has just
started share their keys and the directory of their cards, with any files in it, and let nobody disturb them.

Whoever is logged in was created, by a command at the Bank that was answered `Created user u`, and the last
text that was authorized at a PIN prompt is of this user and, without the line ends after it, is the PIN of
that command. Just the users who were created are in the ledger.

Conversely, let nobody be logged in and let a user who was created begin a session, not locked. If the Bank's
`success` for this request comes back and the PIN is typed, with any line ends after it, then the user is
logged in and `Authorized` is printed, whatever happens at the Bank in between. -/
theorem login_iff_pin {atm : Atm} (hout : atm.session.user? = none) (files : FileTree) {events : List Event}
    (hundisturbed : (start atm (.start atm.keys atm.cards files)).Undisturbed events) :
    let n₀ := start atm (.start atm.keys atm.cards files)
    let n := n₀.run events
    (∀ user, n.phase.atm.session.user? = some user → ∃ pin typed, (user, pin) ∈ n₀.created events ∧
        (n₀.logins events).getLast? = some (user, typed) ∧ Login.trimLineEnds typed = pin) ∧
      (∀ user, n.branch.bank.ledger.contains user = true ↔ ∃ pin, (user, pin) ∈ n₀.created events) ∧
      ∀ idle user pin text datagram x replyIv reply early late ending, n.phase = .idle idle →
        idle.session.user? = none → idle.session.isLocked user = false → (user, pin) ∈ n₀.created events →
        AtmCommand.ofLine text = .ok (.beginSession user) → idle.submit text = .send datagram x →
        n.branch.bank.sealResponse replyIv x.sealed .success = .ok reply →
        n.Undisturbed ((early ++ late).map .bank) → (∀ c ∈ ending.toList, c = '\r' ∨ c = '\n') →
          let after := n.run (visit text early reply late (n.branch.run (early ++ late)).files (pin ++ ending))
          after.phase = .idle { x.atm with session := { x.atm.session with user? := some user } } ∧
            after.printed = n.printed ++ Print.all none none [Atm.authorized] := by
  intro n₀ n
  have hkept : n.Kept (n₀.created events) (n₀.logins events) := kept_run hout files hundisturbed
  refine ⟨hkept.inside, fun user => ⟨hkept.origin user, ?_⟩, ?_⟩
  · rintro ⟨pin, hmem⟩
    exact (hkept.knows user pin hmem).contains
  · intro idle user pin text datagram x replyIv reply early late ending hphase hnobody hopen hmem hline hsend
      hreply hproper hending
    exact hkept.run_visit hphase hnobody hopen hmem hline hsend hreply hproper hending

/-- The user `a` is created with the PIN `1234` and begins a session. The request reaches the Bank, which executes
it, the reply comes back, and the PIN is typed. -/
theorem login_iff_pin_first :
    ∃ (atm : Atm) (datagram reply : List UInt8) (files : FileTree) (e : Execution),
      let n₀ := start atm (.start atm.keys atm.cards {})
      let sent : List Event := [.bank (.line (Bytes.zero 16) "create-user a 1234 5"), .line "begin-session a",
        .bank (.datagram (Bytes.zero 12) datagram)]
      let events := sent ++ [.reply (.ok reply), .pin files (some "1234\n")]
      n₀.Undisturbed events ∧ (n₀.run sent).executed = [e] ∧ e.reply = .ok reply ∧
        n₀.created events = [("a", "1234")] ∧ (n₀.run events).phase.atm.session.user? = some "a" ∧
        ∃ typed, (n₀.logins events).getLast? = some ("a", typed) ∧ Login.trimLineEnds typed = "1234" := by
  let atm : Atm := { keys := ⟨Bytes.zero 32, Bytes.zero 32⟩, cards := ⟨⟨"."⟩⟩,
                     sequencer := { start := Bytes.zero 4, last := 0 } }
  let b : Branch := .start atm.keys atm.cards {}
  let creation : Event := .bank (.line (Bytes.zero 16) "create-user a 1234 5")
  let n := (start atm b).run [creation]
  -- the creation
  have hundisturbed : (start atm b).Undisturbed [creation] := ⟨trivial, trivial⟩
  have hcreated : (start atm b).created [creation] = [("a", "1234")] := by
    have hline : BankCommand.ofLine "create-user a 1234 5" = .ok (.createUser "a" "1234" 5) := by rfl
    have hleads : b.files.Leads b.bank.cards.directory [] := FileTree.leads_here
    have hfits : b.bank.cards.Fits "a" := CardStore.fits_of_short (by decide) (by decide)
    obtain ⟨card, -, hout⟩ := Bank.console_of_free hline hleads hfits (by rfl) (by rfl) (Bytes.zero 16)
    simp [OpenNetwork.created, told, created?, creation, start, hline, hout]
  have hmem : ("a", "1234") ∈ (start atm b).created [creation] := by rw [hcreated]; exact List.mem_cons_self
  have hkept : n.Kept ((start atm b).created [creation]) ((start atm b).logins [creation]) :=
    kept_run rfl {} hundisturbed
  -- the request, and its execution
  have hwf : (Request.beginSession "a").WellFormed := (by decide : Credential.isUserName "a" = true)
  obtain ⟨datagram, x, hsend, hx⟩ := atm.exists_send (by decide) hwf
  have hmark : n.branch.bank.highWater ≤ atm.sequencer.last :=
    Nat.le_of_eq (congrArg Bank.highWater (b.bank_step_line _ _))
  obtain ⟨hnew, -⟩ := hx.exchanged hwf hkept.keys_eq.symm hkept.inRange hmark (Bytes.zero 12)
  obtain ⟨reply, hreply, hhandle⟩ := Bank.handle_of_newRequest hnew (Bytes.zero 12)
  rw [Bank.respondTo_render hwf, Bank.respond, if_pos (hkept.knows _ _ hmem).contains] at hreply
  obtain ⟨e, hexec, hrequest, hsealed⟩ : ∃ e, n.branch.bank.execution? (Bytes.zero 12) datagram = some e ∧
      e.request = x.sealed ∧ e.reply = .ok reply := by
    rw [Bank.execution?, hnew]
    exact ⟨_, rfl, rfl, congrArg Prod.fst hhandle⟩
  -- the turn
  let turn := visit "begin-session a" [.datagram (Bytes.zero 12) datagram] reply [] n.branch.files ("1234" ++ "\n")
  have hsubmit : atm.submit "begin-session a" = .send datagram x := hsend
  have hending : ∀ c ∈ "\n".toList, c = '\r' ∨ c = '\n' := by simp
  have hlogin := (login_iff_pin rfl {} hundisturbed).2.2 atm "a" "1234" "begin-session a" datagram x
    (Bytes.zero 12) reply [.datagram (Bytes.zero 12) datagram] [] "\n" rfl rfl (by decide) hmem rfl hsubmit hreply
    ⟨trivial, trivial⟩ hending
  have hin : ((start atm b).run ([creation] ++ turn)).phase.atm.session.user? = some "a" := by
    rw [run_append, show (n.run turn).phase = _ from hlogin.1]
    rfl
  obtain ⟨hexecuted, hvisit⟩ := undisturbed_visit (n := n) rfl hsubmit hexec hrequest hsealed ("1234" ++ "\n")
  have hall : (start atm b).Undisturbed ([creation] ++ turn) := (undisturbed_append ..).2 ⟨hundisturbed, hvisit⟩
  have hcreated' : (start atm b).created ([creation] ++ turn) = [("a", "1234")] := by
    rw [OpenNetwork.created, told_append, show told created? _ [creation] = _ from hcreated]
    rfl
  obtain ⟨pin, typed, hpin, hlast, htrim⟩ := (login_iff_pin rfl {} hall).1 "a" hin
  obtain rfl : pin = "1234" := by
    rw [hcreated'] at hpin
    exact (Prod.mk.inj (List.mem_singleton.1 hpin)).2
  have hexecuted' : ((start atm b).run [creation, .line "begin-session a",
      .bank (.datagram (Bytes.zero 12) datagram)]).executed = [e] := by
    rw [run_cons]
    exact hexecuted
  exact ⟨atm, datagram, reply, n.branch.files, e, hall, hexecuted', hsealed, hcreated', hin, typed, hlast, htrim⟩
end OpenNetwork
end Cashpoint
