/-
# The book of a Bank

What the Bank tells of the money of its users can be entered in a book as it comes:
`Created user u`, `$a added to u's account`, and `$a dispensed` in the reply to a request
that was executed. An entry is a `Posting`, and `book` is read off the answers alone.

The book is right (`money_accounted`): each posting is one change of one balance, by its
amount, and without a posting nothing changes. So the balance of a user is what the user
was created with and was paid in, less what was paid out. A reply that is sent again is not
entered again, because nothing is executed for it.
-/

import Cashpoint.Proofs.Bank.Console
import Cashpoint.Proofs.Bank.Replay

namespace Cashpoint

open Console (BankCommand)

/-! ## Replies -/

namespace Bank
namespace Execution

/-- The request that was asked for, if the plaintext is one. -/
def asked? (e : Execution) : Option Request := (Utf8.decode? e.plaintext).bind Request.ofString?

/-- The text of the reply, as whoever has sent the request reads it. -/
def text? (key : Bytes 32) (e : Execution) : Option String := do
  let datagram ← e.reply.toOption
  let frame ← (Frame.decode datagram).toOption
  let plaintext ← (frame.openReply key e.request).toOption
  Utf8.decode? plaintext

variable {key : Bytes 32} {e : Execution}

/-- The text of the reply is that of the response. -/
theorem Honest.text?_eq (h : e.Honest key) :
    e.text? key = some (respondTo e.before e.plaintext).1.render := by
  obtain ⟨datagram, frame, hreply, hdecode, hopen⟩ := h.opens_reply
  simp [text?, hreply, hdecode, hopen, Except.toOption, Utf8.decode?_encode]

/-- **The text tells which response it was.** -/
theorem Honest.text?_eq_render_iff (h : e.Honest key) (hrange : e.before.InRange) {response : Response} :
    e.text? key = some response.render ↔ (respondTo e.before e.plaintext).1 = response := by
  rw [h.text?_eq, Option.some.injEq]
  constructor
  · exact Response.render_inj (respondTo_inRange hrange e.plaintext)
  · exact congrArg Response.render

end Execution
end Bank

/-! ## Postings -/

/-- What an answer of the Bank tells of the money of a user. -/
inductive Posting
  /-- A user was created. -/
  | opened (user : String) (opening : Amount)
  | paidIn (user : String) (amount : Amount)
  | paidOut (user : String) (amount : Amount)
  deriving DecidableEq, Repr

namespace Posting

/-- The user whose balance a posting is about. -/
def user : Posting → String
  | opened user _ | paidIn user _ | paidOut user _ => user

/-- What the answer to a line tells. -/
def ofLine? (line answer : String) : Option Posting :=
  match BankCommand.ofLine line with
  | .ok (.createUser user _ opening) =>
    if answer = Bank.userCreated user then some (opened user opening) else none
  | .ok (.deposit user amount) =>
    if answer = Bank.deposited amount user then some (paidIn user amount) else none
  | .ok (.balance _) | .error _ => none

/-- What the reply to a request tells. -/
def ofReply? (text : String) : Request → Option Posting
  | .withdraw user amount =>
    if text = (Response.dispensed amount).render then some (paidOut user amount) else none
  | .beginSession _ | .balance _ => none

/-- What it pays in for a user. -/
def depositFor (name : String) : Posting → Int
  | paidIn user amount => if user = name then amount.toInt else 0
  | _ => 0

/-- What it pays out to a user. -/
def withdrawalOf (name : String) : Posting → Int
  | paidOut user amount => if user = name then amount.toInt else 0
  | _ => 0

/-- What a book has paid in for a user. -/
def paidInFor (name : String) (book : List Posting) : Int := total (depositFor name) book

/-- What a book has paid out to a user. -/
def paidOutTo (name : String) (book : List Posting) : Int := total (withdrawalOf name) book

/-- The change of the ledger that a posting stands for: a new balance of its user. -/
def Changes (before after : Ledger) (posting : Posting) : Prop :=
  ∃ balance, 0 ≤ balance.toInt ∧ after = before.setBalance posting.user balance ∧
    match posting with
    | opened user opening => before.balance? user = none ∧ balance = opening
    | paidIn user amount => ∃ old, before.balance? user = some old ∧ balance.toInt = old.toInt + amount.toInt
    | paidOut user amount => ∃ old, before.balance? user = some old ∧ balance.toInt = old.toInt - amount.toInt

end Posting

/-- What a book shows for a user who was created once. -/
def Posting.Shows (book : List Posting) (user : String) (value : Int) : Prop :=
  ∃ opening, Posting.opened user opening ∈ book ∧
    (∀ other, Posting.opened user other ∈ book → other = opening) ∧
    value = opening.toInt + Posting.paidInFor user book - Posting.paidOutTo user book

/-- The book is right about a ledger: it shows the balance of every user, and nothing for anybody else. -/
structure Ledger.Booked (ledger : Ledger) (book : List Posting) : Prop where
  inRange : ledger.InRange
  shows_balance : ∀ user balance, ledger.balance? user = some balance → Posting.Shows book user balance.toInt
  unknown : ∀ user, ledger.balance? user = none → ∀ posting ∈ book, posting.user ≠ user

/-! ## One posting -/

namespace Posting

variable {name : String} {posting : Posting} {book : List Posting}

/-- What a line with a posting asks for. -/
theorem ofLine?_eq_some {line answer : String} (h : ofLine? line answer = some posting) :
    (∃ user pin opening, BankCommand.ofLine line = .ok (.createUser user pin opening) ∧
      answer = Bank.userCreated user ∧ posting = opened user opening) ∨
      ∃ user amount, BankCommand.ofLine line = .ok (.deposit user amount) ∧
        answer = Bank.deposited amount user ∧ posting = paidIn user amount := by
  unfold ofLine? at h
  split at h
  · rename_i user pin opening hline
    obtain ⟨hanswer, heq⟩ := Option.ite_none_right_eq_some.1 h
    exact Or.inl ⟨user, pin, opening, hline, hanswer, (Option.some.inj heq).symm⟩
  · rename_i user amount hline
    obtain ⟨hanswer, heq⟩ := Option.ite_none_right_eq_some.1 h
    exact Or.inr ⟨user, amount, hline, hanswer, (Option.some.inj heq).symm⟩
  · simp at h
  · simp at h

/-- A posting of somebody else pays nothing in. -/
theorem depositFor_of_ne (h : posting.user ≠ name) : depositFor name posting = 0 := by
  cases posting with
  | paidIn user amount => exact if_neg h
  | opened user opening => rfl
  | paidOut user amount => rfl

/-- A posting of somebody else pays nothing out. -/
theorem withdrawalOf_of_ne (h : posting.user ≠ name) : withdrawalOf name posting = 0 := by
  cases posting with
  | paidOut user amount => exact if_neg h
  | opened user opening => rfl
  | paidIn user amount => rfl

/-- A book without postings of a user has paid nothing in for the user. -/
theorem paidInFor_of_unknown (h : ∀ posting ∈ book, posting.user ≠ name) : paidInFor name book = 0 :=
  total_eq_zero fun posting hp => depositFor_of_ne (h posting hp)

/-- A book without postings of a user has paid nothing out to the user. -/
theorem paidOutTo_of_unknown (h : ∀ posting ∈ book, posting.user ≠ name) : paidOutTo name book = 0 :=
  total_eq_zero fun posting hp => withdrawalOf_of_ne (h posting hp)

/-- The last posting is added to what the book has paid in. -/
@[simp] theorem paidInFor_concat (name : String) (book : List Posting) (posting : Posting) :
    paidInFor name (book ++ [posting]) = paidInFor name book + depositFor name posting :=
  total_concat ..

/-- The last posting is added to what the book has paid out. -/
@[simp] theorem paidOutTo_concat (name : String) (book : List Posting) (posting : Posting) :
    paidOutTo name (book ++ [posting]) = paidOutTo name book + withdrawalOf name posting :=
  total_concat ..

/-- The first posting of a user shows the opening balance. -/
theorem shows_opened (hunknown : ∀ posting ∈ book, posting.user ≠ name) (opening : Amount) :
    Shows (book ++ [opened name opening]) name opening.toInt := by
  refine ⟨opening, by simp, fun other hother => ?_, ?_⟩
  · rcases List.mem_append.1 hother with hin | hlast
    · exact absurd rfl (hunknown _ hin)
    · exact (opened.inj (List.mem_singleton.1 hlast)).2
  · simp [paidInFor_of_unknown hunknown, paidOutTo_of_unknown hunknown, depositFor, withdrawalOf]

/-- Every later posting is added to it, or taken off. -/
theorem Shows.concat {value : Int} (h : Shows book name value)
    (hlater : ∀ opening, posting ≠ opened name opening) :
    Shows (book ++ [posting]) name (value + depositFor name posting - withdrawalOf name posting) := by
  obtain ⟨opening, hmem, honce, hvalue⟩ := h
  refine ⟨opening, List.mem_append_left _ hmem, fun other hother => ?_, ?_⟩
  · rcases List.mem_append.1 hother with hin | hlast
    · exact honce other hin
    · exact absurd (List.mem_singleton.1 hlast).symm (hlater other)
  · rw [paidInFor_concat, paidOutTo_concat]
    omega

end Posting

namespace Ledger

variable {ledger after : Ledger} {book : List Posting} {posting : Posting}

/-- The empty book is right about the empty ledger. -/
theorem booked_empty : empty.Booked [] where
  inRange := inRange_empty
  shows_balance _ _ h := by simp [empty, balance?] at h
  unknown _ _ _ h := absurd h List.not_mem_nil

/-- **A change that is entered leaves the book right.** -/
theorem Booked.post (h : ledger.Booked book) (hchange : posting.Changes ledger after) :
    after.Booked (book ++ [posting]) := by
  obtain ⟨balance, hpos, rfl, hwhat⟩ := hchange
  refine { inRange := h.inRange.setBalance hpos, shows_balance := ?_, unknown := ?_ }
  · intro user found hfound
    rw [balance?_setBalance] at hfound
    split at hfound
    · -- the user of the posting
      rename_i heq
      obtain rfl := heq
      obtain rfl := Option.some.inj hfound
      cases posting with
      | opened user opening =>
        obtain ⟨hnew, rfl⟩ := hwhat
        exact Posting.shows_opened (h.unknown user hnew) balance
      | paidIn user amount =>
        obtain ⟨old, hold, hsum⟩ := hwhat
        have hlater : ∀ opening, Posting.paidIn user amount ≠ .opened user opening := nofun
        have hshows := (h.shows_balance user old hold).concat hlater
        simpa [Posting.user, Posting.depositFor, Posting.withdrawalOf, hsum] using hshows
      | paidOut user amount =>
        obtain ⟨old, hold, hrest⟩ := hwhat
        have hlater : ∀ opening, Posting.paidOut user amount ≠ .opened user opening := nofun
        have hshows := (h.shows_balance user old hold).concat hlater
        simpa [Posting.user, Posting.depositFor, Posting.withdrawalOf, hrest] using hshows
    · rename_i hne
      have hlater : ∀ opening, posting ≠ .opened user opening := by
        rintro opening rfl
        exact hne rfl
      have hshows := (h.shows_balance user found hfound).concat hlater
      simpa [Posting.depositFor_of_ne hne, Posting.withdrawalOf_of_ne hne] using hshows
  · intro user hnone other hother
    rw [balance?_setBalance] at hnone
    split at hnone
    · simp at hnone
    · rename_i hne
      rcases List.mem_append.1 hother with hin | hlast
      · exact h.unknown user hnone other hin
      · rw [List.mem_singleton.1 hlast]
        exact hne

/-- **The balance of a user is what the book shows.** -/
theorem Booked.balance_of_opened (h : ledger.Booked book) {user : String} {opening : Amount}
    (hmem : Posting.opened user opening ∈ book) :
    ∃ balance, ledger.balance? user = some balance ∧
      balance.toInt = opening.toInt + Posting.paidInFor user book - Posting.paidOutTo user book := by
  cases hb : ledger.balance? user with
  | none => exact absurd rfl (h.unknown user hb _ hmem)
  | some balance =>
    obtain ⟨first, -, honce, hvalue⟩ := h.shows_balance user balance hb
    obtain rfl := honce opening hmem
    exact ⟨balance, rfl, hvalue⟩

end Ledger

/-! ## One execution -/

namespace Bank
namespace Execution

variable {key : Bytes 32} {e : Execution} {posting : Posting}

/-- What the reply to an executed request tells of money. -/
def posting? (key : Bytes 32) (e : Execution) : Option Posting := do
  let request ← e.asked?
  let text ← e.text? key
  Posting.ofReply? text request

/-- The response is the one to the request that was asked for. -/
theorem respondTo_of_asked {request : Request} (h : e.asked? = some request) :
    respondTo e.before e.plaintext = respond e.before request := by
  unfold asked? at h
  rw [respondTo, h]

/-- A plaintext that is no request is answered like an unknown command, and changes nothing. -/
theorem respondTo_of_not_asked (h : e.asked? = none) :
    respondTo e.before e.plaintext = (.invalidCommand, e.before) := by
  unfold asked? at h
  rw [respondTo, h]

/-- **The reply tells of a posting if it says that cash is dispensed**, for the user of the request. -/
theorem Honest.posting?_eq_some_iff (h : e.Honest key) (hrange : e.before.InRange) :
    e.posting? key = some posting ↔ ∃ request amount, e.asked? = some request ∧
      e.text? key = some (Response.dispensed amount).render ∧ posting = .paidOut request.user amount := by
  constructor
  · intro hposting
    obtain ⟨request, hasked, hposting⟩ := Option.bind_eq_some_iff.1 hposting
    obtain ⟨text, htext, hposting⟩ := Option.bind_eq_some_iff.1 hposting
    cases request with
    | withdraw user amount =>
      obtain ⟨rfl, heq⟩ := Option.ite_none_right_eq_some.1 hposting
      exact ⟨_, amount, hasked, htext, (Option.some.inj heq).symm⟩
    | beginSession user => simp [Posting.ofReply?] at hposting
    | balance user => simp [Posting.ofReply?] at hposting
  · rintro ⟨request, amount, hasked, htext, rfl⟩
    have hresponse := (h.text?_eq_render_iff hrange).1 htext
    rw [respondTo_of_asked hasked] at hresponse
    obtain ⟨user, rest, rfl, -⟩ := respond_dispensed hresponse
    simp [posting?, hasked, htext, Posting.ofReply?, Request.user]

/-- **With a posting the ledger changes by it, and without one not at all.** -/
theorem Honest.posting?_cases (h : e.Honest key) (hrange : e.before.InRange) :
    (e.posting? key = none ∧ e.after = e.before) ∨
      ∃ posting, e.posting? key = some posting ∧ posting.Changes e.before e.after := by
  cases hasked : e.asked? with
  | none =>
    refine Or.inl ⟨by simp [posting?, hasked], ?_⟩
    rw [h.after_eq, respondTo_of_not_asked hasked]
  | some request =>
    have hrespond := respondTo_of_asked hasked
    rcases respond_cases e.before request with ⟨hsame, hnone⟩ | ⟨user, amount, rest, rfl, hdispensed, hw⟩
    · refine Or.inl ⟨?_, by rw [h.after_eq, hrespond, hsame]⟩
      rw [Option.eq_none_iff_forall_ne_some]
      intro posting hposting
      obtain ⟨_, amount, -, htext, -⟩ := (h.posting?_eq_some_iff hrange).1 hposting
      have hresponse := (h.text?_eq_render_iff hrange).1 htext
      rw [hrespond] at hresponse
      exact hnone amount hresponse
    · obtain ⟨hpos, balance, hold, hle, hrest, hafter⟩ := Ledger.withdraw_eq_ok_iff.1 hw
      have htext := (h.text?_eq_render_iff hrange).2 (by rw [hrespond, hdispensed])
      refine Or.inr ⟨.paidOut user amount, ?_, rest, by omega, ?_, balance, hold, hrest⟩
      · exact (h.posting?_eq_some_iff hrange).2 ⟨_, amount, hasked, htext, rfl⟩
      · rw [h.after_eq, hrespond, hafter]
        rfl

end Execution
end Bank

/-- **A balance that is shown at the console is the balance.** -/
theorem Bank.balance_eq_money_iff {bank : Bank} (hrange : bank.ledger.InRange) {user : String}
    {amount : Amount} :
    bank.balance user = "$" ++ amount.render ↔ bank.ledger.balance? user = some amount := by
  unfold balance
  cases hb : bank.ledger.balance? user with
  | none =>
    simp only [reduceCtorEq, iff_false]
    intro h
    have hhead := congrArg (fun text => text.toList.head?) h
    simp [noSuchUser, String.toList_append] at hhead
  | some balance =>
    simp only [Option.some.injEq]
    constructor
    · intro h
      exact Amount.render_inj (hrange user balance hb) ((String.append_right_inj _).1 h)
    · rintro rfl
      rfl

/-- **A balance that is replied is the balance.** -/
theorem Bank.Execution.Honest.text?_eq_balance_iff {key : Bytes 32} {e : Execution} (h : e.Honest key)
    (hrange : e.before.InRange) {user : String} (hasked : e.asked? = some (.balance user)) {amount : Amount} :
    e.text? key = some (Response.balance amount).render ↔ e.before.balance? user = some amount := by
  rw [h.text?_eq_render_iff hrange, respondTo_of_asked hasked, respond]
  cases e.before.balance? user with
  | none => simp
  | some balance => simp

/-! ## One event -/

namespace Branch

open Bank (Event Execution)

/-- What the answer to an event tells of money. -/
def posting? (b : Branch) : Event → Option Posting
  | .line cardIv text => do
    let answer ← (b.bank.console b.files cardIv text).1
    Posting.ofLine? text answer
  | .datagram replyIv bytes => do
    let e ← b.bank.execution? replyIv bytes
    e.posting? b.bank.keys.messageKey
  | .change _ => none

/-- The postings of a sequence of events, oldest first. -/
def book (b : Branch) : List Event → List Posting
  | [] => []
  | event :: rest => (b.posting? event).toList ++ (b.step event).book rest

/-- The words that tell of a posting: an answer of the console, or the reply to a request that is executed. -/
def Tells (b : Branch) (event : Event) : Posting → Prop
  | .opened user opening => ∃ cardIv text pin, event = .line cardIv text ∧
      BankCommand.ofLine text = .ok (.createUser user pin opening) ∧
      (b.bank.console b.files cardIv text).1 = some (Bank.userCreated user)
  | .paidIn user amount => ∃ cardIv text, event = .line cardIv text ∧
      (b.bank.console b.files cardIv text).1 = some (Bank.deposited amount user)
  | .paidOut user amount => ∃ replyIv bytes e request, event = .datagram replyIv bytes ∧
      b.bank.execution? replyIv bytes = some e ∧ e.asked? = some request ∧ request.user = user ∧
      e.text? b.bank.keys.messageKey = some (Response.dispensed amount).render

variable {b : Branch} {event : Event} {posting : Posting}

/-- An answer that tells of nothing is not entered. -/
theorem posting?_of_uneventful {cardIv : Block} {text : String}
    (h : Bank.Uneventful (b.bank.console b.files cardIv text).1) : b.posting? (.line cardIv text) = none := by
  rw [Option.eq_none_iff_forall_ne_some]
  intro posting hposting
  obtain ⟨answer, hanswer, hposting⟩ := Option.bind_eq_some_iff.1 hposting
  rw [hanswer] at h
  rcases Posting.ofLine?_eq_some hposting with ⟨user, _, _, -, rfl, -⟩ | ⟨user, amount, -, rfl, -⟩
  · exact h.ne_userCreated user rfl
  · exact h.ne_deposited amount user rfl

/-- **With a posting the ledger changes by it, and without one not at all.** -/
theorem posting?_cases (hrange : b.bank.ledger.InRange) (event : Event) :
    (b.posting? event = none ∧ (b.step event).bank.ledger = b.bank.ledger) ∨
      ∃ posting, b.posting? event = some posting ∧
        posting.Changes b.bank.ledger (b.step event).bank.ledger := by
  cases event with
  | change files => exact Or.inl ⟨rfl, rfl⟩
  | line cardIv text =>
    rcases b.bank.console_cases hrange b.files cardIv text with
      ⟨user, pin, opening, files', hline, hwf, hnew, -, hout⟩ |
        ⟨user, amount, balance, sum, hline, hwf, hold, hsum, hout⟩ | ⟨answer, hnone, hout⟩
    · refine Or.inr ⟨.opened user opening, ?_, opening, hwf.2.2, ?_, hnew, rfl⟩
      · simp [posting?, hline, hout, Posting.ofLine?]
      · simp only [step, hout, Posting.user]
    · refine Or.inr ⟨.paidIn user amount, ?_, sum, ?_, ?_, balance, hold, hsum⟩
      · simp [posting?, hline, hout, Posting.ofLine?]
      · have hpos := hrange user balance hold
        have hamount : 0 ≤ amount.toInt := hwf.2
        omega
      · simp only [step, hout, Posting.user]
    · refine Or.inl ⟨posting?_of_uneventful (by rwa [hout]), ?_⟩
      simp only [step, hout]
  | datagram replyIv bytes =>
    cases hexec : b.bank.execution? replyIv bytes with
    | none =>
      have hnew : b.bank.newRequest? bytes = none := Option.map_eq_none_iff.1 hexec
      refine Or.inl ⟨by simp [posting?, hexec], ?_⟩
      exact congrArg Bank.ledger (Bank.handle_of_not_newRequest hnew replyIv)
    | some e =>
      obtain ⟨hbefore, hafter⟩ := Bank.ledger_of_execution hexec
      have hposting : b.posting? (.datagram replyIv bytes) = e.posting? b.bank.keys.messageKey := by
        simp [posting?, hexec]
      have hcases := (Bank.honest_of_execution hexec).posting?_cases (hbefore ▸ hrange)
      rw [hbefore, hafter] at hcases
      rw [hposting]
      exact hcases

/-- Without a posting the ledger stays. -/
theorem ledger_step_of_no_posting (hrange : b.bank.ledger.InRange) (hnone : b.posting? event = none) :
    (b.step event).bank.ledger = b.bank.ledger := by
  rcases posting?_cases hrange event with ⟨-, hsame⟩ | ⟨posting, hsome, -⟩
  · exact hsame
  · rw [hnone] at hsome
    simp at hsome

/-- No event makes a balance negative. -/
theorem inRange_step (hrange : b.bank.ledger.InRange) (event : Event) : (b.step event).bank.ledger.InRange := by
  rcases posting?_cases hrange event with ⟨-, hsame⟩ | ⟨posting, -, balance, hpos, hafter, -⟩
  · rw [hsame]
    exact hrange
  · rw [hafter]
    exact hrange.setBalance hpos

/-- A posting of somebody else leaves a balance as it is. -/
theorem balance?_step_of_other (hrange : b.bank.ledger.InRange) {user : String}
    (hother : ∀ posting, b.posting? event = some posting → posting.user ≠ user) :
    (b.step event).bank.ledger.balance? user = b.bank.ledger.balance? user := by
  rcases posting?_cases hrange event with ⟨-, hsame⟩ | ⟨posting, hsome, _, -, hafter, -⟩
  · rw [hsame]
  · rw [hafter, Ledger.balance?_setBalance, if_neg (hother posting hsome)]

/-- **The postings are what the words tell of.** -/
theorem posting?_eq_some_iff (hrange : b.bank.ledger.InRange) :
    b.posting? event = some posting ↔ b.Tells event posting := by
  constructor
  · intro h
    cases event with
    | change files => simp [posting?] at h
    | line cardIv text =>
      obtain ⟨answer, hanswer, h⟩ := Option.bind_eq_some_iff.1 h
      rcases Posting.ofLine?_eq_some h with ⟨user, pin, opening, hline, rfl, rfl⟩ | ⟨user, amount, -, rfl, rfl⟩
      · exact ⟨cardIv, text, pin, rfl, hline, hanswer⟩
      · exact ⟨cardIv, text, rfl, hanswer⟩
    | datagram replyIv bytes =>
      obtain ⟨e, hexec, h⟩ := Option.bind_eq_some_iff.1 h
      have hbefore := (Bank.ledger_of_execution hexec).1
      obtain ⟨request, amount, hasked, htext, rfl⟩ :=
        ((Bank.honest_of_execution hexec).posting?_eq_some_iff (hbefore ▸ hrange)).1 h
      exact ⟨replyIv, bytes, e, request, rfl, hexec, hasked, rfl, htext⟩
  · cases posting with
    | opened user opening =>
      rintro ⟨cardIv, text, pin, rfl, hline, hanswer⟩
      simp [posting?, hline, hanswer, Posting.ofLine?]
    | paidIn user amount =>
      rintro ⟨cardIv, text, rfl, hanswer⟩
      rcases b.bank.console_cases hrange b.files cardIv text with
        ⟨other, _, _, _, -, -, -, -, hout⟩ | ⟨other, paid, balance, sum, hline, hwf, -, -, hout⟩ |
          ⟨answer, hnone, hout⟩
      · rw [hout] at hanswer
        exact absurd (Option.some.inj hanswer) Bank.userCreated_ne_deposited
      · rw [hout] at hanswer
        obtain ⟨rfl, rfl⟩ := Bank.deposited_inj hwf.2 (Option.some.inj hanswer)
        simp [posting?, hline, hout, Posting.ofLine?]
      · rw [hout] at hanswer
        exact absurd hanswer (hnone.ne_deposited amount user)
    | paidOut user amount =>
      rintro ⟨replyIv, bytes, e, request, rfl, hexec, hasked, rfl, htext⟩
      have hbefore := (Bank.ledger_of_execution hexec).1
      have hposting := ((Bank.honest_of_execution hexec).posting?_eq_some_iff (hbefore ▸ hrange)).2
        ⟨request, amount, hasked, htext, rfl⟩
      simp [posting?, hexec, hposting]

/-! ## Runs -/

/-- Every event keeps the book right. -/
theorem booked_step {done : List Posting} (h : b.bank.ledger.Booked done) (event : Event) :
    (b.step event).bank.ledger.Booked (done ++ (b.posting? event).toList) := by
  rcases posting?_cases h.inRange event with ⟨hnone, hsame⟩ | ⟨posting, hsome, hchange⟩
  · rw [hnone, hsame, Option.toList_none, List.append_nil]
    exact h
  · rw [hsome, Option.toList_some]
    exact h.post hchange

/-- So does every run. -/
theorem booked_run {done : List Posting} (h : b.bank.ledger.Booked done) (events : List Event) :
    (b.run events).bank.ledger.Booked (done ++ b.book events) := by
  induction events generalizing b done with
  | nil => rwa [run_nil, book, List.append_nil]
  | cons event rest ih =>
    rw [run_cons, book, ← List.append_assoc]
    exact ih (booked_step h event)

/-- **The answers of a Bank account for every unit of money.**  Let a Bank start without users and let anything
happen to it. For each user who was answered to be created, the balance is the opening balance and all that was
answered to be added, less all that was dispensed in the replies to executed requests. There is no other user,
and all balances are from 0 to `2^31 - 1`.

In the state reached, let anything happen next. It is entered in the book if its answer tells of money, and not
otherwise. If it is not entered then the ledger stays as it is, and in any case the balance of everybody else
does. `Created user u` is only said of a command to create `u`, and a balance that is shown, at the console or
in the reply to an executed request, is the balance at that moment. -/
theorem money_accounted (keys : Keys) (cards : CardStore) (files : FileTree) (events : List Event) :
    let b := (start keys cards files).run events
    let book := (start keys cards files).book events
    (∀ user opening, Posting.opened user opening ∈ book →
        ∃ balance, b.bank.ledger.balance? user = some balance ∧
          balance.toInt = opening.toInt + Posting.paidInFor user book - Posting.paidOutTo user book) ∧
      (∀ user balance, b.bank.ledger.balance? user = some balance →
        (∃ opening, Posting.opened user opening ∈ book) ∧ 0 ≤ balance.toInt ∧ balance.toInt ≤ 2147483647) ∧
      (∀ event posting, b.posting? event = some posting ↔ b.Tells event posting) ∧
      (∀ event, b.posting? event = none → (b.step event).bank.ledger = b.bank.ledger) ∧
      (∀ event user, (∀ posting, b.posting? event = some posting → posting.user ≠ user) →
        (b.step event).bank.ledger.balance? user = b.bank.ledger.balance? user) ∧
      (∀ cardIv text user, (b.bank.console b.files cardIv text).1 = some (Bank.userCreated user) →
        ∃ pin opening, BankCommand.ofLine text = .ok (.createUser user pin opening)) ∧
      (∀ cardIv text user amount, BankCommand.ofLine text = .ok (.balance user) →
        ((b.bank.console b.files cardIv text).1 = some ("$" ++ amount.render) ↔
          b.bank.ledger.balance? user = some amount)) ∧
      ∀ replyIv bytes e user amount, b.bank.execution? replyIv bytes = some e →
        e.asked? = some (.balance user) →
        (e.text? b.bank.keys.messageKey = some (Response.balance amount).render ↔
          b.bank.ledger.balance? user = some amount) := by
  intro b book
  have hstart : (start keys cards files).bank.ledger.Booked [] := Ledger.booked_empty
  have hbooked : b.bank.ledger.Booked book := booked_run hstart events
  have hrange := hbooked.inRange
  refine ⟨?_, ?_, fun event posting => posting?_eq_some_iff hrange, ?_, ?_, ?_, ?_, ?_⟩
  · exact fun user opening hmem => hbooked.balance_of_opened hmem
  · intro user balance hb
    obtain ⟨opening, hmem, -, -⟩ := hbooked.shows_balance user balance hb
    have hlt := balance.toInt_lt
    exact ⟨⟨opening, hmem⟩, hrange user balance hb, by omega⟩
  · exact fun event hnone => ledger_step_of_no_posting hrange hnone
  · exact fun event user hother => balance?_step_of_other hrange hother
  · exact fun cardIv text user hanswer => Bank.command_of_userCreated hrange hanswer
  · intro cardIv text user amount hline
    rw [Bank.console_of_command hline, Option.some.injEq]
    exact Bank.balance_eq_money_iff hrange
  · intro replyIv bytes e user amount hexec hasked
    have hbefore := (Bank.ledger_of_execution hexec).1
    rw [← hbefore]
    exact (Bank.honest_of_execution hexec).text?_eq_balance_iff (hbefore ▸ hrange) hasked

/-- A request for cash that the user has is entered when it is executed. -/
theorem posting?_of_withdrawal (hrange : b.bank.ledger.InRange) {replyIv : Bytes 12} {bytes : List UInt8}
    {request : Frame} {user : String} {amount rest : Amount} {ledger : Ledger}
    (hnew : b.bank.newRequest? bytes = some (request, Utf8.encode (Request.withdraw user amount).render))
    (hwf : (Request.withdraw user amount).WellFormed)
    (hw : b.bank.ledger.withdraw user amount = .ok (rest, ledger)) :
    b.posting? (.datagram replyIv bytes) = some (.paidOut user amount) := by
  obtain ⟨e, hexec⟩ : ∃ e, b.bank.execution? replyIv bytes = some e := ⟨_, by rw [Bank.execution?, hnew]; rfl⟩
  have hplain : e.plaintext = Utf8.encode (Request.withdraw user amount).render := by
    rw [Bank.execution?, hnew] at hexec
    exact (congrArg Execution.plaintext (Option.some.inj hexec)).symm
  have hasked : e.asked? = some (.withdraw user amount) := by
    rw [Execution.asked?, hplain, Utf8.decode?_encode, Option.bind_some, Request.ofString?_render hwf]
  have hbefore := (Bank.ledger_of_execution hexec).1
  have hhonest := Bank.honest_of_execution hexec
  have htext : e.text? b.bank.keys.messageKey = some (Response.dispensed amount).render := by
    rw [hhonest.text?_eq_render_iff (hbefore ▸ hrange), Execution.respondTo_of_asked hasked, hbefore, Bank.respond, hw]
  exact (posting?_eq_some_iff hrange).2 ⟨replyIv, bytes, e, _, rfl, hexec, hasked, rfl, htext⟩

/-- A request that was executed is not entered again. -/
theorem posting?_again {bytes plaintext : List UInt8} {request : Frame}
    (hnew : b.bank.newRequest? bytes = some (request, plaintext)) (replyIv again : Bytes 12) :
    (b.step (.datagram replyIv bytes)).posting? (.datagram again bytes) = none := by
  obtain ⟨reply, -, hhandle⟩ := Bank.handle_of_newRequest hnew replyIv
  have hopen : (b.bank.handle replyIv bytes).2.openRequest bytes = .ok (request, plaintext) := by
    rw [hhandle]
    exact (Bank.newRequest?_eq_some_iff.1 hnew).1
  have hold : (b.bank.handle replyIv bytes).2.newRequest? bytes = none := by
    rw [Bank.newRequest?, hopen, hhandle]
    exact if_neg (Nat.lt_irrefl _)
  simp only [posting?, step, Bank.execution?, hold, Option.map_none, Option.bind_none, bind]

/-- A user who is created with 5, is paid in 7 and withdraws 3 has 9. The request comes twice and is entered once. -/
theorem money_accounted_withdrawal :
    ∃ bytes, let b := start ⟨Bytes.zero 32, Bytes.zero 32⟩ ⟨⟨"."⟩⟩ {}
      let events : List Event :=
        [.line (Bytes.zero 16) "create-user a 1234 5", .line (Bytes.zero 16) "deposit a 7",
          .datagram (Bytes.zero 12) bytes, .datagram (Bytes.zero 12) bytes]
      b.book events = [.opened "a" 5, .paidIn "a" 7, .paidOut "a" 3] ∧
        ∃ balance, (b.run events).bank.ledger.balance? "a" = some balance ∧ balance.toInt = 9 := by
  let b := start ⟨Bytes.zero 32, Bytes.zero 32⟩ ⟨⟨"."⟩⟩ {}
  let created := b.step (.line (Bytes.zero 16) "create-user a 1234 5")
  let paid := created.step (.line (Bytes.zero 16) "deposit a 7")
  have hleads : b.files.Leads b.bank.cards.directory [] := FileTree.leads_here
  have hfits : b.bank.cards.Fits "a" := CardStore.fits_of_short (by decide) (by decide)
  have hline : BankCommand.ofLine "create-user a 1234 5" = .ok (.createUser "a" "1234" 5) := by rfl
  obtain ⟨card, -, hout⟩ := Bank.console_of_free hline hleads hfits (by rfl) (by rfl) (Bytes.zero 16)
  have hopened : b.posting? (.line (Bytes.zero 16) "create-user a 1234 5") = some (.opened "a" 5) := by
    simp only [posting?, hout]
    rfl
  have hpaid : created.posting? (.line (Bytes.zero 16) "deposit a 7") = some (.paidIn "a" 7) := by
    simp only [created, posting?, step, hout]
    rfl
  have hrange : paid.bank.ledger.InRange := inRange_step (inRange_step Ledger.inRange_empty _) _
  have hbank : paid.bank = { b.bank with ledger := (Ledger.empty.setBalance "a" 5).setBalance "a" 12 } := by
    simp only [paid, created, step, hout]
    rfl
  obtain ⟨request, bytes, hs, -, hopen⟩ := paid.bank.exists_openRequest
    (Sequencer.vector (Bytes.zero 4) 1) (Utf8.encode (Request.withdraw "a" 3).render) (by decide)
  have hone : request.sequence = 1 := Sequencer.sequence_of_iv (Frame.iv_of_sealWith hs) (by decide)
  have hnew := Bank.newRequest?_eq_some_iff.2 ⟨hopen, by rw [hbank, hone]; decide⟩
  have hcash : paid.posting? (.datagram (Bytes.zero 12) bytes) = some (.paidOut "a" 3) :=
    posting?_of_withdrawal hrange hnew ⟨by decide, by decide⟩ (by rw [hbank]; rfl)
  have hagain := posting?_again hnew (Bytes.zero 12) (Bytes.zero 12)
  refine ⟨bytes, ?_⟩
  intro b' events
  have hbook : b.book events = [.opened "a" 5, .paidIn "a" 7, .paidOut "a" 3] := by
    show (b.posting? _).toList ++ ((created.posting? _).toList ++ ((paid.posting? _).toList ++
      (((paid.step _).posting? _).toList ++ []))) = _
    rw [hopened, hpaid, hcash, hagain]
    rfl
  have hmoney := (money_accounted ⟨Bytes.zero 32, Bytes.zero 32⟩ ⟨⟨"."⟩⟩ {} events).1 "a" 5
  have hstart : start ⟨Bytes.zero 32, Bytes.zero 32⟩ ⟨⟨"."⟩⟩ {} = b := rfl
  rw [hstart, hbook] at hmoney
  exact ⟨hbook, hmoney List.mem_cons_self⟩

end Branch
end Cashpoint
