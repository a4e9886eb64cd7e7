/-
# Cash on an open network

A line of cash, `$n dispensed`, is printed only for the reply to a withdrawal of `n` by
the user who is logged in, and the Bank has executed that very request. Two such lines
never go back to one execution, because the request that the ATM waits for has a higher
number than all that it has cashed before (`Phase.settled`). So in every unforged run
the lines of cash match executions one by one (`cash_covered`), and what was shown to a
user never exceeds what was debited from the user.
-/

import Cashpoint.Proofs.Atm.Lockout
import Cashpoint.Proofs.Ledger.Balances
import Cashpoint.Proofs.Network.Sound

namespace Cashpoint

open Bank (Execution)

/-! ## Lines of cash -/

/-- Whether a line has the form of `$n dispensed`. -/
def isCash (line : String) : Bool :=
  line.toList.head? = some '$' && Response.dispensedEnding.isSuffixOf line.toList

/-- A line that does not begin with a dollar sign is no line of cash. -/
theorem isCash_of_head {line : String} (h : line.toList.head? ≠ some '$') : isCash line = false := by
  simp [isCash, h]

/-- The text of a withdrawal is a line of cash. -/
theorem isCash_dispensed (amount : Amount) : isCash (Response.dispensed amount).render = true := by
  have hending : Response.dispensedEnding <:+ '$' :: (amount.render.toList ++ Response.dispensedEnding) :=
    (List.suffix_append _ _).trans (List.suffix_cons _ _)
  rw [isCash, Response.toList_render_dispensed, List.isSuffixOf_iff_suffix.2 hending, Bool.and_true]
  rfl

/-- **A response is a line of cash only if it dispenses some.** -/
theorem isCash_render {response : Response} (h : ∀ amount, response ≠ .dispensed amount) :
    isCash response.render = false := by
  cases response with
  | dispensed amount => exact absurd rfl (h amount)
  | balance amount =>
    have hne : ¬ Response.dispensedEnding <:+ '$' :: amount.render.toList := by
      intro hs
      rcases List.suffix_cons_iff.1 hs with heq | hs
      · have hhead : some ' ' = some '$' := congrArg List.head? heq
        exact absurd hhead (by decide)
      · exact Response.not_dispensedEnding_suffix_render amount hs
    rw [← List.isSuffixOf_iff_suffix, Bool.not_eq_true] at hne
    rw [isCash, Response.toList_render_balance, hne, Bool.and_false]
  | success | noSuchUser | insufficientFunds | invalidCommand => decide

/-- No message about a failure is a line of cash. -/
theorem isCash_failure (e : Error) : isCash (Atm.failure e) = false := by
  unfold Atm.failure
  split <;> decide

/-- That a name is locked is no line of cash. -/
theorem isCash_locked (user : String) : isCash (Atm.locked user) = false :=
  isCash_of_head (by rw [Atm.head?_locked]; decide)

/-- What a console says about a line is no line of cash. -/
theorem isCash_message {rejection : Console.Rejection} {line : String}
    (h : line ∈ rejection.message.toList) : isCash line = false := by
  cases rejection with
  | empty => simp [Console.Rejection.message] at h
  | invalid =>
    obtain rfl : line = "Invalid command" := by simpa [Console.Rejection.message] using h
    decide
  | usage expected =>
    obtain rfl : line = expected.line := by simpa [Console.Rejection.message] using h
    cases expected <;> decide

/-- No line that is printed at once is one of cash. -/
theorem isCash_atOnce {session : Session} {text line : String} {lines : List String}
    (h : Atm.AtOnce session text lines) (hline : line ∈ lines) : isCash line = false := by
  cases h with
  | rejected => exact isCash_message hline
  | loggedIn =>
    obtain rfl := List.mem_singleton.1 hline
    decide
  | locked =>
    obtain rfl := List.mem_singleton.1 hline
    exact isCash_locked _
  | loggedOut =>
    obtain rfl := List.mem_singleton.1 hline
    decide

/-- A line of cash does not come from the lock. -/
theorem isCash_withLock {session : Session} {user line : String} {lines : List String}
    (h : ∀ line ∈ lines, isCash line = false) (hline : line ∈ Atm.withLock session user lines) :
    isCash line = false := by
  unfold Atm.withLock at hline
  split at hline
  · rcases List.mem_append.1 hline with hline | hline
    · exact h line hline
    · obtain rfl := List.mem_singleton.1 hline
      exact isCash_locked user
  · exact h line hline

/-- No line that ends a turn at the PIN prompt is one of cash. -/
theorem isCash_enter {login : Login} {files : FileTree} {typed : Option String} {line : String}
    (hline : line ∈ (login.enter files typed).1) : isCash line = false := by
  have hrefused : isCash Atm.notAuthorized = false := by decide
  have hunable : isCash (Atm.unableToAccess login.user) = false :=
    isCash_of_head (by rw [Atm.head?_unableToAccess]; decide)
  unfold Login.enter at hline
  split at hline
  · split at hline
    · obtain rfl := List.mem_singleton.1 hline
      decide
    · obtain rfl := List.mem_singleton.1 hline
      exact isCash_locked _
  · exact isCash_withLock (by simp [hrefused]) hline
  · exact isCash_withLock (by simp [hrefused, hunable]) hline

/-! ## What pays for a line -/

/-- The execution of the withdrawal of an amount by a user, with the balance that it lowers. -/
structure Withdraws (e : Execution) (user : String) (amount : Amount) : Prop where
  /-- The Bank has read the plaintext as this request. -/
  reads : (Utf8.decode? e.plaintext).bind Request.ofString? = some (.withdraw user amount)
  nonneg : 0 ≤ amount.toInt
  /-- The balance covers the amount and is lowered by exactly that; nothing else changes. -/
  lowers : ∃ balance rest, e.before.balance? user = some balance ∧ amount.toInt ≤ balance.toInt ∧
    rest.toInt = balance.toInt - amount.toInt ∧ e.after = e.before.setBalance user rest

/-- A line of cash and the execution that pays for it: of the request that the line is printed for, and
of a withdrawal of that amount by the user who is logged in. -/
def Pays (p : Print) (e : Execution) : Prop :=
  ∃ user amount, p.user? = some user ∧ p.line = (Response.dispensed amount).render ∧
    p.request? = some e.request ∧ Withdraws e user amount

/-- The cash that a line shows to a user. -/
def Print.shows (user : String) (p : Print) : Int :=
  if p.user? = some user then
    match Response.ofString? p.line with
    | some (.dispensed amount) => amount.toInt
    | _ => 0
  else
    0

/-- The cash shown to a user. -/
def shown (user : String) (printed : List Print) : Int :=
  total (Print.shows user) (printed.filter fun p => isCash p.line)

/-- What an execution takes from the balance of a user. -/
def Bank.Execution.debits (user : String) (e : Execution) : Int := e.before.worth user - e.after.worth user

/-- The money debited from a user. -/
def debited (user : String) (executed : List Execution) : Int := total (Execution.debits user) executed

/-- No execution pays anything in. -/
theorem Bank.Execution.Honest.debits_nonneg {key : Bytes 32} {e : Execution} (h : e.Honest key)
    (user : String) : 0 ≤ e.debits user := by
  have := Bank.worth_respondTo_le e.before e.plaintext user
  rw [← h.after_eq] at this
  unfold debits
  omega

/-- A line of cash shows what its execution debits. -/
theorem Pays.shows_eq {p : Print} {e : Execution} (h : Pays p e) (user : String) :
    p.shows user = e.debits user := by
  obtain ⟨current, amount, hin, hline, -, hw⟩ := h
  obtain ⟨balance, rest, hb, -, hrest, hafter⟩ := hw.lowers
  have hrange : (Response.dispensed amount).InRange := hw.nonneg
  have hread : Response.ofString? p.line = some (.dispensed amount) := by
    rw [hline, Response.ofString?_render hrange]
  rw [Print.shows, hin, hread, Bank.Execution.debits, hafter, Ledger.worth_setBalance]
  by_cases hu : current = user
  · subst hu
    have hworth : e.before.worth current = balance.toInt := by rw [Ledger.worth, hb]; rfl
    simp only [if_true, hworth]
    omega
  · simp [hu]

/-! ## Every line is paid for -/

/-- The requests below this number have no reply to come any more. -/
def Phase.settled : Phase → Nat
  | .idle atm => atm.sequencer.last + 1
  | .waiting x => x.atm.sequencer.last
  | .asking login => login.atm.sequencer.last + 1

/-- The members of a list that grows in number can be extended by one with a higher number than theirs. -/
theorem append_sublist {executed paid : List Execution} {e : Execution}
    (hgrow : executed.Pairwise fun a b => a.sequence < b.sequence) (hpaid : paid.Sublist executed)
    (he : e ∈ executed) (hbelow : ∀ a ∈ paid, a.sequence < e.sequence) :
    (paid ++ [e]).Sublist executed := by
  obtain ⟨front, back, rfl⟩ := List.append_of_mem he
  obtain ⟨early, late, rfl, hearly, hlate⟩ := List.sublist_append_iff.1 hpaid
  -- nothing from `e` on can have been paid for yet
  have hnone : late = [] := by
    refine List.eq_nil_iff_forall_not_mem.2 fun a ha => ?_
    have hlt := hbelow a (List.mem_append_right _ ha)
    rcases List.mem_cons.1 (hlate.mem ha) with rfl | hback
    · omega
    · have hgt := (List.pairwise_cons.1 (List.pairwise_append.1 hgrow).2.1).1 a hback
      omega
  rw [hnone, List.append_nil]
  exact hearly.append (List.singleton_sublist.2 (List.mem_cons_self ..))

namespace OpenNetwork

/-- The lines of cash match executions one by one, all of requests that are settled. -/
def Covered (n : OpenNetwork) : Prop :=
  ∃ paid : List Execution, paid.Sublist n.executed ∧
    List.Forall₂ Pays (n.printed.filter fun p => isCash p.line) paid ∧
    ∀ e ∈ paid, e.sequence < n.phase.settled

variable {n : OpenNetwork}

/-- Among lines printed at once without cash there is no line of cash. -/
theorem filter_isCash_all {user? : Option String} {request? : Option Frame} {lines : List String}
    (h : ∀ line ∈ lines, isCash line = false) :
    (Print.all user? request? lines).filter (fun p => isCash p.line) = [] := by
  refine List.filter_eq_nil_iff.2 fun p hp => ?_
  obtain ⟨line, hline, rfl⟩ := List.mem_map.1 hp
  simp [h line hline]

/-- The ATM goes on and prints no cash. -/
theorem Covered.proceed (h : Covered n) (phase : Phase) (hsettled : n.phase.settled ≤ phase.settled)
    {user? : Option String} {request? : Option Frame} {lines : List String}
    (hlines : ∀ line ∈ lines, isCash line = false) :
    Covered { n with phase, printed := n.printed ++ Print.all user? request? lines } := by
  obtain ⟨paid, hsub, hpays, hbelow⟩ := h
  refine ⟨paid, hsub, ?_, fun e he => Nat.lt_of_lt_of_le (hbelow e he) hsettled⟩
  simpa only [List.filter_append, filter_isCash_all hlines, List.append_nil] using hpays

/-- A line at the ATM leaves the cash covered. -/
theorem Covered.submit (h : Covered n) {atm : Atm} (hphase : n.phase = .idle atm) (text : String) :
    Covered (n.submit atm text) := by
  have hsettled : n.phase.settled = atm.sequencer.last + 1 := by rw [hphase]; rfl
  unfold OpenNetwork.submit
  rcases Atm.submit_cases atm text with
    ⟨request, -, hsubmit⟩ | ⟨user, -, -, hsubmit⟩ | ⟨lines, honce, hsubmit⟩
  · rcases Atm.request_cases atm request with ⟨datagram, x, hsend, hx⟩ | ⟨lines, next, hdone, hun⟩
    · rw [hsubmit, hsend]
      obtain ⟨paid, hsub, hpays, hbelow⟩ := h
      refine ⟨paid, hsub, hpays, fun e he => ?_⟩
      have hlt := hbelow e he
      rw [hsettled, ← hx.last_eq] at hlt
      exact hlt
    · rw [hsubmit, hdone]
      obtain ⟨e, rfl⟩ := hun.lines_eq
      refine h.proceed (.idle next) ?_ (by simpa using isCash_failure e)
      rw [hsettled]
      exact Nat.succ_le_succ hun.last_le
  · rw [hsubmit]
    exact h.proceed (.idle _) (Nat.le_of_eq hsettled) (by simp only [List.mem_singleton]; rintro _ rfl; decide)
  · rw [hsubmit]
    exact h.proceed (.idle _) (Nat.le_of_eq hsettled) fun line => isCash_atOnce honce

/-- **Cash is shown for an execution of the request that the ATM waits for.** -/
theorem Sound.pays (h : Sound n) {x : Exchange} (hphase : n.phase = .waiting x)
    {reply : Except Error (List UInt8)} (hgenuine : n.Genuine (.reply reply)) {amount : Amount}
    (hanswer : x.answer reply = .ok (.dispensed amount)) :
    ∃ e ∈ n.executed, e.sequence = x.atm.sequencer.last ∧
      Pays { user? := x.atm.session.user?, request? := some x.sealed,
             line := (Response.dispensed amount).render } e := by
  have hnamed := h.named
  have hready := h.ready
  rw [show n.phase.atm = x.atm by rw [hphase]; rfl] at hnamed
  rw [hphase] at hready
  obtain ⟨⟨line, hasks⟩, -, hlast, -⟩ := hready
  have hwf := hasks.wellFormed hnamed
  obtain ⟨_, _, _, _, -, -, -, -, -, hanswers⟩ := Exchange.answer_eq_ok_iff.1 hanswer
  obtain ⟨user, hrequest⟩ := Response.answers_dispensed.1 hanswers
  obtain ⟨e, he, hsealed, hplaintext, hrespond⟩ := h.answer hphase hgenuine hanswer
  rw [hrequest] at hasks hwf hplaintext hrespond
  have hin : x.atm.session.user? = some user := by
    cases hasks with
    | withdraw _ hin => exact hin
  obtain ⟨_, rest, hsame, hwithdraw⟩ := Bank.respond_dispensed (congrArg Prod.fst hrespond)
  obtain ⟨rfl, -⟩ := Request.withdraw.inj hsame
  rw [congrArg Prod.snd hrespond] at hwithdraw
  obtain ⟨hpos, balance, hb, hle, hrest, hafter⟩ := Ledger.withdraw_eq_ok_iff.1 hwithdraw
  refine ⟨e, he, ?_, user, amount, hin, rfl, by rw [hsealed], ?_, hpos, balance, rest, hb, hle, hrest, hafter⟩
  · rw [Bank.Execution.sequence, hsealed, hlast]
  · rw [hplaintext, Utf8.decode?_encode, Option.bind_some, Request.ofString?_render hwf]

/-- So does a reply: the cash that it may show is paid for by an execution that has paid for none yet. -/
theorem Covered.receive (h : Covered n) (hsound : Sound n) {x : Exchange} (hphase : n.phase = .waiting x)
    {reply : Except Error (List UInt8)} (hgenuine : n.Genuine (.reply reply)) :
    Covered (n.receive x reply) := by
  have hsettled : n.phase.settled = x.atm.sequencer.last := by rw [hphase]; rfl
  have hle : n.phase.settled ≤ x.atm.sequencer.last + 1 := by omega
  unfold OpenNetwork.receive
  rcases x.receive_cases reply with ⟨e, -, hr⟩ | ⟨user, -, -, hr⟩ | ⟨user, -, -, hr⟩ |
    ⟨response, -, hanswer, hr⟩
  · rw [hr]
    exact h.proceed (.idle _) hle (by simpa using isCash_failure e)
  · rw [hr]
    have hnone : isCash Atm.noSuchUser = false := by decide
    exact h.proceed (.idle _) hle fun line => isCash_withLock (by simpa using hnone)
  · rw [hr]
    obtain ⟨paid, hsub, hpays, hbelow⟩ := h
    exact ⟨paid, hsub, hpays, fun e he => Nat.lt_of_lt_of_le (hbelow e he) hle⟩
  · rw [hr]
    by_cases hcash : ∃ amount, response = .dispensed amount
    · obtain ⟨amount, rfl⟩ := hcash
      obtain ⟨e, he, hsequence, hpay⟩ := hsound.pays hphase hgenuine hanswer
      obtain ⟨paid, hsub, hpays, hbelow⟩ := h
      rw [hsettled] at hbelow
      refine ⟨paid ++ [e], ?_, ?_, ?_⟩
      · exact append_sublist hsound.ordered hsub he fun a ha => by rw [hsequence]; exact hbelow a ha
      · simp only [List.filter_append, Print.all, List.map_cons, List.map_nil, List.filter_cons,
          isCash_dispensed, if_true, List.filter_nil]
        exact List.rel_append hpays (.cons hpay .nil)
      · intro a ha
        show a.sequence < x.atm.sequencer.last + 1
        rcases List.mem_append.1 ha with ha | ha
        · have := hbelow a ha
          omega
        · obtain rfl := List.mem_singleton.1 ha
          omega
    · have hother : ∀ amount, response ≠ .dispensed amount := fun amount heq => hcash ⟨amount, heq⟩
      exact h.proceed (.idle _) hle (by simpa using isCash_render hother)

/-- So does every event. -/
theorem Covered.step (h : Covered n) (hsound : Sound n) {event : Event} (hgenuine : n.Genuine event) :
    Covered (n.step event) := by
  cases event with
  | line text =>
    cases hphase : n.phase with
    | idle atm =>
      simp only [OpenNetwork.step, hphase]
      exact h.submit hphase text
    | waiting x | asking login => simpa only [OpenNetwork.step, hphase] using h
  | reply reply =>
    cases hphase : n.phase with
    | waiting x =>
      simp only [OpenNetwork.step, hphase]
      exact h.receive hsound hphase hgenuine
    | idle atm | asking login => simpa only [OpenNetwork.step, hphase] using h
  | pin files typed =>
    cases hphase : n.phase with
    | asking login =>
      simp only [OpenNetwork.step, hphase]
      have hsettled : n.phase.settled = login.atm.sequencer.last + 1 := by rw [hphase]; rfl
      refine h.proceed (.idle _) ?_ fun line => isCash_enter
      exact Nat.le_of_eq (by rw [hsettled, Phase.settled, login.sequencer_enter])
    | idle atm | waiting x => simpa only [OpenNetwork.step, hphase] using h
  | bank event =>
    -- the Bank only adds to what it has executed
    obtain ⟨paid, hsub, hpays, hbelow⟩ := h
    exact ⟨paid, hsub.trans (List.sublist_append_left ..), hpays, hbelow⟩

/-- So does every unforged run. -/
theorem Covered.run (h : Covered n) (hsound : Sound n) {events : List Event}
    (hgenuine : n.Unforged events) : Covered (n.run events) := by
  induction events generalizing n with
  | nil => exact h
  | cons event rest ih => exact ih (h.step hsound hgenuine.1) (hsound.step hgenuine.1) hgenuine.2

/-- **Cash shown never exceeds money debited, whatever the network does.**  Take an ATM and a Bank with
the same keys, and any run of both in which no frame is forged. The Bank executes no request twice, and
the lines `$n dispensed` of the ATM match executions one by one: each is printed for a request that the
Bank has executed, as the withdrawal of `n` by the user who is logged in, and that has lowered this
user's balance by `n` and changed no other. So what a user is shown is at most what the user is debited.

The Bank may have a past. The ATM may have one too, as long as the user who is logged in has a user name
for a name. -/
theorem cash_covered {atm : Atm} {branch : Branch} (hkeys : branch.bank.keys = atm.keys)
    (hnamed : ∀ user, atm.session.user? = some user → Credential.isUserName user = true)
    {events : List Event} (hgenuine : (start atm branch).Unforged events) :
    let n := (start atm branch).run events
    (n.executed.Pairwise fun a b => a.sequence < b.sequence) ∧
      (∃ paid : List Execution, paid.Sublist n.executed ∧
        List.Forall₂ Pays (n.printed.filter fun p => isCash p.line) paid) ∧
      ∀ user, shown user n.printed ≤ debited user n.executed := by
  intro n
  have hstart := sound_start hkeys hnamed
  have hsound : Sound n := hstart.run hgenuine
  have hcovered : Covered (start atm branch) := ⟨[], List.Sublist.refl _, .nil, by simp⟩
  obtain ⟨paid, hsub, hpays, -⟩ : Covered n := hcovered.run hstart hgenuine
  refine ⟨hsound.ordered, ⟨paid, hsub, hpays⟩, fun user => ?_⟩
  calc shown user n.printed = total (Execution.debits user) paid :=
        total_eq_of_forall₂ (fun p e hpay => hpay.shows_eq user) hpays
    _ ≤ debited user n.executed :=
        total_le_of_sublist hsub fun e he => (hsound.honest e he).debits_nonneg user

/-- One withdrawal of 5 by the user `a`, who has 100, over a network that loses nothing. -/
theorem cash_covered_withdrawal :
    ∃ (atm : Atm) (branch : Branch) (events : List Event),
      branch.bank.keys = atm.keys ∧ (start atm branch).Unforged events ∧
        shown "a" ((start atm branch).run events).printed = 5 ∧
        5 ≤ debited "a" ((start atm branch).run events).executed := by
  let keys : Keys := ⟨Bytes.zero 32, Bytes.zero 32⟩
  let atm : Atm := { keys, cards := ⟨⟨"."⟩⟩, session := { user? := some "a" },
                     sequencer := { start := Bytes.zero 4, last := 0 } }
  let branch : Branch := { bank := { keys, cards := ⟨⟨"."⟩⟩, ledger := Ledger.empty.setBalance "a" 100 },
                           files := {} }
  have hnamed : ∀ user, atm.session.user? = some user → Credential.isUserName user = true := by
    intro user hin
    obtain rfl := Option.some.inj hin
    decide
  have hwf : (Request.withdraw "a" 5).WellFormed := ⟨by decide, by decide⟩
  have hrange : branch.bank.ledger.InRange := Ledger.inRange_empty.setBalance (by decide)
  obtain ⟨bytes, x, hsend, hx⟩ := atm.exists_send (by decide) hwf
  obtain ⟨hnew, reply, hhandle, hanswer⟩ := hx.exchanged hwf rfl hrange (Nat.le_refl 0) (Bytes.zero 12)
  have hrespond : (Bank.respond branch.bank.ledger (.withdraw "a" 5)).1 = .dispensed 5 := by decide
  have hsubmit : atm.submit "withdraw 5" = .send bytes x := by
    rw [← hsend]
    rfl
  have hreceive : x.receive (.ok reply) = .done [(Response.dispensed 5).render] x.atm := by
    rw [hrespond] at hanswer
    simp only [Exchange.receive, hanswer, hx.request_eq]
  let e : Execution := {
    request := x.sealed
    plaintext := Utf8.encode (Request.withdraw "a" 5).render
    before := branch.bank.ledger
    after := (branch.bank.handle (Bytes.zero 12) bytes).2.ledger
    reply := (branch.bank.handle (Bytes.zero 12) bytes).1 }
  have hexec : branch.bank.execution? (Bytes.zero 12) bytes = some e := by
    simp only [Bank.execution?, hnew, Option.map_some, e]
  let n₁ : OpenNetwork := { phase := .waiting x, branch, sent := [x.sealed] }
  have h₁ : (start atm branch).step (.line "withdraw 5") = n₁ := by
    simp [step, start, submit, hsubmit, n₁]
  let n₂ : OpenNetwork := { n₁ with
    branch := branch.step (.datagram (Bytes.zero 12) bytes)
    executed := [e] }
  have h₂ : n₁.step (.bank (.datagram (Bytes.zero 12) bytes)) = n₂ := by
    simp [step, Branch.execution?, hexec, n₁, n₂]
  let n₃ : OpenNetwork := { n₂ with
    phase := .idle x.atm
    printed := Print.all x.atm.session.user? (some x.sealed) [(Response.dispensed 5).render] }
  have h₃ : n₂.step (.reply (.ok reply)) = n₃ := by
    simp [step, receive, hreceive, n₁, n₂, n₃]
  let events : List Event :=
    [.line "withdraw 5", .bank (.datagram (Bytes.zero 12) bytes), .reply (.ok reply)]
  have hrun : (start atm branch).run events = n₃ := by
    simp only [events, run_cons, run_nil, h₁, h₂, h₃]
  have hgenuine : (start atm branch).Unforged events := by
    simp only [events, Unforged, h₁, h₂]
    refine ⟨trivial, fun request plaintext hopen => ?_, ?_, trivial⟩
    · obtain ⟨hopens, -⟩ := Bank.newRequest?_eq_some_iff.1 hnew
      obtain ⟨rfl, -⟩ := Prod.mk.inj (Except.ok.inj (hopens.symm.trans hopen))
      exact List.mem_singleton_self _
    · intro y hy frame plaintext hdecode _
      obtain rfl : x = y := Phase.waiting.inj hy
      exact ⟨e, List.mem_singleton_self _, rfl, rfl, reply, congrArg Prod.fst hhandle, hdecode⟩
  have hshown : shown "a" n₃.printed = 5 := by
    have hin : x.atm.session.user? = some "a" := by rw [hx.session_eq]
    have hfive : 0 ≤ (5 : Amount).toInt := by decide
    have hpos : (Response.dispensed 5).InRange := hfive
    simp only [n₃, hin, shown, Print.all, List.map_cons, List.map_nil, List.filter_cons, isCash_dispensed,
      if_true, List.filter_nil, total, Print.shows, Response.ofString?_render hpos]
    decide
  refine ⟨atm, branch, events, rfl, hgenuine, by rw [hrun, hshown], ?_⟩
  have hle := (cash_covered rfl hnamed hgenuine).2.2 "a"
  rw [hrun, hshown] at hle
  rw [hrun]
  exact hle

end OpenNetwork
end Cashpoint
