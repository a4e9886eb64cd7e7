/-
# Every answer is the Bank's, and to this very request

`Sound` holds in every state of an unforged run: the requests that the ATM has sealed
carry growing sequence numbers, the Bank executes some of them, each once and in their
order, and the ATM waits for the one it has sealed last (`Sound.run`).

It follows that an answer which the ATM takes is what the Bank responded when it
executed the request that the ATM waits for, whatever reached the two in between
(`Sound.answer`).
-/

import Cashpoint.Proofs.Network.Exchange
import Cashpoint.Proofs.Network.Open

namespace Cashpoint

open Bank (Execution)

/-- What holds of an ATM in the middle of a turn: it asks for what a line has asked for, and a request
that it waits for is the one it has sealed last. -/
def Phase.Ready (sent : List Frame) : Phase → Prop
  | .idle _ => True
  | .waiting x => (∃ line, Atm.Asks x.atm.session line x.request) ∧ x.sealed ∈ sent ∧
      x.sealed.sequence = x.atm.sequencer.last ∧
      x.sealed.openPlain x.atm.keys.messageKey = .ok (Utf8.encode x.request.render)
  | .asking login => ∃ line, Atm.Asks login.atm.session line (.beginSession login.user)

namespace OpenNetwork

/-- What holds in every state of an unforged run. -/
structure Sound (n : OpenNetwork) : Prop where
  keys_eq : n.phase.atm.keys = n.branch.bank.keys
  named : ∀ user, n.phase.atm.session.user? = some user → Credential.isUserName user = true
  ready : n.phase.Ready n.sent
  /-- The sequence numbers of what was sealed grow, up to the one issued last. -/
  numbered : n.sent.Pairwise fun a b => a.sequence < b.sequence
  sent_le : ∀ frame ∈ n.sent, frame.sequence ≤ n.phase.atm.sequencer.last
  /-- The sequence numbers of what was executed grow, up to the mark. -/
  ordered : n.executed.Pairwise fun a b => a.sequence < b.sequence
  executed_le : ∀ e ∈ n.executed, e.sequence ≤ n.branch.bank.highWater
  executed_sent : ∀ e ∈ n.executed, e.request ∈ n.sent
  honest : ∀ e ∈ n.executed, e.Honest n.branch.bank.keys.messageKey

/-- Two parties with the same keys are sound before anything has happened. -/
theorem sound_start {atm : Atm} {branch : Branch} (hkeys : branch.bank.keys = atm.keys)
    (hnamed : ∀ user, atm.session.user? = some user → Credential.isUserName user = true) :
    Sound (start atm branch) where
  keys_eq := hkeys.symm
  named := hnamed
  ready := trivial
  numbered := List.Pairwise.nil
  sent_le := by simp [start]
  ordered := List.Pairwise.nil
  executed_le := by simp [start]
  executed_sent := by simp [start]
  honest := by simp [start]

variable {n : OpenNetwork}

/-- Two requests that were sealed under one number are one. -/
theorem Sound.eq_of_sequence (h : Sound n) {a b : Frame} (ha : a ∈ n.sent) (hb : b ∈ n.sent)
    (heq : a.sequence = b.sequence) : a = b := by
  refine List.Pairwise.forall_of_forall_of_flip (R := fun a b => a.sequence = b.sequence → a = b)
    (fun _ _ _ => rfl) (h.numbered.imp fun hlt heq => ?_) (h.numbered.imp fun hlt heq => ?_) ha hb heq
  · omega
  · omega

/-! ## The ATM's part -/

/-- The ATM goes on without sending anything. -/
theorem Sound.proceed (h : Sound n) (phase : Phase) (hkeys : phase.atm.keys = n.phase.atm.keys)
    (hnamed : ∀ user, phase.atm.session.user? = some user → Credential.isUserName user = true)
    (hready : phase.Ready n.sent) (hlast : n.phase.atm.sequencer.last ≤ phase.atm.sequencer.last)
    (printed : List Print) : Sound { n with phase, printed } where
  keys_eq := hkeys.trans h.keys_eq
  named := hnamed
  ready := hready
  numbered := h.numbered
  sent_le frame hf := Nat.le_trans (h.sent_le frame hf) hlast
  ordered := h.ordered
  executed_le := h.executed_le
  executed_sent := h.executed_sent
  honest := h.honest

/-- The ATM sends a request under the next number. -/
theorem Sound.send (h : Sound n) {request : Request} {line : String} {datagram : List UInt8} {x : Exchange}
    (hasks : Atm.Asks n.phase.atm.session line request) (hx : n.phase.atm.Sends request datagram x) :
    Sound { n with phase := .waiting x, sent := n.sent ++ [x.sealed] } := by
  have hsequence : x.sealed.sequence = n.phase.atm.sequencer.last + 1 := hx.sequence_eq.trans hx.last_eq
  exact {
    keys_eq := hx.keys_eq.trans h.keys_eq
    named := fun user hin => h.named user (hx.session_eq ▸ hin)
    ready := by
      refine ⟨⟨line, ?_⟩, by simp, hx.sequence_eq, ?_⟩
      · rw [hx.session_eq, hx.request_eq]
        exact hasks
      · rw [hx.keys_eq, hx.request_eq]
        exact hx.opens
    numbered := by
      refine List.pairwise_append.2 ⟨h.numbered, List.pairwise_singleton _ _, fun a ha b hb => ?_⟩
      obtain rfl := List.mem_singleton.1 hb
      have := h.sent_le a ha
      omega
    sent_le := by
      intro frame hf
      have hlast : x.atm.sequencer.last = n.phase.atm.sequencer.last + 1 := hx.last_eq
      show frame.sequence ≤ x.atm.sequencer.last
      rcases List.mem_append.1 hf with hf | hf
      · have := h.sent_le frame hf
        omega
      · obtain rfl := List.mem_singleton.1 hf
        omega
    ordered := h.ordered
    executed_le := h.executed_le
    executed_sent := fun e he => List.mem_append_left _ (h.executed_sent e he)
    honest := h.honest }

/-- The turn is over, and nobody was logged in by it. -/
theorem Sound.settle (h : Sound n) {next : Atm} (hsettles : n.phase.atm.Settles next) (printed : List Print) :
    Sound { n with phase := .idle next, printed } :=
  h.proceed (.idle next) hsettles.keys_eq (fun user hin => h.named user (hsettles.user?_of user hin)) trivial
    hsettles.last_le printed

/-- A line at the ATM keeps the invariant. -/
theorem Sound.submit (h : Sound n) {atm : Atm} (hphase : n.phase = .idle atm) (text : String) :
    Sound (n.submit atm text) := by
  obtain rfl : n.phase.atm = atm := by rw [hphase]; rfl
  unfold OpenNetwork.submit
  rcases n.phase.atm.submit_sends_or_settles text with
    ⟨request, datagram, x, hasks, hsend, hx⟩ | ⟨lines, next, hdone, hsettles⟩
  · rw [hsend]
    exact h.send hasks hx
  · rw [hdone]
    exact h.settle hsettles _

/-- So does a reply, whatever it is. -/
theorem Sound.receive (h : Sound n) {x : Exchange} (hphase : n.phase = .waiting x)
    (reply : Except Error (List UInt8)) : Sound (n.receive x reply) := by
  have hatm : n.phase.atm = x.atm := by rw [hphase]; rfl
  have hready := h.ready
  rw [hphase] at hready
  obtain ⟨⟨line, hasks⟩, -⟩ := hready
  have hkeys : x.atm.keys = n.phase.atm.keys := by rw [hatm]
  have hlast : n.phase.atm.sequencer.last ≤ x.atm.sequencer.last := Nat.le_of_eq (by rw [hatm])
  unfold OpenNetwork.receive
  rcases x.receive_confirms_or_settles reply with ⟨user, hq, -, hr⟩ | ⟨lines, next, hr, hsettles⟩
  · rw [hr]
    rw [hq] at hasks
    have hnamed := h.named
    rw [hatm] at hnamed
    exact h.proceed (.asking { atm := x.atm, user }) hkeys hnamed ⟨line, hasks⟩ hlast _
  · rw [hr]
    exact h.settle (hatm ▸ hsettles) _

/-- So does the PIN prompt. -/
theorem Sound.enter (h : Sound n) {login : Login} (hphase : n.phase = .asking login) (files : FileTree)
    (typed : Option String) : Sound (n.enter login files typed) := by
  have hatm : n.phase.atm = login.atm := by rw [hphase]; rfl
  have hnamed := h.named
  rw [hatm] at hnamed
  have hready := h.ready
  rw [hphase] at hready
  obtain ⟨line, hasks⟩ := hready
  have hkeys : login.atm.keys = n.phase.atm.keys := by rw [hatm]
  have hlast : n.phase.atm.sequencer.last ≤ login.atm.sequencer.last := Nat.le_of_eq (by rw [hatm])
  have hname : Credential.isUserName login.user = true := hasks.wellFormed hnamed
  cases hasks with
  | beginSession _ hout hopen =>
    unfold OpenNetwork.enter
    rcases login.enter_admits_or_settles files typed hout hopen with ⟨-, he⟩ | hsettles
    · rw [he]
      refine h.proceed (.idle { login.atm with session := { login.atm.session with user? := some login.user } })
        hkeys (fun user hin => ?_) trivial hlast _
      obtain rfl := Option.some.inj hin
      exact hname
    · exact h.settle (hatm ▸ hsettles) _

/-! ## The Bank's part -/

/-- So does what happens at the Bank, as long as it opens nothing but requests of the ATM. -/
theorem Sound.bank (h : Sound n) {event : Bank.Event} (hgenuine : n.Genuine (.bank event)) :
    Sound (n.step (.bank event)) := by
  have hkeys : (n.branch.step event).bank.keys = n.branch.bank.keys := n.branch.keys_step event
  cases hexec : n.branch.execution? event with
  | none =>
    simp only [step, hexec, Option.toList_none, List.append_nil]
    exact {
      keys_eq := h.keys_eq.trans hkeys.symm
      named := h.named
      ready := h.ready
      numbered := h.numbered
      sent_le := h.sent_le
      ordered := h.ordered
      executed_le := by
        rw [(Branch.step_of_no_execution hexec).1]
        exact h.executed_le
      executed_sent := h.executed_sent
      honest := by
        rw [hkeys]
        exact h.honest }
  | some new =>
    obtain ⟨habove, hmark, -, -⟩ := Branch.step_of_execution hexec
    obtain ⟨replyIv, bytes, rfl, hnew, -, -, -⟩ := Branch.execution?_eq_some hexec
    have hsent : new.request ∈ n.sent := hgenuine _ _ (Bank.newRequest?_eq_some_iff.1 hnew).1
    simp only [step, hexec, Option.toList_some]
    exact {
      keys_eq := h.keys_eq.trans hkeys.symm
      named := h.named
      ready := h.ready
      numbered := h.numbered
      sent_le := h.sent_le
      ordered := by
        refine List.pairwise_append.2 ⟨h.ordered, List.pairwise_singleton _ _, fun a ha b hb => ?_⟩
        obtain rfl := List.mem_singleton.1 hb
        exact Nat.lt_of_le_of_lt (h.executed_le a ha) habove
      executed_le := by
        intro e he
        rw [hmark]
        rcases List.mem_append.1 he with he | he
        · exact Nat.le_of_lt (Nat.lt_of_le_of_lt (h.executed_le e he) habove)
        · obtain rfl := List.mem_singleton.1 he
          exact Nat.le_refl _
      executed_sent := by
        intro e he
        rcases List.mem_append.1 he with he | he
        · exact h.executed_sent e he
        · obtain rfl := List.mem_singleton.1 he
          exact hsent
      honest := by
        intro e he
        rw [hkeys]
        rcases List.mem_append.1 he with he | he
        · exact h.honest e he
        · obtain rfl := List.mem_singleton.1 he
          exact Bank.honest_of_execution hexec }

/-- **Every event keeps the invariant.** -/
theorem Sound.step (h : Sound n) {event : Event} (hgenuine : n.Genuine event) : Sound (n.step event) := by
  cases event with
  | line text =>
    cases hphase : n.phase with
    | idle atm =>
      simp only [OpenNetwork.step, hphase]
      exact h.submit hphase text
    | waiting x | asking login => simpa only [OpenNetwork.step, hphase] using h
  | reply reply =>
    cases hphase : n.phase with
    | waiting x =>
      simp only [OpenNetwork.step, hphase]
      exact h.receive hphase reply
    | idle atm | asking login => simpa only [OpenNetwork.step, hphase] using h
  | pin files typed =>
    cases hphase : n.phase with
    | asking login =>
      simp only [OpenNetwork.step, hphase]
      exact h.enter hphase files typed
    | idle atm | waiting x => simpa only [OpenNetwork.step, hphase] using h
  | bank event => exact h.bank hgenuine

/-- So does every unforged run. -/
theorem Sound.run (h : Sound n) {events : List Event} (hgenuine : n.Unforged events) :
    Sound (n.run events) := by
  induction events generalizing n with
  | nil => exact h
  | cons event rest ih => exact ih (h.step hgenuine.1) hgenuine.2

/-! ## The answer -/

/-- **An answer that the ATM takes is the Bank's response to the request that the ATM waits for**, as it
executed it. -/
theorem Sound.answer (h : Sound n) {x : Exchange} (hphase : n.phase = .waiting x)
    {reply : Except Error (List UInt8)} (hgenuine : n.Genuine (.reply reply)) {response : Response}
    (hanswer : x.answer reply = .ok response) :
    ∃ e ∈ n.executed, e.request = x.sealed ∧ e.plaintext = Utf8.encode x.request.render ∧
      Bank.respond e.before x.request = (response, e.after) := by
  have hatm : n.phase.atm = x.atm := by rw [hphase]; rfl
  have hkeys := h.keys_eq
  have hnamed := h.named
  have hready := h.ready
  rw [hatm] at hkeys hnamed
  rw [hphase] at hready
  obtain ⟨⟨line, hasks⟩, hmem, -, hopens⟩ := hready
  obtain ⟨bytes, frame, plaintext, _, rfl, hdecode, hopen, -⟩ := Exchange.answer_eq_ok_iff.1 hanswer
  obtain ⟨e, he, hiv, htag, datagram, hreply, hsealed⟩ := hgenuine x hphase frame plaintext hdecode hopen
  have hrequest : e.request = x.sealed :=
    h.eq_of_sequence (h.executed_sent e he) hmem (by rw [Frame.sequence, Frame.sequence, hiv])
  have hhonest := h.honest e he
  rw [← hkeys] at hhonest
  exact ⟨e, he, hrequest, Exchange.respond_of_answer hhonest hrequest hopens (hasks.wellFormed hnamed) hreply
    hsealed hdecode hanswer⟩

end OpenNetwork
end Cashpoint
