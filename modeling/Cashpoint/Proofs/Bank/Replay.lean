/-
# At most one execution per request

The mark of a Bank and what it remembers are functions of its executions: the mark is
the sequence number of the last one (`highWater_run`), the memory holds its vector, its
tag and its reply (`last?_run`), and the sequence numbers of the executions grow
(`executions_increasing`). No assumption on the traffic is needed for any of them.

So a request that was answered once is never executed again. While no other has been
executed it gets the same reply, and after that it is refused (`executions_at_most_once`).
-/

import Cashpoint.Proofs.Bank.Run
import Cashpoint.Sequencer

namespace Cashpoint
namespace Branch

open Bank (Event Execution)

/-! ## One event -/

/-- What is executed is a new request in a datagram. -/
theorem execution?_eq_some {b : Branch} {event : Event} {e : Execution}
    (h : b.execution? event = some e) :
    ∃ replyIv bytes, event = .datagram replyIv bytes ∧
      b.bank.newRequest? bytes = some (e.request, e.plaintext) ∧
      e.before = b.bank.ledger ∧ e.after = (b.bank.handle replyIv bytes).2.ledger ∧
      e.reply = (b.bank.handle replyIv bytes).1 := by
  cases event with
  | line cardIv text => simp [execution?] at h
  | change files => simp [execution?] at h
  | datagram replyIv bytes =>
    obtain ⟨⟨request, plaintext⟩, hnew, rfl⟩ := Option.map_eq_some_iff.1 h
    exact ⟨replyIv, bytes, rfl, hnew, rfl, rfl, rfl⟩

/-- **What an execution leaves behind**: its sequence number as the mark, which was below it, and its
reply as the memory. -/
theorem step_of_execution {b : Branch} {event : Event} {e : Execution}
    (h : b.execution? event = some e) :
    b.bank.highWater < e.sequence ∧ (b.step event).bank.highWater = e.sequence ∧
      (b.step event).bank.last? = e.answered? ∧ ∃ reply, e.reply = .ok reply := by
  obtain ⟨replyIv, bytes, rfl, hnew, -, -, hr⟩ := execution?_eq_some h
  obtain ⟨reply, -, hhandle⟩ := Bank.handle_of_newRequest hnew replyIv
  rw [hhandle] at hr
  refine ⟨(Bank.newRequest?_eq_some_iff.1 hnew).2, ?_, ?_, reply, hr⟩
  · simp only [step, hhandle]
    rfl
  · simp only [step, hhandle, Execution.answered?, hr]
    rfl

/-- **An event without an execution keeps the mark and the memory.** -/
theorem step_of_no_execution {b : Branch} {event : Event} (h : b.execution? event = none) :
    (b.step event).bank.highWater = b.bank.highWater ∧ (b.step event).bank.last? = b.bank.last? := by
  cases event with
  | line cardIv text =>
    rw [bank_step_line]
    exact ⟨rfl, rfl⟩
  | change files => exact ⟨rfl, rfl⟩
  | datagram replyIv bytes =>
    have hnew : b.bank.newRequest? bytes = none := Option.map_eq_none_iff.1 h
    have hkeep := Bank.handle_of_not_newRequest hnew replyIv
    exact ⟨congrArg Bank.highWater hkeep, congrArg Bank.last? hkeep⟩

/-! ## A run -/

/-- **The sequence numbers grow**, from the mark at the start on. -/
theorem executions_increasing (b : Branch) (events : List Event) :
    (b.bank.highWater :: (b.executions events).map Execution.sequence).Pairwise (· < ·) := by
  induction events generalizing b with
  | nil => simp [executions]
  | cons event rest ih =>
    have hrest := ih (b.step event)
    cases h : b.execution? event with
    | none =>
      rw [(step_of_no_execution h).1] at hrest
      simpa [executions, h] using hrest
    | some e =>
      obtain ⟨habove, hmark, -⟩ := step_of_execution h
      rw [hmark] at hrest
      have hall : ∀ n ∈ ((b.step event).executions rest).map Execution.sequence, e.sequence < n :=
        (List.pairwise_cons.1 hrest).1
      rw [executions, h, Option.toList_some, List.singleton_append, List.map_cons, List.pairwise_cons]
      refine ⟨fun n hn => ?_, hrest⟩
      rcases List.mem_cons.1 hn with rfl | hn
      · exact habove
      · exact Nat.lt_trans habove (hall n hn)

/-- **The mark is the last sequence number executed.** -/
theorem highWater_run (b : Branch) (events : List Event) :
    (b.run events).bank.highWater =
      ((b.executions events).getLast?.map Execution.sequence).getD b.bank.highWater := by
  induction events generalizing b with
  | nil => rfl
  | cons event rest ih =>
    rw [run_cons, ih, executions]
    cases h : b.execution? event with
    | none => simp [(step_of_no_execution h).1]
    | some e =>
      rw [(step_of_execution h).2.1]
      cases hl : ((b.step event).executions rest).getLast? <;> simp [List.getLast?_cons, hl]

/-- **The memory is that of the last execution.** -/
theorem last?_run (b : Branch) (events : List Event) :
    (b.run events).bank.last? =
      ((b.executions events).getLast?.map Execution.answered?).getD b.bank.last? := by
  induction events generalizing b with
  | nil => rfl
  | cons event rest ih =>
    rw [run_cons, ih, executions]
    cases h : b.execution? event with
    | none => simp [(step_of_no_execution h).2]
    | some e =>
      rw [(step_of_execution h).2.2.1]
      cases hl : ((b.step event).executions rest).getLast? <;> simp [List.getLast?_cons, hl]

/-- Every execution is answered. -/
theorem reply_of_mem_executions {b : Branch} {events : List Event} {e : Execution}
    (h : e ∈ b.executions events) : ∃ reply, e.reply = .ok reply := by
  induction events generalizing b with
  | nil => simp [executions] at h
  | cons event rest ih =>
    rcases List.mem_append.1 h with h | h
    · exact (step_of_execution (Option.mem_toList.1 h)).2.2.2
    · exact ih h

/-! ## The same datagram again -/

/-- A request that was answered: the mark has reached it, and the memory holds its reply. -/
def Holds (b : Branch) (request : Frame) (reply : List UInt8) : Prop :=
  request.sequence ≤ b.bank.highWater ∧
    b.bank.last? = some { iv := request.iv, tag := request.tag, reply }

/-- **Every datagram that gets a reply is held from then on.** -/
theorem holds_of_reply {b : Branch} {replyIv : Bytes 12} {bytes reply : List UInt8}
    (h : (b.bank.handle replyIv bytes).1 = .ok reply) :
    ∃ request plaintext, b.bank.openRequest bytes = .ok (request, plaintext) ∧
      (b.step (.datagram replyIv bytes)).Holds request reply := by
  cases hopen : b.bank.openRequest bytes with
  | error e => simp [Bank.handle, hopen] at h
  | ok opened =>
    obtain ⟨request, plaintext⟩ := opened
    refine ⟨request, plaintext, rfl, ?_⟩
    by_cases hold : request.sequence ≤ b.bank.highWater
    · have hhandle := Bank.handle_of_old hopen hold replyIv
      rw [hhandle] at h
      refine ⟨?_, ?_⟩
      · simpa only [step, hhandle] using hold
      · -- the memory must be of this very request, or nothing would have come back
        simp only [step, hhandle]
        simp only [Bank.repeatLast] at h
        split at h
        · rename_i last hlast
          split at h
          · rename_i hsame
            obtain rfl := Except.ok.inj h
            rw [hlast, ← hsame.1, ← hsame.2]
          · simp at h
        · simp at h
    · have hnew : b.bank.newRequest? bytes = some (request, plaintext) :=
        Bank.newRequest?_eq_some_iff.2 ⟨hopen, Nat.not_le.1 hold⟩
      obtain ⟨sent, -, hhandle⟩ := Bank.handle_of_newRequest hnew replyIv
      rw [hhandle] at h
      obtain rfl := Except.ok.inj h
      simp [Holds, step, hhandle]

/-- The reply that a Bank holds for a request is sent again whenever that request comes. -/
theorem Holds.repeated {b : Branch} {request : Frame} {plaintext reply bytes : List UInt8}
    (h : b.Holds request reply) (hopen : b.bank.openRequest bytes = .ok (request, plaintext))
    (replyIv : Bytes 12) : b.bank.handle replyIv bytes = (.ok reply, b.bank) := by
  rw [Bank.handle_of_old hopen h.1]
  simp [Bank.repeatLast, h.2]

/-- The vectors of two requests with different sequence numbers differ. -/
theorem iv_ne_of_sequence_ne {a b : Frame} (h : a.sequence ≠ b.sequence) : a.iv ≠ b.iv := by
  intro hiv
  exact h (by rw [Frame.sequence, Frame.sequence, hiv])

/-- A request below the mark is refused once the memory is of a request with another number. -/
theorem refused_of_last {b : Branch} {request : Frame} {plaintext bytes : List UInt8} {e : Execution}
    (hopen : b.bank.openRequest bytes = .ok (request, plaintext))
    (hmark : b.bank.highWater = e.sequence) (hlast : b.bank.last? = e.answered?)
    (hbelow : request.sequence < e.sequence) (replyIv : Bytes 12) :
    b.bank.handle replyIv bytes = (.error (.replayed request.sequence), b.bank) := by
  rw [Bank.handle_of_old hopen (by omega)]
  have hne : e.request.iv ≠ request.iv := iv_ne_of_sequence_ne (Nat.ne_of_gt hbelow)
  simp only [Bank.repeatLast, hlast, Execution.answered?]
  cases e.reply.toOption with
  | none => rfl
  | some reply => simp [hne]

/-- What a datagram opens to does not depend on what happened before. -/
theorem openRequest_run (b : Branch) (events : List Event) (bytes : List UInt8) :
    (b.run events).bank.openRequest bytes = b.bank.openRequest bytes := by
  rw [Bank.openRequest, Bank.openRequest, keys_run]

/-- **What an answered datagram leads to when it comes again**: the Bank stays as it is, and sends the same
reply if nothing was executed in between, or none. -/
theorem handle_again {b : Branch} {replyIv : Bytes 12} {bytes reply : List UInt8}
    (h : (b.bank.handle replyIv bytes).1 = .ok reply) (between : List Event) (again : Bytes 12) :
    let answered := b.step (.datagram replyIv bytes)
    let later := answered.run between
    later.step (.datagram again bytes) = later ∧
      (answered.executions between = [] → (later.bank.handle again bytes).1 = .ok reply) ∧
      (answered.executions between ≠ [] → ∃ request, Frame.decode bytes = .ok request ∧
        (later.bank.handle again bytes).1 = .error (.replayed request.sequence)) := by
  intro answered later
  obtain ⟨request, plaintext, hopen, hholds⟩ := holds_of_reply h
  have hopen' : later.bank.openRequest bytes = .ok (request, plaintext) := by
    rw [openRequest_run answered between, ← hopen]
    exact openRequest_run b [.datagram replyIv bytes] bytes
  have hmark : later.bank.highWater = _ := highWater_run answered between
  have hlast : later.bank.last? = _ := last?_run answered between
  cases hl : (answered.executions between).getLast? with
  | none =>
    rw [hl] at hmark hlast
    have hstill : later.Holds request reply := ⟨hmark ▸ hholds.1, hlast.trans hholds.2⟩
    have hhandle := hstill.repeated hopen' again
    refine ⟨?_, fun _ => by rw [hhandle], fun hne => absurd (List.getLast?_eq_none_iff.1 hl) hne⟩
    simp only [step, hhandle]
  | some e =>
    have he := List.mem_of_getLast? hl
    have habove : answered.bank.highWater < e.sequence :=
      (List.pairwise_cons.1 (executions_increasing answered between)).1 _ (List.mem_map_of_mem he)
    rw [hl] at hmark hlast
    have hhandle := refused_of_last hopen' hmark hlast (Nat.lt_of_le_of_lt hholds.1 habove) again
    refine ⟨?_, fun hnil => ?_, fun _ => ⟨request, ?_, by rw [hhandle]⟩⟩
    · simp only [step, hhandle]
    · rw [hnil] at he
      simp at he
    · exact (Bank.openRequest_eq_ok_iff.1 hopen).1

/-! ## At most once -/

/-- What the mark and the memory of a Bank tell that has just started: that nothing was executed, or which
execution was the last. -/
theorem run_start_cases (keys : Keys) (cards : CardStore) (files : FileTree) (events : List Event) :
    let b := (start keys cards files).run events
    let done := (start keys cards files).executions events
    (done = [] ∧ b.bank.highWater = 0 ∧ b.bank.last? = none) ∨
      ∃ e ∈ done, ∃ reply, e.reply = .ok reply ∧ 0 < e.sequence ∧ b.bank.highWater = e.sequence ∧
        b.bank.last? = some { iv := e.request.iv, tag := e.request.tag, reply } := by
  intro b done
  have hmark : b.bank.highWater = (done.getLast?.map Execution.sequence).getD 0 := highWater_run _ events
  have hlast : b.bank.last? = (done.getLast?.map Execution.answered?).getD none := last?_run _ events
  cases hl : done.getLast? with
  | none =>
    rw [hl] at hmark hlast
    exact Or.inl ⟨List.getLast?_eq_none_iff.1 hl, hmark, hlast⟩
  | some e =>
    have he : e ∈ done := List.mem_of_getLast? hl
    have hpos : 0 < e.sequence :=
      (List.pairwise_cons.1 (executions_increasing (start keys cards files) events)).1 _ (List.mem_map_of_mem he)
    obtain ⟨reply, hreply⟩ := reply_of_mem_executions he
    rw [hl] at hmark hlast
    refine Or.inr ⟨e, he, reply, hreply, hpos, hmark, ?_⟩
    simp only [hlast, Option.map_some, Option.getD_some, Execution.answered?, hreply, Except.toOption]

/-- **A Bank executes a request at most once, whatever the traffic.**  In every run of a Bank that has
just started, the sequence numbers of its executions grow, the mark is the last of them, and the memory
holds the vector, the tag and the reply of the execution that set the mark.

A datagram that got a reply in a state of the run changes nothing when it comes again. It gets the same
bytes if nothing was executed in between, whatever else happened, and is refused as replayed otherwise. -/
theorem executions_at_most_once (keys : Keys) (cards : CardStore) (files : FileTree)
    (events : List Event) :
    let b := (start keys cards files).run events
    let done := (start keys cards files).executions events
    (done.map Execution.sequence).Pairwise (· < ·) ∧
      b.bank.highWater = (done.getLast?.map Execution.sequence).getD 0 ∧
      (b.bank.highWater = 0 ↔ done = []) ∧
      (b.bank.last? = none ↔ b.bank.highWater = 0) ∧
      (∀ last, b.bank.last? = some last → ∃ e ∈ done, e.sequence = b.bank.highWater ∧
        e.request.iv = last.iv ∧ e.request.tag = last.tag ∧ e.reply = .ok last.reply) ∧
      ∀ replyIv bytes reply, (b.bank.handle replyIv bytes).1 = .ok reply →
        ∀ between again,
          let answered := b.step (.datagram replyIv bytes)
          let later := answered.run between
          later.step (.datagram again bytes) = later ∧
            (answered.executions between = [] → (later.bank.handle again bytes).1 = .ok reply) ∧
            (answered.executions between ≠ [] → ∃ request, Frame.decode bytes = .ok request ∧
              (later.bank.handle again bytes).1 = .error (.replayed request.sequence)) := by
  intro b done
  have hgrow := executions_increasing (start keys cards files) events
  have hcases : (done = [] ∧ b.bank.highWater = 0 ∧ b.bank.last? = none) ∨
      ∃ e ∈ done, ∃ reply, e.reply = .ok reply ∧ 0 < e.sequence ∧ b.bank.highWater = e.sequence ∧
        b.bank.last? = some { iv := e.request.iv, tag := e.request.tag, reply } :=
    run_start_cases keys cards files events
  refine ⟨(List.pairwise_cons.1 hgrow).2, highWater_run _ events, ?_, ?_, ?_, ?_⟩
  · -- the mark is 0 only where nothing has been executed
    rcases hcases with ⟨hnil, hmark, -⟩ | ⟨e, he, -, -, hpos, hmark, -⟩
    · simp [hnil, hmark]
    · rw [hmark]
      constructor
      · omega
      · intro hnil
        rw [hnil] at he
        simp at he
  · rcases hcases with ⟨-, hmark, hlast⟩ | ⟨e, -, reply, -, hpos, hmark, hlast⟩
    · simp [hmark, hlast]
    · simp only [hmark, hlast, reduceCtorEq, false_iff]
      omega
  · intro last h
    rcases hcases with ⟨-, -, hlast⟩ | ⟨e, he, reply, hreply, -, hmark, hlast⟩
    · rw [hlast] at h
      simp at h
    · obtain rfl := Option.some.inj (hlast.symm.trans h)
      exact ⟨e, he, hmark.symm, rfl, rfl, hreply⟩
  · intro replyIv bytes reply hreply between again
    exact handle_again hreply between again

/-- The request with the sequence number 1 that asks for the balance of `a`, answered, and sent again
after a line at the console. -/
theorem executions_at_most_once_resent :
    ∃ bytes reply, let b := start ⟨Bytes.zero 32, Bytes.zero 32⟩ ⟨⟨"."⟩⟩ {}
      (b.bank.handle (Bytes.zero 12) bytes).1 = .ok reply ∧
        let later := (b.step (.datagram (Bytes.zero 12) bytes)).run [.line (Bytes.zero 16) "deposit a 5"]
        later.step (.datagram (Bytes.zero 12) bytes) = later ∧
          (later.bank.handle (Bytes.zero 12) bytes).1 = .ok reply := by
  obtain ⟨request, bytes, hs, -, hopen⟩ :=
    Bank.exists_openRequest (start ⟨Bytes.zero 32, Bytes.zero 32⟩ ⟨⟨"."⟩⟩ {}).bank
      (Sequencer.vector (Bytes.zero 4) 1) (Utf8.encode "balance a") (by decide)
  have hone : request.sequence = 1 := by
    rw [Frame.sequence, Frame.iv_of_sealWith hs, Sequencer.ofBigEndian_drop_vector (by decide)]
  have hnew := Bank.newRequest?_eq_some_iff.2 ⟨hopen, by rw [hone]; decide⟩
  obtain ⟨reply, -, hhandle⟩ := Bank.handle_of_newRequest hnew (Bytes.zero 12)
  have hreply := congrArg Prod.fst hhandle
  have hall := (executions_at_most_once ⟨Bytes.zero 32, Bytes.zero 32⟩ ⟨⟨"."⟩⟩ {} []).2.2.2.2.2
    (Bytes.zero 12) bytes reply hreply [.line (Bytes.zero 16) "deposit a 5"] (Bytes.zero 12)
  exact ⟨bytes, reply, hreply, hall.1, hall.2.1 rfl⟩

end Branch
end Cashpoint
