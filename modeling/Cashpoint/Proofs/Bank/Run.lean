/-
# Runs of a Bank

What happens at a Bank is a sequence of events: lines at its console, datagrams from
its network, and changes that others make to the files. A `Branch` is a Bank among its
files, and its `executions` under a sequence of events are the requests that it
executed, in order.

Every response fits into a frame, so a new request is always answered
(`exists_sealResponse`); `handle_of_newRequest` and `handle_of_not_newRequest` say
everything that a datagram can do.
-/

import Cashpoint.Bank
import Cashpoint.Proofs.Frame.Wire
import Cashpoint.Proofs.Message.RoundTrip

namespace Cashpoint
namespace Bank

/-! ## One datagram -/

/-- The request that a datagram makes a Bank execute, and its plaintext: the datagram is a frame, opens
under the message key and carries a sequence number above the mark. -/
def newRequest? (bank : Bank) (datagram : List UInt8) : Option (Frame × List UInt8) :=
  match bank.openRequest datagram with
  | .ok (request, plaintext) =>
    if bank.highWater < request.sequence then some (request, plaintext) else none
  | .error _ => none

/-- A datagram is a new request if it opens and its number is above the mark. -/
theorem newRequest?_eq_some_iff {bank : Bank} {datagram plaintext : List UInt8} {request : Frame} :
    bank.newRequest? datagram = some (request, plaintext) ↔
      bank.openRequest datagram = .ok (request, plaintext) ∧ bank.highWater < request.sequence := by
  unfold newRequest?
  constructor
  · intro h
    split at h
    · rename_i opened plain hopen
      split at h
      · rename_i habove
        obtain ⟨rfl, rfl⟩ := Prod.mk.inj (Option.some.inj h)
        exact ⟨hopen, habove⟩
      · simp at h
    · simp at h
  · rintro ⟨hopen, habove⟩
    simp only [hopen, if_pos habove]

/-- A datagram opens if it is a frame that opens under the key of the Bank. -/
theorem openRequest_eq_ok_iff {bank : Bank} {datagram plaintext : List UInt8} {request : Frame} :
    bank.openRequest datagram = .ok (request, plaintext) ↔
      Frame.decode datagram = .ok request ∧ request.openPlain bank.keys.messageKey = .ok plaintext := by
  unfold openRequest
  cases hd : Frame.decode datagram with
  | error e => simp [bind, Except.bind]
  | ok frame =>
    cases hp : frame.openPlain bank.keys.messageKey with
    | error e =>
      simp only [bind, Except.bind, hp, reduceCtorEq, Except.ok.injEq, false_iff, not_and]
      rintro rfl h
      simp [hp] at h
    | ok plain =>
      simp only [bind, Except.bind, hp, pure, Except.pure, Except.ok.injEq, Prod.mk.injEq]
      constructor
      · rintro ⟨rfl, rfl⟩
        exact ⟨rfl, hp⟩
      · rintro ⟨rfl, h⟩
        rw [hp] at h
        exact ⟨rfl, Except.ok.inj h⟩

/-- **Every response can be sealed and sent.** -/
theorem exists_sealResponse (bank : Bank) (replyIv : Bytes 12) (request : Frame) (response : Response) :
    ∃ frame datagram,
      Frame.sealReply bank.keys.messageKey replyIv request (Utf8.encode response.render) = .ok frame ∧
        frame.encode = .ok datagram ∧ bank.sealResponse replyIv request response = .ok datagram := by
  have hlen := Response.length_encode_render_le response
  have hsmall : (Utf8.encode response.render).length ≤ Frame.largestPlaintext := by
    simp only [Frame.largestPlaintext]
    omega
  obtain ⟨frame, datagram, hf, hd⟩ :=
    Frame.exists_sealWith hsmall bank.keys.messageKey replyIv request.binding
  refine ⟨frame, datagram, hf, hd, ?_⟩
  simp only [sealResponse, Frame.sealReply, hf, bind, Except.bind, hd]

/-- A plaintext that fits can be brought to a Bank as an authentic datagram, under any vector. -/
theorem exists_openRequest (bank : Bank) (iv : Bytes 12) (plaintext : List UInt8)
    (h : plaintext.length ≤ Frame.largestPlaintext) :
    ∃ request datagram, Frame.sealPlain bank.keys.messageKey iv plaintext = .ok request ∧
      request.encode = .ok datagram ∧ bank.openRequest datagram = .ok (request, plaintext) := by
  obtain ⟨request, datagram, hs, he⟩ := Frame.exists_sealWith h bank.keys.messageKey iv []
  exact ⟨request, datagram, hs, he,
    openRequest_eq_ok_iff.2 ⟨Frame.decode_of_encode he, Frame.openPlain_of_sealPlain hs⟩⟩

/-- **A new request is executed, answered and remembered.** -/
theorem handle_of_newRequest {bank : Bank} {datagram plaintext : List UInt8} {request : Frame}
    (h : bank.newRequest? datagram = some (request, plaintext)) (replyIv : Bytes 12) :
    ∃ reply, bank.sealResponse replyIv request (respondTo bank.ledger plaintext).1 = .ok reply ∧
      bank.handle replyIv datagram = (.ok reply,
        { bank with
          ledger := (respondTo bank.ledger plaintext).2
          highWater := request.sequence
          last? := some { iv := request.iv, tag := request.tag, reply } }) := by
  obtain ⟨hopen, habove⟩ := newRequest?_eq_some_iff.1 h
  obtain ⟨-, reply, -, -, hreply⟩ :=
    exists_sealResponse bank replyIv request (respondTo bank.ledger plaintext).1
  refine ⟨reply, hreply, ?_⟩
  simp only [handle, hopen, if_neg (Nat.not_le.2 habove), run, hreply]

/-- **Any other datagram leaves the Bank as it is.** -/
theorem handle_of_not_newRequest {bank : Bank} {datagram : List UInt8}
    (h : bank.newRequest? datagram = none) (replyIv : Bytes 12) :
    (bank.handle replyIv datagram).2 = bank := by
  unfold handle
  split
  · rfl
  · rename_i request plaintext hopen
    split
    · rfl
    · rename_i habove
      rw [newRequest?_eq_some_iff.2 ⟨hopen, Nat.not_le.1 habove⟩] at h
      simp at h

/-- What a datagram gets that is authentic and not new. -/
theorem handle_of_old {bank : Bank} {datagram plaintext : List UInt8} {request : Frame}
    (h : bank.openRequest datagram = .ok (request, plaintext))
    (hold : request.sequence ≤ bank.highWater) (replyIv : Bytes 12) :
    bank.handle replyIv datagram = (bank.repeatLast request, bank) := by
  simp only [handle, h, if_pos hold]

/-- A datagram touches neither the keys nor the cards. -/
theorem handle_bank (bank : Bank) (replyIv : Bytes 12) (datagram : List UInt8) :
    ∃ ledger highWater last?, (bank.handle replyIv datagram).2 = { bank with ledger, highWater, last? } := by
  cases h : bank.newRequest? datagram with
  | none => exact ⟨bank.ledger, bank.highWater, bank.last?, by rw [handle_of_not_newRequest h]⟩
  | some opened =>
    obtain ⟨_, _, he⟩ := handle_of_newRequest h replyIv
    exact ⟨_, _, _, by rw [he]⟩

/-! ## One line -/

/-- A line touches the ledger of the Bank and nothing else of it. -/
theorem console_bank (bank : Bank) (files : FileTree) (cardIv : Block) (line : String) :
    (bank.console files cardIv line).2.1 =
      { bank with ledger := (bank.console files cardIv line).2.1.ledger } := by
  unfold console
  split
  · rfl
  · rename_i command hcommand
    cases command with
    | createUser user pin opening =>
      simp only [execute, createUser]
      split
      · rfl
      · split
        · rfl
        · split <;> rfl
    | deposit user amount =>
      simp only [execute, deposit]
      split <;> rfl
    | balance user => rfl

/-! ## Events -/

/-- What happens at a Bank. -/
inductive Event
  /-- A line at the console, with the vector of the card that it may make. -/
  | line (cardIv : Block) (text : String)
  /-- A datagram from the network, with the vector of the reply. -/
  | datagram (replyIv : Bytes 12) (bytes : List UInt8)
  /-- Somebody else changes the files. -/
  | change (files : FileTree)

/-- A request that a Bank has executed. -/
structure Execution where
  request : Frame
  plaintext : List UInt8
  /-- The ledger at its arrival. -/
  before : Ledger
  /-- The ledger after it. -/
  after : Ledger
  /-- What came back for it. -/
  reply : Except Error (List UInt8)

namespace Execution

/-- The number of the request. -/
def sequence (e : Execution) : Nat := e.request.sequence

/-- What a Bank remembers of its last execution. -/
def answered? (e : Execution) : Option Answered :=
  e.reply.toOption.map fun reply => { iv := e.request.iv, tag := e.request.tag, reply }

end Execution

/-- What a datagram makes a Bank execute. -/
def execution? (bank : Bank) (replyIv : Bytes 12) (datagram : List UInt8) : Option Execution :=
  (bank.newRequest? datagram).map fun (request, plaintext) => {
    request
    plaintext
    before := bank.ledger
    after := (bank.handle replyIv datagram).2.ledger
    reply := (bank.handle replyIv datagram).1 }

/-- What every execution consists of: the plaintext that the request opens to, the ledger after the
response to it, and that response sealed for the request. -/
structure Execution.Honest (key : Bytes 32) (e : Execution) : Prop where
  opens : e.request.openPlain key = .ok e.plaintext
  after_eq : e.after = (respondTo e.before e.plaintext).2
  replied : ∃ replyIv frame datagram,
    Frame.sealReply key replyIv e.request (Utf8.encode (respondTo e.before e.plaintext).1.render) = .ok frame ∧
      frame.encode = .ok datagram ∧ e.reply = .ok datagram

/-- **The reply opens, for the request, to the text of the response.** -/
theorem Execution.Honest.opens_reply {key : Bytes 32} {e : Execution} (h : e.Honest key) :
    ∃ datagram frame, e.reply = .ok datagram ∧ Frame.decode datagram = .ok frame ∧
      frame.openReply key e.request = .ok (Utf8.encode (respondTo e.before e.plaintext).1.render) := by
  obtain ⟨replyIv, frame, datagram, hs, hencode, hreply⟩ := h.replied
  exact ⟨datagram, frame, hreply, Frame.decode_of_encode hencode, Frame.openReply_of_sealReply hs⟩

/-- Whatever a Bank executes, it executes honestly. -/
theorem honest_of_execution {bank : Bank} {replyIv : Bytes 12} {datagram : List UInt8} {e : Execution}
    (h : bank.execution? replyIv datagram = some e) : e.Honest bank.keys.messageKey := by
  obtain ⟨⟨request, plaintext⟩, hnew, rfl⟩ := Option.map_eq_some_iff.1 h
  obtain ⟨reply, hreply, hhandle⟩ := handle_of_newRequest hnew replyIv
  obtain ⟨frame, sealed, hs, he, hsealed⟩ :=
    exists_sealResponse bank replyIv request (respondTo bank.ledger plaintext).1
  obtain rfl : sealed = reply := Except.ok.inj (hsealed.symm.trans hreply)
  exact {
    opens := (openRequest_eq_ok_iff.1 (newRequest?_eq_some_iff.1 hnew).1).2
    after_eq := by simp only [hhandle]
    replied := ⟨replyIv, frame, sealed, hs, he, by simp only [hhandle]⟩ }

/-- An execution is from one ledger to the next. -/
theorem ledger_of_execution {bank : Bank} {replyIv : Bytes 12} {datagram : List UInt8} {e : Execution}
    (h : bank.execution? replyIv datagram = some e) :
    e.before = bank.ledger ∧ e.after = (bank.handle replyIv datagram).2.ledger := by
  obtain ⟨opened, -, rfl⟩ := Option.map_eq_some_iff.1 h
  exact ⟨rfl, rfl⟩

end Bank

/-- A Bank among its files. -/
structure Branch where
  bank : Bank
  files : FileTree

namespace Branch

open Bank (Event Execution)

/-- A Bank that has just started. -/
def start (keys : Keys) (cards : CardStore) (files : FileTree) : Branch where
  bank := { keys, cards }
  files

/-- The Bank and its files after an event. -/
def step (b : Branch) : Event → Branch
  | .line cardIv text =>
    let (_, bank, files) := b.bank.console b.files cardIv text
    { bank, files }
  | .datagram replyIv bytes => { b with bank := (b.bank.handle replyIv bytes).2 }
  | .change files => { b with files }

/-- The Bank and its files after a sequence of events. -/
def run (b : Branch) (events : List Event) : Branch := events.foldl step b

/-- What an event makes the Bank execute. -/
def execution? (b : Branch) : Event → Option Execution
  | .datagram replyIv bytes => b.bank.execution? replyIv bytes
  | _ => none

/-- The requests executed under a sequence of events, oldest first. -/
def executions (b : Branch) : List Event → List Execution
  | [] => []
  | event :: rest => (b.execution? event).toList ++ (b.step event).executions rest

@[simp] theorem run_nil (b : Branch) : b.run [] = b := rfl

@[simp] theorem run_cons (b : Branch) (event : Event) (rest : List Event) :
    b.run (event :: rest) = (b.step event).run rest := rfl

/-- One run after another is a run. -/
theorem run_append (b : Branch) (events rest : List Event) :
    b.run (events ++ rest) = (b.run events).run rest := List.foldl_append ..

/-- A console line touches the ledger of the Bank, and nothing else of it. -/
theorem bank_step_line (b : Branch) (cardIv : Block) (text : String) :
    (b.step (.line cardIv text)).bank =
      { b.bank with ledger := (b.step (.line cardIv text)).bank.ledger } :=
  Bank.console_bank b.bank b.files cardIv text

/-- **No event touches the keys or the cards of a Bank.** -/
theorem bank_step (b : Branch) (event : Event) :
    ∃ ledger highWater last?, (b.step event).bank = { b.bank with ledger, highWater, last? } := by
  cases event with
  | line cardIv text => exact ⟨_, _, _, bank_step_line b cardIv text⟩
  | datagram replyIv bytes => exact Bank.handle_bank ..
  | change files => exact ⟨_, _, _, rfl⟩

/-- No event changes the keys of a Bank. -/
theorem keys_step (b : Branch) (event : Event) : (b.step event).bank.keys = b.bank.keys := by
  obtain ⟨_, _, _, hbank⟩ := b.bank_step event
  rw [hbank]

/-- No event changes where its cards are. -/
theorem cards_step (b : Branch) (event : Event) : (b.step event).bank.cards = b.bank.cards := by
  obtain ⟨_, _, _, hbank⟩ := b.bank_step event
  rw [hbank]

/-- No run changes the keys of a Bank. -/
theorem keys_run (b : Branch) (events : List Event) : (b.run events).bank.keys = b.bank.keys := by
  induction events generalizing b with
  | nil => rfl
  | cons event rest ih => rw [run_cons, ih, keys_step]

/-- No run changes where its cards are. -/
theorem cards_run (b : Branch) (events : List Event) : (b.run events).bank.cards = b.bank.cards := by
  induction events generalizing b with
  | nil => rfl
  | cons event rest ih => rw [run_cons, ih, cards_step]

end Branch
end Cashpoint
