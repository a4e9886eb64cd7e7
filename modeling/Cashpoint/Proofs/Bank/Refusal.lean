/-
# What a Bank does not answer

A datagram gets no reply for one of three reasons: it is no frame in writing
(`handle_of_malformed`), the frame does not authenticate (`handle_of_unauthentic`), or
its number was passed and it is not the request that is remembered (`handle_of_stale`).
Every other datagram is answered (`exists_reply`).

A new request changes the ledger before its reply is sealed and written. That nothing can
fail after the change is due to the size of the responses: each of them fits into a frame
(`exists_sealResponse`). So a Bank that answers nothing has changed nothing
(`unanswered_changes_nothing`).
-/

import Cashpoint.Proofs.Bank.Replay

namespace Cashpoint
namespace Bank

/-- The request is the one whose reply would be sent again: its vector and tag are remembered. -/
def Remembers (bank : Bank) (request : Frame) : Prop :=
  ∃ last, bank.last? = some last ∧ last.iv = request.iv ∧ last.tag = request.tag

variable {bank : Bank} {bytes : List UInt8} {request : Frame}

/-- An authentic frame opens to some plaintext. -/
theorem openRequest_of_authentic (hwritten : request.encode = .ok bytes)
    (hauthentic : request.Authentic bank.keys.messageKey) :
    ∃ plaintext, bank.openRequest bytes = .ok (request, plaintext) := by
  obtain ⟨plaintext, hplain⟩ := Frame.openPlain_of_authentic hauthentic
  exact ⟨plaintext, openRequest_eq_ok_iff.2 ⟨Frame.decode_of_encode hwritten, hplain⟩⟩

/-- The reply to a request that is remembered is sent again. -/
theorem repeatLast_of_remembers (h : bank.Remembers request) :
    ∃ reply, bank.repeatLast request = .ok reply := by
  obtain ⟨last, hlast, hiv, htag⟩ := h
  exact ⟨last.reply, by simp only [repeatLast, hlast, hiv, htag, and_self, if_true]⟩

/-- A request that is not remembered is refused as sent again, by its number. -/
theorem repeatLast_of_not_remembers (h : ¬ bank.Remembers request) :
    bank.repeatLast request = .error (.replayed request.sequence) := by
  unfold repeatLast
  split
  · rename_i last hlast
    exact if_neg fun hsame => h ⟨last, hlast, hsame⟩
  · rfl

/-! ## The four cases -/

/-- A datagram that is no frame is refused as such, and changes nothing. -/
theorem handle_of_malformed (h : ∀ frame : Frame, frame.encode ≠ .ok bytes) (replyIv : Bytes 12) :
    ∃ fault, bank.handle replyIv bytes = (.error (.frame fault), bank) := by
  cases hdecode : Frame.decode bytes with
  | ok frame => exact absurd (Frame.encode_of_decode hdecode) (h frame)
  | error e =>
    obtain ⟨fault, rfl⟩ := Frame.decode_error hdecode
    exact ⟨fault, by simp only [handle, openRequest, hdecode, bind, Except.bind]⟩

/-- A frame with a wrong tag is refused as such, and changes nothing. -/
theorem handle_of_unauthentic (hwritten : request.encode = .ok bytes)
    (h : ¬ request.Authentic bank.keys.messageKey) (replyIv : Bytes 12) :
    bank.handle replyIv bytes = (.error .integrity, bank) := by
  simp only [handle, openRequest, Frame.decode_of_encode hwritten, Frame.openPlain_of_not_authentic h, bind,
    Except.bind]

/-- An authentic request that is not above the mark, and not the last one, is refused and changes nothing. -/
theorem handle_of_stale (hwritten : request.encode = .ok bytes)
    (hauthentic : request.Authentic bank.keys.messageKey) (hpassed : request.sequence ≤ bank.highWater)
    (hforgotten : ¬ bank.Remembers request) (replyIv : Bytes 12) :
    bank.handle replyIv bytes = (.error (.replayed request.sequence), bank) := by
  obtain ⟨plaintext, hopen⟩ := openRequest_of_authentic hwritten hauthentic
  rw [handle_of_old hopen hpassed, repeatLast_of_not_remembers hforgotten]

/-- A request above the mark, and the last one again, are answered. -/
theorem exists_reply (hwritten : request.encode = .ok bytes)
    (hauthentic : request.Authentic bank.keys.messageKey)
    (h : bank.highWater < request.sequence ∨ bank.Remembers request) (replyIv : Bytes 12) :
    ∃ reply, (bank.handle replyIv bytes).1 = .ok reply := by
  obtain ⟨plaintext, hopen⟩ := openRequest_of_authentic hwritten hauthentic
  by_cases hnew : bank.highWater < request.sequence
  · obtain ⟨reply, -, hhandle⟩ := handle_of_newRequest (newRequest?_eq_some_iff.2 ⟨hopen, hnew⟩) replyIv
    exact ⟨reply, congrArg Prod.fst hhandle⟩
  · obtain ⟨reply, hreply⟩ := repeatLast_of_remembers (h.resolve_left hnew)
    exact ⟨reply, by rw [handle_of_old hopen (Nat.not_lt.1 hnew), hreply]⟩

/-- **A Bank that does not answer has not changed.** -/
theorem bank_of_error {e : Error} {replyIv : Bytes 12} (h : (bank.handle replyIv bytes).1 = .error e) :
    (bank.handle replyIv bytes).2 = bank := by
  cases hnew : bank.newRequest? bytes with
  | none => exact handle_of_not_newRequest hnew replyIv
  | some opened =>
    obtain ⟨reply, -, hhandle⟩ := handle_of_newRequest hnew replyIv
    rw [hhandle] at h
    simp at h

end Bank

namespace Branch

/-- **A datagram that is not answered changes nothing.**  A Bank refuses just what is no frame in writing, with
a fault of the frame; the frames that do not authenticate; and the authentic ones whose number was passed,
unless it remembers them. It answers all others, and has no fourth reason to refuse one. Whatever it refuses
leaves the Bank with its ledger, mark and memory, and its files, as they were.

No reply is lost after a change of the ledger, because every response to every request can be sealed and
written. -/
theorem unanswered_changes_nothing (b : Branch) (replyIv : Bytes 12) (bytes : List UInt8) :
    let key := b.bank.keys.messageKey
    let result := (b.bank.handle replyIv bytes).1
    ((∃ fault, result = .error (.frame fault)) ↔ ¬ ∃ frame : Frame, frame.encode = .ok bytes) ∧
      (result = .error .integrity ↔
        ∃ frame : Frame, frame.encode = .ok bytes ∧ ¬ frame.Authentic key) ∧
      (∀ n, result = .error (.replayed n) ↔
        ∃ frame : Frame, frame.encode = .ok bytes ∧ frame.Authentic key ∧ frame.sequence = n ∧
          n ≤ b.bank.highWater ∧ ¬ b.bank.Remembers frame) ∧
      ((∃ reply, result = .ok reply) ↔
        ∃ frame : Frame, frame.encode = .ok bytes ∧ frame.Authentic key ∧
          (b.bank.highWater < frame.sequence ∨ b.bank.Remembers frame)) ∧
      (∀ e, result = .error e → (∃ fault, e = .frame fault) ∨ e = .integrity ∨ ∃ n, e = .replayed n) ∧
      (∀ e, result = .error e → b.step (.datagram replyIv bytes) = b) ∧
      ∀ request plaintext, ∃ reply,
        b.bank.sealResponse replyIv request (Bank.respondTo b.bank.ledger plaintext).1 = .ok reply := by
  intro key result
  have hkeep : ∀ e, result = .error e → b.step (.datagram replyIv bytes) = b := by
    intro e he
    simp only [step, Bank.bank_of_error he]
  have hseal : ∀ request plaintext, ∃ reply,
      b.bank.sealResponse replyIv request (Bank.respondTo b.bank.ledger plaintext).1 = .ok reply := by
    intro request plaintext
    obtain ⟨-, reply, -, -, hreply⟩ :=
      Bank.exists_sealResponse b.bank replyIv request (Bank.respondTo b.bank.ledger plaintext).1
    exact ⟨reply, hreply⟩
  by_cases hwritten : ∃ frame : Frame, frame.encode = .ok bytes
  · obtain ⟨frame, hframe⟩ := hwritten
    -- the datagram stands for one frame only
    have hone : ∀ other : Frame, other.encode = .ok bytes ↔ other = frame := fun other =>
      ⟨fun hother => Frame.encode_inj hother hframe, fun heq => heq ▸ hframe⟩
    by_cases hauthentic : frame.Authentic key
    · by_cases hanswered : b.bank.highWater < frame.sequence ∨ b.bank.Remembers frame
      · obtain ⟨reply, hreply⟩ := Bank.exists_reply hframe hauthentic hanswered replyIv
        have hresult : result = .ok reply := hreply
        refine ⟨?_, ?_, ?_, ?_, ?_, hkeep, hseal⟩ <;> simp [hresult, hone, hauthentic]
        · exact fun hpassed => hanswered.resolve_left (Nat.not_lt.2 hpassed)
        · exact hanswered
      · rw [not_or, Nat.not_lt] at hanswered
        have hresult : result = .error (.replayed frame.sequence) :=
          congrArg Prod.fst (Bank.handle_of_stale hframe hauthentic hanswered.1 hanswered.2 replyIv)
        refine ⟨?_, ?_, ?_, ?_, ?_, hkeep, hseal⟩ <;> simp [hresult, hone, hauthentic, hanswered]
    · have hresult : result = .error .integrity :=
        congrArg Prod.fst (Bank.handle_of_unauthentic hframe hauthentic replyIv)
      refine ⟨?_, ?_, ?_, ?_, ?_, hkeep, hseal⟩ <;> simp [hresult, hone, hauthentic]
  · rw [not_exists] at hwritten
    obtain ⟨fault, hhandle⟩ := Bank.handle_of_malformed hwritten replyIv
    have hresult : result = .error (.frame fault) := congrArg Prod.fst hhandle
    refine ⟨?_, ?_, ?_, ?_, ?_, hkeep, hseal⟩ <;> simp [hresult, hwritten]

/-- The request with the number 1 comes after the one with the number 2 was executed. -/
theorem unanswered_changes_nothing_late :
    ∃ early late,
      let b := (start ⟨Bytes.zero 32, Bytes.zero 32⟩ ⟨⟨"."⟩⟩ {}).step (.datagram (Bytes.zero 12) early)
      (b.bank.handle (Bytes.zero 12) late).1 = .error (.replayed 1) ∧
        b.step (.datagram (Bytes.zero 12) late) = b := by
  let b₀ := start ⟨Bytes.zero 32, Bytes.zero 32⟩ ⟨⟨"."⟩⟩ {}
  obtain ⟨second, early, hs₂, -, hopen₂⟩ := Bank.exists_openRequest b₀.bank
    (Sequencer.vector (Bytes.zero 4) 2) (Utf8.encode "balance a") (by decide)
  obtain ⟨first, late, hs₁, he₁, hopen₁⟩ := Bank.exists_openRequest b₀.bank
    (Sequencer.vector (Bytes.zero 4) 1) (Utf8.encode "balance a") (by decide)
  have hone : first.sequence = 1 := Sequencer.sequence_of_iv (Frame.iv_of_sealWith hs₁) (by decide)
  have htwo : second.sequence = 2 := Sequencer.sequence_of_iv (Frame.iv_of_sealWith hs₂) (by decide)
  obtain ⟨reply, -, hhandle⟩ := Bank.handle_of_newRequest
    (Bank.newRequest?_eq_some_iff.2 ⟨hopen₂, by rw [htwo]; decide⟩) (Bytes.zero 12)
  have hbank : (b₀.step (.datagram (Bytes.zero 12) early)).bank = _ := congrArg Prod.snd hhandle
  have hauthentic := Frame.authentic_of_openPlain (Bank.openRequest_eq_ok_iff.1 hopen₁).2
  have hforgotten : ¬ (b₀.step (.datagram (Bytes.zero 12) early)).bank.Remembers first := by
    rw [hbank]
    rintro ⟨last, hlast, hiv, -⟩
    obtain rfl := Option.some.inj hlast
    exact iv_ne_of_sequence_ne (by omega) hiv
  have hall := unanswered_changes_nothing (b₀.step (.datagram (Bytes.zero 12) early)) (Bytes.zero 12) late
  have hpassed : 1 ≤ (b₀.step (.datagram (Bytes.zero 12) early)).bank.highWater := by
    simp only [hbank, htwo]
    decide
  have hreplayed := (hall.2.2.1 1).2 ⟨first, he₁, by rw [hbank]; exact hauthentic, hone, hpassed, hforgotten⟩
  exact ⟨early, late, hreplayed, hall.2.2.2.2.2.1 _ hreplayed⟩

end Branch
end Cashpoint
