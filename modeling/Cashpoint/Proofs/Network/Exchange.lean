/-
# An exchange that goes well

A request of the ATM that reaches a Bank with the same keys, whose mark is below its
number, is executed there, and the reply brings the Bank's response back to the ATM
(`Sends.exchanged`). The response is one that the ATM takes as long as no balance is
negative (`respond_spec`).

However late it comes, the reply to an executed request is taken for the Bank's response to
it (`Exchange.answer_of_execution`). Conversely, what the ATM takes for an answer is the
Bank's response, if the Bank has sealed it for that request (`Exchange.respond_of_answer`).
-/

import Cashpoint.Proofs.Atm.Turn
import Cashpoint.Proofs.Bank.Run
import Cashpoint.Proofs.Ledger.Balances

namespace Cashpoint

/-- **A request that reaches the Bank is executed, and the reply brings the response.** -/
theorem Atm.Sends.exchanged {atm : Atm} {request : Request} {datagram : List UInt8} {x : Exchange}
    (hx : atm.Sends request datagram x) (hwf : request.WellFormed) {bank : Bank}
    (hkeys : bank.keys = atm.keys) (hrange : bank.ledger.InRange)
    (hmark : bank.highWater ≤ atm.sequencer.last) (replyIv : Bytes 12) :
    bank.newRequest? datagram = some (x.sealed, Utf8.encode request.render) ∧
      ∃ reply, bank.handle replyIv datagram = (.ok reply,
          { bank with
            ledger := (Bank.respond bank.ledger request).2
            highWater := x.sealed.sequence
            last? := some { iv := x.sealed.iv, tag := x.sealed.tag, reply } }) ∧
        x.answer (.ok reply) = .ok (Bank.respond bank.ledger request).1 := by
  have hrespond := Bank.respondTo_render hwf bank.ledger
  obtain ⟨hin, hanswers, -⟩ := Bank.respond_spec hrange hwf
  have hopen : bank.openRequest datagram = .ok (x.sealed, Utf8.encode request.render) :=
    Bank.openRequest_eq_ok_iff.2 ⟨Frame.decode_of_encode hx.encodes, hkeys ▸ hx.opens⟩
  have hsequence : x.sealed.sequence = atm.sequencer.last + 1 := hx.sequence_eq.trans hx.last_eq
  have hnew := Bank.newRequest?_eq_some_iff.2 ⟨hopen, by omega⟩
  obtain ⟨reply, hreply, hhandle⟩ := Bank.handle_of_newRequest hnew replyIv
  rw [hrespond] at hreply hhandle
  refine ⟨hnew, reply, hhandle, ?_⟩
  obtain ⟨frame, sealed, hs, he, hsealed⟩ :=
    Bank.exists_sealResponse bank replyIv x.sealed (Bank.respond bank.ledger request).1
  obtain rfl : sealed = reply := Except.ok.inj (hsealed.symm.trans hreply)
  have hkeys' : bank.keys = x.atm.keys := hkeys.trans hx.keys_eq.symm
  rw [hkeys'] at hs
  exact Exchange.answer_of_sealReply hs he hin (by rw [hx.request_eq]; exact hanswers)

/-- What the Bank executes for a request of the ATM is the request as it was made. -/
theorem Exchange.respondTo_of_execution {x : Exchange} {e : Bank.Execution}
    (hhonest : e.Honest x.atm.keys.messageKey) (hrequest : e.request = x.sealed)
    (hopens : x.sealed.openPlain x.atm.keys.messageKey = .ok (Utf8.encode x.request.render))
    (hwf : x.request.WellFormed) :
    e.plaintext = Utf8.encode x.request.render ∧
      Bank.respondTo e.before e.plaintext = Bank.respond e.before x.request := by
  have hplain := hhonest.opens
  rw [hrequest, hopens] at hplain
  have hplaintext : e.plaintext = Utf8.encode x.request.render := (Except.ok.inj hplain).symm
  exact ⟨hplaintext, by rw [hplaintext, Bank.respondTo_render hwf]⟩

/-- **The reply to an execution is taken for an answer**: it is the response of the Bank when it executed the
request. -/
theorem Exchange.answer_of_execution {x : Exchange} {e : Bank.Execution}
    (hhonest : e.Honest x.atm.keys.messageKey) (hrequest : e.request = x.sealed)
    (hopens : x.sealed.openPlain x.atm.keys.messageKey = .ok (Utf8.encode x.request.render))
    (hwf : x.request.WellFormed) (hrange : e.before.InRange) {datagram : List UInt8}
    (hreply : e.reply = .ok datagram) :
    ∃ response, x.answer (.ok datagram) = .ok response ∧ Bank.respond e.before x.request = (response, e.after) := by
  obtain ⟨-, hrespond⟩ := Exchange.respondTo_of_execution hhonest hrequest hopens hwf
  obtain ⟨found, frame, hfound, hdecode, hopen⟩ := hhonest.opens_reply
  obtain rfl : found = datagram := Except.ok.inj (hfound.symm.trans hreply)
  rw [hrequest, hrespond] at hopen
  obtain ⟨hin, hanswers, -⟩ := Bank.respond_spec hrange hwf
  refine ⟨(Bank.respond e.before x.request).1, ?_, Prod.ext rfl ?_⟩
  · exact answer_eq_ok_iff.2 ⟨found, frame, _, _, rfl, hdecode, hopen, Utf8.decode?_encode _,
      Response.ofString?_render hin, hanswers⟩
  · rw [← hrespond]
    exact hhonest.after_eq.symm

/-- **An answer that was sealed for the request is the response to it**, as the Bank executed it. -/
theorem Exchange.respond_of_answer {x : Exchange} {e : Bank.Execution}
    (hhonest : e.Honest x.atm.keys.messageKey) (hrequest : e.request = x.sealed)
    (hopens : x.sealed.openPlain x.atm.keys.messageKey = .ok (Utf8.encode x.request.render))
    (hwf : x.request.WellFormed) {bytes datagram : List UInt8} {frame : Frame}
    (hreply : e.reply = .ok datagram) (hsealed : Frame.decode datagram = .ok frame)
    (hdecode : Frame.decode bytes = .ok frame) {response : Response}
    (hanswer : x.answer (.ok bytes) = .ok response) :
    e.plaintext = Utf8.encode x.request.render ∧ Bank.respond e.before x.request = (response, e.after) := by
  obtain ⟨hplaintext, hrespond⟩ := Exchange.respondTo_of_execution hhonest hrequest hopens hwf
  refine ⟨hplaintext, Prod.ext ?_ ?_⟩
  · -- the frame that the ATM opened is the one that the Bank sealed for this request
    obtain ⟨_, frame', plaintext, text, hbytes, hdecode', hopen, htext, hresponse, -⟩ :=
      Exchange.answer_eq_ok_iff.1 hanswer
    obtain rfl := Except.ok.inj hbytes
    obtain rfl : frame = frame' := Except.ok.inj (hdecode.symm.trans hdecode')
    obtain ⟨datagram', found, hreply', hfound, hplain⟩ := hhonest.opens_reply
    obtain rfl : datagram' = datagram := Except.ok.inj (hreply'.symm.trans hreply)
    obtain rfl : found = frame := Except.ok.inj (hfound.symm.trans hsealed)
    rw [hrequest, hopen] at hplain
    rw [Except.ok.inj hplain, Utf8.decode?_encode] at htext
    rw [← Option.some.inj htext, hrespond] at hresponse
    exact (Response.eq_of_ofString?_render hresponse).symm
  · rw [← hrespond]
    exact hhonest.after_eq.symm

end Cashpoint
