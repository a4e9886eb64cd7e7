/-
# What a turn of the ATM can do

Each part of a turn has one lemma that says everything it can lead to: `submit_cases`
for the line, `receive_cases` for what the network brought back, and `enter_cases` for
the PIN. A response is taken only if it opens against the request, reads, and could
answer it (`answer_eq_ok_iff`).

A request that leaves the ATM is well formed as long as the user who is logged in has a
user name for a name, and is sealed under the next vector (`request_cases`). A part of a turn
that sends nothing and logs nobody in leaves the ATM all but as it was (`Atm.Settles`).
-/

import Cashpoint.Atm
import Cashpoint.Proofs.Console.Commands
import Cashpoint.Proofs.Frame.Wire
import Cashpoint.Proofs.Message.RoundTrip

namespace Cashpoint

/-! ## Vectors -/

namespace Sequencer

/-- The next vector is issued as long as one is left, under the number after the last. -/
theorem next_eq_ok_iff {s s' : Sequencer} {iv : Bytes 12} :
    s.next = .ok (iv, s') ↔
      s.last < lastSequence ∧ iv = vector s.start (s.last + 1) ∧ s'.start = s.start ∧
        s'.last = s.last + 1 := by
  unfold next
  split
  · rename_i h
    obtain ⟨start', last', hle⟩ := s'
    simp only [Except.ok.injEq, Prod.mk.injEq, mk.injEq, @eq_comm _ _ iv, @eq_comm _ _ start',
      @eq_comm _ _ last', h, true_and]
  · rename_i h
    simp [h]

end Sequencer

/-! ## The line -/

namespace Atm

/-- What a request of the ATM is made of: it is sealed under the next vector, which is then used up. -/
structure Sends (atm : Atm) (request : Request) (datagram : List UInt8) (x : Exchange) : Prop where
  request_eq : x.request = request
  session_eq : x.atm.session = atm.session
  keys_eq : x.atm.keys = atm.keys
  cards_eq : x.atm.cards = atm.cards
  start_eq : x.atm.sequencer.start = atm.sequencer.start
  last_eq : x.atm.sequencer.last = atm.sequencer.last + 1
  iv_eq : x.sealed.iv = Sequencer.vector atm.sequencer.start (atm.sequencer.last + 1)
  opens : x.sealed.openPlain atm.keys.messageKey = .ok (Utf8.encode request.render)
  encodes : x.sealed.encode = .ok datagram

/-- A request bears the number that was issued last. -/
theorem Sends.sequence_eq {atm : Atm} {request : Request} {datagram : List UInt8} {x : Exchange}
    (h : atm.Sends request datagram x) : x.sealed.sequence = x.atm.sequencer.last := by
  have hle := x.atm.sequencer.last_le
  rw [h.last_eq] at hle ⊢
  exact Sequencer.sequence_of_iv h.iv_eq hle

/-- What a turn leaves of an ATM that has come to the end of its vectors, or could not seal. -/
structure Unsent (atm : Atm) (lines : List String) (atm' : Atm) : Prop where
  lines_eq : ∃ e, lines = [failure e]
  session_eq : atm'.session = atm.session
  keys_eq : atm'.keys = atm.keys
  cards_eq : atm'.cards = atm.cards
  start_eq : atm'.sequencer.start = atm.sequencer.start
  last_le : atm.sequencer.last ≤ atm'.sequencer.last

/-- **A request is sent under the next vector, or the turn is over.** -/
theorem request_cases (atm : Atm) (request : Request) :
    (∃ datagram x, atm.request request = .send datagram x ∧ atm.Sends request datagram x) ∨
      ∃ lines atm', atm.request request = .done lines atm' ∧ atm.Unsent lines atm' := by
  unfold Atm.request
  cases hn : atm.sequencer.next with
  | error e => exact Or.inr ⟨_, _, rfl, ⟨e, rfl⟩, rfl, rfl, rfl, rfl, Nat.le_refl _⟩
  | ok next =>
    obtain ⟨iv, sequencer⟩ := next
    obtain ⟨-, hiv, hstart, hlast⟩ := Sequencer.next_eq_ok_iff.1 hn
    have hle : atm.sequencer.last ≤ sequencer.last := by omega
    cases hs : Frame.sealPlain atm.keys.messageKey iv (Utf8.encode request.render) with
    | error e =>
      simp only [hs]
      exact Or.inr ⟨_, _, rfl, ⟨e, rfl⟩, rfl, rfl, rfl, hstart, hle⟩
    | ok sealed =>
      cases he : sealed.encode with
      | error e =>
        simp only [hs, he]
        exact Or.inr ⟨_, _, rfl, ⟨e, rfl⟩, rfl, rfl, rfl, hstart, hle⟩
      | ok datagram =>
        simp only [hs, he]
        exact Or.inl ⟨_, _, rfl, {
          request_eq := rfl
          session_eq := rfl
          keys_eq := rfl
          cards_eq := rfl
          start_eq := hstart
          last_eq := hlast
          iv_eq := (Frame.iv_of_sealWith hs).trans hiv
          opens := Frame.openPlain_of_sealPlain hs
          encodes := he }⟩

/-- What is sent for a request holds that request, sealed under the next number. -/
theorem sends_of_request {atm : Atm} {request : Request} {datagram : List UInt8} {x : Exchange}
    (h : atm.request request = .send datagram x) : atm.Sends request datagram x := by
  rcases request_cases atm request with ⟨_, _, hsend, hx⟩ | ⟨_, _, hdone, -⟩
  · obtain ⟨rfl, rfl⟩ := Turn.send.inj (hsend.symm.trans h)
    exact hx
  · rw [h] at hdone
    simp at hdone

/-- **A well-formed request is sent as long as there are vectors.** -/
theorem exists_send {atm : Atm} {request : Request} (hlast : atm.sequencer.last < lastSequence)
    (hwf : request.WellFormed) :
    ∃ datagram x, atm.request request = .send datagram x ∧ atm.Sends request datagram x := by
  have hlen := Request.length_encode_render_le hwf
  have hsmall : (Utf8.encode request.render).length ≤ Frame.largestPlaintext := by
    simp only [Frame.largestPlaintext]
    omega
  obtain ⟨sealed, datagram, hs, he⟩ := Frame.exists_sealWith hsmall atm.keys.messageKey
    (Sequencer.vector atm.sequencer.start (atm.sequencer.last + 1)) []
  rcases request_cases atm request with h | ⟨lines, atm', h, -⟩
  · exact h
  · have hs' : Frame.sealPlain atm.keys.messageKey
        (Sequencer.vector atm.sequencer.start (atm.sequencer.last + 1))
        (Utf8.encode request.render) = .ok sealed := hs
    simp [Atm.request, Sequencer.next, hlast, hs', he] at h

/-- The request that a line makes the ATM send: one for the user it names while nobody is logged in and
the name is not locked, or one for the user who is logged in. -/
inductive Asks (session : Session) (line : String) : Request → Prop
  | beginSession {user : String} (hline : Console.AtmCommand.ofLine line = .ok (.beginSession user))
    (hout : session.user? = none) (hopen : session.isLocked user = false) :
    Asks session line (.beginSession user)
  | withdraw {user : String} {amount : Amount}
    (hline : Console.AtmCommand.ofLine line = .ok (.withdraw amount)) (hin : session.user? = some user) :
    Asks session line (.withdraw user amount)
  | balance {user : String} (hline : Console.AtmCommand.ofLine line = .ok .balance)
    (hin : session.user? = some user) : Asks session line (.balance user)

/-- What a line asks for can be written, if the user who is logged in has a user name. -/
theorem Asks.wellFormed {session : Session} {line : String} {request : Request}
    (h : Asks session line request)
    (hname : ∀ user, session.user? = some user → Credential.isUserName user = true) :
    request.WellFormed := by
  cases h with
  | beginSession hline => exact Console.AtmCommand.wellFormed_of_ofLine hline
  | withdraw hline hin => exact ⟨hname _ hin, Console.AtmCommand.wellFormed_of_ofLine hline⟩
  | balance hline hin => exact hname _ hin

/-- **What a line asks for is what the ATM sends.** -/
theorem Asks.submit_eq {atm : Atm} {line : String} {request : Request} (h : Asks atm.session line request) :
    atm.submit line = atm.request request := by
  cases h with
  | beginSession hline hout hopen => simp [submit, hline, Atm.beginSession, hout, hopen]
  | withdraw hline hin | balance hline hin => simp [submit, hline, requestAs, hin]

/-- What is printed at once for a line that asks the Bank nothing and leaves the ATM as it is. -/
inductive AtOnce (session : Session) (line : String) : List String → Prop
  | rejected {rejection : Console.Rejection} (hline : Console.AtmCommand.ofLine line = .error rejection) :
    AtOnce session line rejection.message.toList
  | loggedIn {user : String} (hline : Console.AtmCommand.ofLine line = .ok (.beginSession user))
    (hin : session.user?.isSome = true) : AtOnce session line [alreadyLoggedIn]
  | locked {user : String} (hline : Console.AtmCommand.ofLine line = .ok (.beginSession user))
    (hout : session.user? = none) (hlocked : session.isLocked user = true) :
    AtOnce session line [locked user]
  | loggedOut {command : Console.AtmCommand} (hline : Console.AtmCommand.ofLine line = .ok command)
    (hother : ∀ user, command ≠ .beginSession user) (hout : session.user? = none) :
    AtOnce session line [noUserLoggedIn]

/-- **What a line leads to.** -/
theorem submit_cases (atm : Atm) (line : String) :
    (∃ request, Asks atm.session line request ∧ atm.submit line = atm.request request) ∨
      (∃ user, Console.AtmCommand.ofLine line = .ok .endSession ∧ atm.session.user? = some user ∧
        atm.submit line = .done [userLoggedOut] { atm with
          session := { atm.session with
            user? := none, attempts := atm.session.attempts.reset user } }) ∨
      ∃ lines, AtOnce atm.session line lines ∧ atm.submit line = .done lines atm := by
  unfold submit
  cases hline : Console.AtmCommand.ofLine line with
  | error rejection => exact Or.inr (Or.inr ⟨_, .rejected hline, rfl⟩)
  | ok command =>
    cases hs : atm.session.user? with
    | none =>
      have hout : atm.session.logOut = .error .notLoggedIn := by simp [Session.logOut, hs]
      cases command with
      | beginSession user =>
        by_cases hl : atm.session.isLocked user = true
        · refine Or.inr (Or.inr ⟨_, .locked hline hs hl, ?_⟩)
          simp [Atm.beginSession, hs, hl]
        · rw [Bool.not_eq_true] at hl
          refine Or.inl ⟨_, .beginSession hline hs hl, ?_⟩
          simp [Atm.beginSession, hs, hl]
      | withdraw amount =>
        exact Or.inr (Or.inr ⟨_, .loggedOut hline (by simp) hs, by simp [requestAs, hs]⟩)
      | balance =>
        exact Or.inr (Or.inr ⟨_, .loggedOut hline (by simp) hs, by simp [requestAs, hs]⟩)
      | endSession =>
        exact Or.inr (Or.inr ⟨_, .loggedOut hline (by simp) hs, by simp [endSession, hout]⟩)
    | some current =>
      have hout : atm.session.logOut = .ok (current, { atm.session with
          user? := none, attempts := atm.session.attempts.reset current }) := by
        simp [Session.logOut, hs]
      cases command with
      | beginSession user =>
        refine Or.inr (Or.inr ⟨_, .loggedIn hline (by simp [hs]), ?_⟩)
        simp [Atm.beginSession, hs]
      | withdraw amount => exact Or.inl ⟨_, .withdraw hline hs, by simp [requestAs, hs]⟩
      | balance => exact Or.inl ⟨_, .balance hline hs, by simp [requestAs, hs]⟩
      | endSession =>
        refine Or.inr (Or.inl ⟨current, rfl, rfl, ?_⟩)
        simp [endSession, hout]

end Atm

/-! ## What the network brought back -/

namespace Exchange

/-- **When a response is taken**: something came back, it is a frame that opens against the request,
holds a text, and is a response that could answer the request. -/
theorem answer_eq_ok_iff {x : Exchange} {reply : Except Error (List UInt8)} {response : Response} :
    x.answer reply = .ok response ↔
      ∃ bytes frame plaintext text, reply = .ok bytes ∧ Frame.decode bytes = .ok frame ∧
        frame.openReply x.atm.keys.messageKey x.sealed = .ok plaintext ∧
        Utf8.decode? plaintext = some text ∧ Response.ofString? text = some response ∧
        response.answers x.request = true := by
  constructor
  · intro h
    cases reply with
    | error e => simp [answer, bind, Except.bind] at h
    | ok bytes =>
      cases hd : Frame.decode bytes with
      | error e => simp [answer, bind, Except.bind, hd] at h
      | ok frame =>
        cases ho : frame.openReply x.atm.keys.messageKey x.sealed with
        | error e => simp [answer, bind, Except.bind, hd, ho] at h
        | ok plaintext =>
          cases ht : Utf8.decode? plaintext with
          | none => simp [answer, bind, Except.bind, throw, throwThe, MonadExceptOf.throw, hd, ho, ht] at h
          | some text =>
            cases hr : Response.ofString? text with
            | none => simp [answer, bind, Except.bind, throw, throwThe, MonadExceptOf.throw, hd, ho, ht, hr] at h
            | some found =>
              by_cases ha : found.answers x.request = true
              · obtain rfl : found = response := by
                  simpa [answer, bind, Except.bind, pure, Except.pure, hd, ho, ht, hr, ha] using h
                exact ⟨bytes, frame, plaintext, text, rfl, hd, ho, ht, hr, ha⟩
              · simp [answer, bind, Except.bind, throw, throwThe, MonadExceptOf.throw, hd, ho, ht, hr, ha] at h
  · rintro ⟨bytes, frame, plaintext, text, rfl, hd, ho, ht, hr, ha⟩
    simp [answer, bind, Except.bind, pure, Except.pure, hd, ho, ht, hr, ha]

/-- A response that the Bank seals for the request is taken, if it could answer it. -/
theorem answer_of_sealReply {x : Exchange} {replyIv : Bytes 12} {response : Response} {frame : Frame}
    {bytes : List UInt8}
    (hs : Frame.sealReply x.atm.keys.messageKey replyIv x.sealed (Utf8.encode response.render) = .ok frame)
    (he : frame.encode = .ok bytes) (hrange : response.InRange)
    (hanswers : response.answers x.request = true) : x.answer (.ok bytes) = .ok response :=
  answer_eq_ok_iff.2 ⟨bytes, frame, Utf8.encode response.render, response.render, rfl,
    Frame.decode_of_encode he, Frame.openReply_of_sealReply hs, Utf8.decode?_encode _,
    Response.ofString?_render hrange, hanswers⟩

/-- **A datagram holds one response**, whatever request under the same key it is taken for an answer to. -/
theorem answer_unique {x y : Exchange} (hkey : x.atm.keys.messageKey = y.atm.keys.messageKey)
    {bytes : List UInt8} {response response' : Response} (hx : x.answer (.ok bytes) = .ok response)
    (hy : y.answer (.ok bytes) = .ok response') : response = response' := by
  obtain ⟨_, frame, plaintext, text, hbytes, hdecode, hopen, htext, hresponse, -⟩ := answer_eq_ok_iff.1 hx
  obtain ⟨_, frame', plaintext', text', hbytes', hdecode', hopen', htext', hresponse', -⟩ := answer_eq_ok_iff.1 hy
  obtain rfl := Except.ok.inj hbytes
  obtain rfl := Except.ok.inj hbytes'
  obtain rfl : frame = frame' := Except.ok.inj (hdecode.symm.trans hdecode')
  rw [hkey] at hopen
  obtain rfl := Frame.plaintext_unique hopen hopen'
  obtain rfl := Option.some.inj (htext.symm.trans htext')
  exact Option.some.inj (hresponse.symm.trans hresponse')

/-- **What comes back and is no answer is rejected.** -/
theorem failure_of_answer {x : Exchange} {bytes : List UInt8} {e : Error}
    (h : x.answer (.ok bytes) = .error e) : Atm.failure e = Atm.responseRejected := by
  cases hdecode : Frame.decode bytes with
  | error refused =>
    obtain ⟨fault, rfl⟩ := Frame.decode_error hdecode
    simp only [answer, bind, Except.bind, hdecode] at h
    rw [← Except.error.inj h]
    rfl
  | ok frame =>
    cases hopen : frame.openReply x.atm.keys.messageKey x.sealed with
    | error refused =>
      obtain ⟨-, rfl⟩ := Gcm.decrypt_eq_error_iff.1 hopen
      simp only [answer, bind, Except.bind, hdecode, hopen] at h
      rw [← Except.error.inj h]
      rfl
    | ok plaintext =>
      simp only [answer, bind, Except.bind, hdecode, hopen, throw, throwThe, MonadExceptOf.throw] at h
      split at h
      · rw [← Except.error.inj h]
        rfl
      · split at h
        · split at h
          · simp [pure, Except.pure] at h
          · rw [← Except.error.inj h]
            rfl
        · rw [← Except.error.inj h]
          rfl

/-- **What the end of an exchange leads to.** -/
theorem receive_cases (x : Exchange) (reply : Except Error (List UInt8)) :
    (∃ e, x.answer reply = .error e ∧ x.receive reply = .done [Atm.failure e] x.atm) ∨
      (∃ user, x.request = .beginSession user ∧ x.answer reply = .ok .noSuchUser ∧
        x.receive reply = .done
          (Atm.withLock (x.atm.session.recordUnknown user) user [Atm.noSuchUser])
          { x.atm with session := x.atm.session.recordUnknown user }) ∨
      (∃ user, x.request = .beginSession user ∧ x.answer reply = .ok .success ∧
        x.receive reply = .askPin { atm := x.atm, user }) ∨
      ∃ response, (∀ user, x.request ≠ .beginSession user) ∧ x.answer reply = .ok response ∧
        x.receive reply = .done [response.render] x.atm := by
  unfold receive
  cases ha : x.answer reply with
  | error e => exact Or.inl ⟨e, rfl, rfl⟩
  | ok response =>
    obtain ⟨_, _, _, _, -, -, -, -, -, hanswers⟩ := answer_eq_ok_iff.1 ha
    refine Or.inr ?_
    cases hq : x.request with
    | beginSession user =>
      rw [hq] at hanswers
      cases response with
      | success => exact Or.inr (Or.inl ⟨user, rfl, rfl, rfl⟩)
      | noSuchUser => exact Or.inl ⟨user, rfl, rfl, rfl⟩
      | insufficientFunds | dispensed amount | balance amount | invalidCommand =>
        simp [Response.answers] at hanswers
    | withdraw user amount => exact Or.inr (Or.inr ⟨response, by simp, rfl, rfl⟩)
    | balance user => exact Or.inr (Or.inr ⟨response, by simp, rfl, rfl⟩)

end Exchange

/-! ## The PIN -/

namespace Login

/-- **What the PIN prompt leads to**, if the session has nobody logged in and the name is not locked. -/
theorem enter_cases (login : Login) (files : FileTree) (typed : Option String)
    (hout : login.atm.session.user? = none) (hopen : login.atm.session.isLocked login.user = false) :
    (login.check files typed = .ok true ∧ login.enter files typed =
        ([Atm.authorized],
          { login.atm with session := { login.atm.session with user? := some login.user } })) ∨
      (login.check files typed = .ok false ∧
        login.enter files typed = login.refuse [Atm.notAuthorized]) ∨
      ∃ e, login.check files typed = .error e ∧
        login.enter files typed = login.refuse [Atm.unableToAccess login.user, Atm.notAuthorized] := by
  unfold enter
  cases hc : login.check files typed with
  | error e => exact Or.inr (Or.inr ⟨e, rfl, rfl⟩)
  | ok right =>
    cases right with
    | false => exact Or.inr (Or.inl ⟨rfl, rfl⟩)
    | true =>
      refine Or.inl ⟨rfl, ?_⟩
      simp [Session.logIn, hout, hopen]

/-- The PIN prompt issues no number. -/
theorem sequencer_enter (login : Login) (files : FileTree) (typed : Option String) :
    (login.enter files typed).2.sequencer = login.atm.sequencer := by
  unfold enter
  split
  · split <;> rfl
  · rfl
  · rfl

end Login

/-! ## What is left of the ATM -/

/-- How a part of a turn leaves the ATM if it neither sends anything nor logs anybody in: with its keys and
cards, with a number at least as high, and with the user of before or nobody. -/
structure Atm.Settles (atm atm' : Atm) : Prop where
  keys_eq : atm'.keys = atm.keys
  cards_eq : atm'.cards = atm.cards
  last_le : atm.sequencer.last ≤ atm'.sequencer.last
  user?_of : ∀ user, atm'.session.user? = some user → atm.session.user? = some user

/-- A change of the session alone. -/
theorem Atm.settles_session {atm : Atm} {session : Session}
    (h : ∀ user, session.user? = some user → atm.session.user? = some user) :
    atm.Settles { atm with session } where
  keys_eq := rfl
  cards_eq := rfl
  last_le := Nat.le_refl _
  user?_of := h

/-- **A line makes the ATM send a request that it asks for, or leaves it settled.** -/
theorem Atm.submit_sends_or_settles (atm : Atm) (line : String) :
    (∃ request datagram x, Atm.Asks atm.session line request ∧ atm.submit line = .send datagram x ∧
      atm.Sends request datagram x) ∨
      ∃ lines atm', atm.submit line = .done lines atm' ∧ atm.Settles atm' := by
  rcases submit_cases atm line with ⟨request, hasks, hsubmit⟩ | ⟨user, -, -, hsubmit⟩ | ⟨lines, -, hsubmit⟩
  · rw [hsubmit]
    rcases request_cases atm request with ⟨datagram, x, hsend, hx⟩ | ⟨lines, atm', hdone, hun⟩
    · exact Or.inl ⟨request, datagram, x, hasks, hsend, hx⟩
    · exact Or.inr ⟨lines, atm', hdone, hun.keys_eq, hun.cards_eq, hun.last_le,
        fun user hin => hun.session_eq ▸ hin⟩
  · exact Or.inr ⟨_, _, hsubmit, settles_session nofun⟩
  · exact Or.inr ⟨_, _, hsubmit, settles_session fun _ hin => hin⟩

/-- **What leaves the ATM is a request that the line asks for.** -/
theorem Atm.sends_of_submit {atm : Atm} {line : String} {datagram : List UInt8} {x : Exchange}
    (h : atm.submit line = .send datagram x) :
    ∃ request, Atm.Asks atm.session line request ∧ atm.Sends request datagram x := by
  rcases submit_cases atm line with ⟨request, hasks, hsubmit⟩ | ⟨_, -, -, hsubmit⟩ | ⟨_, -, hsubmit⟩
  · exact ⟨request, hasks, sends_of_request (hsubmit.symm.trans h)⟩
  all_goals
    rw [hsubmit] at h
    simp at h

/-- **The end of an exchange asks for the PIN of a user whom the Bank confirms, or leaves the ATM settled.** -/
theorem Exchange.receive_confirms_or_settles (x : Exchange) (reply : Except Error (List UInt8)) :
    (∃ user, x.request = .beginSession user ∧ x.answer reply = .ok .success ∧
      x.receive reply = .askPin { atm := x.atm, user }) ∨
      ∃ lines atm', x.receive reply = .done lines atm' ∧ x.atm.Settles atm' := by
  rcases x.receive_cases reply with ⟨e, -, hr⟩ | ⟨user, -, -, hr⟩ | ⟨user, hq, hanswer, hr⟩ |
    ⟨response, -, -, hr⟩
  · exact Or.inr ⟨_, _, hr, Atm.settles_session fun _ hin => hin⟩
  · exact Or.inr ⟨_, _, hr, Atm.settles_session fun _ hin => hin⟩
  · exact Or.inl ⟨user, hq, hanswer, hr⟩
  · exact Or.inr ⟨_, _, hr, Atm.settles_session fun _ hin => hin⟩

/-- **The PIN prompt logs the user in, or leaves the ATM settled.** -/
theorem Login.enter_admits_or_settles (login : Login) (files : FileTree) (typed : Option String)
    (hout : login.atm.session.user? = none) (hopen : login.atm.session.isLocked login.user = false) :
    (login.check files typed = .ok true ∧ login.enter files typed =
        ([Atm.authorized],
          { login.atm with session := { login.atm.session with user? := some login.user } })) ∨
      login.atm.Settles (login.enter files typed).2 := by
  rcases login.enter_cases files typed hout hopen with ⟨hcheck, he⟩ | ⟨-, he⟩ | ⟨e, -, he⟩
  · exact Or.inl ⟨hcheck, he⟩
  · rw [he]
    exact Or.inr (Atm.settles_session fun _ hin => hin)
  · rw [he]
    exact Or.inr (Atm.settles_session fun _ hin => hin)

namespace Atm

/-! ## Whole turns -/

/-- What a turn of the ATM meets. -/
structure Input where
  line : String
  /-- What the network brings back, if a datagram goes out. -/
  reply : Except Error (List UInt8)
  files : FileTree
  /-- What is typed, if the PIN is asked for. -/
  typed : Option String

/-- A turn. Its state is the number of datagrams that went out. -/
def turn (atm : Atm) (i : Input) : Handled Nat :=
  atm.command ⟨fun sent _ => (i.reply, sent + 1), fun _ => i.files⟩ i.line i.typed 0

/-- The ATM after one turn for each input. -/
def run (atm : Atm) (inputs : List Input) : Atm := inputs.foldl (fun atm i => (atm.turn i).atm) atm

@[simp] theorem run_nil (atm : Atm) : atm.run [] = atm := rfl

@[simp] theorem run_cons (atm : Atm) (i : Input) (rest : List Input) :
    atm.run (i :: rest) = (atm.turn i).atm.run rest := rfl

end Atm
end Cashpoint
