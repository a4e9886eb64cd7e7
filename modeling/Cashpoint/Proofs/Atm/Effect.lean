/-
# Exactly what a line can do to an ATM

A line asks for one request or for none (`Session.request?`), so one datagram goes out at
most. What the line then does to the session is a function of three things: the line, the
response that was taken for an answer, if any, and whether the PIN passed
(`Session.after`), and so are the counts of failed logins, name by name
(`Session.counted_after`). Nothing else of the ATM changes but the number of the last
request, and the PIN is asked for just when a user asked to begin a session and the Bank's
reply says `success` (`command_effect`).

So whatever goes wrong on the way, from a lost datagram to a genuine reply of another
kind, leaves the user who is logged in, every count and the queue of denied names as they
were.
-/

import Cashpoint.Proofs.Atm.Lockout

namespace Cashpoint

/-- The request that a line asks for: to begin a session, while nobody is logged in and the name is not
locked, or one on behalf of the user who is logged in. -/
def Session.request? (session : Session) (line : String) : Option Request :=
  match Console.AtmCommand.ofLine line, session.user? with
  | .ok (.beginSession user), none => if session.isLocked user then none else some (.beginSession user)
  | .ok (.withdraw amount), some user => some (.withdraw user amount)
  | .ok .balance, some user => some (.balance user)
  | _, _ => none

/-- The session after a line, given the response that was taken for an answer, if any, and whether the PIN
passed. -/
def Session.after (session : Session) (line : String) (answer? : Option Response) (passed : Bool) : Session :=
  match Console.AtmCommand.ofLine line with
  | .ok (.beginSession user) =>
    match answer? with
    | some .noSuchUser => session.recordUnknown user
    | some .success => if passed then { session with user? := some user } else session.recordFailure user
    | _ => session
  | .ok .endSession =>
    match session.user? with
    | some user => { session with user? := none, attempts := session.attempts.reset user }
    | none => session
  | _ => session

/-- What has become of the counts, given the response that was taken for an answer, if any, and whether the PIN
passed. -/
structure Session.Counted (session : Session) (line : String) (answer? : Option Response) (passed : Bool)
    (after : Session) : Prop where
  /-- A denied name has one failure more. Another one keeps its count, unless it has left the queue of denied names. -/
  denied : ∀ user, Console.AtmCommand.ofLine line = .ok (.beginSession user) → answer? = some .noSuchUser →
    after.attempts.get user = min (session.attempts.get user + 1) Attempts.largestCount ∧
      ∀ other, user ≠ other → after.attempts.get other = session.attempts.get other ∨
        other ∈ session.attempts.unknown ∧ after.attempts.get other = 0
  /-- A confirmed name whose PIN did not pass has one failure more, and every other name keeps its count. -/
  refused : ∀ user, Console.AtmCommand.ofLine line = .ok (.beginSession user) → answer? = some .success →
    passed = false → ∀ name, after.attempts.get name =
      if user = name then min (session.attempts.get user + 1) Attempts.largestCount else session.attempts.get name
  /-- The user who leaves has no failures any more, and every other name keeps its count. -/
  left : ∀ user, Console.AtmCommand.ofLine line = .ok .endSession → session.user? = some user → ∀ name,
    after.attempts.get name = if user = name then 0 else session.attempts.get name
  /-- Whatever else happens, all counts and the queue of denied names stay. -/
  kept : (∀ user, Console.AtmCommand.ofLine line = .ok (.beginSession user) →
      answer? ≠ some .noSuchUser ∧ (answer? = some .success → passed = true)) →
    (Console.AtmCommand.ofLine line = .ok .endSession → session.user? = none) → after.attempts = session.attempts

/-- Whether what was typed at the PIN prompt passes. -/
def Login.passes (login : Login) (files : FileTree) (typed : Option String) : Bool :=
  match login.check files typed with
  | .ok right => right
  | .error _ => false

/-- **The counts after a line.** -/
theorem Session.counted_after (session : Session) (line : String) (answer? : Option Response) (passed : Bool) :
    session.Counted line answer? passed (session.after line answer? passed) where
  denied user hline hanswer := by
    have hafter : session.after line answer? passed = session.recordUnknown user := by
      simp only [Session.after, hline, hanswer]
    rw [hafter]
    exact ⟨session.attempts.get_recordUnknown_self user, fun other hne => Attempts.get_recordUnknown_other hne⟩
  refused user hline hanswer hpassed name := by
    have hafter : session.after line answer? passed = session.recordFailure user := by
      simp only [Session.after, hline, hanswer, hpassed, Bool.false_eq_true, if_false]
    rw [hafter]
    exact session.attempts.get_recordFailure user name
  left user hline hin name := by
    simp only [Session.after, hline, hin]
    exact session.attempts.get_reset user name
  kept hbegins hends := by
    unfold Session.after
    split
    · rename_i user hline
      obtain ⟨hknown, hpassed⟩ := hbegins user hline
      split
      · exact absurd rfl hknown
      · rw [if_pos (hpassed rfl)]
      · rfl
    · rename_i hline
      rw [hends hline]
    · rfl

namespace Atm

variable {session : Session} {line : String} {request : Request}

/-! ## The line -/

/-- A line asks for just the one request that it is said to. -/
theorem asks_iff : Asks session line request ↔ session.request? line = some request := by
  constructor
  · intro h
    cases h with
    | beginSession hline hout hopen => simp [Session.request?, hline, hout, hopen]
    | withdraw hline hin | balance hline hin => simp [Session.request?, hline, hin]
  · intro h
    unfold Session.request? at h
    split at h
    · rename_i user hline hout
      split at h
      · simp at h
      · rename_i hopen
        obtain rfl := Option.some.inj h
        exact .beginSession hline hout (by simpa using hopen)
    · rename_i hline hin
      obtain rfl := Option.some.inj h
      exact .withdraw hline hin
    · rename_i hline hin
      obtain rfl := Option.some.inj h
      exact .balance hline hin
    · simp at h

/-- A line that is answered at once changes nothing of the session. -/
theorem AtOnce.after_eq {lines : List String} (h : AtOnce session line lines) :
    session.after line none false = session := by
  cases h with
  | rejected hline | loggedIn hline | locked hline => simp [Session.after, hline]
  | @loggedOut command hline hother hout =>
    cases command with
    | beginSession user => exact absurd rfl (hother user)
    | withdraw amount | balance => simp [Session.after, hline]
    | endSession => simp [Session.after, hline, hout]

/-- A line that begins no session changes nothing through an answer. -/
theorem Asks.after_eq (h : Asks session line request) (hother : ∀ user, request ≠ .beginSession user)
    (answer? : Option Response) (passed : Bool) : session.after line answer? passed = session := by
  cases h with
  | beginSession => exact absurd rfl (hother _)
  | withdraw hline | balance hline => simp [Session.after, hline]

/-- What the answer to `begin-session` changes. -/
theorem Asks.after_eq_of_begins {user : String} (h : Asks session line (.beginSession user))
    (answer? : Option Response) (passed : Bool) : session.after line answer? passed =
      match answer? with
      | some .noSuchUser => session.recordUnknown user
      | some .success => if passed then { session with user? := some user } else session.recordFailure user
      | _ => session := by
  cases h with
  | beginSession hline => simp only [Session.after, hline]

/-- A line that asks for something changes nothing without an answer. -/
theorem Asks.after_none (h : Asks session line request) (passed : Bool) :
    session.after line none passed = session := by
  cases h with
  | beginSession hline | withdraw hline | balance hline => simp [Session.after, hline]

/-! ## A user who is logged in has a user name -/

/-- A turn logs in nobody whose name is not a user name. -/
theorem named_turn {atm : Atm}
    (h : ∀ user, atm.session.user? = some user → Credential.isUserName user = true) (i : Input) :
    ∀ user, (atm.turn i).atm.session.user? = some user → Credential.isUserName user = true := by
  have hmoves := atm.turn_moves i
  generalize (atm.turn i).lines = lines, atm.refused? i = refused, atm.left? i = left,
    (atm.turn i).atm.session = after at hmoves ⊢
  cases hmoves with
  | atOnce | failed | answered => exact h
  | left => simp
  | denied hasks => simpa only [Session.recordUnknown] using h
  | refused hasks => simpa only [Session.recordFailure] using h
  | entered hasks =>
    intro user hin
    obtain rfl := Option.some.inj hin
    exact hasks.wellFormed h

/-- No run logs in anybody whose name is not a user name. -/
theorem named_run (atm : Atm)
    (h : ∀ user, atm.session.user? = some user → Credential.isUserName user = true) (inputs : List Input) :
    ∀ user, (atm.run inputs).session.user? = some user → Credential.isUserName user = true := by
  induction inputs generalizing atm with
  | nil => exact h
  | cons i rest ih => exact ih _ (named_turn h i)

/-! ## A whole command -/

/-- Surroundings that are known by the datagrams that have gone out so far: what comes back for the last of
them, and what stands among the files after that. -/
def Surroundings.recorded (transport : List (List UInt8) → Except Error (List UInt8))
    (files : List (List UInt8) → FileTree) : Surroundings (List (List UInt8)) where
  exchange sent datagram := (transport (sent ++ [datagram]), sent ++ [datagram])
  files := files

variable {σ : Type} {atm : Atm} {world : Surroundings σ} {typed : Option String} {s : σ}

/-- A command that sends nothing is over at once, and leaves what it is connected to. -/
theorem command_of_done {lines : List String} {next : Atm} (h : atm.submit line = .done lines next) :
    atm.command world line typed s = { lines, askedPin := false, atm := next, state := s } := by
  rw [command, h]

/-- A command that sends a datagram ends with what comes back for it. -/
theorem command_of_send {datagram : List UInt8} {x : Exchange} (h : atm.submit line = .send datagram x) :
    atm.command world line typed s =
      finish world typed (world.exchange s datagram).2 (x.receive (world.exchange s datagram).1) := by
  rw [command, h]

/-- **A command among any surroundings is a turn** with what it meets there. -/
theorem command_is_turn (world : Surroundings σ) (atm : Atm) (line : String) (typed : Option String) (s : σ) :
    ∃ i : Input, i.line = line ∧ i.typed = typed ∧
      (atm.command world line typed s).lines = (atm.turn i).lines ∧
      (atm.command world line typed s).askedPin = (atm.turn i).askedPin ∧
      (atm.command world line typed s).atm = (atm.turn i).atm := by
  cases hsubmit : atm.submit line with
  | done lines next =>
    refine ⟨{ line, reply := .error (.timeout 0), files := {}, typed }, rfl, rfl, ?_⟩
    simp only [turn, command, hsubmit, and_self]
  | send datagram x =>
    refine ⟨{ line, reply := (world.exchange s datagram).1, files := world.files (world.exchange s datagram).2,
              typed }, rfl, rfl, ?_⟩
    simp only [turn, command, hsubmit]
    cases x.receive (world.exchange s datagram).1 <;> simp only [finish, and_self]

/-- A command logs in nobody whose name is not a user name. -/
theorem named_command {atm : Atm} (world : Surroundings σ)
    (h : ∀ user, atm.session.user? = some user → Credential.isUserName user = true) (line : String)
    (typed : Option String) (s : σ) : ∀ user, (atm.command world line typed s).atm.session.user? = some user →
      Credential.isUserName user = true := by
  obtain ⟨i, -, -, -, -, hatm⟩ := command_is_turn world atm line typed s
  rw [hatm]
  exact named_turn h i

/-- The PIN prompt changes no keys. -/
theorem keys_enter (login : Login) (files : FileTree) (typed : Option String) :
    (login.enter files typed).2.keys = login.atm.keys := by
  unfold Login.enter
  split
  · split <;> rfl
  · rfl
  · rfl

/-- Nor does a whole command. -/
theorem keys_command (world : Surroundings σ) (atm : Atm) (line : String) (typed : Option String) (s : σ) :
    (atm.command world line typed s).atm.keys = atm.keys := by
  rcases atm.submit_sends_or_settles line with ⟨request, datagram, x, -, hsubmit, hx⟩ |
    ⟨lines, next, hsubmit, hsettles⟩
  · rw [command_of_send hsubmit, ← hx.keys_eq]
    rcases x.receive_confirms_or_settles (world.exchange s datagram).1 with ⟨user, -, -, hr⟩ |
      ⟨lines, next, hr, hsettles⟩
    · rw [hr]
      exact keys_enter ..
    · rw [hr]
      exact hsettles.keys_eq
  · rw [command_of_done hsubmit]
    exact hsettles.keys_eq

/-- The end of a turn has no part in what it is connected to. -/
theorem state_finish (world : Surroundings σ) (typed : Option String) (s : σ) (outcome : Outcome) :
    (finish world typed s outcome).state = s := by
  cases outcome <;> rfl

/-- **What the PIN prompt does**, if the session has nobody logged in and the name is not locked. -/
theorem atm_enter {login : Login} (hout : login.atm.session.user? = none)
    (hopen : login.atm.session.isLocked login.user = false) (files : FileTree) (typed : Option String) :
    (login.enter files typed).2 = { login.atm with
      session := if login.passes files typed then { login.atm.session with user? := some login.user }
        else login.atm.session.recordFailure login.user } := by
  unfold Login.passes
  rcases login.enter_cases files typed hout hopen with ⟨hcheck, he⟩ | ⟨hcheck, he⟩ | ⟨e, hcheck, he⟩
  · simp [hcheck, he]
  · simp [hcheck, he, Login.refuse]
  · simp [hcheck, he, Login.refuse]

/-- **What a reply does**: the PIN is asked for just after `success`, and the session is what the answer and
the PIN make of it. -/
theorem finish_receive (world : Surroundings σ) (typed : Option String) (s : σ) {datagram : List UInt8} {x : Exchange}
    (hasks : Asks atm.session line request) (hx : atm.Sends request datagram x) (reply : Except Error (List UInt8)) :
    let h := finish world typed s (x.receive reply)
    let login : Login := { atm := x.atm, user := request.user }
    let after := atm.session.after line (x.answer reply).toOption (login.passes (world.files s) typed)
    h.state = s ∧
      (h.askedPin = true ↔ ∃ user, request = .beginSession user ∧ x.answer reply = .ok .success) ∧
      h.atm = { x.atm with session := after } ∧
      ∀ e, x.answer reply = .error e → h.lines = [failure e] ∧ h.atm = x.atm := by
  intro h login after
  have hsession := hx.session_eq
  rcases x.receive_cases reply with ⟨e, hanswer, hr⟩ | ⟨user, hq, hanswer, hr⟩ | ⟨user, hq, hanswer, hr⟩ |
    ⟨response, hq, hanswer, hr⟩
  · -- nothing was taken for an answer
    have hh : h = { lines := [failure e], askedPin := false, atm := x.atm, state := s } :=
      congrArg (finish world typed s) hr
    have hsame : after = x.atm.session := by
      simp only [after, hanswer, Except.toOption]
      rw [hasks.after_none, hsession]
    rw [hh, hsame]
    refine ⟨rfl, by simp [hanswer], rfl, fun e' he => ?_⟩
    obtain rfl : e = e' := by simpa [hanswer] using he
    exact ⟨rfl, rfl⟩
  · obtain rfl : request = .beginSession user := hx.request_eq.symm.trans hq
    have hsame : after = x.atm.session.recordUnknown user := by
      simp only [after, hanswer, Except.toOption]
      rw [hasks.after_eq_of_begins, hsession]
    have hh : h = _ := congrArg (finish world typed s) hr
    rw [hh, hsame]
    exact ⟨rfl, by simp [finish, hanswer], rfl, by simp [hanswer]⟩
  · obtain rfl : request = .beginSession user := hx.request_eq.symm.trans hq
    obtain ⟨hout, hopen⟩ := hasks.begins
    rw [← hsession] at hout hopen
    have hsame : (login.enter (world.files s) typed).2 = { x.atm with session := after } := by
      rw [atm_enter (show login.atm.session.user? = none from hout) hopen]
      simp only [after, hanswer, Except.toOption]
      rw [hasks.after_eq_of_begins, ← hsession]
      rfl
    have hh : h = _ := congrArg (finish world typed s) hr
    rw [hh, ← hsame]
    exact ⟨rfl, by simp [finish, hanswer], rfl, by simp [hanswer]⟩
  · rw [hx.request_eq] at hq
    have hsame : after = x.atm.session := by rw [hsession, ← hasks.after_eq hq]
    have hh : h = _ := congrArg (finish world typed s) hr
    rw [hh, hsame]
    exact ⟨rfl, by simp [finish, hq], rfl, by simp [hanswer]⟩

end Atm

/-- A reply opens, against the request just sent, to a text. -/
def Exchange.Opens (x : Exchange) (reply : Except Error (List UInt8)) (text : String) : Prop :=
  ∃ bytes frame plaintext, reply = .ok bytes ∧ Frame.decode bytes = .ok frame ∧
    frame.openReply x.atm.keys.messageKey x.sealed = .ok plaintext ∧ Utf8.decode? plaintext = some text

/-- An answer is a text that the reply opens to, which is a response of the kind that was asked for. -/
theorem Exchange.answer_eq_ok_iff_opens {x : Exchange} {reply : Except Error (List UInt8)} {response : Response} :
    x.answer reply = .ok response ↔
      ∃ text, x.Opens reply text ∧ Response.ofString? text = some response ∧
        response.answers x.request = true := by
  rw [answer_eq_ok_iff]
  constructor
  · rintro ⟨bytes, frame, plaintext, text, hreply, hdecode, hopen, htext, hresponse, hanswers⟩
    exact ⟨text, ⟨bytes, frame, plaintext, hreply, hdecode, hopen, htext⟩, hresponse, hanswers⟩
  · rintro ⟨text, ⟨bytes, frame, plaintext, hreply, hdecode, hopen, htext⟩, hresponse, hanswers⟩
    exact ⟨bytes, frame, plaintext, text, hreply, hdecode, hopen, htext, hresponse, hanswers⟩

namespace Atm

variable {atm : Atm} {line : String} {request : Request}

/-- A line that asks for nothing sends nothing and asks for no PIN. -/
theorem command_of_no_request {σ : Type} (world : Surroundings σ) (typed : Option String) (s : σ)
    (h : atm.session.request? line = none) :
    let handled := atm.command world line typed s
    handled.state = s ∧ handled.askedPin = false ∧
      handled.atm = { atm with session := atm.session.after line none false } := by
  intro handled
  rcases submit_cases atm line with ⟨request, hasks, -⟩ | ⟨user, hline, hin, hsubmit⟩ | ⟨lines, honce, hsubmit⟩
  · rw [asks_iff.1 hasks] at h
    simp at h
  · have hh : handled = _ := command_of_done hsubmit
    rw [hh]
    exact ⟨rfl, rfl, by simp only [Session.after, hline, hin]⟩
  · have hh : handled = _ := command_of_done hsubmit
    rw [hh, honce.after_eq]
    exact ⟨rfl, rfl, rfl⟩

/-- An ATM without vectors left sends nothing. -/
theorem request_of_exhausted (hlast : atm.sequencer.last = lastSequence) (request : Request) :
    ∃ e, atm.request request = .done [failure e] atm := by
  have hnext : atm.sequencer.next = .error (.frame .sequenceExhausted) := by
    rw [Sequencer.next, dif_neg (by omega)]
  exact ⟨_, by rw [Atm.request, hnext]⟩

/-- **Exactly what a line can do to an ATM.**  Take any state that an ATM reaches from its start, and any line,
network, files and typing.

A line that asks for no request sends nothing, asks for no PIN, and changes the session only by logging out.
A line that asks for one sends it under the next vector, as one datagram, unless no vector is left, and then
nothing is different. The PIN is asked for just when the request begins a session and what comes back opens
against it to `success`. The session is what the line, the answer and the PIN make of it; keys and cards stay.
The counts are told by their numbers too: a denied or refused name has one failure more, up to the largest count,
and one who leaves has none. Where no answer is taken, whatever the reason, a line that tells of it is printed, and
the session stays. -/
theorem command_effect (keys : Keys) (cards : CardStore) (sequencer : Sequencer) (capacity ceiling : Nat)
    (inputs : List Input) (transport : List (List UInt8) → Except Error (List UInt8))
    (files : List (List UInt8) → FileTree) (sent : List (List UInt8)) (line : String) (typed : Option String) :
    let start : Atm := { keys, cards, sequencer,
                         session := { attempts := .withCapacity capacity, maxAttempts := ceiling } }
    let atm := start.run inputs
    let handled := atm.command (.recorded transport files) line typed sent
    match atm.session.request? line with
    | none => handled.state = sent ∧ handled.askedPin = false ∧
        handled.atm = { atm with session := atm.session.after line none false } ∧
        atm.session.Counted line none false handled.atm.session
    | some request =>
      (atm.sequencer.last = lastSequence ∧ handled.state = sent ∧ handled.askedPin = false ∧
        (∃ e, handled.lines = [failure e]) ∧ handled.atm = atm) ∨
      ∃ datagram x, atm.Sends request datagram x ∧ handled.state = sent ++ [datagram] ∧
        let reply := transport (sent ++ [datagram])
        let answer := x.answer reply
        let login : Login := { atm := x.atm, user := request.user }
        let passed := login.passes (files (sent ++ [datagram])) typed
        (∀ response, answer = .ok response ↔ ∃ text, x.Opens reply text ∧
          Response.ofString? text = some response ∧ response.answers request = true) ∧
        (handled.askedPin = true ↔ (∃ user, request = .beginSession user) ∧
          ∃ text, x.Opens reply text ∧ Response.ofString? text = some .success) ∧
        handled.atm = { x.atm with session := atm.session.after line answer.toOption passed } ∧
        atm.session.Counted line answer.toOption passed handled.atm.session ∧
        ∀ e, answer = .error e → handled.lines = [failure e] ∧ handled.atm.session = atm.session := by
  intro start atm handled
  have hnamed : ∀ user, atm.session.user? = some user → Credential.isUserName user = true :=
    named_run start (by simp [start]) inputs
  cases hrequest : atm.session.request? line with
  | none =>
    obtain ⟨hstate, hasked, hatm⟩ := command_of_no_request (.recorded transport files) typed sent hrequest
    refine ⟨hstate, hasked, hatm, ?_⟩
    rw [show handled.atm = _ from hatm]
    exact atm.session.counted_after line none false
  | some request =>
    have hasks : Asks atm.session line request := asks_iff.2 hrequest
    have hsubmit := hasks.submit_eq
    by_cases hlast : atm.sequencer.last < lastSequence
    · obtain ⟨datagram, x, hsend, hx⟩ := exists_send hlast (hasks.wellFormed hnamed)
      have hh : handled = _ := command_of_send (hsubmit.trans hsend)
      obtain ⟨hstate, hasked, hatm, herror⟩ := finish_receive (.recorded transport files) typed
        (sent ++ [datagram]) hasks hx (transport (sent ++ [datagram]))
      have hafter : handled.atm = _ := (congrArg Handled.atm hh).trans hatm
      refine Or.inr ⟨datagram, x, hx, by rw [hh]; exact hstate, fun response => ?_, ?_, hafter, ?_, fun e he => ?_⟩
      · rw [Exchange.answer_eq_ok_iff_opens, hx.request_eq]
      · rw [hh]
        refine hasked.trans ⟨?_, ?_⟩
        · rintro ⟨user, rfl, hanswer⟩
          obtain ⟨text, hopens, hsuccess, -⟩ := Exchange.answer_eq_ok_iff_opens.1 hanswer
          exact ⟨⟨user, rfl⟩, text, hopens, hsuccess⟩
        · rintro ⟨⟨user, rfl⟩, text, hopens, hsuccess⟩
          exact ⟨user, rfl, Exchange.answer_eq_ok_iff_opens.2 ⟨text, hopens, hsuccess, by rw [hx.request_eq]; rfl⟩⟩
      · rw [hafter]
        exact atm.session.counted_after line _ _
      · obtain ⟨hlines, hsame⟩ := herror e he
        rw [hh]
        exact ⟨hlines, (congrArg Atm.session hsame).trans hx.session_eq⟩
    · have hend : atm.sequencer.last = lastSequence :=
        Nat.le_antisymm atm.sequencer.last_le (Nat.not_lt.1 hlast)
      obtain ⟨e, hdone⟩ := request_of_exhausted hend request
      have hh : handled = _ := command_of_done (hsubmit.trans hdone)
      rw [hh]
      exact Or.inl ⟨hend, rfl, rfl, ⟨e, rfl⟩, rfl⟩

/-- A new ATM sends one datagram to begin a session, and a timeout leaves the session as it was. -/
theorem command_effect_timeout :
    let atm : Atm := { keys := ⟨Bytes.zero 32, Bytes.zero 32⟩, cards := ⟨⟨"."⟩⟩,
                       sequencer := { start := Bytes.zero 4, last := 0 },
                       session := { attempts := .withCapacity 4, maxAttempts := 3 } }
    let handled := atm.command (.recorded (fun _ => .error (.timeout 1)) fun _ => {}) "begin-session a" none []
    handled.state.length = 1 ∧ handled.lines = [unableToReachBank] ∧ handled.atm.session = atm.session := by
  intro atm handled
  have heffect := command_effect ⟨Bytes.zero 32, Bytes.zero 32⟩ ⟨⟨"."⟩⟩ { start := Bytes.zero 4, last := 0 } 4 3 []
    (fun _ => .error (.timeout 1)) (fun _ => {}) [] "begin-session a" none
  have hrequest : atm.session.request? "begin-session a" = some (.beginSession "a") := by rfl
  simp only [run_nil] at heffect
  rw [hrequest] at heffect
  rcases heffect with ⟨hlast, -⟩ | ⟨datagram, x, -, hstate, -, -, -, -, herror⟩
  · exact absurd hlast (by decide)
  · obtain ⟨hlines, hsession⟩ := herror (.timeout 1) rfl
    exact ⟨by rw [hstate]; rfl, hlines, hsession⟩

end Atm
end Cashpoint
