/-
# What a PIN can be told from

A dialogue is a sequence of console lines and a sequence of inputs at the PIN prompts; an
input is taken only when a PIN is asked for. Two dialogues with the same lines are `Alike`
if at every prompt their inputs pass or fail together, or both are missing.

Alike dialogues cannot be told apart: the same datagrams go out in the same order, the
same lines are printed, and sessions and prompts are the same (`pin_tells_only_acceptance`).
The PIN meets the rest of the ATM in one place, the check at the card, and of that check
only one bit depends on it (`CardStore.verify_cases`). A datagram of the same command does
not even depend on that bit, because it is sent before the PIN is asked for.
-/

import Cashpoint.Proofs.Atm.Effect

namespace Cashpoint

/-- **The check of a PIN fails for the card, whatever the PIN, or tells whether the PIN is on it.** -/
theorem CardStore.verify_cases (store : CardStore) (files : FileTree) (pinKey : Bytes 32) (user : String) :
    (∃ e, ∀ pin, store.verify files pinKey user pin = .error e) ∨
      ∃ card : Card, ∀ pin, store.verify files pinKey user pin = .ok (card.verify pinKey pin) := by
  cases hread : store.read files user with
  | error e => exact Or.inl ⟨e, fun pin => by simp [verify, hread, bind, Except.bind]⟩
  | ok card => exact Or.inr ⟨card, fun pin => by simp [verify, hread, bind, Except.bind, pure, Except.pure]⟩

namespace Login

/-- Whether the card store accepts what was typed. -/
def Accepts (login : Login) (files : FileTree) (typed : String) : Prop :=
  login.atm.cards.verify files login.atm.keys.pinKey login.user (trimLineEnds typed) = .ok true

/-- Two inputs at the PIN prompt that pass or fail together, or are both missing. -/
def Alike (login : Login) (files : FileTree) : Option String → Option String → Prop
  | some typed, some typed' => login.Accepts files typed ↔ login.Accepts files typed'
  | none, none => True
  | _, _ => False

variable {login : Login} {files : FileTree} {typed typed' : Option String}

/-- **Alike inputs are checked alike**, a card that cannot be read included. -/
theorem Alike.check_eq (h : login.Alike files typed typed') :
    login.check files typed = login.check files typed' := by
  cases typed with
  | none =>
    cases typed' with
    | none => rfl
    | some text' => exact h.elim
  | some text =>
    cases typed' with
    | none => exact h.elim
    | some text' =>
      have hsame : login.Accepts files text ↔ login.Accepts files text' := h
      simp only [check]
      rcases login.atm.cards.verify_cases files login.atm.keys.pinKey login.user with ⟨e, herror⟩ | ⟨card, hok⟩
      · rw [herror, herror]
      · simp only [Accepts, hok, Except.ok.injEq] at hsame
        rw [hok, hok, Bool.eq_iff_iff.2 hsame]

/-- Inputs that are alike end the prompt in the same way. -/
theorem Alike.enter_eq (h : login.Alike files typed typed') :
    login.enter files typed = login.enter files typed' := by
  rw [enter, enter, h.check_eq]

end Login

namespace Atm

variable {σ : Type}

/-- The PIN prompt that a line leads to, if it does, and the state of the surroundings at that moment. -/
def pinPrompt? (world : Surroundings σ) (atm : Atm) (line : String) (s : σ) : Option (Login × σ) :=
  match atm.submit line with
  | .done _ _ => none
  | .send datagram x =>
    match x.receive (world.exchange s datagram).1 with
    | .done _ _ => none
    | .askPin login => some (login, (world.exchange s datagram).2)

/-- **The PIN has no part in what is sent**, nor in whether it is asked for. -/
theorem command_sends_alike (world : Surroundings σ) (atm : Atm) (line : String) (s : σ)
    (typed typed' : Option String) :
    (atm.command world line typed s).state = (atm.command world line typed' s).state ∧
      (atm.command world line typed s).askedPin = (atm.command world line typed' s).askedPin := by
  cases hsubmit : atm.submit line with
  | done lines next => simp only [command_of_done hsubmit, and_self]
  | send datagram x =>
    rw [command_of_send hsubmit, command_of_send hsubmit]
    cases x.receive (world.exchange s datagram).1 with
    | done lines next => exact ⟨rfl, rfl⟩
    | askPin login => exact ⟨rfl, rfl⟩

/-- **Inputs that are alike at the prompt of a line make no difference to the turn.** -/
theorem command_alike (world : Surroundings σ) (atm : Atm) (line : String) (s : σ) {typed typed' : Option String}
    (h : ∀ login s', atm.pinPrompt? world line s = some (login, s') →
      login.Alike (world.files s') typed typed') :
    atm.command world line typed s = atm.command world line typed' s := by
  cases hsubmit : atm.submit line with
  | done lines next => rw [command_of_done hsubmit, command_of_done hsubmit]
  | send datagram x =>
    rw [command_of_send hsubmit, command_of_send hsubmit]
    cases hr : x.receive (world.exchange s datagram).1 with
    | done lines next => rfl
    | askPin login =>
      have halike := h login (world.exchange s datagram).2 (by simp only [pinPrompt?, hsubmit, hr])
      simp only [finish, halike.enter_eq]

/-! ## Dialogues -/

/-- The inputs that are left after a turn: one is gone if the PIN was asked for. -/
def Handled.left (handled : Handled σ) (typed : List (Option String)) : List (Option String) :=
  if handled.askedPin then typed.tail else typed

/-- The turns of a dialogue: of its lines in order, with what is typed at the PIN prompts in turn. Once
nothing is left, the input has ended. -/
def dialogue (world : Surroundings σ) : (atm : Atm) → σ → List String → List (Option String) → List (Handled σ)
  | _, _, [], _ => []
  | atm, s, line :: rest, typed =>
    let handled := atm.command world line typed.head?.join s
    handled :: dialogue world handled.atm handled.state rest (handled.left typed)

/-- Two sequences of inputs that are alike at every PIN prompt of a dialogue. -/
def Alike (world : Surroundings σ) :
    (atm : Atm) → σ → List String → List (Option String) → List (Option String) → Prop
  | _, _, [], _, _ => True
  | atm, s, line :: rest, typed, typed' =>
    let handled := atm.command world line typed.head?.join s
    (∀ login s', atm.pinPrompt? world line s = some (login, s') →
      login.Alike (world.files s') typed.head?.join typed'.head?.join) ∧
      Alike world handled.atm handled.state rest (handled.left typed) (handled.left typed')

/-- **Alike dialogues have the same turns.** -/
theorem dialogue_alike (world : Surroundings σ) {atm : Atm} {s : σ} {lines : List String}
    {typed typed' : List (Option String)} (h : Alike world atm s lines typed typed') :
    dialogue world atm s lines typed = dialogue world atm s lines typed' := by
  induction lines generalizing atm s typed typed' with
  | nil => rfl
  | cons line rest ih =>
    obtain ⟨hprompt, hrest⟩ := h
    have hturn := command_alike world atm line s hprompt
    simp only [dialogue]
    rw [ih hrest, hturn]

/-- **A PIN can be told only from whether it is accepted.**  Take any ATM and any files, and a network whose
reply is a function of the datagrams that have gone out. If two dialogues have the same lines, and at every PIN
prompt their inputs are both accepted by the card store, or both entered and not accepted, or both missing, then
every turn of one is the same as in the other: the datagrams that have gone out, the lines that are printed,
whether the PIN is asked for, the session and the prompt.

In one command, the datagrams are the same for any two inputs at all. -/
theorem pin_tells_only_acceptance (transport : List (List UInt8) → Except Error (List UInt8))
    (files : List (List UInt8) → FileTree) (atm : Atm) (sent : List (List UInt8)) :
    let world := Surroundings.recorded transport files
    (∀ lines typed typed', Alike world atm sent lines typed typed' →
      dialogue world atm sent lines typed = dialogue world atm sent lines typed') ∧
    ∀ line typed typed', (atm.command world line typed sent).state = (atm.command world line typed' sent).state ∧
      (atm.command world line typed sent).askedPin = (atm.command world line typed' sent).askedPin :=
  ⟨fun _ _ _ h => dialogue_alike _ h, fun line typed typed' => command_sends_alike _ atm line sent typed typed'⟩

/-- Two PINs for the user `a`, whom the Bank confirms. The ATM asks for a PIN, finds no card, and goes on in the
same way after both. -/
theorem pin_tells_only_acceptance_wrong :
    ∃ transport : List (List UInt8) → Except Error (List UInt8),
      let atm : Atm := { keys := ⟨Bytes.zero 32, Bytes.zero 32⟩, cards := ⟨⟨"."⟩⟩,
                         sequencer := { start := Bytes.zero 4, last := 0 },
                         session := { attempts := .withCapacity 4, maxAttempts := 3 } }
      let world := Surroundings.recorded transport fun _ => {}
      (atm.pinPrompt? world "begin-session a" []).isSome = true ∧
        Alike world atm [] ["begin-session a"] [some "1234"] [some "4321"] ∧
        dialogue world atm [] ["begin-session a"] [some "1234"] =
          dialogue world atm [] ["begin-session a"] [some "4321"] := by
  let atm : Atm := { keys := ⟨Bytes.zero 32, Bytes.zero 32⟩, cards := ⟨⟨"."⟩⟩,
                     sequencer := { start := Bytes.zero 4, last := 0 },
                     session := { attempts := .withCapacity 4, maxAttempts := 3 } }
  have hname : Credential.isUserName "a" = true := by decide
  have hwf : (Request.beginSession "a").WellFormed := hname
  obtain ⟨datagram, x, hsend, hx⟩ := atm.exists_send (by decide) hwf
  have hsmall : (Utf8.encode Response.success.render).length ≤ Frame.largestPlaintext := by decide
  obtain ⟨reply, bytes, hs, he⟩ := Frame.exists_sealWith hsmall x.atm.keys.messageKey (Bytes.zero 12)
    x.sealed.binding
  have hanswer : x.answer (.ok bytes) = .ok .success :=
    Exchange.answer_of_sealReply hs he trivial (by rw [hx.request_eq]; rfl)
  have hreceive : x.receive (.ok bytes) = .askPin { atm := x.atm, user := "a" } := by
    simp only [Exchange.receive, hanswer, hx.request_eq, Exchange.confirm]
  have hline : Console.AtmCommand.ofLine "begin-session a" = .ok (.beginSession "a") := by rfl
  have hsubmit : atm.submit "begin-session a" = .send datagram x := by
    simp only [submit, hline, Atm.beginSession]
    exact hsend
  have hprompt : atm.pinPrompt? (.recorded (fun _ => .ok bytes) fun _ => {}) "begin-session a" [] =
      some ({ atm := x.atm, user := "a" }, [datagram]) := by
    simp only [pinPrompt?, hsubmit, Surroundings.recorded, hreceive, List.nil_append]
  have hrefused (typed : String) : ¬ ({ atm := x.atm, user := "a" } : Login).Accepts {} typed := by
    have hread : (⟨⟨"."⟩⟩ : CardStore).read {} "a" = .error (.cardNotFound "a") := by rfl
    have hcards : x.atm.cards = ⟨⟨"."⟩⟩ := hx.cards_eq
    simp [Login.Accepts, CardStore.verify, hcards, hread, bind, Except.bind]
  have halike : Alike (.recorded (fun _ => .ok bytes) fun _ => {}) atm [] ["begin-session a"]
      [some "1234"] [some "4321"] := by
    refine ⟨fun login s' h => ?_, trivial⟩
    obtain ⟨rfl, rfl⟩ := Prod.mk.inj (Option.some.inj (hprompt.symm.trans h))
    exact iff_of_false (hrefused _) (hrefused _)
  exact ⟨fun _ => .ok bytes, by rw [hprompt]; rfl, halike, (pin_tells_only_acceptance _ _ atm []).1 _ _ _ halike⟩

end Atm
end Cashpoint
