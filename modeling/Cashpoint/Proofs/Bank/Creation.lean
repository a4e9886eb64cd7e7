/-
# A user and a card, or neither

A command at the console that creates a user changes two stores, first the directory of
cards and then the ledger. It changes both or none (`console_creates_or_keeps`): the card is
made exclusively, so a name that stands in the directory already is refused before anything
has changed, and once the card stands, nothing can keep the user out of the ledger, because
the name was looked up before and the console takes no negative balance.

So users and cards never come apart. As long as nobody else touches the cards (`Untouched`),
every user in the ledger has one, and its bytes stay what they were at the creation
(`creation_all_or_nothing`).
-/

import Cashpoint.Proofs.Bank.Console
import Cashpoint.Proofs.Bank.Run

namespace Cashpoint

open Console (BankCommand)

namespace Bank

/-! ## One line -/

/-- **A deposit makes no user**, and is not answered like a creation. -/
theorem deposit_makes_no_user (bank : Bank) (user : String) (amount : Amount) :
    (∀ other, (bank.deposit user amount).1 ≠ userCreated other) ∧
      ∀ other, (bank.deposit user amount).2.ledger.contains other = bank.ledger.contains other := by
  have hnone {answer : String} {first : Char} (h : answer.toList.head? = some first)
      (hne : first ≠ 'C' ∧ first ≠ '$') (other : String) : answer ≠ userCreated other :=
    fun heq => (uneventful_of_head? h hne).ne_userCreated other (congrArg some heq)
  unfold deposit
  split
  · rename_i sum ledger hdeposit
    exact ⟨fun other => userCreated_ne_deposited.symm, Ledger.contains_deposit hdeposit⟩
  · have hhead : noSuchUser.toList.head? = some 'N' := rfl
    exact ⟨hnone hhead (by decide), fun _ => rfl⟩
  · have hhead : tooRich.toList.head? = some 'T' := rfl
    exact ⟨hnone hhead (by decide), fun _ => rfl⟩
  · have hhead : Console.Usage.deposit.line.toList.head? = some 'U' := rfl
    exact ⟨hnone hhead (by decide), fun _ => rfl⟩

/-- **A line creates a user and a card, or keeps the users and the files.** Nothing is assumed of the
ledger, and nothing of the files. -/
theorem console_creates_or_keeps (bank : Bank) (files : FileTree) (cardIv : Block) (text : String) :
    (∃ user pin opening files', BankCommand.ofLine text = .ok (.createUser user pin opening) ∧
      bank.ledger.balance? user = none ∧
      bank.cards.create files bank.keys.pinKey cardIv user pin = .ok files' ∧
      bank.console files cardIv text =
        (some (userCreated user), { bank with ledger := bank.ledger.setBalance user opening }, files')) ∨
      (∀ user, (bank.console files cardIv text).1 ≠ some (userCreated user)) ∧
      (∀ user, (bank.console files cardIv text).2.1.ledger.contains user = bank.ledger.contains user) ∧
      (bank.console files cardIv text).2.2 = files := by
  cases hline : BankCommand.ofLine text with
  | error rejection =>
    refine Or.inr ?_
    rw [console, hline]
    exact ⟨(uneventful_rejection rejection).ne_userCreated, fun _ => rfl, rfl⟩
  | ok command =>
    have hwf := BankCommand.wellFormed_of_ofLine hline
    rw [console_of_command hline]
    cases command with
    | createUser user pin opening =>
      rcases bank.createUser_cases files cardIv user pin hwf.2.2 with
        ⟨hnew, files', hcreate, hout⟩ | ⟨answer, hnone, hout⟩
      · exact Or.inl ⟨user, pin, opening, files', rfl, hnew, hcreate, by rw [execute, hout]⟩
      · refine Or.inr ?_
        rw [execute, hout]
        exact ⟨hnone.ne_userCreated, fun _ => rfl, rfl⟩
    | deposit user amount =>
      obtain ⟨hanswer, hsame⟩ := bank.deposit_makes_no_user user amount
      exact Or.inr ⟨fun other heq => hanswer other (Option.some.inj heq), hsame, rfl⟩
    | balance user => exact Or.inr ⟨(uneventful_balance bank user).ne_userCreated, fun _ => rfl, rfl⟩

/-- **When a command to create a user does it**: the name is new in the ledger, and the card can be made. -/
theorem answer_eq_userCreated_iff {text user pin : String} {opening : Amount}
    (hline : BankCommand.ofLine text = .ok (.createUser user pin opening)) (bank : Bank) (files : FileTree)
    (cardIv : Block) : (bank.console files cardIv text).1 = some (userCreated user) ↔
      bank.ledger.contains user = false ∧
        ∃ files', bank.cards.create files bank.keys.pinKey cardIv user pin = .ok files' := by
  obtain ⟨-, -, hpos⟩ := BankCommand.wellFormed_of_ofLine hline
  constructor
  · intro hanswer
    rcases bank.console_creates_or_keeps files cardIv text with
      ⟨other, _, _, files', hsame, hnew, hcreate, -⟩ | ⟨hnone, -, -⟩
    · rw [hline] at hsame
      obtain ⟨rfl, rfl, rfl⟩ := BankCommand.createUser.inj (Except.ok.inj hsame)
      exact ⟨by rw [Ledger.contains_eq, hnew]; rfl, files', hcreate⟩
    · exact absurd hanswer (hnone user)
  · rintro ⟨hnew, files', hcreate⟩
    rw [console_of_command hline, execute, createUser_of_new hpos (by simpa [Ledger.contains_eq] using hnew) hcreate]

/-- One user more: an entry of the ledger, and a file of 32 bytes at a place that was free, directly inside
the directory of cards. -/
structure OneMore (bank after : Bank) (files files' : FileTree) (user : String) (opening : Amount) : Prop where
  new : bank.ledger.balance? user = none
  balance : ∀ other, after.ledger.balance? other =
    if user = other then some opening else bank.ledger.balance? other
  card : ∃ folder bytes, files.walk (files.start bank.cards.directory) bank.cards.directory.steps = .ok folder ∧
    files.lookup folder = some .directory ∧ files.lookup (folder ++ [CardStore.fileName user]) = none ∧
    bytes.length = 32 ∧ files'.home = files.home ∧
    ∀ place, files'.lookup place =
      if folder ++ [CardStore.fileName user] = place then some (.file bytes) else files.lookup place

/-- When the card of a new user was made, there is one user and one card more. -/
theorem oneMore_of_create {bank : Bank} {files files' : FileTree} {cardIv : Block} {user pin : String}
    (hnew : bank.ledger.balance? user = none)
    (hcreate : bank.cards.create files bank.keys.pinKey cardIv user pin = .ok files') (opening : Amount) :
    OneMore bank { bank with ledger := bank.ledger.setBalance user opening } files files' user opening where
  new := hnew
  balance other := Ledger.balance?_setBalance ..
  card := by
    obtain ⟨folder, card, hwalk, hfolder, hfree, rfl⟩ := CardStore.create_eq_put hcreate
    exact ⟨folder, card.toBytes, hwalk, hfolder, hfree, card.length_toBytes, rfl,
      fun place => FileTree.lookup_put (by simp)⟩

/-- A datagram creates no user and removes none. -/
theorem contains_handle (bank : Bank) (replyIv : Bytes 12) (datagram : List UInt8) (user : String) :
    (bank.handle replyIv datagram).2.ledger.contains user = bank.ledger.contains user := by
  cases h : bank.newRequest? datagram with
  | none => rw [handle_of_not_newRequest h]
  | some opened =>
    obtain ⟨_, _, he⟩ := handle_of_newRequest h replyIv
    rw [he]
    exact contains_respondTo ..

end Bank

namespace Branch

open Bank (Event)

/-! ## Runs -/

/-- The content of a user's card file. -/
def cardFile (b : Branch) (user : String) : Except IoKind (List UInt8) :=
  b.files.read (b.bank.cards.directory.join (CardStore.fileName user))

/-- Where somebody else changes the files, every card file that could be read before holds the same after. -/
def LeavesCards (b : Branch) : Event → Prop
  | .change files => ∀ user content, b.cardFile user = .ok content →
      ({ b with files } : Branch).cardFile user = .ok content
  | _ => True

/-- Nobody but the Bank touches the cards. -/
def Untouched (b : Branch) : List Event → Prop
  | [] => True
  | event :: rest => b.LeavesCards event ∧ (b.step event).Untouched rest

/-- Every user in the ledger has a card. -/
def Carded (b : Branch) : Prop :=
  ∀ user, b.bank.ledger.contains user = true →
    Credential.isUserName user = true ∧ ∃ card : Card, b.cardFile user = .ok card.toBytes

variable {b : Branch} {event : Event} {user : String} {content : List UInt8}

/-- **What an event can do to users and cards**: a line makes one more of both, and anything else keeps the
users and the cards. -/
theorem step_creates_or_keeps (hleaves : b.LeavesCards event) :
    (∃ user pin cardIv opening files', b.bank.ledger.balance? user = none ∧
      b.bank.cards.create b.files b.bank.keys.pinKey cardIv user pin = .ok files' ∧
      b.step event = { bank := { b.bank with ledger := b.bank.ledger.setBalance user opening }, files := files' }) ∨
      (∀ user, (b.step event).bank.ledger.contains user = b.bank.ledger.contains user) ∧
      ∀ user content, b.cardFile user = .ok content → (b.step event).cardFile user = .ok content := by
  have hcards := b.cards_step event
  cases event with
  | line cardIv text =>
    rcases b.bank.console_creates_or_keeps b.files cardIv text with
      ⟨user, pin, opening, files', -, hnew, hcreate, hout⟩ | ⟨-, hsame, hfiles⟩
    · exact Or.inl ⟨user, pin, cardIv, opening, files', hnew, hcreate, by simp only [step, hout]⟩
    · refine Or.inr ⟨hsame, fun user content hread => ?_⟩
      have hkept : (b.step (.line cardIv text)).files = b.files := hfiles
      rw [cardFile, hcards, hkept]
      exact hread
  | datagram replyIv bytes =>
    refine Or.inr ⟨b.bank.contains_handle replyIv bytes, fun user content hread => ?_⟩
    rw [cardFile, hcards]
    exact hread
  | change files => exact Or.inr ⟨fun _ => rfl, hleaves⟩

/-- An event that leaves the cards alone removes no user. -/
theorem contains_step (hleaves : b.LeavesCards event) (h : b.bank.ledger.contains user = true) :
    (b.step event).bank.ledger.contains user = true := by
  rcases step_creates_or_keeps hleaves with ⟨other, _, _, opening, _, -, -, hstep⟩ | ⟨hsame, -⟩
  · rw [hstep, Ledger.contains_setBalance, h, Bool.or_true]
  · rw [hsame, h]

/-- **A card that is there stays as it is.** -/
theorem cardFile_step (hleaves : b.LeavesCards event) (h : b.cardFile user = .ok content) :
    (b.step event).cardFile user = .ok content := by
  rcases step_creates_or_keeps hleaves with ⟨other, _, _, _, _, -, hcreate, hstep⟩ | ⟨-, hsame⟩
  · obtain ⟨-, _, -, hfile⟩ := CardStore.create_eq_ok hcreate
    rw [hstep]
    exact FileTree.read_after_createFile hfile h
  · exact hsame user content h

/-- **Every event keeps users and cards together.** -/
theorem Carded.step (h : b.Carded) (hleaves : b.LeavesCards event) : (b.step event).Carded := by
  intro user hin
  rcases step_creates_or_keeps hleaves with ⟨other, _, _, opening, _, -, hcreate, hstep⟩ | ⟨hsame, -⟩
  · rw [hstep, Ledger.contains_setBalance, Bool.or_eq_true, decide_eq_true_iff] at hin
    rcases hin with rfl | hin
    · obtain ⟨huser, card, -, hfile⟩ := CardStore.create_eq_ok hcreate
      rw [hstep]
      exact ⟨huser, card, FileTree.read_of_createFile hfile⟩
    · obtain ⟨huser, card, hcard⟩ := h user hin
      exact ⟨huser, card, cardFile_step hleaves hcard⟩
  · rw [hsame] at hin
    obtain ⟨huser, card, hcard⟩ := h user hin
    exact ⟨huser, card, cardFile_step hleaves hcard⟩

/-- As long as nobody touches the cards, every user has one. -/
theorem Carded.run {events : List Event} (h : b.Carded) (huntouched : b.Untouched events) :
    (b.run events).Carded := by
  induction events generalizing b with
  | nil => exact h
  | cons event rest ih => exact ih (h.step huntouched.1) huntouched.2

/-- As long as nobody touches the cards, no user is removed. -/
theorem contains_run {events : List Event} (huntouched : b.Untouched events)
    (h : b.bank.ledger.contains user = true) : (b.run events).bank.ledger.contains user = true := by
  induction events generalizing b with
  | nil => exact h
  | cons event rest ih => exact ih huntouched.2 (contains_step huntouched.1 h)

/-- As long as nobody touches the cards, what a card file holds stays. -/
theorem cardFile_run {events : List Event} (huntouched : b.Untouched events) (h : b.cardFile user = .ok content) :
    (b.run events).cardFile user = .ok content := by
  induction events generalizing b with
  | nil => exact h
  | cons event rest ih => exact ih huntouched.2 (cardFile_step huntouched.1 h)

/-- At the start there is no user without a card. -/
theorem carded_start (keys : Keys) (cards : CardStore) (files : FileTree) : (start keys cards files).Carded := by
  intro user h
  simp [start, Ledger.contains_eq, Ledger.balance?, Ledger.empty] at h

/-- **Creating a user is all or nothing.** Whatever a Bank has in its ledger and finds among the files, a line
at its console does one of two things. Either the line is a command to create a user and the answer is
`Created user u`: then there is one user more and one card more, and nothing else is different. Or nobody is
told of as created, and the users and all files are the same.

A command creates the user just if the name is new in the ledger and the card can be made exclusively.

So in every run of a Bank from its start in which nobody else touches the cards, every user in the ledger has
a card that can be read, with 32 bytes that stay the same as long as nobody else touches the cards. -/
theorem creation_all_or_nothing :
    (∀ (bank : Bank) (files : FileTree) (cardIv : Block) (text : String),
      let (answer, after, files') := bank.console files cardIv text
      (∃ user pin opening, BankCommand.ofLine text = .ok (.createUser user pin opening) ∧
        answer = some (Bank.userCreated user) ∧ bank.OneMore after files files' user opening) ∨
      (∀ user, answer ≠ some (Bank.userCreated user)) ∧
        (∀ user, after.ledger.contains user = bank.ledger.contains user) ∧ files' = files) ∧
    (∀ (bank : Bank) (files : FileTree) (cardIv : Block) (text user pin : String) (opening : Amount),
      BankCommand.ofLine text = .ok (.createUser user pin opening) →
      ((bank.console files cardIv text).1 = some (Bank.userCreated user) ↔ bank.ledger.contains user = false ∧
        ∃ files', bank.cards.create files bank.keys.pinKey cardIv user pin = .ok files')) ∧
    ∀ (keys : Keys) (cards : CardStore) (files : FileTree) (events : List Event),
      (start keys cards files).Untouched events →
      let b := (start keys cards files).run events
      ∀ user, b.bank.ledger.contains user = true → ∃ card, b.bank.cards.read b.files user = .ok card ∧
        b.cardFile user = .ok card.toBytes ∧ card.toBytes.length = 32 ∧
        ∀ late, b.Untouched late → (b.run late).bank.ledger.contains user = true ∧
          (b.run late).cardFile user = .ok card.toBytes := by
  refine ⟨fun bank files cardIv text => ?_, fun bank files cardIv text user pin opening hline =>
    Bank.answer_eq_userCreated_iff hline bank files cardIv, fun keys cards files events huntouched => ?_⟩
  · rcases bank.console_creates_or_keeps files cardIv text with
      ⟨user, pin, opening, files', hline, hnew, hcreate, hout⟩ | hkeeps
    · rw [hout]
      exact Or.inl ⟨user, pin, opening, hline, rfl, Bank.oneMore_of_create hnew hcreate opening⟩
    · exact Or.inr hkeeps
  · intro b user hin
    obtain ⟨huser, card, hcard⟩ := (carded_start keys cards files).run huntouched user hin
    refine ⟨card, CardStore.read_eq_ok_iff.2 ⟨huser, card.toBytes, hcard, Card.ofBytes?_toBytes card⟩, hcard,
      card.length_toBytes, fun late hlate => ?_⟩
    exact ⟨contains_run hlate hin, cardFile_run hlate hcard⟩

/-- Among no files, the user `a` is created, and a second attempt leaves the card as it is. -/
theorem creation_all_or_nothing_first :
    ∃ (b : Branch) (creation again : Event), b = start b.bank.keys b.bank.cards b.files ∧
      b.Untouched [creation] ∧ (b.run [creation]).bank.ledger.contains "a" = true ∧
      ∃ card : Card, (b.run [creation]).cardFile "a" = .ok card.toBytes ∧
        ((b.run [creation]).run [again]).cardFile "a" = .ok card.toBytes := by
  obtain ⟨b, hb⟩ : ∃ b : Branch, b = start ⟨Bytes.zero 32, Bytes.zero 32⟩ ⟨⟨"."⟩⟩ {} := ⟨_, rfl⟩
  have huntouched : b.Untouched [.line (Bytes.zero 16) "create-user a 1234 5"] := ⟨trivial, trivial⟩
  have hin : (b.run [.line (Bytes.zero 16) "create-user a 1234 5"]).bank.ledger.contains "a" = true := by
    have hline : BankCommand.ofLine "create-user a 1234 5" = .ok (.createUser "a" "1234" 5) := by rfl
    have hleads : b.files.Leads b.bank.cards.directory [] := hb ▸ FileTree.leads_here
    have hfits : b.bank.cards.Fits "a" := by
      rw [hb]
      exact CardStore.fits_of_short (by decide) (by decide)
    obtain ⟨_, -, hout⟩ :=
      Bank.console_of_free hline hleads hfits (by rw [hb]; rfl) (by rw [hb]; rfl) (Bytes.zero 16)
    simp [step, hout, Ledger.contains_setBalance]
  have hruns := creation_all_or_nothing.2.2 b.bank.keys b.bank.cards b.files
  have hstart : start b.bank.keys b.bank.cards b.files = b := by
    rw [hb]
    rfl
  rw [hstart] at hruns
  obtain ⟨card, -, hcard, -, hstays⟩ := hruns _ huntouched "a" hin
  have hagain := (hstays [.line (Bytes.zero 16) "create-user a 4321 7"] ⟨trivial, trivial⟩).2
  exact ⟨b, _, _, hstart.symm, huntouched, hin, card, hcard, hagain⟩

end Branch
end Cashpoint
