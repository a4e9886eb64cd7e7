/-
# What the console answers

`createUser_cases` and `deposit_cases` say everything that the two commands with an effect
can lead to, and `console_cases` what a line can.

The outcome can be read off the answer: `Created user u` answers nothing but a command
that has created `u`, and `$a added to u's account` nothing but a deposit of `a` that was
made for `u`. After every other answer the Bank and its files are as they were
(`Uneventful`).
-/

import Cashpoint.Proofs.Card.Store
import Cashpoint.Proofs.Console.Commands
import Cashpoint.Proofs.Ledger.Balances

namespace Cashpoint

open Console (BankCommand Rejection)

namespace Bank

variable {bank : Bank} {user other : String} {amount paid : Amount}

/-! ## Texts -/

/-- The answer tells which user was created. -/
theorem userCreated_inj (h : userCreated user = userCreated other) : user = other :=
  (String.append_right_inj _).1 h

/-- An amount with a dollar sign is one word. -/
theorem isWord_money (amount : Amount) : Text.IsWord ("$" ++ amount.render) := by
  refine ⟨by simp [String.toList_append], fun c hc => ?_⟩
  rw [String.toList_append] at hc
  rcases List.mem_append.1 hc with hc | hc
  · obtain rfl := List.mem_singleton.1 hc
    decide
  · exact Amount.isBlank_of_mem_render hc

/-- The first word of the answer to a deposit is the money. -/
theorem words_deposited (amount : Amount) (user : String) :
    Text.words (deposited amount user) =
      ("$" ++ amount.render) :: Text.words ("added to " ++ user ++ "'s account") := by
  rw [← Text.words_append_blank (isWord_money amount)]
  simp only [deposited, String.append_assoc]
  rfl

/-- The answer tells which amount was added, and to whose account. -/
theorem deposited_inj (hpos : 0 ≤ amount.toInt) (h : deposited amount user = deposited paid other) :
    amount = paid ∧ user = other := by
  have hmoney : "$" ++ amount.render = "$" ++ paid.render := by
    have hwords := congrArg List.head? (congrArg Text.words h)
    rw [words_deposited, words_deposited] at hwords
    exact Option.some.inj hwords
  obtain rfl := Amount.render_inj hpos ((String.append_right_inj _).1 hmoney)
  exact ⟨rfl, (String.append_right_inj _).1 ((String.append_left_inj _).1 h)⟩

/-- No deposit is answered like the creation of a user. -/
theorem userCreated_ne_deposited : userCreated user ≠ deposited amount other := by
  intro h
  have hhead := congrArg (fun text => text.toList.head?) h
  simp [userCreated, deposited, String.toList_append] at hhead

/-- The answer tells neither of a new user nor of a deposit. -/
structure Uneventful (answer : Option String) : Prop where
  ne_userCreated : ∀ user, answer ≠ some (userCreated user)
  ne_deposited : ∀ amount user, answer ≠ some (deposited amount user)

/-- The first characters tell the answers apart. -/
theorem uneventful_of_head? {answer : String} {first : Char} (h : answer.toList.head? = some first)
    (hne : first ≠ 'C' ∧ first ≠ '$') : Uneventful (some answer) where
  ne_userCreated user heq := by
    rw [Option.some.inj heq, userCreated, String.toList_append] at h
    exact hne.1 (Option.some.inj h).symm
  ne_deposited amount user heq := by
    rw [Option.some.inj heq, deposited] at h
    simp only [String.toList_append] at h
    exact hne.2 (Option.some.inj h).symm

/-- The answer about a user who is there begins with an `E`. -/
theorem head?_userExists (user : String) : (userExists user).toList.head? = some 'E' := by
  have hlist : (userExists user).toList = "Error: user ".toList ++ user.toList ++ " already exists".toList := by
    simp only [userExists, String.toList_append]
  rw [hlist]
  simp

/-- The answer about a card that was not made begins with an `E`. -/
theorem head?_cardFailed (user : String) : (cardFailed user).toList.head? = some 'E' := by
  have hlist : (cardFailed user).toList = "Error creating card file for ".toList ++ user.toList :=
    String.toList_append
  rw [hlist]
  simp

/-- A balance that is shown tells of no change. -/
theorem uneventful_money (amount : Amount) : Uneventful (some ("$" ++ amount.render)) where
  ne_userCreated user h := by
    have hhead := congrArg (fun text => text.toList.head?) (Option.some.inj h)
    simp [userCreated, String.toList_append] at hhead
  ne_deposited paid user h := by
    have hblank : ' ' ∈ ("$" ++ amount.render).toList := by
      rw [Option.some.inj h]
      simp [deposited, String.toList_append]
    exact absurd ((isWord_money amount).2 ' ' hblank) (by decide)

/-- What is said about a line that is no command tells of no change. -/
theorem uneventful_rejection (rejection : Rejection) : Uneventful rejection.message := by
  cases rejection with
  | empty => exact ⟨nofun, nofun⟩
  | usage expected => cases expected <;> exact uneventful_of_head? rfl (by decide)
  | invalid => exact uneventful_of_head? rfl (by decide)

/-! ## Commands -/

/-- A new user whose card could be made is in the ledger with the opening balance. -/
theorem createUser_of_new {files files' : FileTree} {cardIv : Block} {pin : String} {opening : Amount}
    (hpos : 0 ≤ opening.toInt) (hnew : bank.ledger.balance? user = none)
    (hcreate : bank.cards.create files bank.keys.pinKey cardIv user pin = .ok files') :
    bank.createUser files cardIv user pin opening =
      (userCreated user, { bank with ledger := bank.ledger.setBalance user opening }, files') := by
  rw [createUser, Ledger.contains_eq, hnew, Option.isSome_none, if_neg Bool.false_ne_true, hcreate]
  simp only [Ledger.create_of_new hpos hnew]

/-- **What a new user can lead to.** -/
theorem createUser_cases (bank : Bank) (files : FileTree) (cardIv : Block) (user pin : String)
    {opening : Amount} (hpos : 0 ≤ opening.toInt) :
    (bank.ledger.balance? user = none ∧ ∃ files',
      bank.cards.create files bank.keys.pinKey cardIv user pin = .ok files' ∧
        bank.createUser files cardIv user pin opening =
          (userCreated user, { bank with ledger := bank.ledger.setBalance user opening }, files')) ∨
      ∃ answer, Uneventful (some answer) ∧
        bank.createUser files cardIv user pin opening = (answer, bank, files) := by
  cases hb : bank.ledger.balance? user with
  | some balance =>
    refine Or.inr ⟨userExists user, uneventful_of_head? (head?_userExists user) (by decide), ?_⟩
    rw [createUser, Ledger.contains_eq, hb]
    rfl
  | none =>
    cases hcreate : bank.cards.create files bank.keys.pinKey cardIv user pin with
    | error e =>
      refine Or.inr ⟨cardFailed user, uneventful_of_head? (head?_cardFailed user) (by decide), ?_⟩
      rw [createUser, Ledger.contains_eq, hb, hcreate]
      rfl
    | ok files' => exact Or.inl ⟨rfl, files', rfl, createUser_of_new hpos hb hcreate⟩

/-- **What a deposit can lead to**, if no balance is negative. -/
theorem deposit_cases (hrange : bank.ledger.InRange) (user : String) (hpos : 0 ≤ amount.toInt) :
    (∃ balance sum, bank.ledger.balance? user = some balance ∧ sum.toInt = balance.toInt + amount.toInt ∧
      bank.deposit user amount =
        (deposited amount user, { bank with ledger := bank.ledger.setBalance user sum })) ∨
      ∃ answer, Uneventful (some answer) ∧ bank.deposit user amount = (answer, bank) := by
  unfold deposit
  rcases bank.ledger.deposit_cases user hpos (hrange user) with
    ⟨-, hd⟩ | ⟨_, -, -, hd⟩ | ⟨balance, sum, hb, hsum, hd⟩
  · exact Or.inr ⟨noSuchUser, uneventful_of_head? rfl (by decide), by rw [hd]⟩
  · exact Or.inr ⟨tooRich, uneventful_of_head? rfl (by decide), by rw [hd]⟩
  · exact Or.inl ⟨balance, sum, hb, hsum, by rw [hd]⟩

/-- The answer to a balance line tells of no change, whether there is a balance or not. -/
theorem uneventful_balance (bank : Bank) (user : String) : Uneventful (some (bank.balance user)) := by
  unfold balance
  split
  · exact uneventful_money _
  · exact uneventful_of_head? rfl (by decide)

/-! ## Lines -/

/-- A line that stands for a command is executed and answered. -/
theorem console_of_command {text : String} {command : BankCommand} (h : BankCommand.ofLine text = .ok command)
    (bank : Bank) (files : FileTree) (cardIv : Block) :
    bank.console files cardIv text = (some (bank.execute files cardIv command).1,
      (bank.execute files cardIv command).2) := by
  rw [console, h]

/-- **A user who is new in the ledger and among the cards is created**, if the path of the card can be
followed. -/
theorem console_of_free {text user pin : String} {opening : Amount} {files : FileTree} {place : Location}
    (hline : BankCommand.ofLine text = .ok (.createUser user pin opening))
    (hleads : files.Leads bank.cards.directory place) (hfits : bank.cards.Fits user)
    (hfree : files.lookup (place ++ [CardStore.fileName user]) = none)
    (hnew : bank.ledger.balance? user = none) (cardIv : Block) :
    ∃ card, Card.ofPin bank.keys.pinKey cardIv pin = .ok card ∧ bank.console files cardIv text =
      (some (userCreated user), { bank with ledger := bank.ledger.setBalance user opening },
        files.put (place ++ [CardStore.fileName user]) (.file card.toBytes)) := by
  obtain ⟨huser, hpin, hpos⟩ := BankCommand.wellFormed_of_ofLine hline
  obtain ⟨card, hcard, hcreate⟩ :=
    CardStore.create_of_free hleads huser hpin hfits hfree bank.keys.pinKey cardIv
  refine ⟨card, hcard, ?_⟩
  rw [console_of_command hline, execute, createUser_of_new hpos hnew hcreate]

/-- **What a line can lead to**, if no balance is negative: a new user, a deposit, or nothing. -/
theorem console_cases (hrange : bank.ledger.InRange) (files : FileTree) (cardIv : Block) (text : String) :
    (∃ user pin opening files', BankCommand.ofLine text = .ok (.createUser user pin opening) ∧
      (BankCommand.createUser user pin opening).WellFormed ∧ bank.ledger.balance? user = none ∧
      bank.cards.create files bank.keys.pinKey cardIv user pin = .ok files' ∧
      bank.console files cardIv text =
        (some (userCreated user), { bank with ledger := bank.ledger.setBalance user opening }, files')) ∨
      (∃ user amount balance sum, BankCommand.ofLine text = .ok (.deposit user amount) ∧
        (BankCommand.deposit user amount).WellFormed ∧ bank.ledger.balance? user = some balance ∧
        sum.toInt = balance.toInt + amount.toInt ∧
        bank.console files cardIv text =
          (some (deposited amount user), { bank with ledger := bank.ledger.setBalance user sum }, files)) ∨
      ∃ answer, Uneventful answer ∧ bank.console files cardIv text = (answer, bank, files) := by
  cases hline : BankCommand.ofLine text with
  | error rejection =>
    exact Or.inr (Or.inr ⟨rejection.message, uneventful_rejection rejection, by rw [console, hline]⟩)
  | ok command =>
    have hwf := BankCommand.wellFormed_of_ofLine hline
    rw [console_of_command hline]
    cases command with
    | createUser user pin opening =>
      rcases bank.createUser_cases files cardIv user pin hwf.2.2 with
        ⟨hb, files', hcreate, hout⟩ | ⟨answer, hnone, hout⟩
      · exact Or.inl ⟨user, pin, opening, files', rfl, hwf, hb, hcreate, by rw [execute, hout]⟩
      · exact Or.inr (Or.inr ⟨some answer, hnone, by rw [execute, hout]⟩)
    | deposit user amount =>
      rcases bank.deposit_cases hrange user hwf.2 with ⟨balance, sum, hb, hsum, hout⟩ | ⟨answer, hnone, hout⟩
      · exact Or.inr (Or.inl ⟨user, amount, balance, sum, rfl, hwf, hb, hsum, by simp only [execute, hout]⟩)
      · exact Or.inr (Or.inr ⟨some answer, hnone, by simp only [execute, hout]⟩)
    | balance user => exact Or.inr (Or.inr ⟨some (bank.balance user), uneventful_balance bank user, rfl⟩)

/-- **`Created user u` answers a command to create `u`**, and nothing else. -/
theorem command_of_userCreated (hrange : bank.ledger.InRange) {files : FileTree} {cardIv : Block} {text : String}
    (h : (bank.console files cardIv text).1 = some (userCreated user)) :
    ∃ pin opening, BankCommand.ofLine text = .ok (.createUser user pin opening) := by
  rcases console_cases hrange files cardIv text with
    ⟨other, pin, opening, _, hline, -, -, -, hout⟩ | ⟨other, amount, _, _, -, -, -, -, hout⟩ |
      ⟨answer, hnone, hout⟩
  · rw [hout] at h
    obtain rfl := userCreated_inj (Option.some.inj h)
    exact ⟨pin, opening, hline⟩
  · rw [hout] at h
    exact absurd (Option.some.inj h).symm userCreated_ne_deposited
  · rw [hout] at h
    exact absurd h (hnone.ne_userCreated user)

end Bank
end Cashpoint
