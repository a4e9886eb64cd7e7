/-
# The answers of the Bank

As long as ledger and cards hold just the accounts of the plain system, the Bank
answers requests (`Holds.respond_withdraw`, `Holds.respond_balance`) and console lines
(`Holds.console`) as the plain system does, and afterwards they still hold the accounts.
-/

import Cashpoint.Proofs.Console.Commands
import Cashpoint.Proofs.Plain.Vault

namespace Cashpoint
namespace Vault
namespace Holds

variable {v : Vault} {ledger : Ledger} {files : FileTree} {p : Plain}

/-! ## Requests -/

/-- The Bank confirms a name just if there is an account. -/
theorem respond_beginSession (h : v.Holds ledger files p.accounts) (user : String) :
    Bank.respond ledger (.beginSession user) =
      (if (p.accounts.get? user).isSome then .success else .noSuchUser, ledger) := by
  rw [Bank.respond, Ledger.contains_eq, h.isSome_eq]

/-- **A withdrawal is answered as the plain one.** -/
theorem respond_withdraw (h : v.Holds ledger files p.accounts) (user : String) {amount : Amount}
    (hpos : 0 ≤ amount.toInt) :
    (Bank.respond ledger (.withdraw user amount)).1.render = (p.withdraw user amount.toInt.toNat).1 ∧
      v.Holds (Bank.respond ledger (.withdraw user amount)).2 files
        (p.withdraw user amount.toInt.toNat).2.accounts ∧
      (p.withdraw user amount.toInt.toNat).2.session = p.session := by
  have hnat : amount.toInt = (amount.toInt.toNat : Int) := by omega
  rcases ledger.withdraw_cases user hpos with
    ⟨hb, hw⟩ | ⟨balance, hb, hlt, hw⟩ | ⟨balance, hb, hle, hrest, hw⟩
  · simp only [Bank.respond, hw, Plain.withdraw, h.no_account hb]
    exact ⟨rfl, h, trivial⟩
  · obtain ⟨account, hget, hvalue⟩ := h.account_of_balance hb
    have hlt' : account.balance < amount.toInt.toNat := by omega
    simp only [Bank.respond, hw, Plain.withdraw, hget, if_pos hlt']
    exact ⟨rfl, h, trivial⟩
  · obtain ⟨account, hget, hvalue⟩ := h.account_of_balance hb
    have hlt' : ¬ account.balance < amount.toInt.toNat := by omega
    simp only [Bank.respond, hw, Plain.withdraw, hget, if_neg hlt']
    refine ⟨?_, h.setBalance hget (by omega), rfl⟩
    rw [Response.render, Plain.money_eq hnat]

/-- **A balance is shown as the plain one.** -/
theorem respond_balance (h : v.Holds ledger files p.accounts) (user : String) :
    (Bank.respond ledger (.balance user)).1.render = p.balance user ∧
      (Bank.respond ledger (.balance user)).2 = ledger := by
  cases hb : ledger.balance? user with
  | none =>
    simp only [Bank.respond, hb, Plain.balance, h.no_account hb]
    exact ⟨rfl, trivial⟩
  | some balance =>
    obtain ⟨account, hget, hvalue⟩ := h.account_of_balance hb
    simp only [Bank.respond, hb, Plain.balance, hget, Response.render, Plain.money_eq hvalue]
    exact ⟨trivial, trivial⟩

/-! ## Lines of the console -/

variable {bank : Bank}

/-- A new user is refused by both, or created by both. -/
theorem createUser (hkey : bank.keys.pinKey = v.pinKey) (hcards : bank.cards = v.cards)
    (h : v.Holds bank.ledger files p.accounts) (cardIv : Block) {user pin : String} {opening : Amount}
    (hwf : (Console.BankCommand.createUser user pin opening).WellFormed) :
    (bank.createUser files cardIv user pin opening).1 =
        (p.createUser v.cards.fits user pin opening.toInt.toNat).1 ∧
      v.Holds (bank.createUser files cardIv user pin opening).2.1.ledger
        (bank.createUser files cardIv user pin opening).2.2
        (p.createUser v.cards.fits user pin opening.toInt.toNat).2.accounts ∧
      (p.createUser v.cards.fits user pin opening.toInt.toNat).2.session = p.session := by
  obtain ⟨huser, hpin, hpos⟩ := hwf
  have hcontains : bank.ledger.contains user = (p.accounts.get? user).isSome := h.isSome_eq user
  unfold Bank.createUser Plain.createUser
  rw [hcontains, hkey, hcards]
  cases hget : p.accounts.get? user with
  | some account => exact ⟨rfl, h, rfl⟩
  | none =>
    simp only [Option.isSome_none, Bool.false_eq_true, if_false, CardStore.fits]
    obtain ⟨hb, hfree⟩ := h.lacks user hget
    by_cases hfits : v.cards.Fits user
    · obtain ⟨card, hcard, hcreate⟩ := CardStore.create_of_free h.leads huser hpin hfits hfree v.pinKey cardIv
      simp only [hcreate, Ledger.create_of_new hpos hb, hfits, decide_true, if_true]
      exact ⟨trivial, h.create huser hfits hget hcard (by omega), trivial⟩
    · have hlong : ∃ e, v.cards.create files v.pinKey cardIv user pin = .error e :=
        CardStore.create_of_long h.leads huser hfits v.pinKey cardIv
      obtain ⟨e, hcreate⟩ := hlong
      simp only [hcreate, hfits, decide_false, Bool.false_eq_true, if_false]
      exact ⟨trivial, h, trivial⟩

/-- A deposit is refused by both, or made by both. -/
theorem deposit (h : v.Holds bank.ledger files p.accounts) (user : String) {amount : Amount}
    (hpos : 0 ≤ amount.toInt) :
    (bank.deposit user amount).1 = (p.deposit user amount.toInt.toNat).1 ∧
      v.Holds (bank.deposit user amount).2.ledger files (p.deposit user amount.toInt.toNat).2.accounts ∧
      (p.deposit user amount.toInt.toNat).2.session = p.session := by
  have hnat : amount.toInt = (amount.toInt.toNat : Int) := by omega
  rcases bank.ledger.deposit_cases user hpos (h.inRange user) with
    ⟨hb, hd⟩ | ⟨balance, hb, hover, hd⟩ | ⟨balance, sum, hb, hsum, hd⟩
  · simp only [Bank.deposit, hd, Plain.deposit, h.no_account hb]
    exact ⟨trivial, h, trivial⟩
  · obtain ⟨account, hget, hvalue⟩ := h.account_of_balance hb
    have hover' : ¬ account.balance + amount.toInt.toNat ≤ Amount.largest := by omega
    simp only [Bank.deposit, hd, Plain.deposit, hget, if_neg hover']
    exact ⟨trivial, h, trivial⟩
  · obtain ⟨account, hget, hvalue⟩ := h.account_of_balance hb
    have hlarge := Int32.toInt_lt sum
    have hover' : account.balance + amount.toInt.toNat ≤ Amount.largest := by
      simp only [Amount.largest]
      omega
    simp only [Bank.deposit, hd, Plain.deposit, hget, if_pos hover']
    refine ⟨?_, h.setBalance hget (by omega), rfl⟩
    rw [Bank.deposited, Plain.money_eq hnat]

/-- The console of the Bank shows the balance of the account. -/
theorem balance (h : v.Holds bank.ledger files p.accounts) (user : String) :
    bank.balance user = p.balance user := by
  cases hb : bank.ledger.balance? user with
  | none => simp only [Bank.balance, hb, Plain.balance, h.no_account hb]; rfl
  | some balance =>
    obtain ⟨account, hget, hvalue⟩ := h.account_of_balance hb
    simp only [Bank.balance, hb, Plain.balance, hget, Plain.money_eq hvalue]

/-- **A line of the Bank's console is answered as in the plain system.** -/
theorem console (hkey : bank.keys.pinKey = v.pinKey) (hcards : bank.cards = v.cards)
    (h : v.Holds bank.ledger files p.accounts) (cardIv : Block) (line : String) :
    (bank.console files cardIv line).1.toList = (p.bank v.cards.fits line).1 ∧
      v.Holds (bank.console files cardIv line).2.1.ledger (bank.console files cardIv line).2.2
        (p.bank v.cards.fits line).2.accounts ∧
      (p.bank v.cards.fits line).2.session = p.session := by
  unfold Bank.console Plain.bank
  cases hline : Console.BankCommand.ofLine line with
  | error rejection => exact ⟨rfl, h, rfl⟩
  | ok command =>
    have hwf := Console.BankCommand.wellFormed_of_ofLine hline
    cases command with
    | createUser user pin opening =>
      obtain ⟨hreply, hholds, hsession⟩ := createUser hkey hcards h cardIv hwf
      exact ⟨congrArg (fun reply => [reply]) hreply, hholds, hsession⟩
    | deposit user amount =>
      obtain ⟨hreply, hholds, hsession⟩ := h.deposit user hwf.2
      exact ⟨congrArg (fun reply => [reply]) hreply, hholds, hsession⟩
    | balance user => exact ⟨congrArg (fun reply => [reply]) (h.balance user), h, rfl⟩

end Holds
end Vault
end Cashpoint
