/-
# Where the accounts are kept

The balances of the plain system are in the ledger of the Bank, and its PINs on the
cards. `Vault.Holds` says that ledger and cards hold just the accounts, and each operation
on them keeps it so: a new user (`Holds.create`) and a new balance (`Holds.setBalance`).

What can be asked of the ledger and the cards is then answered by the accounts
(`Holds.balances_eq`, `Holds.verify`).
-/

import Cashpoint.Proofs.Card.Store
import Cashpoint.Proofs.Network.Exchange
import Cashpoint.Proofs.Plain.System

namespace Cashpoint

/-! ## Money -/

/-- An amount is shown as the number that it is. -/
theorem Amount.render_eq {amount : Amount} {n : Nat} (h : amount.toInt = n) : amount.render = toString n := by
  have hneg : ¬ amount.toInt < 0 := by omega
  rw [render, if_neg hneg, h]
  rfl

/-- An amount is written as the number that it is. -/
theorem Plain.money_eq {amount : Amount} {n : Nat} (h : amount.toInt = n) : "$" ++ amount.render = money n := by
  rw [Amount.render_eq h, money]

/-- The key of the PINs, the cards, and the location of their directory. -/
structure Vault where
  pinKey : Bytes 32
  cards : CardStore
  place : Location

namespace Vault

/-- The location of a user's card. -/
def at' (v : Vault) (user : String) : Location := v.place ++ [CardStore.fileName user]

/-- No card stands at the root. -/
theorem at'_ne_nil (v : Vault) (user : String) : v.at' user ≠ [] := by simp [at']

/-- Different users have their cards at different places. -/
theorem at'_inj {v : Vault} {user other : String} (h : v.at' user = v.at' other) : user = other := by
  have hname : [CardStore.fileName user] = [CardStore.fileName other] := List.append_cancel_left h
  exact CardStore.fileName_inj (List.singleton_inj.1 hname)

/-- The balance of an account is in the ledger, and its PIN on a card. -/
structure Keeps (v : Vault) (ledger : Ledger) (files : FileTree) (user : String) (account : Account) :
    Prop where
  isUserName : Credential.isUserName user = true
  fits : v.cards.Fits user
  balance : ∃ balance, ledger.balance? user = some balance ∧ balance.toInt = account.balance
  card : ∃ iv card, Card.ofPin v.pinKey iv account.pin = .ok card ∧
    files.lookup (v.at' user) = some (.file card.toBytes)

/-- An account is kept as long as nothing of its user changes. -/
theorem Keeps.of_eq {v : Vault} {ledger ledger' : Ledger} {files files' : FileTree} {user : String}
    {account : Account} (h : v.Keeps ledger files user account)
    (hb : ledger'.balance? user = ledger.balance? user)
    (hf : files'.lookup (v.at' user) = files.lookup (v.at' user)) : v.Keeps ledger' files' user account where
  isUserName := h.isUserName
  fits := h.fits
  balance := by
    rw [hb]
    exact h.balance
  card := by
    rw [hf]
    exact h.card

/-- The ledger and the cards hold just the accounts. -/
structure Holds (v : Vault) (ledger : Ledger) (files : FileTree) (accounts : Table String Account) :
    Prop where
  leads : files.Leads v.cards.directory v.place
  keeps : ∀ user account, accounts.get? user = some account → v.Keeps ledger files user account
  lacks : ∀ user, accounts.get? user = none →
    ledger.balance? user = none ∧ files.lookup (v.at' user) = none

variable {v : Vault} {ledger : Ledger} {files : FileTree} {accounts : Table String Account}

/-- In an empty directory and an empty ledger are no accounts. -/
theorem holds_empty (hleads : files.Leads v.cards.directory v.place)
    (hempty : ∀ name, files.lookup (v.place ++ [name]) = none) : v.Holds .empty files .empty where
  leads := hleads
  keeps user account h := by simp at h
  lacks user _ := ⟨rfl, hempty _⟩

namespace Holds

/-! ## What the accounts answer -/

/-- The balances are those of the accounts. -/
theorem balances_eq (h : v.Holds ledger files accounts) (user : String) :
    (ledger.balance? user).map Int32.toInt = (accounts.get? user).map fun account => (account.balance : Int) := by
  cases hget : accounts.get? user with
  | none => rw [(h.lacks user hget).1]; rfl
  | some account =>
    obtain ⟨balance, hb, hvalue⟩ := (h.keeps user account hget).balance
    rw [hb, Option.map_some, Option.map_some, hvalue]

/-- There is a balance just if there is an account. -/
theorem isSome_eq (h : v.Holds ledger files accounts) (user : String) :
    (ledger.balance? user).isSome = (accounts.get? user).isSome := by
  have hsome := congrArg Option.isSome (h.balances_eq user)
  rwa [Option.isSome_map, Option.isSome_map] at hsome

/-- A balance is that of an account. -/
theorem account_of_balance (h : v.Holds ledger files accounts) {user : String} {balance : Amount}
    (hb : ledger.balance? user = some balance) :
    ∃ account, accounts.get? user = some account ∧ balance.toInt = account.balance := by
  have heq := h.balances_eq user
  rw [hb, Option.map_some] at heq
  obtain ⟨account, hget, hvalue⟩ := Option.map_eq_some_iff.1 heq.symm
  exact ⟨account, hget, hvalue.symm⟩

/-- Without a balance there is no account. -/
theorem no_account (h : v.Holds ledger files accounts) {user : String} (hb : ledger.balance? user = none) :
    accounts.get? user = none := by
  have heq := h.balances_eq user
  rw [hb, Option.map_none] at heq
  exact Option.map_eq_none_iff.1 heq.symm

/-- No balance is negative. -/
theorem inRange (h : v.Holds ledger files accounts) : ledger.InRange := by
  intro user balance hb
  obtain ⟨account, -, hvalue⟩ := h.account_of_balance hb
  omega

/-- **The PIN of an account is the one that its card accepts.** -/
theorem verify (h : v.Holds ledger files accounts) {user : String} {account : Account}
    (hget : accounts.get? user = some account) (entered : String) :
    v.cards.verify files v.pinKey user entered = .ok (decide (entered = account.pin)) := by
  have hkeeps := h.keeps user account hget
  obtain ⟨iv, card, hcard, hfile⟩ := hkeeps.card
  exact CardStore.verify_of_card h.leads hkeeps.isUserName hkeeps.fits hcard hfile entered

/-! ## Changes -/

/-- **A new balance** in the ledger is one in the account. -/
theorem setBalance (h : v.Holds ledger files accounts) {user : String} {account : Account}
    (hget : accounts.get? user = some account) {balance : Amount} {n : Nat} (hn : balance.toInt = n) :
    v.Holds (ledger.setBalance user balance) files (accounts.set user { account with balance := n }) where
  leads := h.leads
  keeps other found hfound := by
    rw [Table.get?_set] at hfound
    split at hfound
    · rename_i heq
      subst heq
      obtain rfl := Option.some.inj hfound
      have hkeeps := h.keeps user account hget
      exact {
        isUserName := hkeeps.isUserName
        fits := hkeeps.fits
        balance := ⟨balance, by rw [Ledger.balance?_setBalance, if_pos rfl], hn⟩
        card := hkeeps.card }
    · rename_i hne
      refine (h.keeps other found hfound).of_eq ?_ rfl
      rw [Ledger.balance?_setBalance, if_neg hne]
  lacks other hnone := by
    rw [Table.get?_set] at hnone
    split at hnone
    · simp at hnone
    · rename_i hne
      rw [Ledger.balance?_setBalance, if_neg hne]
      exact h.lacks other hnone

/-- **A new user** in the ledger, with a new card, is a new account. -/
theorem create (h : v.Holds ledger files accounts) {user pin : String}
    (huser : Credential.isUserName user = true) (hfits : v.cards.Fits user)
    (hnew : accounts.get? user = none) {iv : Block} {card : Card} (hcard : Card.ofPin v.pinKey iv pin = .ok card)
    {opening : Amount} {n : Nat} (hn : opening.toInt = n) :
    v.Holds (ledger.setBalance user opening) (files.put (v.at' user) (.file card.toBytes))
      (accounts.set user { pin, balance := n }) where
  leads := h.leads.put (v.at'_ne_nil user) (h.lacks user hnew).2 _
  keeps other found hfound := by
    rw [Table.get?_set] at hfound
    split at hfound
    · rename_i heq
      subst heq
      obtain rfl := Option.some.inj hfound
      exact {
        isUserName := huser
        fits := hfits
        balance := ⟨opening, by rw [Ledger.balance?_setBalance, if_pos rfl], hn⟩
        card := ⟨iv, card, hcard, by rw [FileTree.lookup_put (v.at'_ne_nil user), if_pos rfl]⟩ }
    · rename_i hne
      refine (h.keeps other found hfound).of_eq ?_ ?_
      · rw [Ledger.balance?_setBalance, if_neg hne]
      · rw [FileTree.lookup_put (v.at'_ne_nil user), if_neg fun heq => hne (at'_inj heq)]
  lacks other hnone := by
    rw [Table.get?_set] at hnone
    split at hnone
    · simp at hnone
    · rename_i hne
      rw [Ledger.balance?_setBalance, if_neg hne, FileTree.lookup_put (v.at'_ne_nil user),
        if_neg fun heq => hne (at'_inj heq)]
      exact h.lacks other hnone

end Holds
end Vault
end Cashpoint
