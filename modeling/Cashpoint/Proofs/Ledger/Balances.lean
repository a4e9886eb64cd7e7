/-
# Balances as integers

What each operation of the ledger does, with amounts read as integers: the sum and the
difference of two amounts are computed without wrapping round wherever the ledger
computes them (`toInt_sub`, `sum?_eq_some_iff`). Each operation changes one balance, or
fails for a reason that its lemma states. No balance ever becomes negative (`InRange`).

A response to a request never raises a balance (`worth_respondTo_le`), and cash is
dispensed for exactly the amount by which it lowers one (`respond_dispensed`).
-/

import Cashpoint.Bank
import Cashpoint.Proofs.Message.RoundTrip
import Mathlib.Data.List.Forall2

namespace Cashpoint

/-! ## Arithmetic -/

namespace Amount

/-- An amount is below zero if its number is. -/
theorem lt_zero_iff {amount : Amount} : amount < 0 ↔ amount.toInt < 0 := by
  rw [Int32.lt_iff_toInt_lt, Int32.toInt_zero]

/-- A difference that is not negative does not leave the range. -/
theorem toInt_sub {a b : Amount} (hb : 0 ≤ b.toInt) (h : b.toInt ≤ a.toInt) :
    (a - b).toInt = a.toInt - b.toInt :=
  Int32.toInt_sub_of_le a b (Int32.le_iff_toInt_le.2 (by simpa using hb)) (Int32.le_iff_toInt_le.2 h)

/-- The sum of two amounts is an amount, or out of range. -/
theorem sum?_eq_some_iff {a b sum : Amount} :
    a.sum? b = some sum ↔ sum.toInt = a.toInt + b.toInt := by
  have hlow := Int32.le_toInt sum
  have hhigh := Int32.toInt_lt sum
  have hlargest : (largest : Int) = 2147483647 := rfl
  simp only [sum?]
  constructor
  · intro h
    split at h
    · rename_i hrange
      obtain rfl := Option.some.inj h
      rw [Int32.toInt_add, Int.bmod_eq_of_le (by omega) (by omega)]
    · simp at h
  · intro h
    rw [if_pos (by omega)]
    congr 1
    apply Int32.toInt_inj.1
    rw [Int32.toInt_add, h, Int.bmod_eq_of_le (by omega) (by omega)]

end Amount

/-! ## Sums -/

/-- The sum of a number for each member of a list. -/
def total {α : Type} (f : α → Int) : List α → Int
  | [] => 0
  | a :: rest => f a + total f rest

/-- Fewer members have a smaller sum, if no number is negative. -/
theorem total_le_of_sublist {α : Type} {f : α → Int} {l l' : List α} (h : l.Sublist l')
    (hf : ∀ a ∈ l', 0 ≤ f a) : total f l ≤ total f l' := by
  induction h with
  | slnil => exact Int.le_refl _
  | cons a _ ih =>
    have ha := hf a (List.mem_cons_self ..)
    have hrest := ih fun b hb => hf b (List.mem_cons_of_mem _ hb)
    simp only [total]
    omega
  | cons_cons a _ ih =>
    have hrest := ih fun b hb => hf b (List.mem_cons_of_mem _ hb)
    simp only [total]
    omega

/-- Members that match one by one have the same sum, if their numbers do. -/
theorem total_eq_of_forall₂ {α β : Type} {f : α → Int} {g : β → Int} {R : α → β → Prop}
    (hR : ∀ a b, R a b → f a = g b) {l : List α} {l' : List β} (h : List.Forall₂ R l l') :
    total f l = total g l' := by
  induction h with
  | nil => rfl
  | cons hab _ ih => rw [total, total, hR _ _ hab, ih]

/-- The sum of two lists is the sum of their sums. -/
theorem total_append {α : Type} (f : α → Int) (l l' : List α) :
    total f (l ++ l') = total f l + total f l' := by
  induction l with
  | nil => simp [total]
  | cons a rest ih =>
    simp only [List.cons_append, total, ih]
    omega

/-- The last member is added to the sum of the others. -/
@[simp] theorem total_concat {α : Type} (f : α → Int) (l : List α) (a : α) :
    total f (l ++ [a]) = total f l + f a := by
  simp [total_append, total]

/-- The sum of zeros is zero. -/
theorem total_eq_zero {α : Type} {f : α → Int} {l : List α} (h : ∀ a ∈ l, f a = 0) : total f l = 0 := by
  induction l with
  | nil => rfl
  | cons a rest ih =>
    rw [total, h a List.mem_cons_self, ih fun b hb => h b (List.mem_cons_of_mem _ hb)]
    rfl

/-! ## The operations -/

namespace Ledger

/-- A user is in the ledger just if there is a balance. -/
theorem contains_eq (ledger : Ledger) (user : String) :
    ledger.contains user = (ledger.balance? user).isSome := rfl

/-- Setting a balance adds the user, and takes nobody away. -/
theorem contains_setBalance (ledger : Ledger) (user other : String) (balance : Amount) :
    (ledger.setBalance user balance).contains other = (decide (user = other) || ledger.contains other) := by
  rw [contains_eq, contains_eq, balance?_setBalance]
  by_cases h : user = other <;> simp [h]

/-- A new balance makes no new user. -/
theorem contains_setBalance_of_user {ledger : Ledger} {user : String} {old : Amount}
    (h : ledger.balance? user = some old) (balance : Amount) (other : String) :
    (ledger.setBalance user balance).contains other = ledger.contains other := by
  rw [contains_setBalance]
  by_cases heq : user = other
  · subst heq
    simp [contains_eq, h]
  · simp [heq]

/-- **What a withdrawal of a non-negative amount leads to.** -/
theorem withdraw_cases (ledger : Ledger) (user : String) {amount : Amount} (hpos : 0 ≤ amount.toInt) :
    (ledger.balance? user = none ∧ ledger.withdraw user amount = .error (.noSuchUser user)) ∨
      (∃ balance, ledger.balance? user = some balance ∧ balance.toInt < amount.toInt ∧
        ledger.withdraw user amount = .error .insufficientFunds) ∨
      ∃ balance, ledger.balance? user = some balance ∧ amount.toInt ≤ balance.toInt ∧
        (balance - amount).toInt = balance.toInt - amount.toInt ∧
        ledger.withdraw user amount =
          .ok (balance - amount, ledger.setBalance user (balance - amount)) := by
  have hneg : ¬ amount < 0 := by
    rw [Amount.lt_zero_iff]
    omega
  unfold withdraw
  rw [if_neg hneg]
  cases ledger.balance? user with
  | none => exact Or.inl ⟨rfl, rfl⟩
  | some balance =>
    refine Or.inr ?_
    by_cases hlt : amount > balance
    · exact Or.inl ⟨balance, rfl, Int32.lt_iff_toInt_lt.1 hlt, by simp [hlt]⟩
    · have hle : amount.toInt ≤ balance.toInt := Int.not_lt.1 fun h => hlt (Int32.lt_iff_toInt_lt.2 h)
      exact Or.inr ⟨balance, rfl, hle, Amount.toInt_sub hpos hle, by simp [hlt]⟩

/-- A deposit makes no new user. -/
theorem contains_deposit {ledger after : Ledger} {user : String} {amount sum : Amount}
    (h : ledger.deposit user amount = .ok (sum, after)) (other : String) :
    after.contains other = ledger.contains other := by
  unfold deposit at h
  split at h
  · simp at h
  · split at h
    · simp at h
    · rename_i balance hb
      split at h
      · simp at h
      · obtain ⟨rfl, rfl⟩ := Prod.mk.inj (Except.ok.inj h)
        exact contains_setBalance_of_user hb _ other

/-- **When a withdrawal succeeds.** -/
theorem withdraw_eq_ok_iff {ledger after : Ledger} {user : String} {amount rest : Amount} :
    ledger.withdraw user amount = .ok (rest, after) ↔
      0 ≤ amount.toInt ∧ ∃ balance, ledger.balance? user = some balance ∧ amount.toInt ≤ balance.toInt ∧
        rest.toInt = balance.toInt - amount.toInt ∧ after = ledger.setBalance user rest := by
  by_cases hpos : 0 ≤ amount.toInt
  · rcases ledger.withdraw_cases user hpos with
      ⟨hb, hw⟩ | ⟨balance, hb, hlt, hw⟩ | ⟨balance, hb, hle, hsub, hw⟩
    · simp [hw, hb]
    · simp only [hw, reduceCtorEq, false_iff]
      rintro ⟨-, other, hother, hle, -⟩
      obtain rfl := Option.some.inj (hb.symm.trans hother)
      omega
    · simp only [hw, Except.ok.injEq, Prod.mk.injEq]
      constructor
      · rintro ⟨rfl, rfl⟩
        exact ⟨hpos, balance, hb, hle, hsub, rfl⟩
      · rintro ⟨-, other, hother, -, hrest, rfl⟩
        obtain rfl := Option.some.inj (hb.symm.trans hother)
        obtain rfl : balance - amount = rest := Int32.toInt_inj.1 (hsub.trans hrest.symm)
        exact ⟨rfl, rfl⟩
  · have hneg : amount < 0 := Amount.lt_zero_iff.2 (Int.not_le.1 hpos)
    simp [withdraw, hneg, hpos]

/-- **What a deposit of a non-negative amount leads to**, if no balance is negative. -/
theorem deposit_cases (ledger : Ledger) (user : String) {amount : Amount} (hpos : 0 ≤ amount.toInt)
    (hrange : ∀ balance, ledger.balance? user = some balance → 0 ≤ balance.toInt) :
    (ledger.balance? user = none ∧ ledger.deposit user amount = .error (.noSuchUser user)) ∨
      (∃ balance, ledger.balance? user = some balance ∧ Amount.largest < balance.toInt + amount.toInt ∧
        ledger.deposit user amount = .error .overflow) ∨
      ∃ balance sum, ledger.balance? user = some balance ∧
        sum.toInt = balance.toInt + amount.toInt ∧
        ledger.deposit user amount = .ok (sum, ledger.setBalance user sum) := by
  have hneg : ¬ amount < 0 := by
    rw [Amount.lt_zero_iff]
    omega
  unfold deposit
  rw [if_neg hneg]
  cases hb : ledger.balance? user with
  | none => exact Or.inl ⟨rfl, rfl⟩
  | some balance =>
    have hbalance := hrange balance hb
    refine Or.inr ?_
    cases hs : balance.sum? amount with
    | some sum => exact Or.inr ⟨balance, sum, rfl, Amount.sum?_eq_some_iff.1 hs, by simp [hs]⟩
    | none =>
      refine Or.inl ⟨balance, rfl, Int.not_le.1 fun hle => ?_, by simp [hs]⟩
      have hsome : balance.sum? amount = some (balance + amount) := by
        simp only [Amount.sum?]
        rw [if_pos (by omega)]
      rw [hsome] at hs
      simp at hs

/-- A new user can be created with any opening balance that is not negative. -/
theorem create_of_new {ledger : Ledger} {user : String} {opening : Amount} (hpos : 0 ≤ opening.toInt)
    (hnew : ledger.balance? user = none) :
    ledger.create user opening = .ok (ledger.setBalance user opening) := by
  have hneg : ¬ opening < 0 := by
    rw [Amount.lt_zero_iff]
    omega
  rw [create, if_neg hneg, contains_eq, hnew]
  rfl

/-! ## Two ledgers with one balance of a user -/

variable {ledger ledger' : Ledger} {user : String}

/-- **A withdrawal** fails alike in two ledgers with one balance of the user, or leaves the same. -/
theorem withdraw_congr (h : ledger.balance? user = ledger'.balance? user) (amount : Amount) :
    (∃ e, ledger.withdraw user amount = .error e ∧ ledger'.withdraw user amount = .error e) ∨
      ∃ rest, ledger.withdraw user amount = .ok (rest, ledger.setBalance user rest) ∧
        ledger'.withdraw user amount = .ok (rest, ledger'.setBalance user rest) := by
  unfold withdraw
  rw [h]
  split
  · exact Or.inl ⟨_, rfl, rfl⟩
  · cases ledger'.balance? user with
    | none => exact Or.inl ⟨_, rfl, rfl⟩
    | some balance =>
      by_cases hlarge : amount > balance
      · exact Or.inl ⟨_, if_pos hlarge, if_pos hlarge⟩
      · exact Or.inr ⟨_, if_neg hlarge, if_neg hlarge⟩

/-- A deposit depends on the balance of its user alone. -/
theorem deposit_congr (h : ledger.balance? user = ledger'.balance? user) (amount : Amount) :
    (∃ e, ledger.deposit user amount = .error e ∧ ledger'.deposit user amount = .error e) ∨
      ∃ sum, ledger.deposit user amount = .ok (sum, ledger.setBalance user sum) ∧
        ledger'.deposit user amount = .ok (sum, ledger'.setBalance user sum) := by
  unfold deposit
  rw [h]
  split
  · exact Or.inl ⟨_, rfl, rfl⟩
  · cases ledger'.balance? user with
    | none => exact Or.inl ⟨_, rfl, rfl⟩
    | some balance =>
      cases hsum : balance.sum? amount with
      | none => exact Or.inl ⟨.overflow, by simp only [hsum], by simp only [hsum]⟩
      | some sum => exact Or.inr ⟨sum, by simp only [hsum], by simp only [hsum]⟩

/-- So does the creation of a user. -/
theorem create_congr (h : ledger.balance? user = ledger'.balance? user) (opening : Amount) :
    (∃ e, ledger.create user opening = .error e ∧ ledger'.create user opening = .error e) ∨
      ledger.create user opening = .ok (ledger.setBalance user opening) ∧
        ledger'.create user opening = .ok (ledger'.setBalance user opening) := by
  unfold create
  rw [contains_eq, contains_eq, h]
  split
  · exact Or.inl ⟨_, rfl, rfl⟩
  · split
    · exact Or.inl ⟨_, rfl, rfl⟩
    · exact Or.inr ⟨rfl, rfl⟩

end Ledger

/-! ## Ledgers without a negative balance -/

/-- No balance is negative. -/
def Ledger.InRange (ledger : Ledger) : Prop :=
  ∀ user balance, ledger.balance? user = some balance → 0 ≤ balance.toInt

namespace Ledger

/-- In the empty ledger no balance is negative. -/
theorem inRange_empty : empty.InRange := by
  intro user balance h
  simp [empty, balance?] at h

/-- Setting a balance that is not negative leaves none negative. -/
theorem InRange.setBalance {ledger : Ledger} (h : ledger.InRange) {user : String} {balance : Amount}
    (hb : 0 ≤ balance.toInt) : (ledger.setBalance user balance).InRange := by
  intro other found hfound
  rw [balance?_setBalance] at hfound
  split at hfound
  · obtain rfl := Option.some.inj hfound
    exact hb
  · exact h other found hfound

/-- A withdrawal leaves no balance negative. -/
theorem InRange.withdraw {ledger after : Ledger} {user : String} {amount rest : Amount}
    (h : ledger.InRange) (hw : ledger.withdraw user amount = .ok (rest, after)) : after.InRange := by
  obtain ⟨-, balance, -, hle, hrest, rfl⟩ := withdraw_eq_ok_iff.1 hw
  exact h.setBalance (by omega)

end Ledger

/-! ## Responses -/

namespace Bank

/-- **A response changes the ledger if it dispenses cash**, and not otherwise. -/
theorem respond_cases (ledger : Ledger) (request : Request) :
    ((respond ledger request).2 = ledger ∧ ∀ amount, (respond ledger request).1 ≠ .dispensed amount) ∨
      ∃ user amount rest, request = .withdraw user amount ∧ (respond ledger request).1 = .dispensed amount ∧
        ledger.withdraw user amount = .ok (rest, (respond ledger request).2) := by
  cases request with
  | beginSession user =>
    refine Or.inl ⟨rfl, ?_⟩
    simp only [respond]
    split <;> exact nofun
  | withdraw user amount =>
    cases hw : ledger.withdraw user amount with
    | ok result => exact Or.inr ⟨user, amount, result.1, rfl, by simp [respond, hw], by simp [respond, hw]⟩
    | error e => cases e <;> exact Or.inl (by simp [respond, hw])
  | balance user =>
    refine Or.inl ?_
    simp only [respond]
    split <;> exact ⟨rfl, nofun⟩

/-- **Cash is dispensed only for a withdrawal that the balance covers**, and lowers it by the amount. -/
theorem respond_dispensed {ledger : Ledger} {request : Request} {amount : Amount}
    (h : (respond ledger request).1 = .dispensed amount) :
    ∃ user rest, request = .withdraw user amount ∧
      ledger.withdraw user amount = .ok (rest, (respond ledger request).2) := by
  rcases respond_cases ledger request with ⟨-, hnone⟩ | ⟨user, paid, rest, hrequest, hdispensed, hw⟩
  · exact absurd h (hnone amount)
  · obtain rfl : paid = amount := Response.dispensed.inj (hdispensed.symm.trans h)
    exact ⟨user, rest, hrequest, hw⟩

/-- The text of a well-formed request is answered as the request. -/
theorem respondTo_render {request : Request} (hwf : request.WellFormed) (ledger : Ledger) :
    respondTo ledger (Utf8.encode request.render) = respond ledger request := by
  rw [respondTo, Utf8.decode?_encode, Option.bind_some, Request.ofString?_render hwf]

/-- **Every response to a well-formed request is one that the ATM takes**, and no balance becomes
negative. -/
theorem respond_spec {ledger : Ledger} (h : ledger.InRange) {request : Request} (hwf : request.WellFormed) :
    (respond ledger request).1.InRange ∧ (respond ledger request).1.answers request = true ∧
      (respond ledger request).2.InRange := by
  cases request with
  | beginSession user =>
    simp only [respond]
    split <;> exact ⟨trivial, rfl, h⟩
  | withdraw user amount =>
    rcases ledger.withdraw_cases user hwf.2 with ⟨-, hw⟩ | ⟨_, -, -, hw⟩ | ⟨balance, -, -, -, hw⟩
    · simp only [respond, hw]
      exact ⟨trivial, rfl, h⟩
    · simp only [respond, hw]
      exact ⟨trivial, rfl, h⟩
    · simp only [respond, hw]
      exact ⟨hwf.2, beq_self_eq_true amount, h.withdraw hw⟩
  | balance user =>
    cases hb : ledger.balance? user with
    | none =>
      simp only [respond, hb]
      exact ⟨trivial, rfl, h⟩
    | some balance =>
      simp only [respond, hb]
      exact ⟨h user balance hb, rfl, h⟩

/-- Where no balance is negative, no response tells of a negative amount. -/
theorem respondTo_inRange {ledger : Ledger} (h : ledger.InRange) (plaintext : List UInt8) :
    (respondTo ledger plaintext).1.InRange := by
  unfold respondTo
  split
  · rename_i request hrequest
    obtain ⟨text, -, htext⟩ := Option.bind_eq_some_iff.1 hrequest
    exact (respond_spec h (Request.wellFormed_of_ofString? htext)).1
  · exact trivial

/-- A plaintext changes the ledger by a withdrawal, or not at all. -/
theorem respondTo_ledger_cases (ledger : Ledger) (plaintext : List UInt8) :
    (respondTo ledger plaintext).2 = ledger ∨
      ∃ user amount rest, ledger.withdraw user amount = .ok (rest, (respondTo ledger plaintext).2) := by
  unfold respondTo
  split
  · rename_i request _
    rcases respond_cases ledger request with ⟨h, -⟩ | ⟨user, amount, rest, -, -, h⟩
    · exact Or.inl h
    · exact Or.inr ⟨user, amount, rest, h⟩
  · exact Or.inl rfl

/-- **No request makes a user** or removes one. -/
theorem contains_respondTo (ledger : Ledger) (plaintext : List UInt8) (user : String) :
    (respondTo ledger plaintext).2.contains user = ledger.contains user := by
  rcases respondTo_ledger_cases ledger plaintext with hsame | ⟨_, _, _, hw⟩
  · rw [hsame]
  · obtain ⟨-, balance, hb, -, -, hafter⟩ := Ledger.withdraw_eq_ok_iff.1 hw
    rw [hafter, Ledger.contains_setBalance_of_user hb]

/-- **The response to a request**, and what it leaves to the user, depend on the balance of the user. -/
theorem respond_congr {ledger ledger' : Ledger} {request : Request} {user : String}
    (huser : request.user = user) (h : ledger.balance? user = ledger'.balance? user) :
    (respond ledger request).1 = (respond ledger' request).1 ∧
      (respond ledger request).2.balance? user = (respond ledger' request).2.balance? user := by
  cases request with
  | beginSession name =>
    obtain rfl : name = user := huser
    have hcontains : ledger.contains name = ledger'.contains name := by
      rw [Ledger.contains_eq, Ledger.contains_eq, h]
    simp only [respond, hcontains, h, and_self]
  | balance name =>
    obtain rfl : name = user := huser
    simp only [respond, h]
    split <;> exact ⟨rfl, h⟩
  | withdraw name amount =>
    obtain rfl : name = user := huser
    rcases Ledger.withdraw_congr h amount with ⟨e, hw, hw'⟩ | ⟨rest, hw, hw'⟩
    · cases e <;> simp [respond, hw, hw', h]
    · simp [respond, hw, hw', Ledger.balance?_setBalance]

/-- **A request of somebody else** leaves a balance as it is. -/
theorem balance?_respond_of_other {request : Request} {user : String} (h : request.user ≠ user)
    (ledger : Ledger) : (respond ledger request).2.balance? user = ledger.balance? user := by
  rcases respond_cases ledger request with ⟨hsame, -⟩ | ⟨other, amount, rest, rfl, -, hw⟩
  · rw [hsame]
  · obtain ⟨-, -, -, -, -, hafter⟩ := Ledger.withdraw_eq_ok_iff.1 hw
    rw [hafter, Ledger.balance?_setBalance]
    exact if_neg h

/-- **No request makes a balance negative**, and none makes a user or removes one. -/
theorem ledger_respondTo {ledger : Ledger} (h : ledger.InRange) (plaintext : List UInt8) :
    (respondTo ledger plaintext).2.InRange ∧
      ∀ user, (respondTo ledger plaintext).2.contains user = ledger.contains user := by
  refine ⟨?_, contains_respondTo ledger plaintext⟩
  rcases respondTo_ledger_cases ledger plaintext with hsame | ⟨user, amount, rest, hw⟩
  · rw [hsame]
    exact h
  · exact h.withdraw hw

end Bank

/-- The balance of a user as an integer, 0 for someone who is none. -/
def Ledger.worth (ledger : Ledger) (user : String) : Int :=
  ((ledger.balance? user).map Int32.toInt).getD 0

/-- Setting a balance changes the worth of its user, and of nobody else. -/
theorem Ledger.worth_setBalance (ledger : Ledger) (user other : String) (balance : Amount) :
    (ledger.setBalance user balance).worth other =
      if user = other then balance.toInt else ledger.worth other := by
  rw [worth, balance?_setBalance]
  split <;> rfl

/-- **No request raises a balance.** -/
theorem Bank.worth_respondTo_le (ledger : Ledger) (plaintext : List UInt8) (user : String) :
    (respondTo ledger plaintext).2.worth user ≤ ledger.worth user := by
  rcases respondTo_ledger_cases ledger plaintext with h | ⟨other, amount, rest, h⟩
  · exact Int.le_of_eq (by rw [h])
  · obtain ⟨hpos, balance, hb, -, hrest, hafter⟩ := Ledger.withdraw_eq_ok_iff.1 h
    rw [hafter, Ledger.worth_setBalance]
    split
    · rename_i heq
      subst heq
      have hworth : ledger.worth other = balance.toInt := by rw [Ledger.worth, hb]; rfl
      omega
    · exact Int.le_refl _

end Cashpoint
