/-
# Calls of several clients

Clients of a ledger create users, pay in and take out, each at any time and with any
amount that 32 bits hold. A call is served as one step, so what several clients do
together is a list of turns in any order (`Turn`, `serveAll`).

The integers decide whether a call succeeds (`Call.Allowed`), and to which balance it
leads (`Call.outcome`). No step wraps round, and a refused call changes nothing and tells
the first condition that fails (`serve_of_allowed`, `serve_of_not_allowed`). A deposit
and a withdrawal of one amount undo each other (`serve_back`). Over all turns the
balance of a user is what it was before, with all that was paid in and without all that
was taken (`worth_serveAll`), so nobody takes more than there is.
-/

import Cashpoint.Proofs.Ledger.Balances

namespace Cashpoint
namespace Ledger

/-- The calls that change a ledger. -/
inductive Call
  | create (user : String) (opening : Amount)
  | deposit (user : String) (amount : Amount)
  | withdraw (user : String) (amount : Amount)
  deriving DecidableEq, Repr

namespace Call

/-- The user whose account a call is about. -/
def user : Call → String
  | create user _ | deposit user _ | withdraw user _ => user

/-- The amount of a call. -/
def amount : Call → Amount
  | create _ amount | deposit _ amount | withdraw _ amount => amount

/-- Whether the user has to be there before, or must not be. -/
def needsUser : Call → Bool
  | create _ _ => false
  | deposit _ _ | withdraw _ _ => true

/-- The balance that a call is to lead to, from that before it. -/
def outcome (old : Int) : Call → Int
  | create _ opening => opening.toInt
  | deposit _ amount => old + amount.toInt
  | withdraw _ amount => old - amount.toInt

/-- What a call returns that led to a balance. -/
def returned (balance : Amount) : Call → Option Amount
  | create _ _ => none
  | deposit _ _ | withdraw _ _ => some balance

/-- When a call succeeds. -/
structure Allowed (call : Call) (ledger : Ledger) : Prop where
  amount_nonneg : 0 ≤ call.amount.toInt
  user_eq : ledger.contains call.user = call.needsUser
  outcome_nonneg : 0 ≤ call.outcome (ledger.worth call.user)
  outcome_le : call.outcome (ledger.worth call.user) ≤ 2147483647

/-- The first condition that fails. -/
def fault (call : Call) (ledger : Ledger) : Error :=
  if call.amount.toInt < 0 then .invalidAmount call.amount
  else if ledger.contains call.user ≠ call.needsUser then
    if call.needsUser then .noSuchUser call.user else .userExists call.user
  else if call.outcome (ledger.worth call.user) < 0 then .insufficientFunds
  else .overflow

/-- What a call pays in for a user if it succeeds. -/
def paidIn (name : String) : Call → Int
  | create user amount | deposit user amount => if user = name then amount.toInt else 0
  | withdraw _ _ => 0

/-- What a call takes from a user if it succeeds. -/
def taken (name : String) : Call → Int
  | withdraw user amount => if user = name then amount.toInt else 0
  | create _ _ | deposit _ _ => 0

end Call

/-- The answer to a call, and the ledger after it. -/
def serve (ledger : Ledger) : Call → Except Error (Option Amount) × Ledger
  | .create user opening =>
    match ledger.create user opening with
    | .ok after => (.ok none, after)
    | .error e => (.error e, ledger)
  | .deposit user amount =>
    match ledger.deposit user amount with
    | .ok (sum, after) => (.ok (some sum), after)
    | .error e => (.error e, ledger)
  | .withdraw user amount =>
    match ledger.withdraw user amount with
    | .ok (rest, after) => (.ok (some rest), after)
    | .error e => (.error e, ledger)

/-- One call of one client. -/
structure Turn where
  client : Nat
  call : Call
  deriving DecidableEq, Repr

/-- A turn and the answer to it. -/
structure Served where
  turn : Turn
  answer : Except Error (Option Amount)

/-- The answers to turns, and the ledger after them. -/
def serveAll (ledger : Ledger) : List Turn → List Served × Ledger
  | [] => ([], ledger)
  | turn :: later =>
    (⟨turn, (ledger.serve turn.call).1⟩ :: ((ledger.serve turn.call).2.serveAll later).1,
      ((ledger.serve turn.call).2.serveAll later).2)

/-- What a turn paid in for a user. -/
def Served.paidIn (name : String) (served : Served) : Int :=
  match served.answer with
  | .ok _ => served.turn.call.paidIn name
  | .error _ => 0

/-- What a turn took from a user. -/
def Served.taken (name : String) (served : Served) : Int :=
  match served.answer with
  | .ok _ => served.turn.call.taken name
  | .error _ => 0

/-! ## One call -/

variable {ledger : Ledger}

/-- The worth of a user is the balance. -/
theorem worth_of_balance? {user : String} {balance : Amount} (h : ledger.balance? user = some balance) :
    ledger.worth user = balance.toInt := by
  rw [worth, h]
  rfl

/-- No user is worth less than nothing. -/
theorem worth_nonneg (hrange : ledger.InRange) (user : String) : 0 ≤ ledger.worth user := by
  cases h : ledger.balance? user with
  | none => simp [worth, h]
  | some balance =>
    rw [worth_of_balance? h]
    exact hrange user balance h

/-- A call with a negative amount. -/
theorem serve_of_negative {call : Call} (h : call.amount.toInt < 0) :
    ledger.serve call = (.error (.invalidAmount call.amount), ledger) := by
  have hneg : call.amount < 0 := Amount.lt_zero_iff.2 h
  cases call with
  | create user opening => simp only [serve, create, if_pos (show opening < 0 from hneg), Call.amount]
  | deposit user amount => simp only [serve, deposit, if_pos (show amount < 0 from hneg), Call.amount]
  | withdraw user amount => simp only [serve, withdraw, if_pos (show amount < 0 from hneg), Call.amount]

/-- A call for a user who should be there and is not, or the other way round. -/
theorem serve_of_user_ne {call : Call} (hpos : 0 ≤ call.amount.toInt)
    (h : ledger.contains call.user ≠ call.needsUser) :
    ledger.serve call =
      (.error (if call.needsUser then .noSuchUser call.user else .userExists call.user), ledger) := by
  have hneg : ¬ call.amount < 0 := by
    rw [Amount.lt_zero_iff]
    omega
  cases call with
  | create user opening =>
    have hcontains : ledger.contains user = true := by simpa [Call.user, Call.needsUser] using h
    simp only [serve, create, if_neg (show ¬ opening < 0 from hneg), if_pos hcontains, Call.needsUser, Call.user]
    rfl
  | deposit user amount =>
    have hnone : ledger.balance? user = none := by simpa [Call.user, Call.needsUser, contains_eq] using h
    simp only [serve, deposit, if_neg (show ¬ amount < 0 from hneg), hnone, Call.needsUser, Call.user]
    rfl
  | withdraw user amount =>
    have hnone : ledger.balance? user = none := by simpa [Call.user, Call.needsUser, contains_eq] using h
    simp only [serve, withdraw, if_neg (show ¬ amount < 0 from hneg), hnone, Call.needsUser, Call.user]
    rfl

/-- A call that would leave the range. -/
theorem serve_of_range (hrange : ledger.InRange) {call : Call} (hpos : 0 ≤ call.amount.toInt)
    (huser : ledger.contains call.user = call.needsUser)
    (h : call.outcome (ledger.worth call.user) < 0 ∨ 2147483647 < call.outcome (ledger.worth call.user)) :
    ledger.serve call = (.error (if call.outcome (ledger.worth call.user) < 0 then .insufficientFunds
      else .overflow), ledger) := by
  have hlt := call.amount.toInt_lt
  cases call with
  | create user opening =>
    simp only [Call.outcome, Call.amount] at h hpos hlt
    omega
  | deposit user amount =>
    have hworth := worth_nonneg hrange user
    simp only [Call.outcome, Call.amount, Call.user] at h hpos
    have hlow : ¬ ledger.worth user + amount.toInt < 0 := by omega
    rcases ledger.deposit_cases user hpos (hrange user) with
      ⟨hnone, -⟩ | ⟨balance, hb, -, hdeposit⟩ | ⟨balance, sum, hb, hsum, -⟩
    · simp [Call.user, Call.needsUser, contains_eq, hnone] at huser
    · rw [if_neg (show ¬ (Call.deposit user amount).outcome (ledger.worth (Call.deposit user amount).user) < 0
        from hlow)]
      simp only [serve, hdeposit]
    · have hsumlt := sum.toInt_lt
      rw [worth_of_balance? hb] at h hworth
      omega
  | withdraw user amount =>
    simp only [Call.outcome, Call.amount, Call.user] at h hpos
    rcases ledger.withdraw_cases user hpos with
      ⟨hnone, -⟩ | ⟨balance, hb, hless, hwithdraw⟩ | ⟨balance, hb, hle, -⟩
    · simp [Call.user, Call.needsUser, contains_eq, hnone] at huser
    · have hlow : ledger.worth user - amount.toInt < 0 := by
        rw [worth_of_balance? hb]
        omega
      rw [if_pos (show (Call.withdraw user amount).outcome (ledger.worth (Call.withdraw user amount).user) < 0
        from hlow)]
      simp only [serve, hwithdraw]
    · have hballt := balance.toInt_lt
      rw [worth_of_balance? hb] at h
      omega

/-- **A call that is allowed is carried out exactly.** -/
theorem serve_of_allowed (hrange : ledger.InRange) {call : Call} (h : call.Allowed ledger) :
    ∃ balance : Amount, balance.toInt = call.outcome (ledger.worth call.user) ∧
      ledger.serve call = (.ok (call.returned balance), ledger.setBalance call.user balance) := by
  have hpos := h.amount_nonneg
  have huser := h.user_eq
  have hnonneg := h.outcome_nonneg
  have hle := h.outcome_le
  cases call with
  | create user opening =>
    have hnew : ledger.balance? user = none := by simpa [Call.user, Call.needsUser, contains_eq] using huser
    have hcreate := create_of_new (show 0 ≤ opening.toInt from hpos) hnew
    exact ⟨opening, rfl, by simp only [serve, hcreate, Call.returned, Call.user]⟩
  | deposit user amount =>
    simp only [Call.outcome, Call.amount, Call.user] at hpos hle ⊢
    rcases ledger.deposit_cases user hpos (hrange user) with
      ⟨hnone, -⟩ | ⟨balance, hb, hover, -⟩ | ⟨balance, sum, hb, hsum, hdeposit⟩
    · simp [Call.user, Call.needsUser, contains_eq, hnone] at huser
    · have hlargest : (Amount.largest : Int) = 2147483647 := rfl
      rw [worth_of_balance? hb] at hle
      omega
    · exact ⟨sum, by rw [worth_of_balance? hb, hsum], by simp only [serve, hdeposit, Call.returned]⟩
  | withdraw user amount =>
    simp only [Call.outcome, Call.amount, Call.user] at hpos hnonneg ⊢
    rcases ledger.withdraw_cases user hpos with
      ⟨hnone, -⟩ | ⟨balance, hb, hless, -⟩ | ⟨balance, hb, -, hrest, hwithdraw⟩
    · simp [Call.user, Call.needsUser, contains_eq, hnone] at huser
    · rw [worth_of_balance? hb] at hnonneg
      omega
    · exact ⟨balance - amount, by rw [worth_of_balance? hb, hrest], by simp only [serve, hwithdraw, Call.returned]⟩

/-- **A call that is not allowed changes nothing**, and tells the first condition that fails. -/
theorem serve_of_not_allowed (hrange : ledger.InRange) {call : Call} (h : ¬ call.Allowed ledger) :
    ledger.serve call = (.error (call.fault ledger), ledger) := by
  unfold Call.fault
  by_cases hpos : call.amount.toInt < 0
  · rw [if_pos hpos, serve_of_negative hpos]
  · rw [if_neg hpos]
    by_cases huser : ledger.contains call.user = call.needsUser
    · rw [if_neg (not_not.2 huser)]
      refine serve_of_range hrange (by omega) huser ?_
      by_contra hin
      exact h ⟨by omega, huser, by omega, by omega⟩
    · rw [if_pos huser, serve_of_user_ne (by omega) huser]

/-- Only a call that is allowed succeeds. -/
theorem allowed_of_ok (hrange : ledger.InRange) {call : Call} {answer : Option Amount}
    (h : (ledger.serve call).1 = .ok answer) : call.Allowed ledger := by
  by_contra hnot
  rw [serve_of_not_allowed hrange hnot] at h
  simp at h

/-- **A call is undone** by one of the same amount that leads back. -/
theorem serve_back (hrange : ledger.InRange) (call back : Call) (huser : back.user = call.user)
    (hamount : back.amount = call.amount) (hcall : call.needsUser = true) (hneeds : back.needsUser = true)
    (hback : ∀ old, back.outcome (call.outcome old) = old) {answer : Option Amount} {after : Ledger}
    (h : ledger.serve call = (.ok answer, after)) :
    ∃ balance, ledger.balance? call.user = some balance ∧
      after.serve back = (.ok (back.returned balance), ledger) := by
  have hallowed := allowed_of_ok hrange (congrArg Prod.fst h)
  obtain ⟨new, hnew, hserve⟩ := serve_of_allowed hrange hallowed
  obtain rfl : ledger.setBalance call.user new = after := congrArg Prod.snd (hserve.symm.trans h)
  have hthere := hallowed.user_eq
  rw [hcall, contains_eq] at hthere
  obtain ⟨old, hold⟩ := Option.isSome_iff_exists.1 hthere
  have hworth : (ledger.setBalance call.user new).worth back.user = new.toInt := by
    rw [worth_setBalance, huser, if_pos rfl]
  have hreturns : back.outcome ((ledger.setBalance call.user new).worth back.user) = old.toInt := by
    rw [hworth, hnew, hback, worth_of_balance? hold]
  have holdpos := hrange _ old hold
  have holdlt := old.toInt_lt
  have hafter : (ledger.setBalance call.user new).InRange :=
    hrange.setBalance (by rw [hnew]; exact hallowed.outcome_nonneg)
  have hagain : back.Allowed (ledger.setBalance call.user new) :=
    ⟨by rw [hamount]; exact hallowed.amount_nonneg, by simp [contains_setBalance, huser, hneeds],
      by omega, by omega⟩
  obtain ⟨balance, hbalance, hreturned⟩ := serve_of_allowed hafter hagain
  obtain rfl : balance = old := Int32.toInt_inj.1 (hbalance.trans hreturns)
  refine ⟨balance, hold, ?_⟩
  rw [hreturned, huser, setBalance_setBalance_of_balance? hold]

/-! ## All calls -/

/-- A call leaves no balance negative. -/
theorem InRange.serve (hrange : ledger.InRange) (call : Call) : (ledger.serve call).2.InRange := by
  by_cases h : call.Allowed ledger
  · obtain ⟨balance, hbalance, hserve⟩ := serve_of_allowed hrange h
    rw [hserve]
    exact hrange.setBalance (by rw [hbalance]; exact h.outcome_nonneg)
  · rw [serve_of_not_allowed hrange h]
    exact hrange

/-- Nor do any number of them. -/
theorem InRange.serveAll (hrange : ledger.InRange) (turns : List Turn) : (ledger.serveAll turns).2.InRange := by
  induction turns generalizing ledger with
  | nil => exact hrange
  | cons turn later ih => exact ih (hrange.serve turn.call)

/-- What a call that is allowed leads to, in what it pays in and takes. -/
theorem Call.Allowed.outcome_eq {call : Call} (h : call.Allowed ledger) :
    call.outcome (ledger.worth call.user) =
      ledger.worth call.user + call.paidIn call.user - call.taken call.user := by
  have huser := h.user_eq
  cases call with
  | create user opening =>
    have hnew : ledger.balance? user = none := by simpa [Call.user, needsUser, contains_eq] using huser
    simp [outcome, Call.user, paidIn, taken, worth, hnew]
  | deposit user amount => simp [outcome, Call.user, paidIn, taken]
  | withdraw user amount => simp [outcome, Call.user, paidIn, taken]

/-- A call of somebody else pays nothing in. -/
theorem Call.paidIn_of_ne {call : Call} {name : String} (h : call.user ≠ name) : call.paidIn name = 0 := by
  cases call with
  | create user amount | deposit user amount => exact if_neg h
  | withdraw user amount => rfl

/-- A call of somebody else takes nothing. -/
theorem Call.taken_of_ne {call : Call} {name : String} (h : call.user ≠ name) : call.taken name = 0 := by
  cases call with
  | create user amount | deposit user amount => rfl
  | withdraw user amount => exact if_neg h

/-- **One turn changes a balance by what it pays in and takes.** -/
theorem worth_serve (hrange : ledger.InRange) (turn : Turn) (name : String) :
    let served : Served := ⟨turn, (ledger.serve turn.call).1⟩
    (ledger.serve turn.call).2.worth name = ledger.worth name + served.paidIn name - served.taken name := by
  by_cases h : turn.call.Allowed ledger
  · obtain ⟨balance, hbalance, hserve⟩ := serve_of_allowed hrange h
    simp only [hserve, Served.paidIn, Served.taken, worth_setBalance]
    by_cases hname : turn.call.user = name
    · subst hname
      rw [if_pos rfl, hbalance, h.outcome_eq]
    · rw [if_neg hname, Call.paidIn_of_ne hname, Call.taken_of_ne hname]
      omega
  · simp only [serve_of_not_allowed hrange h, Served.paidIn, Served.taken]
    omega

/-- **All turns together change a balance by what they pay in and take.** -/
theorem worth_serveAll (hrange : ledger.InRange) (turns : List Turn) (name : String) :
    (ledger.serveAll turns).2.worth name =
      ledger.worth name + total (Served.paidIn name) (ledger.serveAll turns).1 -
        total (Served.taken name) (ledger.serveAll turns).1 := by
  induction turns generalizing ledger with
  | nil => simp [serveAll, total]
  | cons turn later ih =>
    have hfirst := worth_serve hrange turn name
    have hrest := ih (hrange.serve turn.call)
    simp only [serveAll, total] at hfirst ⊢
    omega

/-- No turn gives a user anything by taking. -/
theorem taken_nonneg (hrange : ledger.InRange) (turns : List Turn) (name : String) :
    ∀ served ∈ (ledger.serveAll turns).1, 0 ≤ served.taken name := by
  induction turns generalizing ledger with
  | nil => simp [serveAll]
  | cons turn later ih =>
    refine List.forall_mem_cons.2 ⟨?_, ih (hrange.serve turn.call)⟩
    by_cases h : turn.call.Allowed ledger
    · obtain ⟨balance, -, hserve⟩ := serve_of_allowed hrange h
      have hpos := h.amount_nonneg
      simp only [Served.taken, hserve]
      cases hcall : turn.call with
      | create user amount | deposit user amount => exact Int.le_refl 0
      | withdraw user amount =>
        rw [hcall] at hpos
        simp only [Call.taken]
        split
        · exact hpos
        · exact Int.le_refl 0
    · simp [Served.taken, serve_of_not_allowed hrange h]

/-- **Nobody takes more than there is.** What some of the turns take from a user is covered by the balance before
them and what is paid in. -/
theorem total_taken_le (hrange : ledger.InRange) (turns : List Turn) (name : String) {chosen : List Served}
    (h : chosen.Sublist (ledger.serveAll turns).1) :
    total (Served.taken name) chosen ≤
      ledger.worth name + total (Served.paidIn name) (ledger.serveAll turns).1 := by
  have hchosen := total_le_of_sublist h (taken_nonneg hrange turns name)
  have hall := worth_serveAll hrange turns name
  have hafter := worth_nonneg (hrange.serveAll turns) name
  omega

/-- **The ledger computes exactly and never leaves its range**, whatever its clients call, in any order. A balance
is from 0 to 2147483647. A call is carried out if and only if it is allowed, and then to the balance that the
integers give, which is returned; it changes one balance, or nothing. A deposit and a withdrawal that follow each
other undo each other. Clients together take no more from a user than the balance and what is paid in. -/
theorem exact_in_range (before : List Turn) :
    let ledger := (empty.serveAll before).2
    (∀ user balance, ledger.balance? user = some balance → 0 ≤ balance.toInt ∧ balance.toInt ≤ 2147483647) ∧
      (∀ call : Call,
        (call.Allowed ledger →
          ∃ balance after, balance.toInt = call.outcome (ledger.worth call.user) ∧
            ledger.serve call = (.ok (call.returned balance), after) ∧
            after.balance? call.user = some balance ∧
            ∀ other, other ≠ call.user → after.balance? other = ledger.balance? other) ∧
        (¬ call.Allowed ledger → ledger.serve call = (.error (call.fault ledger), ledger))) ∧
      (∀ user amount answer after,
        (ledger.serve (.deposit user amount) = (.ok answer, after) →
          ∃ balance, ledger.balance? user = some balance ∧
            after.serve (.withdraw user amount) = (.ok (some balance), ledger)) ∧
        (ledger.serve (.withdraw user amount) = (.ok answer, after) →
          ∃ balance, ledger.balance? user = some balance ∧
            after.serve (.deposit user amount) = (.ok (some balance), ledger))) ∧
      ∀ (turns : List Turn) (user : String),
        let served := (ledger.serveAll turns).1
        (ledger.serveAll turns).2.worth user =
            ledger.worth user + total (Served.paidIn user) served - total (Served.taken user) served ∧
          ∀ clients : Nat → Bool,
            total (Served.taken user) (served.filter fun s => clients s.turn.client) ≤
              ledger.worth user + total (Served.paidIn user) served := by
  intro ledger
  have hrange : ledger.InRange := inRange_empty.serveAll before
  refine ⟨?_, fun call => ⟨?_, serve_of_not_allowed hrange⟩, fun user amount answer after => ⟨?_, ?_⟩, ?_⟩
  · intro user balance h
    have hlt := balance.toInt_lt
    exact ⟨hrange user balance h, by omega⟩
  · intro hallowed
    obtain ⟨balance, hbalance, hserve⟩ := serve_of_allowed hrange hallowed
    refine ⟨balance, _, hbalance, hserve, ?_, fun other hother => ?_⟩
    · rw [balance?_setBalance, if_pos rfl]
    · rw [balance?_setBalance, if_neg (Ne.symm hother)]
  · exact serve_back hrange (.deposit user amount) (.withdraw user amount) rfl rfl rfl rfl
      fun old => Int.add_sub_cancel old amount.toInt
  · exact serve_back hrange (.withdraw user amount) (.deposit user amount) rfl rfl rfl rfl
      fun old => Int.sub_add_cancel old amount.toInt
  · intro turns user
    exact ⟨worth_serveAll hrange turns user, fun clients => total_taken_le hrange turns user List.filter_sublist⟩

/-- Two clients who each take 7 of 10: the first is paid, and a deposit of all that 32 bits hold is refused. -/
theorem exact_in_range_alice :
    let ledger := (empty.serveAll [⟨0, .create "alice" 10⟩]).2
    (Call.withdraw "alice" 7).Allowed ledger ∧ ¬ (Call.deposit "alice" 2147483647).Allowed ledger ∧
      (∃ balance after, balance.toInt = 3 ∧ ledger.serve (.withdraw "alice" 7) = (.ok (some balance), after) ∧
        after.serve (.deposit "alice" 7) = (.ok (some 10), ledger)) ∧
      ledger.serve (.deposit "alice" 2147483647) = (.error .overflow, ledger) ∧
      total (Served.taken "alice") ((ledger.serveAll
        [⟨1, .withdraw "alice" 7⟩, ⟨2, .withdraw "alice" 7⟩]).1.filter fun s => s.turn.client == 1) ≤ 10 := by
  obtain ⟨-, hcall, hback, hall⟩ := exact_in_range [⟨0, .create "alice" 10⟩]
  have hallowed : (Call.withdraw "alice" 7).Allowed (empty.serveAll [⟨0, .create "alice" 10⟩]).2 :=
    ⟨by decide, by decide, by decide, by decide⟩
  have hnot : ¬ (Call.deposit "alice" 2147483647).Allowed (empty.serveAll [⟨0, .create "alice" 10⟩]).2 :=
    fun h => absurd h.outcome_le (by decide)
  obtain ⟨balance, after, hbalance, hserve, -⟩ := (hcall _).1 hallowed
  obtain ⟨old, hold, hundone⟩ := (hback _ _ _ _).2 hserve
  obtain rfl : 10 = old := Option.some.inj hold
  exact ⟨hallowed, hnot, ⟨balance, after, hbalance, hserve, hundone⟩, (hcall _).2 hnot, (hall _ _).2 (· == 1)⟩

end Ledger
end Cashpoint
