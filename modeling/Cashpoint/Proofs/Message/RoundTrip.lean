/-
# Messages read back

What one party writes, the other reads as the same message
(`Request.ofString?_render`, `Response.ofString?_render`), and every message fits into
a frame (`Request.length_encode_render_le`, `Response.length_encode_render_le`).

A request is well formed when its user name is one and its amount is not negative,
and a response is in range when its amount is not negative; nothing else can be read.
A response that is out of range is not read at all, so whatever is read from the text
of a response is that response (`Response.eq_of_ofString?_render`).
-/

import Cashpoint.Message.Response
import Cashpoint.Proofs.Text.Words
import Cashpoint.Text.Utf8

namespace Cashpoint

/-! ## Amounts and names as words -/

namespace Amount

/-- The digits of a written amount. -/
def digits (amount : Amount) : List Char := Nat.toDigits 10 amount.toInt.natAbs

/-- The digits of an amount are digits. -/
theorem isDigit_of_mem_digits {amount : Amount} {c : Char} (h : c ∈ amount.digits) :
    c.isDigit = true :=
  Nat.isDigit_of_mem_toDigits (by decide) (by decide) h

/-- A negative amount is written with a sign, and any other in digits alone. -/
theorem toList_render (amount : Amount) :
    amount.render.toList = if amount.toInt < 0 then '-' :: amount.digits else amount.digits := by
  rw [render, String.toList_ofList, digits]

/-- An amount is never written as nothing. -/
theorem render_ne_nil (amount : Amount) : amount.render.toList ≠ [] := by
  rw [toList_render, digits]
  split <;> simp

/-- A written amount has digits and a minus sign in it, and nothing else. -/
theorem digit_or_minus_of_mem_render {amount : Amount} {c : Char} (h : c ∈ amount.render.toList) :
    c.isDigit = true ∨ c = '-' := by
  rw [toList_render] at h
  split at h
  · rcases List.mem_cons.1 h with rfl | h
    · exact Or.inr rfl
    · exact Or.inl (isDigit_of_mem_digits h)
  · exact Or.inl (isDigit_of_mem_digits h)

/-- There are no blanks in an amount. -/
theorem isBlank_of_mem_render {amount : Amount} {c : Char} (h : c ∈ amount.render.toList) :
    Text.isBlank c = false := by
  rcases digit_or_minus_of_mem_render h with hd | rfl
  · exact Text.isBlank_of_isAlphanum (by simp [Char.isAlphanum, hd])
  · decide

/-- An amount is written as one word. -/
theorem isWord_render (amount : Amount) : Text.IsWord amount.render :=
  ⟨render_ne_nil amount, fun _ h => isBlank_of_mem_render h⟩

/-- A negative amount is written with a minus sign, which no amount is read with. -/
theorem ofString?_render_of_neg {amount : Amount} (h : amount.toInt < 0) :
    ofString? amount.render = none := by
  have hl : amount.render.toList = '-' :: amount.digits := by rw [toList_render, if_pos h]
  rw [ofString?, hl, ofDigits?, if_neg]
  rintro ⟨-, hall⟩
  simp only [List.all_cons, Bool.and_eq_true] at hall
  exact absurd hall.1 (by decide)

/-- Whatever is read from a written amount is that amount. -/
theorem eq_of_ofString?_render {amount other : Amount} (h : ofString? amount.render = some other) :
    other = amount := by
  by_cases hneg : amount.toInt < 0
  · rw [ofString?_render_of_neg hneg] at h
    simp at h
  · rw [ofString?_render (by omega)] at h
    exact (Option.some.inj h).symm

/-- Different amounts are written differently. -/
theorem render_inj {amount other : Amount} (hpos : 0 ≤ amount.toInt) (h : amount.render = other.render) :
    amount = other :=
  eq_of_ofString?_render (h ▸ ofString?_render hpos)

/-- At most ten digits, and a sign. -/
theorem length_render_le (amount : Amount) : amount.render.toList.length ≤ 11 := by
  have hd : amount.digits.length ≤ 10 := by
    have h₁ := amount.le_toInt
    have h₂ := amount.toInt_lt
    exact (Nat.length_toDigits_le_iff (by decide) (by decide)).2 (by omega)
  rw [toList_render]
  split
  · rw [List.length_cons]
    omega
  · omega

end Amount

namespace Credential

/-- A user name consists of letters. -/
theorem isAlpha_of_mem_userName {user : String} (h : isUserName user = true) {c : Char}
    (hc : c ∈ user.toList) : c.isAlpha = true := by
  simp only [isUserName, Bool.and_eq_true, List.all_eq_true] at h
  exact h.2 c hc

/-- A user name is a word. -/
theorem isWord_userName {user : String} (h : isUserName user = true) : Text.IsWord user := by
  constructor
  · simp only [isUserName, Bool.and_eq_true, decide_eq_true_eq] at h
    exact List.length_pos_iff.1 h.1.1
  · intro c hc
    exact Text.isBlank_of_isAlphanum (by simp [Char.isAlphanum, isAlpha_of_mem_userName h hc])

/-- A user name is not too long. -/
theorem length_userName_le {user : String} (h : isUserName user = true) :
    user.toList.length ≤ longestUserName := by
  simp only [isUserName, Bool.and_eq_true, decide_eq_true_eq] at h
  exact h.1.2

end Credential

/-! ## Sizes -/

/-- A text whose characters take one byte each. -/
def Text.IsAscii (text : String) : Prop := ∀ c ∈ text.toList, c.toNat < 128

namespace Text

instance (text : String) : Decidable (IsAscii text) :=
  decidable_of_iff ((text.toList.all fun c => c.toNat < 128) = true) (by simp [IsAscii])

/-- Two texts in ASCII make one. -/
theorem isAscii_append {a b : String} (ha : IsAscii a) (hb : IsAscii b) : IsAscii (a ++ b) := by
  intro c hc
  rw [String.toList_append] at hc
  rcases List.mem_append.1 hc with hc | hc
  · exact ha c hc
  · exact hb c hc

/-- Letters and digits are in ASCII. -/
theorem toNat_lt_of_isAlphanum {c : Char} (h : c.isAlphanum = true) : c.toNat < 128 := by
  have hbounds := bounds_of_isAlphanum h
  omega

/-- An amount is written in ASCII. -/
theorem isAscii_render (amount : Amount) : IsAscii amount.render := by
  intro c hc
  rcases Amount.digit_or_minus_of_mem_render hc with hd | rfl
  · exact toNat_lt_of_isAlphanum (by simp [Char.isAlphanum, hd])
  · decide

/-- A user name is in ASCII. -/
theorem isAscii_userName {user : String} (h : Credential.isUserName user = true) : IsAscii user :=
  fun _ hc => toNat_lt_of_isAlphanum (by simp [Char.isAlphanum, Credential.isAlpha_of_mem_userName h hc])

end Text

namespace Utf8

/-- The bytes of a text are as many as its size says. -/
theorem length_encode (text : String) : (encode text).length = text.utf8ByteSize := by
  rw [encode, Array.length_toList]
  rfl

/-- Characters in ASCII take one byte each. -/
theorem size_utf8Encode_of_ascii {chars : List Char} (h : ∀ c ∈ chars, c.toNat < 128) :
    chars.utf8Encode.size = chars.length := by
  induction chars with
  | nil => rfl
  | cons c rest ih =>
    have hc : c.utf8Size = 1 := by
      rw [Char.utf8Size_eq_one_iff, UInt32.le_iff_toNat_le]
      exact Nat.le_of_lt_succ (h c (by simp))
    rw [← List.singleton_append, List.utf8Encode_append, ByteArray.size_append,
      ih fun d hd => h d (by simp [hd]), List.utf8Encode_singleton]
    simp [hc]
    omega

/-- A text of ASCII characters has as many bytes as characters. -/
theorem utf8ByteSize_of_ascii {text : String} (h : Text.IsAscii text) :
    text.utf8ByteSize = text.toList.length := by
  rw [← size_utf8Encode_of_ascii h, String.utf8Encode_toList]
  rfl

end Utf8

/-! ## Requests -/

namespace Request

/-- What a request that an ATM makes satisfies: its user name is one, its amount is not negative. -/
def WellFormed : Request → Prop
  | withdraw user amount => Credential.isUserName user = true ∧ 0 ≤ amount.toInt
  | beginSession user | balance user => Credential.isUserName user = true

/-- The user of a well-formed request has a user name. -/
theorem WellFormed.userName {request : Request} (h : request.WellFormed) :
    Credential.isUserName request.user = true := by
  cases request with
  | withdraw user amount => exact h.1
  | beginSession user => exact h
  | balance user => exact h

/-- The words of a well-formed request are read as it. -/
theorem words_render {request : Request} (h : request.WellFormed) :
    ofWords? (Text.words request.render) = some request := by
  have hu : Text.IsWord request.user := Credential.isWord_userName h.userName
  cases request with
  | beginSession user =>
    have hw : Text.words (" ".intercalate ["begin-session", user]) = ["begin-session", user] :=
      Text.words_line (List.forall_mem_cons.2 ⟨by decide, List.forall_mem_singleton.2 hu⟩)
    rw [show (beginSession user).render = " ".intercalate ["begin-session", user] from rfl, hw]
    rfl
  | withdraw user amount =>
    have hw : Text.words (" ".intercalate ["withdraw", user, amount.render]) = ["withdraw", user, amount.render] :=
      Text.words_line (List.forall_mem_cons.2
        ⟨by decide, List.forall_mem_cons.2 ⟨hu, List.forall_mem_singleton.2 (Amount.isWord_render amount)⟩⟩)
    rw [show (withdraw user amount).render = " ".intercalate ["withdraw", user, amount.render] from rfl, hw,
      ofWords?, Amount.ofString?_render h.2]
    rfl
  | balance user =>
    have hw : Text.words (" ".intercalate ["balance", user]) = ["balance", user] :=
      Text.words_line (List.forall_mem_cons.2 ⟨by decide, List.forall_mem_singleton.2 hu⟩)
    rw [show (balance user).render = " ".intercalate ["balance", user] from rfl, hw]
    rfl

/-- **A well-formed request reads back.** -/
theorem ofString?_render {request : Request} (h : request.WellFormed) :
    ofString? request.render = some request := by
  rw [ofString?, words_render h, Option.filter_some, if_pos h.userName]

/-- Nothing but well-formed requests can be read. -/
theorem wellFormed_of_ofString? {text : String} {request : Request}
    (h : ofString? text = some request) : request.WellFormed := by
  obtain ⟨hw, hu⟩ := Option.filter_eq_some_iff.1 h
  unfold ofWords? at hw
  split at hw
  · obtain rfl := Option.some.inj hw
    exact hu
  · obtain ⟨amount, ha, rfl⟩ := Option.map_eq_some_iff.1 hw
    exact ⟨hu, Amount.nonneg_of_ofString? ha⟩
  · obtain rfl := Option.some.inj hw
    exact hu
  · simp at hw

/-- A well-formed request is written in ASCII. -/
theorem isAscii_render {request : Request} (h : request.WellFormed) : Text.IsAscii request.render := by
  have hu := Text.isAscii_userName h.userName
  cases request with
  | beginSession user => exact Text.isAscii_append (by decide) hu
  | withdraw user amount =>
    exact Text.isAscii_append (Text.isAscii_append (Text.isAscii_append (by decide) hu) (by decide))
      (Text.isAscii_render amount)
  | balance user => exact Text.isAscii_append (by decide) hu

/-- A well-formed request has at most 271 characters. -/
theorem length_render_le {request : Request} (h : request.WellFormed) :
    request.render.toList.length ≤ 271 := by
  have hu : request.user.toList.length ≤ 250 := Credential.length_userName_le h.userName
  cases request with
  | beginSession user =>
    simp only [Request.user, render, String.toList_append, List.length_append] at hu ⊢
    have : "begin-session ".toList.length = 14 := rfl
    omega
  | withdraw user amount =>
    have ha := Amount.length_render_le amount
    simp only [Request.user, render, String.toList_append, List.length_append] at hu ⊢
    have : "withdraw ".toList.length = 9 := rfl
    have : " ".toList.length = 1 := rfl
    omega
  | balance user =>
    simp only [Request.user, render, String.toList_append, List.length_append] at hu ⊢
    have : "balance ".toList.length = 8 := rfl
    omega

/-- **A well-formed request fits into a frame**, which holds 1024 bytes. -/
theorem length_encode_render_le {request : Request} (h : request.WellFormed) :
    (Utf8.encode request.render).length ≤ 271 := by
  rw [Utf8.length_encode, Utf8.utf8ByteSize_of_ascii (isAscii_render h)]
  exact length_render_le h

end Request

/-! ## Responses -/

namespace Response

/-- What a response that can be read satisfies: its amount is not negative. -/
def InRange : Response → Prop
  | dispensed amount | balance amount => 0 ≤ amount.toInt
  | _ => True

/-- The end of a dispensed amount starts with a blank, so no amount ends in it. -/
theorem not_dispensedEnding_suffix_render (amount : Amount) :
    ¬ dispensedEnding <:+ amount.render.toList := by
  intro h
  have hb : ' ' ∈ amount.render.toList := h.mem (by decide)
  have := Amount.isBlank_of_mem_render hb
  exact absurd this (by decide)

/-- What is dispensed is read if the amount is. -/
theorem ofMoney?_dispensed (amount : Amount) :
    ofMoney? (amount.render.toList ++ dispensedEnding) =
      (Amount.ofString? amount.render).map dispensed := by
  rw [ofMoney?, if_pos (List.suffix_append _ _), List.length_append, Nat.add_sub_cancel,
    List.take_left, Amount.ofString?]

/-- A balance is read if the amount is. -/
theorem ofMoney?_balance (amount : Amount) :
    ofMoney? amount.render.toList = (Amount.ofString? amount.render).map balance := by
  rw [ofMoney?, if_neg (not_dispensedEnding_suffix_render amount), Amount.ofString?]

/-- A text that starts with a dollar sign is one of an amount of money. -/
theorem ofTrimmed?_dollar {text : String} {rest : List Char} (h : text.toList = '$' :: rest) :
    ofTrimmed? text = ofMoney? rest := by
  have hne : ∀ literal : String, literal.toList.head? ≠ some '$' → text ≠ literal := by
    rintro literal hl rfl
    rw [h] at hl
    exact hl rfl
  rw [ofTrimmed?, if_neg (hne _ (by decide)), if_neg (hne _ (by decide)), if_neg (hne _ (by decide)),
    if_neg (hne _ (by decide))]
  simp only [h]

/-- The characters of a line of cash. -/
theorem toList_dispensed (digits : String) :
    ("$" ++ digits ++ " dispensed").toList = '$' :: (digits.toList ++ dispensedEnding) := by
  have hd : "$".toList = ['$'] := rfl
  rw [String.toList_append, String.toList_append, hd, List.append_assoc]
  rfl

/-- The characters of a balance that is shown. -/
theorem toList_balance (digits : String) : ("$" ++ digits).toList = '$' :: digits.toList := by
  have hd : "$".toList = ['$'] := rfl
  rw [String.toList_append, hd, List.singleton_append]

/-- Cash is written with a dollar sign in front of the amount, and what happened behind it. -/
theorem toList_render_dispensed (amount : Amount) :
    (dispensed amount).render.toList = '$' :: (amount.render.toList ++ dispensedEnding) :=
  toList_dispensed amount.render

/-- A balance is written with a dollar sign in front of it. -/
theorem toList_render_balance (amount : Amount) :
    (balance amount).render.toList = '$' :: amount.render.toList :=
  toList_balance amount.render

/-- No response is written with a blank at its end. -/
theorem trimEnd_render (response : Response) : Text.trimEnd response.render = response.render := by
  apply Text.trimEnd_of_getLast?
  intro c hc
  cases response with
  | dispensed amount =>
    rw [toList_render_dispensed, ← List.cons_append, List.getLast?_append] at hc
    obtain rfl : 'd' = c := Option.some.inj hc
    decide
  | balance amount =>
    rw [toList_render_balance, List.getLast?_cons_of_ne_nil (Amount.render_ne_nil amount)] at hc
    exact Amount.isBlank_of_mem_render (List.mem_of_getLast? hc)
  | success => obtain rfl : 's' = c := Option.some.inj hc; decide
  | noSuchUser => obtain rfl : 'r' = c := Option.some.inj hc; decide
  | insufficientFunds => obtain rfl : 's' = c := Option.some.inj hc; decide
  | invalidCommand => obtain rfl : 'd' = c := Option.some.inj hc; decide

/-- What is dispensed is read back if the amount can be. -/
theorem ofString?_render_dispensed (amount : Amount) :
    ofString? (dispensed amount).render = (Amount.ofString? amount.render).map dispensed := by
  rw [ofString?, trimEnd_render, ofTrimmed?_dollar (toList_render_dispensed amount), ofMoney?_dispensed]

/-- A balance is read back if the amount can be. -/
theorem ofString?_render_balance (amount : Amount) :
    ofString? (balance amount).render = (Amount.ofString? amount.render).map balance := by
  rw [ofString?, trimEnd_render, ofTrimmed?_dollar (toList_render_balance amount), ofMoney?_balance]

/-- **A response in range reads back.** -/
theorem ofString?_render {response : Response} (h : response.InRange) :
    ofString? response.render = some response := by
  cases response with
  | dispensed amount => rw [ofString?_render_dispensed, Amount.ofString?_render h]; rfl
  | balance amount => rw [ofString?_render_balance, Amount.ofString?_render h]; rfl
  | success => rw [ofString?, trimEnd_render]; decide
  | noSuchUser => rw [ofString?, trimEnd_render]; decide
  | insufficientFunds => rw [ofString?, trimEnd_render]; decide
  | invalidCommand => rw [ofString?, trimEnd_render]; decide

/-- **Whatever is read from a written response is that response.** -/
theorem eq_of_ofString?_render {response other : Response}
    (h : ofString? response.render = some other) : other = response := by
  cases response with
  | dispensed amount =>
    rw [ofString?_render_dispensed] at h
    obtain ⟨a, ha, rfl⟩ := Option.map_eq_some_iff.1 h
    rw [Amount.eq_of_ofString?_render ha]
  | balance amount =>
    rw [ofString?_render_balance] at h
    obtain ⟨a, ha, rfl⟩ := Option.map_eq_some_iff.1 h
    rw [Amount.eq_of_ofString?_render ha]
  | success | noSuchUser | insufficientFunds | invalidCommand =>
    rw [ofString?_render (by exact trivial)] at h
    exact (Option.some.inj h).symm

/-- Different responses are written differently. -/
theorem render_inj {response other : Response} (hin : response.InRange)
    (h : response.render = other.render) : response = other :=
  eq_of_ofString?_render (h ▸ ofString?_render hin)

/-- Every response is written in ASCII. -/
theorem isAscii_render (response : Response) : Text.IsAscii response.render := by
  cases response with
  | dispensed amount =>
    exact Text.isAscii_append (Text.isAscii_append (by decide) (Text.isAscii_render amount)) (by decide)
  | balance amount => exact Text.isAscii_append (by decide) (Text.isAscii_render amount)
  | success | noSuchUser | insufficientFunds | invalidCommand => decide

/-- A response has at most 22 characters. -/
theorem length_render_le (response : Response) : response.render.toList.length ≤ 22 := by
  cases response with
  | dispensed amount =>
    have ha := Amount.length_render_le amount
    have he : dispensedEnding.length = 10 := rfl
    rw [toList_render_dispensed, List.length_cons, List.length_append]
    omega
  | balance amount =>
    have ha := Amount.length_render_le amount
    rw [toList_render_balance, List.length_cons]
    omega
  | success | noSuchUser | insufficientFunds | invalidCommand => decide

/-- **Every response fits into a frame**, which holds 1024 bytes. -/
theorem length_encode_render_le (response : Response) : (Utf8.encode response.render).length ≤ 22 := by
  rw [Utf8.length_encode, Utf8.utf8ByteSize_of_ascii (isAscii_render response)]
  exact length_render_le response

end Response
end Cashpoint
