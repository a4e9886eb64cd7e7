/-
# Amounts

Money is counted in whole units, as signed 32-bit numbers. A balance is never
negative; an amount asked for may be, and is then refused by the ledger.

A text names an amount when it is a non-empty string of ASCII digits, with any
number of leading zeros, whose value is at most `2^31 - 1`. There is no sign in it.
Written amounts read back (`ofString?_render`).
-/

namespace Cashpoint

/-- A number of units of money. -/
abbrev Amount := Int32

namespace Amount

/-- The largest amount, and the largest balance. -/
def largest : Nat := 2147483647

/-- The amount that a string of digits names. -/
def ofDigits? (digits : List Char) : Option Amount :=
  if digits ≠ [] ∧ digits.all Char.isDigit then
    let value := Nat.ofDigitChars 10 digits 0
    if value ≤ largest then some (Int32.ofNat value) else none
  else
    none

/-- The amount that a text names. -/
def ofString? (text : String) : Option Amount := ofDigits? text.toList

/-- An amount in decimal digits, after a minus sign if it is negative. -/
def render (amount : Amount) : String :=
  let digits := Nat.toDigits 10 amount.toInt.natAbs
  String.ofList (if amount.toInt < 0 then '-' :: digits else digits)

/-- An amount that is not negative is read back as it is written. -/
theorem ofString?_render {amount : Amount} (h : 0 ≤ amount.toInt) :
    ofString? (render amount) = some amount := by
  have hlt : ¬ amount.toInt < 0 := by omega
  have hdigits : (Nat.toDigits 10 amount.toInt.natAbs).all Char.isDigit = true := by
    rw [List.all_eq_true]
    exact fun c hc => Nat.isDigit_of_mem_toDigits (by decide) (by decide) hc
  have hle := amount.toInt_lt
  have hval : amount.toInt.natAbs ≤ largest := by
    simp only [largest]; omega
  simp only [ofString?, render, hlt, if_false, String.toList_ofList, ofDigits?, ne_eq,
    Nat.toDigits_ne_nil, not_false_eq_true, hdigits, and_self, if_true, Nat.ofDigitChars_ten_toDigits,
    hval, Option.some.injEq]
  apply Int32.toInt_inj.1
  rw [Int32.toInt_ofNat_of_lt (by simp only [largest] at hval; omega)]
  omega

/-- The amounts that a text can name. -/
theorem nonneg_of_ofString? {text : String} {amount : Amount} (h : ofString? text = some amount) :
    0 ≤ amount.toInt := by
  simp only [ofString?, ofDigits?] at h
  split at h
  · split at h
    · rename_i hle
      simp only [largest] at hle
      obtain rfl := Option.some.inj h
      rw [Int32.toInt_ofNat_of_lt (by omega)]
      omega
    · simp at h
  · simp at h

end Amount
end Cashpoint
