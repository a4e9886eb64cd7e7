/-
# Amounts and their digits

A text names an amount if it consists of decimal digits, at least one, and the amount
is their value (`Spells`). Such texts are read and no others (`ofString?_eq_some_iff`).
They are the written amount with any number of zeros before it
(`spells_iff_exists_renderPadded`), and there is one just if the value is not above
`2^31 - 1` (`exists_spells_iff`).
-/

import Cashpoint.Proofs.Message.RoundTrip
import Mathlib.Data.List.Induction

namespace Cashpoint
namespace Amount

/-- Decimal digits, at least one, and their value is the amount. -/
structure Spells (text : String) (amount : Amount) : Prop where
  ne_nil : text.toList ≠ []
  digits : ∀ c ∈ text.toList, '0' ≤ c ∧ c ≤ '9'
  value : (Nat.ofDigitChars 10 text.toList 0 : Int) = amount.toInt

/-- An amount in decimal digits, with more zeros before it. -/
def renderPadded (zeros : Nat) (amount : Amount) : String :=
  String.ofList (List.replicate zeros '0') ++ amount.render

variable {text : String} {amount : Amount}

/-- The digits are the characters from `0` to `9`. -/
theorem isDigit_iff {c : Char} : c.isDigit = true ↔ '0' ≤ c ∧ c ≤ '9' := by
  simp [Char.isDigit, Char.le_def]

/-- No digit is blank. -/
theorem isBlank_of_digit {c : Char} (h : '0' ≤ c ∧ c ≤ '9') : Text.isBlank c = false :=
  Text.isBlank_of_isAlphanum (by simp [Char.isAlphanum, isDigit_iff.2 h])

/-! ## Reading -/

/-- Digits spell no negative amount. -/
theorem Spells.nonneg (h : Spells text amount) : 0 ≤ amount.toInt := by
  have := h.value
  omega

/-- Digits that spell an amount are a word. -/
theorem Spells.isWord (h : Spells text amount) : Text.IsWord text :=
  ⟨h.ne_nil, fun c hc => isBlank_of_digit (h.digits c hc)⟩

/-- **An amount is read from its digits and from nothing else.** -/
theorem ofString?_eq_some_iff : ofString? text = some amount ↔ Spells text amount := by
  have hdigits : text.toList.all Char.isDigit = true ↔ ∀ c ∈ text.toList, '0' ≤ c ∧ c ≤ '9' := by
    simp only [List.all_eq_true, isDigit_iff]
  have hlargest : largest = 2147483647 := rfl
  simp only [ofString?, ofDigits?]
  constructor
  · intro h
    split at h
    · rename_i hform
      split at h
      · rename_i hle
        obtain rfl := Option.some.inj h
        exact ⟨hform.1, hdigits.1 hform.2, (Int32.toInt_ofNat_of_lt (by omega)).symm⟩
      · simp at h
    · simp at h
  · intro h
    have hvalue := h.value
    have hlt := amount.toInt_lt
    rw [if_pos ⟨h.ne_nil, hdigits.2 h.digits⟩, if_pos (by omega)]
    congr 1
    apply Int32.toInt_inj.1
    rw [Int32.toInt_ofNat_of_lt (by omega), hvalue]

/-- **Digits name an amount just if their value is not too large.** -/
theorem exists_spells_iff : (∃ amount, Spells text amount) ↔
    text.toList ≠ [] ∧ (∀ c ∈ text.toList, '0' ≤ c ∧ c ≤ '9') ∧ Nat.ofDigitChars 10 text.toList 0 ≤ 2147483647 := by
  constructor
  · rintro ⟨amount, h⟩
    have hvalue := h.value
    have hlt := amount.toInt_lt
    exact ⟨h.ne_nil, h.digits, by omega⟩
  · rintro ⟨hne, hdigits, hle⟩
    exact ⟨.ofNat _, hne, hdigits, (Int32.toInt_ofNat_of_lt (by omega)).symm⟩

/-! ## Leading zeros -/

/-- A digit is written as the one with its value. -/
theorem digitChar_sub {c : Char} (h : c.isDigit = true) : Nat.digitChar (c.toNat - 48) = c := by
  have hbounds := Char.isDigit_iff_toNat.1 h
  have hzero : '0'.toNat = 48 := rfl
  have hnine : '9'.toNat = 57 := rfl
  apply Char.toNat_inj.1
  rw [Nat.toNat_digitChar_of_lt_ten (by omega)]
  omega

/-- Digits are their value in decimal, after some zeros. -/
theorem exists_padding {chars : List Char} (hne : chars ≠ []) (hdigits : ∀ c ∈ chars, c.isDigit = true) :
    ∃ zeros, chars = List.replicate zeros '0' ++ Nat.toDigits 10 (Nat.ofDigitChars 10 chars 0) := by
  induction chars using List.reverseRecOn with
  | nil => exact absurd rfl hne
  | append_singleton front c ih =>
    have hc := hdigits c (by simp)
    have hbounds := Char.isDigit_iff_toNat.1 hc
    have hnine : '9'.toNat = 57 := rfl
    have hzero : '0'.toNat = 48 := rfl
    have hlast : Nat.toDigits 10 (c.toNat - 48) = [c] := by
      rw [Nat.toDigits_of_lt_base (by omega), digitChar_sub hc]
    have hvalue : Nat.ofDigitChars 10 (front ++ [c]) 0 = 10 * Nat.ofDigitChars 10 front 0 + (c.toNat - 48) := by
      rw [Nat.ofDigitChars_append, Nat.ofDigitChars_cons]
      rfl
    rw [hvalue]
    by_cases hfront : front = []
    · subst hfront
      exact ⟨0, by simp [hlast]⟩
    obtain ⟨zeros, hzeros⟩ := ih hfront fun d hd => hdigits d (by simp [hd])
    -- A front of value 0 is one zero more; any other is continued by the last digit.
    cases hfrontValue : Nat.ofDigitChars 10 front 0 with
    | zero =>
      rw [hfrontValue] at hzeros
      refine ⟨zeros + 1, ?_⟩
      rw [hzeros, Nat.mul_zero, Nat.zero_add, hlast, List.replicate_succ']
      rfl
    | succ value =>
      rw [hfrontValue] at hzeros
      refine ⟨zeros, ?_⟩
      rw [← Nat.toDigits_append_toDigits (by decide) (Nat.succ_pos value) (by omega), hlast, hzeros,
        List.append_assoc]

/-- Leading zeros stand in front of the digits. -/
theorem toList_renderPadded (zeros : Nat) (amount : Amount) :
    (amount.renderPadded zeros).toList = List.replicate zeros '0' ++ amount.render.toList := by
  rw [renderPadded, String.toList_append, String.toList_ofList]

/-- An amount that is not negative is written in digits alone. -/
theorem toList_render_of_nonneg (h : 0 ≤ amount.toInt) : amount.render.toList = amount.digits := by
  rw [toList_render, if_neg (by omega)]

/-- Leading zeros do not change the amount that is spelled. -/
theorem spells_renderPadded (h : 0 ≤ amount.toInt) (zeros : Nat) : Spells (amount.renderPadded zeros) amount := by
  constructor
  · rw [toList_renderPadded]
    exact fun hnil => render_ne_nil amount (List.append_eq_nil_iff.1 hnil).2
  · intro c hc
    rw [toList_renderPadded, toList_render_of_nonneg h, List.mem_append] at hc
    rcases hc with hc | hc
    · obtain ⟨-, rfl⟩ := List.mem_replicate.1 hc
      decide
    · exact isDigit_iff.1 (isDigit_of_mem_digits hc)
  · rw [toList_renderPadded, toList_render_of_nonneg h, Nat.ofDigitChars_append,
      Nat.ofDigitChars_replicate_zero, Nat.mul_zero, digits, Nat.ofDigitChars_ten_toDigits]
    omega

/-- **The texts of an amount are the written amount with zeros before it.** -/
theorem spells_iff_exists_renderPadded (h : 0 ≤ amount.toInt) :
    Spells text amount ↔ ∃ zeros, text = amount.renderPadded zeros := by
  constructor
  · intro htext
    obtain ⟨zeros, hzeros⟩ := exists_padding htext.ne_nil fun c hc => isDigit_iff.2 (htext.digits c hc)
    have hvalue := htext.value
    refine ⟨zeros, String.toList_injective ?_⟩
    rw [toList_renderPadded, toList_render_of_nonneg h, digits, ← hvalue]
    exact hzeros
  · rintro ⟨zeros, rfl⟩
    exact spells_renderPadded h zeros

end Amount
end Cashpoint
