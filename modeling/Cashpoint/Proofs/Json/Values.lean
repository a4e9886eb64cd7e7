/-
# Values in JSON

The grammar of JSON texts (`IsValue`), with any spelling of a string and any blanks between the
parts of an array or object. The readers that want a value of one type are held against it: of
a string or a natural number they give what is written (`readString_isString`,
`readNatural_toDigits`), and whatever the value is, what they take is all of it (`TakesWhole`).
-/

import Cashpoint.Proofs.Json.Strings
import Mathlib.Data.List.Forall2

namespace Cashpoint
namespace Json

open Numeral (Stops stops_nil stops_cons span_append)

/-! ## The grammar -/

/-- Blanks stand before and after every part. -/
def Blanks (text : List Char) : Prop := ∀ c ∈ text, isBlank c = true

instance (text : List Char) : Decidable (Blanks text) := decidable_of_iff (text.all isBlank = true) List.all_eq_true

/-- Digits, at least one. -/
structure IsDigits (text : List Char) : Prop where
  nonempty : text ≠ []
  digit : ∀ c ∈ text, c.isDigit = true

/-- Digits without leading zeros. -/
structure IsInteger (text : List Char) : Prop extends IsDigits text where
  leading : text.head? = some '0' → text = ['0']

/-- A fraction, where there may be one. -/
def IsFraction (text : List Char) : Prop :=
  text = [] ∨ ∃ digits, IsDigits digits ∧ text = '.' :: digits

/-- An exponent, where there may be one. -/
def IsExponent (text : List Char) : Prop :=
  text = [] ∨ ∃ letter sign digits, (letter = 'e' ∨ letter = 'E') ∧ (sign = [] ∨ sign = ['+'] ∨ sign = ['-']) ∧
    IsDigits digits ∧ text = letter :: (sign ++ digits)

/-- A number: a sign where there is one, digits, and the two parts that may be missing. -/
def IsNumber (text : List Char) : Prop :=
  ∃ sign integer fraction exponent, (sign = [] ∨ sign = ['-']) ∧ IsInteger integer ∧ IsFraction fraction ∧
    IsExponent exponent ∧ text = sign ++ (integer ++ (fraction ++ exponent))

/-- Parts with commas between them, in brackets. -/
def IsListed (opening closing : Char) (parts : List (List Char)) (text : List Char) : Prop :=
  ∃ blanks, Blanks blanks ∧ text = opening :: (blanks ++ ([','].intercalate parts ++ [closing]))

/-- A value with blanks around it. -/
def IsElement (value text : List Char) : Prop :=
  ∃ before after, Blanks before ∧ Blanks after ∧ text = before ++ (value ++ after)

/-- A member of an object: its name, and its value as it is written. -/
structure Member where
  name : String
  value : List Char

/-- A member with blanks around it and around its colon, its name in any spelling. -/
def Member.IsWritten (member : Member) (text : List Char) : Prop :=
  ∃ before quoted between element, Blanks before ∧ IsString member.name quoted ∧ Blanks between ∧
    IsElement member.value element ∧ text = before ++ (quoted ++ (between ++ ':' :: element))

/-- An object with these members. -/
def IsObject (members : List Member) (text : List Char) : Prop :=
  ∃ parts, List.Forall₂ Member.IsWritten members parts ∧ IsListed openBrace closeBrace parts text

/-- What is written as a value. -/
inductive IsValue : List Char → Prop
  | string {text : String} {written : List Char} (h : IsString text written) : IsValue written
  | number {written : List Char} (h : IsNumber written) : IsValue written
  | word {written : List Char} (h : written ∈ ["null".toList, "true".toList, "false".toList]) : IsValue written
  | array {elements parts : List (List Char)} {written : List Char} (h : ∀ element ∈ elements, IsValue element)
      (hparts : List.Forall₂ IsElement elements parts) (hwritten : IsListed '[' ']' parts written) : IsValue written
  | object {members : List Member} {written : List Char} (h : ∀ member ∈ members, IsValue member.value)
      (hwritten : IsObject members written) : IsValue written

variable {blanks value rest left digits : List Char} {n : Nat}

/-! ## Blanks -/

/-- Blanks in front are skipped. -/
theorem skipBlank_append (h : Blanks blanks) (text : List Char) : skipBlank (blanks ++ text) = skipBlank text :=
  List.dropWhile_append_of_pos h

/-- Anything else is not skipped. -/
theorem skipBlank_cons {c : Char} (h : isBlank c = false) (text : List Char) : skipBlank (c :: text) = c :: text := by
  simp [skipBlank, h]

/-- Blanks are skipped up to the first character that is none. -/
theorem skipBlank_of_cons (hblanks : Blanks blanks) {c : Char} (h : isBlank c = false) (text : List Char) :
    skipBlank (blanks ++ c :: text) = c :: text := by
  rw [skipBlank_append hblanks, skipBlank_cons h]

/-- No digit is blank. -/
theorem isBlank_of_isDigit {c : Char} (h : c.isDigit = true) : isBlank c = false := by
  by_contra hblank
  simp only [isBlank, Bool.not_eq_false, Bool.or_eq_true, beq_iff_eq] at hblank
  rcases hblank with ((rfl | rfl) | rfl) | rfl <;> simp at h

/-- **How a value starts**: as a string, with the digits of a number, or with neither a quote nor a digit. -/
theorem IsValue.cases_head (h : IsValue value) :
    (∃ text, IsString text value) ∨
    (∃ integer fraction exponent, IsInteger integer ∧ IsFraction fraction ∧ IsExponent exponent ∧
      value = integer ++ (fraction ++ exponent)) ∨
    ∃ c text, isBlank c = false ∧ c ≠ '"' ∧ c.isDigit = false ∧ value = c :: text := by
  cases h with
  | string h => exact .inl ⟨_, h⟩
  | number h =>
    obtain ⟨sign, integer, fraction, exponent, hsign, hinteger, hfraction, hexponent, rfl⟩ := h
    rcases hsign with rfl | rfl
    · exact .inr (.inl ⟨integer, fraction, exponent, hinteger, hfraction, hexponent, rfl⟩)
    · exact .inr (.inr ⟨'-', _, by decide, by decide, by decide, rfl⟩)
  | word h =>
    simp only [List.mem_cons, List.not_mem_nil, or_false] at h
    rcases h with rfl | rfl | rfl
    · exact .inr (.inr ⟨'n', _, by decide, by decide, by decide, rfl⟩)
    · exact .inr (.inr ⟨'t', _, by decide, by decide, by decide, rfl⟩)
    · exact .inr (.inr ⟨'f', _, by decide, by decide, by decide, rfl⟩)
  | array _ _ hwritten =>
    obtain ⟨_, _, rfl⟩ := hwritten
    exact .inr (.inr ⟨'[', _, by decide, by decide, by decide, rfl⟩)
  | object _ hwritten =>
    obtain ⟨_, _, _, _, rfl⟩ := hwritten
    exact .inr (.inr ⟨openBrace, _, by decide, by decide, by decide, rfl⟩)

/-! ## Strings -/

/-- **A string is read** in any spelling, behind any blanks. -/
theorem readString_isString {text : String} (hblanks : Blanks blanks) (h : IsString text value) (rest : List Char) :
    readString (blanks ++ (value ++ rest)) = .ok (text, rest) := by
  obtain ⟨body, hspells, rfl⟩ := h
  have hskip : skipBlank (blanks ++ '"' :: (body ++ '"' :: rest)) = '"' :: (body ++ '"' :: rest) :=
    skipBlank_of_cons hblanks (by decide) _
  simp [readString, hskip, stringRest_spells hspells, Except.map]

/-- What does not start with a quote is no string. -/
theorem readString_of_ne {c : Char} {text : List Char} (hblanks : Blanks blanks) (hblank : isBlank c = false)
    (hquote : c ≠ '"') (rest : List Char) :
    readString (blanks ++ (c :: text ++ rest)) = .error (otherValue (c :: (text ++ rest))) := by
  have hskip : skipBlank (blanks ++ (c :: text ++ rest)) = c :: (text ++ rest) := skipBlank_of_cons hblanks hblank _
  unfold readString
  rw [hskip]
  split
  · rename_i heq
    simp [hquote] at heq
  · rfl

/-! ## Natural numbers -/

/-- Whether a character behind digits belongs to their number. -/
def isNumeric (c : Char) : Bool := c.isDigit || c == '.' || c == 'e' || c == 'E'

/-- Where nothing of a number follows, no digit does. -/
theorem stops_isDigit (h : Stops isNumeric rest) : Stops Char.isDigit rest := by
  intro c hc
  have hnot := h c hc
  simp only [isNumeric, Bool.or_eq_false_iff] at hnot
  exact hnot.1.1.1

/-- The digits of a number have no leading zeros. -/
theorem IsInteger.toDigits (n : Nat) : IsInteger (Nat.toDigits 10 n) where
  nonempty := Nat.toDigits_ne_nil
  digit _ hc := Numeral.isDigit_of_mem hc
  leading h := by
    rcases Nat.eq_zero_or_pos n with rfl | hpos
    · rfl
    · exact absurd h (Numeral.head?_toDigits (by decide) (by decide) hpos)

/-- An integer is taken as a whole. -/
theorem unsigned_integer (h : IsInteger digits) (hrest : Stops Char.isDigit rest) (isNegative : Bool) :
    unsigned isNegative (digits ++ rest) = afterInteger isNegative digits rest := by
  obtain ⟨htake, hdrop⟩ := span_append h.digit hrest
  cases hdigits : digits with
  | nil => exact absurd hdigits h.nonempty
  | cons c more =>
    subst hdigits
    by_cases hzero : c = '0'
    · obtain ⟨rfl, rfl⟩ := List.cons.inj (h.leading (congrArg some hzero))
      cases rest with
      | nil => rfl
      | cons d rest => simp [unsigned, hrest d rfl]
    · have hdigit : c.isDigit = true := h.digit c (by simp)
      rw [List.cons_append] at htake hdrop ⊢
      simp only [unsigned, htake, hdrop, hdigit, if_true]

/-- Digits of a number that is small enough all count. -/
theorem fittingDigits_of_le {sum : Nat} (h : Nat.ofDigitChars 10 digits sum ≤ largestNatural) :
    fittingDigits sum digits = (Nat.ofDigitChars 10 digits sum, 0) := by
  induction digits generalizing sum with
  | nil => rfl
  | cons c digits ih =>
    rw [Nat.ofDigitChars_cons] at h ⊢
    have hle : 10 * sum + (c.toNat - '0'.toNat) ≤ Nat.ofDigitChars 10 digits (10 * sum + (c.toNat - '0'.toNat)) := by
      rw [Nat.ofDigitChars_eq_ofDigitChars_zero]
      exact Nat.le_add_right_of_le (Nat.le_mul_of_pos_left _ (Nat.pow_pos (by decide)))
    simp only [fittingDigits]
    rw [if_pos (Nat.le_trans hle h), ih h]

/-- A number that fits is read from its digits as that number. -/
theorem afterInteger_toDigits (hle : n ≤ largestNatural) (hrest : Stops isNumeric rest) :
    afterInteger false (Nat.toDigits 10 n) rest = .ok (some n, rest) := by
  have hvalue := Nat.ofDigitChars_ten_toDigits (n := n)
  have hfitting : fittingDigits 0 (Nat.toDigits 10 n) = (n, 0) := by
    rw [fittingDigits_of_le (by rwa [hvalue]), hvalue]
  simp only [afterInteger, hfitting]
  split
  · have hpoint := hrest '.' rfl
    cases hpoint
  · have hlower := hrest 'e' rfl
    cases hlower
  · have hupper := hrest 'E' rfl
    cases hupper
  · rfl

/-- What starts with a digit is read as the number that it is. -/
theorem readNatural_eq_ok_iff {bound : Nat} {c : Char} {text : List Char} (hblanks : Blanks blanks)
    (hdigit : c.isDigit = true) : readNatural bound (blanks ++ c :: text) = .ok (n, left) ↔
      unsigned false (c :: text) = .ok (some n, left) ∧ n ≤ bound := by
  simp only [readNatural, skipBlank_of_cons hblanks (isBlank_of_isDigit hdigit), hdigit, if_true]
  split
  · simp_all
  · rename_i m rest hunsigned
    by_cases hle : m ≤ bound
    · rw [if_pos hle, hunsigned]
      simp only [Except.ok.injEq, Prod.mk.injEq, Option.some.injEq]
      exact ⟨fun ⟨hm, hrest⟩ => ⟨⟨hm, hrest⟩, hm ▸ hle⟩, fun ⟨h, _⟩ => h⟩
    · rw [if_neg hle, hunsigned]
      simp only [reduceCtorEq, Except.ok.injEq, Prod.mk.injEq, Option.some.injEq, false_iff]
      exact fun ⟨⟨hm, _⟩, hn⟩ => hle (hm ▸ hn)
  · simp_all

/-- What does not start with a digit is no natural number. -/
theorem readNatural_of_not_digit {bound : Nat} {c : Char} (hblanks : Blanks blanks) (hblank : isBlank c = false)
    (hdigit : c.isDigit = false) (text : List Char) :
    readNatural bound (blanks ++ c :: text) = .error (otherValue (c :: text)) := by
  simp [readNatural, skipBlank_of_cons hblanks hblank, hdigit]

/-- **A natural number is read** behind any blanks. -/
theorem readNatural_toDigits {bound : Nat} (hblanks : Blanks blanks) (hle : n ≤ bound) (hbound : bound ≤ largestNatural)
    (hrest : Stops isNumeric rest) : readNatural bound (blanks ++ (Nat.toDigits 10 n ++ rest)) = .ok (n, rest) := by
  have hunsigned := (unsigned_integer (.toDigits n) (stops_isDigit hrest) false).trans
    (afterInteger_toDigits (Nat.le_trans hle hbound) hrest)
  obtain ⟨c, digits, hdigits⟩ := List.exists_cons_of_ne_nil (Nat.toDigits_ne_nil (n := n) (b := 10))
  have hdigit : c.isDigit = true := Numeral.isDigit_of_mem (n := n) (by simp [hdigits])
  rw [hdigits, List.cons_append] at hunsigned ⊢
  exact (readNatural_eq_ok_iff hblanks hdigit).2 ⟨hunsigned, hle⟩

/-! ## Numbers of every kind -/

variable {significand : Nat} {exponent : Int} {text : List Char}

/-- A number of unknown size is not read as a natural one. -/
theorem sized_ne_natural : sized significand exponent text ≠ .ok (some n, left) := by
  unfold sized
  split <;> simp

/-- Nor is a number with an exponent. -/
theorem exponentPart_ne_natural : exponentPart significand exponent text ≠ .ok (some n, left) := by
  simp only [exponentPart]
  split
  · simp
  · split
    · split <;> simp
    · exact sized_ne_natural

/-- Nor is a number with too many digits. -/
theorem afterDigits_ne_natural : afterDigits significand exponent text ≠ .ok (some n, left) := by
  unfold afterDigits
  split
  · exact exponentPart_ne_natural
  · exact exponentPart_ne_natural
  · exact sized_ne_natural

/-- Nor is a number with a fraction. -/
theorem fractionPart_ne_natural : fractionPart significand exponent text ≠ .ok (some n, left) := by
  simp only [fractionPart]
  split
  · simp
  · exact afterDigits_ne_natural

/-- **A natural number has neither fraction nor exponent.** -/
theorem afterInteger_eq_ok {isNegative : Bool} (h : afterInteger isNegative digits text = .ok (some n, left)) :
    left = text ∧ ∀ c, text.head? = some c → c ∉ ['.', 'e', 'E'] := by
  unfold afterInteger at h
  simp only at h
  split at h
  · exact absurd h fractionPart_ne_natural
  · exact absurd h exponentPart_ne_natural
  · exact absurd h exponentPart_ne_natural
  · rename_i hpoint hlower hupper
    split at h
    · exact absurd h sized_ne_natural
    · simp only [Except.ok.injEq, Prod.mk.injEq] at h
      refine ⟨h.2.symm, fun c hc hmem => ?_⟩
      obtain ⟨more, rfl⟩ := List.head?_eq_some_iff.1 hc
      simp only [List.mem_cons, List.not_mem_nil, or_false] at hmem
      rcases hmem with rfl | rfl | rfl
      · exact hpoint more rfl
      · exact hlower more rfl
      · exact hupper more rfl

/-! ## Whole values -/

/-- A reader never stops inside of a value. -/
def TakesWhole {α : Type} (read : List Char → Except JsonFault (α × List Char)) : Prop :=
  ∀ blanks value rest a left, Blanks blanks → IsValue value → Stops isNumeric rest →
    read (blanks ++ (value ++ rest)) = .ok (a, left) → left = rest

/-- A string begins with a quote. -/
theorem IsString.head? {text : String} (h : IsString text value) : value.head? = some '"' := by
  obtain ⟨body, _, rfl⟩ := h
  rfl

/-- The reader of strings never stops inside of a value. -/
theorem takesWhole_readString : TakesWhole readString := by
  intro blanks value rest a left hblanks hvalue hrest hread
  rcases hvalue.cases_head with
    ⟨text, hstring⟩ | ⟨integer, fraction, exponent, hinteger, _, _, rfl⟩ | ⟨c, text, hblank, hquote, _, rfl⟩
  · rw [readString_isString hblanks hstring] at hread
    exact (Prod.mk.inj (Except.ok.inj hread)).2.symm
  · obtain ⟨c, more, rfl⟩ := List.exists_cons_of_ne_nil hinteger.nonempty
    have hdigit : c.isDigit = true := hinteger.digit c (by simp)
    have hquote : c ≠ '"' := by
      rintro rfl
      simp at hdigit
    rw [List.cons_append, readString_of_ne hblanks (isBlank_of_isDigit hdigit) hquote] at hread
    cases hread
  · rw [readString_of_ne hblanks hblank hquote] at hread
    cases hread

/-- The characters behind an integer are no digits. -/
theorem stops_fraction {fraction exponent : List Char} (hfraction : IsFraction fraction)
    (hexponent : IsExponent exponent) (hrest : Stops isNumeric rest) :
    Stops Char.isDigit (fraction ++ (exponent ++ rest)) := by
  rcases hfraction with rfl | ⟨digits, _, rfl⟩
  · rcases hexponent with rfl | ⟨letter, sign, digits, hletter, _, _, rfl⟩
    · exact stops_isDigit hrest
    · rcases hletter with rfl | rfl <;> exact stops_cons (by decide) _
  · exact stops_cons (by decide) _

/-- Without a point or an `e` behind its digits a number has neither fraction nor exponent. -/
theorem eq_nil_of_head {fraction exponent : List Char} (hfraction : IsFraction fraction)
    (hexponent : IsExponent exponent)
    (h : ∀ c, (fraction ++ (exponent ++ rest)).head? = some c → c ∉ ['.', 'e', 'E']) :
    fraction = [] ∧ exponent = [] := by
  rcases hfraction with rfl | ⟨digits, _, rfl⟩
  · rcases hexponent with rfl | ⟨letter, sign, digits, hletter, _, _, rfl⟩
    · exact ⟨rfl, rfl⟩
    · exact absurd (by rcases hletter with rfl | rfl <;> simp) (h letter rfl)
  · exact absurd (by simp) (h '.' rfl)

/-- Neither does the reader of natural numbers. -/
theorem takesWhole_readNatural (bound : Nat) : TakesWhole (readNatural bound) := by
  intro blanks value rest a left hblanks hvalue hrest hread
  rcases hvalue.cases_head with
    ⟨text, hstring⟩ | ⟨integer, fraction, exponent, hinteger, hfraction, hexponent, rfl⟩ |
      ⟨c, text, hblank, _, hdigit, rfl⟩
  · obtain ⟨more, rfl⟩ := List.head?_eq_some_iff.1 hstring.head?
    rw [List.cons_append, readNatural_of_not_digit hblanks (by decide) (by decide)] at hread
    cases hread
  · have hunsigned := unsigned_integer hinteger (stops_fraction hfraction hexponent hrest) false
    obtain ⟨c, more, rfl⟩ := List.exists_cons_of_ne_nil hinteger.nonempty
    have hdigit : c.isDigit = true := hinteger.digit c (by simp)
    rw [List.append_assoc, List.append_assoc, List.cons_append] at hread
    obtain ⟨hnatural, _⟩ := (readNatural_eq_ok_iff hblanks hdigit).1 hread
    obtain ⟨rfl, hhead⟩ := afterInteger_eq_ok (hunsigned.symm.trans hnatural)
    obtain ⟨rfl, rfl⟩ := eq_nil_of_head hfraction hexponent hhead
    rfl
  · rw [List.cons_append, readNatural_of_not_digit hblanks hblank hdigit] at hread
    cases hread

/-! ## Members -/

/-- What stands before the name of a member: blanks, and a comma if it is not the first. -/
def IsLead (isFirst : Bool) (lead : List Char) : Prop :=
  ∃ before after, Blanks before ∧ Blanks after ∧ lead = before ++ (if isFirst then after else ',' :: after)

/-- What is left of an object whose first members may have been read: members, and the closing brace. -/
def IsLeft (isFirst : Bool) (members : List Member) (rest text : List Char) : Prop :=
  ∃ blanks parts, Blanks blanks ∧ List.Forall₂ Member.IsWritten members parts ∧ text =
    blanks ++ ((if isFirst then [','].intercalate parts else parts.flatMap (',' :: ·)) ++ closeBrace :: rest)

/-- With commas between them, every part but the first has one in front. -/
theorem intercalate_cons (part : List Char) (parts : List (List Char)) :
    [','].intercalate (part :: parts) = part ++ parts.flatMap (',' :: ·) := by
  induction parts generalizing part with
  | nil => simp
  | cons next parts ih => rw [List.intercalate_cons_cons, ih next, List.flatMap_cons]; simp

/-- **The next member** of what is left, and what is left after it. -/
theorem IsLeft.cons {isFirst : Bool} {text : List Char} {members : List Member} {member : Member}
    (h : IsLeft isFirst (member :: members) rest text) :
    ∃ lead quoted between before tail, IsLead isFirst lead ∧ IsString member.name quoted ∧ Blanks between ∧
      Blanks before ∧ IsLeft false members rest tail ∧
      text = lead ++ (quoted ++ (between ++ ':' :: (before ++ (member.value ++ tail)))) := by
  obtain ⟨blanks, _, hblanks, hwritten, rfl⟩ := h
  obtain ⟨part, parts, hpart, hparts, rfl⟩ := List.forall₂_cons_left_iff.1 hwritten
  obtain ⟨after, quoted, between, element, hafter, hquoted, hbetween, ⟨before, tail, hbefore, htail, rfl⟩, rfl⟩ := hpart
  refine ⟨_, quoted, between, before, _, ⟨blanks, after, hblanks, hafter, rfl⟩, hquoted, hbetween, hbefore,
    ⟨tail, parts, htail, hparts, rfl⟩, ?_⟩
  cases isFirst with
  | true => simp [intercalate_cons]
  | false => simp

/-- A number ends where more members or the end of the object follow. -/
theorem IsLeft.stops {members : List Member} {text : List Char} (h : IsLeft false members rest text) :
    Stops isNumeric text := by
  obtain ⟨blanks, parts, hblanks, _, rfl⟩ := h
  cases blanks with
  | nil =>
    cases parts with
    | nil => exact stops_cons (by decide) _
    | cons part parts => exact stops_cons (by decide) _
  | cons c blanks =>
    have hblank : isBlank c = true := hblanks c (by simp)
    refine stops_cons ?_ _
    simp only [isBlank, Bool.or_eq_true, beq_iff_eq] at hblank
    rcases hblank with ((rfl | rfl) | rfl) | rfl <;> decide

/-- Where no member is left, the object is closed. -/
theorem memberStart_close {isFirst : Bool} {text : List Char} (h : IsLeft isFirst [] rest text) :
    memberStart isFirst text = .ok (.close rest) := by
  obtain ⟨blanks, _, hblanks, hparts, rfl⟩ := h
  obtain rfl := List.forall₂_nil_left_iff.1 hparts
  have hskip : skipBlank (blanks ++ closeBrace :: rest) = closeBrace :: rest :=
    skipBlank_of_cons hblanks (by decide) rest
  cases isFirst <;> simp [memberStart, hskip]

/-- **The name of a member** is read in any spelling. -/
theorem memberStart_member {isFirst : Bool} {lead quoted : List Char} {name : String} (hlead : IsLead isFirst lead)
    (hquoted : IsString name quoted) (rest : List Char) :
    memberStart isFirst (lead ++ (quoted ++ rest)) = .ok (.member name rest) := by
  obtain ⟨before, after, hbefore, hafter, rfl⟩ := hlead
  obtain ⟨body, hspells, rfl⟩ := hquoted
  have hquote : skipBlank (after ++ '"' :: (body ++ '"' :: rest)) = '"' :: (body ++ '"' :: rest) :=
    skipBlank_of_cons hafter (by decide) _
  have hname : memberName ('"' :: (body ++ '"' :: rest)) = .ok (.member name rest) := by
    simp [memberName, stringRest_spells hspells, Except.map]
  cases isFirst with
  | true => simp [memberStart, skipBlank_append hbefore, hquote, hname, show '"' ≠ closeBrace by decide]
  | false =>
    have hcomma : skipBlank (before ++ ',' :: (after ++ '"' :: (body ++ '"' :: rest))) = _ :=
      skipBlank_of_cons hbefore (by decide) _
    simp [memberStart, hcomma, hquote, hname, show ',' ≠ closeBrace by decide]

/-- The colon is read with blanks in front of it. -/
theorem colon_blanks (h : Blanks blanks) (rest : List Char) : colon (blanks ++ ':' :: rest) = .ok rest := by
  simp [colon, skipBlank_of_cons h (show isBlank ':' = false by decide)]

end Json
end Cashpoint
