/-
# Strings in JSON

A string can be spelled in many ways: any character may be escaped by its code in one 16-bit
unit or two, some have an escape of one letter, and most may stand for themselves (`Spells`).
Whatever the spelling, the string is read back, up to the quote that ends it
(`stringRest_spells`). What `quote` writes is one of the spellings (`isString_quote`).
-/

import Cashpoint.Json.Value
import Cashpoint.Proofs.Text.Numerals

namespace Cashpoint
namespace Json

/-- Four hexadecimal digits with this value. -/
structure IsUnit (digits : List Char) (n : Nat) : Prop where
  length : digits.length = 4
  digit : ∀ c ∈ digits, Hex.isDigit c = true
  value : Hex.value digits = n

/-- How characters are spelled between the quotes of a string. -/
inductive Spells : List Char → List Char → Prop
  | nil : Spells [] []
  /-- A character that stands for itself. -/
  | plain {c : Char} {body chars : List Char} (hquote : c ≠ '"') (hslash : c ≠ '\\') (hspace : ' ' ≤ c)
      (h : Spells body chars) : Spells (c :: body) (c :: chars)
  /-- An escape of one letter. -/
  | letter {letter c : Char} {body chars : List Char} (hletter : simpleEscape? letter = some c)
      (h : Spells body chars) : Spells ('\\' :: letter :: body) (c :: chars)
  /-- The code of a character in one unit. -/
  | unit {c : Char} {digits body chars : List Char} (hunit : IsUnit digits c.toNat)
      (h : Spells body chars) : Spells ('\\' :: 'u' :: (digits ++ body)) (c :: chars)
  /-- The code of a character in two units, for what is too large for one. -/
  | pair {c : Char} {first second body chars : List Char} {high low : Nat} (hhigh : high < 0x400) (hlow : low < 0x400)
      (hcode : c.toNat = 0x10000 + 0x400 * high + low) (hfirst : IsUnit first (0xD800 + high))
      (hsecond : IsUnit second (0xDC00 + low)) (h : Spells body chars) :
      Spells ('\\' :: 'u' :: (first ++ '\\' :: 'u' :: (second ++ body))) (c :: chars)

/-- A string in quotes, in any spelling. -/
def IsString (text : String) (written : List Char) : Prop :=
  ∃ body, Spells body text.toList ∧ written = '"' :: (body ++ ['"'])

variable {digits body chars rest : List Char} {n : Nat}

/-! ## Units -/

/-- A text has no fewer bytes than characters. -/
theorem length_le_size (text : List Char) : text.length ≤ (String.ofList text).utf8ByteSize := by
  induction text with
  | nil => exact Nat.zero_le _
  | cons c text ih =>
    have htext : String.ofList (c :: text) = String.singleton c ++ String.ofList text :=
      String.toList_injective (by simp)
    have hpos := c.utf8Size_pos
    rw [htext, String.utf8ByteSize_append, String.utf8ByteSize_singleton, List.length_cons]
    omega

/-- Four hexadecimal digits are read as their value. -/
theorem IsUnit.unit_append (h : IsUnit digits n) (rest : List Char) : unit (digits ++ rest) = .ok n := by
  have htake : (digits ++ rest).take 4 = digits := List.take_left' h.length
  have hsize := length_le_size digits
  have hlength := h.length
  simp only [unit, htake]
  rw [if_neg (by omega), if_pos (List.all_eq_true.2 h.digit), h.value]

/-- Four hexadecimal digits are four characters. -/
theorem IsUnit.drop_append (h : IsUnit digits n) (rest : List Char) : (digits ++ rest).drop 4 = rest :=
  List.drop_left' h.length

/-- The code of a character is no half of a pair. -/
theorem isLeading_toNat (c : Char) : isLeading c.toNat = false ∧ isTrailing c.toNat = false := by
  have hvalid : c.toNat < 55296 ∨ 57343 < c.toNat ∧ c.toNat < 1114112 := c.valid
  constructor
  · by_contra h
    simp [isLeading] at h
    omega
  · by_contra h
    simp [isTrailing] at h
    omega

/-- A character with a code of four digits is read from them. -/
theorem unitChar_unit {c : Char} (h : IsUnit digits c.toNat) (rest : List Char) :
    unitChar (digits ++ rest) = .ok (c, 4) := by
  obtain ⟨hleading, htrailing⟩ := isLeading_toNat c
  simp [unitChar, h.unit_append, hleading, htrailing, bind, Except.bind, pure, Except.pure]

/-- Any other character is read from the two halves of its code. -/
theorem unitChar_pair {c : Char} {first second : List Char} {high low : Nat} (hhigh : high < 0x400) (hlow : low < 0x400)
    (hcode : c.toNat = 0x10000 + 0x400 * high + low) (hfirst : IsUnit first (0xD800 + high))
    (hsecond : IsUnit second (0xDC00 + low)) (rest : List Char) :
    unitChar (first ++ '\\' :: 'u' :: (second ++ rest)) = .ok (c, 10) := by
  have hnot : isTrailing (0xD800 + high) = false := by simp [isTrailing]; omega
  have hleading : isLeading (0xD800 + high) = true := by simp [isLeading]; omega
  have htrailing : isTrailing (0xDC00 + low) = true := by simp [isTrailing]; omega
  have hmark : word pairMark ('\\' :: 'u' :: (second ++ rest)) = .ok (second ++ rest) := rfl
  have hchar : pairChar (0xD800 + high) (0xDC00 + low) = c := by
    rw [pairChar, show 0x10000 + (0xD800 + high - 0xD800) * 0x400 + (0xDC00 + low - 0xDC00) = c.toNat by omega,
      Char.ofNat_toNat]
  simp [unitChar, hfirst.unit_append, hfirst.drop_append, hnot, hleading, hmark, hsecond.unit_append, htrailing, hchar,
    bind, Except.bind, pure, Except.pure]

/-! ## Strings -/

/-- An escape is read as the character that it stands for. -/
theorem stringRest_escape {c : Char} {length : Nat} {text : List Char} (hescape : escape text = .ok (c, length)) :
    stringRest ('\\' :: text) = (stringRest (text.drop length)).map fun (cs, rest) => (c :: cs, rest) := by
  rw [stringRest, hescape]

/-- **A string is read back** from every spelling. -/
theorem stringRest_spells (h : Spells body chars) (rest : List Char) :
    stringRest (body ++ '"' :: rest) = .ok (chars, rest) := by
  induction h with
  | nil => rw [List.nil_append, stringRest]
  | plain hquote hslash hspace h ih =>
    rw [List.cons_append, stringRest]
    · rw [if_neg (Char.not_lt.2 hspace), ih]
      rfl
    · exact hquote
    · exact hslash
  | @letter letter c body chars hletter h ih =>
    have hescape : escape (letter :: (body ++ '"' :: rest)) = .ok (c, 1) := by
      unfold escape
      split
      · simp_all
      · simp_all [simpleEscape?]
      · simp_all
    rw [List.cons_append, List.cons_append, stringRest_escape hescape, List.drop_one, List.tail_cons, ih]
    rfl
  | @unit c digits body chars hunit h ih =>
    have hescape : escape ('u' :: (digits ++ (body ++ '"' :: rest))) = .ok (c, 5) := by
      simp [escape, unitChar_unit hunit, Except.map]
    rw [List.cons_append, List.cons_append, List.append_assoc, stringRest_escape hescape, List.drop_succ_cons,
      hunit.drop_append, ih]
    rfl
  | @pair c first second body chars high low hhigh hlow hcode hfirst hsecond h ih =>
    have hescape : escape ('u' :: (first ++ '\\' :: 'u' :: (second ++ (body ++ '"' :: rest)))) = .ok (c, 11) := by
      simp [escape, unitChar_pair hhigh hlow hcode hfirst hsecond, Except.map]
    have hdrop : (first ++ '\\' :: 'u' :: (second ++ (body ++ '"' :: rest))).drop 10 = body ++ '"' :: rest := by
      rw [show 10 = 4 + (2 + 4) from rfl, ← List.drop_drop, hfirst.drop_append]
      exact hsecond.drop_append _
    simp only [List.cons_append, List.append_assoc]
    rw [stringRest_escape hescape, List.drop_succ_cons, hdrop, ih]
    rfl

/-! ## Quoting -/

/-- What is spelled one after the other is spelled. -/
theorem Spells.append {front frontChars : List Char} (hfront : Spells front frontChars) (h : Spells body chars) :
    Spells (front ++ body) (frontChars ++ chars) := by
  induction hfront with
  | nil => exact h
  | plain hquote hslash hspace _ ih => exact .plain hquote hslash hspace ih
  | letter hletter _ ih => exact .letter hletter ih
  | unit hunit _ ih =>
    simp only [List.cons_append, List.append_assoc]
    exact .unit hunit ih
  | pair hhigh hlow hcode hfirst hsecond _ ih =>
    simp only [List.cons_append, List.append_assoc]
    exact .pair hhigh hlow hcode hfirst hsecond ih

/-- A character below the space is written as a unit. -/
theorem isUnit_control {n : Nat} (h : n < 32) :
    IsUnit ['0', '0', Nat.digitChar (n / 16), Nat.digitChar (n % 16)] n := by
  have hhigh : n / 16 < 16 := by omega
  have hlow : n % 16 < 16 := by omega
  refine ⟨rfl, ?_, ?_⟩
  · simp [Hex.isDigit_digitChar hhigh, Hex.isDigit_digitChar hlow, show Hex.isDigit '0' = true from by decide]
  · simp only [Hex.value, List.foldl_cons, List.foldl_nil, Hex.digit?_digitChar hhigh, Hex.digit?_digitChar hlow,
      show Hex.digit? '0' = some 0 from by decide, Option.getD_some]
    omega

/-- A character as it is quoted spells that character. -/
theorem spells_quoteChar (c : Char) : Spells (quoteChar c) [c] := by
  unfold quoteChar
  split
  · rename_i hc
    rcases hc with rfl | rfl <;> exact .letter rfl .nil
  · rename_i hc
    rw [not_or] at hc
    split
    · rename_i hspace
      have hlt : c.toNat < 32 := hspace
      exact .unit (isUnit_control hlt) .nil
    · rename_i hspace
      exact .plain hc.1 hc.2 (Char.not_lt.1 hspace) .nil

/-- **What is written of a string** is one of its spellings. -/
theorem isString_quote (text : String) : IsString text (quote text).toList := by
  have hbody (chars : List Char) : Spells (chars.flatMap quoteChar) chars := by
    induction chars with
    | nil => exact .nil
    | cons c chars ih => exact (spells_quoteChar c).append ih
  exact ⟨text.toList.flatMap quoteChar, hbody _, by simp [quote]⟩

end Json
end Cashpoint
