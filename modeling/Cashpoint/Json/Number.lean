/-
# JSON numbers

A number is an optional minus sign, an integer without leading zeros, and optionally a
fraction and an exponent. Where a natural number is wanted, only those without sign,
fraction and exponent count, and only below `2^64`; every other number is read as well,
because it must still be a number, and one whose size no double has is refused.

That size is found as a double would be computed: the leading digits that fit 64 bits,
rounded to 53 bits, times the power of ten that is left, rounded likewise.
-/

import Cashpoint.Json.Text

namespace Cashpoint
namespace Json

/-- The largest natural number that is read as one. -/
def largestNatural : Nat := 18446744073709551615

/-- The bits of a number below the leading 53. -/
def surplusBits (n : Nat) : Nat := if n = 0 then 0 else n.log2 + 1 - 53

/-- A number rounded to its leading 53 bits, half way to the even neighbour. -/
def roundToDouble (n : Nat) : Nat :=
  let unit := 1 <<< surplusBits n
  let low := n / unit
  let half := 2 * (n % unit)
  if unit < half ∨ (half = unit ∧ low % 2 = 1) then (low + 1) * unit else low * unit

/-- The products from here on are rounded to infinity. -/
def infiniteFrom : Nat := (1 <<< 1024) - (1 <<< 970)

/-- Whether `significand * 10 ^ exponent` is larger than every double. -/
def isInfinite (significand : Nat) (exponent : Int) : Bool :=
  if exponent > 308 then significand ≠ 0
  else if exponent < 0 then false
  else infiniteFrom ≤ roundToDouble significand * roundToDouble (Nat.pow 10 exponent.toNat)

/-- The digits that still fit below `2^64` put behind `sum`, and the number of digits left over. -/
def fittingDigits (sum : Nat) : List Char → Nat × Nat
  | [] => (sum, 0)
  | c :: digits =>
    let next := 10 * sum + (c.toNat - '0'.toNat)
    if next ≤ largestNatural then fittingDigits next digits else (sum, digits.length + 1)

/-- A number of unknown size, once all its parts are known. -/
def sized (significand : Nat) (exponent : Int) (rest : List Char) :
    Except JsonFault (Option Nat × List Char) :=
  if isInfinite significand exponent then .error .malformed else .ok (none, rest)

/-- A sign before an exponent: whether it is a minus, and what follows it. -/
def exponentSign : List Char → Bool × List Char
  | '+' :: text => (false, text)
  | '-' :: text => (true, text)
  | text => (false, text)

/-- An exponent too large to be counted leaves zero at zero and other numbers at no size. -/
def largestExponent : Nat := 2147483647

/-- The part of a number after the letter of its exponent. -/
def exponentPart (significand : Nat) (exponent : Int) (text : List Char) :
    Except JsonFault (Option Nat × List Char) :=
  let (negative, text) := exponentSign text
  let digits := text.takeWhile Char.isDigit
  let rest := text.dropWhile Char.isDigit
  let value := Nat.ofDigitChars 10 digits 0
  if digits = [] then .error (if text = [] then .truncated else .malformed)
  else if largestExponent < value then
    if significand ≠ 0 ∧ !negative then .error .malformed else .ok (none, rest)
  else sized significand (if negative then exponent - value else exponent + value) rest

/-- The part of a number after its digits, where an exponent may stand. -/
def afterDigits (significand : Nat) (exponent : Int) : List Char → Except JsonFault (Option Nat × List Char)
  | 'e' :: text => exponentPart significand exponent text
  | 'E' :: text => exponentPart significand exponent text
  | text => sized significand exponent text

/-- The part of a number after its point. Digits that no longer fit do not count. -/
def fractionPart (significand : Nat) (exponent : Int) (text : List Char) :
    Except JsonFault (Option Nat × List Char) :=
  let digits := text.takeWhile Char.isDigit
  if digits = [] then .error (if text = [] then .truncated else .malformed)
  else
    let (significand, left) := fittingDigits significand digits
    afterDigits significand (exponent - (digits.length - left : Nat)) (text.dropWhile Char.isDigit)

/-- The part of a number after its integer digits. -/
def afterInteger (isNegative : Bool) (digits rest : List Char) : Except JsonFault (Option Nat × List Char) :=
  let (significand, left) := fittingDigits 0 digits
  match rest with
  | '.' :: text => fractionPart significand left text
  | 'e' :: text => exponentPart significand left text
  | 'E' :: text => exponentPart significand left text
  | text =>
    if left ≠ 0 then sized significand left text
    else .ok (if isNegative then none else some significand, text)

/-- A number without its sign: the natural number that it is, if it is one. -/
def unsigned (isNegative : Bool) (text : List Char) : Except JsonFault (Option Nat × List Char) :=
  match text with
  | [] => .error .truncated
  | '0' :: rest =>
    match rest with
    | [] => afterInteger isNegative ['0'] []
    | c :: _ => if c.isDigit then .error .malformed else afterInteger isNegative ['0'] rest
  | c :: _ =>
    if c.isDigit then
      afterInteger isNegative (text.takeWhile Char.isDigit) (text.dropWhile Char.isDigit)
    else .error .malformed

end Json
end Cashpoint
