/-
# JSON texts: blanks, words and strings

The pieces of JSON below numbers and values. A piece is read off the front of a text
and the rest is handed back, or the first fault on the way is reported: `malformed`
for text that cannot be JSON, `truncated` where the text ends too early.

Inside a string a backslash escapes one character, or writes a 16-bit unit in four
hexadecimal digits; two units make one character beyond `U+FFFF`, and a unit of such a
pair does not stand alone. Characters below the space do not stand in a string.
-/

import Cashpoint.Error
import Cashpoint.Text.Hex

namespace Cashpoint
namespace Json

/-- The blanks between the parts of a JSON text. -/
def isBlank (c : Char) : Bool := c == ' ' || c == '\t' || c == '\n' || c == '\r'

/-- The text without the blanks in front of it. -/
def skipBlank (text : List Char) : List Char := text.dropWhile isBlank

/-- What follows a word that must stand at the front. -/
def word : (expected : List Char) → List Char → Except JsonFault (List Char)
  | [], text => .ok text
  | _ :: _, [] => .error .truncated
  | e :: expected, c :: text => if c = e then word expected text else .error .malformed

/-! ## Strings -/

/-- The unit in the first four bytes, all hexadecimal digits. -/
def unit (text : List Char) : Except JsonFault Nat :=
  let digits := text.take 4
  if (String.ofList digits).utf8ByteSize < 4 then .error .truncated
  else if digits.all Hex.isDigit then .ok (Hex.value digits)
  else .error .malformed

/-- Whether a unit is the first of a pair. -/
def isLeading (n : Nat) : Bool := 0xD800 ≤ n && n ≤ 0xDBFF

/-- Whether a unit is the second of a pair. -/
def isTrailing (n : Nat) : Bool := 0xDC00 ≤ n && n ≤ 0xDFFF

/-- The character of a pair of units. -/
def pairChar (leading trailing : Nat) : Char :=
  Char.ofNat (0x10000 + (leading - 0xD800) * 0x400 + (trailing - 0xDC00))

/-- What must stand between the units of a pair. -/
def pairMark : List Char := ['\\', 'u']

/-- The character that units name, and the number of characters they take. -/
def unitChar (text : List Char) : Except JsonFault (Char × Nat) := do
  let n ← unit text
  if isTrailing n then throw .malformed
  else if isLeading n then
    let text ← word pairMark (text.drop 4)
    let m ← unit text
    if isTrailing m then return (pairChar n m, 10) else throw .malformed
  else return (Char.ofNat n, 4)

/-- The character that a one-letter escape stands for. -/
def simpleEscape? : Char → Option Char
  | '"' => some '"'
  | '\\' => some '\\'
  | '/' => some '/'
  | 'b' => some (Char.ofNat 8)
  | 'f' => some (Char.ofNat 12)
  | 'n' => some '\n'
  | 'r' => some '\r'
  | 't' => some '\t'
  | _ => none

/-- The character of what follows a backslash, and the number of characters it takes. -/
def escape : List Char → Except JsonFault (Char × Nat)
  | [] => .error .truncated
  | 'u' :: text => (unitChar text).map fun (c, length) => (c, length + 1)
  | c :: _ =>
    match simpleEscape? c with
    | some escaped => .ok (escaped, 1)
    | none => .error .malformed

/-- The characters up to the closing quote, and what follows it. -/
def stringRest : List Char → Except JsonFault (List Char × List Char)
  | [] => .error .truncated
  | '"' :: text => .ok ([], text)
  | '\\' :: text =>
    match escape text with
    | .error fault => .error fault
    | .ok (c, length) => (stringRest (text.drop length)).map fun (cs, rest) => (c :: cs, rest)
  | c :: text =>
    if c < ' ' then .error .malformed
    else (stringRest text).map fun (cs, rest) => (c :: cs, rest)
termination_by text => text.length
decreasing_by
  · simp only [List.length_drop, List.length_cons]; omega
  · simp only [List.length_cons]; omega

/-- A character as it is written inside a string. -/
def quoteChar (c : Char) : List Char :=
  if c = '"' ∨ c = '\\' then ['\\', c]
  else if c < ' ' then
    ['\\', 'u', '0', '0', Nat.digitChar (c.toNat / 16), Nat.digitChar (c.toNat % 16)]
  else [c]

/-- A string in quotes. -/
def quote (text : String) : String :=
  String.ofList ('"' :: (text.toList.flatMap quoteChar ++ ['"']))

end Json
end Cashpoint
