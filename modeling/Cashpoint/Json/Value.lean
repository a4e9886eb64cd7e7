/-
# JSON values of a known type

A reader that wants a string or a natural number of limited size. A value of another
type is `mismatched`, but only as far as it is JSON at all: a wrong word, string or
number is read to its end first, of an array or object only the opening bracket.
-/

import Cashpoint.Json.Number

namespace Cashpoint
namespace Json

/-- The fault in what must be but is not followed by a value of the wanted type. -/
def faultOf {α : Type} (read : Except JsonFault α) : JsonFault :=
  match read with
  | .error fault => fault
  | .ok _ => .mismatched

/-- The fault of a value that has another type than the wanted one. -/
def otherValue : List Char → JsonFault
  | [] => .truncated
  | 'n' :: text => faultOf (word "ull".toList text)
  | 't' :: text => faultOf (word "rue".toList text)
  | 'f' :: text => faultOf (word "alse".toList text)
  | '"' :: text => faultOf (stringRest text)
  | '-' :: text => faultOf (unsigned true text)
  | c :: text =>
    if c.isDigit then faultOf (unsigned false (c :: text))
    else if c = '[' ∨ c = Char.ofNat 0x7b then .mismatched
    else .malformed

/-- A string. -/
def readString (text : List Char) : Except JsonFault (String × List Char) :=
  match skipBlank text with
  | '"' :: text => (stringRest text).map fun (cs, rest) => (String.ofList cs, rest)
  | text => .error (otherValue text)

/-- A natural number up to `bound`. -/
def readNatural (bound : Nat) (text : List Char) : Except JsonFault (Nat × List Char) :=
  match skipBlank text with
  | [] => .error .truncated
  | c :: text =>
    if c.isDigit then
      match unsigned false (c :: text) with
      | .error fault => .error fault
      | .ok (some n, rest) => if n ≤ bound then .ok (n, rest) else .error .mismatched
      | .ok (none, _) => .error .mismatched
    else .error (otherValue (c :: text))

/-! ## Between values -/

/-- What follows the colon after a member's name. -/
def colon (text : List Char) : Except JsonFault (List Char) :=
  match skipBlank text with
  | [] => .error .truncated
  | ':' :: rest => .ok rest
  | _ => .error .malformed

/-- The opening and closing braces of an object. -/
def openBrace : Char := Char.ofNat 0x7b

def closeBrace : Char := Char.ofNat 0x7d

/-- What stands at the place of a member. -/
inductive MemberStart
  /-- The object ends, and this follows it. -/
  | close (rest : List Char)
  /-- A member with this name, and this follows the name. -/
  | member (name : String) (rest : List Char)

/-- The name of a member, at the front of a text without blanks. -/
def memberName (text : List Char) : Except JsonFault MemberStart :=
  match text with
  | [] => .error .truncated
  | '"' :: rest => (stringRest rest).map fun (cs, rest) => .member (String.ofList cs) rest
  | _ => .error .malformed

/-- The end of an object, or the name of its next member. -/
def memberStart (isFirst : Bool) (text : List Char) : Except JsonFault MemberStart :=
  match skipBlank text with
  | [] => .error .truncated
  | c :: rest =>
    if c = closeBrace then .ok (.close rest)
    else if isFirst then memberName (c :: rest)
    else if c = ',' then memberName (skipBlank rest)
    else .error .malformed

/-- What stands at the place of an element. -/
inductive ElementStart
  /-- The array ends, and this follows it. -/
  | close (rest : List Char)
  /-- An element starts here. -/
  | element (rest : List Char)

/-- The end of an array, or the start of its next element. -/
def elementStart (isFirst : Bool) (text : List Char) : Except JsonFault ElementStart :=
  match skipBlank text with
  | [] => .error .truncated
  | ']' :: rest => .ok (.close rest)
  | c :: rest =>
    if isFirst then .ok (.element (c :: rest))
    else if c = ',' then
      match skipBlank rest with
      | [] => .error .truncated
      | ']' :: _ => .error .malformed
      | text => .ok (.element text)
    else .error .malformed

/-- What follows an array in which no more elements may stand. -/
def arrayEnd (text : List Char) : Except JsonFault (List Char) :=
  match skipBlank text with
  | [] => .error .truncated
  | ']' :: rest => .ok rest
  | _ => .error .malformed

/-- The end of a text, in which only blanks may stand. -/
def textEnd (text : List Char) : Except JsonFault Unit :=
  if skipBlank text = [] then .ok () else .error .malformed

end Json
end Cashpoint
