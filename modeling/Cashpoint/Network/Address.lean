/-
# Socket addresses

An IPv4 address in four decimal octets or an IPv6 address in brackets, a colon and a
port: `127.0.0.1:32000`, `[::1]:80`, `[fe80::1%2]:5`.

Reading accepts

* octets of at most three digits without leading zeros,
* groups of at most four hexadecimal digits, a run of zero groups written `::`, and an
  IPv4 address for the last two groups,
* scopes and ports with any number of leading zeros.

Writing is canonical: lower case, no leading zeros, the first longest run of at
least two zero groups as `::`, and dotted octets after `::ffff:`. A scope of 0 is left
out.
-/

import Cashpoint.Bytes
import Cashpoint.Text.Hex

namespace Cashpoint

/-- Where a datagram comes from or goes to. -/
inductive SocketAddress
  | v4 (octets : Vector UInt8 4) (port : UInt16)
  | v6 (groups : Vector UInt16 8) (scope : UInt32) (port : UInt16)
  deriving DecidableEq

namespace SocketAddress

/-- A port of this machine. -/
def loopback (port : UInt16) : SocketAddress := .v4 #v[127, 0, 0, 1] port

/-! ## Reading -/

/-- A reader takes a value off the front of a text, or leaves it. -/
abbrev Reader (α : Type) := List Char → Option (α × List Char)

/-- Takes off the character that is expected. -/
def expect (c : Char) : Reader Unit
  | [] => none
  | d :: rest => if d = c then some ((), rest) else none

/-- A decimal number up to `bound`, with leading zeros. -/
def number (bound : Nat) : Reader Nat := fun text =>
  let digits := text.takeWhile Char.isDigit
  let value := Nat.ofDigitChars 10 digits 0
  if digits ≠ [] ∧ value ≤ bound then some (value, text.dropWhile Char.isDigit) else none

/-- A decimal number up to 255 in at most three digits, without leading zeros. -/
def octet : Reader UInt8 := fun text =>
  let digits := text.takeWhile Char.isDigit
  let value := Nat.ofDigitChars 10 digits 0
  if digits ≠ [] ∧ digits.length ≤ 3 ∧ (digits.head? ≠ some '0' ∨ digits.length = 1) ∧
      value ≤ 255 then
    some (UInt8.ofNat value, text.dropWhile Char.isDigit)
  else
    none

/-- A hexadecimal number in at most four digits. -/
def group : Reader UInt16 := fun text =>
  let digits := text.takeWhile Hex.isDigit
  if digits ≠ [] ∧ digits.length ≤ 4 then
    some (UInt16.ofNat (Hex.value digits), text.dropWhile Hex.isDigit)
  else
    none

/-- Four octets with dots between them. -/
def octets : Reader (Vector UInt8 4) := fun text => do
  let (a, text) ← octet text
  let (_, text) ← expect '.' text
  let (b, text) ← octet text
  let (_, text) ← expect '.' text
  let (c, text) ← octet text
  let (_, text) ← expect '.' text
  let (d, text) ← octet text
  return (#v[a, b, c, d], text)

/-- Something that has a colon before it unless it is the first. -/
def separated {α : Type} (isFirst : Bool) (read : Reader α) : Reader α := fun text => do
  if isFirst then read text
  else
    let (_, text) ← expect ':' text
    read text

/-- The group of two octets. -/
def groupOf (high low : UInt8) : UInt16 := high.toUInt16 * 256 + low.toUInt16

/-- The two groups of four octets. -/
def groupsOfOctets (o : Vector UInt8 4) : List UInt16 := [groupOf o[0] o[1], groupOf o[2] o[3]]

/-- Groups of an IPv6 address, as many as there are but no more than `room`. -/
structure Groups where
  groups : List UInt16
  /-- Whether the last two were written as octets. -/
  endsInOctets : Bool
  rest : List Char

/-- Reads groups up to the first thing that is none. Octets can only fill the room of two groups, and
nothing follows them. -/
def readGroups : (room : Nat) → (isFirst : Bool) → List Char → Groups
  | 0, _, text => ⟨[], false, text⟩
  | room + 1, isFirst, text =>
    match if room = 0 then none else separated isFirst octets text with
    | some (o, rest) => ⟨groupsOfOctets o, true, rest⟩
    | none =>
      match separated isFirst group text with
      | some (g, rest) =>
        let more := readGroups room false rest
        { more with groups := g :: more.groups }
      | none => ⟨[], false, text⟩

/-- Eight groups, filled up with zeros where `::` stands between the two parts. -/
def fill (front back : List UInt16) : Vector UInt16 8 :=
  Vector.ofFn fun i =>
    if i.val < 8 - back.length then front.getD i.val 0 else back.getD (i.val - (8 - back.length)) 0

/-- Reads eight groups, of which those in one place may be left out. -/
def ipv6 : Reader (Vector UInt16 8) := fun text => do
  let front := readGroups 8 true text
  if front.groups.length = 8 then
    return (fill front.groups [], front.rest)
  else if front.endsInOctets then
    none
  else
    let (_, text) ← expect ':' front.rest
    let (_, text) ← expect ':' text
    let back := readGroups (7 - front.groups.length) true text
    return (fill front.groups back.groups, back.rest)

/-- A colon and a port. -/
def port : Reader UInt16 := fun text => do
  let (_, text) ← expect ':' text
  let (value, text) ← number 65535 text
  return (UInt16.ofNat value, text)

/-- A percent sign and a scope; without them the scope is 0. -/
def scope : Reader UInt32 := fun text =>
  match text with
  | '%' :: rest =>
    match number 4294967295 rest with
    | some (value, rest) => some (UInt32.ofNat value, rest)
    | none => some (0, text)
  | _ => some (0, text)

/-- Reads an address of four bytes and a port. -/
def readV4 : Reader SocketAddress := fun text => do
  let (o, text) ← octets text
  let (p, text) ← port text
  return (.v4 o p, text)

/-- Reads an address of eight groups, with a scope where there is one, and a port. -/
def readV6 : Reader SocketAddress := fun text => do
  let (_, text) ← expect '[' text
  let (g, text) ← ipv6 text
  let (s, text) ← scope text
  let (_, text) ← expect ']' text
  let (p, text) ← port text
  return (.v6 g s p, text)

/-- The address that a text is. -/
def ofString? (text : String) : Option SocketAddress :=
  match readV4 text.toList <|> readV6 text.toList with
  | some (address, []) => some address
  | _ => none

/-! ## Writing -/

/-- Bytes in writing, with dots between them. -/
def renderOctets (octets : List UInt8) : String :=
  String.intercalate "." (octets.map fun o => toString o.toNat)

/-- Groups in writing, with colons between them. -/
def renderGroups (groups : List UInt16) : String :=
  String.intercalate ":" (groups.map fun g => String.ofList (Nat.toDigits 16 g.toNat))

/-- The length of the run of zeros at the front. -/
def zeroRun (groups : List UInt16) : Nat := (groups.takeWhile (· == 0)).length

/-- Start and length of the first longest run of zeros, the groups starting at place `i`. -/
def longestZeroRun : (i : Nat) → List UInt16 → Nat × Nat
  | i, [] => (i, 0)
  | i, g :: rest =>
    let here := zeroRun (g :: rest)
    let later := longestZeroRun (i + 1) rest
    if here = 0 ∨ here < later.2 then later else (i, here)

/-- The octets of an IPv4 address that is mapped into IPv6. -/
def mappedOctets? : List UInt16 → Option (List UInt8)
  | [0, 0, 0, 0, 0, 0xffff, a, b] => some [(a / 256).toUInt8, a.toUInt8, (b / 256).toUInt8, b.toUInt8]
  | _ => none

/-- The groups of an address in writing, the longest run of zeros left out, or its last four bytes if it stands for
them. -/
def renderIpv6 (groups : List UInt16) : String :=
  match mappedOctets? groups with
  | some octets => "::ffff:" ++ renderOctets octets
  | none =>
    let (start, length) := longestZeroRun 0 groups
    if length > 1 then
      renderGroups (groups.take start) ++ "::" ++ renderGroups (groups.drop (start + length))
    else
      renderGroups groups

/-- The address in writing. -/
def render : SocketAddress → String
  | .v4 octets port => renderOctets octets.toList ++ ":" ++ toString port.toNat
  | .v6 groups scope port =>
    let scopeText := if scope = 0 then "" else "%" ++ toString scope.toNat
    "[" ++ renderIpv6 groups.toList ++ scopeText ++ "]:" ++ toString port.toNat

end SocketAddress
end Cashpoint
