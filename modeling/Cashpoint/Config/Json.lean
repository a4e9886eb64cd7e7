/-
# Configurations as JSON

A configuration file holds an object, whose members name the fields they set, or an
array, whose elements set the fields in their order, as many as there are. A member
that names no field, or a field that is set already, is `mismatched` as soon as its
name has been read.
-/

import Cashpoint.Config.Basic
import Cashpoint.Json.Value

namespace Cashpoint
namespace Config

/-! ## Reading -/

/-- Reads a string with an address. -/
def readAddress (text : List Char) : Except JsonFault (SocketAddress × List Char) := do
  let (value, rest) ← Json.readString text
  match SocketAddress.ofString? value with
  | some address => return (address, rest)
  | none => throw .mismatched

/-- Reads a number of 32 bits. -/
def readUInt32 (text : List Char) : Except JsonFault (UInt32 × List Char) := do
  let (value, rest) ← Json.readNatural 4294967295 text
  return (UInt32.ofNat value, rest)

/-- Reads a number of 64 bits. -/
def readUInt64 (text : List Char) : Except JsonFault (UInt64 × List Char) := do
  let (value, rest) ← Json.readNatural Json.largestNatural text
  return (UInt64.ofNat value, rest)

/-- The value of a field, and what follows it. -/
def Field.read (field : Field) (text : List Char) : Except JsonFault (Setting × List Char) :=
  match field with
  | .atmAddress => do let (a, rest) ← readAddress text; return (.atmAddress a, rest)
  | .relayAddress => do let (a, rest) ← readAddress text; return (.relayAddress a, rest)
  | .bankAddress => do let (a, rest) ← readAddress text; return (.bankAddress a, rest)
  | .cardDirectory => do let (d, rest) ← Json.readString text; return (.cardDirectory ⟨d⟩, rest)
  | .requestTimeout => do let (n, rest) ← readUInt64 text; return (.requestTimeout n, rest)
  | .maxRetries => do let (n, rest) ← readUInt32 text; return (.maxRetries n, rest)
  | .maxAttempts => do let (n, rest) ← readUInt32 text; return (.maxAttempts n, rest)

/-- The field with a name, among those that are not set yet. -/
def Field.named? (unset : List Field) (name : String) : Option Field :=
  unset.find? fun field => field.name = name

/-- A field that is found by its name was not set yet. -/
theorem Field.mem_of_named? {unset : List Field} {name : String} {field : Field}
    (h : Field.named? unset name = some field) : field ∈ unset :=
  List.mem_of_find?_eq_some h

/-- The members of an object after its opening brace. -/
def readMembers (unset : List Field) (isFirst : Bool) (c : Config) (text : List Char) :
    Except JsonFault (Config × List Char) :=
  match Json.memberStart isFirst text with
  | .error fault => .error fault
  | .ok (.close rest) => .ok (c, rest)
  | .ok (.member name rest) =>
    match _h : Field.named? unset name with
    | none => .error .mismatched
    | some field =>
      match Json.colon rest with
      | .error fault => .error fault
      | .ok rest =>
        match field.read rest with
        | .error fault => .error fault
        | .ok (setting, rest) => readMembers (unset.erase field) false (setting.apply c) rest
termination_by unset.length
decreasing_by
  have hm := Field.mem_of_named? _h
  have := List.length_pos_of_mem hm
  rw [List.length_erase_of_mem hm]
  omega

/-- The elements of an array after its opening bracket, for the fields that are left. -/
def readElements : (left : List Field) → (isFirst : Bool) → Config → List Char →
    Except JsonFault (Config × List Char)
  | [], _, c, text => (Json.arrayEnd text).map fun rest => (c, rest)
  | field :: left, isFirst, c, text =>
    match Json.elementStart isFirst text with
    | .error fault => .error fault
    | .ok (.close rest) => .ok (c, rest)
    | .ok (.element text) =>
      match field.read text with
      | .error fault => .error fault
      | .ok (setting, rest) => readElements left false (setting.apply c) rest

/-- The object or array at the front of a text, put over the defaults. -/
def readValue (text : List Char) : Except JsonFault (Config × List Char) :=
  match Json.skipBlank text with
  | [] => .error .truncated
  | c :: rest =>
    if c = Json.openBrace then readMembers Field.all true {} rest
    else if c = '[' then readElements Field.all true {} rest
    else .error (Json.otherValue (c :: rest))

/-- The configuration in a whole JSON text. -/
def ofJson (text : String) : Except JsonFault Config := do
  let (config, rest) ← readValue text.toList
  Json.textEnd rest
  return config

/-! ## Writing -/

/-- The value of a setting as JSON. -/
def Setting.value : Setting → String
  | .atmAddress address | .relayAddress address | .bankAddress address => Json.quote address.render
  | .cardDirectory directory => Json.quote directory.text
  | .requestTimeout milliseconds => toString milliseconds.toNat
  | .maxRetries count | .maxAttempts count => toString count.toNat

/-- The member that makes a setting. -/
def Setting.member (setting : Setting) : String :=
  Json.quote setting.field.name ++ ":" ++ setting.value

/-- The object with these settings as its members. -/
def objectOf (settings : List Setting) : String :=
  String.singleton Json.openBrace ++ String.intercalate "," (settings.map Setting.member) ++
    String.singleton Json.closeBrace

/-- The object of all seven fields. -/
def toJson (c : Config) : String := objectOf c.settings

end Config
end Cashpoint
