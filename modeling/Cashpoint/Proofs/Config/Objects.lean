/-
# Objects that set fields

A member sets a field if its name is the field's and its value is written as one of the field's
type (`Sets`). Reading goes member by member. One step says what a member does
(`readMembers_member`): a field that is not set yet takes its value, any other name is refused.
From it follow the two runs: over members that set different fields (`readMembers_settings`), and
up to a name that is refused (`readMembers_refused`).
-/

import Cashpoint.Config.Json
import Cashpoint.Proofs.Json.Values
import Cashpoint.Proofs.Network.Addresses

namespace Cashpoint
namespace Config

open Json
open Numeral (Stops toList_toString)

/-- What may be written for the value of a setting: an address in any form in which it is read,
a text in any spelling, a number in its digits. -/
def Setting.Writes (setting : Setting) (value : List Char) : Prop :=
  match setting with
  | .atmAddress address | .relayAddress address | .bankAddress address =>
    ∃ text, SocketAddress.ofString? text = some address ∧ IsString text value
  | .cardDirectory directory => IsString directory.text value
  | .requestTimeout milliseconds => value = Nat.toDigits 10 milliseconds.toNat
  | .maxRetries count | .maxAttempts count => value = Nat.toDigits 10 count.toNat

/-- A member that makes a setting. -/
structure Makes (member : Member) (setting : Setting) : Prop where
  name : member.name = setting.field.name
  value : setting.Writes member.value

/-- Members that make these settings, in their order. -/
abbrev Sets (members : List Member) (settings : List Setting) : Prop :=
  List.Forall₂ Makes members settings

variable {blanks value rest text : List Char} {unset : List Field} {isFirst : Bool} {c : Config}

/-! ## Values of fields -/

/-- An address is read from any string that spells its text. -/
theorem readAddress_isString {address : SocketAddress} {written : String} (hblanks : Blanks blanks)
    (hwritten : SocketAddress.ofString? written = some address) (h : IsString written value) (rest : List Char) :
    readAddress (blanks ++ (value ++ rest)) = .ok (address, rest) := by
  simp [readAddress, readString_isString hblanks h, hwritten, bind, Except.bind, pure, Except.pure]

/-- A number of 32 bits is read from its digits. -/
theorem readUInt32_toDigits (count : UInt32) (hblanks : Blanks blanks) (hrest : Stops isNumeric rest) :
    readUInt32 (blanks ++ (Nat.toDigits 10 count.toNat ++ rest)) = .ok (count, rest) := by
  have hle : count.toNat ≤ 4294967295 := Nat.le_of_lt_succ count.toNat_lt
  simp [readUInt32, readNatural_toDigits hblanks hle (by decide) hrest, bind, Except.bind, pure, Except.pure]

/-- A number of 64 bits is read from its digits. -/
theorem readUInt64_toDigits (count : UInt64) (hblanks : Blanks blanks) (hrest : Stops isNumeric rest) :
    readUInt64 (blanks ++ (Nat.toDigits 10 count.toNat ++ rest)) = .ok (count, rest) := by
  have hle : count.toNat ≤ largestNatural := Nat.le_of_lt_succ count.toNat_lt
  simp [readUInt64, readNatural_toDigits hblanks hle (Nat.le_refl _) hrest, bind, Except.bind, pure, Except.pure]

/-- **A written value** is the value that is read. -/
theorem Field.read_writes {setting : Setting} (h : setting.Writes value) (hblanks : Blanks blanks)
    (hrest : Stops isNumeric rest) : setting.field.read (blanks ++ (value ++ rest)) = .ok (setting, rest) := by
  cases setting with
  | atmAddress | relayAddress | bankAddress =>
    obtain ⟨written, hwritten, hstring⟩ := h
    simp only [Setting.field, Field.read, readAddress_isString hblanks hwritten hstring]
    rfl
  | cardDirectory directory =>
    have hstring : IsString directory.text value := h
    simp only [Setting.field, Field.read, readString_isString hblanks hstring]
    rfl
  | requestTimeout milliseconds =>
    subst h
    simp only [Setting.field, Field.read, readUInt64_toDigits milliseconds hblanks hrest]
    rfl
  | maxRetries count | maxAttempts count =>
    subst h
    simp only [Setting.field, Field.read, readUInt32_toDigits count hblanks hrest]
    rfl

/-- Two readers in a row succeed if each does. -/
theorem bind_eq_ok {α β : Type} {read : Except JsonFault α} {next : α → Except JsonFault β} {b : β}
    (h : read >>= next = .ok b) : ∃ a, read = .ok a ∧ next a = .ok b := by
  cases read with
  | error fault => cases h
  | ok a => exact ⟨a, rfl, h⟩

/-- A field is read as a string or as a natural number, and gives a setting of that field. -/
theorem Field.read_eq_ok {field : Field} {setting : Setting} {left : List Char}
    (h : field.read text = .ok (setting, left)) :
    setting.field = field ∧
      ((∃ a, readString text = .ok (a, left)) ∨ ∃ bound n, readNatural bound text = .ok (n, left)) := by
  have haddress {address : SocketAddress} (h : readAddress text = .ok (address, left)) :
      ∃ a, readString text = .ok (a, left) := by
    obtain ⟨⟨a, rest⟩, hread, hnext⟩ := bind_eq_ok h
    simp only at hnext
    split at hnext <;> cases hnext
    exact ⟨a, hread⟩
  cases field with
  | atmAddress | relayAddress | bankAddress =>
    obtain ⟨⟨address, rest⟩, hread, hnext⟩ := bind_eq_ok h
    cases hnext
    exact ⟨rfl, .inl (haddress hread)⟩
  | cardDirectory =>
    obtain ⟨⟨a, rest⟩, hread, hnext⟩ := bind_eq_ok h
    cases hnext
    exact ⟨rfl, .inl ⟨a, hread⟩⟩
  | requestTimeout | maxRetries | maxAttempts =>
    obtain ⟨⟨count, rest⟩, hread, hnext⟩ := bind_eq_ok h
    obtain ⟨⟨n, rest'⟩, hnatural, hcount⟩ := bind_eq_ok hread
    cases hcount
    cases hnext
    exact ⟨rfl, .inr ⟨_, n, hnatural⟩⟩

/-- **Whatever the value of a member**, a field takes all of it or refuses it. -/
theorem Field.takesWhole_read (field : Field) : TakesWhole field.read := by
  intro blanks value rest setting left hblanks hvalue hrest hread
  rcases (Field.read_eq_ok hread).2 with ⟨a, hstring⟩ | ⟨bound, n, hnatural⟩
  · exact takesWhole_readString _ _ _ _ _ hblanks hvalue hrest hstring
  · exact takesWhole_readNatural bound _ _ _ _ _ hblanks hvalue hrest hnatural

/-! ## One member -/

/-- A field that is not set yet is found by its name. -/
theorem Field.named?_name {field : Field} (h : field ∈ unset) : named? unset field.name = some field := by
  have hsome : (named? unset field.name).isSome = true := List.find?_isSome.2 ⟨field, h, by simp⟩
  obtain ⟨found, hfound⟩ := Option.isSome_iff_exists.1 hsome
  have hname := List.find?_some hfound
  have hfield : found = field := Field.name_inj (by simpa using hname)
  rw [hfound, hfield]

/-- A name that no field bears which is not set yet finds none. -/
theorem Field.named?_eq_none {name : String} (h : ∀ field ∈ unset, field.name ≠ name) : named? unset name = none :=
  List.find?_eq_none.2 fun field hfield => by simpa using h field hfield

/-- **A member of an object**: its name is refused or is that of a field, whose value is read then. -/
theorem readMembers_member {member : Member} {members : List Member}
    (h : IsLeft isFirst (member :: members) rest text) :
    ∃ before tail, Blanks before ∧ IsLeft false members rest tail ∧
      (Field.named? unset member.name = none → readMembers unset isFirst c text = .error .mismatched) ∧
      ∀ field, Field.named? unset member.name = some field →
        (∀ fault, field.read (before ++ (member.value ++ tail)) = .error fault →
          readMembers unset isFirst c text = .error fault) ∧
        ∀ setting left, field.read (before ++ (member.value ++ tail)) = .ok (setting, left) →
          readMembers unset isFirst c text = readMembers (unset.erase field) false (setting.apply c) left := by
  obtain ⟨lead, quoted, between, before, tail, hlead, hquoted, hbetween, hbefore, htail, rfl⟩ := h.cons
  have hstart := memberStart_member hlead hquoted (between ++ ':' :: (before ++ (member.value ++ tail)))
  have hcolon := colon_blanks hbetween (before ++ (member.value ++ tail))
  refine ⟨before, tail, hbefore, htail, fun hname => ?_, fun field hname =>
    ⟨fun fault hread => ?_, fun setting left hread => ?_⟩⟩
  all_goals
    rw [readMembers, hstart]
    simp only
    split <;> simp_all

/-! ## Members that set fields -/

variable {settings : List Setting} {members more : List Member}

/-- Each of the members has the name of a field that is set. -/
theorem exists_field_of_sets (h : Sets members settings) {member : Member} (hmember : member ∈ members) :
    ∃ field ∈ settings.map Setting.field, field.name = member.name := by
  induction h with
  | nil => cases hmember
  | cons hmade _ ih =>
    rcases List.mem_cons.1 hmember with rfl | hmember
    · exact ⟨_, List.mem_cons_self, hmade.name.symm⟩
    · obtain ⟨field, hfield, hname⟩ := ih hmember
      exact ⟨field, List.mem_cons_of_mem _ hfield, hname⟩

/-- A member that sets a field which is not set yet. -/
theorem readMembers_setting {setting : Setting} {member : Member} (hunset : setting.field ∈ unset)
    (hmade : Makes member setting) (h : IsLeft isFirst (member :: members) rest text) :
    ∃ tail, IsLeft false members rest tail ∧
      readMembers unset isFirst c text = readMembers (unset.erase setting.field) false (setting.apply c) tail := by
  obtain ⟨before, tail, hbefore, htail, _, hnamed⟩ := readMembers_member (c := c) h
  have hname : Field.named? unset member.name = some setting.field := by rw [hmade.name, Field.named?_name hunset]
  exact ⟨tail, htail, (hnamed _ hname).2 _ _ (Field.read_writes hmade.value hbefore htail.stops)⟩

/-- **A run of members that set different fields** applies their settings and leaves the other fields unset. -/
theorem readMembers_settings (hunset : unset.Nodup) (hdistinct : (settings.map Setting.field).Nodup)
    (hfields : ∀ setting ∈ settings, setting.field ∈ unset) (hsets : Sets members settings)
    (h : IsLeft isFirst (members ++ more) rest text) :
    ∃ unset' isFirst' tail, unset'.Nodup ∧
      (∀ field, field ∈ unset' ↔ field ∈ unset ∧ field ∉ settings.map Setting.field) ∧ IsLeft isFirst' more rest tail ∧
      readMembers unset isFirst c text = readMembers unset' isFirst' (settings.foldl Setting.apply c) tail := by
  induction hsets generalizing unset isFirst c text with
  | nil => exact ⟨unset, isFirst, text, hunset, by simp, h, rfl⟩
  | @cons member setting members settings hmade hsets ih =>
    rw [List.map_cons, List.nodup_cons] at hdistinct
    obtain ⟨tail, htail, hread⟩ := readMembers_setting (c := c) (hfields setting (by simp)) hmade h
    have hleft (other : Setting) (hother : other ∈ settings) : other.field ∈ unset.erase setting.field :=
      hunset.mem_erase_iff.2
        ⟨fun heq => hdistinct.1 (heq ▸ List.mem_map_of_mem hother), hfields other (by simp [hother])⟩
    obtain ⟨unset', isFirst', tail', hunset', hmem, htail', hread'⟩ := ih (hunset.erase _) hdistinct.2 hleft htail
    refine ⟨unset', isFirst', tail', hunset', fun field => ?_, htail', hread.trans hread'⟩
    rw [hmem, hunset.mem_erase_iff, List.map_cons, List.mem_cons, not_or]
    exact ⟨fun ⟨⟨hne, hin⟩, hnot⟩ => ⟨hin, hne, hnot⟩, fun ⟨hin, hne, hnot⟩ => ⟨⟨hne, hin⟩, hnot⟩⟩

/-- **A name that is refused** behind such a run: of no field, or of one that is set already. -/
theorem readMembers_refused {member : Member} (hunset : unset.Nodup) (hdistinct : (settings.map Setting.field).Nodup)
    (hfields : ∀ setting ∈ settings, setting.field ∈ unset) (hsets : Sets members settings)
    (hrefused : ∀ field ∈ unset, field.name = member.name → field ∈ settings.map Setting.field)
    (h : IsLeft isFirst (members ++ member :: more) rest text) :
    readMembers unset isFirst c text = .error .mismatched := by
  obtain ⟨unset', isFirst', tail, _, hmem, htail, hread⟩ :=
    readMembers_settings (c := c) hunset hdistinct hfields hsets h
  obtain ⟨_, _, _, _, hnone, _⟩ := readMembers_member (c := settings.foldl Setting.apply c) htail
  rw [hread, hnone]
  exact Field.named?_eq_none fun field hfield hname =>
    ((hmem field).1 hfield).2 (hrefused field ((hmem field).1 hfield).1 hname)

/-- **A name that comes twice**: if the first value is not refused, the second name is. -/
theorem readMembers_twice {field : Field} {one another : Member} (hunset : unset.Nodup) (hfield : field ∈ unset)
    (hone : one.name = field.name) (hvalue : IsValue one.value) (hanother : another.name = field.name)
    (hdistinct : (settings.map Setting.field).Nodup)
    (hfields : ∀ setting ∈ settings, setting.field ∈ unset ∧ setting.field ≠ field) (hsets : Sets members settings)
    (h : IsLeft isFirst (one :: (members ++ another :: more)) rest text) :
    ∃ fault, readMembers unset isFirst c text = .error fault := by
  obtain ⟨before, tail, hbefore, htail, _, hnamed⟩ := readMembers_member (c := c) h
  obtain ⟨herror, hok⟩ := hnamed field (by rw [hone, Field.named?_name hfield])
  cases hread : field.read (before ++ (one.value ++ tail)) with
  | error fault => exact ⟨fault, herror fault hread⟩
  | ok result =>
    obtain ⟨setting, left⟩ := result
    obtain rfl := field.takesWhole_read _ _ _ _ _ hbefore hvalue htail.stops hread
    have hfields' (other : Setting) (hother : other ∈ settings) : other.field ∈ unset.erase field :=
      hunset.mem_erase_iff.2 ⟨(hfields other hother).2, (hfields other hother).1⟩
    refine ⟨.mismatched, (hok setting left hread).trans ?_⟩
    refine readMembers_refused (hunset.erase field) hdistinct hfields' hsets (fun found hfound hname => ?_) htail
    exact absurd (Field.name_inj (hname.trans hanother)) (hunset.mem_erase_iff.1 hfound).1

/-- No field is listed twice. -/
theorem nodup_all : Field.all.Nodup := by decide

/-- A member whose field a later one sets as well, among members that set different fields. -/
theorem readMembers_repeated {before between : List Member} {one another : Member} {first middle last : List Setting}
    {setting : Setting} (hdistinct : ((first ++ (middle ++ setting :: last)).map Setting.field).Nodup)
    (hfirst : Sets before first) (hmiddle : Sets between middle) (hmade : Makes another setting)
    (hname : one.name = another.name) (hvalue : IsValue one.value)
    (h : IsLeft true (before ++ one :: (between ++ another :: more)) rest text) :
    ∃ fault, readMembers Field.all true c text = .error fault := by
  rw [List.map_append, List.nodup_append] at hdistinct
  obtain ⟨hfirstDistinct, hlaterDistinct, hapart⟩ := hdistinct
  obtain ⟨unset, isFirst, tail, hunset, hmem, htail, hread⟩ :=
    readMembers_settings (c := c) nodup_all hfirstDistinct (fun setting _ => setting.field.mem_all) hfirst h
  have hstillUnset (other : Setting) (hother : other ∈ middle ++ setting :: last) : other.field ∈ unset :=
    (hmem _).2 ⟨other.field.mem_all, fun hin => hapart _ hin _ (List.mem_map_of_mem hother) rfl⟩
  rw [List.map_append, List.map_cons, List.nodup_append] at hlaterDistinct
  obtain ⟨hmiddleDistinct, _, hmiddleApart⟩ := hlaterDistinct
  have hmiddleFields (other : Setting) (hother : other ∈ middle) : other.field ∈ unset ∧ other.field ≠ setting.field :=
    ⟨hstillUnset other (by simp [hother]), hmiddleApart _ (List.mem_map_of_mem hother) _ List.mem_cons_self⟩
  rw [hread]
  exact readMembers_twice hunset (hstillUnset setting (by simp)) (hname.trans hmade.name) hvalue hmade.name
    hmiddleDistinct hmiddleFields hmiddle htail

/-! ## Whole objects -/

/-- A text that is an object with these members, with blanks around it. -/
def IsObjectText (members : List Member) (text : String) : Prop :=
  ∃ object, IsObject members object ∧ IsElement object text.toList

/-- An object is read member by member, up to the blanks at the end of the text. -/
theorem IsObjectText.readValue {text : String} (h : IsObjectText members text) :
    ∃ after inner, Blanks after ∧ IsLeft true members after inner ∧
      readValue text.toList = readMembers Field.all true {} inner := by
  obtain ⟨object, ⟨parts, hparts, blanks, hblanks, rfl⟩, before, after, hbefore, hafter, htext⟩ := h
  have hskip : skipBlank text.toList = openBrace :: (blanks ++ ([','].intercalate parts ++ [closeBrace]) ++ after) := by
    rw [htext]
    exact skipBlank_of_cons hbefore (by decide) _
  refine ⟨after, _, hafter, ⟨blanks, parts, hblanks, hparts, rfl⟩, ?_⟩
  simp [Config.readValue, hskip]

/-- **An object whose members set different fields** applies these settings to the defaults. -/
theorem ofJson_sets {text : String} (hdistinct : (settings.map Setting.field).Nodup) (hsets : Sets members settings)
    (h : IsObjectText members text) : ofJson text = .ok (settings.foldl Setting.apply {}) := by
  obtain ⟨after, inner, hafter, hleft, hvalue⟩ := h.readValue
  rw [← List.append_nil members] at hleft
  obtain ⟨unset, isFirst, tail, _, _, htail, hread⟩ :=
    readMembers_settings (c := {}) nodup_all hdistinct (fun setting _ => setting.field.mem_all) hsets hleft
  have hclose (c : Config) : readMembers unset isFirst c tail = .ok (c, after) := by
    rw [readMembers, memberStart_close htail]
  have hend : skipBlank after = [] := by
    have hnil := skipBlank_append hafter []
    rwa [List.append_nil] at hnil
  simp [ofJson, hvalue, hread, hclose, textEnd, hend, bind, Except.bind, pure, Except.pure]

/-- Members in two parts set the settings in two parts. -/
theorem exists_append_of_sets {front back : List Member} (h : Sets (front ++ back) settings) :
    ∃ first second, settings = first ++ second ∧ Sets front first ∧ Sets back second :=
  ⟨settings.take front.length, settings.drop front.length, (List.take_append_drop _ _).symm,
    by simpa using List.forall₂_take front.length h, by simpa using List.forall₂_drop front.length h⟩

/-- **One member too many**, with a name of no field or of a field that another member sets, wherever
it stands and whatever its value. -/
theorem ofJson_extra {text : String} {before after : List Member} {extra : Member}
    (hdistinct : (settings.map Setting.field).Nodup) (hsets : Sets (before ++ after) settings)
    (hvalue : IsValue extra.value)
    (hextra : (∀ field : Field, field.name ≠ extra.name) ∨ extra.name ∈ (before ++ after).map Member.name)
    (h : IsObjectText (before ++ extra :: after) text) : ∃ fault, ofJson text = .error fault := by
  obtain ⟨rest, inner, _, hleft, hobject⟩ := h.readValue
  obtain ⟨first, second, rfl, hfirst, hsecond⟩ := exists_append_of_sets hsets
  suffices hfault : ∃ fault, readMembers Field.all true {} inner = .error fault by
    obtain ⟨fault, hread⟩ := hfault
    exact ⟨fault, by simp [ofJson, hobject, hread, bind, Except.bind]⟩
  have hfirstDistinct : (first.map Setting.field).Nodup := by
    rw [List.map_append, List.nodup_append] at hdistinct
    exact hdistinct.1
  by_cases hknown : ∀ field : Field, field.name = extra.name → field ∈ first.map Setting.field
  · exact ⟨_, readMembers_refused nodup_all hfirstDistinct (fun setting _ => setting.field.mem_all) hfirst
      (fun field _ => hknown field) hleft⟩
  -- The name is that of a field which a later member sets, so its value is read first.
  · simp only [not_forall] at hknown
    obtain ⟨field, hfieldName, hnotFirst⟩ := hknown
    have hlater : ∃ member ∈ after, member.name = extra.name := by
      rcases hextra with hnone | hrepeated
      · exact absurd hfieldName (hnone field)
      · obtain ⟨member, hmember, hname⟩ := List.mem_map.1 hrepeated
        rcases List.mem_append.1 hmember with hbefore | hafter
        · obtain ⟨other, hother, hotherName⟩ := exists_field_of_sets hfirst hbefore
          have hsame : other = field := Field.name_inj (hotherName.trans (hname.trans hfieldName.symm))
          exact absurd (hsame ▸ hother) hnotFirst
        · exact ⟨member, hafter, hname⟩
    obtain ⟨member, hmember, hname⟩ := hlater
    obtain ⟨between, later, rfl⟩ := List.append_of_mem hmember
    obtain ⟨middle, _, rfl, hmiddle, hlast⟩ := exists_append_of_sets hsecond
    obtain ⟨setting, last, hmade, _, rfl⟩ := List.forall₂_cons_left_iff.1 hlast
    exact readMembers_repeated hdistinct hfirst hmiddle hmade hname.symm hvalue hleft

/-! ## Written objects -/

/-- The member that is written of a setting. -/
def Setting.written (setting : Setting) : Member := ⟨setting.field.name, setting.value.toList⟩

/-- The value of a setting is one way to write it. -/
theorem Setting.writes_value (setting : Setting) : setting.Writes setting.value.toList := by
  cases setting with
  | atmAddress address | relayAddress address | bankAddress address =>
    simp only [Setting.Writes, Setting.value]
    exact ⟨address.render, SocketAddress.ofString?_render address, isString_quote address.render⟩
  | cardDirectory directory =>
    simp only [Setting.Writes, Setting.value]
    exact isString_quote directory.text
  | requestTimeout milliseconds =>
    simp only [Setting.Writes, Setting.value]
    exact toList_toString milliseconds.toNat
  | maxRetries count | maxAttempts count =>
    simp only [Setting.Writes, Setting.value]
    exact toList_toString count.toNat

/-- Settings in writing set just these settings. -/
theorem sets_written (settings : List Setting) : Sets (settings.map Setting.written) settings := by
  rw [Sets, List.forall₂_map_left_iff, List.forall₂_same]
  exact fun setting _ => ⟨rfl, setting.writes_value⟩

/-- A setting as it is written is a member of an object. -/
theorem isWritten_member (setting : Setting) : setting.written.IsWritten setting.member.toList := by
  have hnone : Blanks [] := by decide
  refine ⟨[], (quote setting.field.name).toList, [], setting.value.toList, hnone, isString_quote _, hnone,
    ⟨[], [], hnone, hnone, by simp [Setting.written]⟩, ?_⟩
  simp [Setting.member]

/-- **What is written of settings** is an object with members that make them. -/
theorem isObjectText_objectOf (settings : List Setting) :
    IsObjectText (settings.map Setting.written) (objectOf settings) := by
  have hnone : Blanks [] := by decide
  have hparts : List.Forall₂ Member.IsWritten (settings.map Setting.written)
      ((settings.map Setting.member).map String.toList) := by
    rw [List.map_map, List.forall₂_map_left_iff, List.forall₂_map_right_iff, List.forall₂_same]
    exact fun setting _ => isWritten_member setting
  refine ⟨(objectOf settings).toList, ⟨_, hparts, [], hnone, ?_⟩, [], [], hnone, hnone, by simp⟩
  simp [objectOf, String.toList_intercalate]

end Config
end Cashpoint
