/-
# Addresses that are written and read again

What `render` writes of an address, `ofString?` reads as that address (`ofString?_render`).

Of an IPv6 address the groups are written, with the first longest run of zeros left out
(`longestZeroRun_spec`) or the last two as octets. Reading takes groups as long as there are
any (`readGroups_chain`); where it stops, a `::` stands for the zeros that are missing
(`fill_eq`).
-/

import Cashpoint.Network.Address
import Cashpoint.Proofs.Text.Numerals
import Mathlib.Data.List.GetD

namespace Cashpoint
namespace SocketAddress

open Numeral (Stops stops_nil stops_cons span_append toList_toString)

variable {rest : List Char}

/-! ## Numbers -/

/-- The character that is expected is taken off. -/
theorem expect_cons (c : Char) (rest : List Char) : expect c (c :: rest) = some ((), rest) := if_pos rfl

/-- Any other character is refused. -/
theorem expect_of_ne {c d : Char} (h : d ≠ c) (rest : List Char) : expect c (d :: rest) = none := if_neg h

/-- A number within the bound is read from its decimal digits, up to the first character that is no digit. -/
theorem number_toDigits {bound n : Nat} (hle : n ≤ bound) (hrest : Stops Char.isDigit rest) :
    number bound (Nat.toDigits 10 n ++ rest) = some (n, rest) := by
  obtain ⟨htake, hdrop⟩ := span_append (fun _ hc => Numeral.isDigit_of_mem (n := n) hc) hrest
  simp only [number, htake, hdrop, Nat.ofDigitChars_ten_toDigits]
  exact if_pos ⟨Nat.toDigits_ne_nil, hle⟩

/-- A byte is read from its decimal digits. -/
theorem octet_toDigits (o : UInt8) (hrest : Stops Char.isDigit rest) :
    octet (Nat.toDigits 10 o.toNat ++ rest) = some (o, rest) := by
  obtain ⟨htake, hdrop⟩ := span_append (fun _ hc => Numeral.isDigit_of_mem (n := o.toNat) hc) hrest
  have hlt : o.toNat < 256 := o.toNat_lt
  have hlength : (Nat.toDigits 10 o.toNat).length ≤ 3 :=
    (Nat.length_toDigits_le_iff (by decide) (by decide)).2 (by omega)
  have hzero : (Nat.toDigits 10 o.toNat).head? ≠ some '0' ∨ (Nat.toDigits 10 o.toNat).length = 1 := by
    rcases Nat.eq_zero_or_pos o.toNat with hzero | hpos
    · exact .inr (by rw [hzero]; rfl)
    · exact .inl (Numeral.head?_toDigits (by decide) (by decide) hpos)
  simp only [octet, htake, hdrop, Nat.ofDigitChars_ten_toDigits]
  rw [if_pos ⟨Nat.toDigits_ne_nil, hlength, hzero, by omega⟩, UInt8.ofNat_toNat]

/-- A group of an address is read from its hexadecimal digits. -/
theorem group_toDigits (g : UInt16) (hrest : Stops Hex.isDigit rest) :
    group (Nat.toDigits 16 g.toNat ++ rest) = some (g, rest) := by
  obtain ⟨htake, hdrop⟩ := span_append (fun _ hc => Hex.isDigit_of_mem_toDigits (n := g.toNat) hc) hrest
  have hlt : g.toNat < 65536 := g.toNat_lt
  have hlength : (Nat.toDigits 16 g.toNat).length ≤ 4 :=
    (Nat.length_toDigits_le_iff (by decide) (by decide)).2 (by omega)
  simp only [group, htake, hdrop, Hex.value_toDigits]
  rw [if_pos ⟨Nat.toDigits_ne_nil, hlength⟩, UInt16.ofNat_toNat]

/-- Without a digit at the front there is no octet. -/
theorem octet_of_stops (h : Stops Char.isDigit rest) : octet rest = none := by
  have htake : rest.takeWhile Char.isDigit = [] := by
    cases rest with
    | nil => rfl
    | cons c rest => rw [List.takeWhile_cons_of_neg (by simp [h c rfl])]
  simp [octet, htake]

/-- Where no digit stands, there is no group. -/
theorem group_of_stops (h : Stops Hex.isDigit rest) : group rest = none := by
  have htake : rest.takeWhile Hex.isDigit = [] := by
    cases rest with
    | nil => rfl
    | cons c rest => rw [List.takeWhile_cons_of_neg (by simp [h c rfl])]
  simp [group, htake]

/-! ## Octets -/

/-- Four bytes are written with dots between them. -/
theorem toList_renderOctets (a b c d : UInt8) : (renderOctets [a, b, c, d]).toList =
    Nat.toDigits 10 a.toNat ++ '.' :: (Nat.toDigits 10 b.toNat ++ '.' ::
      (Nat.toDigits 10 c.toNat ++ '.' :: Nat.toDigits 10 d.toNat)) := by
  simp [renderOctets]

/-- **Octets with dots between them** are read as they are written. -/
theorem octets_render (a b c d : UInt8) (hrest : Stops Char.isDigit rest) :
    octets ((renderOctets [a, b, c, d]).toList ++ rest) = some (#v[a, b, c, d], rest) := by
  have hdot (rest : List Char) : Stops Char.isDigit ('.' :: rest) := stops_cons (by decide) rest
  rw [toList_renderOctets]
  simp only [octets, List.append_assoc, List.cons_append, octet_toDigits _ (hdot _), expect_cons,
    octet_toDigits _ hrest, Option.bind_eq_bind, Option.bind_some, Option.pure_def]

/-- A byte takes all the digits that stand at the front. -/
theorem rest_of_octet {text : List Char} {o : UInt8} (h : octet text = some (o, rest)) :
    rest = text.dropWhile Char.isDigit := by
  unfold octet at h
  simp only at h
  split at h
  · exact (Prod.mk.inj (Option.some.inj h)).2.symm
  · simp at h

/-- Octets are not read off a text in which no dot follows the first digits. -/
theorem octets_of_dropWhile {text : List Char} (h : (text.dropWhile Char.isDigit).head? ≠ some '.') :
    octets text = none := by
  unfold octets
  cases hfirst : octet text with
  | none => rfl
  | some first =>
    obtain ⟨o, rest⟩ := first
    rw [← rest_of_octet hfirst] at h
    have hdot : expect '.' rest = none := by
      cases rest with
      | nil => rfl
      | cons c rest => exact expect_of_ne (fun heq => h (by rw [heq]; rfl)) rest
    simp [hdot]

/-- A vector of four octets. -/
theorem exists_octets (o : Vector UInt8 4) : ∃ a b c d, o = #v[a, b, c, d] := by
  refine ⟨o[0], o[1], o[2], o[3], Vector.ext fun i hi => ?_⟩
  interval_cases i <;> rfl

/-! ## Groups -/

/-- Groups with a colon before each. -/
def chain (groups : List UInt16) : List Char := groups.flatMap fun g => ':' :: Nat.toDigits 16 g.toNat

/-- Groups are written as the first one and a chain of the others. -/
theorem toList_renderGroups (g : UInt16) (more : List UInt16) :
    (renderGroups (g :: more)).toList = Nat.toDigits 16 g.toNat ++ chain more := by
  induction more generalizing g with
  | nil => simp [renderGroups, chain]
  | cons next more ih =>
    have hsplit : (renderGroups (g :: next :: more)).toList =
        Nat.toDigits 16 g.toNat ++ ':' :: (renderGroups (next :: more)).toList := by
      simp [renderGroups, String.intercalate_cons_cons]
    rw [hsplit, ih next]
    rfl

/-- The end of groups: nothing that follows them could be read as one more group, or as octets. -/
structure Ends (rest : List Char) : Prop where
  stops : Stops Hex.isDigit rest
  noDot : rest.head? ≠ some '.'
  /-- What follows a colon is no group. -/
  afterColon : ∀ {text}, rest = ':' :: text → Stops Hex.isDigit text

/-- Groups end at a character of another kind. -/
theorem ends_cons {c : Char} (hdigit : Hex.isDigit c = false) (hdot : c ≠ '.') (hcolon : c ≠ ':') (rest : List Char) :
    Ends (c :: rest) where
  stops := stops_cons hdigit rest
  noDot h := hdot (Option.some.inj h)
  afterColon h := absurd (List.cons.inj h).1 hcolon

/-- Groups end at two colons. -/
theorem ends_colons (rest : List Char) : Ends (':' :: ':' :: rest) where
  stops := stops_cons (by decide) _
  noDot := by simp
  afterColon h := (List.cons.inj h).2 ▸ stops_cons (by decide) rest

/-- A decimal digit is a hexadecimal one. -/
theorem isDigit_hex {c : Char} (h : c.isDigit = true) : Hex.isDigit c = true := by
  have hbounds : '0' ≤ c ∧ c ≤ '9' := by simpa [Char.isDigit, Char.le_def] using h
  rw [Hex.isDigit, Hex.digit?, if_pos hbounds]
  rfl

/-- Where no hexadecimal digit stands, no decimal one does. -/
theorem stops_digit (h : Stops Hex.isDigit rest) : Stops Char.isDigit rest := fun c hc => by
  cases hdigit : c.isDigit with
  | false => rfl
  | true => exact absurd (isDigit_hex hdigit) (by simp [h c hc])

/-- A group is not taken for the first of four octets. -/
theorem octets_toDigits (n : Nat) (hstops : Stops Hex.isDigit rest) (hdot : rest.head? ≠ some '.') :
    octets (Nat.toDigits 16 n ++ rest) = none := by
  have hrun (run : List Char) (hrun : ∀ c ∈ run, Hex.isDigit c = true) :
      ((run ++ rest).dropWhile Char.isDigit).head? ≠ some '.' := by
    induction run with
    | nil =>
      rw [List.nil_append]
      cases rest with
      | nil => simp
      | cons c rest => simpa [stops_digit hstops c rfl] using hdot
    | cons c run ih =>
      rw [List.cons_append, List.dropWhile_cons]
      split
      · exact ih fun d hd => hrun d (List.mem_cons_of_mem _ hd)
      · rintro hc
        obtain rfl := Option.some.inj hc
        exact absurd (hrun '.' List.mem_cons_self) (by decide)
  exact octets_of_dropWhile (hrun _ fun _ => Hex.isDigit_of_mem_toDigits)

/-- Where no digit stands, there are no four bytes. -/
theorem octets_of_stops (h : Stops Char.isDigit rest) : octets rest = none := by
  simp [octets, octet_of_stops h]

/-- A chain of groups ends where what follows it lets it end. -/
theorem ends_chain (groups : List UInt16) (h : Ends rest) :
    Stops Hex.isDigit (chain groups ++ rest) ∧ (chain groups ++ rest).head? ≠ some '.' := by
  cases groups with
  | nil => exact ⟨h.stops, h.noDot⟩
  | cons g more => exact ⟨stops_cons (by decide) _, by simp [chain]⟩

/-- Nothing is read where groups have ended. -/
theorem readGroups_ends (room : Nat) (isFirst : Bool) (h : Ends rest) :
    readGroups room isFirst rest = ⟨[], false, rest⟩ := by
  have hnone : separated isFirst octets rest = none ∧ separated isFirst group rest = none := by
    cases isFirst with
    | true => exact ⟨octets_of_stops (stops_digit h.stops), group_of_stops h.stops⟩
    | false =>
      unfold separated
      cases rest with
      | nil => exact ⟨rfl, rfl⟩
      | cons c text =>
        by_cases hc : c = ':'
        · subst hc
          have hstops := h.afterColon rfl
          simp [expect_cons, octets_of_stops (stops_digit hstops), group_of_stops hstops]
        · simp [expect_of_ne hc]
  cases room with
  | zero => rfl
  | succ room => simp [readGroups, hnone.1, hnone.2]

/-- One more group, where octets are not found. -/
theorem readGroups_succ {room : Nat} {isFirst : Bool} {text : List Char} {g : UInt16}
    (hoctets : separated isFirst octets text = none) (hgroup : separated isFirst group text = some (g, rest)) :
    readGroups (room + 1) isFirst text =
      { readGroups room false rest with groups := g :: (readGroups room false rest).groups } := by
  have hnone : (if room = 0 then none else separated isFirst octets text) = none := by simp [hoctets]
  simp only [readGroups, hnone, hgroup]

/-- **Groups with colons before them** are read as they are written. -/
theorem readGroups_chain {room : Nat} {groups : List UInt16} (hroom : groups.length ≤ room) (h : Ends rest) :
    readGroups room false (chain groups ++ rest) = ⟨groups, false, rest⟩ := by
  induction groups generalizing room with
  | nil => exact readGroups_ends room false h
  | cons g more ih =>
    obtain ⟨room, rfl⟩ : ∃ left, room = left + 1 := ⟨room - 1, by simp at hroom; omega⟩
    obtain ⟨hstops, hdot⟩ := ends_chain more h
    have htext : chain (g :: more) ++ rest = ':' :: (Nat.toDigits 16 g.toNat ++ (chain more ++ rest)) := by
      simp [chain]
    have hoctets : separated false octets (chain (g :: more) ++ rest) = none := by
      simp [htext, separated, expect_cons, octets_toDigits g.toNat hstops hdot]
    have hgroup : separated false group (chain (g :: more) ++ rest) = some (g, chain more ++ rest) := by
      simp [htext, separated, expect_cons, group_toDigits g hstops]
    rw [readGroups_succ hoctets hgroup, ih (by simpa using hroom)]

/-- **Groups with colons between them** are read as they are written. -/
theorem readGroups_render {room : Nat} {groups : List UInt16} (hroom : groups.length ≤ room) (h : Ends rest) :
    readGroups room true ((renderGroups groups).toList ++ rest) = ⟨groups, false, rest⟩ := by
  cases groups with
  | nil => exact readGroups_ends room true h
  | cons g more =>
    obtain ⟨room, rfl⟩ : ∃ left, room = left + 1 := ⟨room - 1, by simp at hroom; omega⟩
    obtain ⟨hstops, hdot⟩ := ends_chain more h
    have hoctets : separated true octets (Nat.toDigits 16 g.toNat ++ (chain more ++ rest)) = none :=
      octets_toDigits g.toNat hstops hdot
    have hgroup : separated true group (Nat.toDigits 16 g.toNat ++ (chain more ++ rest)) =
        some (g, chain more ++ rest) :=
      group_toDigits g hstops
    rw [toList_renderGroups, List.append_assoc, readGroups_succ hoctets hgroup,
      readGroups_chain (by simpa using hroom) h]

/-! ## Zeros that are left out -/

/-- **The run that is left out** consists of zeros. -/
theorem longestZeroRun_spec (i : Nat) (groups : List UInt16) :
    ∃ before after, groups = before ++ List.replicate (longestZeroRun i groups).2 0 ++ after ∧
      (longestZeroRun i groups).1 = i + before.length := by
  induction groups generalizing i with
  | nil => exact ⟨[], [], rfl, rfl⟩
  | cons g rest ih =>
    unfold longestZeroRun
    simp only
    split
    · obtain ⟨before, after, hrest, hstart⟩ := ih (i + 1)
      refine ⟨g :: before, after, congrArg (g :: ·) hrest, ?_⟩
      rw [hstart, List.length_cons]
      omega
    · have hzeros : (g :: rest).takeWhile (· == 0) = List.replicate (zeroRun (g :: rest)) 0 :=
        List.eq_replicate_iff.2 ⟨rfl, fun zero hzero => by
          simpa using List.all_eq_true.1 List.all_takeWhile zero hzero⟩
      refine ⟨[], (g :: rest).dropWhile (· == 0), ?_, rfl⟩
      rw [List.nil_append, ← hzeros, List.takeWhile_append_dropWhile]

/-- **Two parts with zeros between them** are all groups. -/
theorem fill_eq {front back : List UInt16} {groups : Vector UInt16 8} {zeros : Nat}
    (h : groups.toList = front ++ List.replicate zeros 0 ++ back) : fill front back = groups := by
  have hlength := congrArg List.length h
  simp only [Vector.length_toList, List.length_append, List.length_replicate] at hlength
  refine Vector.ext fun i hi => ?_
  have hget : groups[i] = groups.toList.getD i 0 := by
    rw [List.getD_eq_getElem?_getD, List.getElem?_eq_getElem (by simpa using hi)]
    simp
  rw [hget, h]
  simp only [fill, Vector.getElem_ofFn]
  split
  · rename_i hback
    rw [List.getD_append _ _ _ _ (by simp; omega)]
    by_cases hfront : i < front.length
    · rw [List.getD_append _ _ _ _ hfront]
    · rw [List.getD_append_right _ _ _ _ (by omega), List.getD_eq_default _ _ (by omega),
        List.getD_replicate 0 (by omega)]
  · rename_i hback
    rw [List.getD_append_right _ _ _ _ (by simp; omega)]
    congr 1
    simp
    omega

/-! ## IPv6 addresses -/

/-- A group is put together from its two bytes. -/
theorem groupOf_eq (g : UInt16) : groupOf (g / 256).toUInt8 g.toUInt8 = g := by
  have hlt : g.toNat < 65536 := g.toNat_lt
  apply UInt16.toNat_inj.1
  simp [groupOf]
  omega

/-- An address in two parts, with two colons between them. -/
theorem ipv6_of_parts {text between : List Char} {front : List UInt16} {back : Groups}
    (hfront : readGroups 8 true text = ⟨front, false, ':' :: ':' :: between⟩) (hshort : front.length ≠ 8)
    (hback : readGroups (7 - front.length) true between = back) :
    ipv6 text = some (fill front back.groups, back.rest) := by
  simp [ipv6, hfront, hshort, expect_cons, hback]

/-- **Groups with two of them as octets** are read as they are written. -/
theorem ipv6_mapped {groups : Vector UInt16 8} {a b : UInt16} (hgroups : groups.toList = [0, 0, 0, 0, 0, 0xffff, a, b])
    (h : Stops Char.isDigit rest) :
    ipv6 (("::ffff:" ++ renderOctets [(a / 256).toUInt8, a.toUInt8, (b / 256).toUInt8, b.toUInt8]).toList ++ rest) =
      some (groups, rest) := by
  have hfirst : Nat.toDigits 16 (0xffff : UInt16).toNat = "ffff".toList := by decide
  have htext : ("::ffff:" ++ renderOctets [(a / 256).toUInt8, a.toUInt8, (b / 256).toUInt8, b.toUInt8]).toList ++ rest =
      ':' :: ':' :: (Nat.toDigits 16 (0xffff : UInt16).toNat ++
        ':' :: ((renderOctets [(a / 256).toUInt8, a.toUInt8, (b / 256).toUInt8, b.toUInt8]).toList ++ rest)) := by
    rw [hfirst, String.toList_append]
    rfl
  rw [htext]
  generalize htail :
    ':' :: ((renderOctets [(a / 256).toUInt8, a.toUInt8, (b / 256).toUInt8, b.toUInt8]).toList ++ rest) = tail
  have hcolon : Stops Hex.isDigit tail ∧ tail.head? ≠ some '.' := htail ▸ ⟨stops_cons (by decide) _, by simp⟩
  have hfront := readGroups_ends 8 true (ends_colons (Nat.toDigits 16 (0xffff : UInt16).toNat ++ tail))
  have hoctets : separated false octets tail =
      some (#v[(a / 256).toUInt8, a.toUInt8, (b / 256).toUInt8, b.toUInt8], rest) := by
    simp [← htail, separated, expect_cons, octets_render _ _ _ _ h]
  have hlast : readGroups 6 false tail = ⟨[a, b], true, rest⟩ := by
    simp [readGroups, hoctets, groupsOfOctets, groupOf_eq]
  have hnone : separated true octets (Nat.toDigits 16 (0xffff : UInt16).toNat ++ tail) = none :=
    octets_toDigits _ hcolon.1 hcolon.2
  have hgroup : separated true group (Nat.toDigits 16 (0xffff : UInt16).toNat ++ tail) = some (0xffff, tail) :=
    group_toDigits 0xffff hcolon.1
  have hback : readGroups 7 true (Nat.toDigits 16 (0xffff : UInt16).toNat ++ tail) = ⟨[0xffff, a, b], true, rest⟩ := by
    rw [readGroups_succ hnone hgroup, hlast]
  have hfill : fill [] [0xffff, a, b] = groups :=
    fill_eq (hgroups.trans (show _ = [] ++ List.replicate 5 0 ++ _ from rfl))
  rw [ipv6_of_parts hfront (by decide) hback, hfill]

/-- **The groups of an address** are read as they are written. -/
theorem ipv6_render (groups : Vector UInt16 8) (h : Ends rest) :
    ipv6 ((renderIpv6 groups.toList).toList ++ rest) = some (groups, rest) := by
  unfold renderIpv6
  split
  · rename_i octets hmapped
    unfold mappedOctets? at hmapped
    split at hmapped
    · rename_i a b hgroups
      obtain rfl := Option.some.inj hmapped
      exact ipv6_mapped hgroups (stops_digit h.stops)
    · simp at hmapped
  · obtain ⟨before, after, hgroups, hstart⟩ := longestZeroRun_spec 0 groups.toList
    rcases hrun : longestZeroRun 0 groups.toList with ⟨start, length⟩
    rw [hrun] at hgroups hstart
    simp only [Nat.zero_add] at hgroups hstart
    subst hstart
    have hlength := congrArg List.length hgroups
    simp only [Vector.length_toList, List.length_append, List.length_replicate] at hlength
    simp only
    split
    · rename_i hlong
      have hbefore : groups.toList.take before.length = before := by simp [hgroups]
      have hafter : groups.toList.drop (before.length + length) = after := by
        rw [hgroups]
        exact List.drop_left' (by simp)
      have htext : (renderGroups before ++ "::" ++ renderGroups after).toList ++ rest =
          (renderGroups before).toList ++ ':' :: ':' :: ((renderGroups after).toList ++ rest) := by simp
      have hfront : readGroups 8 true ((renderGroups before).toList ++ _) = _ :=
        readGroups_render (by omega) (ends_colons ((renderGroups after).toList ++ rest))
      have hback : readGroups (7 - before.length) true ((renderGroups after).toList ++ rest) = _ :=
        readGroups_render (by omega) h
      have hne : before.length ≠ 8 := by omega
      rw [hbefore, hafter, htext]
      rw [ipv6_of_parts hfront hne hback, fill_eq hgroups]
    · have hall : readGroups 8 true ((renderGroups groups.toList).toList ++ rest) = _ :=
        readGroups_render (by simp) h
      have hfill : fill groups.toList [] = groups := fill_eq (show _ = _ ++ List.replicate 0 0 ++ [] by simp)
      simp [ipv6, hall, hfill]

/-! ## Scopes and ports -/

/-- The scope of an address is read as it is written, and a missing one is 0. -/
theorem scope_render (s : UInt32) (rest : List Char) :
    scope ((if s = 0 then "" else "%" ++ toString s.toNat).toList ++ ']' :: rest) = some (s, ']' :: rest) := by
  split
  · rename_i hzero
    rw [hzero]
    rfl
  · have hle : s.toNat ≤ 4294967295 := by
      have hlt : s.toNat < 4294967296 := s.toNat_lt
      omega
    have hbracket : Stops Char.isDigit (']' :: rest) := stops_cons (by decide) rest
    simp [scope, number_toDigits hle hbracket]

/-- The port is read as it is written. -/
theorem port_render (p : UInt16) : port (':' :: Nat.toDigits 10 p.toNat) = some (p, []) := by
  have hle : p.toNat ≤ 65535 := by
    have hlt : p.toNat < 65536 := p.toNat_lt
    omega
  have hnumber := number_toDigits hle (stops_nil Char.isDigit)
  rw [List.append_nil] at hnumber
  simp [port, expect_cons, hnumber]

/-- **What is written of an address is read as that address.** -/
theorem ofString?_render (address : SocketAddress) : ofString? address.render = some address := by
  cases address with
  | v4 o p =>
    obtain ⟨a, b, c, d, rfl⟩ := exists_octets o
    have hcolon : Stops Char.isDigit (':' :: Nat.toDigits 10 p.toNat) := stops_cons (by decide) _
    have hread := octets_render a b c d hcolon
    have htext : (render (.v4 #v[a, b, c, d] p)).toList =
        (renderOctets [a, b, c, d]).toList ++ ':' :: Nat.toDigits 10 p.toNat := by
      simp [render, Vector.toList]
    simp [ofString?, readV4, htext, hread, port_render]
  | v6 groups s p =>
    generalize htext : (render (.v6 groups s p)).toList = text
    have hsplit : text = '[' :: ((renderIpv6 groups.toList).toList ++
        ((if s = 0 then "" else "%" ++ toString s.toNat).toList ++ ']' :: ':' :: Nat.toDigits 10 p.toNat)) := by
      rw [← htext]
      simp [render]
    have hends :
        Ends ((if s = 0 then "" else "%" ++ toString s.toNat).toList ++ ']' :: ':' :: Nat.toDigits 10 p.toNat) := by
      split
      · exact ends_cons (by decide) (by decide) (by decide) _
      · rw [String.toList_append]
        exact ends_cons (by decide) (by decide) (by decide) _
    have hnone : readV4 text = none := by
      rw [hsplit]
      have hbracket (rest : List Char) : Stops Char.isDigit ('[' :: rest) := stops_cons (by decide) rest
      simp [readV4, octets_of_stops (hbracket _)]
    have hread : readV6 text = some (.v6 groups s p, []) := by
      rw [hsplit]
      simp only [readV6, expect_cons, ipv6_render groups hends, scope_render s, port_render, Option.bind_eq_bind,
        Option.bind_some, Option.pure_def]
    simp [ofString?, htext, hnone, hread]

end SocketAddress
end Cashpoint
