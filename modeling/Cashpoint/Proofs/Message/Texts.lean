/-
# The texts of messages

The two parties write and read messages apart from each other. What one writes the
other reads back, and here it is told which other texts are read as that message: for a
request those with the same words, for a response those with blanks at the end, and for
both those with more zeros before the amount (`Request.ofString?_eq_some_iff`,
`Response.ofString?_eq_some_iff`). So no message has more than the one meaning, and what
is read is always a message that could have been written.

The Bank answers a request of the ATM by a response that the ATM takes for an answer, as
no balance is ever negative (`Bank.messages_understood`).
-/

import Cashpoint.Proofs.Amount.Digits
import Cashpoint.Proofs.Ledger.Calls

namespace Cashpoint

/-! ## Requests -/

namespace Request

/-- The line that stands for a request, with more zeros before its amount. -/
def renderPadded (zeros : Nat) : Request → String
  | withdraw user amount => "withdraw " ++ user ++ " " ++ amount.renderPadded zeros
  | request => request.render

/-- The words of that line. -/
def words (zeros : Nat) : Request → List String
  | beginSession user => ["begin-session", user]
  | withdraw user amount => ["withdraw", user, amount.renderPadded zeros]
  | balance user => ["balance", user]

variable {request : Request}

/-- A request with leading zeros is written in words with a blank between them. -/
theorem renderPadded_eq (zeros : Nat) (request : Request) :
    request.renderPadded zeros = " ".intercalate (request.words zeros) := by
  cases request <;> rfl

/-- The words of a request are those it is written in. -/
theorem words_renderPadded (h : request.WellFormed) (zeros : Nat) :
    Text.words (request.renderPadded zeros) = request.words zeros := by
  have hu : Text.IsWord request.user := Credential.isWord_userName h.userName
  rw [renderPadded_eq]
  refine Text.words_line ?_
  cases request with
  | beginSession user | balance user =>
    exact List.forall_mem_cons.2 ⟨by decide, List.forall_mem_singleton.2 hu⟩
  | withdraw user amount =>
    have hamount := (Amount.spells_renderPadded h.2 zeros).isWord
    exact List.forall_mem_cons.2 ⟨by decide, List.forall_mem_cons.2 ⟨hu, List.forall_mem_singleton.2 hamount⟩⟩

/-- The words that are read as a request. -/
theorem ofWords?_eq_some_iff (h : request.WellFormed) {ws : List String} :
    ofWords? ws = some request ↔ ∃ zeros, ws = request.words zeros := by
  constructor
  · intro hws
    unfold ofWords? at hws
    split at hws
    · obtain rfl := Option.some.inj hws
      exact ⟨0, rfl⟩
    · obtain ⟨amount, hamount, rfl⟩ := Option.map_eq_some_iff.1 hws
      obtain ⟨zeros, rfl⟩ :=
        (Amount.spells_iff_exists_renderPadded h.2).1 (Amount.ofString?_eq_some_iff.1 hamount)
      exact ⟨zeros, rfl⟩
    · obtain rfl := Option.some.inj hws
      exact ⟨0, rfl⟩
    · simp at hws
  · rintro ⟨zeros, rfl⟩
    cases request with
    | beginSession user | balance user => rfl
    | withdraw user amount =>
      rw [words, ofWords?, Amount.ofString?_eq_some_iff.2 (Amount.spells_renderPadded h.2 zeros)]
      rfl

/-- **A request is read from its words**, with any zeros before the amount, and from nothing else. -/
theorem ofString?_eq_some_iff {text : String} : ofString? text = some request ↔
    request.WellFormed ∧ ∃ zeros, Text.words text = Text.words (request.renderPadded zeros) := by
  constructor
  · intro htext
    have h := wellFormed_of_ofString? htext
    obtain ⟨zeros, hzeros⟩ := (ofWords?_eq_some_iff h).1 (Option.filter_eq_some_iff.1 htext).1
    exact ⟨h, zeros, hzeros.trans (words_renderPadded h zeros).symm⟩
  · rintro ⟨h, zeros, hwords⟩
    rw [ofString?, hwords, words_renderPadded h, (ofWords?_eq_some_iff h).2 ⟨zeros, rfl⟩, Option.filter_some,
      if_pos h.userName]

end Request

/-! ## Responses -/

namespace Response

/-- The text of a response, with more zeros before its amount. -/
def renderPadded (zeros : Nat) : Response → String
  | dispensed amount => "$" ++ amount.renderPadded zeros ++ " dispensed"
  | balance amount => "$" ++ amount.renderPadded zeros
  | response => response.render

variable {response : Response}

/-- Cash is written with the leading zeros behind the dollar sign. -/
theorem toList_renderPadded_dispensed (zeros : Nat) (amount : Amount) :
    ((dispensed amount).renderPadded zeros).toList =
      '$' :: ((amount.renderPadded zeros).toList ++ dispensedEnding) :=
  toList_dispensed (amount.renderPadded zeros)

/-- So is a balance. -/
theorem toList_renderPadded_balance (zeros : Nat) (amount : Amount) :
    ((balance amount).renderPadded zeros).toList = '$' :: (amount.renderPadded zeros).toList :=
  toList_balance (amount.renderPadded zeros)

/-- No response with an amount in range has a blank at its end. -/
theorem isBlank_of_getLast?_renderPadded (h : response.InRange) {zeros : Nat} {c : Char}
    (hc : (response.renderPadded zeros).toList.getLast? = some c) : Text.isBlank c = false := by
  cases response with
  | dispensed amount =>
    rw [toList_renderPadded_dispensed, ← List.cons_append, List.getLast?_append] at hc
    obtain rfl : 'd' = c := Option.some.inj hc
    decide
  | balance amount =>
    have hword := (Amount.spells_renderPadded h zeros).isWord
    rw [toList_renderPadded_balance, List.getLast?_cons_of_ne_nil hword.1] at hc
    exact hword.2 c (List.mem_of_getLast? hc)
  | success | noSuchUser | insufficientFunds | invalidCommand =>
    exact (Text.trimEnd_eq_iff.1 (trimEnd_render _)).1 c hc

/-- What follows the dollar sign of a response. -/
theorem eq_renderPadded_of_ofMoney? {text : String} {rest : List Char} (htext : text.toList = '$' :: rest)
    (h : ofMoney? rest = some response) : response.InRange ∧ ∃ zeros, text = response.renderPadded zeros := by
  have hpadded {digits : List Char} {amount : Amount} (hdigits : Amount.ofDigits? digits = some amount) :
      0 ≤ amount.toInt ∧ ∃ zeros, digits = (amount.renderPadded zeros).toList := by
    have hspells : Amount.Spells (String.ofList digits) amount := by
      rw [← Amount.ofString?_eq_some_iff, Amount.ofString?, String.toList_ofList, hdigits]
    obtain ⟨zeros, hzeros⟩ := (Amount.spells_iff_exists_renderPadded hspells.nonneg).1 hspells
    exact ⟨hspells.nonneg, zeros, by rw [← hzeros, String.toList_ofList]⟩
  unfold ofMoney? at h
  split at h
  · rename_i hending
    obtain ⟨digits, rfl⟩ := hending
    rw [List.length_append, Nat.add_sub_cancel, List.take_left] at h
    obtain ⟨amount, hamount, rfl⟩ := Option.map_eq_some_iff.1 h
    obtain ⟨hpos, zeros, rfl⟩ := hpadded hamount
    exact ⟨hpos, zeros, String.toList_injective (by rw [htext, toList_renderPadded_dispensed])⟩
  · obtain ⟨amount, hamount, rfl⟩ := Option.map_eq_some_iff.1 h
    obtain ⟨hpos, zeros, rfl⟩ := hpadded hamount
    exact ⟨hpos, zeros, String.toList_injective (by rw [htext, toList_renderPadded_balance])⟩

/-- A trimmed text is read as a response if it is written so, with any zeros before the amount. -/
theorem ofTrimmed?_eq_some_iff {text : String} : ofTrimmed? text = some response ↔
    response.InRange ∧ ∃ zeros, text = response.renderPadded zeros := by
  constructor
  · intro h
    unfold ofTrimmed? at h
    -- The four responses without an amount, then those that start with a dollar sign.
    repeat' split at h
    · rename_i htext
      obtain rfl := Option.some.inj h
      exact ⟨trivial, 0, htext⟩
    · rename_i htext
      obtain rfl := Option.some.inj h
      exact ⟨trivial, 0, htext⟩
    · rename_i htext
      obtain rfl := Option.some.inj h
      exact ⟨trivial, 0, htext⟩
    · rename_i htext
      obtain rfl := Option.some.inj h
      exact ⟨trivial, 0, htext⟩
    · rename_i htext
      exact eq_renderPadded_of_ofMoney? htext h
    · simp at h
  · rintro ⟨h, zeros, rfl⟩
    cases response with
    | dispensed amount =>
      have hamount := Amount.ofString?_eq_some_iff.2 (Amount.spells_renderPadded h zeros)
      rw [Amount.ofString?] at hamount
      rw [ofTrimmed?_dollar (toList_renderPadded_dispensed zeros amount), ofMoney?,
        if_pos (List.suffix_append _ _), List.length_append, Nat.add_sub_cancel, List.take_left, hamount]
      rfl
    | balance amount =>
      have hspells := Amount.spells_renderPadded h zeros
      have hamount := Amount.ofString?_eq_some_iff.2 hspells
      have hending : ¬ dispensedEnding <:+ (amount.renderPadded zeros).toList := by
        intro hsuffix
        exact absurd (hspells.isWord.2 ' ' (hsuffix.mem (by decide))) (by decide)
      rw [Amount.ofString?] at hamount
      rw [ofTrimmed?_dollar (toList_renderPadded_balance zeros amount), ofMoney?, if_neg hending, hamount]
      rfl
    | success | noSuchUser | insufficientFunds | invalidCommand =>
      have hread := ofString?_render h
      rwa [ofString?, trimEnd_render] at hread

/-- **A response is read from its text**, with any zeros before the amount and any blanks at the end, and from
nothing else. -/
theorem ofString?_eq_some_iff {text : String} : ofString? text = some response ↔
    response.InRange ∧ ∃ zeros gap, (∀ c ∈ gap, Text.isBlank c = true) ∧
      text.toList = (response.renderPadded zeros).toList ++ gap := by
  rw [ofString?, ofTrimmed?_eq_some_iff]
  refine and_congr_right fun h => exists_congr fun zeros => ?_
  rw [Text.trimEnd_eq_iff]
  exact and_iff_right fun c hc => isBlank_of_getLast?_renderPadded h hc

end Response

/-! ## Both parties -/

/-- **The two parties understand each other.** What one writes fits into a frame, and the other reads it back. A
text is read as a request just if it has the words of that request, and as a response just if it is that response
with blanks at the end, up to zeros before the amount. Whatever the ledger went through, the Bank answers each
request by a response that the ATM can read and takes for an answer. -/
theorem Bank.messages_understood :
    (∀ request : Request, request.WellFormed →
      Request.ofString? request.render = some request ∧ (Utf8.encode request.render).length ≤ 1024) ∧
    (∀ response : Response, response.InRange →
      Response.ofString? response.render = some response ∧ (Utf8.encode response.render).length ≤ 1024) ∧
    (∀ text request, Request.ofString? text = some request ↔
      request.WellFormed ∧ ∃ zeros words, Text.Spaced text.toList words ∧
        Text.Spaced (request.renderPadded zeros).toList words) ∧
    (∀ text response, Response.ofString? text = some response ↔
      response.InRange ∧ ∃ zeros gap, (∀ c ∈ gap, Text.isBlank c = true) ∧
        text.toList = (response.renderPadded zeros).toList ++ gap) ∧
    ∀ (turns : List Ledger.Turn) (request : Request), request.WellFormed →
      let response := (respond (Ledger.empty.serveAll turns).2 request).1
      response.answers request = true ∧ response.InRange ∧ response ≠ .invalidCommand := by
  refine ⟨fun request h => ⟨Request.ofString?_render h, ?_⟩, fun response h => ⟨Response.ofString?_render h, ?_⟩,
    fun text request => ?_, fun text response => Response.ofString?_eq_some_iff, fun turns request h => ?_⟩
  · exact Nat.le_trans (Request.length_encode_render_le h) (by decide)
  · exact Nat.le_trans (Response.length_encode_render_le response) (by decide)
  · simp only [Request.ofString?_eq_some_iff, Text.spaced_iff, exists_eq_left']
    exact and_congr_right fun _ => exists_congr fun _ => eq_comm
  · obtain ⟨hin, hanswers, -⟩ := respond_spec (Ledger.inRange_empty.serveAll turns) h
    refine ⟨hanswers, hin, fun hinvalid => ?_⟩
    rw [hinvalid] at hanswers
    cases request <;> simp [Response.answers] at hanswers

/-- A withdrawal with two zeros more and other blanks, its answer with three, and what the Bank says to it. -/
theorem Bank.messages_understood_zeros :
    Request.ofString? "\t withdraw alice\u3000007\n" = some (.withdraw "alice" 7) ∧
      Response.ofString? "$0007 dispensed\r\n" = some (.dispensed 7) ∧
      (respond (Ledger.empty.serveAll [⟨0, .create "alice" 10⟩]).2 (.withdraw "alice" 7)).1.answers
        (.withdraw "alice" 7) = true := by
  obtain ⟨-, -, hrequest, hresponse, hrespond⟩ := messages_understood
  have hwf : (Request.withdraw "alice" 7).WellFormed := ⟨by decide, by decide⟩
  refine ⟨(hrequest _ _).2 ⟨hwf, 2, ["withdraw", "alice", "007"], ?_, ?_⟩,
    (hresponse _ _).2 ⟨show 0 ≤ (7 : Amount).toInt by decide, 3, ['\r', '\n'],
      List.all_eq_true.1 (by decide), by decide⟩, (hrespond _ _ hwf).1⟩
  · exact Text.spaced_iff.2 (by decide)
  · exact Text.spaced_iff.2 (by decide)

end Cashpoint
