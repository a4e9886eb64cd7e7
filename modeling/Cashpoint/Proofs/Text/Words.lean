/-
# Words put together and taken apart

A text put together from words with one blank between each two has those words
(`words_line`), and a text that ends in no blank is its own
trimming (`trimEnd_of_getLast?`, `trimEnd_eq_iff`).

In general the words of a text are the ones that blanks cut it into, in whatever
number and of whatever kind they stand before, between and after them (`Spaced`,
`spaced_iff`).
-/

import Cashpoint.Text.Blank

namespace Cashpoint
namespace Text

/-- A word: some character, and no blank. -/
def IsWord (text : String) : Prop := text.toList ≠ [] ∧ ∀ c ∈ text.toList, isBlank c = false

instance (text : String) : Decidable (IsWord text) :=
  decidable_of_iff (text.toList ≠ [] ∧ (text.toList.all fun c => !isBlank c) = true) (by simp [IsWord])

/-- A word is its only word. -/
theorem words_of_word {text : String} (h : IsWord text) : words text = [text] := by
  have hne : text.toList.isEmpty = false := by simpa using h.1
  rw [words, List.splitOnP_eq_singleton h.2]
  simp [hne]

/-- **The first word comes off.** -/
theorem words_append_blank {first : String} (h : IsWord first) (rest : String) :
    words (first ++ " " ++ rest) = first :: words rest := by
  have hne : first.toList.isEmpty = false := by simpa using h.1
  have hl : (first ++ " " ++ rest).toList = first.toList ++ ' ' :: rest.toList := by
    simp [String.toList_append]
  rw [words, hl, List.splitOnP_append_cons_of_forall_mem h.2 ' ' (by decide)]
  simp [words, hne]

/-- **Words with one blank between each two** are the words of the line. -/
theorem words_line {ws : List String} (h : ∀ w ∈ ws, IsWord w) : words (" ".intercalate ws) = ws := by
  induction ws with
  | nil => rfl
  | cons first rest ih =>
    obtain ⟨hfirst, hrest⟩ := List.forall_mem_cons.1 h
    cases rest with
    | nil => rw [String.intercalate_singleton, words_of_word hfirst]
    | cons second rest => rw [String.intercalate_cons_cons, words_append_blank hfirst, ih hrest]

/-- A text cut into words by blanks: any before, between and after them, and between two at least one. -/
inductive Spaced : List Char → List String → Prop
  | blank {gap : List Char} (hgap : ∀ c ∈ gap, isBlank c = true) : Spaced gap []
  | word {gap rest : List Char} {first : String} {later : List String} (hgap : ∀ c ∈ gap, isBlank c = true)
      (hfirst : IsWord first) (hcut : ∀ c ∈ rest.head?, isBlank c = true) (hrest : Spaced rest later) :
      Spaced (gap ++ first.toList ++ rest) (first :: later)

/-- One more character at the front extends the first word, or stands before it. -/
theorem exists_spaced_cons {c : Char} {rest : List Char} {later : List String} (h : Spaced rest later) :
    ∃ ws, Spaced (c :: rest) ws := by
  by_cases hc : isBlank c = true
  · cases h with
    | blank hgap => exact ⟨[], .blank (List.forall_mem_cons.2 ⟨hc, hgap⟩)⟩
    | word hgap hfirst hcut hrest => exact ⟨_, .word (List.forall_mem_cons.2 ⟨hc, hgap⟩) hfirst hcut hrest⟩
  · have hword {more : List Char} (hmore : ∀ d ∈ more, isBlank d = false) : IsWord (String.ofList (c :: more)) := by
      refine ⟨by simp, ?_⟩
      rw [String.toList_ofList]
      exact List.forall_mem_cons.2 ⟨by simpa using hc, hmore⟩
    have hnew (hcut : ∀ d ∈ rest.head?, isBlank d = true) : ∃ ws, Spaced (c :: rest) ws := by
      have hone := Spaced.word (List.forall_mem_nil _) (hword (List.forall_mem_nil _)) hcut h
      rw [String.toList_ofList] at hone
      exact ⟨_, hone⟩
    cases h with
    | blank hgap => exact hnew fun d hd => hgap d (List.mem_of_head? hd)
    | @word gap after first later hgap hfirst hcut hrest =>
      cases gap with
      | nil =>
        have hlonger := Spaced.word (List.forall_mem_nil _) (hword hfirst.2) hcut hrest
        rw [String.toList_ofList] at hlonger
        exact ⟨_, hlonger⟩
      | cons d gap => exact hnew (by simpa using hgap d List.mem_cons_self)

/-- Every text is cut into words. -/
theorem exists_spaced (chars : List Char) : ∃ ws, Spaced chars ws := by
  induction chars with
  | nil => exact ⟨[], .blank (List.forall_mem_nil _)⟩
  | cons c rest ih =>
    obtain ⟨later, hlater⟩ := ih
    exact exists_spaced_cons hlater

/-- Blanks at the front make no word. -/
theorem words_gap_append {gap : List Char} (hgap : ∀ c ∈ gap, isBlank c = true) (rest : List Char) :
    words (String.ofList (gap ++ rest)) = words (String.ofList rest) := by
  induction gap with
  | nil => rfl
  | cons c gap ih =>
    rw [← ih fun d hd => hgap d (List.mem_cons_of_mem _ hd)]
    simp [words, List.splitOnP_cons_eq_if_modifyHead, hgap c List.mem_cons_self]

/-- The words of a text are those that blanks cut it into. -/
theorem words_of_spaced {chars : List Char} {ws : List String} (h : Spaced chars ws) :
    words (String.ofList chars) = ws := by
  induction h with
  | blank hgap => exact words_of_blank (by simpa using hgap)
  | @word gap rest first later hgap hfirst hcut _ ih =>
    rw [List.append_assoc, words_gap_append hgap, ← ih]
    have hne : first.toList.isEmpty = false := by simpa using hfirst.1
    cases rest with
    | nil =>
      rw [List.append_nil, String.ofList_toList, words_of_word hfirst]
      rfl
    | cons c rest =>
      have hc : isBlank c = true := hcut c rfl
      simp [words, List.splitOnP_append_cons_of_forall_mem hfirst.2 c hc, hne,
        List.splitOnP_cons_eq_if_modifyHead, hc]

/-- **The words of a text are those that its blanks cut it into.** -/
theorem spaced_iff {text : String} {ws : List String} : Spaced text.toList ws ↔ words text = ws := by
  constructor
  · intro h
    rw [← words_of_spaced h, String.ofList_toList]
  · rintro rfl
    obtain ⟨ws, h⟩ := exists_spaced text.toList
    rw [← String.ofList_toList (s := text), words_of_spaced h, String.toList_ofList]
    exact h

/-- Where the letters and digits are. -/
theorem bounds_of_isAlphanum {c : Char} (h : c.isAlphanum = true) :
    48 ≤ c.toNat ∧ c.toNat ≤ 57 ∨ 65 ≤ c.toNat ∧ c.toNat ≤ 90 ∨ 97 ≤ c.toNat ∧ c.toNat ≤ 122 := by
  have hranges : ((decide (c.val ≥ 'A'.val ∧ c.val ≤ 'Z'.val) || (c.val ≥ 'a'.val && c.val ≤ 'z'.val)) ||
      (c.val ≥ '0'.val && c.val ≤ '9'.val)) = true := h
  simp only [Bool.or_eq_true, Bool.and_eq_true, decide_eq_true_eq, ge_iff_le,
    UInt32.le_iff_toNat_le] at hranges
  rcases hranges with (hupper | hlower) | hdigit
  · exact Or.inr (Or.inl hupper)
  · exact Or.inr (Or.inr hlower)
  · exact Or.inl hdigit

/-- Letters and digits are no blanks. -/
theorem isBlank_of_isAlphanum {c : Char} (h : c.isAlphanum = true) : isBlank c = false := by
  have hbounds := bounds_of_isAlphanum h
  rw [isBlank, List.contains_eq_mem, decide_eq_false_iff_not]
  intro hmem
  simp only [blankCodePoints, List.mem_cons, List.not_mem_nil, or_false] at hmem
  omega

/-- A text that does not end in a blank stays as it is. -/
theorem trimEnd_of_getLast? {text : String} (h : ∀ c, text.toList.getLast? = some c → isBlank c = false) :
    trimEnd text = text := by
  have hd : text.toList.reverse.dropWhile isBlank = text.toList.reverse := by
    cases hr : text.toList.reverse with
    | nil => rfl
    | cons c rest =>
      have hc : isBlank c = false := h c (by rw [List.getLast?_eq_head?_reverse, hr]; rfl)
      rw [List.dropWhile_cons, hc]
      simp
  rw [trimEnd, hd, List.reverse_reverse, String.ofList_toList]

/-- **Trimming takes away blanks at the end**, all of them and nothing else. -/
theorem trimEnd_eq_iff {text trimmed : String} :
    trimEnd text = trimmed ↔ (∀ c, trimmed.toList.getLast? = some c → isBlank c = false) ∧
      ∃ gap, (∀ c ∈ gap, isBlank c = true) ∧ text.toList = trimmed.toList ++ gap := by
  constructor
  · rintro rfl
    rw [trimEnd, String.toList_ofList]
    refine ⟨fun c hc => ?_, (text.toList.reverse.takeWhile isBlank).reverse, fun c hc => ?_, ?_⟩
    · rw [List.getLast?_reverse] at hc
      have hhead := List.head?_dropWhile_not isBlank text.toList.reverse
      rw [hc] at hhead
      simpa using hhead
    · exact List.all_eq_true.1 List.all_takeWhile c (List.mem_reverse.1 hc)
    · rw [← List.reverse_append, List.takeWhile_append_dropWhile, List.reverse_reverse]
  · rintro ⟨hlast, gap, hgap, htext⟩
    have hdrop : text.toList.reverse.dropWhile isBlank = trimmed.toList.reverse.dropWhile isBlank := by
      rw [htext, List.reverse_append, List.dropWhile_append_of_pos fun c hc => hgap c (List.mem_reverse.1 hc)]
    rw [← trimEnd_of_getLast? hlast, trimEnd, hdrop, trimEnd]

end Text
end Cashpoint
