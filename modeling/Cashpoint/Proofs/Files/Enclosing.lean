/-
# The folder of a path

A path with text put at its end names something in the folder that its text up to the
last slash stands for (`append_eq_join`). The directories on the way to the path are
beginnings of that folder: they take the first steps of it and no others
(`steps_prefix_of_mem_enclosing`), from the same start.
-/

import Cashpoint.Proofs.Files.Inside

namespace Cashpoint
namespace Path

/-- The text up to the last slash, and with it. -/
def folder (p : Path) : Path := ⟨String.ofList (p.text.toList.reverse.dropWhile (· ≠ '/')).reverse⟩

/-- The text after the last slash. -/
def lastPiece (p : Path) : String := String.ofList (p.text.toList.reverse.takeWhile (· ≠ '/')).reverse

variable {p q : Path}

/-- A path is its folder and its last piece. -/
theorem toList_folder_append (p : Path) : p.folder.text.toList ++ p.lastPiece.toList = p.text.toList := by
  rw [folder, lastPiece, String.toList_ofList, String.toList_ofList, ← List.reverse_append,
    List.takeWhile_append_dropWhile, List.reverse_reverse]

/-- There is no slash in the last piece. -/
theorem noSlash_lastPiece (p : Path) : '/' ∉ p.lastPiece.toList := by
  rw [lastPiece, String.toList_ofList, List.mem_reverse]
  intro hmem
  simpa using List.all_eq_true.1 List.all_takeWhile _ hmem

/-- A folder is empty, or it ends in a slash. -/
theorem folder_cases (p : Path) : p.folder.text = "" ∨ ∃ front, p.folder.text.toList = front ++ ['/'] := by
  cases hrest : p.text.toList.reverse.dropWhile (· ≠ '/') with
  | nil => exact Or.inl (by rw [folder, hrest]; rfl)
  | cons c rest =>
    have hhead := List.head?_dropWhile_not (fun c : Char => decide (c ≠ '/')) p.text.toList.reverse
    rw [hrest] at hhead
    obtain rfl : c = '/' := by simpa using hhead
    exact Or.inr ⟨rest.reverse, by rw [folder, String.toList_ofList, hrest, List.reverse_cons]⟩

/-- **A path with text at its end** names something in its folder. -/
theorem append_eq_join (p : Path) (ending : String) : p.append ending = p.folder.join (p.lastPiece ++ ending) := by
  have htext : p.text = p.folder.text ++ p.lastPiece :=
    String.toList_injective (by rw [String.toList_append, toList_folder_append])
  unfold append join
  split
  · rename_i hempty
    rw [htext, hempty, String.empty_append]
  · rename_i hne
    rcases p.folder_cases with hempty | ⟨front, hfront⟩
    · exact absurd hempty hne
    · rw [if_pos (by simp [endsInSlash, hfront]), ← String.append_assoc, ← htext]

/-- Text with no slash in it, and longer than the dots are, makes a name. -/
theorem isName_lastPiece_append (p : Path) {ending : String} (hslash : '/' ∉ ending.toList)
    (hlong : 3 ≤ ending.toList.length) : IsName (p.lastPiece ++ ending) := by
  have hshort {short : String} (hlength : short.toList.length < 3) : p.lastPiece ++ ending ≠ short := by
    rintro rfl
    rw [String.toList_append, List.length_append] at hlength
    omega
  refine ⟨?_, hshort (by decide), hshort (by decide), hshort (by decide)⟩
  rw [String.toList_append, List.mem_append, not_or]
  exact ⟨p.noSlash_lastPiece, hslash⟩

/-- The folder of a path starts where the path does. -/
theorem isAbsolute_folder (p : Path) : p.folder.isAbsolute = p.isAbsolute := by
  rw [isAbsolute, isAbsolute, ← toList_folder_append p]
  cases hfolder : p.folder.text.toList with
  | cons c rest => rfl
  | nil =>
    have hne : p.lastPiece.toList.head? ≠ some '/' := fun h => p.noSlash_lastPiece (List.mem_of_head? h)
    simpa using hne

/-- **The steps to the folder** are those of all pieces but the last. -/
theorem steps_folder (p : Path) : p.folder.steps = (p.pieces.dropLast.filter (· ≠ "")).map Step.ofPiece := by
  have hlast : p.lastPiece.toList.splitOn '/' = [p.lastPiece.toList] := List.splitOn_eq_singleton p.noSlash_lastPiece
  rw [steps, pieces, pieces, ← toList_folder_append p]
  rcases p.folder_cases with hempty | ⟨front, hfront⟩
  · rw [hempty]
    simp [hlast]
  · rw [hfront, List.append_assoc, List.singleton_append, List.splitOn_append_cons_self, List.splitOn_append_cons_self,
      hlast]
    simp

/-! ## The directories on the way -/

/-- A path is put together from its pieces. -/
theorem ofPieces_pieces (p : Path) : ofPieces p.pieces = p := by
  obtain ⟨text⟩ := p
  rw [ofPieces, Path.mk.injEq]
  apply String.toList_injective
  rw [String.toList_intercalate, pieces, List.map_map]
  simp [Function.comp_def]

/-- A beginning of a path ends in a piece that moves. -/
theorem of_mem_beginnings {back : List String} (h : q ∈ beginnings back) :
    ∃ front piece more, back.reverse = front ++ piece :: more ∧ isMove piece = true ∧
      q = ofPieces (front ++ [piece]) := by
  induction back with
  | nil => simp [beginnings] at h
  | cons last before ih =>
    have hlater (h : q ∈ beginnings before) : ∃ front piece more, (last :: before).reverse = front ++ piece :: more ∧
        isMove piece = true ∧ q = ofPieces (front ++ [piece]) := by
      obtain ⟨front, piece, more, hback, hmove, hq⟩ := ih h
      exact ⟨front, piece, more ++ [last], by rw [List.reverse_cons, hback]; simp, hmove, hq⟩
    unfold beginnings at h
    split at h
    · rename_i hmove
      rcases List.mem_cons.1 h with rfl | h
      · exact ⟨before.reverse, last, [], by simp, hmove, by simp⟩
      · exact hlater h
    · exact hlater h

/-- A directory on the way ends in a step that moves, and something comes after it. -/
theorem of_mem_enclosing (h : q ∈ p.enclosing) :
    ∃ front piece more, p.pieces = front ++ piece :: more ∧ more ≠ [] ∧ isMove piece = true ∧
      q = ofPieces (front ++ [piece]) := by
  cases hback : p.pieces.reverse with
  | nil => simp [enclosing, hback, beginnings] at h
  | cons last before =>
    have hmem : q ∈ beginnings before := by
      rw [enclosing, hback, beginnings] at h
      split at h
      · exact h
      · exact List.mem_of_mem_tail h
    obtain ⟨front, piece, more, hbefore, hmove, hq⟩ := of_mem_beginnings hmem
    refine ⟨front, piece, more ++ [last], ?_, by simp, hmove, hq⟩
    rw [← List.reverse_reverse p.pieces, hback, List.reverse_cons, hbefore]
    simp

/-- Pieces are joined with a slash between them, however they are grouped. -/
theorem toList_ofPieces_append {front more : List String} (hfront : front ≠ []) (hmore : more ≠ []) :
    (ofPieces (front ++ more)).text.toList = (ofPieces front).text.toList ++ '/' :: (ofPieces more).text.toList := by
  rw [ofPieces, String.intercalate_append_of_ne_nil hfront hmore]
  simp [ofPieces]

/-- A piece that moves is not empty. -/
theorem ne_empty_of_isMove {piece : String} (h : isMove piece = true) : piece ≠ "" := by
  rintro rfl
  simp [isMove] at h

/-- A path that ends in a piece with some text is not empty. -/
theorem text_ofPieces_concat_ne {piece : String} (hpiece : piece ≠ "") (front : List String) :
    (ofPieces (front ++ [piece])).text ≠ "" := by
  intro hempty
  by_cases hfront : front = []
  · subst hfront
    exact hpiece (by simpa [ofPieces] using hempty)
  · have hjoined := toList_ofPieces_append hfront (List.cons_ne_nil piece [])
    rw [hempty] at hjoined
    simp at hjoined

/-- The pieces that a path is made of, if none of them has a slash in it. -/
theorem pieces_ofPieces {parts : List String} (hne : parts ≠ []) (hslash : ∀ part ∈ parts, '/' ∉ part.toList) :
    (ofPieces parts).pieces = parts := by
  rw [pieces, ofPieces, String.toList_intercalate]
  have hsplit : (['/'].intercalate (parts.map String.toList)).splitOn '/' = parts.map String.toList :=
    List.splitOn_intercalate '/' (by simpa using hslash) (by simpa using hne)
  rw [show "/".toList = ['/'] from rfl, hsplit, List.map_map]
  simp [Function.comp_def]

/-- There is no slash between slashes. -/
theorem noSlash_of_mem_splitOn {text part : List Char} (h : part ∈ text.splitOn '/') : '/' ∉ part := by
  induction text generalizing part with
  | nil =>
    obtain rfl : part = [] := by simpa using h
    simp
  | cons c rest ih =>
    rw [List.splitOn_cons_eq_if_modifyHead] at h
    split at h
    · rcases List.mem_cons.1 h with rfl | h
      · simp
      · exact ih h
    · rename_i hc
      cases hrest : rest.splitOn '/' with
      | nil => simp [hrest] at h
      | cons first more =>
        rw [hrest, List.modifyHead_cons, List.mem_cons] at h
        rcases h with rfl | h
        · rw [beq_iff_eq] at hc
          rw [List.mem_cons, not_or]
          exact ⟨Ne.symm hc, ih (by simp [hrest])⟩
        · exact ih (by simp [hrest, h])

/-- There is no slash in a piece. -/
theorem noSlash_of_mem_pieces {piece : String} (h : piece ∈ p.pieces) : '/' ∉ piece.toList := by
  obtain ⟨part, hpart, rfl⟩ := List.mem_map.1 h
  rw [String.toList_ofList]
  exact noSlash_of_mem_splitOn hpart

/-- A directory on the way is a beginning of the text before a slash. -/
theorem toList_of_mem_enclosing (h : q ∈ p.enclosing) :
    q.text ≠ "" ∧ ∃ rest, p.text.toList = q.text.toList ++ '/' :: rest := by
  obtain ⟨front, piece, more, hpieces, hmore, hmove, rfl⟩ := of_mem_enclosing h
  constructor
  · exact text_ofPieces_concat_ne (ne_empty_of_isMove hmove) front
  · refine ⟨(ofPieces more).text.toList, ?_⟩
    have htext : p = ofPieces ((front ++ [piece]) ++ more) := by
      rw [← ofPieces_pieces p, hpieces, List.append_assoc, List.singleton_append]
    rw [htext, toList_ofPieces_append (by simp) hmore]

/-- The directories on the way to a path start where its folder does. -/
theorem isAbsolute_of_mem_enclosing (h : q ∈ p.enclosing) : q.isAbsolute = p.folder.isAbsolute := by
  obtain ⟨hne, rest, hrest⟩ := toList_of_mem_enclosing h
  rw [isAbsolute_folder, isAbsolute, isAbsolute, hrest]
  cases hq : q.text.toList with
  | nil => exact absurd (String.toList_eq_nil_iff.1 hq) hne
  | cons c _ => rfl

/-- **A directory on the way takes the first steps to the folder.** -/
theorem steps_prefix_of_mem_enclosing (h : q ∈ p.enclosing) : q.steps <+: p.folder.steps := by
  obtain ⟨-, rest, hrest⟩ := toList_of_mem_enclosing h
  have hpieces : p.pieces = q.pieces ++ (rest.splitOn '/').map String.ofList := by
    rw [pieces, hrest, List.splitOn_append_cons_self, List.map_append]
    rfl
  rw [steps_folder, hpieces, List.dropLast_append_of_ne_nil (by simp), List.filter_append, List.map_append]
  exact List.prefix_append _ _

end Path
end Cashpoint
