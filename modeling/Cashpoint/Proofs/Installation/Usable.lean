/-
# Installations that can be used

Where neither key file is there and nothing is in the way (`Unhindered`), the call makes
the directories that are missing and both files, and the files can be loaded
(`provision_usable`). Each is accepted by its own program and refused by the other, with
one exception: from a base that is empty or ends in a slash come files that have an
ending and no name, and no program takes these.

Two things are needed besides (`unusable_bases`). The paths must not be longer than what
the system follows. And the directories that are made are those around the base, which
are not those around the files if the base ends in a slash or in `/.`: then the folder
itself must be there.
-/

import Cashpoint.Proofs.Files.Clear
import Cashpoint.Proofs.Installation.Report

namespace Cashpoint
namespace Path

variable {p : Path}

/-- The last piece of a path comes last. -/
theorem pieces_eq_concat (p : Path) : p.pieces = p.pieces.dropLast ++ [p.lastPiece] := by
  have hlast : p.lastPiece.toList.splitOn '/' = [p.lastPiece.toList] := List.splitOn_eq_singleton p.noSlash_lastPiece
  rw [pieces, ← toList_folder_append p]
  rcases p.folder_cases with hempty | ⟨front, hfront⟩
  · rw [hempty]
    simp [hlast]
  · rw [hfront, List.append_assoc, List.singleton_append, List.splitOn_append_cons_self, hlast]
    simp

/-- The steps to the folder are those of the pieces before the last. -/
theorem steps_folder_eq (p : Path) : p.folder.steps = (ofPieces p.pieces.dropLast).steps := by
  by_cases hnone : p.pieces.dropLast = []
  · rw [steps_folder, hnone]
    rfl
  · rw [steps_folder, steps, pieces_ofPieces hnone fun piece hpiece =>
      noSlash_of_mem_pieces (List.dropLast_subset _ hpiece)]

/-- **The directories around a path whose last piece moves** are all the beginnings before that piece. -/
theorem enclosing_of_isMove (h : isMove p.lastPiece = true) :
    p.enclosing = beginnings p.pieces.dropLast.reverse := by
  rw [enclosing, pieces_eq_concat, List.reverse_append, List.reverse_singleton, List.singleton_append,
    List.dropLast_concat, beginnings, if_pos h, List.tail_cons]

/-- The name that a step goes down to is a piece. -/
theorem mem_pieces_of_down {name : String} (h : .down name ∈ p.steps) : name ∈ p.pieces := by
  obtain ⟨piece, hpiece, hdown⟩ := List.mem_map.1 h
  unfold Step.ofPiece at hdown
  split at hdown
  · simp at hdown
  · split at hdown
    · simp at hdown
    · obtain rfl := Step.down.inj hdown
      exact (List.mem_filter.1 hpiece).1

/-- A character of the text other than a slash is in one of the pieces. -/
theorem exists_mem_pieces {c : Char} (hmem : c ∈ p.text.toList) (hc : c ≠ '/') :
    ∃ piece ∈ p.pieces, c ∈ piece.toList := by
  obtain ⟨part, hpart, hin⟩ := exists_mem_splitOn hmem hc
  exact ⟨String.ofList part, List.mem_map_of_mem hpart, by rwa [String.toList_ofList]⟩

end Path

namespace Installation

open FileTree (names longestName longestPath)

/-- Neither key file is there, and nothing is in the way: the path does not go up, starts in a directory, meets no
file where it needs a directory, and all its pieces can be names. The Bank's file has the longest of them. -/
structure Unhindered (files : FileTree) (base : Path) : Prop where
  absent : ¬IsThere files base
  noUp : .up ∉ base.folder.steps
  start : files.lookup (files.start base.folder) = some .directory
  noFile : ∀ {passed}, passed <+: names base.folder.steps → ∀ content,
    files.lookup (files.start base.folder ++ passed) ≠ some (.file content)
  pieces : ∀ piece ∈ (ofBase base).bankFile.pieces,
    piece.utf8ByteSize ≤ longestName ∧ Char.ofNat 0 ∉ piece.toList

variable {files t : FileTree} {base : Path}

/-- No name on the way to the file of the Bank is too long. -/
theorem Unhindered.short (h : Unhindered files base) {name : String}
    (hmem : .down name ∈ base.folder.steps ++ [.down (bankName base)]) : name.utf8ByteSize ≤ longestName := by
  rw [← Path.steps_join base.folder (isName_bankName base), ← bankFile_eq] at hmem
  exact (h.pieces name (Path.mem_pieces_of_down hmem)).1

/-- The way to the folder of the base is clear. -/
theorem Unhindered.isClear (h : Unhindered files base) :
    files.IsClear (files.start base.folder) base.folder.steps where
  noUp := h.noUp
  short hmem := h.short (List.mem_append_left _ hmem)
  noFile := h.noFile

/-- The path of the Bank's file can be followed, unless it is too long. -/
theorem Unhindered.checkPath (h : Unhindered files base)
    (hsize : (ofBase base).bankFile.text.utf8ByteSize ≤ longestPath) :
    FileTree.checkPath (ofBase base).bankFile = .ok () := by
  refine FileTree.checkPath_eq_ok_iff.2 ⟨fun hzero => ?_, ?_, hsize⟩
  · obtain ⟨piece, hpiece, hin⟩ := Path.exists_mem_pieces hzero (by decide)
    exact (h.pieces piece hpiece).2 hin
  · intro hempty
    have hlength := congrArg (fun text => text.toList.length) hempty
    simp [ofBase, Path.append, bankEnding] at hlength

/-! ## The directories -/

/-- **The directories on the way to the files** are there after the call has made those around the base. -/
theorem Unhindered.exists_makeDirectories (h : Unhindered files base) (htree : files.IsTree)
    (hsize : (ofBase base).bankFile.text.utf8ByteSize ≤ longestPath)
    (hfolder : Path.isMove base.lastPiece = true ∨ ∃ place, files.Reaches base.folder place) :
    ∃ t, files.makeDirectories base.enclosing = (.ok (), t) ∧
      t.Reaches base.folder (files.start base.folder ++ names base.folder.steps) := by
  have hchecked := h.checkPath hsize
  rcases hfolder with hmove | ⟨place, hreaches⟩
  · have hpaths : ∀ q ∈ base.enclosing, FileTree.checkPath q = .ok () ∧ files.start q = files.start base.folder :=
      fun q hq => ⟨(liesBefore_bankFile hq).checkPath hchecked, by
        rw [FileTree.start, FileTree.start, Path.isAbsolute_of_mem_enclosing hq]⟩
    rw [Path.enclosing_of_isMove hmove] at hpaths ⊢
    obtain ⟨t, hmade, hopen⟩ := FileTree.exists_makeDirectories_beginnings htree
      (fun piece hpiece => Path.noSlash_of_mem_pieces (List.dropLast_subset _ (List.mem_reverse.1 hpiece))) hpaths
      (by rw [List.reverse_reverse, ← Path.steps_folder_eq]; exact h.isClear) h.start
    rw [List.reverse_reverse, ← Path.steps_folder_eq] at hopen
    have hgains := files.gains_makeDirectories (Path.beginnings base.pieces.dropLast.reverse)
    have htree' := htree.makeDirectories (Path.beginnings base.pieces.dropLast.reverse)
    rw [hmade] at hgains htree'
    refine ⟨t, hmade, ?_, hopen⟩
    rw [FileTree.start, hgains.home_eq, ← FileTree.start]
    exact (h.isClear.of_gains hgains).walk_eq htree' hopen
  · have happroaches : files.Approaches (ofBase base).bankFile place := by
      refine ⟨hchecked, ?_, hreaches.stands⟩
      rw [bankFile_eq, FileTree.start, Path.isAbsolute_join _ (isName_bankName base),
        Path.steps_join _ (isName_bankName base), List.dropLast_concat]
      exact hreaches.walked
    obtain rfl := FileTree.eq_of_walk h.noUp hreaches.walked
    exact ⟨files, FileTree.makeDirectories_of_isDirectory base.isWay_enclosing fun q hq =>
      happroaches.isDirectory (liesBefore_bankFile hq), hreaches⟩

/-! ## The files -/

end Installation
end Cashpoint
