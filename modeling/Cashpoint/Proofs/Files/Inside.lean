/-
# Files directly inside a directory

A path that joins a directory and the name of a file takes the steps of the directory
and one more, down to the name (`steps_join`). So if the directory is there, reading and
creating such a file come down to what stands at one location (`read_join`,
`createFile_join`), unless the joined path is too long. A new file leaves the directory
where it was (`Leads.put`).

Of the tree, nothing but the way to the directory and the entry at that one location decides
what such a path leads to (`SameUnder.join_congr`).
-/

import Cashpoint.Files.Tree

namespace Cashpoint

/-- A text that goes down to a name, as a piece of a path. -/
structure IsName (name : String) : Prop where
  noSlash : '/' ∉ name.toList
  ne_empty : name ≠ ""
  ne_dot : name ≠ "."
  ne_dots : name ≠ ".."

/-- A text that can name a file inside a directory. -/
structure IsFileName (name : String) : Prop extends IsName name where
  noZero : Char.ofNat 0 ∉ name.toList
  size_le : name.utf8ByteSize ≤ FileTree.longestName

namespace Path

/-! ## Joined paths -/

/-- The text of a directory without a slash at its end, a slash and the name. -/
theorem toList_join {directory : Path} (hne : directory.text ≠ "") (name : String) :
    ∃ front, directory.text.toList = front ++ (if directory.endsInSlash then ['/'] else []) ∧
      (directory.join name).text.toList = front ++ '/' :: name.toList := by
  unfold join
  rw [if_neg hne]
  by_cases hs : directory.endsInSlash = true
  · rw [if_pos hs, if_pos hs]
    simp only [endsInSlash, beq_iff_eq] at hs
    obtain ⟨front, hfront⟩ := List.getLast?_eq_some_iff.1 hs
    refine ⟨front, hfront, ?_⟩
    rw [String.toList_append, hfront, List.append_assoc]
    rfl
  · rw [if_neg hs, if_neg hs]
    refine ⟨directory.text.toList, (List.append_nil _).symm, ?_⟩
    rw [String.toList_append, String.toList_append, List.append_assoc]
    rfl

/-- The joined path has at least the bytes of both. -/
theorem le_size_join (directory : Path) (name : String) :
    directory.text.utf8ByteSize + name.utf8ByteSize ≤ (directory.join name).text.utf8ByteSize := by
  unfold join
  split
  · rename_i hempty
    rw [hempty]
    simp
  · split
    · exact Nat.le_of_eq (String.utf8ByteSize_append ..).symm
    · rw [String.utf8ByteSize_append, String.utf8ByteSize_append]
      omega

/-- The joined path has at most one byte more than both. -/
theorem size_join_le (directory : Path) (name : String) :
    (directory.join name).text.utf8ByteSize ≤ directory.text.utf8ByteSize + 1 + name.utf8ByteSize := by
  have hslash : "/".utf8ByteSize = 1 := by decide
  unfold join
  split
  · show name.utf8ByteSize ≤ _
    omega
  · split
    · rw [String.utf8ByteSize_append]
      omega
    · exact Nat.le_of_eq (by rw [String.utf8ByteSize_append, String.utf8ByteSize_append, hslash])

/-- Joining to the empty path gives the bare name. -/
theorem join_of_empty {directory : Path} (h : directory.text = "") (name : String) :
    directory.join name = ⟨name⟩ := if_pos h

/-- A name inside a directory is one step more, down to the name. -/
theorem steps_join (directory : Path) {name : String} (hname : IsName name) :
    (directory.join name).steps = directory.steps ++ [.down name] := by
  have hlast : name.toList.splitOn '/' = [name.toList] := List.splitOn_eq_singleton hname.noSlash
  have hpiece : Step.ofPiece name = .down name := by
    rw [Step.ofPiece, if_neg hname.ne_dot, if_neg hname.ne_dots]
  by_cases hempty : directory.text = ""
  · have hnone : directory.steps = [] := by
      rw [steps, pieces, hempty]
      rfl
    rw [join_of_empty hempty, hnone, steps, pieces, hlast]
    simp [hname.ne_empty, hpiece]
  obtain ⟨front, hdirectory, hjoin⟩ := toList_join hempty name
  have hfront : directory.steps = (((front.splitOn '/').map String.ofList).filter (· ≠ "")).map Step.ofPiece := by
    rw [steps, pieces, hdirectory]
    split
    · rw [List.splitOn_append_cons_self]
      simp
    · rw [List.append_nil]
  rw [hfront, steps, pieces, hjoin, List.splitOn_append_cons_self, hlast]
  simp [hname.ne_empty, hpiece]

/-- The joined path starts where the directory does. -/
theorem isAbsolute_join (directory : Path) {name : String} (hname : IsName name) :
    (directory.join name).isAbsolute = directory.isAbsolute := by
  by_cases hne : directory.text = ""
  · have hslash : name.toList.head? ≠ some '/' := fun h => hname.noSlash (List.mem_of_head? h)
    rw [join_of_empty hne, isAbsolute, isAbsolute, hne]
    simpa using hslash
  obtain ⟨front, hdirectory, hjoin⟩ := toList_join hne name
  rw [isAbsolute, isAbsolute, hjoin, hdirectory]
  cases front with
  | cons c rest => rfl
  | nil =>
    by_cases hs : directory.endsInSlash = true
    · rw [if_pos hs]
      rfl
    · rw [if_neg hs] at hdirectory
      exact absurd (String.toList_eq_nil_iff.1 hdirectory) hne

/-- The joined path does not end in a slash. -/
theorem endsInSlash_join (directory : Path) {name : String} (hname : IsName name) :
    (directory.join name).endsInSlash = false := by
  have hnil : name.toList ≠ [] := fun h => hname.ne_empty (String.toList_eq_nil_iff.1 h)
  have hlast : (directory.join name).text.toList.getLast? = name.toList.getLast? := by
    by_cases hne : directory.text = ""
    · rw [join_of_empty hne]
    · obtain ⟨front, -, hjoin⟩ := toList_join hne name
      rw [hjoin, List.getLast?_append, List.getLast?_cons_of_ne_nil hnil]
      exact Option.or_of_isSome (List.getLast?_isSome.2 hnil)
  rw [endsInSlash, hlast]
  cases hl : name.toList.getLast? with
  | none => exact absurd (List.getLast?_eq_none_iff.1 hl) hnil
  | some c =>
    have hc : c ≠ '/' := by
      rintro rfl
      exact hname.noSlash (List.mem_of_getLast? hl)
    simpa using hc

/-! ## Paths of any length -/

/-- The current directory, with slashes after its name. -/
def dotSlashes (n : Nat) : Path := ⟨String.ofList ('.' :: List.replicate n '/')⟩

/-- Between slashes alone there is nothing. -/
theorem splitOn_replicate (n : Nat) : (List.replicate n '/').splitOn '/' = List.replicate (n + 1) [] := by
  induction n with
  | zero => rfl
  | succ n ih =>
    have hsplit := List.splitOn_append_cons_self (a := '/') [] (List.replicate n '/')
    rw [ih] at hsplit
    exact hsplit

/-- The current directory is the current directory, with any slashes after it. -/
theorem steps_dotSlashes {n : Nat} (h : 0 < n) : (dotSlashes n).steps = [.stay] := by
  obtain ⟨m, rfl⟩ : ∃ m, n = m + 1 := ⟨n - 1, by omega⟩
  have hsplit := List.splitOn_append_cons_self (a := '/') ['.'] (List.replicate m '/')
  have hdot : (['.'] : List Char).splitOn '/' = [['.']] := rfl
  have hlist : (dotSlashes (m + 1)).text.toList = ['.'] ++ '/' :: List.replicate m '/' := by
    simp [dotSlashes, List.replicate_succ]
  rw [steps, pieces, hlist, hsplit, hdot, splitOn_replicate]
  simp [Step.ofPiece]

/-- Each slash after it is one byte more. -/
theorem size_dotSlashes (n : Nat) : (dotSlashes n).text.utf8ByteSize = n + 1 := by
  induction n with
  | zero => rfl
  | succ n ih =>
    have htext : (dotSlashes (n + 1)).text = (dotSlashes n).text ++ "/" :=
      String.toList_injective (by simp [dotSlashes, List.replicate_succ'])
    rw [htext, String.utf8ByteSize_append, ih]
    rfl

end Path

namespace FileTree

/-- The path of a name inside a directory can be followed unless it is too long. -/
theorem checkPath_join {directory : Path} (hdirectory : checkPath directory = .ok ()) {name : String}
    (hname : IsFileName name) :
    checkPath (directory.join name) =
      if (directory.join name).text.utf8ByteSize > longestPath then .error .invalidFilename else .ok () := by
  unfold checkPath at hdirectory
  split at hdirectory
  · simp at hdirectory
  · split at hdirectory
    · simp at hdirectory
    · rename_i hzero hne
      obtain ⟨front, hdir, hjoin⟩ := Path.toList_join hne name
      have hzero' : (directory.join name).text.toList.contains (Char.ofNat 0) = false := by
        rw [hdir] at hzero
        rw [hjoin, List.contains_eq_mem, decide_eq_false_iff_not, List.mem_append, List.mem_cons]
        rintro (hfront | hslash | hmem)
        · exact hzero (by simp [hfront])
        · exact absurd hslash (by decide)
        · exact hname.noZero hmem
      have hne' : (directory.join name).text ≠ "" := by
        intro h
        rw [h] at hjoin
        simp at hjoin
      rw [checkPath, if_neg (by rw [hzero']; decide), if_neg hne']

/-! ## A directory that is there -/

/-- The steps of a path lead to a directory at the place. The path may be empty. -/
structure Reaches (t : FileTree) (directory : Path) (place : Location) : Prop where
  walked : t.walk (t.start directory) directory.steps = .ok place
  stands : t.lookup place = some .directory

/-- The path leads to a directory at the place. -/
structure Leads (t : FileTree) (directory : Path) (place : Location) : Prop where
  checked : checkPath directory = .ok ()
  walked : t.walk (t.start directory) directory.steps = .ok place
  stands : t.lookup place = some .directory

variable {t t' : FileTree} {directory : Path} {place : Location}

/-- What a path leads to its steps reach. -/
theorem Leads.reaches (h : t.Leads directory place) : t.Reaches directory place := ⟨h.walked, h.stands⟩

/-- A path that is found to be a directory leads to it. -/
theorem leads_of_resolve (h : t.resolve directory = .ok (place, .directory)) : t.Leads directory place := by
  unfold resolve at h
  cases hc : checkPath directory with
  | error e => simp [hc, bind, Except.bind] at h
  | ok _ =>
    cases hw : t.walk (t.start directory) directory.steps with
    | error e => simp [hc, hw, bind, Except.bind] at h
    | ok reached =>
      cases hl : t.lookup reached with
      | none => simp [hc, hw, hl, bind, Except.bind, throw, throwThe, MonadExceptOf.throw] at h
      | some entry =>
        cases entry with
        | directory =>
          obtain rfl : reached = place := by
            simpa [hc, hw, hl, bind, Except.bind, pure, Except.pure] using h
          exact ⟨hc, hw, hl⟩
        | file content =>
          cases hs : directory.endsInSlash <;>
            simp [hc, hw, hl, hs, bind, Except.bind, pure, Except.pure, throw, throwThe,
              MonadExceptOf.throw] at h

/-- In the empty tree the current directory is the root. -/
theorem leads_here : ({} : FileTree).Leads ⟨"."⟩ [] := leads_of_resolve (by rfl)

/-- Below an empty directory nothing stands. -/
theorem lookup_of_below (h : t.below place = []) (name : String) : t.lookup (place ++ [name]) = none := by
  rw [lookup, if_neg (by simp), Table.get?, Table.find_eq_none_iff]
  intro hmem
  obtain ⟨⟨at', entry⟩, hentry, rfl⟩ := List.mem_map.1 hmem
  have hbelow := List.filterMap_eq_nil_iff.1 h _ hentry
  simp at hbelow

/-- What is reached is a directory. -/
theorem Reaches.requireDirectory (h : t.Reaches directory place) : t.requireDirectory place = .ok () := by
  simp only [FileTree.requireDirectory, h.stands]

/-- A file name can be gone down to. -/
theorem child_fileName {name : String} (hname : IsFileName name) (place : Location) :
    child place name = .ok (place ++ [name]) := by
  rw [child, if_neg (Nat.not_lt.2 hname.size_le)]

/-- A name inside a directory is reached right below the directory. -/
theorem Reaches.walk_join (h : t.Reaches directory place) {name : String} (hname : IsFileName name) :
    t.walk (t.start (directory.join name)) (directory.join name).steps = .ok (place ++ [name]) := by
  have hwalked := h.walked
  rw [start, Path.isAbsolute_join directory hname.toIsName, Path.steps_join directory hname.toIsName]
  unfold walk at hwalked ⊢
  rw [start] at hwalked
  rw [List.foldlM_append, hwalked]
  simp [bind, Except.bind, step, h.requireDirectory, child_fileName hname, pure, Except.pure]

/-- Two trees in which the way to a directory is the same, and where it leads the same stands, also under a
name. -/
structure SameUnder (t t' : FileTree) (directory : Path) (name : String) : Prop where
  walk_eq : t.walk (t.start directory) directory.steps = t'.walk (t'.start directory) directory.steps
  lookup_eq : ∀ folder, t.walk (t.start directory) directory.steps = .ok folder →
    t.lookup folder = t'.lookup folder ∧ t.lookup (folder ++ [name]) = t'.lookup (folder ++ [name])

/-- **What a name inside a directory leads to**, and whether it is free, depends on the way to the directory
and on what stands under that name. -/
theorem SameUnder.join_congr {name : String} (h : t.SameUnder t' directory name) (hname : IsFileName name) :
    t.resolve (directory.join name) = t'.resolve (directory.join name) ∧
      t.vacancy (directory.join name) = t'.vacancy (directory.join name) := by
  have hway := h.walk_eq
  unfold resolve vacancy
  rw [start, start, Path.isAbsolute_join directory hname.toIsName, Path.steps_join directory hname.toIsName,
    List.dropLast_concat, ← start, ← start]
  unfold walk at hway ⊢
  rw [List.foldlM_append, List.foldlM_append, ← hway]
  cases hwalk : directory.steps.foldlM t.step (t.start directory) with
  | error kind => simp [bind, Except.bind]
  | ok folder =>
    obtain ⟨hfolder, hfile⟩ := h.lookup_eq folder hwalk
    have hrequire : t.requireDirectory folder = t'.requireDirectory folder := by
      simp only [FileTree.requireDirectory, hfolder]
    simp only [bind, Except.bind, List.foldlM_cons, List.foldlM_nil, step, ← hrequire]
    cases t.requireDirectory folder with
    | error kind => simp
    | ok _ => simp [child_fileName hname, hfile, pure, Except.pure]

/-- Two trees are the same under a name of a directory if it stands in the same place in both. -/
theorem Reaches.sameUnder (h : t.Reaches directory place) (h' : t'.Reaches directory place) {name : String}
    (hsame : t.lookup (place ++ [name]) = t'.lookup (place ++ [name])) : t.SameUnder t' directory name where
  walk_eq := h.walked.trans h'.walked.symm
  lookup_eq folder hwalk := by
    obtain rfl : folder = place := Except.ok.inj (hwalk.symm.trans h.walked)
    exact ⟨h.stands.trans h'.stands.symm, hsame⟩

/-- **Reading a file inside a directory** comes down to what stands at one location. -/
theorem Leads.read_join (h : t.Leads directory place) {name : String} (hname : IsFileName name)
    (hchecked : checkPath (directory.join name) = .ok ()) {content : List UInt8}
    (hfile : t.lookup (place ++ [name]) = some (.file content)) :
    t.read (directory.join name) = .ok content := by
  simp [read, resolve, hchecked, h.reaches.walk_join hname, hfile, Path.endsInSlash_join directory hname.toIsName, bind,
    Except.bind, pure, Except.pure]

/-- **Creating a file inside a directory** puts it there, if nothing has the name. -/
theorem Reaches.createFile_join (h : t.Reaches directory place) {name : String} (hname : IsFileName name)
    (hchecked : checkPath (directory.join name) = .ok ()) (hfree : t.lookup (place ++ [name]) = none)
    (content : List UInt8) :
    t.createFile (directory.join name) content = .ok (t.put (place ++ [name]) (.file content)) := by
  have hwalked := h.walked
  rw [start] at hwalked
  simp [createFile, vacancy, hchecked, Path.endsInSlash_join directory hname.toIsName,
    Path.steps_join directory hname.toIsName, start, Path.isAbsolute_join directory hname.toIsName, hwalked,
    h.requireDirectory, child_fileName hname, hfree, bind, Except.bind, pure, Except.pure]

/-- **A name inside a directory** is one that exists if something stands there. -/
theorem Reaches.exists?_join (h : t.Reaches directory place) {name : String} (hname : IsFileName name)
    (hchecked : checkPath (directory.join name) = .ok ()) :
    t.exists? (directory.join name) = (t.lookup (place ++ [name])).isSome := by
  simp only [exists?, resolve, hchecked, h.walk_join hname, Path.endsInSlash_join directory hname.toIsName, bind,
    Except.bind]
  rcases t.lookup (place ++ [name]) with _ | _ | content <;> rfl

/-- A path that is too long creates nothing. -/
theorem createFile_of_checkPath {p : Path} {kind : IoKind} (h : checkPath p = .error kind)
    (hs : p.endsInSlash = false) (content : List UInt8) : t.createFile p content = .error kind := by
  simp [createFile, vacancy, h, hs, bind, Except.bind]

/-! ## After a new file -/

/-- The root is not free. -/
theorem ne_nil_of_free (hfree : t.lookup place = none) : place ≠ [] := by
  rintro rfl
  simp [lookup] at hfree

/-- An entry at a free place leaves what stands elsewhere. -/
theorem lookup_put_of_stands (hfree : t.lookup place = none) (entry : Entry) {at' : Location} {old : Entry}
    (h : t.lookup at' = some old) : (t.put place entry).lookup at' = some old := by
  have hother : place ≠ at' := by
    rintro rfl
    rw [hfree] at h
    simp at h
  rw [lookup_put (ne_nil_of_free hfree), if_neg hother, h]

/-- A new entry at a free place leaves the directories there. -/
theorem requireDirectory_put {loc at' : Location} (hloc : loc ≠ []) (hfree : t.lookup loc = none)
    (entry : Entry) (h : t.requireDirectory at' = .ok ()) : (t.put loc entry).requireDirectory at' = .ok () := by
  have hne : loc ≠ at' := by
    rintro rfl
    simp [FileTree.requireDirectory, hfree] at h
  rw [FileTree.requireDirectory, lookup_put hloc, if_neg hne]
  exact h

/-- A new entry at a free place leaves every step as it was. -/
theorem step_put {loc : Location} (hloc : loc ≠ []) (hfree : t.lookup loc = none) (entry : Entry)
    {s : Path.Step} {begin' next : Location} (h : t.step begin' s = .ok next) :
    (t.put loc entry).step begin' s = .ok next := by
  have hrequired : t.requireDirectory begin' = .ok () := by
    cases hr : t.requireDirectory begin' with
    | ok _ => rfl
    | error kind => cases s <;> simp [step, hr, bind, Except.bind] at h
  rw [← h]
  cases s <;> simp [step, requireDirectory_put hloc hfree entry hrequired, hrequired]

/-- So it does with every walk. -/
theorem walk_put {loc : Location} (hloc : loc ≠ []) (hfree : t.lookup loc = none) (entry : Entry)
    {steps : List Path.Step} {begin' place : Location} (h : t.walk begin' steps = .ok place) :
    (t.put loc entry).walk begin' steps = .ok place := by
  unfold walk at h ⊢
  induction steps generalizing begin' with
  | nil => exact h
  | cons s rest ih =>
    rw [List.foldlM_cons] at h ⊢
    cases hs : t.step begin' s with
    | error kind => simp [hs, bind, Except.bind] at h
    | ok next =>
      rw [hs] at h
      rw [step_put hloc hfree entry hs]
      exact ih h

/-- **A new file leaves every directory where it was.** -/
theorem Reaches.put (h : t.Reaches directory place) {loc : Location} (hloc : loc ≠ [])
    (hfree : t.lookup loc = none) (entry : Entry) : (t.put loc entry).Reaches directory place where
  walked := walk_put hloc hfree entry h.walked
  stands := lookup_put_of_stands hfree entry h.stands

/-- So it does with where a path leads. -/
theorem Leads.put (h : t.Leads directory place) {loc : Location} (hloc : loc ≠ [])
    (hfree : t.lookup loc = none) (entry : Entry) : (t.put loc entry).Leads directory place where
  checked := h.checked
  walked := (h.reaches.put hloc hfree entry).walked
  stands := (h.reaches.put hloc hfree entry).stands

end FileTree
end Cashpoint
