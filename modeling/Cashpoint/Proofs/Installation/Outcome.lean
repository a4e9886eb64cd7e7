/-
# What making an installation leads to

The call looks for the two key files, makes the directories on the way to them, and then
creates one file and the other. There is no clean-up after it. So an installation is made
as a whole or not at all only if the second file can be created whenever the first was.

That can fail for one reason (`second_createFile_error`): something has the name of the
ATM's file already. It was looked for at the start, but along a way that could not be
walked then. Where the path goes up again out of a directory that was missing, the
directories that the call makes open that way, and the Bank's key file stays behind
without the other (`bank_file_stranded`). In all other cases the call makes both files or
none (`provision_outcomes`).
-/

import Cashpoint.Installation
import Cashpoint.Proofs.Files.Enclosing
import Cashpoint.Proofs.Files.Gains

namespace Cashpoint
namespace Installation

/-- The name of the Bank's key file in the folder of the base. -/
def bankName (base : Path) : String := base.lastPiece ++ bankEnding

/-- The name of the ATM's key file in the folder of the base. -/
def atmName (base : Path) : String := base.lastPiece ++ atmEnding

/-- Why no file is made, with the error that tells it. -/
inductive Refusal (files : FileTree) (base : Path) (random : Except String (Bytes 64)) : Error → Prop
  /-- One of the files is found. -/
  | taken (h : files.exists? (ofBase base).bankFile = true ∨ files.exists? (ofBase base).atmFile = true) :
      Refusal files base random alreadyThere
  /-- The directories cannot be made. -/
  | blocked {kind : IoKind} (h : (files.makeDirectories base.enclosing).1 = .error kind) :
      Refusal files base random (.ofKind kind)
  /-- There are no random bytes. -/
  | keyless {reason : String} (h : random = .error reason) : Refusal files base random (.entropy reason)
  /-- The first file cannot be created in the directories. -/
  | unwritable {kind : IoKind} {fresh : Bytes 64} (hrandom : random = .ok fresh)
      (h : (files.makeDirectories base.enclosing).2.createFile (ofBase base).bankFile fresh.toList = .error kind) :
      Refusal files base random (.ofKind kind)

/-- What a call led to, with the tree after it. -/
inductive Outcome (files : FileTree) (base : Path) (random : Except String (Bytes 64)) :
    Except Error Installation → FileTree → Prop
  /-- Neither file was there. Both are now, with the same bytes, and loading them gives the same keys. -/
  | made {after : FileTree} {bankPlace atmPlace : Location} {fresh : Bytes 64} {keys : Keys}
      (hrandom : random = .ok fresh)
      (hbefore : files.exists? (ofBase base).bankFile = false ∧ files.exists? (ofBase base).atmFile = false)
      (hgains : files.Gains after [(bankPlace, fresh.toList), (atmPlace, fresh.toList)])
      (hbank : after.read (ofBase base).bankFile = .ok fresh.toList)
      (hatm : after.read (ofBase base).atmFile = .ok fresh.toList)
      (hkeys : keys.pinKey.toList = fresh.toList.take 32 ∧ keys.messageKey.toList = fresh.toList.drop 32)
      (hload : Keys.load after (ofBase base).bankFile = .ok keys ∧ Keys.load after (ofBase base).atmFile = .ok keys) :
      Outcome files base random (.ok (ofBase base)) after
  /-- No file is new, for one of the reasons. -/
  | refused {e : Error} {after : FileTree} (hreason : Refusal files base random e) (hgains : files.Gains after []) :
      Outcome files base random (.error e) after
  /-- The Bank's key file is new and nothing else. The way to the folder goes up, and directories on it are new. -/
  | stranded {after : FileTree} {bankPlace : Location} {fresh : Bytes 64} (hrandom : random = .ok fresh)
      (hgains : files.Gains after [(bankPlace, fresh.toList)])
      (hbank : after.read (ofBase base).bankFile = .ok fresh.toList)
      (hatm : after.exists? (ofBase base).atmFile = true)
      (hup : .up ∈ base.folder.steps)
      (hnew : ∃ place, files.lookup place = none ∧ after.lookup place = some .directory) :
      Outcome files base random (.error (.ofKind .alreadyExists)) after

variable {files t t' : FileTree} {base : Path}

/-- The file of the Bank stands in the folder of the base. -/
theorem bankFile_eq (base : Path) : (ofBase base).bankFile = base.folder.join (bankName base) :=
  base.append_eq_join bankEnding

/-- The file of the ATM stands in the folder of the base. -/
theorem atmFile_eq (base : Path) : (ofBase base).atmFile = base.folder.join (atmName base) :=
  base.append_eq_join atmEnding

/-- The name of the file of the Bank is one that can be gone down to. -/
theorem isName_bankName (base : Path) : IsName (bankName base) :=
  base.isName_lastPiece_append (by decide) (by decide)

/-- The name of the file of the ATM is one that can be gone down to. -/
theorem isName_atmName (base : Path) : IsName (atmName base) :=
  base.isName_lastPiece_append (by decide) (by decide)

/-- The two files have different names. -/
theorem bankName_ne_atmName (base : Path) : bankName base ≠ atmName base := by
  intro h
  have hlist := congrArg String.toList h
  rw [bankName, atmName, String.toList_append, String.toList_append] at hlist
  exact absurd (List.append_cancel_left hlist) (by decide)

/-! ## The second file -/

/-- The path of the second file can be followed if that of the first can: it is shorter. -/
theorem checkPath_atmFile (h : FileTree.checkPath (ofBase base).bankFile = .ok ()) :
    FileTree.checkPath (ofBase base).atmFile = .ok () := by
  obtain ⟨hzero, -, hsize⟩ := FileTree.checkPath_eq_ok_iff.1 h
  simp only [ofBase, Path.append, String.toList_append, List.mem_append, not_or,
    String.utf8ByteSize_append] at hzero hsize
  have hbank : bankEnding.utf8ByteSize = 5 := by decide
  have hatm : atmEnding.utf8ByteSize = 4 := by decide
  refine FileTree.checkPath_eq_ok_iff.2 ⟨?_, ?_, ?_⟩
  · simp only [ofBase, Path.append, String.toList_append, List.mem_append, not_or]
    exact ⟨hzero.1, by decide⟩
  · intro hempty
    have hlength := congrArg String.utf8ByteSize hempty
    simp only [ofBase, Path.append, String.utf8ByteSize_append, hatm] at hlength
    simp at hlength
  · simp only [ofBase, Path.append, String.utf8ByteSize_append]
    omega

/-- The name of the file of the ATM can name a file, since it is shorter than that of the Bank. -/
theorem isFileName_atmName (hbank : IsFileName (bankName base))
    (h : FileTree.checkPath (ofBase base).atmFile = .ok ()) : IsFileName (atmName base) where
  toIsName := isName_atmName base
  noZero := FileTree.noZero_of_checkPath_join (atmFile_eq base ▸ h)
  size_le := by
    have hle := hbank.size_le
    have hlong : bankEnding.utf8ByteSize = 5 := by decide
    have hshort : atmEnding.utf8ByteSize = 4 := by decide
    rw [bankName, String.utf8ByteSize_append] at hle
    rw [atmName, String.utf8ByteSize_append]
    omega

/-- **If the first file was created, the second fails only because its name is taken.** -/
theorem second_createFile_error {content : List UInt8} {kind : IoKind}
    (hbank : t.createFile (ofBase base).bankFile content = .ok t')
    (hatm : t'.createFile (ofBase base).atmFile content = .error kind) :
    kind = .alreadyExists ∧ t'.exists? (ofBase base).atmFile = true ∧
      FileTree.checkPath (ofBase base).atmFile = .ok () ∧ IsFileName (atmName base) ∧
      ∃ folder entry, t.Reaches base.folder folder ∧ t.lookup (folder ++ [atmName base]) = some entry := by
  have hchecked := checkPath_atmFile (FileTree.createFile_eq_ok hbank).1
  rw [bankFile_eq] at hbank
  have hname := FileTree.isFileName_of_createFile (isName_bankName base) hbank
  have hname' := isFileName_atmName hname hchecked
  obtain ⟨folder, hwalk, hfolder, hfree, rfl⟩ := FileTree.createFile_join_eq_ok hname hbank
  have hreaches : t.Reaches base.folder folder := ⟨hwalk, hfolder⟩
  have hreaches' := hreaches.put (by simp) hfree (.file content)
  rw [atmFile_eq] at hatm hchecked ⊢
  have hother : folder ++ [bankName base] ≠ folder ++ [atmName base] := by
    simpa using bankName_ne_atmName base
  have hlookup : (t.put (folder ++ [bankName base]) (.file content)).lookup (folder ++ [atmName base]) =
      t.lookup (folder ++ [atmName base]) := by
    rw [FileTree.lookup_put (by simp), if_neg hother]
  cases hentry : t.lookup (folder ++ [atmName base]) with
  | none =>
    rw [hreaches'.createFile_join hname' hchecked (hlookup.trans hentry)] at hatm
    simp at hatm
  | some entry =>
    have hexists := hreaches'.exists?_join hname' hchecked
    rw [hlookup, hentry] at hexists
    rw [(FileTree.createFile_join_eq_alreadyExists_iff hname').2 hexists] at hatm
    exact ⟨(Except.error.inj hatm).symm, hexists, hchecked, hname', folder, entry, hreaches, hentry⟩

/-! ## The directories -/

/-- What stands after directories were made on the way to the base stood there before, or is no deeper than the
folder of the base goes down. -/
theorem lookup_makeDirectories {place : Location} {entry : Entry}
    (h : (files.makeDirectories base.enclosing).2.lookup place = some entry) :
    files.lookup place = some entry ∨
      place.length ≤ (files.start base.folder).length + (FileTree.names base.folder.steps).length := by
  let Shallow (made : FileTree) : Prop := made.home = files.home ∧ ∀ place entry, made.lookup place = some entry →
    files.lookup place = some entry ∨
      place.length ≤ (files.start base.folder).length + (FileTree.names base.folder.steps).length
  have hshallow : Shallow (files.makeDirectories base.enclosing).2 := by
    refine FileTree.makeDirectories_induction (P := Shallow) (fun made made' q hq hmade hnew => ?_)
      ⟨rfl, fun _ _ => Or.inl⟩
    obtain ⟨place', hwalk, hfree, rfl⟩ := FileTree.makeDirectory_eq_ok hnew
    refine ⟨hmade.1, fun at' entry' hentry => ?_⟩
    rw [FileTree.lookup_put (FileTree.ne_nil_of_free hfree)] at hentry
    split at hentry
    · rename_i heq
      subst heq
      have hstart : made.start q = files.start base.folder := by
        rw [FileTree.start, FileTree.start, Path.isAbsolute_of_mem_enclosing hq, hmade.1]
      have hlength := FileTree.length_walk_le hwalk
      have hnames := FileTree.length_names_le_of_prefix (Path.steps_prefix_of_mem_enclosing hq)
      rw [hstart] at hlength
      exact Or.inr (by omega)
    · exact hmade.2 at' entry' hentry
  exact hshallow.2 place entry h

/-- **On a way that never goes up** a name that is taken once the directories are there was taken before. -/
theorem exists?_of_taken (htree : files.IsTree) (hup : .up ∉ base.folder.steps)
    (ht : t = (files.makeDirectories base.enclosing).2) {name : String} (hname : IsFileName name)
    (hchecked : FileTree.checkPath (base.folder.join name) = .ok ()) {folder : Location} {entry : Entry}
    (hreaches : t.Reaches base.folder folder) (htaken : t.lookup (folder ++ [name]) = some entry) :
    files.exists? (base.folder.join name) = true := by
  have hgains : files.Gains t [] := ht ▸ files.gains_makeDirectories base.enclosing
  have hstart : t.start base.folder = files.start base.folder := by
    rw [FileTree.start, FileTree.start, hgains.home_eq]
  have hfolder := FileTree.eq_of_walk hup hreaches.walked
  have hentry : files.lookup (folder ++ [name]) = some entry := by
    rcases lookup_makeDirectories (ht ▸ htaken) with hentry | hshallow
    · exact hentry
    · rw [hfolder, hstart, List.length_append, List.length_append, List.length_singleton] at hshallow
      omega
  have hbefore : files.Reaches base.folder folder :=
    ⟨hstart ▸ htree.walk_of_stands hup hreaches.walked hentry, htree folder _ _ hentry⟩
  rw [hbefore.exists?_join hname hchecked, hentry]
  rfl

/-- **A name that is taken once the directories are there** was taken before, or the way to the folder goes up and
directories on it are new. -/
theorem up_and_new_of_taken (htree : files.IsTree) (hfree : files.exists? (ofBase base).atmFile = false)
    (ht : t = (files.makeDirectories base.enclosing).2) (hchecked : FileTree.checkPath (ofBase base).atmFile = .ok ())
    (hname : IsFileName (atmName base)) {folder : Location} {entry : Entry} (hreaches : t.Reaches base.folder folder)
    (htaken : t.lookup (folder ++ [atmName base]) = some entry) :
    .up ∈ base.folder.steps ∧ ∃ place, files.lookup place = none ∧ t.lookup place = some .directory := by
  have hgains : files.Gains t [] := ht ▸ files.gains_makeDirectories base.enclosing
  rw [atmFile_eq] at hfree hchecked
  constructor
  · refine Classical.byContradiction fun hup => ?_
    simp [exists?_of_taken htree hup ht hname hchecked hreaches htaken] at hfree
  · refine Classical.byContradiction fun hnone => ?_
    -- Were no directory new, the way would have been open before, and the name found.
    have hsame := hgains.lookup_eq fun place hdirectory hbefore => hnone ⟨place, hbefore, hdirectory⟩
    have hwalk := hreaches.walked
    rw [FileTree.start, hgains.home_eq, ← FileTree.start, FileTree.walk_congr hsame] at hwalk
    have hbefore : files.Reaches base.folder folder := ⟨hwalk, (hsame folder).symm.trans hreaches.stands⟩
    rw [hbefore.exists?_join hname hchecked, ← hsame, htaken] at hfree
    simp at hfree

/-! ## The whole call -/

/-- **What writing both files does**: nothing, or one of them, or both. -/
theorem writeFiles_cases (t : FileTree) (installation : Installation) (keys : Keys) :
    (∃ kind, t.createFile installation.bankFile keys.toBytes = .error kind ∧
        writeFiles t installation keys = (.error kind, t)) ∨
      ∃ t', t.createFile installation.bankFile keys.toBytes = .ok t' ∧
        ((∃ kind, t'.createFile installation.atmFile keys.toBytes = .error kind ∧
            writeFiles t installation keys = (.error kind, t')) ∨
          ∃ after, t'.createFile installation.atmFile keys.toBytes = .ok after ∧
            writeFiles t installation keys = (.ok (), after)) := by
  unfold writeFiles
  cases hbank : t.createFile installation.bankFile keys.toBytes with
  | error kind => exact Or.inl ⟨kind, rfl, rfl⟩
  | ok t' =>
    refine Or.inr ⟨t', rfl, ?_⟩
    cases hatm : t'.createFile installation.atmFile keys.toBytes with
    | error kind => exact Or.inl ⟨kind, rfl, by simp only [hatm]⟩
    | ok after => exact Or.inr ⟨after, rfl, by simp only [hatm]⟩

/-- The keys in a file with nothing but them. -/
theorem load_of_read {t : FileTree} {p : Path} {fresh : Bytes 64} (h : t.read p = .ok fresh.toList) :
    Keys.load t p = .ok (.ofFile fresh) := by
  rw [Keys.load, h]
  simpa [Keys.toBytes_ofFile] using Keys.ofBytes_toBytes (.ofFile fresh) []

/-- **An installation is made as a whole or no file is made**, unless the path of the base goes up out of a
directory that the call made. Then the Bank's key file may stay behind, and that is all. -/
theorem provision_outcomes (files : FileTree) (htree : files.IsTree) (base : Path)
    (random : Except String (Bytes 64)) :
    Outcome files base random (provisionFrom files base random).1 (provisionFrom files base random).2 := by
  unfold provisionFrom
  by_cases hexists : (files.exists? (ofBase base).bankFile || files.exists? (ofBase base).atmFile) = true
  · simp only [if_pos hexists]
    exact .refused (.taken (by simpa using hexists)) (.refl files)
  obtain ⟨hbankFree, hatmFree⟩ : files.exists? (ofBase base).bankFile = false ∧
      files.exists? (ofBase base).atmFile = false := by simpa using hexists
  simp only [if_neg hexists]
  have hgains := files.gains_makeDirectories base.enclosing
  rcases hdirectories : files.makeDirectories base.enclosing with ⟨kind | _, t⟩
  · rw [hdirectories] at hgains
    exact .refused (.blocked (by rw [hdirectories])) hgains
  rw [hdirectories] at hgains
  cases random with
  | error reason => exact .refused (.keyless rfl) hgains
  | ok fresh =>
    rcases writeFiles_cases t (ofBase base) (.ofFile fresh) with
      ⟨kind, hbank, hwrite⟩ | ⟨t', hbank, ⟨kind, hatm, hwrite⟩ | ⟨after, hatm, hwrite⟩⟩
    · simp only [hwrite]
      rw [Keys.toBytes_ofFile] at hbank
      exact .refused (.unwritable rfl (by rw [hdirectories]; exact hbank)) hgains
    all_goals
      simp only [hwrite]
      rw [Keys.toBytes_ofFile] at hbank hatm
      have hread := FileTree.read_of_createFile hbank
      obtain ⟨-, -, bankPlace, -, -, hfree, rfl⟩ := FileTree.createFile_eq_ok hbank
      have hgains' := hgains.put_file hfree fresh.toList
    · obtain ⟨rfl, htaken, hchecked, hname, folder, entry, hreaches, hentry⟩ := second_createFile_error hbank hatm
      obtain ⟨hup, place, hnone, hnew⟩ :=
        up_and_new_of_taken htree hatmFree (by rw [hdirectories]) hchecked hname hreaches hentry
      exact .stranded rfl hgains' hread htaken hup ⟨place, hnone, FileTree.lookup_put_of_stands hfree _ hnew⟩
    · have hreadBank := FileTree.read_after_createFile hatm hread
      have hreadAtm := FileTree.read_of_createFile hatm
      obtain ⟨-, -, atmPlace, -, -, hfree', rfl⟩ := FileTree.createFile_eq_ok hatm
      exact .made rfl ⟨hbankFree, hatmFree⟩ (hgains'.put_file hfree' fresh.toList) hreadBank hreadAtm
        ⟨by simp [Keys.ofFile], by simp [Keys.ofFile]⟩ ⟨load_of_read hreadBank, load_of_read hreadAtm⟩

/-- In an empty tree both files are made, and the directory for them. -/
theorem provision_outcomes_empty :
    let random : Except String (Bytes 64) := .ok (Bytes.zero 64)
    ({} : FileTree).IsTree ∧
      (provisionFrom {} ⟨"keys/install"⟩ random).1 = .ok ⟨⟨"keys/install.bank"⟩, ⟨"keys/install.atm"⟩⟩ ∧
      Outcome {} ⟨"keys/install"⟩ random (provisionFrom {} ⟨"keys/install"⟩ random).1
        (provisionFrom {} ⟨"keys/install"⟩ random).2 := by
  have htree : ({} : FileTree).IsTree := fun place name entry h => by simp [FileTree.lookup] at h
  exact ⟨htree, by rfl, provision_outcomes {} htree _ _⟩

/-- **A key file is left without its other half.** The file of the ATM is there, but along a directory that is not.
The call does not find it, makes the directory, writes the file of the Bank and then fails. -/
theorem bank_file_stranded :
    let files := ({} : FileTree).put ["install.atm"] (.file [1, 2, 3])
    let random : Except String (Bytes 64) := .ok (Bytes.zero 64)
    files.IsTree ∧ (provisionFrom files ⟨"new/../install"⟩ random).1 = .error (.ofKind .alreadyExists) ∧
      files.lookup ["install.bank"] = none ∧
      (provisionFrom files ⟨"new/../install"⟩ random).2.lookup ["install.bank"] =
        some (.file (List.replicate 64 0)) ∧
      (provisionFrom files ⟨"new/../install"⟩ random).2.lookup ["install.atm"] = some (.file [1, 2, 3]) := by
  refine ⟨fun place name entry h => ?_, by rfl, by rfl, by rfl, by rfl⟩
  rw [FileTree.lookup_put (by simp)] at h
  split at h
  · rename_i hplace
    cases place with
    | nil => rfl
    | cons first rest => simp at hplace
  · simp [FileTree.lookup] at h

end Installation
end Cashpoint
