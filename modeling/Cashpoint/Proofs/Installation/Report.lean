/-
# What a failed installation is reported as

The call that makes an installation fails with `alreadyExists` if it finds one of the two
key files, and `init` tells the two ways to fail apart by that alone. But the system
answers `alreadyExists` also where a file stands in the way of a directory, and the call
passes it on. So the report "one of the files already exists" is right for key files that
are there, and wrong in the cases of `Mistaken` (`reported_iff`): a regular file has the
name of the folder of the base (`file_for_folder`), or the path of the base goes up out of a
directory that the call itself makes, and only then something is found in its way.
-/

import Cashpoint.Program.Init
import Cashpoint.Proofs.Files.Directories
import Cashpoint.Proofs.Installation.Outcome

namespace Cashpoint
namespace Installation

/-- The tree with the directories on the way to the base, as far as they can be made. -/
def withDirectories (files : FileTree) (base : Path) : FileTree := (files.makeDirectories base.enclosing).2

/-- One of the two key files is there. -/
def IsThere (files : FileTree) (base : Path) : Prop :=
  files.exists? (ofBase base).bankFile = true ∨ files.exists? (ofBase base).atmFile = true

/-- What the call takes for a key file that exists, although neither does. -/
inductive Mistaken (files : FileTree) (base : Path) (random : Except String (Bytes 64)) : Prop
  /-- A regular file stands where the folder of the base is wanted. -/
  | folder {q : Path} (hfolder : base.enclosing.head? = some q) (hfile : files.IsFile q)
  /-- A regular file stands where a directory is wanted, and is found once directories before it are made. -/
  | directory {q : Path} (hq : q ∈ base.enclosing) (hbefore : files.exists? q = false)
      (hfile : (withDirectories files base).IsFile q)
  /-- Something has the name of a key file, and is found once the directories are made. -/
  | keyFile {fresh : Bytes 64} (hrandom : random = .ok fresh) (hbefore : ¬IsThere files base)
      (hfits : FileTree.checkPath (ofBase base).bankFile = .ok () ∧ (bankName base).utf8ByteSize ≤ FileTree.longestName)
      (hfound : IsThere (withDirectories files base) base)

variable {files t : FileTree} {base q : Path} {random : Except String (Bytes 64)}

/-- The directories on the way to the base lie before the file of the Bank. -/
theorem liesBefore_bankFile (h : q ∈ base.enclosing) : q.LiesBefore (ofBase base).bankFile :=
  Path.liesBefore_append_of_mem_enclosing h (c := 'b') (by decide) (by decide)

/-- The directories on the way to the base lie before the file of the ATM. -/
theorem liesBefore_atmFile (h : q ∈ base.enclosing) : q.LiesBefore (ofBase base).atmFile :=
  Path.liesBefore_append_of_mem_enclosing h (c := 'a') (by decide) (by decide)

/-- Where a key file is found, the directories on the way are there. -/
theorem IsThere.isDirectory (h : IsThere t base) (hq : q ∈ base.enclosing) : t.isDirectory q = true := by
  rcases h with h | h
  · obtain ⟨place, entry, hresolve⟩ := FileTree.exists?_iff.1 h
    exact FileTree.isDirectory_of_resolve (liesBefore_bankFile hq) hresolve
  · obtain ⟨place, entry, hresolve⟩ := FileTree.exists?_iff.1 h
    exact FileTree.isDirectory_of_resolve (liesBefore_atmFile hq) hresolve

/-- **Making the directories fails because something exists** in the first two cases, and in no other. -/
theorem makeDirectories_eq_alreadyExists_iff (htree : files.IsTree) :
    (files.makeDirectories base.enclosing).1 = .error .alreadyExists ↔
      (∃ q, base.enclosing.head? = some q ∧ files.IsFile q) ∨
        ∃ q ∈ base.enclosing, files.exists? q = false ∧ (withDirectories files base).IsFile q := by
  have hgains := files.gains_makeDirectories base.enclosing
  rw [FileTree.makeDirectories_eq_alreadyExists_iff htree base.isWay_enclosing rfl]
  constructor
  · rintro ⟨q, hq, ⟨place, content, hfile⟩, hlate⟩
    cases hfound : files.exists? q with
    | false => exact .inr ⟨q, hq, hfound, place, content, hfile⟩
    | true =>
      obtain ⟨place', entry, hresolve⟩ := FileTree.exists?_iff.1 hfound
      obtain ⟨rfl, rfl⟩ := Prod.mk.inj (Except.ok.inj ((hgains.resolve hresolve).symm.trans hfile))
      exact .inl ⟨q, hlate.resolve_right (by simp [hfound]), _, _, hresolve⟩
  · rintro (⟨q, hhead, place, content, hfile⟩ | ⟨q, hq, hbefore, hfile⟩)
    · exact ⟨q, List.mem_of_head? hhead, ⟨place, content, hgains.resolve hfile⟩, .inl hhead⟩
    · exact ⟨q, hq, hfile, .inr hbefore⟩

/-- The names that the key files get fit the file system, if the path of the first does. -/
theorem isFileName_bankName (hchecked : FileTree.checkPath (ofBase base).bankFile = .ok ())
    (hsize : (bankName base).utf8ByteSize ≤ FileTree.longestName) : IsFileName (bankName base) :=
  ⟨isName_bankName base, FileTree.noZero_of_checkPath_join (bankFile_eq base ▸ hchecked), hsize⟩

/-- Where a key file is found, the folder of the base is there. -/
theorem IsThere.exists_reaches (h : IsThere t base) : ∃ folder, t.Reaches base.folder folder := by
  rcases h with h | h
  · obtain ⟨-, -, folder, -, hreaches, -⟩ := FileTree.of_exists?_join (isName_bankName base) (bankFile_eq base ▸ h)
    exact ⟨folder, hreaches⟩
  · obtain ⟨-, -, folder, -, hreaches, -⟩ := FileTree.of_exists?_join (isName_atmName base) (atmFile_eq base ▸ h)
    exact ⟨folder, hreaches⟩

/-- **Writing the key files fails because something exists** exactly if one of them is there, and the first can be
written otherwise. -/
theorem writeFiles_eq_alreadyExists_iff (t : FileTree) (base : Path) (keys : Keys) :
    (writeFiles t (ofBase base) keys).1 = .error .alreadyExists ↔
      (FileTree.checkPath (ofBase base).bankFile = .ok () ∧ (bankName base).utf8ByteSize ≤ FileTree.longestName) ∧
        IsThere t base := by
  have hbankIff (hname : IsFileName (bankName base)) : t.createFile (ofBase base).bankFile keys.toBytes =
      .error .alreadyExists ↔ t.exists? (ofBase base).bankFile = true := by
    rw [bankFile_eq]
    exact FileTree.createFile_join_eq_alreadyExists_iff hname
  rcases writeFiles_cases t (ofBase base) keys with
    ⟨kind, hbank, hwrite⟩ | ⟨t', hbank, ⟨kind, hatm, hwrite⟩ | ⟨after, hatm, hwrite⟩⟩
  · rw [hwrite]
    constructor
    · intro heq
      obtain rfl := Except.error.inj heq
      have hname := FileTree.isFileName_of_alreadyExists (isName_bankName base) (bankFile_eq base ▸ hbank)
      have hfound := (hbankIff hname).1 hbank
      obtain ⟨-, hchecked, -⟩ := FileTree.of_exists?_join hname.toIsName (bankFile_eq base ▸ hfound)
      exact ⟨⟨bankFile_eq base ▸ hchecked, hname.size_le⟩, .inl hfound⟩
    · rintro ⟨⟨hchecked, hsize⟩, hthere⟩
      have hname := isFileName_bankName hchecked hsize
      obtain ⟨folder, hreaches⟩ := hthere.exists_reaches
      rw [bankFile_eq] at hchecked
      cases hentry : t.lookup (folder ++ [bankName base]) with
      | none =>
        rw [bankFile_eq, hreaches.createFile_join hname hchecked hentry] at hbank
        simp at hbank
      | some entry =>
        have hfound := hreaches.exists?_join hname hchecked
        rw [hentry, ← bankFile_eq] at hfound
        rw [(hbankIff hname).2 hfound] at hbank
        rw [Except.error.inj hbank]
  · obtain ⟨rfl, -, hchecked, hname, folder, entry, hreaches, hentry⟩ := second_createFile_error hbank hatm
    have hfound := hreaches.exists?_join hname (atmFile_eq base ▸ hchecked)
    rw [hentry, ← atmFile_eq] at hfound
    have hsize := (FileTree.isFileName_of_createFile (isName_bankName base) (bankFile_eq base ▸ hbank)).size_le
    rw [hwrite]
    exact iff_of_true rfl ⟨⟨(FileTree.createFile_eq_ok hbank).1, hsize⟩, .inr hfound⟩
  · rw [hwrite]
    refine iff_of_false nofun ?_
    rintro ⟨⟨hchecked, hsize⟩, hfound | hfound⟩
    · rw [(hbankIff (isFileName_bankName hchecked hsize)).2 hfound] at hbank
      simp at hbank
    · obtain ⟨hname, -⟩ := FileTree.of_exists?_join (isName_atmName base) (atmFile_eq base ▸ hfound)
      obtain ⟨place, entry, hresolve⟩ := FileTree.exists?_iff.1 hfound
      obtain ⟨-, -, bankPlace, -, -, hfree, rfl⟩ := FileTree.createFile_eq_ok hbank
      have hafter := ((FileTree.Gains.refl t).put_file hfree keys.toBytes).resolve hresolve
      rw [atmFile_eq] at hatm hafter
      rw [(FileTree.createFile_join_eq_alreadyExists_iff hname).2 (FileTree.exists?_iff.2 ⟨_, _, hafter⟩)] at hatm
      simp at hatm

/-- Where the directories cannot be made, the call is mistaken exactly if something exists in their way. -/
theorem mistaken_iff_of_stopped (htree : files.IsTree) {kind : IoKind}
    (h : files.makeDirectories base.enclosing = (.error kind, t)) :
    Mistaken files base random ↔ kind = .alreadyExists := by
  have hmade : (files.makeDirectories base.enclosing).1 = .error .alreadyExists ↔ _ :=
    makeDirectories_eq_alreadyExists_iff htree
  have ht : withDirectories files base = t := by rw [withDirectories, h]
  rw [h, Except.error.injEq] at hmade
  rw [hmade]
  constructor
  · intro hmistaken
    cases hmistaken with
    | folder hfolder hfile => exact .inl ⟨_, hfolder, hfile⟩
    | directory hq hlate hfile => exact .inr ⟨_, hq, hlate, hfile⟩
    | keyFile hrandom hbefore hfits hfound =>
      have hok := (FileTree.makeDirectories_eq_ok_iff base.isWay_enclosing h).2 fun q hq =>
        (ht ▸ hfound : IsThere t base).isDirectory hq
      simp at hok
  · rintro (⟨q, hfolder, hfile⟩ | ⟨q, hq, hlate, hfile⟩)
    · exact .folder hfolder hfile
    · exact .directory hq hlate hfile

/-- Where the directories are made, the call is mistaken exactly if a key file is found then. -/
theorem mistaken_iff_of_made (htree : files.IsTree) (h : files.makeDirectories base.enclosing = (.ok (), t))
    (hbefore : ¬IsThere files base) : Mistaken files base random ↔ ∃ fresh, random = .ok fresh ∧
      (FileTree.checkPath (ofBase base).bankFile = .ok () ∧ (bankName base).utf8ByteSize ≤ FileTree.longestName) ∧
        IsThere t base := by
  have hmade : (files.makeDirectories base.enclosing).1 = .error .alreadyExists ↔ _ :=
    makeDirectories_eq_alreadyExists_iff htree
  have ht : withDirectories files base = t := by rw [withDirectories, h]
  rw [h] at hmade
  constructor
  · intro hmistaken
    cases hmistaken with
    | folder hfolder hfile => simpa using hmade.2 (.inl ⟨_, hfolder, hfile⟩)
    | directory hq hlate hfile => simpa using hmade.2 (.inr ⟨_, hq, hlate, hfile⟩)
    | keyFile hrandom hbefore hfits hfound => exact ⟨_, hrandom, hfits, ht ▸ hfound⟩
  · rintro ⟨fresh, hrandom, hfits, hfound⟩
    exact .keyFile hrandom hbefore hfits (ht ▸ hfound)

/-- **When the call fails with `alreadyExists`**: one of the key files is there, or it is mistaken. -/
theorem provisionFrom_eq_alreadyExists_iff (htree : files.IsTree) (base : Path) (random : Except String (Bytes 64)) :
    (∃ detail, (provisionFrom files base random).1 = .error (.io ⟨.alreadyExists, detail⟩)) ↔
      IsThere files base ∨ Mistaken files base random := by
  unfold provisionFrom
  by_cases hexists : (files.exists? (ofBase base).bankFile || files.exists? (ofBase base).atmFile) = true
  · simp only [if_pos hexists]
    exact iff_of_true ⟨_, rfl⟩ (.inl (by simpa [IsThere] using hexists))
  have hbefore : ¬IsThere files base := by simpa [IsThere] using hexists
  have hkind (kind : IoKind) : (∃ detail, (Except.error (Error.ofKind kind) : Except Error Installation) =
      .error (.io ⟨.alreadyExists, detail⟩)) ↔ kind = .alreadyExists := by simp [Error.ofKind]
  simp only [if_neg hexists, hbefore, false_or]
  rcases hdirectories : files.makeDirectories base.enclosing with ⟨kind | _, t⟩
  · rw [mistaken_iff_of_stopped htree hdirectories, hkind]
  · rw [mistaken_iff_of_made htree hdirectories hbefore]
    cases random with
    | error reason => simp
    | ok fresh =>
      have hwritten := writeFiles_eq_alreadyExists_iff t base (.ofFile fresh)
      rcases hwrite : writeFiles t (ofBase base) (.ofFile fresh) with ⟨kind | _, after⟩
      · rw [hwrite, Except.error.injEq] at hwritten
        simp only [hwrite]
        rw [hkind, hwritten]
        simp
      · rw [hwrite] at hwritten
        simpa [hwrite] using hwritten

/-- **On a way that never goes up** the call is mistaken only by a file that has the name of the folder. -/
theorem mistaken_iff_of_no_up (htree : files.IsTree) (hup : .up ∉ base.folder.steps) :
    Mistaken files base random ↔ ∃ q, base.enclosing.head? = some q ∧ files.IsFile q := by
  have hgains : files.Gains (withDirectories files base) [] := files.gains_makeDirectories base.enclosing
  constructor
  · intro hmistaken
    cases hmistaken with
    | folder hfolder hfile => exact ⟨_, hfolder, hfile⟩
    | directory hq hbefore hfile =>
      obtain ⟨place, content, hresolve⟩ := hfile
      have hstands := (hgains.of_file (FileTree.resolve_eq_ok_iff.1 hresolve).2.2.1).resolve_right (by simp)
      have hfound := htree.resolve_of_gains hgains
        (fun hmem => hup ((Path.steps_prefix_of_mem_enclosing hq).subset hmem)) hresolve hstands
      simp [FileTree.exists?_iff.2 ⟨_, _, hfound⟩] at hbefore
    | keyFile hrandom hbefore hfits hfound =>
      refine absurd (hfound.imp (fun h => ?_) fun h => ?_) hbefore
      · rw [bankFile_eq] at h ⊢
        obtain ⟨hname, hchecked, folder, entry, hreaches, htaken⟩ := FileTree.of_exists?_join (isName_bankName base) h
        exact exists?_of_taken htree hup rfl hname hchecked hreaches htaken
      · rw [atmFile_eq] at h ⊢
        obtain ⟨hname, hchecked, folder, entry, hreaches, htaken⟩ := FileTree.of_exists?_join (isName_atmName base) h
        exact exists?_of_taken htree hup rfl hname hchecked hreaches htaken
  · rintro ⟨q, hfolder, hfile⟩
    exact .folder hfolder hfile

/-! ## The report of the program -/

/-- The end of `init` for key files that exist. -/
def existing : Program.Exit := { code := 63, output := Program.line "Error: one of the files already exists" }

/-- What `init` ends with is told by the error of the call. -/
theorem exitFor_eq_existing_iff (result : Except Error Installation) :
    Program.Init.exitFor result = existing ↔ ∃ detail, result = .error (.io ⟨.alreadyExists, detail⟩) := by
  unfold Program.Init.exitFor
  split
  · exact iff_of_false (fun h => absurd (congrArg Program.Exit.code h) (by decide)) (by simp)
  · exact iff_of_true rfl ⟨_, rfl⟩
  · rename_i e hother
    refine iff_of_false (fun h => absurd (congrArg Program.Exit.code h) (by decide)) ?_
    rintro ⟨detail, heq⟩
    exact hother detail (Except.error.inj heq)

/-- Every other error leads to the exit code 64 and no message. -/
theorem exitFor_of_other {e : Error} (h : Program.Init.exitFor (.error e) ≠ existing) :
    Program.Init.exitFor (.error e) = { code := 64 } := by
  unfold Program.Init.exitFor
  split
  · rename_i heq
    simp at heq
  · rename_i detail heq
    exact absurd ((exitFor_eq_existing_iff _).2 ⟨detail, heq⟩) h
  · rfl

/-- The whole program for a command line that names the base. -/
theorem run_eq {arguments : List String} {a : Program.Arguments} {fresh : Bytes 64}
    (hread : Program.Arguments.read Program.Init.grammar arguments = .ok a) (hpath : a.path? = some base.text) :
    (Program.Init.run arguments files fresh).1 = Program.Init.exitFor (provisionFrom files base (.ok fresh)).1 := by
  simp only [Program.Init.run, hread, hpath, Option.getD_some, provision]

/-- **When an installation is reported to exist.** The call fails with `alreadyExists`, and `init` says that one of
the files already exists, if one of them does or the call is mistaken; after every other failure `init` ends with
64. Where the path of the base does not go up, a file with the name of the folder is the one mistake there is. -/
theorem reported_iff (files : FileTree) (htree : files.IsTree) (base : Path) (random : Except String (Bytes 64)) :
    ((∃ detail, (provisionFrom files base random).1 = .error (.io ⟨.alreadyExists, detail⟩)) ↔
        IsThere files base ∨ Mistaken files base random) ∧
      (.up ∉ base.folder.steps →
        (Mistaken files base random ↔ ∃ q, base.enclosing.head? = some q ∧ files.IsFile q)) ∧
      ∀ arguments a fresh, Program.Arguments.read Program.Init.grammar arguments = .ok a → a.path? = some base.text →
        random = .ok fresh →
          ((Program.Init.run arguments files fresh).1 = existing ↔ IsThere files base ∨ Mistaken files base random) ∧
            ∀ e, (provisionFrom files base random).1 = .error e →
              ¬(IsThere files base ∨ Mistaken files base random) →
                (Program.Init.run arguments files fresh).1 = { code := 64 } := by
  have hiff := provisionFrom_eq_alreadyExists_iff htree base random
  refine ⟨hiff, mistaken_iff_of_no_up htree, fun arguments a fresh hread hpath hrandom => ?_⟩
  subst hrandom
  rw [run_eq hread hpath]
  refine ⟨(exitFor_eq_existing_iff _).trans hiff, fun e he hother => ?_⟩
  rw [he]
  refine exitFor_of_other fun heq => hother (hiff.1 ?_)
  rw [he]
  exact (exitFor_eq_existing_iff _).1 heq

/-- A key file of the ATM is found, and reported by no mistake. -/
theorem reported_iff_atm_file :
    let files := ({} : FileTree).put ["install.atm"] (.file [1, 2, 3])
    files.IsTree ∧ .up ∉ (⟨"install"⟩ : Path).folder.steps ∧
      Program.Arguments.read Program.Init.grammar ["install"] = .ok { path? := some "install" } ∧
      IsThere files ⟨"install"⟩ ∧ ¬Mistaken files ⟨"install"⟩ (.ok (Bytes.zero 64)) ∧
      (Program.Init.run ["install"] files (Bytes.zero 64)).1 = existing := by
  have htree := FileTree.isTree_put "install.atm" (.file [1, 2, 3])
  have hthere : IsThere (({} : FileTree).put ["install.atm"] (.file [1, 2, 3])) ⟨"install"⟩ := .inr (by rfl)
  have hup : .up ∉ (⟨"install"⟩ : Path).folder.steps := by decide
  obtain ⟨-, hmistaken, hrun⟩ := reported_iff _ htree ⟨"install"⟩ (.ok (Bytes.zero 64))
  refine ⟨htree, hup, by rfl, hthere, fun h => ?_, ?_⟩
  · obtain ⟨q, hq, -⟩ := (hmistaken hup).1 h
    have hnone : (⟨"install"⟩ : Path).enclosing.head? = none := by decide
    exact absurd (hnone.symm.trans hq) (by simp)
  · exact (hrun ["install"] { path? := some "install" } (Bytes.zero 64) (by rfl) rfl rfl).1.2 (.inl hthere)

/-- **A file is reported that does not exist.** No key file is there, but a regular file has the name of the folder
that they would be in. -/
theorem file_for_folder :
    let files := ({} : FileTree).put ["f"] (.file [1, 2, 3])
    files.IsTree ∧ ¬IsThere files ⟨"f/install"⟩ ∧
      (provisionFrom files ⟨"f/install"⟩ (.ok (Bytes.zero 64))).1 = .error (.ofKind .alreadyExists) ∧
      (Program.Init.run ["f/install"] files (Bytes.zero 64)).1 = existing :=
  ⟨FileTree.isTree_put "f" (.file [1, 2, 3]), by rintro (h | h) <;> exact absurd h (by decide), by rfl, by rfl⟩

end Installation
end Cashpoint
