/-
# A new file among the old ones

Whatever the tree and the path: a file that was created is read back
(`read_of_createFile`), and every file that could be read before reads the same after
it (`read_after_createFile`). Nothing is assumed of the directories on the way, and
nothing of what was there before. Inside a directory, the error `alreadyExists` means
that something has the name, and nothing else does (`createFile_join_eq_alreadyExists_iff`).

Two trees in which a name inside a directory is free, or in neither of which it is, take
a file of that name alike, however different they are otherwise (`createFile_join_congr`).
-/

import Cashpoint.Proofs.Files.Inside

namespace Cashpoint
namespace FileTree

variable {t t' : FileTree} {p : Path} {content : List UInt8}

/-- **When a file can be read**: its path leads to it and does not ask for a directory. -/
theorem read_eq_ok_iff :
    t.read p = .ok content ↔ checkPath p = .ok () ∧ p.endsInSlash = false ∧
      ∃ place, t.walk (t.start p) p.steps = .ok place ∧ t.lookup place = some (.file content) := by
  unfold read resolve
  cases hcheck : checkPath p with
  | error kind => simp [bind, Except.bind]
  | ok _ =>
    cases hwalk : t.walk (t.start p) p.steps with
    | error kind => simp [bind, Except.bind]
    | ok place =>
      cases hentry : t.lookup place with
      | none => simp [bind, Except.bind, throw, throwThe, MonadExceptOf.throw, hentry]
      | some entry =>
        cases entry with
        | directory =>
          simp [bind, Except.bind, pure, Except.pure, throw, throwThe, MonadExceptOf.throw, hentry]
        | file found =>
          cases hslash : p.endsInSlash <;>
            simp [bind, Except.bind, pure, Except.pure, throw, throwThe, MonadExceptOf.throw, hentry]

/-- **Where a new entry goes**: to a place that the path leads to, and where nothing stands. -/
theorem vacancy_eq_ok {place : Location} (h : t.vacancy p = .ok place) :
    checkPath p = .ok () ∧ t.walk (t.start p) p.steps = .ok place ∧ t.lookup place = none := by
  unfold vacancy at h
  cases hcheck : checkPath p with
  | error kind => simp [hcheck, bind, Except.bind] at h
  | ok _ =>
    cases hwalk : t.walk (t.start p) p.steps.dropLast with
    | error kind => simp [hcheck, hwalk, bind, Except.bind] at h
    | ok directory =>
      cases hrequired : t.requireDirectory directory with
      | error kind => simp [hcheck, hwalk, hrequired, bind, Except.bind] at h
      | ok _ =>
        simp only [hcheck, hwalk, hrequired, bind, Except.bind] at h
        split at h
        · rename_i name hlast
          cases hchild : child directory name with
          | error kind => simp [hchild] at h
          | ok found =>
            simp only [hchild] at h
            split at h
            · simp [throw, throwThe, MonadExceptOf.throw] at h
            · rename_i hfree
              obtain rfl : found = place := Except.ok.inj h
              refine ⟨rfl, ?_, by simpa using hfree⟩
              have hsteps : p.steps = p.steps.dropLast ++ [.down name] := by
                obtain ⟨before, hbefore⟩ := List.getLast?_eq_some_iff.1 hlast
                rw [hbefore, List.dropLast_concat]
              unfold walk at hwalk ⊢
              rw [hsteps, List.foldlM_append, hwalk]
              simp [bind, Except.bind, step, hrequired, hchild, pure, Except.pure]
        · simp [throw, throwThe, MonadExceptOf.throw] at h

/-- **A new file is put at a free place.** -/
theorem createFile_eq_ok (h : t.createFile p content = .ok t') :
    checkPath p = .ok () ∧ p.endsInSlash = false ∧ ∃ place, t.walk (t.start p) p.steps = .ok place ∧
      place ≠ [] ∧ t.lookup place = none ∧ t' = t.put place (.file content) := by
  unfold createFile at h
  cases hslash : p.endsInSlash with
  | true =>
    cases hcheck : checkPath p <;>
      simp [hslash, hcheck, bind, Except.bind, throw, throwThe, MonadExceptOf.throw] at h
  | false =>
    cases hvacancy : t.vacancy p with
    | error kind => simp [hslash, hvacancy, bind, Except.bind] at h
    | ok place =>
      obtain ⟨hcheck, hwalk, hfree⟩ := vacancy_eq_ok hvacancy
      refine ⟨hcheck, rfl, place, hwalk, ne_nil_of_free hfree, hfree, ?_⟩
      simpa [hslash, hvacancy, bind, Except.bind, pure, Except.pure] using h.symm

/-- **A new file inside a directory** stands directly in the place where the directory's path leads. That is
a directory, and the name was free. -/
theorem createFile_join_eq_ok {directory : Path} {name : String} (hname : IsFileName name)
    (h : t.createFile (directory.join name) content = .ok t') :
    ∃ folder, t.walk (t.start directory) directory.steps = .ok folder ∧ t.lookup folder = some .directory ∧
      t.lookup (folder ++ [name]) = none ∧ t' = t.put (folder ++ [name]) (.file content) := by
  obtain ⟨-, -, place, hwalk, -, hfree, rfl⟩ := createFile_eq_ok h
  unfold walk at hwalk
  rw [start, Path.isAbsolute_join directory hname.toIsName, Path.steps_join directory hname.toIsName,
    List.foldlM_append] at hwalk
  cases hfolder : directory.steps.foldlM t.step (t.start directory) with
  | error kind =>
    rw [← start, hfolder] at hwalk
    simp [bind, Except.bind] at hwalk
  | ok folder =>
    rw [← start, hfolder] at hwalk
    refine ⟨folder, hfolder, ?_⟩
    cases hrequired : t.requireDirectory folder with
    | error kind => simp [bind, Except.bind, step, hrequired] at hwalk
    | ok _ =>
      obtain rfl : folder ++ [name] = place := by
        simpa [bind, Except.bind, pure, Except.pure, step, hrequired, child_fileName hname] using hwalk
      refine ⟨?_, hfree, rfl⟩
      unfold requireDirectory at hrequired
      split at hrequired
      · assumption
      · simp at hrequired
      · simp at hrequired

/-- **A new file is read back.** -/
theorem read_of_createFile (h : t.createFile p content = .ok t') : t'.read p = .ok content := by
  obtain ⟨hcheck, hslash, place, hwalk, hne, hfree, rfl⟩ := createFile_eq_ok h
  refine read_eq_ok_iff.2 ⟨hcheck, hslash, place, walk_put hne hfree _ hwalk, ?_⟩
  rw [lookup_put hne, if_pos rfl]

/-- **A new file leaves every other file as it was.** -/
theorem read_after_createFile (h : t.createFile p content = .ok t') {other : Path} {old : List UInt8}
    (hold : t.read other = .ok old) : t'.read other = .ok old := by
  obtain ⟨-, -, place, -, hne, hfree, rfl⟩ := createFile_eq_ok h
  obtain ⟨hcheck, hslash, at', hwalk, hfile⟩ := read_eq_ok_iff.1 hold
  exact read_eq_ok_iff.2 ⟨hcheck, hslash, at', walk_put hne hfree _ hwalk, lookup_put_of_stands hfree _ hfile⟩

/-- **A new file keeps all that stands anywhere.** -/
theorem lookup_after_createFile (h : t.createFile p content = .ok t') {at' : Location} {entry : Entry}
    (hold : t.lookup at' = some entry) : t'.lookup at' = some entry := by
  obtain ⟨-, -, place, -, -, hfree, rfl⟩ := createFile_eq_ok h
  exact lookup_put_of_stands hfree _ hold

/-! ## What is there already -/

/-- That something exists is never the fault of a path. -/
theorem checkPath_ne_alreadyExists (p : Path) : checkPath p ≠ .error .alreadyExists := by
  unfold checkPath
  split
  · simp
  · split
    · simp
    · split <;> simp

/-- Nor of the directory in which something stands. -/
theorem requireDirectory_ne_alreadyExists (t : FileTree) (place : Location) :
    t.requireDirectory place ≠ .error .alreadyExists := by
  unfold requireDirectory
  split <;> simp

/-- Nor of a step. -/
theorem step_ne_alreadyExists (t : FileTree) (place : Location) (s : Path.Step) :
    t.step place s ≠ .error .alreadyExists := by
  cases hrequired : t.requireDirectory place with
  | error kind =>
    have hkind : kind ≠ .alreadyExists := by
      rintro rfl
      exact t.requireDirectory_ne_alreadyExists place hrequired
    cases s <;> simp [step, hrequired, bind, Except.bind, hkind]
  | ok _ =>
    cases s with
    | stay | up => simp [step, hrequired, bind, Except.bind, pure, Except.pure]
    | down name =>
      simp only [step, hrequired, bind, Except.bind, child]
      split <;> simp

/-- No step on the way to a place fails because something exists. -/
theorem walk_ne_alreadyExists (t : FileTree) (place : Location) (steps : List Path.Step) :
    t.walk place steps ≠ .error .alreadyExists := by
  unfold walk
  induction steps generalizing place with
  | nil => simp [pure, Except.pure]
  | cons s rest ih =>
    rw [List.foldlM_cons]
    cases hstep : t.step place s with
    | error kind =>
      intro h
      obtain rfl : kind = .alreadyExists := Except.error.inj h
      exact t.step_ne_alreadyExists place s hstep
    | ok next => exact ih next

/-- **A file inside a directory exists already** just if something has its name. -/
theorem createFile_join_eq_alreadyExists_iff {directory : Path} {name : String} (hname : IsFileName name) :
    t.createFile (directory.join name) content = .error .alreadyExists ↔
      t.exists? (directory.join name) = true := by
  have hslash := Path.endsInSlash_join directory hname.toIsName
  unfold createFile exists? vacancy resolve
  cases hcheck : checkPath (directory.join name) with
  | error kind =>
    have hkind : kind ≠ .alreadyExists := by
      rintro rfl
      exact checkPath_ne_alreadyExists _ hcheck
    simp [hslash, bind, Except.bind, Except.toOption, hkind]
  | ok _ =>
    rw [start, Path.isAbsolute_join directory hname.toIsName, Path.steps_join directory hname.toIsName,
      List.dropLast_concat, walk, walk, List.foldlM_append]
    cases hwalk : directory.steps.foldlM t.step (t.start directory) with
    | error kind =>
      have hkind : kind ≠ .alreadyExists := by
        rintro rfl
        exact t.walk_ne_alreadyExists _ _ hwalk
      rw [← start, hwalk]
      simp [hslash, bind, Except.bind, Except.toOption, hkind]
    | ok folder =>
      rw [← start, hwalk]
      cases hrequired : t.requireDirectory folder with
      | error kind =>
        have hkind : kind ≠ .alreadyExists := by
          rintro rfl
          exact t.requireDirectory_ne_alreadyExists folder hrequired
        simp [hslash, bind, Except.bind, Except.toOption, hkind, step, hrequired]
      | ok _ =>
        cases hfound : t.lookup (folder ++ [name]) with
        | none =>
          simp [hslash, bind, Except.bind, pure, Except.pure, Except.toOption, throw, throwThe,
            MonadExceptOf.throw, step, hrequired, child_fileName hname, hfound]
        | some entry =>
          cases entry <;>
            simp [hslash, bind, Except.bind, pure, Except.pure, Except.toOption, throw, throwThe,
              MonadExceptOf.throw, step, hrequired, child_fileName hname, hfound]

/-! ## In two trees -/

/-- **A path that is free in two trees or in neither** takes a new file in both or in neither, at one place. -/
theorem createFile_congr (h : t.vacancy p = t'.vacancy p) (content : List UInt8) :
    (∃ kind, t.createFile p content = .error kind ∧ t'.createFile p content = .error kind) ∨
      ∃ place, t.vacancy p = .ok place ∧ t.createFile p content = .ok (t.put place (.file content)) ∧
        t'.createFile p content = .ok (t'.put place (.file content)) := by
  unfold createFile
  cases hslash : p.endsInSlash with
  | true => cases hcheck : checkPath p <;> simp [bind, Except.bind, throw, throwThe, MonadExceptOf.throw]
  | false => 
    rw [← h]
    cases hvacancy : t.vacancy p <;> simp [bind, Except.bind, pure, Except.pure]

/-- **A file with one name inside a directory** is created in two trees or in neither, if the name is free in
both or in neither. After it the directory stands in one place in both, with the same under that name. -/
theorem createFile_join_congr {directory : Path} {name : String} (hname : IsFileName name)
    (h : t.vacancy (directory.join name) = t'.vacancy (directory.join name)) (content : List UInt8) :
    (∃ kind, t.createFile (directory.join name) content = .error kind ∧
      t'.createFile (directory.join name) content = .error kind) ∨
      ∃ after after' folder, t.createFile (directory.join name) content = .ok after ∧
        t'.createFile (directory.join name) content = .ok after' ∧ after.Reaches directory folder ∧
        after'.Reaches directory folder ∧ after.lookup (folder ++ [name]) = after'.lookup (folder ++ [name]) := by
  rcases createFile_congr h content with hnone | ⟨place, hvacancy, hcreate, hcreate'⟩
  · exact Or.inl hnone
  have hplace {u : FileTree} (hfree : u.vacancy (directory.join name) = .ok place)
      (hcreated : u.createFile (directory.join name) content = .ok (u.put place (.file content))) :
      ∃ folder, place = folder ++ [name] ∧ (u.put place (.file content)).Reaches directory folder := by
    obtain ⟨folder, hwalk, hfolder, -, -⟩ := createFile_join_eq_ok hname hcreated
    have hreaches : u.Reaches directory folder := ⟨hwalk, hfolder⟩
    obtain ⟨-, hwalked, hnew⟩ := vacancy_eq_ok hfree
    obtain rfl : folder ++ [name] = place := Except.ok.inj ((hreaches.walk_join hname).symm.trans hwalked)
    exact ⟨folder, rfl, hreaches.put (by simp) hnew _⟩
  obtain ⟨folder, rfl, hreaches⟩ := hplace hvacancy hcreate
  obtain ⟨folder', hsame, hreaches'⟩ := hplace (h ▸ hvacancy) hcreate'
  obtain rfl : folder = folder' := List.append_cancel_right hsame
  refine Or.inr ⟨_, _, folder, hcreate, hcreate', hreaches, hreaches', ?_⟩
  rw [lookup_put (by simp), lookup_put (by simp), if_pos rfl, if_pos rfl]

end FileTree
end Cashpoint
