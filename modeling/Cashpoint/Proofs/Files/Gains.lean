/-
# What a tree gains

Files and directories are added to a tree and never changed or taken away. What a call
added is told by the files that are new, all of them (`Gains`); directories may be new
besides. Making directories gains no file, whether it fails or not
(`gains_makeDirectories`).

The directories that are made stand no deeper than their paths go down
(`length_walk_le`). A way that never goes up is known from where it ends: in a tree
where all that stands has directories around it, it can be walked as soon as something
stands at its end (`IsTree.walk_of_stands`).
-/

import Cashpoint.Proofs.Files.Create

namespace Cashpoint
namespace FileTree

/-! ## Gains -/

/-- All that stood before stands after, and the new files are these. -/
structure Gains (before after : FileTree) (new : List (Location × List UInt8)) : Prop where
  home_eq : after.home = before.home
  kept : ∀ {place entry}, before.lookup place = some entry → after.lookup place = some entry
  free : ∀ {place content}, (place, content) ∈ new → before.lookup place = none
  stands : ∀ {place content}, (place, content) ∈ new → after.lookup place = some (.file content)
  of_file : ∀ {place content}, after.lookup place = some (.file content) →
    before.lookup place = some (.file content) ∨ (place, content) ∈ new

variable {before after t t' : FileTree} {new : List (Location × List UInt8)} {place : Location}

/-- A tree that stays gains nothing. -/
theorem Gains.refl (t : FileTree) : t.Gains t [] :=
  ⟨rfl, id, by simp, by simp, Or.inl⟩

/-- What is free after was free before. -/
theorem Gains.lookup_eq_none (h : before.Gains after new) (hfree : after.lookup place = none) :
    before.lookup place = none := by
  cases hbefore : before.lookup place with
  | none => rfl
  | some entry => exact absurd (h.kept hbefore) (by simp [hfree])

/-- A new directory at a free place is no new file. -/
theorem Gains.put_directory (h : before.Gains after new) (hfree : after.lookup place = none) :
    before.Gains (after.put place .directory) new where
  home_eq := h.home_eq
  kept hold := lookup_put_of_stands hfree _ (h.kept hold)
  free := h.free
  stands hnew := lookup_put_of_stands hfree _ (h.stands hnew)
  of_file hfile := by
    rw [lookup_put (ne_nil_of_free hfree)] at hfile
    split at hfile
    · simp at hfile
    · exact h.of_file hfile

/-- A new file at a free place is gained. -/
theorem Gains.put_file (h : before.Gains after new) (hfree : after.lookup place = none) (content : List UInt8) :
    before.Gains (after.put place (.file content)) (new ++ [(place, content)]) where
  home_eq := h.home_eq
  kept hold := lookup_put_of_stands hfree _ (h.kept hold)
  free hnew := by
    rcases List.mem_append.1 hnew with hnew | hnew
    · exact h.free hnew
    · obtain ⟨rfl, rfl⟩ := Prod.mk.inj (List.mem_singleton.1 hnew)
      exact h.lookup_eq_none hfree
  stands hnew := by
    rcases List.mem_append.1 hnew with hnew | hnew
    · exact lookup_put_of_stands hfree _ (h.stands hnew)
    · obtain ⟨rfl, rfl⟩ := Prod.mk.inj (List.mem_singleton.1 hnew)
      rw [lookup_put (ne_nil_of_free hfree), if_pos rfl]
  of_file hfile := by
    rw [lookup_put (ne_nil_of_free hfree)] at hfile
    split at hfile
    · rename_i heq
      obtain rfl := heq
      obtain rfl := Entry.file.inj (Option.some.inj hfile)
      exact Or.inr (by simp)
    · exact (h.of_file hfile).imp_right fun hnew => List.mem_append_left _ hnew

/-- **No directory is new** if every directory that stands was there before. Then all is as it was. -/
theorem Gains.lookup_eq (h : before.Gains after [])
    (hdirectory : ∀ place, after.lookup place = some .directory → before.lookup place ≠ none) (place : Location) :
    after.lookup place = before.lookup place := by
  cases hbefore : before.lookup place with
  | some entry => exact h.kept hbefore
  | none =>
    cases hafter : after.lookup place with
    | none => rfl
    | some entry =>
      cases entry with
      | directory => exact absurd hbefore (hdirectory place hafter)
      | file content =>
        rcases h.of_file hafter with hold | hnew
        · simp [hbefore] at hold
        · simp at hnew

/-! ## Making directories -/

/-- **A new directory is put at a free place.** -/
theorem makeDirectory_eq_ok {p : Path} (h : t.makeDirectory p = .ok t') :
    ∃ place, t.walk (t.start p) p.steps = .ok place ∧ t.lookup place = none ∧ t' = t.put place .directory := by
  unfold makeDirectory at h
  cases hvacancy : t.vacancy p with
  | error kind => simp [hvacancy, bind, Except.bind] at h
  | ok place =>
    obtain ⟨-, hwalk, hfree⟩ := vacancy_eq_ok hvacancy
    exact ⟨place, hwalk, hfree, by simpa [hvacancy, bind, Except.bind, pure, Except.pure] using h.symm⟩

/-- **What one new directory preserves**, all of them preserve, also where making them fails. -/
theorem makeDirectories_induction {P : FileTree → Prop} {paths : List Path}
    (hstep : ∀ t t' p, p ∈ paths → P t → t.makeDirectory p = .ok t' → P t') (h : P t) :
    P (t.makeDirectories paths).2 := by
  induction paths generalizing t with
  | nil => exact h
  | cons p around ih =>
    have haround : P (t.makeDirectories around).2 :=
      ih (fun t t' q hq => hstep t t' q (List.mem_cons_of_mem _ hq)) h
    unfold makeDirectories
    split
    · rename_i made hmade
      exact hstep _ _ p List.mem_cons_self h hmade
    · split
      · rename_i heq
        rw [heq] at haround
        exact haround
      · rename_i between heq
        rw [heq] at haround
        split
        · rename_i made hmade
          exact hstep _ _ p List.mem_cons_self haround hmade
        · exact haround
    · exact h

/-- **Making directories makes no file**, and changes nothing that is there. -/
theorem gains_makeDirectories (t : FileTree) (paths : List Path) : t.Gains (t.makeDirectories paths).2 [] := by
  refine makeDirectories_induction (P := (t.Gains · [])) (fun made made' p _ hgains hmade => ?_) (Gains.refl t)
  obtain ⟨place, -, hfree, rfl⟩ := makeDirectory_eq_ok hmade
  exact hgains.put_directory hfree

/-! ## How far a walk goes -/

/-- The names that steps go down to. -/
def names (steps : List Path.Step) : List String :=
  steps.filterMap fun step =>
    match step with
    | .down name => some name
    | .stay | .up => none

/-- The beginning of a way has at most as many names as the way. -/
theorem length_names_le_of_prefix {steps more : List Path.Step} (h : steps <+: more) :
    (names steps).length ≤ (names more).length :=
  (h.filterMap _).length_le

/-- What one step from a place leads to. -/
theorem step_eq_ok {s : Path.Step} {next : Location} (h : t.step place s = .ok next) :
    t.lookup place = some .directory ∧ (s = .stay ∧ next = place ∨ s = .up ∧ next = place.dropLast ∨
      ∃ name, s = .down name ∧ next = place ++ [name] ∧ child place name = .ok next) := by
  have hdirectory : t.requireDirectory place = .ok () := by
    cases hr : t.requireDirectory place with
    | ok _ => rfl
    | error kind => cases s <;> simp [step, hr, bind, Except.bind] at h
  constructor
  · unfold requireDirectory at hdirectory
    split at hdirectory
    · assumption
    · simp at hdirectory
    · simp at hdirectory
  · cases s with
    | stay => exact Or.inl ⟨rfl, by simpa [step, hdirectory, bind, Except.bind, pure, Except.pure] using h.symm⟩
    | up =>
      exact Or.inr (Or.inl ⟨rfl, by simpa [step, hdirectory, bind, Except.bind, pure, Except.pure] using h.symm⟩)
    | down name =>
      have hchild : child place name = .ok next := by simpa [step, hdirectory, bind, Except.bind] using h
      refine Or.inr (Or.inr ⟨name, rfl, ?_, hchild⟩)
      unfold child at hchild
      split at hchild
      · simp at hchild
      · exact (Except.ok.inj hchild).symm

/-- A walk ends well if its first step does, and the others do from there. -/
theorem walk_cons_eq_ok {s : Path.Step} {rest : List Path.Step} {final : Location} :
    t.walk place (s :: rest) = .ok final ↔ ∃ next, t.step place s = .ok next ∧ t.walk next rest = .ok final := by
  unfold walk
  rw [List.foldlM_cons]
  cases t.step place s <;> simp [bind, Except.bind]

/-- A walk ends well if it does so up to its last step, and that one does. -/
theorem walk_concat_eq_ok {s : Path.Step} {steps : List Path.Step} {final : Location} :
    t.walk place (steps ++ [s]) = .ok final ↔
      ∃ between, t.walk place steps = .ok between ∧ t.step between s = .ok final := by
  unfold walk
  rw [List.foldlM_append]
  cases steps.foldlM t.step place with
  | error kind => simp [bind, Except.bind]
  | ok between => cases hstep : t.step between s <;> simp [bind, Except.bind, pure, Except.pure, hstep]

/-- **A walk ends no deeper than it goes down.** -/
theorem length_walk_le {steps : List Path.Step} {final : Location} (h : t.walk place steps = .ok final) :
    final.length ≤ place.length + (names steps).length := by
  induction steps generalizing place with
  | nil =>
    obtain rfl : place = final := Except.ok.inj h
    exact Nat.le_add_right ..
  | cons s rest ih =>
    obtain ⟨next, hstep, hrest⟩ := walk_cons_eq_ok.1 h
    have hle := ih hrest
    obtain ⟨-, ⟨rfl, rfl⟩ | ⟨rfl, rfl⟩ | ⟨name, rfl, rfl, -⟩⟩ := step_eq_ok hstep
    · exact hle
    · have hshorter := place.length_dropLast
      simp only [names, List.filterMap_cons] at hle ⊢
      omega
    · simp only [names, List.filterMap_cons, List.length_append, List.length_cons, List.length_nil] at hle ⊢
      omega

/-- **A walk that never goes up** ends where its names lead. -/
theorem eq_of_walk {steps : List Path.Step} (hup : .up ∉ steps) {final : Location}
    (h : t.walk place steps = .ok final) : final = place ++ names steps := by
  induction steps generalizing place with
  | nil =>
    obtain rfl : place = final := Except.ok.inj h
    exact (List.append_nil _).symm
  | cons s rest ih =>
    obtain ⟨next, hstep, hrest⟩ := walk_cons_eq_ok.1 h
    have hfinal := ih (fun hmem => hup (List.mem_cons_of_mem _ hmem)) hrest
    obtain ⟨-, ⟨rfl, rfl⟩ | ⟨rfl, -⟩ | ⟨name, rfl, rfl, -⟩⟩ := step_eq_ok hstep
    · exact hfinal
    · exact absurd List.mem_cons_self hup
    · rw [hfinal, List.append_assoc]
      rfl

/-- In trees with the same entries every walk is the same. -/
theorem walk_congr (h : ∀ place, t.lookup place = t'.lookup place) (place : Location) (steps : List Path.Step) :
    t.walk place steps = t'.walk place steps := by
  have hstep : t.step = t'.step := by
    funext at' s
    have hrequire : t.requireDirectory at' = t'.requireDirectory at' := by
      simp only [requireDirectory, h]
    cases s <;> simp only [step, hrequire]
  rw [walk, walk, hstep]

/-! ## Names that can be created -/

/-- A path can be used if it has no zero character, some text, and not too much of it. -/
theorem checkPath_eq_ok_iff {p : Path} : checkPath p = .ok () ↔
    Char.ofNat 0 ∉ p.text.toList ∧ p.text ≠ "" ∧ p.text.utf8ByteSize ≤ longestPath := by
  unfold checkPath
  split
  · rename_i hzero
    simp [List.contains_iff_mem.1 hzero]
  · rename_i hzero
    split
    · rename_i hempty
      simp [hempty]
    · rename_i hne
      rw [List.contains_iff_mem] at hzero
      split
      · simp [hzero, hne]
        omega
      · simp [hzero, hne]
        omega

/-- A name in a path that can be followed has no zero in it. -/
theorem noZero_of_checkPath_join {directory : Path} {name : String} (h : checkPath (directory.join name) = .ok ()) :
    Char.ofNat 0 ∉ name.toList := by
  intro hmem
  refine (checkPath_eq_ok_iff.1 h).1 ?_
  by_cases hne : directory.text = ""
  · rw [Path.join_of_empty hne]
    exact hmem
  · obtain ⟨front, -, hjoin⟩ := Path.toList_join hne name
    rw [hjoin]
    simp [hmem]

/-- A name that can be gone down to is not too long. -/
theorem size_le_of_child {name : String} {next : Location} (h : child place name = .ok next) :
    name.utf8ByteSize ≤ longestName := by
  unfold child at h
  split at h
  · simp at h
  · omega

/-- **A name under which a file was created** is the name of a file. -/
theorem isFileName_of_createFile {directory : Path} {name : String} {content : List UInt8} (hname : IsName name)
    (h : t.createFile (directory.join name) content = .ok t') : IsFileName name := by
  obtain ⟨hcheck, -, final, hwalk, -⟩ := createFile_eq_ok h
  rw [Path.steps_join directory hname] at hwalk
  obtain ⟨folder, -, hstep⟩ := walk_concat_eq_ok.1 hwalk
  obtain ⟨-, ⟨hstay, -⟩ | ⟨hup, -⟩ | ⟨found, hdown, -, hchild⟩⟩ := step_eq_ok hstep
  · simp at hstay
  · simp at hup
  · obtain rfl := Path.Step.down.inj hdown
    exact ⟨hname, noZero_of_checkPath_join hcheck, size_le_of_child hchild⟩

/-! ## Trees -/

/-- Whatever stands in something stands in a directory. -/
def IsTree (t : FileTree) : Prop :=
  ∀ place name entry, t.lookup (place ++ [name]) = some entry → t.lookup place = some .directory

/-- A tree with one entry, which stands in the root. -/
theorem isTree_put (name : String) (entry : Entry) : (({} : FileTree).put [name] entry).IsTree := by
  intro place name' entry' h
  rw [lookup_put (by simp)] at h
  split at h
  · rename_i hplace
    cases place with
    | nil => rfl
    | cons first rest => simp at hplace
  · simp [lookup] at h

/-- Whatever stands deeper in something stands in a directory. -/
theorem IsTree.lookup_of_append (h : t.IsTree) {more : List String} (hmore : more ≠ []) {entry : Entry}
    (hstands : t.lookup (place ++ more) = some entry) : t.lookup place = some .directory := by
  induction more generalizing place with
  | nil => exact absurd rfl hmore
  | cons name rest ih =>
    by_cases hrest : rest = []
    · subst hrest
      exact h place name entry hstands
    · rw [List.append_cons] at hstands
      exact h place name _ (ih hrest hstands)

/-- **A way that never goes up** can be walked if something stands at its end. -/
theorem IsTree.walk_of_stands (h : before.IsTree) {steps : List Path.Step} (hup : .up ∉ steps) {final : Location}
    (hwalk : after.walk place steps = .ok final) {name : String} {entry : Entry}
    (hstands : before.lookup (final ++ [name]) = some entry) : before.walk place steps = .ok final := by
  induction steps generalizing place with
  | nil => exact hwalk
  | cons s rest ih =>
    obtain ⟨next, hstep, hrest⟩ := walk_cons_eq_ok.1 hwalk
    refine walk_cons_eq_ok.2 ⟨next, ?_, ih (fun hmem => hup (List.mem_cons_of_mem _ hmem)) hrest⟩
    -- The place of this step is above the end, so a directory stands there.
    rw [eq_of_walk hup hwalk, List.append_assoc] at hstands
    have hbefore := h.lookup_of_append (by simp) hstands
    have hafter := (step_eq_ok hstep).1
    rw [← hstep]
    cases s <;> simp only [step, requireDirectory, hbefore, hafter]

end FileTree
end Cashpoint
