/-
# Ways that are clear

A way is clear if it never goes up, none of its names is too long, and no file stands on
it (`IsClear`). Directories may be missing. Such a way can fail for one reason only, that
something is not there yet (`IsClear.walk_or_notFound`), so making the directories on it
always ends well, and the way leads to a directory then
(`exists_makeDirectories_beginnings`).
-/

import Cashpoint.Proofs.Files.Directories

namespace Cashpoint
namespace Path

variable {front : List String} {last : String}

/-- The steps of pieces: the last piece is the last step, unless it is empty. -/
theorem steps_ofPieces_concat (hslash : ∀ piece ∈ front ++ [last], '/' ∉ piece.toList) :
    (ofPieces (front ++ [last])).steps = (ofPieces front).steps ++ if last = "" then [] else [Step.ofPiece last] := by
  have hlast : (([last].filter (· ≠ "")).map Step.ofPiece) = if last = "" then [] else [Step.ofPiece last] := by
    split <;> simp_all
  rw [steps, pieces_ofPieces (by simp) hslash, List.filter_append, List.map_append, hlast]
  congr 1
  by_cases hfront : front = []
  · subst hfront
    rfl
  · rw [steps, pieces_ofPieces hfront fun piece hpiece => hslash piece (List.mem_append_left _ hpiece)]

/-- A piece that moves goes up or down. -/
theorem exists_ofPiece_eq_down (hmove : isMove last = true) (hup : Step.ofPiece last ≠ .up) :
    ∃ name, Step.ofPiece last = .down name := by
  have hdot : last ≠ "." := by
    rintro rfl
    simp [isMove] at hmove
  have hdots : last ≠ ".." := by
    rintro rfl
    exact hup rfl
  exact ⟨last, by rw [Step.ofPiece, if_neg hdot, if_neg hdots]⟩

end Path

namespace FileTree

variable {t made : FileTree} {first : Location} {steps more : List Path.Step} {p : Path}

/-- A way that never goes up, with no name that is too long and no file on it. -/
structure IsClear (t : FileTree) (first : Location) (steps : List Path.Step) : Prop where
  noUp : .up ∉ steps
  short : ∀ {name}, .down name ∈ steps → name.utf8ByteSize ≤ longestName
  noFile : ∀ {passed}, passed <+: names steps → ∀ content, t.lookup (first ++ passed) ≠ some (.file content)

/-- The names of steps one after another. -/
theorem names_append (steps more : List Path.Step) : names (steps ++ more) = names steps ++ names more :=
  List.filterMap_append

/-- The names of the first step come before the others. -/
theorem names_cons (s : Path.Step) (rest : List Path.Step) : names (s :: rest) = names [s] ++ names rest :=
  names_append [s] rest

/-- The beginning of a clear way is clear. -/
theorem IsClear.of_append (h : t.IsClear first (steps ++ more)) : t.IsClear first steps where
  noUp hmem := h.noUp (List.mem_append_left _ hmem)
  short hmem := h.short (List.mem_append_left _ hmem)
  noFile hpassed := h.noFile (hpassed.trans (by rw [names_append]; exact List.prefix_append ..))

/-- The rest of a clear way is clear. -/
theorem IsClear.tail {s : Path.Step} (h : t.IsClear first (s :: steps)) : t.IsClear (first ++ names [s]) steps where
  noUp hmem := h.noUp (List.mem_cons_of_mem _ hmem)
  short hmem := h.short (List.mem_cons_of_mem _ hmem)
  noFile hpassed := by
    rw [List.append_assoc]
    refine h.noFile ?_
    rw [names_cons s steps]
    exact (List.prefix_append_right_inj _).2 hpassed

/-- A way stays clear while no file is made. -/
theorem IsClear.of_gains (h : t.IsClear first steps) (hgains : t.Gains made []) : made.IsClear first steps where
  noUp := h.noUp
  short := h.short
  noFile hpassed content hfile :=
    h.noFile hpassed content ((hgains.of_file hfile).resolve_right (by simp))

/-- A step on a clear way leads on from every directory. -/
theorem IsClear.step_eq {s : Path.Step} (h : t.IsClear first (s :: steps))
    (hstands : t.lookup first = some .directory) :
    t.step first s = .ok (first ++ names [s]) := by
  have hrequired : t.requireDirectory first = .ok () := by simp only [requireDirectory, hstands]
  cases s with
  | stay => simp [step, hrequired, names, bind, Except.bind, pure, Except.pure]
  | up => exact absurd List.mem_cons_self h.noUp
  | down name =>
    have hchild : child first name = .ok (first ++ [name]) :=
      if_neg (Nat.not_lt.2 (h.short List.mem_cons_self))
    simp [step, hrequired, hchild, names, bind, Except.bind]

/-- **A clear way can be walked** to every directory on it. -/
theorem IsClear.walk_eq (h : t.IsClear first steps) (htree : t.IsTree)
    (hend : t.lookup (first ++ names steps) = some .directory) : t.walk first steps = .ok (first ++ names steps) := by
  induction steps generalizing first with
  | nil => simp [walk, names, pure, Except.pure]
  | cons s rest ih =>
    rw [names_cons, ← List.append_assoc] at hend ⊢
    refine walk_cons_eq_ok.2 ⟨first ++ names [s], h.step_eq ?_, ih h.tail hend⟩
    rw [List.append_assoc] at hend
    by_cases hnames : names [s] ++ names rest = []
    · rwa [hnames, List.append_nil] at hend
    · exact htree.lookup_of_append hnames hend

/-- **A clear way fails only because something is missing.** -/
theorem IsClear.walk_or_notFound (h : t.IsClear first steps) :
    t.walk first steps = .ok (first ++ names steps) ∨ t.walk first steps = .error .notFound := by
  induction steps generalizing first with
  | nil => simp [walk, names, pure, Except.pure]
  | cons s rest ih =>
    rw [walk_cons]
    rcases hstands : t.lookup first with _ | _ | content
    · have hstep : t.step first s = .error .notFound := by
        cases s <;> simp [step, requireDirectory, hstands, bind, Except.bind]
      exact .inr (by rw [hstep]; rfl)
    · rw [h.step_eq hstands, names_cons s rest, ← List.append_assoc]
      exact ih h.tail
    · exact absurd (by rw [List.append_nil]; exact hstands) (h.noFile List.nil_prefix content)

/-- **Making a directory on a clear way**: it is made, or it is there, or the directory around it is missing. -/
theorem IsClear.makeDirectory_cases (htree : t.IsTree) (hchecked : checkPath p = .ok ()) {name : String}
    (hsteps : p.steps = steps ++ [.down name]) (h : t.IsClear (t.start p) p.steps) :
    (∃ made, t.makeDirectory p = .ok made) ∨
      t.makeDirectory p = .error .alreadyExists ∧ t.isDirectory p = true ∨
      t.makeDirectory p = .error .notFound ∧ t.lookup (t.start p ++ names steps) ≠ some .directory := by
  have hfront : t.IsClear (t.start p) steps := (hsteps ▸ h).of_append
  rcases hstands : t.lookup (t.start p ++ names steps) with _ | _ | content
  · refine .inr (.inr ⟨makeDirectory_eq_error_iff.2 ?_, by simp⟩)
    have hdropLast : p.steps.dropLast = steps := by rw [hsteps, List.dropLast_concat]
    rcases hfront.walk_or_notFound with hwalk | hwalk
    · simp [vacancy, hchecked, hdropLast, hwalk, requireDirectory, hstands, bind, Except.bind]
    · simp [vacancy, hchecked, hdropLast, hwalk, bind, Except.bind]
  · have hwalk := hfront.walk_eq htree hstands
    have happroaches : t.Approaches p (t.start p ++ names steps) :=
      ⟨hchecked, by rw [hsteps, List.dropLast_concat]; exact hwalk, hstands⟩
    have hchild : child (t.start p ++ names steps) name = .ok (t.start p ++ names steps ++ [name]) :=
      if_neg (Nat.not_lt.2 (h.short (by simp [hsteps])))
    have hvacancy := happroaches.vacancy_down hsteps
    rw [hchild, Except.bind] at hvacancy
    rcases hentry : t.lookup (t.start p ++ names steps ++ [name]) with _ | _ | content
    · rw [if_neg (by rw [hentry]; simp)] at hvacancy
      exact .inl ⟨_, by rw [makeDirectory, hvacancy]; rfl⟩
    · rw [if_pos (by rw [hentry]; rfl)] at hvacancy
      refine .inr (.inl ⟨makeDirectory_eq_error_iff.2 hvacancy, isDirectory_iff.2 ⟨_, resolve_eq_ok_iff.2
        ⟨hchecked, ?_, hentry, fun _ => rfl⟩⟩⟩)
      rw [hsteps]
      exact walk_concat_eq_ok.2 ⟨_, hwalk, (happroaches.step_eq.2.2 name).trans hchild⟩
    · refine absurd hentry ?_
      rw [List.append_assoc]
      exact h.noFile (by rw [hsteps, names_append]; exact List.prefix_rfl) content
  · exact absurd hstands (hfront.noFile List.prefix_rfl content)

/-- A directory on a way that never goes up stands where the names lead. -/
theorem lookup_of_isDirectory (hup : .up ∉ p.steps) (h : t.isDirectory p = true) :
    t.lookup (t.start p ++ names p.steps) = some .directory := by
  obtain ⟨place, hplace⟩ := isDirectory_iff.1 h
  obtain ⟨-, hwalk, hentry, -⟩ := resolve_eq_ok_iff.1 hplace
  rwa [← eq_of_walk hup hwalk]

/-- A directory on a clear way can be made together with those around it, if these can be made. -/
theorem IsClear.exists_makeDirectories (htree : t.IsTree) (hchecked : checkPath p = .ok ()) {name : String}
    (hsteps : p.steps = steps ++ [.down name]) (h : t.IsClear (t.start p) p.steps) {around : List Path}
    {between : FileTree} (hbetween : t.makeDirectories around = (.ok (), between))
    (hopen : between.lookup (t.start p ++ names steps) = some .directory) :
    ∃ made, t.makeDirectories (p :: around) = (.ok (), made) ∧
      made.lookup (t.start p ++ names p.steps) = some .directory := by
  have hgains := t.gains_makeDirectories around
  have hbetweenTree := htree.makeDirectories around
  rw [hbetween] at hgains hbetweenTree
  have hdone {after : FileTree} (hhome : after.home = t.home) (hdirectory : after.isDirectory p = true) :
      after.lookup (t.start p ++ names p.steps) = some .directory := by
    have hstands := lookup_of_isDirectory h.noUp hdirectory
    rwa [start, hhome, ← start] at hstands
  have hmade {before made : FileTree} (hhome : before.home = t.home) (h : before.makeDirectory p = .ok made) :
      made.lookup (t.start p ++ names p.steps) = some .directory := by
    refine hdone ?_ (isDirectory_of_makeDirectory h)
    obtain ⟨place, -, -, rfl⟩ := makeDirectory_eq_ok h
    exact hhome
  rcases h.makeDirectory_cases htree hchecked hsteps with ⟨made, hfirst⟩ | ⟨hfirst, hdirectory⟩ | ⟨hfirst, -⟩
  · exact ⟨made, by rw [makeDirectories, hfirst], hmade rfl hfirst⟩
  · exact ⟨t, by simp [makeDirectories, hfirst, hdirectory], hdone rfl hdirectory⟩
  · -- The directories around it were missing, and are there now.
    have hstart : between.start p = t.start p := by rw [start, hgains.home_eq, ← start]
    rcases IsClear.makeDirectory_cases hbetweenTree hchecked hsteps (hstart ▸ h.of_gains hgains) with
      ⟨made, hagain⟩ | ⟨hagain, hdirectory⟩ | ⟨-, hmissing⟩
    · exact ⟨made, by simp [makeDirectories, hfirst, hbetween, hagain], hmade hgains.home_eq hagain⟩
    · exact ⟨between, by simp [makeDirectories, hfirst, hbetween, hagain, hdirectory],
        hdone hgains.home_eq hdirectory⟩
    · exact absurd (hstart ▸ hopen) hmissing

/-- **Directories on a clear way can always be made.** The way leads to a directory then. -/
theorem exists_makeDirectories_beginnings (htree : t.IsTree) {back : List String}
    (hslash : ∀ piece ∈ back, '/' ∉ piece.toList)
    (hpaths : ∀ q ∈ Path.beginnings back, checkPath q = .ok () ∧ t.start q = first)
    (hclear : t.IsClear first (Path.ofPieces back.reverse).steps) (hfirst : t.lookup first = some .directory) :
    ∃ made, t.makeDirectories (Path.beginnings back) = (.ok (), made) ∧
      made.lookup (first ++ names (Path.ofPieces back.reverse).steps) = some .directory := by
  induction back with
  | nil => exact ⟨t, rfl, by simpa [Path.ofPieces, Path.steps, Path.pieces, names] using hfirst⟩
  | cons last before ih =>
    rw [List.reverse_cons] at hclear ⊢
    have hsteps : (Path.ofPieces (before.reverse ++ [last])).steps = _ :=
      Path.steps_ofPieces_concat fun piece hpiece => hslash piece (by simpa [or_comm] using hpiece)
    have haround (hpaths : ∀ q ∈ Path.beginnings before, checkPath q = .ok () ∧ t.start q = first) :=
      ih (fun piece hpiece => hslash piece (List.mem_cons_of_mem _ hpiece)) hpaths (hsteps ▸ hclear).of_append
    unfold Path.beginnings at hpaths ⊢
    by_cases hmove : Path.isMove last = true
    · rw [if_neg (Path.ne_empty_of_isMove hmove)] at hsteps
      obtain ⟨name, hname⟩ := Path.exists_ofPiece_eq_down hmove fun hup => hclear.noUp (by simp [hsteps, hup])
      rw [hname] at hsteps
      rw [if_pos hmove, List.reverse_cons] at hpaths ⊢
      obtain ⟨hchecked, hstart⟩ := hpaths _ List.mem_cons_self
      obtain ⟨between, hbetween, hopen⟩ := haround fun q hq => hpaths q (List.mem_cons_of_mem _ hq)
      subst hstart
      exact hclear.exists_makeDirectories htree hchecked hsteps hbetween hopen
    · rw [if_neg hmove] at hpaths ⊢
      obtain ⟨between, hbetween, hopen⟩ := haround hpaths
      have hstay : names (if last = "" then [] else [Path.Step.ofPiece last]) = [] := by
        by_cases hempty : last = ""
        · rw [if_pos hempty]
          rfl
        · obtain rfl : last = "." := by simpa [Path.isMove, hempty] using hmove
          rfl
      exact ⟨between, hbetween, by rwa [hsteps, names_append, hstay, List.append_nil]⟩

/-- **Directories that are there** are left as they are. -/
theorem makeDirectories_of_isDirectory {paths : List Path} (hway : Path.IsWay paths)
    (hall : ∀ q ∈ paths, t.isDirectory q = true) : t.makeDirectories paths = (.ok (), t) := by
  cases paths with
  | nil => rfl
  | cons p around =>
    have hthere := hall p List.mem_cons_self
    obtain ⟨place, hplace⟩ := isDirectory_iff.1 hthere
    have htaken := makeDirectory_eq_error_iff.2 (vacancy_of_resolve (hway.plain List.mem_cons_self).2 hplace)
    simp [makeDirectories, htaken, hthere]

end FileTree
end Cashpoint
