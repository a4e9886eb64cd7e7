/-
# Making the directories on the way

The directories on the way to a path lie one before the other (`enclosing_pairwise`), and
making them ends well exactly if the innermost is a directory then
(`makeDirectories_eq_ok_iff`).

What a failure is called depends on where it happens. The error `alreadyExists` means
that a regular file stands where a directory is wanted, and that it was the innermost
one, or could not be found until directories before it were made
(`makeDirectories_eq_alreadyExists_iff`). Every other file in the way is a
`notADirectory`, because the path goes on through it (`vacancy_ne_notFound`).
-/

import Cashpoint.Proofs.Files.Enclosing
import Cashpoint.Proofs.Files.Gains

namespace Cashpoint
namespace Path

/-- A path is the beginning of another one up to a slash, and a piece that is a step comes after it. -/
def LiesBefore (q p : Path) : Prop :=
  q.text ≠ "" ∧ ∃ rest : List Char, p.text.toList = q.text.toList ++ '/' :: rest ∧ ∃ c ∈ rest, c ≠ '/'

variable {p q base : Path}

/-- A character other than the slash stands in one of the pieces. -/
theorem exists_mem_splitOn {text : List Char} {c : Char} (hmem : c ∈ text) (hc : c ≠ '/') :
    ∃ piece ∈ text.splitOn '/', c ∈ piece := by
  have hjoined (parts : List (List Char)) (h : c ∈ ['/'].intercalate parts) : ∃ piece ∈ parts, c ∈ piece := by
    induction parts with
    | nil => simp at h
    | cons first more ih =>
      cases more with
      | nil => exact ⟨first, by simp, by simpa using h⟩
      | cons second more =>
        rw [List.intercalate_cons_cons, List.append_assoc, List.mem_append, List.singleton_append, List.mem_cons] at h
        rcases h with h | rfl | h
        · exact ⟨first, by simp, h⟩
        · exact absurd rfl hc
        · obtain ⟨piece, hpiece, hin⟩ := ih h
          exact ⟨piece, List.mem_cons_of_mem _ hpiece, hin⟩
  exact hjoined _ (by rwa [List.intercalate_splitOn])

/-- **The steps of a path go on** where those of a path before it end. -/
theorem LiesBefore.steps_eq (h : q.LiesBefore p) : ∃ more, more ≠ [] ∧ p.steps = q.steps ++ more := by
  obtain ⟨-, rest, hrest, c, hmem, hc⟩ := h
  obtain ⟨piece, hpiece, hin⟩ := exists_mem_splitOn hmem hc
  refine ⟨((((rest.splitOn '/').map String.ofList).filter (· ≠ "")).map Step.ofPiece), ?_, ?_⟩
  · intro hnil
    rw [List.map_eq_nil_iff, List.filter_eq_nil_iff] at hnil
    refine hnil (String.ofList piece) (List.mem_map_of_mem hpiece) (decide_eq_true fun hempty => ?_)
    rw [String.ofList_eq_empty_iff.1 hempty] at hin
    simp at hin
  · rw [steps, pieces, hrest, List.splitOn_append_cons_self, List.map_append, List.filter_append, List.map_append]
    rfl

/-- A path before another one starts where that one does. -/
theorem LiesBefore.isAbsolute_eq (h : q.LiesBefore p) : q.isAbsolute = p.isAbsolute := by
  obtain ⟨hne, rest, hrest, -⟩ := h
  rw [isAbsolute, isAbsolute, hrest]
  cases hq : q.text.toList with
  | nil => exact absurd (String.toList_eq_nil_iff.1 hq) hne
  | cons c _ => rfl

/-- A path before one that can be followed can be followed itself. -/
theorem LiesBefore.checkPath (h : q.LiesBefore p) (hp : FileTree.checkPath p = .ok ()) :
    FileTree.checkPath q = .ok () := by
  obtain ⟨hne, rest, hrest, -⟩ := h
  obtain ⟨hzero, -, hsize⟩ := FileTree.checkPath_eq_ok_iff.1 hp
  refine FileTree.checkPath_eq_ok_iff.2 ⟨fun hmem => hzero (by simp [hrest, hmem]), hne, ?_⟩
  have htext : p.text = q.text ++ String.ofList ('/' :: rest) := String.toList_injective (by simp [hrest])
  rw [htext, String.utf8ByteSize_append] at hsize
  omega

/-! ## The directories on the way to a path -/

/-- Text put at the end of a path comes after all directories on the way. -/
theorem liesBefore_append_of_mem_enclosing (h : q ∈ base.enclosing) {ending : String} {c : Char}
    (hmem : c ∈ ending.toList) (hc : c ≠ '/') : q.LiesBefore (base.append ending) := by
  obtain ⟨hne, rest, hrest⟩ := toList_of_mem_enclosing h
  exact ⟨hne, rest ++ ending.toList, by simp [Path.append, hrest], c, List.mem_append_right _ hmem, hc⟩

/-- The directories around a path are those of fewer and fewer of its pieces. -/
theorem beginnings_pairwise {back : List String} (hslash : ∀ piece ∈ back, '/' ∉ piece.toList) :
    (beginnings back).Pairwise fun p q => q.LiesBefore p := by
  induction back with
  | nil => exact List.Pairwise.nil
  | cons last before ih =>
    have hbefore := ih fun piece hpiece => hslash piece (List.mem_cons_of_mem _ hpiece)
    unfold beginnings
    split
    · rename_i hlast
      refine List.pairwise_cons.2 ⟨fun q hq => ?_, hbefore⟩
      obtain ⟨front, piece, more, hfront, hmove, rfl⟩ := of_mem_beginnings hq
      obtain ⟨c, hc⟩ := List.exists_mem_of_ne_nil last.toList
        (fun hnil => ne_empty_of_isMove hlast (String.toList_eq_nil_iff.1 hnil))
      refine ⟨text_ofPieces_concat_ne (ne_empty_of_isMove hmove) front, (ofPieces (more ++ [last])).text.toList,
        ?_, c, ?_, ?_⟩
      · rw [List.reverse_cons, hfront, ← toList_ofPieces_append (by simp) (by simp)]
        simp
      · by_cases hmore : more = []
        · simp [hmore, ofPieces, hc]
        · rw [toList_ofPieces_append hmore (List.cons_ne_nil last [])]
          simp [ofPieces, hc]
      · rintro rfl
        exact hslash last List.mem_cons_self hc
    · exact hbefore

/-- **The directories on the way lie one before the other**, the innermost first. -/
theorem enclosing_pairwise (p : Path) : p.enclosing.Pairwise fun p q => q.LiesBefore p :=
  (beginnings_pairwise fun _ hpiece => noSlash_of_mem_pieces (List.mem_reverse.1 hpiece)).tail

/-- A directory on the way ends in a piece that is a step, and in no slash. -/
theorem plain_of_mem_enclosing (h : q ∈ p.enclosing) : q.endsInSlash = false ∧ q.steps ≠ [] := by
  obtain ⟨front, piece, more, hpieces, -, hmove, rfl⟩ := of_mem_enclosing h
  have hslash {part : String} (hpart : part ∈ front ++ [piece]) : '/' ∉ part.toList := by
    refine noSlash_of_mem_pieces (p := p) ?_
    rw [hpieces]
    rcases List.mem_append.1 hpart with hpart | hpart
    · exact List.mem_append_left _ hpart
    · exact List.mem_append_right _ (List.mem_singleton.1 hpart ▸ List.mem_cons_self)
  constructor
  · have hnil : piece.toList ≠ [] := fun hnil => ne_empty_of_isMove hmove (String.toList_eq_nil_iff.1 hnil)
    have hlast : (ofPieces (front ++ [piece])).text.toList.getLast? = piece.toList.getLast? := by
      by_cases hfront : front = []
      · simp [hfront, ofPieces]
      · rw [toList_ofPieces_append hfront (by simp), List.getLast?_append]
        simpa [ofPieces, List.getLast?_cons_of_ne_nil hnil] using Option.or_of_isSome (List.getLast?_isSome.2 hnil)
    rw [endsInSlash, hlast, beq_eq_false_iff_ne]
    exact fun h => hslash (by simp) (List.mem_of_getLast? h)
  · rw [steps, pieces_ofPieces (by simp) fun part hpart => hslash hpart]
    simp [ne_empty_of_isMove hmove]

/-- Paths that lie one before the other, the innermost first. Each ends in a step, and in no slash. -/
structure IsWay (paths : List Path) : Prop where
  before : paths.Pairwise fun p q => q.LiesBefore p
  plain : ∀ {p}, p ∈ paths → p.endsInSlash = false ∧ p.steps ≠ []

/-- The directories on the way to a path lie one before the other. -/
theorem isWay_enclosing (p : Path) : IsWay p.enclosing := ⟨p.enclosing_pairwise, plain_of_mem_enclosing⟩

/-- So do those around the innermost. -/
theorem IsWay.tail {paths : List Path} (h : IsWay (p :: paths)) : IsWay paths :=
  ⟨h.before.of_cons, fun hq => h.plain (List.mem_cons_of_mem _ hq)⟩

/-- Each of those lies before the innermost. -/
theorem IsWay.liesBefore {paths : List Path} (h : IsWay (p :: paths)) (hq : q ∈ paths) : q.LiesBefore p :=
  List.rel_of_pairwise_cons h.before hq

end Path

namespace FileTree

variable {t made : FileTree} {p q : Path} {place folder : Location} {entry : Entry}

/-! ## What a path names -/

/-- **What a path names** is what stands where its steps lead. -/
theorem resolve_eq_ok_iff : t.resolve p = .ok (place, entry) ↔ checkPath p = .ok () ∧
    t.walk (t.start p) p.steps = .ok place ∧ t.lookup place = some entry ∧
      (p.endsInSlash = true → entry = .directory) := by
  unfold resolve
  cases hcheck : checkPath p with
  | error kind => simp [bind, Except.bind]
  | ok _ =>
    cases hwalk : t.walk (t.start p) p.steps with
    | error kind => simp [bind, Except.bind]
    | ok reached =>
      by_cases hplace : reached = place
      · subst hplace
        rcases hentry : t.lookup reached with _ | _ | content <;> cases hslash : p.endsInSlash <;> cases entry <;>
          simp [bind, Except.bind, pure, Except.pure, throw, throwThe, MonadExceptOf.throw, hentry]
      · rcases hentry : t.lookup reached with _ | _ | content <;> cases hslash : p.endsInSlash <;>
          simp [bind, Except.bind, pure, Except.pure, throw, throwThe, MonadExceptOf.throw, hentry, hplace]

/-- A path exists if it leads to something. -/
theorem exists?_iff : t.exists? p = true ↔ ∃ place entry, t.resolve p = .ok (place, entry) := by
  unfold exists?
  rcases t.resolve p with kind | ⟨place, entry⟩ <;> simp [Except.toOption]

/-- A path is a directory if it leads to one. -/
theorem isDirectory_iff : t.isDirectory p = true ↔ ∃ place, t.resolve p = .ok (place, .directory) := by
  unfold isDirectory
  split
  · rename_i place hplace
    simp [hplace]
  · rename_i hnone
    simpa using hnone

/-! ## The way to what a path names -/

/-- A walk takes its first step, and goes on from there. -/
theorem walk_cons (t : FileTree) (place : Location) (s : Path.Step) (rest : List Path.Step) :
    t.walk place (s :: rest) = (t.step place s).bind fun next => t.walk next rest := by
  unfold walk
  rw [List.foldlM_cons]
  rfl

/-- A walk takes its first steps, and goes on from there. -/
theorem walk_append (t : FileTree) (place : Location) (steps more : List Path.Step) :
    t.walk place (steps ++ more) = (t.walk place steps).bind fun between => t.walk between more := by
  unfold walk
  rw [List.foldlM_append]
  rfl

/-- A walk ends well if its first part does, and the second does from there. -/
theorem walk_append_eq_ok {steps more : List Path.Step} {final : Location} : t.walk place (steps ++ more) = .ok final ↔
    ∃ between, t.walk place steps = .ok between ∧ t.walk between more = .ok final := by
  rw [walk_append]
  cases t.walk place steps <;> simp [Except.bind]

/-- Steps that lead somewhere start in a directory. -/
theorem lookup_of_walk {steps : List Path.Step} (hne : steps ≠ []) {final : Location}
    (h : t.walk place steps = .ok final) : t.lookup place = some .directory := by
  cases steps with
  | nil => exact absurd rfl hne
  | cons s rest =>
    obtain ⟨next, hstep, -⟩ := walk_cons_eq_ok.1 h
    exact (step_eq_ok hstep).1

/-- The path can be followed up to its last step, into a directory. -/
structure Approaches (t : FileTree) (p : Path) (folder : Location) : Prop where
  checked : checkPath p = .ok ()
  walked : t.walk (t.start p) p.steps.dropLast = .ok folder
  stands : t.lookup folder = some .directory

/-- The last step is taken from a directory. -/
theorem Approaches.requireDirectory (h : t.Approaches p folder) : t.requireDirectory folder = .ok () := by
  simp only [FileTree.requireDirectory, h.stands]

/-- One step from the directory that the path leads to. -/
theorem Approaches.step_eq (h : t.Approaches p folder) : t.step folder .stay = .ok folder ∧
    t.step folder .up = .ok folder.dropLast ∧ ∀ name, t.step folder (.down name) = child folder name := by
  simp [step, h.requireDirectory, bind, Except.bind, pure, Except.pure]

/-- A path that goes down to a name stands for what has the name, or for a free place. -/
theorem Approaches.vacancy_down (h : t.Approaches p folder) {front : List Path.Step} {name : String}
    (hsteps : p.steps = front ++ [.down name]) : t.vacancy p = (child folder name).bind fun place =>
      if (t.lookup place).isSome then .error .alreadyExists else .ok place := by
  have hlast : p.steps.getLast? = some (.down name) := by simp [hsteps]
  simp only [vacancy, h.checked, h.walked, h.requireDirectory, hlast, bind, Except.bind]
  rfl

/-- A path that does not end in a name stands for a directory that is there. -/
theorem Approaches.vacancy_other (h : t.Approaches p folder)
    (hlast : ∀ name, p.steps.getLast? ≠ some (.down name)) : t.vacancy p = .error .alreadyExists := by
  simp only [vacancy, h.checked, h.walked, h.requireDirectory, bind, Except.bind]
  rfl

/-- A path at which a directory can be made, or something stands already, can be followed up to its last step. -/
theorem approaches_of_vacancy (h : (∃ place, t.vacancy p = .ok place) ∨ t.vacancy p = .error .alreadyExists) :
    ∃ folder, t.Approaches p folder := by
  have hkind (kind : IoKind) (hne : kind ≠ .alreadyExists) : t.vacancy p ≠ .error kind := by
    rintro hkind
    rcases h with ⟨place, h⟩ | h <;> simp_all
  cases hcheck : checkPath p with
  | error kind =>
    refine absurd ?_ (hkind kind fun heq => checkPath_ne_alreadyExists p (heq ▸ hcheck))
    simp [vacancy, hcheck, bind, Except.bind]
  | ok _ =>
    cases hwalk : t.walk (t.start p) p.steps.dropLast with
    | error kind =>
      refine absurd ?_ (hkind kind fun heq => t.walk_ne_alreadyExists _ _ (heq ▸ hwalk))
      simp [vacancy, hcheck, hwalk, bind, Except.bind]
    | ok folder =>
      cases hrequired : t.requireDirectory folder with
      | error kind =>
        refine absurd ?_ (hkind kind fun heq => t.requireDirectory_ne_alreadyExists _ (heq ▸ hrequired))
        simp [vacancy, hcheck, hwalk, hrequired, bind, Except.bind]
      | ok _ =>
        refine ⟨folder, hcheck, hwalk, ?_⟩
        unfold requireDirectory at hrequired
        split at hrequired
        · assumption
        · simp at hrequired
        · simp at hrequired

/-- What is there can be reached by its last step. -/
theorem approaches_of_resolve {front : List Path.Step} {last : Path.Step} (hsteps : p.steps = front ++ [last])
    (h : t.resolve p = .ok (place, entry)) : ∃ folder, t.Approaches p folder ∧ t.step folder last = .ok place := by
  obtain ⟨hcheck, hwalk, -⟩ := resolve_eq_ok_iff.1 h
  rw [hsteps] at hwalk
  obtain ⟨folder, hwalk, hlast⟩ := walk_concat_eq_ok.1 hwalk
  exact ⟨folder, ⟨hcheck, by rwa [hsteps, List.dropLast_concat], (step_eq_ok hlast).1⟩, hlast⟩

/-- **What is there cannot be made anew.** -/
theorem vacancy_of_resolve (hsteps : p.steps ≠ []) (h : t.resolve p = .ok (place, entry)) :
    t.vacancy p = .error .alreadyExists := by
  obtain ⟨front, last, hlast⟩ := (List.eq_nil_or_concat p.steps).resolve_left hsteps
  rw [List.concat_eq_append] at hlast
  obtain ⟨folder, happroaches, hstep⟩ := approaches_of_resolve hlast h
  cases last with
  | stay | up => exact happroaches.vacancy_other (by simp [hlast])
  | down name =>
    obtain ⟨-, ⟨hstay, -⟩ | ⟨hup, -⟩ | ⟨found, hdown, -, hchild⟩⟩ := step_eq_ok hstep
    · simp at hstay
    · simp at hup
    · obtain rfl := Path.Step.down.inj hdown
      simp [happroaches.vacancy_down hlast, hchild, Except.bind, (resolve_eq_ok_iff.1 h).2.2.1]

/-- Above a directory of a tree is a directory. -/
theorem IsTree.lookup_dropLast (h : t.IsTree) (hstands : t.lookup place = some .directory) :
    t.lookup place.dropLast = some .directory := by
  rcases List.eq_nil_or_concat place with rfl | ⟨front, name, rfl⟩
  · rfl
  · rw [List.concat_eq_append] at hstands ⊢
    rw [List.dropLast_concat]
    exact h front name _ hstands

/-- **What is there already is a directory or a file.** -/
theorem exists_file_of_vacancy (htree : t.IsTree) (hslash : p.endsInSlash = false) (hsteps : p.steps ≠ [])
    (h : t.vacancy p = .error .alreadyExists) (hdirectory : t.isDirectory p = false) :
    ∃ place content, t.resolve p = .ok (place, .file content) := by
  obtain ⟨folder, happroaches⟩ := approaches_of_vacancy (.inr h)
  obtain ⟨front, last, hlast⟩ := (List.eq_nil_or_concat p.steps).resolve_left hsteps
  rw [List.concat_eq_append] at hlast
  have hwalk {place : Location} (hstep : t.step folder last = .ok place) : t.walk (t.start p) p.steps = .ok place := by
    have hwalked := happroaches.walked
    rw [hlast, List.dropLast_concat] at hwalked
    rw [hlast]
    exact walk_concat_eq_ok.2 ⟨folder, hwalked, hstep⟩
  -- A step that stays or goes up ends in a directory, which is none of the file's places.
  have hnone {place : Location} (hstep : t.step folder last = .ok place) (hstands : t.lookup place = some .directory) :
      False := by
    have hfound := isDirectory_iff.2 ⟨place, resolve_eq_ok_iff.2
      ⟨happroaches.checked, hwalk hstep, hstands, fun _ => rfl⟩⟩
    simp [hdirectory] at hfound
  obtain ⟨hstay, hup, hdown⟩ := happroaches.step_eq
  cases last with
  | stay => exact (hnone hstay happroaches.stands).elim
  | up => exact (hnone hup (htree.lookup_dropLast happroaches.stands)).elim
  | down name =>
    rw [happroaches.vacancy_down hlast] at h
    cases hchild : child folder name with
    | error kind =>
      rw [hchild] at h
      unfold child at hchild
      split at hchild <;> simp_all [Except.bind]
    | ok place =>
      have hdown : t.step folder (.down name) = .ok place := (hdown name).trans hchild
      rcases hentry : t.lookup place with _ | _ | content
      · simp [hchild, Except.bind, hentry] at h
      · exact (hnone hdown hentry).elim
      · exact ⟨place, content, resolve_eq_ok_iff.2 ⟨happroaches.checked, hwalk hdown, hentry, by simp [hslash]⟩⟩

/-- A directory on the way of a path that can be followed to its last step is there. -/
theorem Approaches.isDirectory (h : t.Approaches p folder) (hq : q.LiesBefore p) : t.isDirectory q = true := by
  obtain ⟨more, hmore, hsteps⟩ := hq.steps_eq
  have hwalk := h.walked
  rw [hsteps, List.dropLast_append_of_ne_nil hmore, start, ← hq.isAbsolute_eq, ← start] at hwalk
  obtain ⟨between, hwalk, hrest⟩ := walk_append_eq_ok.1 hwalk
  refine isDirectory_iff.2 ⟨between, resolve_eq_ok_iff.2 ⟨hq.checkPath h.checked, hwalk, ?_, fun _ => rfl⟩⟩
  by_cases hnil : more.dropLast = []
  · rw [hnil] at hrest
    obtain rfl : between = folder := Except.ok.inj hrest
    exact h.stands
  · exact lookup_of_walk hnil hrest

/-- What a path names is found only if all directories on the way to it are there. -/
theorem isDirectory_of_resolve (hq : q.LiesBefore p) (h : t.resolve p = .ok (place, entry)) :
    t.isDirectory q = true := by
  obtain ⟨more, hmore, hsteps⟩ := hq.steps_eq
  obtain ⟨front, last, hlast⟩ := (List.eq_nil_or_concat p.steps).resolve_left (by simp [hsteps, hmore])
  rw [List.concat_eq_append] at hlast
  obtain ⟨folder, happroaches, -⟩ := approaches_of_resolve hlast h
  exact happroaches.isDirectory hq

/-- A file stands in the way of everything behind it, and is no missing directory. -/
theorem vacancy_ne_notFound (hq : q.LiesBefore p) {content : List UInt8}
    (h : t.resolve q = .ok (place, .file content)) : t.vacancy p ≠ .error .notFound := by
  obtain ⟨more, hmore, hsteps⟩ := hq.steps_eq
  obtain ⟨-, hwalk, hentry, -⟩ := resolve_eq_ok_iff.1 h
  have hblocked : t.requireDirectory place = .error .notADirectory := by simp only [requireDirectory, hentry]
  cases hcheck : checkPath p with
  | error kind =>
    have hkind : kind ≠ .notFound := by
      rintro rfl
      obtain ⟨-, rest, hrest, -⟩ := hq
      unfold checkPath at hcheck
      split at hcheck
      · simp at hcheck
      · split at hcheck
        · rename_i hempty
          simp [hempty] at hrest
        · split at hcheck <;> simp at hcheck
    simpa [vacancy, hcheck, bind, Except.bind] using hkind
  | ok _ =>
    have hway : t.walk (t.start p) p.steps.dropLast = t.walk place more.dropLast := by
      rw [hsteps, List.dropLast_append_of_ne_nil hmore, start, ← hq.isAbsolute_eq, ← start, walk_append, hwalk]
      rfl
    cases hfront : more.dropLast with
    | nil =>
      have hend : t.walk (t.start p) p.steps.dropLast = .ok place := by rw [hway, hfront]; rfl
      simp [vacancy, hcheck, hend, hblocked, bind, Except.bind]
    | cons s rest =>
      have hstep : t.step place s = .error .notADirectory := by
        cases s <;> simp [step, hblocked, bind, Except.bind]
      have hend : t.walk (t.start p) p.steps.dropLast = .error .notADirectory := by
        rw [hway, hfront, walk_cons, hstep]
        rfl
      simp [vacancy, hcheck, hend, bind, Except.bind]

/-! ## Making one directory -/

/-- A directory cannot be made just if there is no place for it, for the same reason. -/
theorem makeDirectory_eq_error_iff {kind : IoKind} : t.makeDirectory p = .error kind ↔ t.vacancy p = .error kind := by
  unfold makeDirectory
  cases t.vacancy p <;> simp [bind, Except.bind, pure, Except.pure]

/-- **A new directory** has a name in a directory that was there. -/
theorem exists_of_makeDirectory (h : t.makeDirectory p = .ok made) : ∃ folder name, t.Approaches p folder ∧
    t.lookup (folder ++ [name]) = none ∧ t.walk (t.start p) p.steps = .ok (folder ++ [name]) ∧
      made = t.put (folder ++ [name]) .directory := by
  obtain ⟨place, hwalk, hfree, rfl⟩ := makeDirectory_eq_ok h
  have hvacancy : ∃ place, t.vacancy p = .ok place := by
    unfold makeDirectory at h
    cases hvacancy : t.vacancy p with
    | ok place => exact ⟨place, rfl⟩
    | error kind => simp [hvacancy, bind, Except.bind] at h
  obtain ⟨folder, happroaches⟩ := approaches_of_vacancy (.inl hvacancy)
  cases hlast : p.steps.getLast? with
  | none => 
    obtain ⟨place, hvacancy⟩ := hvacancy
    simp [happroaches.vacancy_other (by simp [hlast])] at hvacancy
  | some last =>
    obtain ⟨front, hsteps⟩ := List.getLast?_eq_some_iff.1 hlast
    have hwalked := hwalk
    rw [hsteps] at hwalked
    obtain ⟨between, hfront, hstep⟩ := walk_concat_eq_ok.1 hwalked
    have hfolder := happroaches.walked
    rw [hsteps, List.dropLast_concat] at hfolder
    obtain rfl : between = folder := Except.ok.inj (hfront.symm.trans hfolder)
    cases last with
    | stay | up =>
      obtain ⟨place, hvacancy⟩ := hvacancy
      simp [happroaches.vacancy_other (by simp [hlast])] at hvacancy
    | down name =>
      obtain ⟨-, ⟨hstay, -⟩ | ⟨hup, -⟩ | ⟨found, hdown, rfl, -⟩⟩ := step_eq_ok hstep
      · simp at hstay
      · simp at hup
      · exact ⟨between, found, happroaches, hfree, hwalk, rfl⟩

/-- A path where a directory was made is a directory. -/
theorem isDirectory_of_makeDirectory (h : t.makeDirectory p = .ok made) : made.isDirectory p = true := by
  obtain ⟨folder, name, happroaches, hfree, hwalk, rfl⟩ := exists_of_makeDirectory h
  refine isDirectory_iff.2 ⟨folder ++ [name], resolve_eq_ok_iff.2 ⟨happroaches.checked, ?_, ?_, fun _ => rfl⟩⟩
  · exact walk_put (by simp) hfree _ hwalk
  · rw [lookup_put (by simp), if_pos rfl]

/-- **A tree stays a tree** with a new directory in it. -/
theorem IsTree.makeDirectory (htree : t.IsTree) (h : t.makeDirectory p = .ok made) : made.IsTree := by
  obtain ⟨folder, name, happroaches, hfree, -, rfl⟩ := exists_of_makeDirectory h
  intro place name' entry hentry
  rw [lookup_put (by simp)] at hentry
  split at hentry
  · rename_i heq
    obtain ⟨rfl, -⟩ := List.append_inj' heq rfl
    exact lookup_put_of_stands hfree _ happroaches.stands
  · exact lookup_put_of_stands hfree _ (htree place name' entry hentry)

/-- Making directories keeps a tree a tree. -/
theorem IsTree.makeDirectories (htree : t.IsTree) (paths : List Path) : (t.makeDirectories paths).2.IsTree :=
  makeDirectories_induction (fun _ _ _ _ h hmade => h.makeDirectory hmade) htree

/-- What was found before something was gained is found after it. -/
theorem Gains.walk {before after : FileTree} {new : List (Location × List UInt8)} (h : before.Gains after new)
    {steps : List Path.Step} {final : Location} (hwalk : before.walk place steps = .ok final) :
    after.walk place steps = .ok final := by
  induction steps generalizing place with
  | nil => exact hwalk
  | cons s rest ih =>
    obtain ⟨next, hstep, hrest⟩ := walk_cons_eq_ok.1 hwalk
    refine walk_cons_eq_ok.2 ⟨next, ?_, ih hrest⟩
    have hbefore := (step_eq_ok hstep).1
    have hafter := h.kept hbefore
    rw [← hstep]
    cases s <;> simp only [step, requireDirectory, hbefore, hafter]

/-- What a path leads to is still there after the gain. -/
theorem Gains.resolve {before after : FileTree} {new : List (Location × List UInt8)} (h : before.Gains after new)
    (hresolve : before.resolve p = .ok (place, entry)) : after.resolve p = .ok (place, entry) := by
  obtain ⟨hcheck, hwalk, hentry, hslash⟩ := resolve_eq_ok_iff.1 hresolve
  refine resolve_eq_ok_iff.2 ⟨hcheck, ?_, h.kept hentry, hslash⟩
  rw [start, h.home_eq, ← start]
  exact h.walk hwalk

/-- **What stood before something was gained** was found before it, if its path never goes up. -/
theorem IsTree.resolve_of_gains {before after : FileTree} (h : before.IsTree) {new : List (Location × List UInt8)}
    (hgains : before.Gains after new) (hup : .up ∉ p.steps) (hresolve : after.resolve p = .ok (place, entry))
    (hstands : before.lookup place = some entry) : before.resolve p = .ok (place, entry) := by
  obtain ⟨hcheck, hwalk, -, hslash⟩ := resolve_eq_ok_iff.1 hresolve
  refine resolve_eq_ok_iff.2 ⟨hcheck, ?_, hstands, hslash⟩
  rw [start, hgains.home_eq, ← start] at hwalk
  generalize before.start p = first at hwalk ⊢
  generalize p.steps = steps at hup hwalk ⊢
  induction steps generalizing first with
  | nil => exact hwalk
  | cons s rest ih =>
    obtain ⟨next, hstep, hrest⟩ := walk_cons_eq_ok.1 hwalk
    refine walk_cons_eq_ok.2 ⟨next, ?_, ih next (fun hmem => hup (List.mem_cons_of_mem _ hmem)) hrest⟩
    have hafter := (step_eq_ok hstep).1
    -- The place of this step is above the end, or it is the end.
    have hbefore : before.lookup first = some .directory := by
      have hend := eq_of_walk hup hwalk
      by_cases hnames : names (s :: rest) = []
      · rw [hnames, List.append_nil] at hend
        subst hend
        rw [hstands, ← hgains.kept hstands, hafter]
      · exact h.lookup_of_append hnames (hend ▸ hstands)
    rw [← hstep]
    cases s <;> simp only [step, requireDirectory, hbefore, hafter]

/-! ## A name in a directory -/

/-- **A name that is found in a directory** is the name of a file, and the directory is there. -/
theorem of_exists?_join {directory : Path} {name : String} (hname : IsName name)
    (h : t.exists? (directory.join name) = true) : IsFileName name ∧ checkPath (directory.join name) = .ok () ∧
      ∃ folder entry, t.Reaches directory folder ∧ t.lookup (folder ++ [name]) = some entry := by
  obtain ⟨place, entry, hresolve⟩ := exists?_iff.1 h
  obtain ⟨hcheck, hwalk, hentry, -⟩ := resolve_eq_ok_iff.1 hresolve
  rw [Path.steps_join directory hname] at hwalk
  obtain ⟨folder, hfront, hstep⟩ := walk_concat_eq_ok.1 hwalk
  obtain ⟨hfolder, ⟨hstay, -⟩ | ⟨hup, -⟩ | ⟨found, hdown, rfl, hchild⟩⟩ := step_eq_ok hstep
  · simp at hstay
  · simp at hup
  · obtain rfl := Path.Step.down.inj hdown
    rw [start, Path.isAbsolute_join directory hname, ← start] at hfront
    exact ⟨⟨hname, noZero_of_checkPath_join hcheck, size_le_of_child hchild⟩, hcheck, folder, entry, ⟨hfront, hfolder⟩,
      hentry⟩

/-- A file that is refused because something exists has a name that a file can have. -/
theorem isFileName_of_alreadyExists {directory : Path} {name : String} {content : List UInt8} (hname : IsName name)
    (h : t.createFile (directory.join name) content = .error .alreadyExists) : IsFileName name := by
  have hvacancy : t.vacancy (directory.join name) = .error .alreadyExists := by
    unfold createFile at h
    cases hvacancy : t.vacancy (directory.join name) <;>
      simp_all [Path.endsInSlash_join directory hname, bind, Except.bind, pure, Except.pure]
  obtain ⟨folder, happroaches⟩ := approaches_of_vacancy (.inr hvacancy)
  rw [happroaches.vacancy_down (Path.steps_join directory hname)] at hvacancy
  cases hchild : child folder name with
  | ok place => exact ⟨hname, noZero_of_checkPath_join happroaches.checked, size_le_of_child hchild⟩
  | error kind =>
    rw [hchild] at hvacancy
    unfold child at hchild
    split at hchild <;> simp_all [Except.bind]

/-! ## Making all of them -/

/-- **How making directories ends.** The first is made, or is there, or cannot be made, in the tree as it was or
with the directories around it; or these cannot be made. -/
inductive Making (t : FileTree) (p : Path) (around : List Path) : Except IoKind Unit → FileTree → Prop
  | stopped {kind : IoKind} {made : FileTree} (hmissing : t.makeDirectory p = .error .notFound)
      (haround : t.makeDirectories around = (.error kind, made)) : Making t p around (.error kind) made
  | made {between made : FileTree}
      (hway : between = t ∨ t.makeDirectory p = .error .notFound ∧ t.makeDirectories around = (.ok (), between))
      (h : between.makeDirectory p = .ok made) : Making t p around (.ok ()) made
  | there {between : FileTree}
      (hway : between = t ∨ t.makeDirectory p = .error .notFound ∧ t.makeDirectories around = (.ok (), between))
      (h : between.isDirectory p = true) : Making t p around (.ok ()) between
  | refused {between : FileTree} {kind : IoKind}
      (hway : between = t ∨ t.makeDirectory p = .error .notFound ∧ t.makeDirectories around = (.ok (), between))
      (h : between.makeDirectory p = .error kind) (hnone : between.isDirectory p = false) :
      Making t p around (.error kind) between

/-- Making directories is one of the ways to end. -/
theorem making_of {around : List Path} {result : Except IoKind Unit}
    (h : t.makeDirectories (p :: around) = (result, made)) : Making t p around result made := by
  have hclosed {between : FileTree} {kind : IoKind}
      (hway : between = t ∨ t.makeDirectory p = .error .notFound ∧ t.makeDirectories around = (.ok (), between))
      (h : between.makeDirectory p = .error kind) :
      Making t p around (if between.isDirectory p then .ok () else .error kind) between := by
    split
    · exact .there hway ‹_›
    · rename_i hnone
      exact .refused hway h (by simpa using hnone)
  unfold makeDirectories at h
  split at h
  · obtain ⟨rfl, rfl⟩ := Prod.mk.inj h
    exact .made (.inl rfl) ‹_›
  · rename_i hmissing
    split at h
    · obtain ⟨rfl, rfl⟩ := Prod.mk.inj h
      exact .stopped hmissing ‹_›
    · rename_i between haround
      split at h
      · obtain ⟨rfl, rfl⟩ := Prod.mk.inj h
        exact .made (.inr ⟨hmissing, haround⟩) ‹_›
      · obtain ⟨rfl, rfl⟩ := Prod.mk.inj h
        exact hclosed (.inr ⟨hmissing, haround⟩) ‹_›
  · obtain ⟨rfl, rfl⟩ := Prod.mk.inj h
    exact hclosed (.inl rfl) ‹_›

variable {paths : List Path} {result : Except IoKind Unit}

/-- **Making directories ends well** exactly if all of them are directories then. -/
theorem makeDirectories_eq_ok_iff (hway : Path.IsWay paths) (h : t.makeDirectories paths = (result, made)) :
    result = .ok () ↔ ∀ q ∈ paths, made.isDirectory q = true := by
  induction paths generalizing t result made with
  | nil =>
    obtain ⟨rfl, -⟩ := Prod.mk.inj h
    simp
  | cons p around ih =>
    have hall (hp : made.isDirectory p = true) : ∀ q ∈ p :: around, made.isDirectory q = true := by
      intro q hq
      rcases List.mem_cons.1 hq with rfl | hq
      · exact hp
      · obtain ⟨place, hplace⟩ := isDirectory_iff.1 hp
        exact isDirectory_of_resolve (hway.liesBefore hq) hplace
    cases making_of h with
    | stopped hmissing haround =>
      exact ⟨nofun, fun hall => (ih hway.tail haround).2 fun q hq => hall q (List.mem_cons_of_mem _ hq)⟩
    | made hbetween h => exact iff_of_true rfl (hall (isDirectory_of_makeDirectory h))
    | there hbetween h => exact iff_of_true rfl (hall h)
    | refused hbetween h hnone => exact ⟨nofun, fun hall => by simp [hall p List.mem_cons_self] at hnone⟩

/-- A path that leads to a file. -/
def IsFile (t : FileTree) (p : Path) : Prop := ∃ place content, t.resolve p = .ok (place, .file content)

/-- A path that leads to a file is no directory. -/
theorem IsFile.isDirectory_eq (h : t.IsFile p) : t.isDirectory p = false := by
  obtain ⟨place, content, hfile⟩ := h
  simp [isDirectory, hfile]

/-- A path that leads to a file exists. -/
theorem IsFile.exists? (h : t.IsFile p) : t.exists? p = true := by
  obtain ⟨place, content, hfile⟩ := h
  exact exists?_iff.2 ⟨place, _, hfile⟩

/-- Where a file stands, no directory can be made, because something exists. -/
theorem IsFile.makeDirectory (h : t.IsFile p) (hsteps : p.steps ≠ []) :
    t.makeDirectory p = .error .alreadyExists := by
  obtain ⟨place, content, hfile⟩ := h
  exact makeDirectory_eq_error_iff.2 (vacancy_of_resolve hsteps hfile)

/-- A file that is in the way in the end could not be found before, if a directory was missing for a path behind it. -/
theorem IsFile.not_found_before {new : List (Location × List UInt8)} (hfile : made.IsFile q) (hgains : t.Gains made new)
    (hq : q.LiesBefore p) (hmissing : t.makeDirectory p = .error .notFound) : t.exists? q = false := by
  cases hfound : t.exists? q with
  | false => rfl
  | true =>
    obtain ⟨place, entry, hresolve⟩ := exists?_iff.1 hfound
    obtain ⟨place', content, hfile⟩ := hfile
    obtain ⟨rfl, rfl⟩ := Prod.mk.inj (Except.ok.inj ((hgains.resolve hresolve).symm.trans hfile))
    exact absurd (makeDirectory_eq_error_iff.1 hmissing) (vacancy_ne_notFound hq hresolve)

/-- **When making directories fails because something exists**: a regular file stands where one of them is wanted.
It is the innermost one, or it was not found before directories were made. -/
theorem makeDirectories_eq_alreadyExists_iff (htree : t.IsTree) (hway : Path.IsWay paths)
    (h : t.makeDirectories paths = (result, made)) : result = .error .alreadyExists ↔
      ∃ q ∈ paths, made.IsFile q ∧ (paths.head? = some q ∨ t.exists? q = false) := by
  induction paths generalizing t result made with
  | nil =>
    obtain ⟨rfl, -⟩ := Prod.mk.inj h
    simp
  | cons p around ih =>
    obtain ⟨hslash, hsteps⟩ := hway.plain List.mem_cons_self
    -- With a file in the way the call does not end well.
    have hfails {q : Path} (hq : q ∈ p :: around) (hfile : made.IsFile q) : result ≠ .ok () := fun hok => by
      simpa [hfile.isDirectory_eq] using (makeDirectories_eq_ok_iff hway h).1 hok q hq
    cases making_of h with
    | made hbetween h => exact ⟨nofun, fun ⟨q, hq, hfile, _⟩ => absurd rfl (hfails hq hfile)⟩
    | there hbetween h => exact ⟨nofun, fun ⟨q, hq, hfile, _⟩ => absurd rfl (hfails hq hfile)⟩
    | stopped hmissing haround =>
      have hgains := t.gains_makeDirectories around
      rw [haround] at hgains
      constructor
      · intro heq
        obtain ⟨q, hq, hfile, -⟩ := (ih htree hway.tail haround).1 heq
        exact ⟨q, List.mem_cons_of_mem _ hq, hfile, .inr (hfile.not_found_before hgains (hway.liesBefore hq) hmissing)⟩
      · rintro ⟨q, hq, hfile, hlate⟩
        refine (ih htree hway.tail haround).2 ?_
        rcases List.mem_cons.1 hq with rfl | hq
        · -- The file is the first, so all directories around it were made.
          obtain ⟨place, content, hresolve⟩ := hfile
          have hok := (makeDirectories_eq_ok_iff hway.tail haround).2 fun before hbefore =>
            isDirectory_of_resolve (hway.liesBefore hbefore) hresolve
          simp at hok
        · exact ⟨q, hq, hfile, .inr (hfile.not_found_before hgains (hway.liesBefore hq) hmissing)⟩
    | refused hbetween h hnone =>
      have hmadeTree : made.IsTree := by
        rcases hbetween with rfl | ⟨-, haround⟩
        · exact htree
        · have hbetweenTree := htree.makeDirectories around
          rwa [haround] at hbetweenTree
      constructor
      · intro heq
        obtain rfl := Except.error.inj heq
        exact ⟨p, List.mem_cons_self, exists_file_of_vacancy hmadeTree hslash hsteps
          (makeDirectory_eq_error_iff.1 h) hnone, .inl rfl⟩
      · rintro ⟨q, hq, hfile, hlate⟩
        by_cases heq : q = p
        · subst heq
          rw [hfile.makeDirectory hsteps] at h
          rw [Except.error.inj h]
        · have hmem : q ∈ around := (List.mem_cons.1 hq).resolve_left heq
          rcases hbetween with rfl | ⟨-, haround⟩
          · rcases hlate with hhead | hlate
            · exact absurd (Option.some.inj hhead).symm heq
            · simp [hfile.exists?] at hlate
          · have hdirectory := (makeDirectories_eq_ok_iff hway.tail haround).1 rfl q hmem
            simp [hfile.isDirectory_eq] at hdirectory

end FileTree
end Cashpoint
