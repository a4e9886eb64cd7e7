/-
# What the counts remember

A history of failed logins is a list of events: a failure of a name that the Bank has confirmed, a
failure of one that it has denied, or a reset. The counts after a history are compared with the history
itself.

A name has a count for one of two reasons: it waits in the queue, or it is `Confirmed`, that is, it has
failed as a confirmed name since its last reset. The count of a confirmed name is never lost
(`get_run_of_confirmed`). A denied name loses its count only to names that come after it: the queue is in
the order in which its names entered (`unknown_sublist`), the oldest leaves first and takes its count with
it (`Admits`), and it does so only once as many others have entered as the queue has room for
(`get_run_of_denied`). No name leaves the queue while it is not full, so its length tells how many names are
counted beside the confirmed ones (`failures_counted`).
-/

import Cashpoint.Proofs.Attempts.Counts
import Mathlib.Data.Finset.Card
import Mathlib.Data.List.Dedup

namespace Cashpoint
namespace Attempts

/-! ## Histories -/

/-- Something that happens to a count. -/
inductive Event
  /-- A name that the Bank has confirmed fails to log in. -/
  | failed (user : String)
  /-- A name that the Bank has denied fails to log in. -/
  | denied (user : String)
  /-- The count of a name is cleared. -/
  | reset (user : String)
  deriving DecidableEq

/-- The name that an event is about. -/
def Event.user : Event → String
  | failed user | denied user | reset user => user

/-- Whether an event is a failure of a name, confirmed or denied. -/
def Event.isFailureOf (user : String) : Event → Bool
  | failed other | denied other => other = user
  | reset _ => false

/-- The failures after an event. -/
def step (a : Attempts) : Event → Attempts
  | .failed user => a.recordFailure user
  | .denied user => a.recordUnknown user
  | .reset user => a.reset user

/-- The failures after a sequence of events. -/
def run (a : Attempts) (events : List Event) : Attempts := events.foldl step a

/-- The number of failures of a name. -/
def failures (user : String) (events : List Event) : Nat := events.countP (Event.isFailureOf user)

/-- The name that enters the queue in an event: one that is denied and has no count yet. -/
def entrant? (a : Attempts) : Event → Option String
  | .denied user => if a.counts.contains user then none else some user
  | _ => none

/-- The names that enter the queue, in order. -/
def entrants (a : Attempts) : List Event → List String
  | [] => []
  | event :: rest => (a.entrant? event).toList ++ (a.step event).entrants rest

/-- A name has failed as a confirmed one since its last reset. -/
def Confirmed (user : String) (events : List Event) : Prop :=
  ∃ before after, events = before ++ .failed user :: after ∧ .reset user ∉ after

/-- The names that have a count. -/
def names (a : Attempts) : List String := a.counts.entries.map Prod.fst

variable {a b : Attempts} {event : Event} {events : List Event} {user other : String} {dropped kept : List String}

/-- The last event comes last. -/
theorem run_concat (a : Attempts) (events : List Event) (event : Event) :
    a.run (events ++ [event]) = (a.run events).step event := List.foldl_concat ..

/-- One history after another is a history. -/
theorem run_append (a : Attempts) (events later : List Event) :
    a.run (events ++ later) = (a.run events).run later := List.foldl_append ..

/-- The last event adds at most one name to those that have entered the queue. -/
theorem entrants_concat (a : Attempts) (events : List Event) (event : Event) :
    a.entrants (events ++ [event]) = a.entrants events ++ ((a.run events).entrant? event).toList := by
  induction events generalizing a with
  | nil => simp [entrants, run]
  | cons first rest ih =>
    rw [List.cons_append, entrants, ih, entrants, List.append_assoc]
    rfl

/-- A name is confirmed by its failure, and stays so until it is reset. -/
theorem confirmed_concat_iff :
    Confirmed user (events ++ [event]) ↔ event = .failed user ∨ Confirmed user events ∧ event ≠ .reset user := by
  constructor
  · rintro ⟨before, after, heq, hreset⟩
    rcases List.eq_nil_or_concat after with rfl | ⟨front, last, rfl⟩
    · exact Or.inl (List.singleton_inj.1 (List.append_inj' heq rfl).2)
    · have heq' : events ++ [event] = (before ++ .failed user :: front) ++ [last] := by simpa using heq
      obtain ⟨hevents, hlast⟩ := List.append_inj' heq' rfl
      obtain rfl := List.singleton_inj.1 hlast
      rw [List.concat_eq_append, List.mem_append, List.mem_singleton, not_or] at hreset
      exact Or.inr ⟨⟨before, front, hevents, hreset.1⟩, Ne.symm hreset.2⟩
  · rintro (rfl | ⟨⟨before, after, rfl, hreset⟩, hne⟩)
    · exact ⟨events, [], rfl, by simp⟩
    · exact ⟨before, after ++ [event], by simp, by simp [hreset, Ne.symm hne]⟩

/-! ## One event -/

/-- What holds of the counts in every history. -/
structure Tidy (a : Attempts) : Prop where
  nodup : a.unknown.Nodup
  length_le : a.unknown.length ≤ a.capacity
  capacity_pos : 0 < a.capacity
  /-- A name in the queue has a count. -/
  counted : ∀ user ∈ a.unknown, a.counts.contains user = true
  bounds : ∀ user count, a.counts.get? user = some count → 0 < count ∧ count ≤ largestCount

/-- A new name enters the queue at its end. Without room the oldest name leaves it, together with its count;
no other name loses or gains one. -/
structure Admits (a b : Attempts) (user : String) (dropped kept : List String) : Prop where
  queue : a.unknown = dropped ++ kept
  queue_after : b.unknown = kept ++ [user]
  length_dropped : dropped.length = if a.unknown.length < a.capacity then 0 else 1
  gone : ∀ other ∈ dropped, b.counts.get? other = none
  first : b.counts.get? user = some 1
  same : ∀ other, other ≠ user → other ∉ dropped → b.counts.get? other = a.counts.get? other

/-- Only names that were in the queue leave it. -/
theorem Admits.mem_of_dropped (h : a.Admits b user dropped kept) (hother : other ∈ dropped) : other ∈ a.unknown := by
  rw [h.queue]
  exact List.mem_append_left _ hother

/-- Only names that were in the queue stay in it. -/
theorem Admits.mem_of_kept (h : a.Admits b user dropped kept) (hother : other ∈ kept) : other ∈ a.unknown := by
  rw [h.queue]
  exact List.mem_append_right _ hother

/-- A name has a count if it stands in the table. -/
theorem contains_eq (a : Attempts) (user : String) :
    a.counts.contains user = (a.counts.get? user).isSome := rfl

/-- One more failure sets the count of the name, and no other. -/
theorem get?_bump (a : Attempts) (user other : String) : (a.bump user).counts.get? other =
    if user = other then some (min (a.get user + 1) largestCount) else a.counts.get? other :=
  Table.get?_set ..

/-- One more failure gives the name a count, and takes none away. -/
theorem contains_bump (a : Attempts) (user other : String) :
    (a.bump user).counts.contains other = (decide (user = other) || a.counts.contains other) := by
  rw [contains_eq, get?_bump]
  by_cases h : user = other <;> simp [h, contains_eq]

/-- A reset takes away the count of the name, and no other. -/
theorem contains_reset (a : Attempts) (user other : String) :
    (a.reset user).counts.contains other = (!decide (user = other) && a.counts.contains other) := by
  rw [contains_eq, reset, Table.get?_erase]
  by_cases h : user = other <;> simp [h, contains_eq]

/-- A denied name with a count has one failure more. -/
theorem recordUnknown_of_contains (h : a.counts.contains user = true) : a.recordUnknown user = a.bump user := by
  rw [recordUnknown, if_pos h]

/-- A denied name without a count enters the queue, with one failure. -/
theorem recordUnknown_of_new (h : a.counts.contains user = false) :
    a.recordUnknown user = (a.enqueue user).bump user := by
  rw [recordUnknown, if_neg (by simp [h])]

/-- A new name is not in the queue. -/
theorem Tidy.not_mem_of_new (h : a.Tidy) (hnew : a.counts.contains user = false) : user ∉ a.unknown := by
  intro hmem
  rw [h.counted user hmem] at hnew
  contradiction

/-- **What a new name does to the queue.** -/
theorem Tidy.admits (h : a.Tidy) (hnew : a.counts.contains user = false) :
    ∃ dropped kept, a.Admits (a.recordUnknown user) user dropped kept := by
  have hle := h.length_le
  have hpos := h.capacity_pos
  have hrecord := recordUnknown_of_new hnew
  have hzero : (a.enqueue user).get user = 0 := by
    rw [get_enqueue, get_of_not_contains hnew]
    simp
  have hcounts (other : String) : (a.enqueue user).counts.get? other =
      if other ∈ a.unknown.take (a.unknown.length + 1 - a.capacity) then none else a.counts.get? other :=
    Table.get?_foldl_erase ..
  refine ⟨a.unknown.take (a.unknown.length + 1 - a.capacity), a.unknown.drop (a.unknown.length + 1 - a.capacity),
    { queue := (List.take_append_drop ..).symm
      queue_after := by
        rw [hrecord]
        rfl
      length_dropped := by
        rw [List.length_take]
        split <;> omega
      gone := fun other hother => ?_
      first := by
        rw [hrecord, get?_bump, if_pos rfl, hzero]
        rfl
      same := fun other hne hkept => by rw [hrecord, get?_bump, if_neg (Ne.symm hne), hcounts, if_neg hkept] }⟩
  have hne : user ≠ other := by
    rintro rfl
    exact h.not_mem_of_new hnew (List.mem_of_mem_take hother)
  rw [hrecord, get?_bump, if_neg hne, hcounts, if_pos hother]

/-- One more failure keeps the counts tidy. -/
theorem Tidy.bump (h : a.Tidy) (user : String) : (a.bump user).Tidy where
  nodup := h.nodup
  length_le := h.length_le
  capacity_pos := h.capacity_pos
  counted other hother := by
    rw [contains_bump, h.counted other hother, Bool.or_true]
  bounds other count hcount := by
    rw [get?_bump] at hcount
    split at hcount
    · obtain rfl := Option.some.inj hcount
      simp only [largestCount]
      omega
    · exact h.bounds other count hcount

/-- The queue may lose a name at any time. -/
theorem Tidy.confirm (h : a.Tidy) (user : String) : (a.confirm user).Tidy where
  nodup := h.nodup.filter _
  length_le := (List.length_filter_le ..).trans h.length_le
  capacity_pos := h.capacity_pos
  counted other hother := h.counted other (List.mem_of_mem_filter hother)
  bounds := h.bounds

/-- So does a reset. -/
theorem Tidy.reset (h : a.Tidy) (user : String) : (a.reset user).Tidy where
  nodup := (h.confirm user).nodup
  length_le := (h.confirm user).length_le
  capacity_pos := h.capacity_pos
  counted other hother := by
    obtain ⟨hmem, hne⟩ := mem_unknown_reset.1 hother
    simp [contains_reset, Ne.symm hne, h.counted other hmem]
  bounds other count hcount := by
    rw [Attempts.reset, Table.get?_erase] at hcount
    split at hcount
    · simp at hcount
    · exact h.bounds other count hcount

/-- So does a new name in the queue. -/
theorem Admits.tidy (h : a.Admits b user dropped kept) (ha : a.Tidy) (hnew : a.counts.contains user = false)
    (hcapacity : b.capacity = a.capacity) : b.Tidy := by
  have hnodup := ha.nodup
  rw [h.queue, List.nodup_append] at hnodup
  obtain ⟨-, hkept, hapart⟩ := hnodup
  have hne {other : String} (hother : other ∈ kept) : other ≠ user := by
    rintro rfl
    exact ha.not_mem_of_new hnew (h.mem_of_kept hother)
  refine ⟨?_, ?_, hcapacity ▸ ha.capacity_pos, fun other hother => ?_, fun other count hcount => ?_⟩
  · rw [h.queue_after]
    exact List.nodup_append.2 ⟨hkept, List.nodup_singleton _, fun x hx y hy hxy =>
      hne hx (hxy.trans (List.mem_singleton.1 hy))⟩
  · have hlength := congrArg List.length h.queue
    have hdropped := h.length_dropped
    have hle := ha.length_le
    rw [List.length_append] at hlength
    rw [h.queue_after, List.length_append, hcapacity, List.length_singleton]
    split at hdropped <;> omega
  · rw [h.queue_after, List.mem_append, List.mem_singleton] at hother
    rcases hother with hother | rfl
    · rw [contains_eq, h.same other (hne hother) (fun hd => hapart other hd other hother rfl)]
      exact ha.counted other (h.mem_of_kept hother)
    · rw [contains_eq, h.first]
      rfl
  · by_cases hu : other = user
    · rw [hu, h.first] at hcount
      obtain rfl := Option.some.inj hcount
      simp [largestCount]
    · by_cases hd : other ∈ dropped
      · rw [h.gone other hd] at hcount
        simp at hcount
      · rw [h.same other hu hd] at hcount
        exact ha.bounds other count hcount

/-- **Every event keeps the counts tidy.** -/
theorem Tidy.step (h : a.Tidy) (event : Event) : (a.step event).Tidy := by
  cases event with
  | failed user => exact (h.confirm user).bump user
  | reset user => exact h.reset user
  | denied user =>
    cases hnew : a.counts.contains user with
    | true =>
      rw [Attempts.step, recordUnknown_of_contains hnew]
      exact h.bump user
    | false =>
      obtain ⟨dropped, kept, hadmits⟩ := h.admits hnew
      exact hadmits.tidy h hnew (by rw [recordUnknown_of_new hnew]; rfl)

/-- No event changes the length of the queue. -/
theorem capacity_step (a : Attempts) (event : Event) : (a.step event).capacity = a.capacity := by
  cases event with
  | failed user | reset user => rfl
  | denied user =>
    rw [step, recordUnknown]
    split <;> rfl

/-- Every history keeps the counts tidy. -/
theorem Tidy.run (h : a.Tidy) (events : List Event) : (a.run events).Tidy := by
  induction events generalizing a with
  | nil => exact h
  | cons event rest ih => exact ih (h.step event)

/-- No history changes the length of the queue. -/
theorem capacity_run (a : Attempts) (events : List Event) : (a.run events).capacity = a.capacity := by
  induction events generalizing a with
  | nil => rfl
  | cons event rest ih => exact (ih (a.step event)).trans (a.capacity_step event)

/-- At the start the counts are tidy. -/
theorem tidy_start (capacity : Nat) : (withCapacity capacity).Tidy where
  nodup := List.nodup_nil
  length_le := Nat.zero_le _
  capacity_pos := by
    simp only [withCapacity]
    omega
  counted := by simp [withCapacity]
  bounds := by simp [withCapacity]

/-- No count is above the largest one. -/
theorem Tidy.get_le (h : a.Tidy) (user : String) : a.get user ≤ largestCount := by
  unfold get
  cases hcount : a.counts.get? user with
  | none => exact Nat.zero_le _
  | some count => exact (h.bounds user count hcount).2

/-! ## Other names -/

/-- **An event leaves the other names alone**, but for one that leaves the queue to make room. -/
theorem Tidy.step_other (h : a.Tidy) (hne : event.user ≠ other) :
    ((a.step event).counts.get? other = a.counts.get? other ∧
      (other ∈ (a.step event).unknown ↔ other ∈ a.unknown)) ∨
    ∃ dropped kept, a.entrant? event = some event.user ∧ a.Admits (a.step event) event.user dropped kept ∧
      other ∈ dropped := by
  cases event with
  | failed user =>
    refine Or.inl ⟨?_, mem_unknown_recordFailure.trans (and_iff_left (Ne.symm hne))⟩
    exact (get?_bump ..).trans (if_neg hne)
  | reset user =>
    refine Or.inl ⟨?_, mem_unknown_reset.trans (and_iff_left (Ne.symm hne))⟩
    exact (Table.get?_erase ..).trans (if_neg hne)
  | denied user =>
    cases hnew : a.counts.contains user with
    | true =>
      rw [Attempts.step, recordUnknown_of_contains hnew]
      exact Or.inl ⟨(get?_bump ..).trans (if_neg hne), Iff.rfl⟩
    | false =>
      obtain ⟨dropped, kept, hadmits⟩ := h.admits hnew
      by_cases hdropped : other ∈ dropped
      · exact Or.inr ⟨dropped, kept, by simp [entrant?, hnew, Event.user], hadmits, hdropped⟩
      · refine Or.inl ⟨hadmits.same other (Ne.symm hne) hdropped, ?_⟩
        have hother : other ≠ user := Ne.symm hne
        rw [Attempts.step, hadmits.queue_after, hadmits.queue]
        simp [hdropped, hother]

/-! ## Confirmed names -/

/-- An event about a name is a failure of it, or its reset. -/
theorem Event.isFailureOf_eq (hreset : event ≠ .reset user) :
    event.isFailureOf user = decide (event.user = user) := by
  cases event with
  | failed other | denied other => rfl
  | reset other =>
    have hne : other ≠ user := fun heq => hreset (congrArg Event.reset heq)
    simp [isFailureOf, Event.user, hne]

/-- A failure counts. -/
theorem get_step_of_user (hreset : event ≠ .reset event.user) :
    (a.step event).get event.user = min (a.get event.user + 1) largestCount := by
  cases event with
  | failed user => exact (get_recordFailure ..).trans (if_pos rfl)
  | denied user => exact get_recordUnknown_self a user
  | reset user => exact absurd rfl hreset

/-- **A counted name outside of the queue stays there**, and its count is exact, until it is reset. -/
theorem Tidy.step_of_confirmed (h : a.Tidy) (hout : user ∉ a.unknown) (hcounted : a.counts.contains user = true)
    (hreset : event ≠ .reset user) :
    user ∉ (a.step event).unknown ∧ (a.step event).counts.contains user = true ∧
      (a.step event).get user = min (a.get user + if event.isFailureOf user then 1 else 0) largestCount := by
  rw [Event.isFailureOf_eq hreset]
  by_cases hu : event.user = user
  · subst hu
    refine ⟨?_, ?_, by simpa using get_step_of_user hreset⟩
    · cases event with
      | failed user => exact fun hmem => (mem_unknown_recordFailure.1 hmem).2 rfl
      | reset user => exact absurd rfl hreset
      | denied user =>
        rw [Attempts.step, show a.recordUnknown user = a.bump user from recordUnknown_of_contains hcounted]
        exact hout
    · cases event with
      | failed user => simp [Attempts.step, recordFailure, contains_bump, Event.user]
      | reset user => exact absurd rfl hreset
      | denied user =>
        rw [Attempts.step, show a.recordUnknown user = a.bump user from recordUnknown_of_contains hcounted]
        simp [contains_bump, Event.user]
  · rcases h.step_other hu with ⟨hsame, hqueue⟩ | ⟨dropped, kept, -, hadmits, hdropped⟩
    · refine ⟨fun hmem => hout (hqueue.1 hmem), by rw [contains_eq, hsame]; exact hcounted, ?_⟩
      simp only [get, hsame, hu, decide_false, Bool.false_eq_true, if_false, Nat.add_zero]
      exact (Nat.min_eq_left (h.get_le user)).symm
    · exact absurd (hadmits.mem_of_dropped hdropped) hout

/-- A failure of the name is one more than those after it. -/
theorem failures_cons (user : String) (event : Event) (rest : List Event) :
    failures user (event :: rest) = failures user rest + if event.isFailureOf user then 1 else 0 :=
  List.countP_cons

/-- A confirmed name that is not reset keeps its count, and every failure adds one to it. -/
theorem Tidy.run_of_confirmed {later : List Event} (h : a.Tidy) (hout : user ∉ a.unknown)
    (hcounted : a.counts.contains user = true) (hreset : .reset user ∉ later) :
    user ∉ (a.run later).unknown ∧ (a.run later).counts.contains user = true ∧
      (a.run later).get user = min (a.get user + failures user later) largestCount := by
  induction later generalizing a with
  | nil => exact ⟨hout, hcounted, (Nat.min_eq_left (h.get_le user)).symm⟩
  | cons event rest ih =>
    rw [List.mem_cons, not_or] at hreset
    obtain ⟨hout', hcounted', hget⟩ := h.step_of_confirmed hout hcounted (Ne.symm hreset.1)
    obtain ⟨hout'', hcounted'', hget'⟩ := ih (h.step event) hout' hcounted' hreset.2
    refine ⟨hout'', hcounted'', hget'.trans ?_⟩
    rw [hget, failures_cons]
    omega

/-- **The count of a confirmed name is never lost.** From a failure of the name on, until it is reset, it is
out of the queue and all its failures count, whatever happens to others. -/
theorem Tidy.get_run_of_confirmed {later : List Event} (h : a.Tidy) (hreset : .reset user ∉ later) :
    user ∉ ((a.step (.failed user)).run later).unknown ∧
      ((a.step (.failed user)).run later).counts.contains user = true ∧
      ((a.step (.failed user)).run later).get user =
        min ((a.step (.failed user)).get user + failures user later) largestCount :=
  (h.step (.failed user)).run_of_confirmed (fun hmem => (mem_unknown_recordFailure.1 hmem).2 rfl)
    (by simp [Attempts.step, recordFailure, contains_bump]) hreset

/-! ## Denied names -/

/-- What stands in front of a name in the queue, after the oldest have left. -/
theorem queue_of_dropped {front behind : List String} (h : dropped ++ kept = front ++ user :: behind)
    (hstays : user ∉ dropped) : ∃ front', kept = front' ++ user :: behind := by
  rcases List.append_eq_append_iff.1 h with ⟨between, rfl, hkept⟩ | ⟨between, hdropped, hbehind⟩
  · exact ⟨between, hkept⟩
  · cases between with
    | nil => exact ⟨[], hbehind.symm⟩
    | cons first rest =>
      obtain rfl : user = first := (List.cons.inj hbehind).1
      exact absurd (by rw [hdropped]; simp) hstays

/-- **A name that leaves the queue has as many names behind it as there is room for**, the new one included. -/
theorem Tidy.capacity_le_of_dropped (h : a.Tidy) {front behind : List String}
    (hqueue : a.unknown = front ++ user :: behind) (hadmits : a.Admits b other dropped kept)
    (hnew : a.counts.contains other = false) (hleaves : user ∈ dropped) :
    a.capacity ≤ (behind.toFinset ∪ {other}).card := by
  have hlength := hadmits.length_dropped
  have hnodup := h.nodup
  rw [hqueue] at hnodup
  have hbehind : behind.Nodup := (List.nodup_cons.1 (List.nodup_append.1 hnodup).2.1).2
  have hother : other ∉ behind := by
    intro hmem
    exact h.not_mem_of_new hnew (by rw [hqueue]; simp [hmem])
  -- only the first name of the queue leaves it
  have hone : dropped.length = 1 := by
    have hpos := List.length_pos_of_mem hleaves
    split at hlength <;> omega
  have hfull : ¬ a.unknown.length < a.capacity := by
    intro hroom
    rw [if_pos hroom] at hlength
    omega
  obtain ⟨oldest, rfl⟩ := List.length_eq_one_iff.1 hone
  obtain rfl := List.mem_singleton.1 hleaves
  have hfront : front = [] := by
    cases front with
    | nil => rfl
    | cons first rest =>
      have hsame : user :: kept = first :: (rest ++ user :: behind) := hadmits.queue.symm.trans hqueue
      obtain rfl : user = first := (List.cons.inj hsame).1
      simp at hnodup
  have hcard : (behind.toFinset ∪ {other}).card = behind.length + 1 := by
    rw [Finset.card_union_of_disjoint (by simpa using hother), List.toFinset_card_of_nodup hbehind,
      Finset.card_singleton]
  rw [hqueue, hfront] at hfull
  simp only [List.nil_append, List.length_cons] at hfull
  omega

/-- A name enters the queue when it is denied and has no count. -/
theorem entrant?_eq_some_iff {name : String} :
    a.entrant? event = some name ↔ event = .denied name ∧ a.counts.contains name = false := by
  cases event with
  | failed other | reset other => simp [entrant?]
  | denied other =>
    simp only [entrant?, Event.denied.injEq]
    split
    · rename_i h
      simp only [reduceCtorEq, false_iff]
      rintro ⟨rfl, hnew⟩
      simp [h] at hnew
    · rename_i h
      simp only [Option.some.injEq]
      exact ⟨fun heq => ⟨heq, by simpa [← heq] using h⟩, fun heq => heq.1⟩

/-- **A name in the queue stays there in an event** unless the names behind it, with a new one, take all the
room. Its count is exact then. -/
theorem Tidy.step_of_denied (h : a.Tidy) {front behind : List String} (hqueue : a.unknown = front ++ user :: behind)
    (hreset : event ≠ .reset user) (hfailed : event ≠ .failed user)
    (hroom : ∀ name, a.entrant? event = some name → (behind.toFinset ∪ {name}).card < a.capacity) :
    ∃ front' behind', (a.step event).unknown = front' ++ user :: behind' ∧
      (∀ name ∈ behind', name ∈ behind ∨ a.entrant? event = some name) ∧
      (a.step event).get user = min (a.get user + if event.isFailureOf user then 1 else 0) largestCount := by
  have hstays {name : String} {dropped kept : List String} (hentrant : a.entrant? event = some name)
      (hadmits : a.Admits (a.step event) name dropped kept) : user ∉ dropped := fun hleaves =>
    absurd (h.capacity_le_of_dropped hqueue hadmits (entrant?_eq_some_iff.1 hentrant).2 hleaves)
      (Nat.not_le.2 (hroom name hentrant))
  have hget : (a.step event).get user = min (a.get user + if event.isFailureOf user then 1 else 0) largestCount := by
    rw [Event.isFailureOf_eq hreset]
    by_cases hu : event.user = user
    · subst hu
      simpa using get_step_of_user hreset
    · rcases h.step_other hu with ⟨hsame, -⟩ | ⟨dropped, kept, hentrant, hadmits, hleaves⟩
      · simp only [get, hsame, hu, decide_false, Bool.false_eq_true, if_false, Nat.add_zero]
        exact (Nat.min_eq_left (h.get_le user)).symm
      · exact absurd hleaves (hstays hentrant hadmits)
  have hfiltered {other : String} (hne : other ≠ user) :
      a.unknown.filter (· ≠ other) = front.filter (· ≠ other) ++ user :: behind.filter (· ≠ other) := by
    rw [hqueue, List.filter_append, List.filter_cons_of_pos (by simpa using Ne.symm hne)]
  cases event with
  | failed other =>
    have hne : other ≠ user := fun heq => hfailed (congrArg Event.failed heq)
    exact ⟨_, _, hfiltered hne, fun name hname => Or.inl (List.mem_of_mem_filter hname), hget⟩
  | reset other =>
    have hne : other ≠ user := fun heq => hreset (congrArg Event.reset heq)
    exact ⟨_, _, hfiltered hne, fun name hname => Or.inl (List.mem_of_mem_filter hname), hget⟩
  | denied other =>
    cases hnew : a.counts.contains other with
    | true =>
      refine ⟨front, behind, ?_, fun name hname => Or.inl hname, hget⟩
      rw [Attempts.step, recordUnknown_of_contains hnew]
      exact hqueue
    | false =>
      have hentrant : a.entrant? (.denied other) = some other := entrant?_eq_some_iff.2 ⟨rfl, hnew⟩
      obtain ⟨dropped, kept, hadmits⟩ := h.admits hnew
      obtain ⟨front', rfl⟩ := queue_of_dropped (hadmits.queue.symm.trans hqueue) (hstays hentrant hadmits)
      refine ⟨front', behind ++ [other], ?_, fun name hname => ?_, hget⟩
      · rw [Attempts.step, hadmits.queue_after, List.append_assoc, List.cons_append]
      · rw [List.mem_append, List.mem_singleton] at hname
        rcases hname with hname | rfl
        · exact Or.inl hname
        · exact Or.inr hentrant

/-- A denied name keeps its count as long as fewer others enter the queue behind it than there is room for. -/
theorem Tidy.run_of_denied {later : List Event} (h : a.Tidy) {front behind : List String}
    (hqueue : a.unknown = front ++ user :: behind) (hreset : .reset user ∉ later) (hfailed : .failed user ∉ later)
    (seen : Finset String) (hseen : ∀ name ∈ behind, name ∈ seen)
    (hroom : (seen ∪ (a.entrants later).toFinset.erase user).card < a.capacity) :
    user ∈ (a.run later).unknown ∧ (a.run later).get user = min (a.get user + failures user later) largestCount := by
  induction later generalizing a front behind seen with
  | nil =>
    refine ⟨?_, (Nat.min_eq_left (h.get_le user)).symm⟩
    show user ∈ a.unknown
    rw [hqueue]
    simp
  | cons event rest ih =>
    rw [List.mem_cons, not_or] at hreset hfailed
    -- a name that enters was not in the queue, so it is another one
    have hentrant {name : String} (hname : a.entrant? event = some name) :
        name ∈ (a.entrants (event :: rest)).toFinset.erase user := by
      rw [Finset.mem_erase, List.mem_toFinset, entrants, hname]
      refine ⟨?_, by simp⟩
      rintro rfl
      exact h.not_mem_of_new (entrant?_eq_some_iff.1 hname).2 (by rw [hqueue]; simp)
    obtain ⟨front', behind', hqueue', hbehind', hget⟩ :=
      h.step_of_denied hqueue (Ne.symm hreset.1) (Ne.symm hfailed.1) fun name hname =>
        Nat.lt_of_le_of_lt (Finset.card_le_card fun x hx => by
          rw [Finset.mem_union, List.mem_toFinset, Finset.mem_singleton] at hx
          rw [Finset.mem_union]
          rcases hx with hx | rfl
          · exact Or.inl (hseen x hx)
          · exact Or.inr (hentrant hname)) hroom
    have hrest : (a.step event).entrants rest ⊆ a.entrants (event :: rest) := by
      rw [entrants]
      exact List.subset_append_right ..
    obtain ⟨hmem, hcount⟩ := ih (h.step event) hqueue' hreset.2 hfailed.2
      (seen ∪ (a.entrants (event :: rest)).toFinset.erase user)
      (fun name hname => by
        rw [Finset.mem_union]
        exact (hbehind' name hname).imp (hseen name) hentrant)
      (by
        rw [Finset.union_assoc, Finset.union_eq_left.2 (Finset.erase_subset_erase _ fun x hx => by
          rw [List.mem_toFinset] at hx ⊢
          exact hrest hx), capacity_step]
        exact hroom)
    refine ⟨hmem, hcount.trans ?_⟩
    rw [hget, failures_cons]
    omega

/-- **The count of a denied name is exact until enough others have come.** From its entry on, until it is reset
or confirmed, it stays in the queue and all its failures count, as long as the other names that enter after it
are fewer than the queue has room for. -/
theorem Tidy.get_run_of_denied {later : List Event} (h : a.Tidy) (hnew : a.counts.contains user = false)
    (hreset : .reset user ∉ later) (hfailed : .failed user ∉ later)
    (hroom : (((a.step (.denied user)).entrants later).toFinset.erase user).card < a.capacity) :
    user ∈ ((a.step (.denied user)).run later).unknown ∧
      ((a.step (.denied user)).run later).get user = min (1 + failures user later) largestCount := by
  obtain ⟨dropped, kept, hadmits⟩ := h.admits hnew
  have hone : (a.step (.denied user)).get user = 1 := by
    rw [get, Attempts.step, hadmits.first]
    rfl
  rw [← hone]
  refine (h.step (.denied user)).run_of_denied hadmits.queue_after hreset hfailed ∅ (by simp) ?_
  rw [Finset.empty_union, capacity_step]
  exact hroom

/-! ## The order of the queue -/

/-- Of equal names in a list only the last counts, so a name put at the end moves there. -/
theorem dedup_concat (names : List String) (name : String) :
    (names ++ [name]).dedup = names.dedup.filter (· ≠ name) ++ [name] := by
  induction names with
  | nil => simp
  | cons first rest ih =>
    by_cases hrest : first ∈ rest
    · rw [List.cons_append, List.dedup_cons_of_mem (List.mem_append_left _ hrest), ih, List.dedup_cons_of_mem hrest]
    · by_cases hname : first = name
      · subst hname
        rw [List.cons_append, List.dedup_cons_of_mem (by simp), ih, List.dedup_cons_of_notMem hrest]
        simp
      · rw [List.cons_append, List.dedup_cons_of_notMem (by simp [hrest, hname]), ih,
          List.dedup_cons_of_notMem hrest, List.filter_cons_of_pos (by simpa using hname), List.cons_append]

/-- **The queue is in the order in which its names entered last.** -/
theorem unknown_sublist (h : a.Tidy) (hempty : a.unknown = []) (events : List Event) :
    (a.run events).unknown.Sublist (a.entrants events).dedup := by
  induction events using List.reverseRecOn with
  | nil => simp [run, hempty]
  | append_singleton events event ih =>
    rw [run_concat, entrants_concat]
    cases hentrant : (a.run events).entrant? event with
    | some name =>
      obtain ⟨rfl, hnew⟩ := entrant?_eq_some_iff.1 hentrant
      obtain ⟨dropped, kept, hadmits⟩ := (h.run events).admits hnew
      have hkept : kept.filter (· ≠ name) = kept := by
        rw [List.filter_eq_self]
        intro other hother
        rw [decide_eq_true_iff]
        rintro rfl
        exact (h.run events).not_mem_of_new hnew (hadmits.mem_of_kept hother)
      rw [step, hadmits.queue_after, Option.toList_some, dedup_concat, ← hkept]
      rw [hadmits.queue] at ih
      exact (((List.sublist_append_right ..).trans ih).filter _).append_right _
    | none =>
      rw [Option.toList_none, List.append_nil]
      refine List.Sublist.trans ?_ ih
      cases event with
      | failed user | reset user => exact List.filter_sublist
      | denied user =>
        have hcontains : (a.run events).counts.contains user = true := by
          rw [← Bool.not_eq_false]
          intro hnew
          rw [entrant?_eq_some_iff.2 ⟨rfl, hnew⟩] at hentrant
          simp at hentrant
        rw [step, recordUnknown_of_contains hcontains]
        exact List.Sublist.refl _

/-! ## Who has a count -/

/-- The names of the counts are those that have one. -/
theorem mem_names_iff (a : Attempts) (user : String) : user ∈ a.names ↔ a.counts.contains user = true := by
  rw [← not_iff_not, names, ← Table.find_eq_none_iff]
  simp [contains_eq, Table.get?]

/-- **The names with a count are those in the queue and the others.** -/
theorem Tidy.size_eq (h : a.Tidy) :
    a.size = a.unknown.length + (a.names.filter (· ∉ a.unknown)).length := by
  have hqueue : (a.names.filter (· ∈ a.unknown)).Perm a.unknown := by
    have hnodup : a.names.Nodup := a.counts.nodup_keys
    rw [List.perm_ext_iff_of_nodup (hnodup.filter _) h.nodup]
    intro user
    rw [List.mem_filter, decide_eq_true_iff, and_iff_right_iff_imp, mem_names_iff]
    exact h.counted user
  have hlength := List.length_eq_length_filter_add (l := a.names) fun user => decide (user ∈ a.unknown)
  rw [hqueue.length_eq] at hlength
  have hsize : a.size = a.names.length := (List.length_map ..).symm
  rw [hsize, hlength]
  simp

/-- **A name has a count if it is in the queue or confirmed**, and not otherwise. -/
theorem mem_names_run_iff (h : a.Tidy) (hempty : a.names = []) (user : String) (events : List Event) :
    user ∈ (a.run events).names ↔ user ∈ (a.run events).unknown ∨ Confirmed user events := by
  constructor
  · rw [mem_names_iff]
    induction events using List.reverseRecOn with
    | nil =>
      intro hin
      rw [← mem_names_iff] at hin
      exact absurd (show user ∈ a.names from hin) (by simp [hempty])
    | append_singleton events event ih =>
      rw [run_concat, confirmed_concat_iff]
      intro hin
      by_cases hu : event.user = user
      · subst hu
        cases event with
        | failed name => exact Or.inr (Or.inl rfl)
        | reset name => simp [step, contains_reset, Event.user] at hin
        | denied name =>
          cases hnew : (a.run events).counts.contains name with
          | true =>
            rw [step, recordUnknown_of_contains hnew]
            exact (ih hnew).imp_right fun hconfirmed => Or.inr ⟨hconfirmed, by simp⟩
          | false =>
            obtain ⟨dropped, kept, hadmits⟩ := (h.run events).admits hnew
            rw [step, hadmits.queue_after]
            exact Or.inl (by simp [Event.user])
      · rcases (h.run events).step_other hu with ⟨hsame, hqueue⟩ | ⟨dropped, kept, -, hadmits, hdropped⟩
        · rw [contains_eq, hsame] at hin
          refine (ih hin).imp hqueue.2 fun hconfirmed => Or.inr ⟨hconfirmed, ?_⟩
          rintro rfl
          exact hu rfl
        · rw [contains_eq, hadmits.gone user hdropped] at hin
          simp at hin
  · rw [mem_names_iff]
    rintro (hqueue | ⟨before, after, rfl, hreset⟩)
    · exact (h.run events).counted user hqueue
    · rw [run_append]
      exact ((h.run before).get_run_of_confirmed hreset).2.1

/-- **Failures are counted, and not lost.**  Take any room for denied names (at least one) and any history.

The queue holds no name twice, never more names than there is room for, and only names that have a count; it is
in the order in which they entered last. A new name enters at its end, and only where the room is taken does
the oldest name leave, with its count; apart from that no event touches another name.

The count of a name that fails as confirmed is exact from then on, until it is reset, and it is not in the
queue. The count of a name that enters the queue is exact as long as it is neither confirmed nor reset and
fewer other names enter after it than there is room for. No count is larger than the largest, where it stays.

The names with a count are those in the queue and the confirmed ones, and the count of every other name is
zero. -/
theorem failures_counted (capacity : Nat) (events : List Event) :
    let a := (withCapacity capacity).run events
    let room := max capacity 1
    a.unknown.Nodup ∧ a.unknown.length ≤ room ∧ (∀ user ∈ a.unknown, user ∈ a.names) ∧
    a.unknown.Sublist ((withCapacity capacity).entrants events).dedup ∧
    (∀ user, user ∉ a.names → ∃ dropped kept, a.Admits (a.step (.denied user)) user dropped kept) ∧
    (∀ event other, a.entrant? event = none → event.user ≠ other →
      (a.step event).counts.get? other = a.counts.get? other ∧
        (other ∈ (a.step event).unknown ↔ other ∈ a.unknown)) ∧
    (∀ user later, .reset user ∉ later →
      let failed := a.step (.failed user)
      failed.get user = min (a.get user + 1) largestCount ∧ user ∉ (failed.run later).unknown ∧
        (failed.run later).get user = min (failed.get user + failures user later) largestCount) ∧
    (∀ user later, user ∉ a.names → .reset user ∉ later → .failed user ∉ later →
      let denied := a.step (.denied user)
      ((denied.entrants later).toFinset.erase user).card < room →
      user ∈ (denied.run later).unknown ∧
        (denied.run later).get user = min (1 + failures user later) largestCount) ∧
    a.size = a.unknown.length + (a.names.filter (· ∉ a.unknown)).length ∧
    (∀ user, user ∈ a.names ↔ user ∈ a.unknown ∨ Confirmed user events) ∧
    ∀ user, a.get user = 0 ↔ user ∉ a.names := by
  intro a room
  have hstart := tidy_start capacity
  have htidy : a.Tidy := hstart.run events
  have hroom : a.capacity = room := capacity_run _ events
  have hnew {user : String} (h : user ∉ a.names) : a.counts.contains user = false := by
    rwa [mem_names_iff, Bool.not_eq_true] at h
  refine ⟨htidy.nodup, hroom ▸ htidy.length_le, fun user hin => (mem_names_iff a user).2 (htidy.counted user hin),
    unknown_sublist hstart rfl events, fun user h => htidy.admits (hnew h), fun event other hnone hne => ?_,
    fun user later hreset => ?_, fun user later h hreset hfailed hfew => ?_, htidy.size_eq,
    fun user => mem_names_run_iff hstart rfl user events, fun user => ?_⟩
  · rcases htidy.step_other hne with hsame | ⟨_, _, hentrant, -⟩
    · exact hsame
    · rw [hnone] at hentrant
      simp at hentrant
  · obtain ⟨hout, -, hget⟩ := htidy.get_run_of_confirmed hreset
    have hother : Event.failed user ≠ .reset user := by simp
    exact ⟨get_step_of_user hother, hout, hget⟩
  · exact htidy.get_run_of_denied (hnew h) hreset hfailed (hroom ▸ hfew)
  · rw [mem_names_iff, contains_eq, get]
    cases hcount : a.counts.get? user with
    | none => simp
    | some count =>
      have hpos := (htidy.bounds user count hcount).1
      simp only [Option.getD_some, Option.isSome_some, not_true_eq_false, iff_false]
      omega

/-- With room for two denied names, three of them pass by the user `a`, who has failed twice, and one of them
fails twice while only one other comes. -/
theorem failures_counted_passing :
    let a := (withCapacity 2).run [.failed "a"]
    ((a.step (.failed "a")).run [.denied "b", .denied "c", .denied "d"]).get "a" = 2 ∧
      "b" ∈ ((a.step (.denied "b")).run [.denied "c", .denied "b"]).unknown ∧
      ((a.step (.denied "b")).run [.denied "c", .denied "b"]).get "b" = 2 := by
  intro a
  obtain ⟨-, -, -, -, -, -, hconfirmed, hdenied, -⟩ := failures_counted 2 [.failed "a"]
  obtain ⟨hfirst, -, hcount⟩ := hconfirmed "a" [.denied "b", .denied "c", .denied "d"] (by decide)
  obtain ⟨hqueue, hcount'⟩ := hdenied "b" [.denied "c", .denied "b"] (by decide) (by decide) (by decide) (by decide)
  exact ⟨by rw [hcount, hfirst]; decide, hqueue, by rw [hcount']; decide⟩

end Attempts
end Cashpoint
