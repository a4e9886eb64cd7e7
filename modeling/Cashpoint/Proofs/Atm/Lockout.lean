/-
# The lock on a name

An ATM meets whole turns: lines, whatever the network brings back, any files and any
PINs. A user fails when the PIN prompt was reached and what was typed did not pass
(`refused?`); `failures` counts this for one user since the last time that user left.

The failures of a user never exceed the count that the session holds, and that count
never exceeds the ceiling: at most so many guesses are made, whatever other names are
tried in between (`lock_permanent`). What carries this is `Guarded`: a user with a
failure is not in the queue of denied names, so no other name takes the count away,
and a locked user is never logged in, so none is reset by leaving.
-/

import Cashpoint.Proofs.Atm.Turn
import Cashpoint.Proofs.Attempts.Counts

namespace Cashpoint
namespace Atm

/-! ## Failures -/

/-- The user who fails at the PIN or at the card in a turn. -/
def refused? (atm : Atm) (i : Input) : Option String :=
  match atm.submit i.line with
  | .done _ _ => none
  | .send _ x =>
    match x.receive i.reply with
    | .done _ _ => none
    | .askPin login =>
      match login.check i.files i.typed with
      | .ok true => none
      | _ => some login.user

/-- The user who leaves in a turn. -/
def left? (atm : Atm) (i : Input) : Option String :=
  match Console.AtmCommand.ofLine i.line with
  | .ok .endSession => atm.session.user?
  | _ => none

/-- The failures of a user after a turn, since the user left last. -/
def tally (user : String) (atm : Atm) (i : Input) (failures : Nat) : Nat :=
  if atm.left? i = some user then 0
  else if atm.refused? i = some user then failures + 1
  else failures

/-- The failures of a user after a run, since the user left last, if there were so many before. -/
def failures (user : String) (before : Nat) (atm : Atm) : List Input → Nat
  | [] => before
  | i :: rest => failures user (atm.tally user i before) (atm.turn i).atm rest

/-! ## What a turn does to the session -/

/-- What a turn does to the session, with the lines it prints, the user who fails in it and the user who
leaves in it. -/
inductive Moves (session : Session) (line : String) :
    List String → Option String → Option String → Session → Prop
  | atOnce {lines : List String} (h : AtOnce session line lines) : Moves session line lines none none session
  | failed {request : Request} (h : Asks session line request) (e : Error) :
    Moves session line [failure e] none none session
  | answered {request : Request} (h : Asks session line request)
    (hrequest : ∀ user, request ≠ .beginSession user) (response : Response) :
    Moves session line [response.render] none none session
  | left {user : String} (hline : Console.AtmCommand.ofLine line = .ok .endSession)
    (hin : session.user? = some user) :
    Moves session line [userLoggedOut] none (some user)
      { session with user? := none, attempts := session.attempts.reset user }
  | denied {user : String} (h : Asks session line (.beginSession user)) :
    Moves session line (withLock (session.recordUnknown user) user [noSuchUser]) none none
      (session.recordUnknown user)
  | entered {user : String} (h : Asks session line (.beginSession user)) :
    Moves session line [authorized] none none { session with user? := some user }
  | refused {user : String} (h : Asks session line (.beginSession user)) {lines : List String}
    (hlines : lines = [notAuthorized] ∨ lines = [unableToAccess user, notAuthorized]) :
    Moves session line (withLock (session.recordFailure user) user lines) (some user) none
      (session.recordFailure user)

/-- Nobody leaves by a line that asks for something. -/
theorem Asks.left?_eq_none {atm : Atm} {i : Input} {request : Request}
    (h : Asks atm.session i.line request) : atm.left? i = none := by
  cases h with
  | beginSession hline | withdraw hline | balance hline => simp [left?, hline]

/-- Nobody leaves by a line that is answered at once. -/
theorem AtOnce.left?_eq_none {atm : Atm} {i : Input} {lines : List String}
    (h : AtOnce atm.session i.line lines) : atm.left? i = none := by
  cases h with
  | rejected hline | loggedIn hline | locked hline => simp [left?, hline]
  | loggedOut _ _ hout =>
    simp only [left?, hout]
    split <;> rfl

/-- A session begins only while nobody is logged in, and for a name that is not locked. -/
theorem Asks.begins {session : Session} {line : String} {user : String}
    (h : Asks session line (.beginSession user)) : session.user? = none ∧ session.isLocked user = false := by
  cases h with
  | beginSession hline hout hopen => exact ⟨hout, hopen⟩

/-- A line that begins a session asks for that session. -/
theorem Asks.eq_beginSession {session : Session} {line : String} {user : String} {request : Request}
    (h : Asks session line request)
    (hline : Console.AtmCommand.ofLine line = .ok (.beginSession user)) : request = .beginSession user := by
  cases h with
  | beginSession hline' =>
    rw [hline] at hline'
    simpa using hline'.symm
  | withdraw hline' | balance hline' =>
    rw [hline] at hline'
    simp at hline'

/-- **What a whole turn does to the session.** -/
theorem turn_moves (atm : Atm) (i : Input) :
    Moves atm.session i.line (atm.turn i).lines (atm.refused? i) (atm.left? i) (atm.turn i).atm.session := by
  rcases submit_cases atm i.line with
    ⟨request, hasks, hsubmit⟩ | ⟨user, hline, hin, hsubmit⟩ | ⟨lines, honce, hsubmit⟩
  · rw [hasks.left?_eq_none]
    rcases request_cases atm request with ⟨datagram, x, hsend, hx⟩ | ⟨lines, atm', hdone, hunsent⟩
    · rw [hsend] at hsubmit
      rcases x.receive_cases i.reply with ⟨e, -, hr⟩ | ⟨user, hq, -, hr⟩ | ⟨user, hq, -, hr⟩ |
        ⟨response, hq, -, hr⟩
      · simp only [turn, command, refused?, hsubmit, hr, finish, hx.session_eq]
        exact .failed hasks e
      · obtain rfl : request = .beginSession user := hx.request_eq.symm.trans hq
        simp only [turn, command, refused?, hsubmit, hr, finish, hx.session_eq]
        exact .denied hasks
      · obtain rfl : request = .beginSession user := hx.request_eq.symm.trans hq
        obtain ⟨hout, hopen⟩ := hasks.begins
        rw [← hx.session_eq] at hout hopen
        rcases Login.enter_cases { atm := x.atm, user } i.files i.typed hout hopen with
          ⟨hc, he⟩ | ⟨hc, he⟩ | ⟨e, hc, he⟩
        · simp only [turn, command, refused?, hsubmit, hr, finish, hc, he, hx.session_eq]
          exact .entered hasks
        · simp only [turn, command, refused?, hsubmit, hr, finish, hc, he, Login.refuse, hx.session_eq]
          exact .refused hasks (Or.inl rfl)
        · simp only [turn, command, refused?, hsubmit, hr, finish, hc, he, Login.refuse, hx.session_eq]
          exact .refused hasks (Or.inr rfl)
      · rw [hx.request_eq] at hq
        simp only [turn, command, refused?, hsubmit, hr, finish, hx.session_eq]
        exact .answered hasks hq response
    · rw [hdone] at hsubmit
      obtain ⟨e, rfl⟩ := hunsent.lines_eq
      simp only [turn, command, refused?, hsubmit, hunsent.session_eq]
      exact .failed hasks e
  · have hleft : atm.left? i = some user := by simp [left?, hline, hin]
    simp only [turn, command, refused?, hsubmit, hleft]
    exact .left hline hin
  · rw [honce.left?_eq_none]
    simp only [turn, command, refused?, hsubmit]
    exact .atOnce honce

/-! ## The invariant -/

/-- What holds of a user's failures and the session in every state. -/
structure Guarded (user : String) (ceiling failures : Nat) (session : Session) : Prop where
  ceiling_eq : session.maxAttempts = ceiling
  count_le : session.attempts.get user ≤ ceiling
  failures_le : failures ≤ session.attempts.get user
  /-- The count of a user with a failure cannot be pushed out. -/
  kept : 0 < failures → user ∉ session.attempts.unknown
  /-- The user who is logged in is not locked. -/
  open_of_in : session.user? = some user → session.attempts.get user < ceiling

variable {user : String} {ceiling failures : Nat} {session : Session}

/-- A name is locked when its count has reached the ceiling. -/
theorem isLocked_iff (session : Session) (user : String) :
    session.isLocked user = true ↔ session.maxAttempts ≤ session.attempts.get user := by
  simp [Session.isLocked]

/-- The count of a name that is not locked is below the ceiling. -/
theorem Guarded.lt_of_open (h : Guarded user ceiling failures session)
    (hopen : session.isLocked user = false) : session.attempts.get user < ceiling := by
  rw [← h.ceiling_eq]
  simpa [Session.isLocked] using hopen

/-- Someone leaves. -/
theorem Guarded.leave (h : Guarded user ceiling failures session) (other : String) :
    Guarded user ceiling (if other = user then 0 else failures)
      { session with user? := none, attempts := session.attempts.reset other } := by
  have hget := Attempts.get_reset session.attempts other user
  refine ⟨h.ceiling_eq, ?_, ?_, ?_, by simp⟩
  · rw [hget]
    split
    · exact Nat.zero_le _
    · exact h.count_le
  · rw [hget]
    split
    · exact Nat.le_refl _
    · exact h.failures_le
  · intro hpos hmem
    split at hpos
    · omega
    · exact h.kept hpos (Attempts.mem_unknown_reset.1 hmem).1

/-- The Bank denies a name. -/
theorem Guarded.deny (h : Guarded user ceiling failures session) (hlargest : ceiling ≤ Attempts.largestCount)
    {other : String} (hout : session.user? = none) (hopen : session.isLocked other = false) :
    Guarded user ceiling failures (session.recordUnknown other) := by
  have hcount := h.count_le
  have hle := h.failures_le
  have hget : (session.attempts.recordUnknown other).get user ≤ ceiling ∧
      failures ≤ (session.attempts.recordUnknown other).get user := by
    by_cases hu : other = user
    · subst hu
      have hlt := h.lt_of_open hopen
      rw [Attempts.get_recordUnknown_self]
      omega
    · rcases Attempts.get_recordUnknown_other (a := session.attempts) hu with hsame | ⟨hmem, hzero⟩
      · rw [hsame]
        exact ⟨hcount, hle⟩
      · -- the name has left the queue, so no failure is lost
        have hnone : failures = 0 := Nat.eq_zero_of_not_pos fun hpos => h.kept hpos hmem
        rw [hzero, hnone]
        exact ⟨Nat.zero_le _, Nat.le_refl _⟩
  refine ⟨h.ceiling_eq, hget.1, hget.2, fun hpos hmem => ?_, by simp [Session.recordUnknown, hout]⟩
  rcases Attempts.mem_unknown_recordUnknown hmem with hold | ⟨rfl, hnew⟩
  · exact h.kept hpos hold
  · -- a name that enters the queue had no count, so no failure either
    rw [Attempts.get_of_not_contains hnew] at hle
    omega

/-- Someone fails at the PIN or at the card. -/
theorem Guarded.refuse (h : Guarded user ceiling failures session)
    (hlargest : ceiling ≤ Attempts.largestCount) {other : String} (hout : session.user? = none)
    (hopen : session.isLocked other = false) :
    Guarded user ceiling (if other = user then failures + 1 else failures)
      (session.recordFailure other) := by
  have hcount := h.count_le
  have hle := h.failures_le
  have hget := Attempts.get_recordFailure session.attempts other user
  by_cases hu : other = user
  · subst hu
    have hlt := h.lt_of_open hopen
    rw [if_pos rfl] at hget ⊢
    refine ⟨h.ceiling_eq, ?_, ?_, fun _ hmem => ?_, by simp [Session.recordFailure, hout]⟩
    · simp only [Session.recordFailure, hget]
      omega
    · simp only [Session.recordFailure, hget]
      omega
    · exact (Attempts.mem_unknown_recordFailure.1 hmem).2 rfl
  · rw [if_neg hu] at hget ⊢
    refine ⟨h.ceiling_eq, ?_, ?_, fun hpos hmem => ?_, by simp [Session.recordFailure, hout]⟩
    · simp only [Session.recordFailure, hget, hcount]
    · simp only [Session.recordFailure, hget, hle]
    · exact h.kept hpos (Attempts.mem_unknown_recordFailure.1 hmem).1

/-- **Every turn keeps the invariant.** -/
theorem Guarded.turn {atm : Atm} (h : Guarded user ceiling failures atm.session)
    (hlargest : ceiling ≤ Attempts.largestCount) (i : Input) :
    Guarded user ceiling (atm.tally user i failures) (atm.turn i).atm.session := by
  have hmoves := atm.turn_moves i
  unfold tally
  generalize (atm.turn i).lines = lines, atm.refused? i = refused, atm.left? i = left,
    (atm.turn i).atm.session = after at hmoves ⊢
  cases hmoves with
  | atOnce | failed | answered => exact h
  | left => simpa using h.leave _
  | denied hasks => exact h.deny hlargest hasks.begins.1 hasks.begins.2
  | entered hasks =>
    refine ⟨h.ceiling_eq, h.count_le, h.failures_le, h.kept, fun hin => ?_⟩
    obtain rfl := Option.some.inj hin
    exact h.lt_of_open hasks.begins.2
  | refused hasks => simpa using h.refuse hlargest hasks.begins.1 hasks.begins.2

/-- Every run keeps the guard, with the failures that it adds. -/
theorem Guarded.run {atm : Atm} (h : Guarded user ceiling failures atm.session)
    (hlargest : ceiling ≤ Attempts.largestCount) (inputs : List Input) :
    Guarded user ceiling (atm.failures user failures inputs) (atm.run inputs).session := by
  induction inputs generalizing atm failures with
  | nil => exact h
  | cons i rest ih => exact ih (h.turn hlargest i)

/-- A new session guards every name, with no failure. -/
theorem guarded_start (user : String) (capacity ceiling : Nat) :
    Guarded user ceiling 0 { attempts := .withCapacity capacity, maxAttempts := ceiling } := by
  have hzero : (Attempts.withCapacity capacity).get user = 0 := rfl
  refine ⟨rfl, ?_, Nat.zero_le _, by simp, by simp⟩
  rw [hzero]
  exact Nat.zero_le _

/-! ## The lock is permanent -/

/-- A user who is locked and has failed stays so in a turn. -/
theorem Guarded.locked_turn {atm : Atm} (h : Guarded user ceiling failures atm.session)
    (hpos : 0 < failures) (hfull : atm.session.attempts.get user = ceiling) (i : Input) :
    0 < atm.tally user i failures ∧ (atm.turn i).atm.session.attempts.get user = ceiling := by
  have hmoves := atm.turn_moves i
  -- a name that is not locked is another one
  have hother {other : String} (hopen : atm.session.isLocked other = false) : other ≠ user := by
    rintro rfl
    exact absurd hfull (Nat.ne_of_lt (h.lt_of_open hopen))
  unfold tally
  generalize (atm.turn i).lines = lines, atm.refused? i = refused, atm.left? i = left,
    (atm.turn i).atm.session = after at hmoves ⊢
  cases hmoves with
  | atOnce | failed | answered | entered => exact ⟨hpos, hfull⟩
  | @left other _ hin =>
    have hne : other ≠ user := by
      rintro rfl
      exact absurd hfull (Nat.ne_of_lt (h.open_of_in hin))
    simp only [Option.some.injEq, hne, if_false, reduceCtorEq]
    refine ⟨hpos, ?_⟩
    rw [Attempts.get_reset, if_neg hne, hfull]
  | denied hasks =>
    refine ⟨hpos, ?_⟩
    rcases Attempts.get_recordUnknown_other (a := atm.session.attempts) (hother hasks.begins.2) with
      hsame | ⟨hmem, -⟩
    · exact hsame.trans hfull
    · exact absurd hmem (h.kept hpos)
  | @refused other hasks =>
    have hne := hother hasks.begins.2
    simp only [Option.some.injEq, hne, if_false, reduceCtorEq]
    refine ⟨hpos, ?_⟩
    rw [Session.recordFailure, Attempts.get_recordFailure, if_neg hne, hfull]

/-- A name whose count is at the ceiling stays there. -/
theorem Guarded.locked_run {atm : Atm} (h : Guarded user ceiling failures atm.session)
    (hlargest : ceiling ≤ Attempts.largestCount) (hpos : 0 < failures)
    (hfull : atm.session.attempts.get user = ceiling) (rest : List Input) :
    (atm.run rest).session.attempts.get user = ceiling := by
  induction rest generalizing atm failures with
  | nil => exact hfull
  | cons i rest ih =>
    obtain ⟨hpos', hfull'⟩ := h.locked_turn hpos hfull i
    exact ih (h.turn hlargest i) hpos' hfull'

/-- A line that begins a session for a locked user sends nothing and asks for no PIN. -/
theorem turn_of_locked {atm : Atm} {i : Input}
    (hline : Console.AtmCommand.ofLine i.line = .ok (.beginSession user))
    (hlocked : atm.session.isLocked user = true) :
    (atm.turn i).state = 0 ∧ (atm.turn i).askedPin = false := by
  rcases submit_cases atm i.line with ⟨request, hasks, -⟩ | ⟨_, hend, -, -⟩ | ⟨lines, -, hsubmit⟩
  · obtain rfl := hasks.eq_beginSession hline
    have hopen := hasks.begins.2
    rw [hlocked] at hopen
    simp at hopen
  · rw [hline] at hend
    simp at hend
  · simp [turn, command, hsubmit]

/-! ## The lock message -/

/-- The text about a locked name begins with a `T`. -/
theorem head?_locked (user : String) : (locked user).toList.head? = some 'T' := by
  unfold locked
  simp

/-- The text about a card that cannot be read begins with a `U`. -/
theorem head?_unableToAccess (user : String) : (unableToAccess user).toList.head? = some 'U' := by
  unfold unableToAccess
  simp

/-- The lock message differs from every line that starts in another way. -/
theorem locked_ne {line : String} (h : line.toList.head? ≠ some 'T') : locked user ≠ line := by
  rintro rfl
  exact h (head?_locked user)

/-- No message about a failure says that a name is locked. -/
theorem locked_ne_failure (e : Error) : locked user ≠ failure e := by
  refine locked_ne ?_
  unfold failure
  split <;> decide

/-- It is added that a name is locked just if it is. -/
theorem mem_withLock_iff {lines : List String} (h : locked user ∉ lines) :
    locked user ∈ withLock session user lines ↔ session.isLocked user = true := by
  unfold withLock
  split
  · rename_i hl
    simp [hl]
  · rename_i hl
    simp [hl, h]

/-- **The lock message is printed exactly when the name is locked in the end.** -/
theorem mem_lines_iff {atm : Atm} {i : Input}
    (hline : Console.AtmCommand.ofLine i.line = .ok (.beginSession user))
    (hout : atm.session.user? = none) :
    locked user ∈ (atm.turn i).lines ↔ (atm.turn i).atm.session.isLocked user = true := by
  have hmoves := atm.turn_moves i
  have hnotAuthorized : locked user ≠ notAuthorized := locked_ne (by decide)
  generalize (atm.turn i).lines = lines, atm.refused? i = refused, atm.left? i = left,
    (atm.turn i).atm.session = after at hmoves ⊢
  cases hmoves with
  | atOnce honce =>
    cases honce with
    | rejected hline' =>
      rw [hline] at hline'
      simp at hline'
    | loggedIn _ hin =>
      rw [hout] at hin
      simp at hin
    | locked hline' _ hlocked =>
      rw [hline] at hline'
      obtain rfl : user = _ := by simpa using hline'
      simp [hlocked]
    | loggedOut hline' hother =>
      rw [hline] at hline'
      exact absurd (Except.ok.inj hline').symm (hother user)
  | failed hasks e =>
    obtain rfl := hasks.eq_beginSession hline
    simp [hasks.begins.2, locked_ne_failure]
  | answered hasks hrequest => exact absurd (hasks.eq_beginSession hline) (hrequest user)
  | left hline' =>
    rw [hline] at hline'
    simp at hline'
  | @denied other hasks =>
    obtain rfl : user = other := by simpa using (hasks.eq_beginSession hline).symm
    exact mem_withLock_iff (by simpa using locked_ne (by decide))
  | @entered other hasks =>
    obtain rfl : user = other := by simpa using (hasks.eq_beginSession hline).symm
    have hne : locked user ≠ authorized := locked_ne (by decide)
    have hopen : ({ atm.session with user? := some user } : Session).isLocked user = false := hasks.begins.2
    simp [hne, hopen]
  | @refused other hasks lines hlines =>
    obtain rfl : user = other := by simpa using (hasks.eq_beginSession hline).symm
    refine mem_withLock_iff ?_
    rcases hlines with rfl | rfl
    · simpa using hnotAuthorized
    · have hunable : locked user ≠ unableToAccess user := locked_ne (by rw [head?_unableToAccess]; decide)
      simp [hunable, hnotAuthorized]

/-! ## The statement -/

/-- **PIN guesses are bounded, and the lock on a user who has failed is permanent.**  In every state of
every run of an ATM, whatever the lines, the PINs, the files and the network, the count of a user is at
most the ceiling, and the failures of the user at the PIN or at the card since the user left last are at
most the count. Once a user with such a failure has a count at the ceiling, the user is locked and not
logged in in every later state, and a line that begins a session for the user sends nothing and asks for
no PIN. Such a line prints the lock message, for any user while nobody is logged in, exactly when the
user is locked after it. -/
theorem lock_permanent (keys : Keys) (cards : CardStore) (sequencer : Sequencer)
    (capacity ceiling : Nat) (hlargest : ceiling ≤ Attempts.largestCount) (user : String)
    (inputs : List Input) :
    let start : Atm := { keys, cards, sequencer,
                         session := { attempts := .withCapacity capacity, maxAttempts := ceiling } }
    let atm := start.run inputs
    atm.session.attempts.get user ≤ ceiling ∧
      start.failures user 0 inputs ≤ atm.session.attempts.get user ∧
      (0 < start.failures user 0 inputs → atm.session.attempts.get user = ceiling →
        ∀ rest, (atm.run rest).session.isLocked user = true ∧
          (atm.run rest).session.user? ≠ some user ∧
          ∀ i, Console.AtmCommand.ofLine i.line = .ok (.beginSession user) →
            ((atm.run rest).turn i).state = 0 ∧ ((atm.run rest).turn i).askedPin = false) ∧
      ∀ i, Console.AtmCommand.ofLine i.line = .ok (.beginSession user) → atm.session.user? = none →
        (locked user ∈ (atm.turn i).lines ↔ (atm.turn i).atm.session.isLocked user = true) := by
  intro start atm
  have hguarded : Guarded user ceiling (start.failures user 0 inputs) atm.session :=
    (guarded_start user capacity ceiling).run hlargest inputs
  refine ⟨hguarded.count_le, hguarded.failures_le, fun hpos hfull rest => ?_,
    fun i hline hout => mem_lines_iff hline hout⟩
  have hlater := hguarded.run hlargest rest
  have hstill := hguarded.locked_run hlargest hpos hfull rest
  have hlocked : (atm.run rest).session.isLocked user = true := by
    rw [isLocked_iff, hlater.ceiling_eq]
    exact Nat.le_of_eq hstill.symm
  refine ⟨hlocked, fun hin => ?_, fun i hline => turn_of_locked hline hlocked⟩
  exact absurd hstill (Nat.ne_of_lt (hlater.open_of_in hin))

/-- With a ceiling of 1, the user `a` whom the Bank confirms and who types nothing at the PIN prompt is
locked for good. -/
theorem lock_permanent_after_one :
    ∃ i : Input,
      let start : Atm := { keys := ⟨Bytes.zero 32, Bytes.zero 32⟩, cards := ⟨⟨"."⟩⟩,
                           sequencer := { start := Bytes.zero 4, last := 0 },
                           session := { attempts := .withCapacity 4, maxAttempts := 1 } }
      start.failures "a" 0 [i] = 1 ∧ (start.run [i]).session.attempts.get "a" = 1 ∧
        ∀ rest, ((start.run [i]).run rest).session.isLocked "a" = true := by
  let start : Atm := { keys := ⟨Bytes.zero 32, Bytes.zero 32⟩, cards := ⟨⟨"."⟩⟩,
                       sequencer := { start := Bytes.zero 4, last := 0 },
                       session := { attempts := .withCapacity 4, maxAttempts := 1 } }
  have hname : Credential.isUserName "a" = true := by decide
  have hwf : (Request.beginSession "a").WellFormed := hname
  obtain ⟨datagram, x, hsend, hx⟩ := start.exists_send (by decide) hwf
  have hsmall : (Utf8.encode Response.success.render).length ≤ Frame.largestPlaintext := by decide
  obtain ⟨reply, bytes, hs, he⟩ := Frame.exists_sealWith hsmall x.atm.keys.messageKey (Bytes.zero 12)
    x.sealed.binding
  have hanswer : x.answer (.ok bytes) = .ok .success :=
    Exchange.answer_of_sealReply hs he trivial (by rw [hx.request_eq]; rfl)
  have hreceive : x.receive (.ok bytes) = .askPin { atm := x.atm, user := "a" } := by
    simp only [Exchange.receive, hanswer, hx.request_eq, Exchange.confirm]
  let i : Input := { line := "begin-session a", reply := .ok bytes, files := {}, typed := none }
  have hline : Console.AtmCommand.ofLine "begin-session a" = .ok (.beginSession "a") := by rfl
  have hsubmit : start.submit i.line = .send datagram x := by
    simp only [submit, i, hline, Atm.beginSession]
    exact hsend
  have hrefused : start.refused? i = some "a" := by
    simp only [refused?, hsubmit, i, hreceive]
    rfl
  have hleft : start.left? i = none := by simp only [left?, i, hline]
  have hfailures : start.failures "a" 0 [i] = 1 := by
    simp only [failures, tally, hleft, hrefused]
    rfl
  have hcount : (start.run [i]).session.attempts.get "a" = 1 := by
    simp only [run_cons, run_nil, turn, command, hsubmit, i, hreceive, finish, Login.enter, Login.check,
      Login.refuse, hx.session_eq]
    decide
  refine ⟨i, hfailures, hcount, fun rest => ?_⟩
  have h := lock_permanent ⟨Bytes.zero 32, Bytes.zero 32⟩ ⟨⟨"."⟩⟩ { start := Bytes.zero 4, last := 0 } 4 1
    (by decide) "a" [i]
  exact (h.2.2.1 (by rw [hfailures]; decide) hcount rest).1

end Atm
end Cashpoint
