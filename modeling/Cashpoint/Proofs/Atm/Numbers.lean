/-
# The numbers of requests

A sequencer issues the numbers after its last one, each in one vector and in order, and then
nothing (`issues_eq`). An ATM takes one vector for each request, and sends one frame under it. So
the frames of a whole run carry the numbers after the first ATM's last one, in order, and as many of
them as there were requests, until no number is left (`Numbered`, `commands_numbered`). No vector
seals two frames.
-/

import Cashpoint.Proofs.Atm.Effect
import Mathlib.Data.List.Nodup

namespace Cashpoint

/-! ## Vectors -/

namespace Sequencer

/-- How many numbers are left. -/
def left (s : Sequencer) : Nat := lastSequence - s.last

/-- Asks for a vector. If none is left the sequencer stays as it is. -/
def issue (s : Sequencer) : Except Error (Bytes 12) × Sequencer :=
  match s.next with
  | .ok (iv, next) => (.ok iv, next)
  | .error e => (.error e, s)

/-- Asks for so many vectors, one after another. -/
def issues (s : Sequencer) : Nat → List (Except Error (Bytes 12)) × Sequencer
  | 0 => ([], s)
  | n + 1 =>
    let (result, next) := s.issue
    let (results, after) := next.issues n
    (result :: results, after)

/-- The vectors of the next so many numbers. -/
def vectors (s : Sequencer) (n : Nat) : List (Bytes 12) := (List.range' (s.last + 1) n).map (vector s.start)

@[simp] theorem length_vectors (s : Sequencer) (n : Nat) : (s.vectors n).length = n := by
  simp [vectors]

/-- The next vectors of a sequencer are those of its successor behind its first ones. -/
theorem vectors_add {s next : Sequencer} {m : Nat} (hstart : next.start = s.start) (hlast : next.last = s.last + m)
    (n : Nat) : s.vectors (m + n) = s.vectors m ++ next.vectors n := by
  rw [vectors, vectors, vectors, hstart, hlast, ← List.map_append, Nat.add_right_comm, List.range'_append_1]

/-- The numbers in the vectors, read back, are the next ones. -/
theorem map_ofBigEndian_vectors {s : Sequencer} {n : Nat} (hn : n ≤ s.left) :
    ((s.vectors n).map fun iv => ofBigEndian (iv.toList.drop 4)) = List.range' (s.last + 1) n := by
  rw [vectors, List.map_map]
  refine (List.map_congr_left fun k hk => ?_).trans (List.map_id _)
  have hlast := s.last_le
  have hk := (List.mem_range'_1.1 hk).2
  refine ofBigEndian_drop_vector ?_
  simp only [left] at hn
  omega

/-- As long as there are vectors left, they are all different. -/
theorem vectors_nodup {s : Sequencer} {n : Nat} (hn : n ≤ s.left) : (s.vectors n).Nodup := by
  refine List.Nodup.of_map (fun iv => ofBigEndian (iv.toList.drop 4)) ?_
  rw [map_ofBigEndian_vectors hn]
  exact List.nodup_range'

/-- A vector begins with the prefix of its sequencer. -/
theorem take_vector (start : Bytes 4) (sequence : Nat) : (vector start sequence).toList.take 4 = start.toList := by
  rw [vector, Vector.toList_append, List.take_append_of_le_length (by simp), List.take_of_length_le (by simp)]

/-- So does each of the next vectors. -/
theorem take_of_mem_vectors {s : Sequencer} {n : Nat} {iv : Bytes 12} (h : iv ∈ s.vectors n) :
    iv.toList.take 4 = s.start.toList := by
  obtain ⟨k, -, rfl⟩ := List.mem_map.1 h
  exact take_vector s.start k

/-- As long as one is left, the next vector is issued. -/
theorem issue_of_left {s : Sequencer} (h : s.last < lastSequence) :
    ∃ next : Sequencer, s.issue = (.ok (vector s.start (s.last + 1)), next) ∧ next.start = s.start ∧
      next.last = s.last + 1 := by
  have hnext : s.next = .ok (vector s.start (s.last + 1), { s with last := s.last + 1, last_le := h }) := dif_pos h
  exact ⟨{ s with last := s.last + 1, last_le := h }, by rw [issue, hnext], rfl, rfl⟩

/-- Once none is left, none is issued and the sequencer stays. -/
theorem issue_of_exhausted {s : Sequencer} (h : ¬s.last < lastSequence) :
    s.issue = (.error (.frame .sequenceExhausted), s) := by
  have hnext : s.next = .error (.frame .sequenceExhausted) := dif_neg h
  rw [issue, hnext]

/-- **What a sequencer issues**: the vectors of the next numbers, as long as there are some. -/
theorem issues_eq (s : Sequencer) (n : Nat) :
    (s.issues n).1 = (s.vectors (min n s.left)).map .ok ++
        List.replicate (n - s.left) (.error (.frame .sequenceExhausted)) ∧
      (s.issues n).2.start = s.start ∧ (s.issues n).2.last = s.last + min n s.left := by
  induction n generalizing s with
  | zero => simp [issues, vectors]
  | succ n ih =>
    by_cases hlast : s.last < lastSequence
    · -- the first call takes the first vector, and one number fewer is left
      obtain ⟨next, hissue, hstart, hone⟩ := issue_of_left hlast
      obtain ⟨hresults, hafter, hend⟩ := ih next
      have hleft : s.left = next.left + 1 := by
        simp only [left, hone]
        omega
      have hmin : min (n + 1) s.left = 1 + min n next.left := by omega
      have hfirst : s.vectors 1 = [vector s.start (s.last + 1)] := rfl
      simp only [issues, hissue]
      refine ⟨?_, hafter.trans hstart, by omega⟩
      rw [hresults, hmin, vectors_add hstart hone, hfirst, hleft, Nat.add_sub_add_right]
      rfl
    · -- the first call fails, and so do the others, since the sequencer is the same for them
      obtain ⟨hresults, hafter, hend⟩ := ih s
      have hleft : s.left = 0 := Nat.sub_eq_zero_of_le (Nat.not_lt.1 hlast)
      simp only [issues, issue_of_exhausted hlast]
      refine ⟨?_, hafter, by omega⟩
      rw [hresults, hleft, Nat.min_zero, Nat.min_zero]
      rfl

@[simp] theorem length_issues (s : Sequencer) (n : Nat) : (s.issues n).1.length = n := by
  rw [(issues_eq s n).1, List.length_append, List.length_map, length_vectors, List.length_replicate]
  omega

/-- Each attempt to issue a vector, as long as one is left, issues the one after the last. -/
theorem getElem?_issues_of_lt {s : Sequencer} {n k : Nat} (h : k < min n s.left) :
    (s.issues n).1[k]? = some (.ok (vector s.start (s.last + (k + 1)))) := by
  have hvectors : (s.vectors (min n s.left))[k]? = some (vector s.start (s.last + (k + 1))) := by
    rw [vectors, List.getElem?_map, List.getElem?_range' h, Nat.one_mul, Nat.add_assoc, Nat.add_comm 1 k]
    rfl
  rw [(issues_eq s n).1, List.getElem?_append_left (by simpa using h), List.getElem?_map, hvectors]
  rfl

/-- Every later attempt fails. -/
theorem getElem?_issues_of_le {s : Sequencer} {n k : Nat} (hk : k < n) (h : s.left ≤ k) :
    (s.issues n).1[k]? = some (.error (.frame .sequenceExhausted)) := by
  have hmin : min n s.left = s.left := Nat.min_eq_right (Nat.le_of_lt (Nat.lt_of_le_of_lt h hk))
  rw [(issues_eq s n).1, List.getElem?_append_right (by simpa [hmin] using h), List.getElem?_replicate, if_pos]
  rw [List.length_map, length_vectors, hmin]
  omega

/-- The vectors that are issued are the next ones, as many as are left. -/
theorem filterMap_issues (s : Sequencer) (n : Nat) :
    (s.issues n).1.filterMap Except.toOption = s.vectors (min n s.left) := by
  rw [(issues_eq s n).1, List.filterMap_append, List.filterMap_map, List.filterMap_replicate_of_none rfl,
    List.append_nil]
  exact List.filterMap_some

end Sequencer

/-! ## Runs -/

namespace Atm

variable {σ : Type}

/-- Takes lines one after another, each with what will be typed if it comes to the PIN prompt. -/
def commands (world : Surroundings σ) : (atm : Atm) → σ → List (String × Option String) → Atm × σ
  | atm, s, [] => (atm, s)
  | atm, s, (line, typed) :: later =>
    let handled := atm.command world line typed s
    commands world handled.atm handled.state later

/-- How many of the lines ask for a request. -/
def requests (world : Surroundings σ) : (atm : Atm) → σ → List (String × Option String) → Nat
  | _, _, [] => 0
  | atm, s, (line, typed) :: later =>
    let handled := atm.command world line typed s
    (if (atm.session.request? line).isSome then 1 else 0) + requests world handled.atm handled.state later

/-- Commands can be entered one list after another. -/
theorem commands_append (world : Surroundings σ) (atm : Atm) (s : σ) (entries later : List (String × Option String)) :
    commands world atm s (entries ++ later) =
      commands world (commands world atm s entries).1 (commands world atm s entries).2 later := by
  induction entries generalizing atm s with
  | nil => rfl
  | cons entry rest ih => exact ih _ _

/-- Frames have gone out under the next vectors of an ATM, and these vectors are used up. -/
structure Numbered (atm : Atm) (sent : List (List UInt8)) (frames : List Frame) (after : Atm)
    (sent' : List (List UInt8)) : Prop where
  sends : ∃ datagrams, sent' = sent ++ datagrams ∧ datagrams.map Frame.decode = frames.map .ok
  iv_eq : frames.map Frame.iv = atm.sequencer.vectors frames.length
  start_eq : after.sequencer.start = atm.sequencer.start
  last_eq : after.sequencer.last = atm.sequencer.last + frames.length

variable {atm after last : Atm} {sent sent' sent'' : List (List UInt8)} {frames frames' : List Frame}

/-- Without a request the vectors and the transport are as before. -/
theorem numbered_nil (hstart : after.sequencer.start = atm.sequencer.start)
    (hlast : after.sequencer.last = atm.sequencer.last) : Numbered atm sent [] after sent where
  sends := ⟨[], (List.append_nil _).symm, rfl⟩
  iv_eq := rfl
  start_eq := hstart
  last_eq := hlast

/-- The requests of one part of a run are followed by those of the next. -/
theorem Numbered.append (h : Numbered atm sent frames after sent') (h' : Numbered after sent' frames' last sent'') :
    Numbered atm sent (frames ++ frames') last sent'' where
  sends := by
    obtain ⟨datagrams, rfl, hdecode⟩ := h.sends
    obtain ⟨datagrams', rfl, hdecode'⟩ := h'.sends
    exact ⟨datagrams ++ datagrams', List.append_assoc .., by rw [List.map_append, List.map_append, hdecode, hdecode']⟩
  iv_eq := by
    rw [List.map_append, List.length_append, h.iv_eq, h'.iv_eq, Sequencer.vectors_add h.start_eq h.last_eq]
  start_eq := h'.start_eq.trans h.start_eq
  last_eq := by rw [h'.last_eq, h.last_eq, List.length_append, Nat.add_assoc]

/-- **A line takes one number if it asks for a request, while there is one**, and sends one frame under it. -/
theorem command_numbered (transport : List (List UInt8) → Except Error (List UInt8))
    (files : List (List UInt8) → FileTree) (sent : List (List UInt8))
    (hnamed : ∀ user, atm.session.user? = some user → Credential.isUserName user = true) (line : String)
    (typed : Option String) :
    let handled := atm.command (.recorded transport files) line typed sent
    ∃ frames, Numbered atm sent frames handled.atm handled.state ∧
      frames.length = min (if (atm.session.request? line).isSome then 1 else 0) atm.sequencer.left := by
  intro handled
  cases hrequest : atm.session.request? line with
  | none =>
    obtain ⟨hstate, -, hatm⟩ := command_of_no_request (.recorded transport files) typed sent hrequest
    rw [show handled.state = sent from hstate, show handled.atm = _ from hatm]
    exact ⟨[], numbered_nil rfl rfl, (Nat.zero_min _).symm⟩
  | some request =>
    have hasks : Asks atm.session line request := asks_iff.2 hrequest
    by_cases hlast : atm.sequencer.last < lastSequence
    · obtain ⟨datagram, x, hsend, hx⟩ := exists_send hlast (hasks.wellFormed hnamed)
      have hh : handled = _ := command_of_send (hasks.submit_eq.trans hsend)
      obtain ⟨hstate, -, hatm, -⟩ := finish_receive (.recorded transport files) typed (sent ++ [datagram]) hasks hx
        (transport (sent ++ [datagram]))
      rw [show handled.state = sent ++ [datagram] from hh ▸ hstate, show handled.atm = _ from hh ▸ hatm]
      refine ⟨[x.sealed], ?_, ?_⟩
      · exact {
          sends := ⟨[datagram], rfl, congrArg ([·]) (Frame.decode_of_encode hx.encodes)⟩
          iv_eq := congrArg ([·]) hx.iv_eq
          start_eq := hx.start_eq
          last_eq := hx.last_eq }
      · have hleft : 1 ≤ atm.sequencer.left := Nat.sub_pos_of_lt hlast
        exact (Nat.min_eq_left hleft).symm
    · obtain ⟨e, hdone⟩ := request_of_exhausted
        (Nat.le_antisymm atm.sequencer.last_le (Nat.not_lt.1 hlast)) request
      have hh : handled = _ := command_of_done (hasks.submit_eq.trans hdone)
      have hleft : atm.sequencer.left = 0 := Nat.sub_eq_zero_of_le (Nat.not_lt.1 hlast)
      rw [hh, hleft]
      exact ⟨[], numbered_nil rfl rfl, (Nat.min_zero _).symm⟩

/-- **The frames of a run carry the next numbers**, one for each request, until none is left. -/
theorem commands_numbered (transport : List (List UInt8) → Except Error (List UInt8))
    (files : List (List UInt8) → FileTree) (sent : List (List UInt8)) {atm : Atm}
    (hnamed : ∀ user, atm.session.user? = some user → Credential.isUserName user = true)
    (entries : List (String × Option String)) :
    let world := Surroundings.recorded transport files
    let run := commands world atm sent entries
    ∃ frames, Numbered atm sent frames run.1 run.2 ∧
      frames.length = min (requests world atm sent entries) atm.sequencer.left := by
  induction entries generalizing atm sent with
  | nil => exact ⟨[], numbered_nil rfl rfl, (Nat.zero_min _).symm⟩
  | cons entry later ih =>
    obtain ⟨line, typed⟩ := entry
    intro world run
    obtain ⟨frames, hfirst, hone⟩ := command_numbered transport files sent hnamed line typed
    obtain ⟨frames', hlater, hrest⟩ := ih _ (named_command world hnamed line typed sent)
    refine ⟨frames ++ frames', hfirst.append hlater, ?_⟩
    have hleft := hfirst.last_eq
    simp only [requests, List.length_append, hrest, hone, Sequencer.left, hleft, world]
    omega

/-- No sequence of commands logs in anybody whose name is not a user name. -/
theorem named_commands (world : Surroundings σ) {atm : Atm}
    (hnamed : ∀ user, atm.session.user? = some user → Credential.isUserName user = true) (s : σ)
    (entries : List (String × Option String)) :
    ∀ user, (commands world atm s entries).1.session.user? = some user → Credential.isUserName user = true := by
  induction entries generalizing atm s with
  | nil => exact hnamed
  | cons entry later ih => exact ih (named_command world hnamed entry.1 entry.2 s) _

/-- Nothing is sent when no number is left. -/
theorem commands_of_exhausted (transport : List (List UInt8) → Except Error (List UInt8))
    (files : List (List UInt8) → FileTree) (sent : List (List UInt8)) {atm : Atm}
    (hnamed : ∀ user, atm.session.user? = some user → Credential.isUserName user = true)
    (hlast : atm.sequencer.last = lastSequence) (entries : List (String × Option String)) :
    (commands (.recorded transport files) atm sent entries).2 = sent := by
  obtain ⟨frames, hnumbered, hlength⟩ := commands_numbered transport files sent hnamed entries
  have hleft : atm.sequencer.left = 0 := Nat.sub_eq_zero_of_le (Nat.le_of_eq hlast.symm)
  obtain rfl : frames = [] := List.length_eq_zero_iff.1 (by rw [hlength, hleft, Nat.min_zero])
  obtain ⟨datagrams, hsent, hdecode⟩ := hnumbered.sends
  rw [hsent, List.map_eq_nil_iff.1 hdecode, List.append_nil]

/-- **No vector is used twice, and no number wraps.**  Of any number of calls of a sequencer, the first ones are
answered, as many as there are numbers left, each with the next number in a vector of its own that begins with the
sequencer's four bytes. All later calls fail, and the last number stays that of the last vector issued.

Take any lines at an ATM, and any network and files. The datagrams that go out are frames under different vectors.
Their numbers are the next ones in order, one for each request that is asked for, and once no number is left
nothing goes out any more. -/
theorem numbers_never_repeat (sequencer : Sequencer) (keys : Keys) (cards : CardStore) (capacity ceiling : Nat)
    (transport : List (List UInt8) → Except Error (List UInt8)) (files : List (List UInt8) → FileTree)
    (entries : List (String × Option String)) :
    let room := lastSequence - sequencer.last
    (∀ n,
      let results := (sequencer.issues n).1
      let after := (sequencer.issues n).2
      results.length = n ∧
      (∀ k < min n room, ∃ iv, results[k]? = some (.ok iv) ∧ iv.toList.take 4 = sequencer.start.toList ∧
        ∀ frame : Frame, frame.iv = iv → frame.sequence = sequencer.last + (k + 1)) ∧
      (∀ k < n, room ≤ k → results[k]? = some (.error (.frame .sequenceExhausted))) ∧
      after.last = sequencer.last + min n room ∧
      (results.filterMap Except.toOption).Nodup) ∧
    let start : Atm := { keys, cards, sequencer,
                         session := { attempts := .withCapacity capacity, maxAttempts := ceiling } }
    let world := Surroundings.recorded transport files
    let atm := (commands world start [] entries).1
    let sent := (commands world start [] entries).2
    ∃ frames : List Frame, sent.map Frame.decode = frames.map .ok ∧
      frames.length = min (requests world start [] entries) room ∧
      frames.map Frame.sequence = List.range' (sequencer.last + 1) frames.length ∧
      (frames.map Frame.iv).Nodup ∧
      (∀ frame ∈ frames, frame.iv.toList.take 4 = sequencer.start.toList) ∧
      atm.sequencer.last = sequencer.last + frames.length ∧
      (atm.sequencer.last = lastSequence → ∀ later, (commands world start [] (entries ++ later)).2 = sent) := by
  intro room
  constructor
  · intro n results after
    refine ⟨sequencer.length_issues n, fun k hk => ⟨_, Sequencer.getElem?_issues_of_lt hk, ?_, fun frame hiv => ?_⟩,
      fun k hk hroom => Sequencer.getElem?_issues_of_le hk hroom, (sequencer.issues_eq n).2.2, ?_⟩
    · exact Sequencer.take_vector ..
    · exact Sequencer.sequence_of_iv hiv (by omega)
    · rw [show results.filterMap Except.toOption = _ from sequencer.filterMap_issues n]
      exact Sequencer.vectors_nodup (Nat.min_le_right ..)
  · intro start world atm sent
    have hnamed : ∀ user, start.session.user? = some user → Credential.isUserName user = true := by simp [start]
    obtain ⟨frames, hnumbered, hlength⟩ := commands_numbered transport files [] hnamed entries
    have hroom : frames.length ≤ sequencer.left := hlength ▸ Nat.min_le_right ..
    obtain ⟨datagrams, hsent, hdecode⟩ := hnumbered.sends
    refine ⟨frames, ?_, hlength, ?_, ?_, fun frame hframe => ?_, hnumbered.last_eq, fun hlast later => ?_⟩
    · rw [show sent = _ from hsent]
      exact hdecode
    · rw [← Sequencer.map_ofBigEndian_vectors hroom, ← hnumbered.iv_eq, List.map_map]
      rfl
    · rw [hnumbered.iv_eq]
      exact Sequencer.vectors_nodup hroom
    · exact Sequencer.take_of_mem_vectors (hnumbered.iv_eq ▸ List.mem_map_of_mem hframe)
    · rw [commands_append]
      exact commands_of_exhausted transport files sent (named_commands world hnamed [] entries) hlast later

/-- One number is left, for the first of two requests. -/
theorem numbers_never_repeat_last :
    let sequencer : Sequencer := { start := Bytes.zero 4, last := lastSequence - 1, last_le := by decide }
    let start : Atm := { keys := ⟨Bytes.zero 32, Bytes.zero 32⟩, cards := ⟨⟨"."⟩⟩, sequencer,
                         session := { attempts := .withCapacity 4, maxAttempts := 3 } }
    let world := Surroundings.recorded (fun _ => .error (.timeout 1)) fun _ => {}
    let entry := ("begin-session a", (none : Option String))
    (sequencer.issues 2).2.last = lastSequence ∧
      ∃ frame, (commands world start [] [entry]).2.map Frame.decode = [.ok frame] ∧ frame.sequence = lastSequence ∧
        (commands world start [] [entry, entry]).2 = (commands world start [] [entry]).2 := by
  intro sequencer start world entry
  obtain ⟨hissues, hrun⟩ := numbers_never_repeat sequencer ⟨Bytes.zero 32, Bytes.zero 32⟩ ⟨⟨"."⟩⟩ 4 3
    (fun _ => .error (.timeout 1)) (fun _ => {}) [entry]
  obtain ⟨frames, hsent, hlength, hsequence, -, -, hlast, hlater⟩ := hrun
  have hone : frames.length = 1 := hlength
  obtain ⟨frame, rfl⟩ := List.length_eq_one_iff.1 hone
  obtain ⟨-, -, -, hissued, -⟩ := hissues 2
  exact ⟨hissued, frame, hsent, (List.cons.inj hsequence).1, hlater hlast [entry]⟩

end Atm
end Cashpoint
