/-
# One call after another on a link

What a call leaves unread is still in the inbox when the next one is made, and more may have
arrived in between: replies to requests that were given up, second replies, datagrams of
others. A call discards all of it first. So what it returns arrived during its own attempts: it
is the first datagram of the peer among them (`roundTrip_answered`), and with none in any attempt
the call fails (`roundTrip_unanswered`).

Datagrams may be equal, so a datagram is known by its number among all that have ever arrived. The
inbox is read in order, and a call returns the last one that it has read. Its number lies behind
those of all that had arrived before the call, and so behind that of whatever an earlier call
returned (`calls_return_first`).
-/

import Cashpoint.Proofs.Network.Trip
import Mathlib.Data.List.Chain
import Mathlib.Data.Nat.Find

namespace Cashpoint
namespace Link

/-- Nothing of the peer is among these datagrams. -/
def Silent (peer : SocketAddress) (datagrams : List Datagram) : Prop :=
  ∀ datagram ∈ datagrams, datagram.source ≠ peer

instance (peer : SocketAddress) (datagrams : List Datagram) : Decidable (Silent peer datagrams) :=
  inferInstanceAs (Decidable (∀ datagram ∈ datagrams, datagram.source ≠ peer))

/-- The first datagram of the peer is found behind any number of strangers. -/
theorem firstFrom_split {peer : SocketAddress} {strangers rest : List Datagram} {datagram : Datagram}
    (hstrangers : Silent peer strangers) (hpeer : datagram.source = peer) :
    firstFrom peer (strangers ++ datagram :: rest) = some (datagram.payload, rest) := by
  rw [firstFrom_append_of_none (firstFrom_eq_none_iff.2 hstrangers), firstFrom, if_pos hpeer]

/-- Whatever arrives, it is silent or has a first datagram of the peer. -/
theorem silent_or_split (peer : SocketAddress) (datagrams : List Datagram) :
    Silent peer datagrams ∨ ∃ strangers datagram rest, datagrams = strangers ++ datagram :: rest ∧
      Silent peer strangers ∧ datagram.source = peer := by
  induction datagrams with
  | nil => exact .inl (by simp [Silent])
  | cons head tail ih =>
    by_cases hhead : head.source = peer
    · exact .inr ⟨[], head, tail, rfl, by simp [Silent], hhead⟩
    · rcases ih with hsilent | ⟨strangers, datagram, rest, rfl, hstrangers, hpeer⟩
      · exact .inl (List.forall_mem_cons.2 ⟨hhead, hsilent⟩)
      · exact .inr ⟨head :: strangers, datagram, rest, rfl, List.forall_mem_cons.2 ⟨hhead, hstrangers⟩, hpeer⟩

/-! ## The attempts of one call -/

/-- A network that takes every datagram, and brings something in each attempt to send one. -/
structure Script where
  /-- What arrives in each attempt, from number 0 on. -/
  arrivals : Nat → List Datagram
  /-- What has been sent so far, oldest first. -/
  sent : List (List UInt8) := []

namespace Script

/-- The script of a network goes on by one attempt. -/
def transmit : Transmit Script := fun s request =>
  (.ok (s.arrivals s.sent.length), { s with sent := s.sent ++ [request] })

/-- All that has arrived so far, oldest first. -/
def heard (s : Script) : List Datagram := (List.range s.sent.length).flatMap s.arrivals

end Script

variable {link : Link} {arrivals : Nat → List Datagram}

/-- Attempts in which nothing of the peer arrives come to nothing. -/
theorem attempt_of_silent (request : List UInt8) (htimeout : 0 < link.timeout) {s : Script} {k : Nat}
    (hsilent : ∀ j < k, Silent link.peer (s.arrivals (s.sent.length + j))) (left : Nat) :
    attempt Script.transmit request (k + left) link.drain s =
      attempt Script.transmit request left link.drain { s with sent := s.sent ++ .replicate k request } := by
  induction k generalizing s with
  | zero => simp
  | succ k ih =>
    have hnone : firstFrom link.drain.peer (link.drain.inbox ++ s.arrivals s.sent.length) = none :=
      firstFrom_eq_none_iff.2 (hsilent 0 k.succ_pos)
    rw [Nat.succ_add, attempt_succ (show 0 < link.drain.timeout from htimeout) rfl, hnone]
    have hlater : ∀ j < k, Silent link.peer (s.arrivals ((s.sent ++ [request]).length + j)) := by
      intro j hj
      rw [List.length_append, List.length_singleton, Nat.add_assoc, Nat.add_comm 1 j]
      exact hsilent (j + 1) (Nat.succ_lt_succ hj)
    -- the inbox is empty again after an attempt in vain, so the other attempts start as this one did
    rw [List.replicate_succ, List.append_cons s.sent request (.replicate k request)]
    exact ih (s := { s with sent := s.sent ++ [request] }) hlater

/-- **The first attempt with a datagram of the peer is the last**, and returns that datagram. -/
theorem roundTrip_answered (request : List UInt8) (htimeout : 0 < link.timeout) {k : Nat} (hk : k < link.attempts)
    (hsilent : ∀ j < k, Silent link.peer (arrivals j)) {strangers rest : List Datagram} {datagram : Datagram}
    (hsplit : arrivals k = strangers ++ datagram :: rest) (hstrangers : Silent link.peer strangers)
    (hpeer : datagram.source = link.peer) :
    link.roundTrip Script.transmit { arrivals } request =
      (.ok datagram.payload, { link with inbox := rest }, { arrivals, sent := .replicate (k + 1) request }) := by
  obtain ⟨left, hattempts⟩ : ∃ left, link.attempts = k + (left + 1) := Nat.exists_eq_add_of_lt hk
  have hfirst : firstFrom link.drain.peer (link.drain.inbox ++ arrivals (List.replicate k request).length) =
      some (datagram.payload, rest) := by
    rw [List.length_replicate, hsplit]
    exact firstFrom_split hstrangers hpeer
  rw [roundTrip, hattempts, attempt_of_silent request htimeout (by simpa using hsilent), List.nil_append,
    attempt_succ (show 0 < link.drain.timeout from htimeout) rfl, hfirst, List.replicate_succ']
  rfl

/-- **With no attempt left, and nothing of the peer, the call fails.** -/
theorem roundTrip_unanswered (request : List UInt8) (htimeout : 0 < link.timeout)
    (hsilent : ∀ j < link.attempts, Silent link.peer (arrivals j)) :
    link.roundTrip Script.transmit { arrivals } request =
      (.error (.timeout link.attempts), link.drain, { arrivals, sent := .replicate link.attempts request }) := by
  rw [roundTrip]
  refine (attempt_of_silent request htimeout (k := link.attempts) ?_ 0).trans rfl
  intro j hj
  simpa using hsilent j hj

/-- One attempt is the first in which something of the peer arrives, or there is none. -/
theorem silent_or_first (peer : SocketAddress) (arrivals : Nat → List Datagram) (attempts : Nat) :
    (∀ j < attempts, Silent peer (arrivals j)) ∨
      ∃ k < attempts, (∀ j < k, Silent peer (arrivals j)) ∧ ∃ strangers datagram rest,
        arrivals k = strangers ++ datagram :: rest ∧ Silent peer strangers ∧ datagram.source = peer := by
  by_cases hheard : ∃ k, k < attempts ∧ ¬Silent peer (arrivals k)
  · obtain ⟨hk, hnot⟩ := Nat.find_spec hheard
    refine .inr ⟨Nat.find hheard, hk, ?_, (silent_or_split peer _).resolve_left hnot⟩
    intro j hj
    by_contra hsilent
    exact Nat.find_min hheard hj ⟨Nat.lt_trans hj hk, hsilent⟩
  · refine .inl fun j hj => ?_
    by_contra hsilent
    exact hheard ⟨j, hj, hsilent⟩

/-! ## One call -/

/-- A request on the link, and what arrives around it. -/
structure Call where
  request : List UInt8
  /-- What arrives between the previous call and this one. -/
  queued : List Datagram
  /-- What arrives in each attempt, from number 0 on. -/
  arrivals : Nat → List Datagram

/-- How a call went. Datagrams are listed oldest first. -/
structure Trip where
  call : Call
  /-- All that had ever arrived when the call was made. -/
  before : List Datagram
  /-- What of it lay in the inbox. -/
  inbox : List Datagram
  result : Except Error (List UInt8)
  sent : List (List UInt8)
  /-- All that had ever arrived when the call was over. -/
  arrived : List Datagram
  /-- The link as the call left it. -/
  after : Link

/-- Makes a call, given all that has ever arrived so far. -/
def trip (link : Link) (arrived : List Datagram) (call : Call) : Trip :=
  let inbox := link.inbox ++ call.queued
  let before := arrived ++ call.queued
  let (result, after, s) :=
    { link with inbox }.roundTrip Script.transmit { arrivals := call.arrivals } call.request
  { call, before, inbox, result, sent := s.sent, arrived := before ++ s.heard, after }

namespace Trip

/-- The number, among all that have ever arrived, of the last datagram that was read. -/
def number (t : Trip) : Nat := t.arrived.length - t.after.inbox.length - 1

/-- A payload is that of the last datagram that was read, one of the peer. It is none of those that had arrived when
the call was made, and those behind it are still in the inbox. -/
structure Fresh (peer : SocketAddress) (payload : List UInt8) (t : Trip) : Prop where
  late : t.before.length ≤ t.number
  read : t.arrived[t.number]? = some { source := peer, payload }
  unread : t.after.inbox = t.arrived.drop (t.number + 1)

/-- What was read last has arrived. -/
theorem Fresh.number_lt {peer : SocketAddress} {payload : List UInt8} {t : Trip} (h : t.Fresh peer payload) :
    t.number < t.arrived.length :=
  (List.getElem?_eq_some_iff.1 h.read).1

/-- What a call comes to, on a link to a peer that makes so many attempts. -/
structure Meets (peer : SocketAddress) (attempts : Nat) (t : Trip) : Prop where
  /-- What lay in the inbox had arrived before. -/
  queued : t.inbox <:+ t.before
  /-- The first datagram of the peer is returned, in the first attempt that has one. -/
  answered : ∀ k < attempts, (∀ j < k, Silent peer (t.call.arrivals j)) →
    ∀ strangers datagram rest, t.call.arrivals k = strangers ++ datagram :: rest →
      Silent peer strangers → datagram.source = peer →
        t.result = .ok datagram.payload ∧ t.sent = .replicate (k + 1) t.call.request
  /-- With none in any attempt, the call fails. -/
  unanswered : (∀ j < attempts, Silent peer (t.call.arrivals j)) →
    t.result = .error (.timeout attempts) ∧ t.sent = .replicate attempts t.call.request
  /-- Nothing is returned that had arrived before the call. -/
  fresh : ∀ payload, t.result = .ok payload → t.Fresh peer payload

/-- A payload of the peer is fresh if what was read ends with it and what had arrived before the call is in front. -/
theorem fresh_of_split {t : Trip} {peer : SocketAddress} (passed : List Datagram) {datagram : Datagram}
    (harrived : t.arrived = t.before ++ passed ++ datagram :: t.after.inbox) (hpeer : datagram.source = peer) :
    t.Fresh peer datagram.payload := by
  have hnumber : t.number = (t.before ++ passed).length := by
    simp only [number, harrived, List.length_append, List.length_cons]
    omega
  refine ⟨?_, ?_, ?_⟩
  · rw [hnumber, List.length_append]
    exact Nat.le_add_right _ _
  · rw [hnumber, harrived, List.getElem?_append_right (Nat.le_refl _), Nat.sub_self, ← hpeer]
    rfl
  · rw [hnumber, harrived, List.drop_length_add_append]
    rfl

end Trip

variable {arrived : List Datagram} {call : Call}

/-- A call that is answered in an attempt: what it returns, sends and leaves in the inbox. -/
theorem trip_of_answered (arrived : List Datagram) (htimeout : 0 < link.timeout) {k : Nat} (hk : k < link.attempts)
    (hsilent : ∀ j < k, Silent link.peer (call.arrivals j)) {strangers rest : List Datagram} {datagram : Datagram}
    (hsplit : call.arrivals k = strangers ++ datagram :: rest) (hstrangers : Silent link.peer strangers)
    (hpeer : datagram.source = link.peer) :
    link.trip arrived call =
      { call
        before := arrived ++ call.queued
        inbox := link.inbox ++ call.queued
        result := .ok datagram.payload
        sent := .replicate (k + 1) call.request
        arrived :=
          arrived ++ call.queued ++ ((List.range k).flatMap call.arrivals ++ (strangers ++ datagram :: rest))
        after := { link with inbox := rest } } := by
  have hwaits : 0 < ({ link with inbox := link.inbox ++ call.queued } : Link).timeout := htimeout
  have htrip := roundTrip_answered call.request hwaits hk hsilent hsplit hstrangers hpeer
  simp only [trip, htrip, Script.heard, List.length_replicate, List.range_succ, List.flatMap_append,
    List.flatMap_singleton, hsplit]

/-- A call that is not answered: it sends in every attempt, and leaves nothing in the inbox. -/
theorem trip_of_unanswered (arrived : List Datagram) (htimeout : 0 < link.timeout)
    (hsilent : ∀ j < link.attempts, Silent link.peer (call.arrivals j)) :
    link.trip arrived call =
      { call
        before := arrived ++ call.queued
        inbox := link.inbox ++ call.queued
        result := .error (.timeout link.attempts)
        sent := .replicate link.attempts call.request
        arrived := arrived ++ call.queued ++ (List.range link.attempts).flatMap call.arrivals
        after := link.drain } := by
  have hwaits : 0 < ({ link with inbox := link.inbox ++ call.queued } : Link).timeout := htimeout
  have hattempts : ({ link with inbox := link.inbox ++ call.queued } : Link).attempts = link.attempts := rfl
  have htrip := roundTrip_unanswered call.request hwaits hsilent
  simp only [trip, htrip, hattempts, Script.heard, List.length_replicate, drain]

/-- **What a call returns is the last datagram that it has read**, and arrived after the call was made. -/
theorem trip_fresh (htimeout : 0 < link.timeout) {payload : List UInt8}
    (hresult : (link.trip arrived call).result = .ok payload) :
    (link.trip arrived call).Fresh link.peer payload := by
  rcases silent_or_first link.peer call.arrivals link.attempts with
    hsilent | ⟨k, hk, hsilent, strangers, datagram, rest, hsplit, hstrangers, hpeer⟩
  · rw [trip_of_unanswered _ htimeout hsilent] at hresult
    contradiction
  · rw [trip_of_answered _ htimeout hk hsilent hsplit hstrangers hpeer] at hresult ⊢
    obtain rfl : datagram.payload = payload := Except.ok.inj hresult
    refine Trip.fresh_of_split ((List.range k).flatMap call.arrivals ++ strangers) ?_ hpeer
    simp only [List.append_assoc]

/-- **What one call comes to**, when the inbox holds the latest of what has arrived. -/
theorem trip_meets (htimeout : 0 < link.timeout) (hinbox : link.inbox <:+ arrived) :
    (link.trip arrived call).Meets link.peer link.attempts where
  queued := by
    obtain ⟨front, rfl⟩ := hinbox
    exact ⟨front, (List.append_assoc ..).symm⟩
  answered k hk hsilent strangers datagram rest hsplit hstrangers hpeer :=
    have h := trip_of_answered arrived htimeout hk hsilent hsplit hstrangers hpeer
    ⟨congrArg Trip.result h, congrArg Trip.sent h⟩
  unanswered hsilent :=
    have h := trip_of_unanswered arrived htimeout hsilent
    ⟨congrArg Trip.result h, congrArg Trip.sent h⟩
  fresh _ hresult := trip_fresh htimeout hresult

/-- A call leaves the link as it was, but for the inbox, and there it leaves the latest of what has arrived. -/
theorem trip_keeps (htimeout : 0 < link.timeout) (arrived : List Datagram) (call : Call) :
    ∃ inbox, (link.trip arrived call).after = { link with inbox } ∧
      inbox <:+ (link.trip arrived call).arrived := by
  rcases silent_or_first link.peer call.arrivals link.attempts with
    hsilent | ⟨k, hk, hsilent, strangers, datagram, rest, hsplit, hstrangers, hpeer⟩
  · rw [trip_of_unanswered _ htimeout hsilent]
    exact ⟨[], rfl, List.nil_suffix⟩
  · rw [trip_of_answered _ htimeout hk hsilent hsplit hstrangers hpeer]
    refine ⟨rest, rfl, ?_⟩
    refine List.suffix_append_of_suffix (List.suffix_append_of_suffix (List.suffix_append_of_suffix ?_))
    exact List.suffix_cons datagram rest

/-! ## One call after another -/

/-- Makes calls one after another, given all that has ever arrived so far. -/
def trips (link : Link) (arrived : List Datagram) : List Call → List Trip
  | [] => []
  | call :: later =>
    let t := link.trip arrived call
    t :: trips t.after t.arrived later

/-- Whatever had arrived before all calls had arrived before each of them. -/
theorem trips_before (link : Link) (arrived : List Datagram) (calls : List Call) :
    ∀ t ∈ link.trips arrived calls, arrived <+: t.before := by
  induction calls generalizing link arrived with
  | nil => simp [trips]
  | cons call later ih =>
    refine List.forall_mem_cons.2 ⟨List.prefix_append .., fun t ht => ?_⟩
    have hlater := ih _ _ t ht
    exact ((List.prefix_append ..).trans (List.prefix_append ..)).trans hlater

/-- Whatever had arrived when a call was over had arrived before each later one. -/
theorem trips_ordered (link : Link) (arrived : List Datagram) (calls : List Call) :
    (link.trips arrived calls).Pairwise fun t t' => t.arrived <+: t'.before := by
  induction calls generalizing link arrived with
  | nil => exact .nil
  | cons call later ih => exact .cons (trips_before _ _ later) (ih _ _)

/-- Every call does what a call has to do. -/
theorem trips_meet {link : Link} (htimeout : 0 < link.timeout) {arrived : List Datagram}
    (hinbox : link.inbox <:+ arrived) (calls : List Call) :
    ∀ t ∈ link.trips arrived calls, t.Meets link.peer link.attempts := by
  induction calls generalizing link arrived with
  | nil => simp [trips]
  | cons call later ih =>
    refine List.forall_mem_cons.2 ⟨trip_meets htimeout hinbox, ?_⟩
    obtain ⟨inbox, hafter, hlatest⟩ := trip_keeps htimeout arrived call
    rw [hafter]
    exact ih (show 0 < ({ link with inbox } : Link).timeout from htimeout) hlatest

/-- A call finds in the inbox what the one before it left there, and what has arrived since. -/
theorem trips_linked (link : Link) (arrived : List Datagram) (calls : List Call) :
    (link.trips arrived calls).IsChain fun t t' => t'.inbox = t.after.inbox ++ t'.call.queued := by
  induction calls generalizing link arrived with
  | nil => exact .nil
  | cons call later ih =>
    cases later with
    | nil => exact .singleton _
    | cons next rest => exact .cons_cons rfl (ih _ _)

/-- There is one trip for each call, in the same order. -/
theorem map_call_trips (link : Link) (arrived : List Datagram) (calls : List Call) :
    (link.trips arrived calls).map Trip.call = calls := by
  induction calls generalizing link arrived with
  | nil => rfl
  | cons call later ih => exact congrArg (call :: ·) (ih _ _)

/-- **Calls return what arrives first of the peer in their own attempts**, and nothing else.  Take any link that
waits at all, with anything in its inbox, and any calls on it, before and during which anything arrives.

A call sends its request in each attempt, up to the first in which a datagram of the peer arrives, and returns the
payload of the first such datagram. If there is none up to the last attempt, the call fails. Below the limit there is
one more attempt than retries. Nothing that lay in the inbox when a call was made is returned by it, whether the call
before left it there or it came since. The number of what a call returns, among all that have ever arrived, is above
that of what an earlier call returned. So no datagram is returned twice, even if it is equal to another one. -/
theorem calls_return_first (link : Link) (htimeout : 0 < link.timeout) (calls : List Call) :
    let trips := link.trips link.inbox calls
    (link.maxRetries < retryLimit → link.attempts = link.maxRetries + 1) ∧
    trips.map Trip.call = calls ∧
    (trips.IsChain fun t t' => t'.inbox = t.after.inbox ++ t'.call.queued) ∧
    (∀ t ∈ trips, t.Meets link.peer link.attempts) ∧
    trips.Pairwise fun t t' => t.arrived <+: t'.before ∧
      ∀ payload payload', t.result = .ok payload → t'.result = .ok payload' → t.number < t'.number := by
  intro trips
  have hmeet := trips_meet htimeout (List.suffix_refl _) calls
  refine ⟨attempts_eq, map_call_trips .., trips_linked .., hmeet, ?_⟩
  refine (trips_ordered link link.inbox calls).imp_of_mem fun {t t'} ht ht' hordered => ⟨hordered, ?_⟩
  intro payload payload' hresult hresult'
  calc t.number < t.arrived.length := ((hmeet t ht).fresh payload hresult).number_lt
    _ ≤ t'.before.length := hordered.length_le
    _ ≤ t'.number := ((hmeet t' ht').fresh payload' hresult').late

/-- A reply comes twice in the second attempt of one call, after a datagram of somebody else. The next call gets an
equal one, but not the one left over, and the third call gets nothing. -/
theorem calls_return_first_leftover :
    let link : Link := { peer := .v4 #v[127, 0, 0, 1] 9, timeout := 5, maxRetries := 1 }
    let stranger : Datagram := { source := .v4 #v[127, 0, 0, 1] 8, payload := [7] }
    let reply : Datagram := { source := link.peer, payload := [5] }
    let calls : List Call :=
      [{ request := [1], queued := [], arrivals := fun | 0 => [] | _ => [stranger, reply, reply] },
        { request := [2], queued := [stranger], arrivals := fun _ => [reply] },
        { request := [3], queued := [reply], arrivals := fun _ => [stranger] }]
    ∃ first second third, link.trips link.inbox calls = [first, second, third] ∧
      first.result = .ok [5] ∧ first.sent = [[1], [1]] ∧ first.after.inbox = [reply] ∧
      second.result = .ok [5] ∧ second.sent = [[2]] ∧ first.number < second.number ∧
      third.result = .error (.timeout 2) ∧ third.sent = [[3], [3]] := by
  intro link stranger reply calls
  obtain ⟨-, hcalls, -, hmeet, hordered⟩ := calls_return_first link (by decide) calls
  obtain ⟨first, second, third, htrips, hleft⟩ : ∃ first second third,
      link.trips link.inbox calls = [first, second, third] ∧ first.after.inbox = [reply] :=
    ⟨_, _, _, rfl, rfl⟩
  rw [htrips] at hcalls hmeet hordered
  simp only [calls, List.map_cons, List.map_nil, List.cons.injEq, and_true] at hcalls
  obtain ⟨hfirst, hsecond, hthird⟩ := hcalls
  have hresult := (hmeet first (by simp)).answered 1 (by decide) (by rw [hfirst]; decide) [stranger] reply [reply]
    (by rw [hfirst]; rfl) (by decide) rfl
  have hresult' := (hmeet second (by simp)).answered 0 (by decide) (by rw [hsecond]; decide) [] reply []
    (by rw [hsecond]; rfl) (by decide) rfl
  have hresult'' := (hmeet third (by simp)).unanswered (by rw [hthird]; decide)
  have hlater := (List.pairwise_cons.1 hordered).1 second (by simp)
  rw [hfirst] at hresult
  rw [hsecond] at hresult'
  rw [hthird] at hresult''
  exact ⟨first, second, third, htrips, hresult.1, hresult.2, hleft, hresult'.1, hresult'.2,
    hlater.2 _ _ hresult.1 hresult'.1, hresult''⟩

end Link
end Cashpoint
