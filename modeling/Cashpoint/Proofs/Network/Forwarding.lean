/-
# What a relay forwards

Nothing but the traffic of its two parties passes a relay, and this passes it as it came:
what was received from one is what was sent to the other, byte for byte and in order
(`forwards_exactly`). Datagrams may arrive at any time between calls, and a call that finds
the inbox empty does nothing.

A relay at work has one buffer for all that it receives (`Loop`). A datagram overwrites the
front of it and leaves the end of an earlier, longer one behind. What is sent on is the part
that was just written, so nothing of the earlier one leaks, and all of the datagram is sent
if it fits (`take_fill`).
-/

import Cashpoint.Network.Relay

namespace Cashpoint
namespace Relay

variable {relay : Relay} {source : SocketAddress}

/-- The payloads that came from an address. -/
def payloadsFrom (source : SocketAddress) (datagrams : List Datagram) : List (List UInt8) :=
  (datagrams.filter fun datagram => datagram.source = source).map fun datagram => datagram.payload

/-- The payloads that were sent to an address. -/
def payloadsTo (destination : SocketAddress) (dispatches : List Dispatch) : List (List UInt8) :=
  (dispatches.filter fun dispatch => dispatch.destination = destination).map fun dispatch => dispatch.payload

/-! ## The way of one datagram -/

/-- A datagram of the ATM goes to the Bank. -/
theorem forward_of_atm {datagram : Datagram} (h : datagram.source = relay.atm) :
    relay.forward datagram = some ⟨relay.bank, datagram.payload⟩ := by
  simp [forward, route, h]

/-- A datagram of the Bank goes to the ATM. -/
theorem forward_of_bank (hne : relay.atm ≠ relay.bank) {datagram : Datagram} (h : datagram.source = relay.bank) :
    relay.forward datagram = some ⟨relay.atm, datagram.payload⟩ := by
  simp [forward, route, h, hne.symm]

/-- A datagram of anybody else goes nowhere. -/
theorem forward_of_stranger {datagram : Datagram} (hatm : datagram.source ≠ relay.atm)
    (hbank : datagram.source ≠ relay.bank) : relay.forward datagram = none := by
  simp [forward, route, hatm, hbank]

/-- A call takes the oldest datagram and no other. -/
theorem forwardOne_tail (relay : Relay) (inbox : List Datagram) : (relay.forwardOne inbox).2 = inbox.tail := by
  cases inbox <;> rfl

/-- One datagram after another is forwarded. -/
theorem run_cons (relay : Relay) (datagram : Datagram) (rest : List Datagram) :
    relay.run (datagram :: rest) = (relay.forward datagram).toList ++ relay.run rest := by
  unfold run
  rw [List.filterMap_cons]
  cases relay.forward datagram <;> rfl

/-- **What goes to the Bank** is what came from the ATM. -/
theorem payloadsTo_bank_run (hne : relay.atm ≠ relay.bank) (datagrams : List Datagram) :
    payloadsTo relay.bank (relay.run datagrams) = payloadsFrom relay.atm datagrams := by
  induction datagrams with
  | nil => rfl
  | cons datagram rest ih =>
    unfold payloadsTo payloadsFrom at ih ⊢
    rw [run_cons]
    by_cases hatm : datagram.source = relay.atm
    · simp [forward_of_atm hatm, hatm, ih]
    · by_cases hbank : datagram.source = relay.bank
      · simp [forward_of_bank hne hbank, hbank, hne, hne.symm, ih]
      · simp [forward_of_stranger hatm hbank, hatm, ih]

/-- **What goes to the ATM** is what came from the Bank. -/
theorem payloadsTo_atm_run (hne : relay.atm ≠ relay.bank) (datagrams : List Datagram) :
    payloadsTo relay.atm (relay.run datagrams) = payloadsFrom relay.bank datagrams := by
  induction datagrams with
  | nil => rfl
  | cons datagram rest ih =>
    unfold payloadsTo payloadsFrom at ih ⊢
    rw [run_cons]
    by_cases hatm : datagram.source = relay.atm
    · simp [forward_of_atm hatm, hatm, hne, hne.symm, ih]
    · by_cases hbank : datagram.source = relay.bank
      · simp [forward_of_bank hne hbank, hbank, ih]
      · simp [forward_of_stranger hatm hbank, hbank, ih]

/-- Nothing goes anywhere else. -/
theorem destination_of_mem_run {datagrams : List Datagram} {dispatch : Dispatch}
    (h : dispatch ∈ relay.run datagrams) : dispatch.destination = relay.atm ∨ dispatch.destination = relay.bank := by
  obtain ⟨datagram, -, hforward⟩ := List.mem_filterMap.1 h
  unfold forward route at hforward
  split at hforward
  · exact .inr (by simpa using congrArg (Option.map Dispatch.destination) hforward.symm)
  · split at hforward
    · exact .inl (by simpa using congrArg (Option.map Dispatch.destination) hforward.symm)
    · simp at hforward

/-! ## Arrivals and calls -/

/-- What happens at a relay: something arrives, or it is called. -/
inductive Event
  | arrival (datagram : Datagram)
  | call

/-- What arrives. -/
def arrivals (events : List Event) : List Datagram :=
  events.filterMap fun event =>
    match event with
    | .arrival datagram => some datagram
    | .call => none

/-- What the calls find in the inbox, each the oldest datagram that is left. -/
def received : List Event → List Datagram → List Datagram
  | [], _ => []
  | .arrival datagram :: events, inbox => received events (inbox ++ [datagram])
  | .call :: events, [] => received events []
  | .call :: events, datagram :: rest => datagram :: received events rest

/-- What the calls send, one answer for each, and what is left in the inbox. -/
def serve (relay : Relay) : List Event → List Datagram → List (Option Dispatch) × List Datagram
  | [], inbox => ([], inbox)
  | .arrival datagram :: events, inbox => relay.serve events (inbox ++ [datagram])
  | .call :: events, inbox =>
    let (sent, rest) := relay.forwardOne inbox
    let (more, left) := relay.serve events rest
    (sent :: more, left)

/-- **What the calls send on** is what they receive, and the rest is left. -/
theorem serve_eq (relay : Relay) (events : List Event) (inbox : List Datagram) :
    (relay.serve events inbox).1.filterMap id = relay.run (received events inbox) ∧
      received events inbox ++ (relay.serve events inbox).2 = inbox ++ arrivals events := by
  induction events generalizing inbox with
  | nil => exact ⟨rfl, by simp [received, serve, arrivals]⟩
  | cons event events ih =>
    cases event with
    | arrival datagram => simpa [serve, received, arrivals] using ih (inbox ++ [datagram])
    | call =>
      cases inbox with
      | nil => simpa [serve, received, arrivals, forwardOne] using ih []
      | cons datagram rest =>
        obtain ⟨hsent, hleft⟩ := ih rest
        constructor
        · rw [received, run_cons, ← hsent]
          simp only [serve, forwardOne]
          cases relay.forward datagram <;> simp
        · simpa [serve, received, arrivals, forwardOne] using hleft

/-- Calls receive all that is there, if there are enough of them. -/
theorem received_calls {inbox : List Datagram} {n : Nat} (h : inbox.length ≤ n) :
    received (List.replicate n .call) inbox = inbox := by
  induction n generalizing inbox with
  | zero => rw [List.length_eq_zero_iff.1 (Nat.le_zero.1 h)]; rfl
  | succ n ih =>
    rw [List.replicate_succ]
    cases inbox with
    | nil => exact ih (Nat.zero_le n)
    | cons datagram rest => rw [received, ih (Nat.le_of_succ_le_succ h)]

/-! ## One buffer for all datagrams -/

/-- A buffer after the reception of a payload. What does not fit is lost. -/
def fill (buffer payload : List UInt8) : List UInt8 := payload.take buffer.length ++ buffer.drop payload.length

/-- A relay at work: the buffer that it receives into, and what it has not received yet. -/
structure Loop where
  buffer : List UInt8
  inbox : List Datagram

/-- What a call does: it may send, and it reports a destination. -/
structure Report where
  destination : Option SocketAddress := none
  sent : Option Dispatch := none
  deriving DecidableEq

/-- One call: the oldest datagram is received into the buffer, and as many bytes as were received are sent on. -/
def Loop.call (relay : Relay) (loop : Loop) : Report × Loop :=
  match loop.inbox with
  | [] => ({}, loop)
  | datagram :: rest =>
    let buffer := fill loop.buffer datagram.payload
    let size := min datagram.payload.length loop.buffer.length
    match relay.route datagram.source with
    | some destination =>
      ({ destination := some destination, sent := some ⟨destination, buffer.take size⟩ }, ⟨buffer, rest⟩)
    | none => ({}, ⟨buffer, rest⟩)

/-- The reports of all calls. -/
def Loop.play (relay : Relay) : List Event → Loop → List Report × Loop
  | [], loop => ([], loop)
  | .arrival datagram :: events, loop => play relay events { loop with inbox := loop.inbox ++ [datagram] }
  | .call :: events, loop =>
    let (report, next) := loop.call relay
    let (more, left) := play relay events next
    (report :: more, left)

/-- A filled buffer keeps its length. -/
theorem length_fill (buffer payload : List UInt8) : (fill buffer payload).length = buffer.length := by
  simp [fill]
  omega

/-- **The part of the buffer that was just written** is the payload, whatever the buffer held before. -/
theorem take_fill {buffer payload : List UInt8} (hfits : payload.length ≤ buffer.length) :
    (fill buffer payload).take (min payload.length buffer.length) = payload := by
  rw [Nat.min_eq_left hfits, fill, List.take_of_length_le hfits, List.take_left]

/-- A call that sends reports the destination, and no other call reports one. -/
def Report.of (sent : Option Dispatch) : Report where
  destination := sent.map fun dispatch => dispatch.destination
  sent := sent

/-- **A call through the buffer** does what it would do without one. -/
theorem Loop.call_eq (relay : Relay) (loop : Loop)
    (hfits : ∀ datagram ∈ loop.inbox, datagram.payload.length ≤ loop.buffer.length) :
    (loop.call relay).1 = .of (relay.forwardOne loop.inbox).1 ∧
      (loop.call relay).2.inbox = (relay.forwardOne loop.inbox).2 ∧
      (loop.call relay).2.buffer.length = loop.buffer.length := by
  obtain ⟨buffer, inbox⟩ := loop
  cases inbox with
  | nil => exact ⟨rfl, rfl, rfl⟩
  | cons datagram rest =>
    have hwritten := take_fill (hfits datagram List.mem_cons_self)
    simp only [call, forwardOne, forward]
    cases relay.route datagram.source with
    | none => exact ⟨rfl, rfl, length_fill buffer datagram.payload⟩
    | some destination =>
      refine ⟨?_, rfl, length_fill buffer datagram.payload⟩
      simp [Report.of, hwritten]

/-- **Calls through one buffer** do what they would do without one. -/
theorem Loop.play_eq (relay : Relay) (events : List Event) (loop : Loop)
    (hfits : ∀ datagram ∈ loop.inbox ++ arrivals events, datagram.payload.length ≤ loop.buffer.length) :
    (loop.play relay events).1 = (relay.serve events loop.inbox).1.map .of ∧
      (loop.play relay events).2.inbox = (relay.serve events loop.inbox).2 := by
  induction events generalizing loop with
  | nil => exact ⟨rfl, rfl⟩
  | cons event events ih =>
    cases event with
    | arrival datagram =>
      exact ih ⟨loop.buffer, loop.inbox ++ [datagram]⟩ fun d hd => hfits d (by simpa [arrivals] using hd)
    | call =>
      obtain ⟨hreport, hinbox, hlength⟩ :=
        Loop.call_eq relay loop fun d hd => hfits d (List.mem_append_left _ hd)
      have hrest : ∀ d ∈ (relay.forwardOne loop.inbox).2, d ∈ loop.inbox := by
        rw [forwardOne_tail]
        exact fun d => List.mem_of_mem_tail
      obtain ⟨hmore, hleft⟩ := ih (loop.call relay).2 fun d hd => by
        rw [hlength]
        rw [hinbox, List.mem_append] at hd
        exact hfits d (List.mem_append.2 (hd.imp (hrest d) (by simp [arrivals])))
      rw [hinbox] at hmore hleft
      exact ⟨by simp only [play, serve, hreport, hmore, List.map_cons], hleft⟩

/-! ## All of it -/

/-- **A relay forwards exactly the two parties' traffic**, unmodified and in order. Of what its calls receive, the
payloads from the ATM are those sent to the Bank and the other way round, and nothing is sent anywhere else. A call
takes at most one datagram from the inbox, and what the calls received and what is left is all that arrived, in order.
With calls enough, nothing is left, and all has become of it that `run` says. With one buffer for all datagrams, into
which each of them fits, every call sends the same, and reports the destination just if it sends. -/
theorem forwards_exactly (relay : Relay) (hne : relay.atm ≠ relay.bank) (events : List Event) (inbox : List Datagram) :
    (payloadsTo relay.bank ((relay.serve events inbox).1.filterMap id) =
        payloadsFrom relay.atm (received events inbox) ∧
      payloadsTo relay.atm ((relay.serve events inbox).1.filterMap id) =
        payloadsFrom relay.bank (received events inbox) ∧
      ∀ dispatch ∈ (relay.serve events inbox).1.filterMap id,
        dispatch.destination = relay.atm ∨ dispatch.destination = relay.bank) ∧
    (∀ inbox, (relay.forwardOne inbox).2 = inbox.tail) ∧
    received events inbox ++ (relay.serve events inbox).2 = inbox ++ arrivals events ∧
    (∀ n, inbox.length ≤ n → (relay.serve (List.replicate n .call) inbox).1.filterMap id = relay.run inbox ∧
      (relay.serve (List.replicate n .call) inbox).2 = []) ∧
    ∀ buffer : List UInt8,
      (∀ datagram ∈ inbox ++ arrivals events, datagram.payload.length ≤ buffer.length) →
        (Loop.play relay events ⟨buffer, inbox⟩).1 = (relay.serve events inbox).1.map .of ∧
          (Loop.play relay events ⟨buffer, inbox⟩).2.inbox = (relay.serve events inbox).2 := by
  obtain ⟨hsent, hleft⟩ := relay.serve_eq events inbox
  rw [hsent]
  refine ⟨⟨payloadsTo_bank_run hne _, payloadsTo_atm_run hne _, fun _ => destination_of_mem_run⟩,
    forwardOne_tail relay, hleft, fun n hn => ?_, fun buffer hfits => Loop.play_eq relay events ⟨buffer, inbox⟩ hfits⟩
  obtain ⟨hall, hnone⟩ := relay.serve_eq (List.replicate n .call) inbox
  rw [received_calls hn] at hall hnone
  have harrivals : arrivals (List.replicate n .call) = [] := by simp [arrivals]
  rw [harrivals, List.append_right_inj] at hnone
  exact ⟨hall, hnone⟩

/-- A long datagram of the ATM, an empty one of the Bank, one of a stranger and a short one of the ATM, with a call in
between that finds nothing. The buffer was full of other bytes. -/
theorem forwards_exactly_short_after_long :
    let relay : Relay := { atm := .loopback 1, bank := .loopback 2 }
    let events : List Event :=
      [.arrival ⟨.loopback 1, [1, 2, 3, 4, 5]⟩, .arrival ⟨.loopback 2, []⟩, .arrival ⟨.loopback 3, [9]⟩,
        .call, .call, .call, .call, .arrival ⟨.loopback 1, [7]⟩, .call]
    let reports := (Loop.play relay events ⟨List.replicate 8 255, []⟩).1
    relay.atm ≠ relay.bank ∧ (∀ datagram ∈ arrivals events, datagram.payload.length ≤ 8) ∧
      payloadsTo relay.bank (reports.filterMap (·.sent)) = [[1, 2, 3, 4, 5], [7]] ∧
      payloadsTo relay.atm (reports.filterMap (·.sent)) = [[]] ∧
      reports.map (·.destination) = [some (.loopback 2), some (.loopback 1), none, none, some (.loopback 2)] := by
  intro relay events reports
  have hne : relay.atm ≠ relay.bank := by decide
  have hfits : ∀ datagram ∈ arrivals events, datagram.payload.length ≤ 8 := by decide
  obtain ⟨⟨hbank, hatm, -⟩, -, -, -, hbuffer⟩ := forwards_exactly relay hne events []
  have hreports : reports = (relay.serve events []).1.map .of := (hbuffer (List.replicate 8 255) hfits).1
  have hsent : reports.filterMap (·.sent) = (relay.serve events []).1.filterMap id := by
    rw [hreports, List.filterMap_map]
    rfl
  rw [hsent, hbank, hatm, hreports]
  exact ⟨hne, hfits, by decide, by decide, by decide⟩

end Relay
end Cashpoint
