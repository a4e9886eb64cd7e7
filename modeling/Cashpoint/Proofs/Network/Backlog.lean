/-
# A network that delivers late

Whatever the link has sent and whatever the Bank has replied may still come, once or more
often, in any order and at any time. Nothing else comes from either of the two. A
`Backlog` is the Bank behind such a network, with all that may still come; a `Happening`
is one thing that does come, or a line at the Bank's console in between.

Behind such a network the Bank executes honestly (`Faithful`), and all that arrives at the
link is kept, in the order in which it came (`arrived_transmit`).
-/

import Cashpoint.Proofs.Bank.Book
import Cashpoint.Proofs.Network.Resend

namespace Cashpoint

open Bank (Execution)

/-- Something that happens between a link and the Bank, or at the Bank's console. -/
inductive Happening (peer : SocketAddress)
  /-- A copy of a request reaches the Bank, by the age of the request: 0 for the one sent last. -/
  | request (age : Nat) (replyIv : Bytes 12)
  /-- Something arrives at the link. -/
  | arrival (arrival : Arrival peer)
  /-- A line at the Bank's console. -/
  | line (cardIv : Block) (text : String)

/-- A Bank behind a network that may lose, double, delay and reorder datagrams, but forges none. -/
structure Backlog (peer : SocketAddress) where
  branch : Branch
  /-- The requests that the link has sent, oldest first. -/
  requests : List (List UInt8) := []
  /-- The replies that the Bank has sent, oldest first. -/
  replies : List (List UInt8) := []
  /-- The requests that the Bank has executed, oldest first. -/
  executed : List Execution := []
  /-- What has arrived at the link during its last round trip, oldest first. -/
  arrived : List Datagram := []
  /-- What happens in the attempts to come. -/
  plan : List (List (Happening peer)) := []

namespace Backlog

variable {peer : SocketAddress}

/-- What becomes of the backlog by one happening. -/
def happen (b : Backlog peer) : Happening peer → Backlog peer
  | .request age replyIv =>
    match b.requests.reverse[age]? with
    | none => b
    | some bytes => { b with
        branch := b.branch.step (.datagram replyIv bytes)
        replies := b.replies ++ (b.branch.bank.handle replyIv bytes).1.toOption.toList
        executed := b.executed ++ (b.branch.execution? (.datagram replyIv bytes)).toList }
  | .arrival arrival => { b with arrived := b.arrived ++ (arrival.datagram? b.replies).toList }
  | .line cardIv text => { b with branch := b.branch.step (.line cardIv text) }

/-- Sends a datagram, and lets happen what is planned for the attempt. -/
def transmit : Link.Transmit (Backlog peer) := fun b datagram =>
  let sent := { b with requests := b.requests ++ [datagram], plan := b.plan.tail }
  let next := (b.plan.headD []).foldl happen sent
  (.ok (next.arrived.drop b.arrived.length), next)

/-- What holds of the Bank and its network in every run. -/
structure Faithful (keys : Keys) (b : Backlog peer) : Prop where
  keys_eq : b.branch.bank.keys = keys
  inRange : b.branch.bank.ledger.InRange
  honest : ∀ e ∈ b.executed, e.Honest keys.messageKey ∧ e.before.InRange
  /-- What comes from the peer is a reply of the Bank. -/
  arrived_replies : ∀ payload, { source := peer, payload } ∈ b.arrived → payload ∈ b.replies

variable {keys : Keys} {b : Backlog peer}

/-- A happening keeps the backlog faithful. -/
theorem Faithful.happen (h : b.Faithful keys) (happening : Happening peer) : (b.happen happening).Faithful keys := by
  cases happening with
  | line cardIv text => exact {
      keys_eq := (b.branch.keys_step _).trans h.keys_eq
      inRange := b.branch.inRange_step h.inRange _
      honest := h.honest
      arrived_replies := h.arrived_replies }
  | arrival arrival => exact {
      keys_eq := h.keys_eq
      inRange := h.inRange
      honest := h.honest
      arrived_replies := by
        intro payload hmem
        rcases List.mem_append.1 hmem with hmem | hmem
        · exact h.arrived_replies payload hmem
        · exact Arrival.mem_of_datagram? (Option.mem_toList.1 hmem) }
  | request age replyIv =>
    simp only [Backlog.happen]
    cases hage : b.requests.reverse[age]? with
    | none => exact h
    | some bytes => exact {
        keys_eq := (b.branch.keys_step _).trans h.keys_eq
        inRange := b.branch.inRange_step h.inRange _
        honest := by
          intro e hmem
          rcases List.mem_append.1 hmem with hmem | hmem
          · exact h.honest e hmem
          · have hexec : b.branch.bank.execution? replyIv bytes = some e := Option.mem_toList.1 hmem
            refine ⟨h.keys_eq ▸ Bank.honest_of_execution hexec, ?_⟩
            rw [(Bank.ledger_of_execution hexec).1]
            exact h.inRange
        arrived_replies payload hmem := List.mem_append_left _ (h.arrived_replies payload hmem) }

/-- So do any number of them. -/
theorem Faithful.happens (h : b.Faithful keys) (happenings : List (Happening peer)) :
    (happenings.foldl Backlog.happen b).Faithful keys := by
  induction happenings generalizing b with
  | nil => exact h
  | cons happening rest ih => exact ih (h.happen happening)

/-- So does an attempt to send a datagram. -/
theorem Faithful.transmit (h : b.Faithful keys) (datagram : List UInt8) :
    (Backlog.transmit b datagram).2.Faithful keys :=
  Faithful.happens (show Faithful keys { b with requests := b.requests ++ [datagram], plan := b.plan.tail } from
    ⟨h.keys_eq, h.inRange, h.honest, h.arrived_replies⟩) _

/-- What has arrived stays, and more comes behind it. -/
theorem arrived_happen (b : Backlog peer) (happening : Happening peer) :
    b.arrived <+: (b.happen happening).arrived := by
  cases happening with
  | line cardIv text => exact List.prefix_rfl
  | arrival arrival => exact List.prefix_append ..
  | request age replyIv =>
    simp only [happen]
    cases b.requests.reverse[age]? <;> exact List.prefix_rfl

/-- What has arrived is only ever added to. -/
theorem arrived_happens (b : Backlog peer) (happenings : List (Happening peer)) :
    b.arrived <+: (happenings.foldl happen b).arrived := by
  induction happenings generalizing b with
  | nil => exact List.prefix_rfl
  | cons happening rest ih => exact (b.arrived_happen happening).trans (ih _)

/-- **A transmission brings what is new among what has arrived.** -/
theorem arrived_transmit (datagram : List UInt8) (b : Backlog peer) :
    ∃ arrivals, (transmit b datagram).1 = .ok arrivals ∧
      (transmit b datagram).2.arrived = b.arrived ++ arrivals := by
  have hprefix : b.arrived <+: (transmit b datagram).2.arrived :=
    arrived_happens { b with requests := b.requests ++ [datagram], plan := b.plan.tail } (b.plan.headD [])
  exact ⟨_, rfl, (List.prefix_iff_eq_append.1 hprefix).symm⟩

/-! ## One attempt -/

/-- An attempt in which the request reaches the Bank, and replies arrive after that, each by its age. -/
def reaching (replyIv : Bytes 12) (ages : List Nat) : List (Happening peer) :=
  .request 0 replyIv :: ages.map fun age => .arrival (.reply age)

/-- The datagrams that replies of these ages arrive as. -/
def datagrams (peer : SocketAddress) (replies : List (List UInt8)) (ages : List Nat) : List Datagram :=
  ages.filterMap fun age => (Arrival.reply age : Arrival peer).datagram? replies

/-- The first of them, if there is a reply of its age. -/
theorem datagrams_cons {replies : List (List UInt8)} {age : Nat} {first : List UInt8}
    (h : replies.reverse[age]? = some first) (later : List Nat) :
    datagrams peer replies (age :: later) =
      { source := peer, payload := first } :: datagrams peer replies later :=
  List.filterMap_cons_some (by simp only [Arrival.datagram?, h, Option.map_some])

/-- Replies that come back add their datagrams to what has arrived, and change nothing else. -/
theorem happens_replies (b : Backlog peer) (ages : List Nat) :
    (ages.map fun age => .arrival (.reply age)).foldl happen b =
      { b with arrived := b.arrived ++ datagrams peer b.replies ages } := by
  induction ages generalizing b with
  | nil => simp [datagrams]
  | cons age rest ih =>
    rw [List.map_cons, List.foldl_cons, ih]
    cases harrival : (Arrival.reply age : Arrival peer).datagram? b.replies <;>
      simp [happen, datagrams, harrival]

/-- **A new request that reaches the Bank is executed**, and its reply is the last one. -/
theorem transmit_reaching {b : Backlog peer} {replyIv : Bytes 12} {ages : List Nat}
    (hplan : b.plan = [reaching replyIv ages]) {datagram plaintext reply : List UInt8} {request : Frame} {bank : Bank}
    (hnew : b.branch.bank.newRequest? datagram = some (request, plaintext))
    (hhandle : b.branch.bank.handle replyIv datagram = (.ok reply, bank)) :
    ∃ e : Execution, e.request = request ∧ e.before = b.branch.bank.ledger ∧ e.reply = .ok reply ∧
      (transmit b datagram).2 =
        { branch := { b.branch with bank }
          requests := b.requests ++ [datagram]
          replies := b.replies ++ [reply]
          executed := b.executed ++ [e]
          arrived := b.arrived ++ datagrams peer (b.replies ++ [reply]) ages
          plan := [] } := by
  obtain ⟨e, hexec, hrequest, hbefore, hreply⟩ : ∃ e, b.branch.bank.execution? replyIv datagram = some e ∧
      e.request = request ∧ e.before = b.branch.bank.ledger ∧ e.reply = .ok reply :=
    ⟨_, by rw [Bank.execution?, hnew]; rfl, rfl, rfl, by rw [hhandle]⟩
  refine ⟨e, hrequest, hbefore, hreply, ?_⟩
  have hreach : (transmit b datagram).2 =
      (ages.map fun age => .arrival (.reply age)).foldl happen
        ({ b with requests := b.requests ++ [datagram], plan := [] }.happen (.request 0 replyIv)) := by
    simp only [transmit, hplan, List.headD_cons, List.tail_cons, reaching, List.foldl_cons]
  rw [hreach, happens_replies]
  simp [happen, hexec, hhandle, Branch.step, Branch.execution?, Except.toOption]

end Backlog
end Cashpoint
