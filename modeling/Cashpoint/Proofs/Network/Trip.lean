/-
# What a round trip returns

A link tells datagrams of its peer from those of others, and nothing else about them. So a
wait takes the first one of the peer, and a round trip returns the first one of the peer
among all that arrives during its attempts (`attempt_heard`), whatever it may be a reply to.
What was there before has been discarded.

A round trip leaves the link as it was, but for the inbox (`roundTrip_keeps`).
-/

import Cashpoint.Network.Link

namespace Cashpoint
namespace Link

/-! ## The first of the peer -/

variable {peer : SocketAddress} {inbox : List Datagram}

/-- There is no first datagram of the peer just if all are of others. -/
theorem firstFrom_eq_none_iff :
    firstFrom peer inbox = none ↔ ∀ datagram ∈ inbox, datagram.source ≠ peer := by
  induction inbox with
  | nil => simp [firstFrom]
  | cons datagram rest ih =>
    by_cases h : datagram.source = peer
    · simp [firstFrom, h]
    · simp [firstFrom, h, ih]

/-- The first datagram of the peer is one of those in the inbox, and of the peer. -/
theorem mem_of_firstFrom {rest : List Datagram} {payload : List UInt8}
    (h : firstFrom peer inbox = some (payload, rest)) : { source := peer, payload } ∈ inbox := by
  induction inbox with
  | nil => simp [firstFrom] at h
  | cons datagram later ih =>
    by_cases hs : datagram.source = peer
    · simp only [firstFrom, hs, if_true, Option.some.injEq, Prod.mk.injEq] at h
      obtain ⟨rfl, -⟩ := h
      obtain rfl := hs
      exact List.mem_cons_self ..
    · simp only [firstFrom, hs, if_false] at h
      exact List.mem_cons_of_mem _ (ih h)

/-- The payload that a wait takes from an inbox. -/
def first? (peer : SocketAddress) (inbox : List Datagram) : Option (List UInt8) :=
  (firstFrom peer inbox).map Prod.fst

/-- Datagrams of others in front make no difference to the first one of the peer. -/
theorem firstFrom_append_of_none (h : firstFrom peer inbox = none) (later : List Datagram) :
    firstFrom peer (inbox ++ later) = firstFrom peer later := by
  induction inbox with
  | nil => rfl
  | cons datagram rest ih =>
    by_cases hs : datagram.source = peer
    · simp [firstFrom, hs] at h
    · rw [firstFrom, if_neg hs] at h
      rw [List.cons_append, firstFrom, if_neg hs, ih h]

/-! ## Attempts -/

variable {σ : Type} {transmit : Transmit σ} {request : List UInt8}

/-- **One attempt**: the first datagram of the peer that is there when the wait is over is the reply. -/
theorem attempt_succ {link : Link} {s s' : σ} {arrivals : List Datagram} (htimeout : 0 < link.timeout)
    (hsend : transmit s request = (.ok arrivals, s')) (left : Nat) :
    attempt transmit request (left + 1) link s =
      match firstFrom link.peer (link.inbox ++ arrivals) with
      | some (reply, rest) => (.ok reply, { link with inbox := rest }, s')
      | none => attempt transmit request left { link with inbox := [] } s' := by
  have hlong : link.timeout ≠ 0 := Nat.ne_of_gt htimeout
  simp only [attempt, hsend, await, hlong, if_false]
  cases firstFrom link.peer (link.inbox ++ arrivals) with
  | none => rfl
  | some found => rfl

/-- A wait leaves the link as it was, but for the inbox. -/
theorem await_keeps (link : Link) : ∃ inbox, link.await.2 = { link with inbox } := by
  unfold await
  split
  · exact ⟨link.inbox, rfl⟩
  · split
    · exact ⟨_, rfl⟩
    · exact ⟨_, rfl⟩

/-- Attempts leave the link as it was, but for the inbox. -/
theorem attempt_keeps (left : Nat) (link : Link) (s : σ) :
    ∃ inbox, (attempt transmit request left link s).2.1 = { link with inbox } := by
  induction left generalizing link s with
  | zero => exact ⟨link.inbox, rfl⟩
  | succ left ih =>
    unfold attempt
    split
    · exact ⟨link.inbox, rfl⟩
    · rename_i arrivals next hsend
      obtain ⟨inbox, hkeeps⟩ := await_keeps { link with inbox := link.inbox ++ arrivals }
      split
      · rename_i reply link' hawait
        rw [hawait] at hkeeps
        exact ⟨inbox, hkeeps⟩
      · rename_i link' hawait
        rw [hawait] at hkeeps
        obtain rfl : link' = { link with inbox } := hkeeps
        exact ih _ next

/-- **A round trip leaves the link as it was**, but for the inbox. -/
theorem roundTrip_keeps (link : Link) (s : σ) :
    ∃ inbox, (link.roundTrip transmit s request).2.1 = { link with inbox } :=
  attempt_keeps link.attempts link.drain s

/-- What every transmission preserves is preserved by all attempts. -/
theorem attempt_preserves {P : σ → Prop} (hstep : ∀ s, P s → P (transmit s request).2) (left : Nat)
    (link : Link) {s : σ} (h : P s) : P (attempt transmit request left link s).2.2 := by
  induction left generalizing link s with
  | zero => exact h
  | succ left ih =>
    have hnext := hstep s h
    unfold attempt
    split
    · rename_i hsend
      rwa [hsend] at hnext
    · rename_i hsend
      rw [hsend] at hnext
      split
      · exact hnext
      · exact ih _ hnext

/-- **Attempts return the first payload of the peer** among all that arrives during them, on a network that takes
every datagram and keeps a log of what it brings. -/
theorem attempt_heard (log : σ → List Datagram)
    (hlog : ∀ s, ∃ arrivals, (transmit s request).1 = .ok arrivals ∧
      log (transmit s request).2 = log s ++ arrivals)
    (left : Nat) {link : Link} (htimeout : 0 < link.timeout) (hinbox : link.inbox = []) (s : σ) :
    ∃ heard, log (attempt transmit request left link s).2.2 = log s ++ heard ∧
      (attempt transmit request left link s).1 =
        match first? link.peer heard with
        | some payload => .ok payload
        | none => .error (.timeout link.attempts) := by
  induction left generalizing link s with
  | zero => exact ⟨[], (List.append_nil _).symm, rfl⟩
  | succ left ih =>
    obtain ⟨arrivals, hok, harrivals⟩ := hlog s
    have hsend : transmit s request = (.ok arrivals, (transmit s request).2) := Prod.ext hok rfl
    rw [attempt_succ htimeout hsend, hinbox, List.nil_append]
    cases hfirst : firstFrom link.peer arrivals with
    | some found => exact ⟨arrivals, harrivals, by simp [first?, hfirst]⟩
    | none =>
      obtain ⟨heard, hrest, hresult⟩ :=
        ih (show 0 < ({ link with inbox := [] } : Link).timeout from htimeout) rfl (transmit s request).2
      refine ⟨arrivals ++ heard, ?_, ?_⟩
      · rw [hrest, harrivals, List.append_assoc]
      · rw [first?, firstFrom_append_of_none hfirst]
        exact hresult

end Link
end Cashpoint
