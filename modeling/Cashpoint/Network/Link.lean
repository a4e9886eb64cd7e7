/-
# The link to the Bank

The ATM's side of an unreliable datagram network. A round trip first discards what
lies in the inbox, since those are replies to requests that were given up. Then it
sends the request, at most once more than the number of retries, and each time takes
the first datagram of its peer that arrives within the timeout. Datagrams of others
are dropped. With a timeout of zero nothing is read at all, and what arrives stays in
the inbox.

Attempts are counted in 32 bits, so there are one more of them than retries only below
`retryLimit`. At the limit the count overflows. It wraps to zero here, as arithmetic does
that is not checked, and then no attempt is made; checked arithmetic stops the program.

Time and network are arguments: `transmit` says, for each attempt, what arrives at the
inbox before the wait is over, or that the datagram could not be sent.
-/

import Cashpoint.Error
import Cashpoint.Network.Address

namespace Cashpoint

/-- A datagram together with the address it came from. -/
structure Datagram where
  source : SocketAddress
  payload : List UInt8
  deriving DecidableEq

/-- The ATM's end of the network: whom it talks to, how patient it is, and what it has not read yet. -/
structure Link where
  peer : SocketAddress
  /-- How long each attempt waits, in milliseconds. -/
  timeout : Nat
  /-- How often a request without a reply is sent again, at most `retryLimit` times. -/
  maxRetries : Nat
  /-- What has arrived and was not read yet, oldest first. -/
  inbox : List Datagram := []

namespace Link

/-- The largest 32-bit number of retries, for which the number of attempts is no 32-bit number any more. -/
def retryLimit : Nat := 4294967295

/-- The number of times a request is sent before it is given up, counted in 32 bits. -/
def attempts (link : Link) : Nat := (link.maxRetries + 1) % (retryLimit + 1)

/-- Below the limit a request is sent once, and again for each retry. -/
theorem attempts_eq {link : Link} (h : link.maxRetries < retryLimit) : link.attempts = link.maxRetries + 1 :=
  Nat.mod_eq_of_lt (Nat.succ_lt_succ h)

/-- Discards what lies in the inbox. -/
def drain (link : Link) : Link := { link with inbox := [] }

/-- The first payload of the peer in an inbox, and what lies behind it. -/
def firstFrom (peer : SocketAddress) : List Datagram → Option (List UInt8 × List Datagram)
  | [] => none
  | datagram :: rest =>
    if datagram.source = peer then some (datagram.payload, rest) else firstFrom peer rest

/-- What one wait reads. Without a payload of the peer the whole inbox is read in vain. -/
def await (link : Link) : Option (List UInt8) × Link :=
  if link.timeout = 0 then (none, link)
  else
    match firstFrom link.peer link.inbox with
    | some (payload, rest) => (some payload, { link with inbox := rest })
    | none => (none, { link with inbox := [] })

/-- How a network answers one attempt to send a datagram. -/
abbrev Transmit (σ : Type) := σ → List UInt8 → Except IoKind (List Datagram) × σ

/-- Sends the request up to `left` times and returns the first reply. -/
def attempt {σ : Type} (transmit : Transmit σ) (request : List UInt8) :
    (left : Nat) → Link → σ → Except Error (List UInt8) × Link × σ
  | 0, link, s => (.error (.timeout link.attempts), link, s)
  | left + 1, link, s =>
    match transmit s request with
    | (.error kind, s) => (.error (.ofKind kind), link, s)
    | (.ok arrivals, s) =>
      match { link with inbox := link.inbox ++ arrivals }.await with
      | (some reply, link) => (.ok reply, link, s)
      | (none, link) => attempt transmit request left link s

/-- Exchanges a request for a reply. -/
def roundTrip {σ : Type} (transmit : Transmit σ) (link : Link) (s : σ) (request : List UInt8) :
    Except Error (List UInt8) × Link × σ :=
  attempt transmit request link.attempts link.drain s

end Link
end Cashpoint
