/-
# A Bank behind a relay

What an ATM's link meets when it sends: the relay passes the request on to the Bank, the
Bank may reply, and the relay passes the reply back. Where the network takes no datagram
at all, the link learns that at once.
-/

import Cashpoint.Bank
import Cashpoint.Network.Relay

namespace Cashpoint

/-- A Bank behind a relay, as the link of an ATM meets it. -/
structure Service where
  bank : Bank
  relay : Relay
  /-- The address at which the relay is bound. -/
  relayAddress : SocketAddress
  /-- Whether the network takes datagrams. -/
  isUp : Bool := true
  /-- The vector of each reply, by the number of replies sealed before it. -/
  replyIv : Nat → Bytes 12
  /-- The number of datagrams that the Bank has handled. -/
  handled : Nat := 0

namespace Service

/-- Brings a datagram to the Bank: its reply, if it sends one. -/
def deliver (s : Service) (payload : List UInt8) : Option (List UInt8) × Service :=
  let (result, bank) := s.bank.handle (s.replyIv s.handled) payload
  (result.toOption, { s with bank, handled := s.handled + 1 })

/-- What arrives at the ATM for a reply of the Bank. -/
def arrivals (s : Service) (reply : List UInt8) : List Datagram :=
  match s.relay.forward { source := s.relay.bank, payload := reply } with
  | some dispatch =>
    if dispatch.destination = s.relay.atm then
      [{ source := s.relayAddress, payload := dispatch.payload }]
    else []
  | none => []

/-- What arrives at the ATM after it has sent a datagram to the relay. -/
def transmit : Link.Transmit Service := fun s payload =>
  if !s.isUp then (.error .unreachable, s)
  else
    match s.relay.forward { source := s.relay.atm, payload } with
    | none => (.ok [], s)
    | some dispatch =>
      if dispatch.destination = s.relay.bank then
        match s.deliver dispatch.payload with
        | (some reply, s) => (.ok (s.arrivals reply), s)
        | (none, s) => (.ok [], s)
      else (.ok [], s)

end Service
end Cashpoint
