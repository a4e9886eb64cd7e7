/-
# The relay

It stands between one ATM and one Bank and looks into no datagram: what comes from one
goes to the other as it is, and what comes from elsewhere is dropped. A datagram from
an address that both share counts as the ATM's.
-/

import Cashpoint.Network.Link

namespace Cashpoint

/-- A datagram on its way to an address. -/
structure Dispatch where
  destination : SocketAddress
  payload : List UInt8
  deriving DecidableEq

/-- The addresses between which datagrams are forwarded. -/
structure Relay where
  atm : SocketAddress
  bank : SocketAddress
  deriving DecidableEq

namespace Relay

/-- Where a datagram from an address goes, if anywhere. -/
def route (relay : Relay) (source : SocketAddress) : Option SocketAddress :=
  if source = relay.atm then some relay.bank
  else if source = relay.bank then some relay.atm
  else none

/-- What becomes of a datagram. -/
def forward (relay : Relay) (datagram : Datagram) : Option Dispatch :=
  (relay.route datagram.source).map fun destination => { destination, payload := datagram.payload }

/-- Handles the first datagram of an inbox: what is sent on, and what is left to handle. -/
def forwardOne (relay : Relay) : List Datagram → Option Dispatch × List Datagram
  | [] => (none, [])
  | datagram :: rest => (relay.forward datagram, rest)

/-- What is sent on for an inbox, one datagram after the other. -/
def run (relay : Relay) (inbox : List Datagram) : List Dispatch := inbox.filterMap relay.forward

end Relay
end Cashpoint
