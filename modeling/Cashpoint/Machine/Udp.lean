/-
# The machine's datagrams

UDP sockets that give and take the addresses and datagrams of the library. A scope says
which of the machine's interfaces an address belongs to; it is not part of the address
on the wire, and counts as 0 here.
-/

import Cashpoint.Network.Link
import Std.Async.UDP
import Std.Sync.Channel

namespace Cashpoint
namespace Udp

/-- The size of the largest datagram. -/
def largestDatagram : UInt64 := 65536

/-- An address for the system. -/
def toSystem : SocketAddress → Std.Net.SocketAddress
  | .v4 octets port => .v4 { addr := ⟨octets⟩, port }
  | .v6 groups _ port => .v6 { addr := ⟨groups⟩, port }

/-- The address that the system names. -/
def ofSystem : Std.Net.SocketAddress → SocketAddress
  | .v4 address => .v4 address.addr.octets address.port
  | .v6 address => .v6 address.addr.segments 0 address.port

/-- An address as the system names it again. -/
def unscoped (address : SocketAddress) : SocketAddress := ofSystem (toSystem address)

/-- A socket bound to an address. -/
def bind (address : SocketAddress) : IO Std.Async.UDP.Socket := do
  let socket ← Std.Async.UDP.Socket.mk
  socket.bind (toSystem address)
  return socket

/-- Sends a datagram. -/
def send (socket : Std.Async.UDP.Socket) (destination : SocketAddress) (payload : List UInt8) : IO Unit :=
  (socket.send ⟨payload.toArray⟩ (some (toSystem destination))).block

/-- The datagram that was received, if its source is known. -/
def datagram : ByteArray × Option Std.Net.SocketAddress → Option Datagram
  | (payload, some source) => some { source := ofSystem source, payload := payload.toList }
  | (_, none) => none

/-- Passes on each datagram that arrives from now on. -/
partial def listen (socket : Std.Async.UDP.Socket) (pass : Datagram → IO Unit) : Std.Async.Async Unit := do
  let received ← socket.recv largestDatagram
  if let some datagram := datagram received then pass datagram
  listen socket pass

/-! ## The ATM's link -/

/-- A bound socket, and what has arrived at it and was not read yet. -/
structure Line where
  socket : Std.Async.UDP.Socket
  arrived : Std.Channel Datagram

/-- A line that listens at a socket. -/
def Line.start (socket : Std.Async.UDP.Socket) : IO Line := do
  let arrived ← Std.Channel.new
  discard (listen socket fun datagram => arrived.sync.send datagram).asTask
  return { socket, arrived }

/-- Drops all that has arrived. -/
partial def Line.drain (line : Line) : IO Unit := do
  if (← line.arrived.tryRecv).isSome then line.drain

/-- What arrives until a time, up to the first datagram of a peer. -/
partial def Line.arrivals (line : Line) (peer : SocketAddress) (deadline : Nat) : IO (List Datagram) := do
  match ← line.arrived.tryRecv with
  | some datagram =>
    if datagram.source = peer then return [datagram]
    else return datagram :: (← line.arrivals peer deadline)
  | none =>
    if deadline ≤ (← IO.monoMsNow) then return []
    IO.sleep 1
    line.arrivals peer deadline

/-- Sends a request up to `left` times and returns the first reply. -/
def attempt (line : Line) (link : Link) (request : List UInt8) :
    (left : Nat) → IO (Except Error (List UInt8))
  | 0 => return .error (.timeout link.attempts)
  | left + 1 => do
    send line.socket link.peer request
    let inbox ← line.arrivals link.peer ((← IO.monoMsNow) + link.timeout)
    match { link with inbox }.await with
    | (some reply, _) => return .ok reply
    | (none, _) => attempt line link request left

/-- Exchanges a request for a reply over a line. What the system refuses is an error of the
network. -/
def roundTrip (line : Line) (link : Link) (request : List UInt8) :
    IO (Except Error (List UInt8)) :=
  try
    line.drain
    attempt line { link with peer := unscoped link.peer } request link.attempts
  catch _ => return .error (.ofKind .unreachable)

end Udp
end Cashpoint
