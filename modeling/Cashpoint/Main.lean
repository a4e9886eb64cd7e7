/-
# The programs

`init`, `atm`, `bank` and `router`, chosen by the first argument. Each reads what it needs
from the machine, leaves every decision to the library, and carries out the answer: lines
are printed, files made and datagrams sent.
-/

import Cashpoint.Machine.Disk
import Cashpoint.Machine.Udp
import Cashpoint.Program.AtmProgram
import Cashpoint.Program.BankProgram
import Cashpoint.Program.Init
import Cashpoint.Program.RelayProgram
import Std.Async.Signal
import Std.Sync.Channel

namespace Cashpoint
namespace Main

/-- Prints text at once. -/
def display (text : String) : IO Unit := do
  let output ← IO.getStdout
  output.putStr text
  output.flush

/-- The end of a program. -/
def finish (exit : Program.Exit) : IO UInt32 := do
  display exit.output
  return exit.code

/-- Random bytes of the system. -/
def random (n : Nat) : IO (Bytes n) := do
  let bytes ← IO.getRandomBytes n.toUSize
  match Bytes.ofList? n bytes.toList with
  | some bytes => return bytes
  | none => throw (IO.userError "no random bytes")

/-- The time in microseconds. -/
def now : IO Nat := do
  let time ← Std.Time.Timestamp.now
  return time.toNanosecondsSinceUnixEpoch.toInt.toNat / 1000

/-- The bytes up to the next newline, or to the end of the input. -/
partial def readBytes (input : IO.FS.Stream) (line : ByteArray) : IO ByteArray := do
  let next ← input.read 1
  if next.isEmpty then return line
  else if next[0]? = some 10 then return line ++ next
  else readBytes input (line ++ next)

/-- The next line of the input, if there is one and it is text. -/
def readLine : IO (Option String) := do
  let bytes ← readBytes (← IO.getStdin) ByteArray.empty
  if bytes.isEmpty then return none else return Utf8.decode? bytes.toList

/-- What a program is started with. That an address can be bound shows when it is. -/
def startOf (grammar : Program.Grammar) (arguments : List String) : IO Program.Start := do
  let environment := (← IO.getEnv "ATM_BANK_CONFIG").map Path.mk
  let told : List Path := match Program.Arguments.read grammar arguments with
    | .ok a => (a.path?.toList ++ a.config?.toList).map Path.mk
    | .error _ => []
  let files ← Disk.observeAll (told ++ environment.toList)
  return { arguments, environment, files, canBind := fun _ => true }

/-- Goes on with a socket bound to an address, or ends where it cannot be bound. -/
def withSocket (address : SocketAddress) (go : Std.Async.UDP.Socket → IO UInt32) : IO UInt32 := do
  match ← (Udp.bind address).toBaseIO with
  | .ok socket => go socket
  | .error _ => finish { code := Program.exitFile }

/-! ## The key files -/

/-- Makes a new installation. -/
def runInit (arguments : List String) : IO UInt32 := do
  let base : List Path := match Program.Arguments.read Program.Init.grammar arguments with
    | .ok a => (a.path?.map Path.mk).toList
    | .error _ => []
  let installations := base.map Installation.ofBase
  let files ← Disk.observeAll (installations.flatMap fun i => [i.bankFile, i.atmFile])
  let (exit, after) := Program.Init.run arguments files (← random 64)
  match ← (Disk.settle files after).toBaseIO with
  | .ok () => finish exit
  | .error _ => finish { code := Program.exitFile }

/-! ## The ATM -/

/-- Handles a line: prints what it leads to, and returns the ATM after it. -/
def handleLine (network : Udp.Line) (link : Link) (atm : Atm) (line : String) : IO Atm := do
  match atm.submit line with
  | .done lines atm => tell lines atm
  | .send datagram exchange =>
    match exchange.receive (← Udp.roundTrip network link datagram) with
    | .done lines atm => tell lines atm
    | .askPin login =>
      display Atm.pinPrompt
      let typed ← readLine
      let card := (login.atm.cards.path login.user).toOption
      let (lines, atm) := login.enter (← Disk.observeAll card.toList) typed
      tell lines atm
where
  tell (lines : List String) (atm : Atm) : IO Atm := do
    display (String.join (lines.map Program.line))
    return atm

/-- Handles line after line until the input ends. -/
partial def converse (network : Udp.Line) (link : Link) (atm : Atm) : IO UInt32 := do
  display atm.prompt
  match ← readLine with
  | some line => converse network link (← handleLine network link atm line)
  | none => return Program.exitSuccess

/-- The ATM on a terminal. -/
def runAtm (arguments : List String) : IO UInt32 := do
  let start ← startOf Program.keyedGrammar arguments
  match Program.AtmProgram.launch start (← random 4) (← now) with
  | .error exit => finish exit
  | .ok (atm, link, address) => withSocket address fun socket => do
    converse (← Udp.Line.start socket) link atm

/-! ## What happens to the Bank and the relay -/

/-- What they react to, one at a time. -/
inductive Event
  | console (line : String)
  | datagram (datagram : Datagram)
  | stop
  deriving Inhabited

/-- Stops when the program is interrupted or terminated. -/
def stopOn (events : Std.Channel Event) (signal : Std.Async.Signal) : IO Unit := do
  let waiter ← Std.Async.Signal.Waiter.mk signal false
  let received ← waiter.wait
  discard (received.mapIO fun _ => events.sync.send .stop)

/-- The events of a socket and of the signals. The socket's end is one of them. -/
def eventsOf (socket : Std.Async.UDP.Socket) : IO (Std.Channel Event) := do
  let events ← Std.Channel.new
  stopOn events .sigint
  stopOn events .sigterm
  let listening : Std.Async.Async Unit :=
    try Udp.listen socket fun datagram => events.sync.send (.datagram datagram)
    catch _ => events.sync.send .stop
  discard listening.asTask
  return events

/-! ## The Bank -/

/-- Passes on the lines of the input until it ends. -/
partial def readConsole (events : Std.Channel Event) : IO Unit := do
  if let some line ← readLine then
    events.sync.send (.console line)
    readConsole events

/-- The answer to a line at the console, and the Bank after it. A card that cannot be made in the
machine leaves the Bank as it was. -/
def handleConsole (bank : Bank) (line : String) : IO (Option String × Bank) := do
  let user := match Console.BankCommand.ofLine line with
    | .ok (.createUser user _ _) => some user
    | _ => none
  let card := user.bind fun user => (bank.cards.path user).toOption
  let files ← Disk.observeAll card.toList
  let (reply, after, made) := bank.console files (← random 16) line
  match ← (Disk.settle files made).toBaseIO with
  | .ok () => return (reply, after)
  | .error _ => return (user.map Bank.cardFailed, bank)

/-- Reacts to one event after the other until the program is stopped. -/
partial def serve (events : Std.Channel Event) (socket : Std.Async.UDP.Socket) (bank : Bank) : IO UInt32 := do
  match ← events.sync.recv with
  | .console line =>
    let (reply, bank) ← handleConsole bank line
    display (Program.BankProgram.shown reply)
    serve events socket bank
  | .datagram datagram =>
    let (reply, bank) := bank.handle (← random 12) datagram.payload
    if let .ok reply := reply then
      discard (Udp.send socket datagram.source reply).toBaseIO
    serve events socket bank
  | .stop => return Program.exitSuccess

/-- The Bank on a terminal. -/
def runBank (arguments : List String) : IO UInt32 := do
  match Program.BankProgram.launch (← startOf Program.keyedGrammar arguments) with
  | .error exit => finish exit
  | .ok (bank, config) => withSocket config.bankAddress fun socket => do
    let events ← eventsOf socket
    discard (IO.asTask (readConsole events) Task.Priority.dedicated)
    display Program.BankProgram.prompt
    serve events socket bank

/-! ## The relay -/

/-- Sends datagrams on until the program is stopped. -/
partial def relayOn (events : Std.Channel Event) (socket : Std.Async.UDP.Socket) (relay : Relay) :
    IO UInt32 := do
  match ← events.sync.recv with
  | .datagram datagram =>
    if let some dispatch := relay.forward datagram then
      Udp.send socket dispatch.destination dispatch.payload
    relayOn events socket relay
  | _ => return Program.exitSuccess

/-- The relay on a terminal. -/
def runRelay (arguments : List String) : IO UInt32 := do
  match Program.RelayProgram.launch (← startOf Program.RelayProgram.grammar arguments) with
  | .error exit => finish exit
  | .ok (relay, address) => withSocket address fun socket => do
    let relay := { atm := Udp.unscoped relay.atm, bank := Udp.unscoped relay.bank }
    match ← (relayOn (← eventsOf socket) socket relay).toBaseIO with
    | .ok code => return code
    | .error _ => finish { code := Program.exitFile }

end Main
end Cashpoint

/-- The program that the first argument names. -/
def main : List String → IO UInt32
  | "init" :: arguments => Cashpoint.Main.runInit arguments
  | "atm" :: arguments => Cashpoint.Main.runAtm arguments
  | "bank" :: arguments => Cashpoint.Main.runBank arguments
  | "router" :: arguments => Cashpoint.Main.runRelay arguments
  | _ => do
    IO.println "Usage:  cashpoint init|atm|bank|router <arguments>"
    return Cashpoint.Program.exitUsage
