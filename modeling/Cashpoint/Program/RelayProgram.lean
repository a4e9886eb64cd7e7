/-
# The program `router`

`router [-c <config>]`: the relay between the ATM and the Bank. It prints nothing and goes
on until it is stopped.
-/

import Cashpoint.Network.Relay
import Cashpoint.Program.Launch

namespace Cashpoint
namespace Program
namespace RelayProgram

def usage : String := "Usage:  router [-c <config>]"

def grammar : Grammar where
  takesPath := false
  takesConfig := true

/-- The relay after a start, and the address at which it is bound. -/
def launch (start : Start) : Except Exit (Relay × SocketAddress) := do
  match Arguments.read grammar start.arguments with
  | .error refusal => throw (refuse usage refusal)
  | .ok a =>
    let config ← configure start a
    Program.bind start config.relayAddress
    return ({ atm := config.atmAddress, bank := config.bankAddress }, config.relayAddress)

end RelayProgram
end Program
end Cashpoint
