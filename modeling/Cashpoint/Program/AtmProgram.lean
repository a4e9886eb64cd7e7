/-
# The program `atm`

`atm <init-file> [-c <config>]`: the ATM's console. The prompt is printed before each
line; a PIN is read from the line after the one that leads to its prompt. The program
ends with its input, or at a line that is no text.
-/

import Cashpoint.Atm
import Cashpoint.Network.Link
import Cashpoint.Program.Launch

namespace Cashpoint
namespace Program
namespace AtmProgram

def usage : String := "Usage:  atm <init-file>"

/-- The ATM, its link and the address to bind after a start at a time in microseconds, with the random
bytes of its request vectors. -/
def launch (start : Start) (fresh : Bytes 4) (time : Nat) : Except Exit (Atm × Link × SocketAddress) := do
  let started ← begin usage Installation.atmEnding Config.atmAddress start
  let config := started.config
  let atm : Atm := {
    keys := started.keys
    cards := ⟨config.cardDirectory⟩
    session := { maxAttempts := config.maxAttempts.toNat }
    sequencer := .atTime fresh time }
  let link : Link := {
    peer := config.relayAddress
    timeout := config.requestTimeout.toNat
    maxRetries := config.maxRetries.toNat }
  return (atm, link, config.atmAddress)

/-- What is printed while a line is handled, and the prompt after it. -/
def shown {σ : Type} (h : Atm.Handled σ) : String :=
  (if h.askedPin then Atm.pinPrompt else "") ++ String.join (h.lines.map line) ++ h.atm.prompt

/-- What is printed from a prompt to the end of the input, and the state of the surroundings then. -/
def converse {σ : Type} (world : Atm.Surroundings σ) (atm : Atm) (input : List (Option String)) (s : σ) :
    String × Atm × σ :=
  match input with
  | some text :: rest =>
    let h := atm.command world text (rest.head?.bind id) s
    let (output, atm, s) := converse world h.atm (if h.askedPin then rest.tail else rest) h.state
    (shown h ++ output, atm, s)
  | _ => ("", atm, s)
termination_by input.length
decreasing_by
  split <;> simp only [List.length_tail, List.length_cons] <;> omega

end AtmProgram
end Program
end Cashpoint
