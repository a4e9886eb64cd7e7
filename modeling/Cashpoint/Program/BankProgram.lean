/-
# The program `bank`

`bank <init-file> [-c <config>]`: the Bank's console, and its side of the network. The
prompt is printed at the start and after each line. The program goes on serving
datagrams after its input has ended, or has brought a line that is no text.
-/

import Cashpoint.Bank
import Cashpoint.Program.Launch

namespace Cashpoint
namespace Program
namespace BankProgram

def usage : String := "Usage:  bank <init-file>"

def prompt : String := "BANK: "

/-- The Bank after a start. -/
def launch (start : Start) : Except Exit (Bank × Config) := do
  let started ← begin usage Installation.bankEnding Config.bankAddress start
  return ({ keys := started.keys, cards := ⟨started.config.cardDirectory⟩ }, started.config)

/-- What is printed for a line, and the prompt after it. -/
def shown (reply : Option String) : String :=
  (match reply with
    | some reply => line reply
    | none => "") ++ prompt

/-- What is printed for lines of input, the Bank and the files after them. Each line comes with the
vector of the card that it may make. -/
def converse (bank : Bank) (files : FileTree) : List (Option String × Block) → String × Bank × FileTree
  | (some text, cardIv) :: rest =>
    let (reply, bank, files) := bank.console files cardIv text
    let (output, bank, files) := converse bank files rest
    (shown reply ++ output, bank, files)
  | _ => ("", bank, files)

end BankProgram
end Program
end Cashpoint
