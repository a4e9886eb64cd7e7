import Cashpoint.Atm
import Cashpoint.Attempts
import Cashpoint.Main
import Cashpoint.Network.Service
import Cashpoint.Program.AtmProgram
import Cashpoint.Program.BankProgram
import Cashpoint.Program.Init
import Cashpoint.Program.Lines
import Cashpoint.Program.RelayProgram
import Cashpoint.Proofs.Atm.Numbers
import Cashpoint.Proofs.Atm.Secrecy
import Cashpoint.Proofs.Attempts.History
import Cashpoint.Proofs.Bank.Book
import Cashpoint.Proofs.Bank.Creation
import Cashpoint.Proofs.Bank.Refusal
import Cashpoint.Proofs.Bank.Separation
import Cashpoint.Proofs.Card.Calls
import Cashpoint.Proofs.Config.Overrides
import Cashpoint.Proofs.Console.Grammar
import Cashpoint.Proofs.Frame.Image
import Cashpoint.Proofs.Frame.Tampering
import Cashpoint.Proofs.Installation.Usable
import Cashpoint.Proofs.Ledger.Calls
import Cashpoint.Proofs.Message.Texts
import Cashpoint.Proofs.Network.Calls
import Cashpoint.Proofs.Network.Cash
import Cashpoint.Proofs.Network.Forwarding
import Cashpoint.Proofs.Network.Late
import Cashpoint.Proofs.Network.Resend
import Cashpoint.Proofs.Plain.Refinement
