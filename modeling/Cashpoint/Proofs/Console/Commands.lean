/-
# What a console line can ask for

Whatever the line, a command that is read from it names a user by a user name, a PIN by
four digits and an amount that is not negative (`AtmCommand.wellFormed_of_ofLine`,
`BankCommand.wellFormed_of_ofLine`). Nothing behind a console checks this again.
-/

import Cashpoint.Console.AtmCommand
import Cashpoint.Console.BankCommand

namespace Cashpoint
namespace Console

/-! ## At the ATM -/

namespace AtmCommand

/-- The user of a command has a user name, and its amount is not negative. -/
def WellFormed : AtmCommand → Prop
  | beginSession user => Credential.isUserName user = true
  | withdraw amount => 0 ≤ amount.toInt
  | balance | endSession => True

/-- What is read as the beginning of a session names a user. -/
theorem beginSessionOf_eq_ok {arguments : List String} {command : AtmCommand}
    (h : beginSessionOf arguments = .ok command) : command.WellFormed := by
  unfold beginSessionOf at h
  split at h
  · split at h
    · rename_i hu
      obtain rfl := Except.ok.inj h
      exact hu
    · simp at h
  · simp at h

/-- What is read as a withdrawal has an amount that is not negative. -/
theorem withdrawOf_eq_ok {arguments : List String} {command : AtmCommand}
    (h : withdrawOf arguments = .ok command) : command.WellFormed := by
  unfold withdrawOf at h
  split at h
  · split at h
    · rename_i amount ha
      obtain rfl := Except.ok.inj h
      exact Amount.nonneg_of_ofString? ha
    · simp at h
  · simp at h

/-- What is read as a question for the balance is that. -/
theorem balanceOf_eq_ok {arguments : List String} {command : AtmCommand}
    (h : balanceOf arguments = .ok command) : command = balance := by
  unfold balanceOf at h
  split at h
  · exact (Except.ok.inj h).symm
  · simp at h

/-- What is read as the end of a session is that. -/
theorem endSessionOf_eq_ok {arguments : List String} {command : AtmCommand}
    (h : endSessionOf arguments = .ok command) : command = endSession := by
  unfold endSessionOf at h
  split at h
  · exact (Except.ok.inj h).symm
  · simp at h

/-- **A command of the ATM is well formed.** -/
theorem wellFormed_of_ofLine {line : String} {command : AtmCommand} (h : ofLine line = .ok command) :
    command.WellFormed := by
  unfold ofLine ofWords at h
  split at h
  · simp at h
  · split at h
    · exact beginSessionOf_eq_ok h
    · split at h
      · exact withdrawOf_eq_ok h
      · split at h
        · rw [balanceOf_eq_ok h]
          trivial
        · split at h
          · rw [endSessionOf_eq_ok h]
            trivial
          · simp at h

end AtmCommand

/-! ## At the Bank -/

namespace BankCommand

/-- The user of a command has a user name, a PIN is one, and an amount is not negative. -/
def WellFormed : BankCommand → Prop
  | createUser user pin opening =>
    Credential.isUserName user = true ∧ Credential.isPin pin = true ∧ 0 ≤ opening.toInt
  | deposit user amount => Credential.isUserName user = true ∧ 0 ≤ amount.toInt
  | balance user => Credential.isUserName user = true

/-- What is read as the creation of a user is well-formed. -/
theorem createUserOf_eq_ok {arguments : List String} {command : BankCommand}
    (h : createUserOf arguments = .ok command) : command.WellFormed := by
  unfold createUserOf at h
  split at h
  · split at h
    · rename_i hc
      rw [Bool.and_eq_true] at hc
      split at h
      · rename_i opening ho
        obtain rfl := Except.ok.inj h
        exact ⟨hc.1, hc.2, Amount.nonneg_of_ofString? ho⟩
      · simp at h
    · simp at h
  · simp at h

/-- What is read as a deposit is well-formed. -/
theorem depositOf_eq_ok {arguments : List String} {command : BankCommand}
    (h : depositOf arguments = .ok command) : command.WellFormed := by
  unfold depositOf at h
  split at h
  · split at h
    · rename_i hu
      split at h
      · rename_i amount ha
        obtain rfl := Except.ok.inj h
        exact ⟨hu, Amount.nonneg_of_ofString? ha⟩
      · simp at h
    · simp at h
  · simp at h

/-- What is read as a question for a balance names a user. -/
theorem balanceOf_eq_ok {arguments : List String} {command : BankCommand}
    (h : balanceOf arguments = .ok command) : command.WellFormed := by
  unfold balanceOf at h
  split at h
  · split at h
    · rename_i hu
      obtain rfl := Except.ok.inj h
      exact hu
    · simp at h
  · simp at h

/-- **A command of the Bank is well formed.** -/
theorem wellFormed_of_ofLine {line : String} {command : BankCommand} (h : ofLine line = .ok command) :
    command.WellFormed := by
  unfold ofLine ofWords at h
  split at h
  · simp at h
  · split at h
    · exact createUserOf_eq_ok h
    · split at h
      · exact depositOf_eq_ok h
      · split at h
        · exact balanceOf_eq_ok h
        · simp at h

end BankCommand
end Console
end Cashpoint
