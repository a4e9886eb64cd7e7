/-
# Written numbers

A number is written without leading zeros, so a reader that takes digits as long as there are
any gets back just what was written, if no digit follows it (`span_append`). Its value is the
number, in decimal by the library and in hexadecimal by `Hex.value_toDigits`.
-/

import Cashpoint.Text.Hex
import Mathlib.Tactic.IntervalCases

namespace Cashpoint
namespace Numeral

/-- Nothing more can be taken off a text: it is empty, or starts with a character of another kind. -/
def Stops (p : Char → Bool) (rest : List Char) : Prop := ∀ c, rest.head? = some c → p c = false

/-- At the end nothing goes on. -/
theorem stops_nil (p : Char → Bool) : Stops p [] := nofun

/-- What begins with another character does not go on. -/
theorem stops_cons {p : Char → Bool} {c : Char} (h : p c = false) (rest : List Char) : Stops p (c :: rest) := by
  rintro d hd
  obtain rfl := Option.some.inj hd
  exact h

/-- **A run of characters** is taken off as a whole. -/
theorem span_append {p : Char → Bool} {run rest : List Char} (hrun : ∀ c ∈ run, p c = true) (hrest : Stops p rest) :
    (run ++ rest).takeWhile p = run ∧ (run ++ rest).dropWhile p = rest := by
  rw [List.takeWhile_append_of_pos hrun, List.dropWhile_append_of_pos hrun]
  cases rest with
  | nil => simp
  | cons c rest => simp [hrest c rfl]

/-- A written number starts with a zero only if it is zero. -/
theorem head?_toDigits {base n : Nat} (hbase : 1 < base) (hsmall : base ≤ 16) (hn : 0 < n) :
    (Nat.toDigits base n).head? ≠ some '0' := by
  induction n using Nat.strongRecOn with
  | ind n ih =>
    rw [Nat.toDigits_eq_if hbase]
    split
    · have hlt : n < 16 := by omega
      interval_cases n <;> decide
    · have hfront : 0 < n / base := Nat.div_pos (by omega) (by omega)
      rw [List.head?_append, Option.or_of_isSome (List.isSome_head?.2 Nat.toDigits_ne_nil)]
      exact ih (n / base) (Nat.div_lt_self hn hbase) hfront

/-- A number is written in its decimal digits. -/
theorem toList_toString (n : Nat) : (toString n).toList = Nat.toDigits 10 n := by
  rw [Nat.toString_eq_ofList_toDigits, String.toList_ofList]

/-- The decimal digits of a number are digits. -/
theorem isDigit_of_mem {n : Nat} {c : Char} (h : c ∈ Nat.toDigits 10 n) : c.isDigit = true :=
  Nat.isDigit_of_mem_toDigits (by decide) (by decide) h

end Numeral

namespace Hex

/-- A hexadecimal digit is read as the number that it is written for. -/
theorem digit?_digitChar {d : Nat} (h : d < 16) : digit? d.digitChar = some d := by
  interval_cases d <;> decide

/-- What a number below 16 is written as is a hexadecimal digit. -/
theorem isDigit_digitChar {d : Nat} (h : d < 16) : isDigit d.digitChar = true := by
  rw [isDigit, digit?_digitChar h]
  rfl

/-- One more digit makes a number sixteen times as large, and adds itself. -/
theorem value_append (front : List Char) (c : Char) : value (front ++ [c]) = 16 * value front + (digit? c).getD 0 := by
  simp [value, List.foldl_append]

/-- **The digits of a number** have its value. -/
theorem value_toDigits (n : Nat) : value (Nat.toDigits 16 n) = n := by
  induction n using Nat.strongRecOn with
  | ind n ih =>
    rw [Nat.toDigits_eq_if (by decide)]
    split
    · rename_i hlt
      simp [value, digit?_digitChar hlt]
    · rw [value_append, ih (n / 16) (by omega), digit?_digitChar (Nat.mod_lt n (by decide)), Option.getD_some]
      omega

/-- The hexadecimal digits of a number are hexadecimal digits. -/
theorem isDigit_of_mem_toDigits {n : Nat} {c : Char} (h : c ∈ Nat.toDigits 16 n) : isDigit c = true := by
  induction n using Nat.strongRecOn with
  | ind n ih =>
    rw [Nat.toDigits_eq_if (by decide)] at h
    split at h
    · rename_i hlt
      rw [List.mem_singleton.1 h]
      exact isDigit_digitChar hlt
    · rcases List.mem_append.1 h with h | h
      · exact ih (n / 16) (by omega) h
      · rw [List.mem_singleton.1 h]
        exact isDigit_digitChar (Nat.mod_lt n (by decide))

end Hex
end Cashpoint
