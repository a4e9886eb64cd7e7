/-
# Request sequence numbers

A `Sequencer` issues the vectors of an ATM's requests: four bytes chosen at random
when it is made, and a sequence number that grows by one with each vector. A number
is never issued twice and never wraps: after `2^64 - 1` no vector is left.

A sequencer that starts at the current time in microseconds stays above every
number that an earlier one, started before it, can have reached.
-/

import Cashpoint.Frame

namespace Cashpoint

/-- The last sequence number there is, `2^64 - 1`. -/
def lastSequence : Nat := 18446744073709551615

/-- The last number is the largest that fits into eight bytes. -/
theorem lastSequence_succ : lastSequence + 1 = Bytes.count 8 := rfl

/-- The prefix of all vectors, and the number of the last one. -/
structure Sequencer where
  /-- The first four bytes of every vector. -/
  start : Bytes 4
  /-- The sequence number issued last. -/
  last : Nat
  last_le : last ≤ lastSequence := by decide

namespace Sequencer

/-- The vector of a sequence number. -/
def vector (start : Bytes 4) (sequence : Nat) : Bytes 12 := start ++ bigEndian 8 sequence

/-- The next vector, and the sequencer that has issued it. -/
def next (s : Sequencer) : Except Error (Bytes 12 × Sequencer) :=
  if h : s.last < lastSequence then
    .ok (vector s.start (s.last + 1), { s with last := s.last + 1, last_le := h })
  else
    .error (.frame .sequenceExhausted)

/-- A sequencer whose first vector carries the number after the given time. A time that is no
64-bit number counts as zero. -/
def atTime (start : Bytes 4) (microseconds : Nat) : Sequencer :=
  if h : microseconds ≤ lastSequence then
    { start, last := microseconds, last_le := h }
  else
    { start, last := 0 }

/-- The number of a vector is read back from it. -/
theorem ofBigEndian_drop_vector {start : Bytes 4} {sequence : Nat} (h : sequence ≤ lastSequence) :
    ofBigEndian ((vector start sequence).toList.drop 4) = sequence := by
  have hs : start.toList.length = 4 := by simp
  have hd : (vector start sequence).toList.drop 4 = (bigEndian 8 sequence).toList := by
    rw [vector, Vector.toList_append, List.drop_append_of_le_length (by omega),
      List.drop_of_length_le (by omega)]
    rfl
  rw [hd, ofBigEndian_bigEndian, Nat.mod_eq_of_lt]
  rw [← lastSequence_succ]
  omega

/-- The number in a vector can be read back. -/
theorem sequence_of_iv {frame : Frame} {start : Bytes 4} {n : Nat} (h : frame.iv = vector start n)
    (hn : n ≤ lastSequence) : frame.sequence = n := by
  rw [Frame.sequence, h, ofBigEndian_drop_vector hn]

end Sequencer
end Cashpoint
