/-
# AES permutes blocks

Under a fixed key, different blocks are encrypted differently (`encrypt_inj`), because
no layer of a round makes two blocks equal. The substitution table repeats no byte, and
`shiftRows` moves position `5 i` to `i`, which `13 i` undoes modulo 16. Mixing the
columns four times is the identity: twice is `4 x² + 5` in the ring of columns, and in
characteristic two the square of that is 1 (`mixed_mixed`).
-/

import Cashpoint.Cipher.Aes

namespace Cashpoint
namespace Aes

/-! ## Bytes -/

/-- Where a byte stands in the substitution table. -/
def position (b : UInt8) : Nat := substitution.toList.findIdx fun entry => Nat.beq entry.toNat b.toNat

/-- Every entry of the table stands where it is found first. -/
theorem position_entry :
    (substitution.toList.zipIdx.all fun entry => Nat.beq (position entry.1) entry.2) = true := by
  decide +kernel

/-- A byte is found at the position that it is the number of. -/
theorem position_substitute (b : UInt8) : position (substitute b) = b.toNat := by
  have hb : b.toNat < substitution.toList.length := by simpa using b.toNat_lt
  have hmem : (substitution.toList[b.toNat], b.toNat) ∈ substitution.toList.zipIdx :=
    List.mem_zipIdx_iff_getElem?.2 (List.getElem?_eq_getElem hb)
  have hentry : substitution.toList[b.toNat] = substitute b := by simp [substitute, Vector.get]
  rw [← hentry]
  exact Nat.eq_of_beq_eq_true (List.all_eq_true.1 position_entry _ hmem)

/-- Different bytes are replaced by different ones. -/
theorem substitute_inj {a b : UInt8} (h : substitute a = substitute b) : a = b := by
  apply UInt8.toNat_inj.1
  rw [← position_substitute a, h, position_substitute]

/-- Multiplying by `x` shifts, and adds a constant if the highest bit is set. -/
theorem toBitVec_timesX (b : UInt8) :
    (timesX b).toBitVec = (b.toBitVec <<< 1) ^^^ (if b.toBitVec.msb then 0x1b#8 else 0#8) := by
  have hmsb : b.toBitVec.msb = decide (128 ≤ b.toNat) := by
    rw [BitVec.msb_eq_decide]
    rfl
  unfold timesX
  by_cases hb : b < 0x80
  · have h : b.toBitVec.msb = false := by
      rw [hmsb, decide_eq_false_iff_not, Nat.not_le]
      exact UInt8.lt_iff_toNat_lt.1 hb
    rw [if_pos hb, h]
    simp [UInt8.toBitVec_shiftLeft]
  · have h : b.toBitVec.msb = true := by
      rw [hmsb, decide_eq_true_iff]
      exact Nat.not_lt.1 fun hlt => hb (UInt8.lt_iff_toNat_lt.2 hlt)
    rw [if_neg hb, h]
    simp [UInt8.toBitVec_shiftLeft]

/-- **Multiplying by `x` is linear.** -/
theorem timesX_xor (a b : UInt8) : timesX (a ^^^ b) = timesX a ^^^ timesX b := by
  apply UInt8.toBitVec_inj.1
  simp only [UInt8.toBitVec_xor, toBitVec_timesX, BitVec.shiftLeft_xor_distrib, BitVec.msb_xor]
  generalize a.toBitVec <<< 1 = x
  generalize b.toBitVec <<< 1 = y
  have hcancel : (27#8 : BitVec 8) ^^^ 27#8 = 0#8 := by decide
  cases a.toBitVec.msb with
  | false =>
    cases b.toBitVec.msb with
    | false => simp
    | true => simp [BitVec.xor_assoc]
  | true =>
    cases b.toBitVec.msb with
    | false =>
      simp
      ac_rfl
    | true =>
      calc x ^^^ y ^^^ 0#8 = x ^^^ y ^^^ (27#8 ^^^ 27#8) := by rw [hcancel]
        _ = x ^^^ 27#8 ^^^ (y ^^^ 27#8) := by ac_rfl

/-! ## Columns -/

/-- A byte that is added twice is gone. -/
theorem xor_cancel (a b : UInt8) : a ^^^ (a ^^^ b) = b := by
  rw [← UInt8.xor_assoc, UInt8.xor_self, UInt8.zero_xor]

/-- The order of what is added makes no difference. -/
theorem xor_left_comm (a b c : UInt8) : a ^^^ (b ^^^ c) = b ^^^ (a ^^^ c) := by
  rw [← UInt8.xor_assoc, UInt8.xor_comm a b, UInt8.xor_assoc]

/-- Byte `k` of a column that is mixed, for a column that repeats after four bytes. -/
def mixed (column : Nat → UInt8) (k : Nat) : UInt8 :=
  timesX (column k) ^^^ (timesX (column (k + 1)) ^^^ column (k + 1)) ^^^ column (k + 2) ^^^ column (k + 3)

/-- Mixing twice leaves nothing of the two neighbours. -/
theorem mixed_mixed {column : Nat → UInt8} (h : ∀ k, column (k + 4) = column k) (k : Nat) :
    mixed (mixed column) k = timesX (timesX (column k ^^^ column (k + 2))) ^^^ column k := by
  have h₄ := h k
  have h₅ := h (k + 1)
  have h₆ := h (k + 2)
  simp only [mixed, timesX_xor, Nat.add_assoc, Nat.reduceAdd] at *
  rw [h₄, h₅, h₆]
  generalize column k = a, column (k + 1) = b, column (k + 2) = c, column (k + 3) = d
  generalize timesX a = ta, timesX b = tb, timesX c = tc, timesX d = td
  simp only [UInt8.xor_assoc, xor_left_comm, UInt8.xor_comm, xor_cancel]

/-- The position of a byte of a column is one in the block. -/
theorem position_lt (c k : Nat) : (4 * c + k % 4) % 16 < 16 := Nat.mod_lt _ (Nat.succ_pos 15)

/-- Byte `k` of a column, repeated after four bytes. -/
def columnOf (s : Block) (c k : Nat) : UInt8 := s.get ⟨(4 * c + k % 4) % 16, position_lt c k⟩

/-- A byte of a column is the one at its position in the block. -/
theorem columnOf_eq (s : Block) {c k i : Nat} (hi : i < 16) (h : (4 * c + k % 4) % 16 = i) :
    columnOf s c k = s[i] := by
  subst h
  rfl

/-- A column repeats after four bytes. -/
theorem columnOf_add_four (s : Block) (c k : Nat) : columnOf s c (k + 4) = columnOf s c k := by
  simp only [columnOf, Nat.add_mod_right]

/-- A mixed column repeats after four bytes as well. -/
theorem mixed_columnOf_mod (s : Block) (c k : Nat) :
    mixed (columnOf s c) (k % 4) = mixed (columnOf s c) k := by
  have hmod (j : Nat) : columnOf s c (k % 4 + j) = columnOf s c (k + j) := by
    simp only [columnOf, Nat.mod_add_mod]
  have hzero : columnOf s c (k % 4) = columnOf s c k := hmod 0
  simp only [mixed, hmod, hzero]

/-- Mixing the columns of a block mixes each of them. -/
theorem columnOf_mixColumns (s : Block) {c : Nat} (hc : c < 4) :
    columnOf (mixColumns s) c = mixed (columnOf s c) := by
  funext k
  have hk : k % 4 < 4 := Nat.mod_lt _ (by decide)
  have hi : 4 * c + k % 4 < 16 := by omega
  have hcolumn : (4 * c + k % 4) / 4 = c := by omega
  have hrow : (4 * c + k % 4) % 4 = k % 4 := by omega
  calc columnOf (mixColumns s) c k
      = (mixColumns s)[4 * c + k % 4] := columnOf_eq _ hi (Nat.mod_eq_of_lt hi)
    _ = mixedByte s ((4 * c + k % 4) / 4) ((4 * c + k % 4) % 4) := Vector.getElem_ofFn ..
    _ = mixedByte s c (k % 4) := by rw [hcolumn, hrow]
    _ = mixed (columnOf s c) (k % 4) := rfl
    _ = mixed (columnOf s c) k := mixed_columnOf_mod s c k

/-- A block is its columns. -/
theorem eq_of_columnOf {a b : Block} (h : ∀ c, c < 4 → columnOf a c = columnOf b c) : a = b := by
  refine Vector.ext fun i hi => ?_
  have hbyte (s : Block) : columnOf s (i / 4) (i % 4) = s[i] := columnOf_eq s hi (by omega)
  rw [← hbyte a, ← hbyte b, h (i / 4) (by omega)]

/-- **Mixing four times is the identity.** -/
theorem mixColumns_four (s : Block) : mixColumns (mixColumns (mixColumns (mixColumns s))) = s := by
  refine eq_of_columnOf fun c hc => ?_
  have hfour := columnOf_add_four s c
  simp only [columnOf_mixColumns _ hc]
  funext k
  have hsum : mixed (mixed (columnOf s c)) k ^^^ mixed (mixed (columnOf s c)) (k + 2) =
      columnOf s c k ^^^ columnOf s c (k + 2) := by
    -- both bytes carry the same multiple of `x²`, which cancels
    have hcomm : columnOf s c (k + 2) ^^^ columnOf s c (k + 2 + 2) =
        columnOf s c k ^^^ columnOf s c (k + 2) := by
      rw [Nat.add_assoc k 2 2, hfour, UInt8.xor_comm]
    rw [mixed_mixed hfour, mixed_mixed hfour, hcomm, UInt8.xor_assoc, xor_left_comm (columnOf s c k),
      xor_cancel]
  have htwice (k : Nat) : mixed (mixed (columnOf s c)) (k + 4) = mixed (mixed (columnOf s c)) k := by
    have hsix : columnOf s c (k + 4 + 2) = columnOf s c (k + 2) := by
      rw [Nat.add_right_comm, hfour]
    rw [mixed_mixed hfour, mixed_mixed hfour, hfour, hsix]
  rw [mixed_mixed htwice, hsum, mixed_mixed hfour, xor_cancel]

/-! ## The layers -/

/-- Different blocks are different when they are mixed. -/
theorem mixColumns_inj {a b : Block} (h : mixColumns a = mixColumns b) : a = b := by
  rw [← mixColumns_four a, h, mixColumns_four]

/-- Different blocks are different when their bytes are replaced. -/
theorem subBytes_inj {a b : Block} (h : subBytes a = subBytes b) : a = b := by
  refine Vector.ext fun i hi => ?_
  have hbyte := congrArg (fun s : Block => s[i]) h
  simp only [subBytes, Vector.getElem_map] at hbyte
  rw [substitute_inj hbyte]

/-- Different blocks are different when their rows are shifted. -/
theorem shiftRows_inj {a b : Block} (h : shiftRows a = shiftRows b) : a = b := by
  refine Vector.ext fun i hi => ?_
  have hback : 5 * (13 * i % 16) % 16 = i := by omega
  have hj : 13 * i % 16 < 16 := Nat.mod_lt _ (by decide)
  have hbyte := congrArg (fun s : Block => s[13 * i % 16]) h
  simpa [shiftRows, Vector.get, hback] using hbyte

/-- Different blocks are different when a round key is added. -/
theorem addRoundKey_inj {key a b : Block} (h : addRoundKey key a = addRoundKey key b) : a = b :=
  Bytes.xor_right_inj h

/-- The last round takes different blocks to different ones. -/
theorem finalRound_inj {key a b : Block} (h : finalRound key a = finalRound key b) : a = b :=
  subBytes_inj (shiftRows_inj (addRoundKey_inj h))

/-- So does every other round. -/
theorem round_inj {key a b : Block} (h : round key a = round key b) : a = b :=
  subBytes_inj (shiftRows_inj (mixColumns_inj (addRoundKey_inj h)))

/-- So do all rounds together. -/
theorem rounds_inj {keys : List Block} {a b : Block} (h : rounds keys a = rounds keys b) : a = b := by
  induction keys generalizing a b with
  | nil => exact h
  | cons key rest ih =>
    cases rest with
    | nil => exact finalRound_inj h
    | cons next rest => exact round_inj (ih h)

/-- **Different blocks are encrypted differently.** -/
theorem encrypt_inj {key : Bytes 32} {a b : Block} (h : encrypt key a = encrypt key b) : a = b :=
  addRoundKey_inj (rounds_inj h)

end Aes
end Cashpoint
