/-
# What changes the tag

Two texts that differ inside one block of sixteen bytes (`Altered`) are hashed as two lists
of elements that differ at one place (`DifferOnce`), and such lists have different hashes
under every key but zero: a step of the hash loses nothing, because a factor other than zero
can be cancelled (`Ghash.hash_ne`). So the tag changes with one block of the ciphertext or
of the associated data (`Gcm.tag_ne_of_ciphertext`, `Gcm.tag_ne_of_aad`). It changes with the
vector because a block cipher encrypts different counter blocks differently
(`Gcm.tag_ne_of_iv`).
-/

import Cashpoint.Cipher.Gcm
import Cashpoint.Proofs.Cipher.Field

namespace Cashpoint

/-! ## Texts changed between two positions -/

/-- Some bytes between two positions are replaced by different ones. -/
structure Altered (start stop : ℕ) (bytes altered : List UInt8) : Prop where
  length_eq : altered.length = bytes.length
  ne : altered ≠ bytes
  same : ∀ i, i < start ∨ stop ≤ i → altered[i]? = bytes[i]?

namespace Altered

variable {start stop n : ℕ} {bytes altered : List UInt8}

/-- There is something to change, and to change it to. -/
theorem ne_nil (h : Altered start stop bytes altered) : bytes ≠ [] ∧ altered ≠ [] := by
  constructor
  · rintro rfl
    exact h.ne (List.length_eq_zero_iff.1 h.length_eq)
  · rintro rfl
    exact h.ne (List.length_eq_zero_iff.1 h.length_eq.symm).symm

/-- What is altered between two positions is altered between two that lie further apart. -/
theorem mono {start' stop' : ℕ} (h : Altered start stop bytes altered) (hstart : start' ≤ start)
    (hstop : stop ≤ stop') : Altered start' stop' bytes altered where
  length_eq := h.length_eq
  ne := h.ne
  same i hi := h.same i (by omega)

/-- What stands before the first position is left as it is. -/
theorem take_eq (h : Altered start stop bytes altered) (hn : n ≤ start) : altered.take n = bytes.take n := by
  refine List.ext_getElem? fun i => ?_
  rw [List.getElem?_take, List.getElem?_take]
  by_cases hi : i < n
  · rw [if_pos hi, if_pos hi, h.same i (by omega)]
  · rw [if_neg hi, if_neg hi]

/-- What stands from the second position on is left as it is. -/
theorem drop_eq (h : Altered start stop bytes altered) (hn : stop ≤ n) : altered.drop n = bytes.drop n := by
  refine List.ext_getElem? fun i => ?_
  rw [List.getElem?_drop, List.getElem?_drop, h.same _ (by omega)]

/-- So is every stretch that ends before the first position. -/
theorem slice_eq {i : ℕ} (h : Altered start stop bytes altered) (hn : i + n ≤ start) :
    (altered.drop i).take n = (bytes.drop i).take n := by
  rw [List.take_drop, List.take_drop, h.take_eq hn]

/-- The alteration moves with the bytes that are taken off in front. -/
theorem drop (h : Altered (n + start) (n + stop) bytes altered) :
    Altered start stop (bytes.drop n) (altered.drop n) where
  length_eq := by rw [List.length_drop, List.length_drop, h.length_eq]
  ne hsame := h.ne (by
    rw [← List.take_append_drop n altered, ← List.take_append_drop n bytes, hsame,
      h.take_eq (Nat.le_add_right ..)])
  same i hi := by rw [List.getElem?_drop, List.getElem?_drop, h.same _ (by omega)]

/-- The alteration stays when bytes behind it are taken off. -/
theorem take (h : Altered start stop bytes altered) (hn : stop ≤ n) :
    Altered start stop (bytes.take n) (altered.take n) where
  length_eq := by rw [List.length_take, List.length_take, h.length_eq]
  ne hsame := h.ne (by
    rw [← List.take_append_drop n altered, ← List.take_append_drop n bytes, hsame, h.drop_eq hn])
  same i hi := by
    rw [List.getElem?_take, List.getElem?_take, h.same i hi]

/-- A byte changed is a text changed at the position of the byte. -/
theorem modify {mask : UInt8} {i : ℕ} (hi : i < bytes.length) (hmask : mask ≠ 0) :
    Altered i (i + 1) bytes (bytes.modify i (· ^^^ mask)) where
  length_eq := List.length_modify ..
  ne hsame := by
    have hbyte := congrArg (·[i]?) hsame
    rw [List.getElem?_modify_eq, List.getElem?_eq_getElem hi, Option.map_eq_map, Option.map_some,
      Option.some.injEq] at hbyte
    refine hmask ?_
    calc mask = bytes[i] ^^^ (bytes[i] ^^^ mask) := by
          rw [← UInt8.xor_assoc, UInt8.xor_self, UInt8.zero_xor]
      _ = 0 := by rw [hbyte, UInt8.xor_self]
  same j hj := List.getElem?_modify_ne _ _ (by omega)

end Altered

/-! ## Lists that differ at one place -/

/-- Two lists of one length, the same at every place but one. -/
inductive DifferOnce {α : Type} : List α → List α → Prop
  | head {a b : α} (h : a ≠ b) (rest : List α) : DifferOnce (a :: rest) (b :: rest)
  | tail (a : α) {l l' : List α} (h : DifferOnce l l') : DifferOnce (a :: l) (a :: l')

namespace DifferOnce

variable {α β : Type} {l l' : List α}

/-- Lists that differ once still do so with the same list behind them. -/
theorem append_right (h : DifferOnce l l') (after : List α) : DifferOnce (l ++ after) (l' ++ after) := by
  induction h with
  | head hne rest => exact .head hne (rest ++ after)
  | tail a _ ih => exact .tail a ih

/-- Lists that differ once still do so with the same list in front of them. -/
theorem append_left (h : DifferOnce l l') (before : List α) : DifferOnce (before ++ l) (before ++ l') := by
  induction before with
  | nil => exact h
  | cons a before ih => exact .tail a ih

/-- Lists that differ once still do so under a map that keeps different things different. -/
theorem map (h : DifferOnce l l') {f : α → β} (hf : ∀ {a b}, f a = f b → a = b) :
    DifferOnce (l.map f) (l'.map f) := by
  induction h with
  | head hne rest => exact .head (fun hsame => hne (hf hsame)) (rest.map f)
  | tail a _ ih => exact .tail (f a) ih

end DifferOnce

namespace Ghash

/-! ## The hash -/

/-- An element written as a block is read back. -/
theorem ofBlock_toBlock (a : Element) : ofBlock (toBlock a) = a := by
  have hcount : Bytes.count 16 = 2 ^ 128 := rfl
  apply BitVec.eq_of_toNat_eq
  rw [ofBlock, toBlock, ofBigEndian_bigEndian, BitVec.toNat_ofNat, hcount, Nat.mod_mod,
    Nat.mod_eq_of_lt a.isLt]

/-- Different elements are different blocks. -/
theorem toBlock_inj {a b : Element} (h : toBlock a = toBlock b) : a = b := by
  rw [← ofBlock_toBlock a, h, ofBlock_toBlock]

/-- Only the zero block stands for zero. -/
theorem ofBlock_ne_zero {block : Block} (h : block ≠ Bytes.zero 16) : ofBlock block ≠ 0 := by
  intro hzero
  have hblock : toBlock 0 = Bytes.zero 16 := by decide
  exact h (by rw [← hblock, ← hzero, toBlock_ofBlock])

variable {key : Element}

/-- Under a key other than zero, the rest of the hash tells sums apart. -/
theorem foldl_inj (hkey : key ≠ 0) (elements : List Element) {sum sum' : Element}
    (h : elements.foldl (fun sum a => mul (sum ^^^ a) key) sum =
      elements.foldl (fun sum a => mul (sum ^^^ a) key) sum') : sum = sum' := by
  induction elements generalizing sum sum' with
  | nil => exact h
  | cons a rest ih =>
    exact (BitVec.xor_left_inj a).1 (mul_right_cancel hkey (ih h))

/-- **Lists that differ at one place have different hashes.** -/
theorem hash_ne (hkey : key ≠ 0) {l l' : List Element} (h : DifferOnce l l') : hash key l ≠ hash key l' := by
  unfold hash
  generalize (0 : Element) = sum
  induction h generalizing sum with
  | head hne rest =>
    intro hsame
    exact hne ((BitVec.xor_right_inj sum).1 (mul_right_cancel hkey (foldl_inj hkey rest hsame)))
  | tail a _ ih => exact ih _

/-! ## The blocks of a text -/

/-- The bytes of the first block are those of the text, and zeros behind its end. -/
theorem getElem_firstBlock (bytes : List UInt8) {i : ℕ} (hi : i < 16) :
    (firstBlock bytes)[i] = bytes[i]?.getD 0 := by
  rw [firstBlock, Vector.getElem_ofFn, List.getD_eq_getElem?_getD]

/-- A text is cut into its first block and the blocks of the rest. -/
theorem blocks_of_ne_nil {bytes : List UInt8} (h : bytes ≠ []) :
    blocks bytes = firstBlock bytes :: blocks (bytes.drop 16) := by
  cases bytes with
  | nil => exact absurd rfl h
  | cons byte rest => rw [blocks, List.drop_succ_cons]

/-- A text changed inside its first sixteen bytes has another first block. -/
theorem firstBlock_ne {bytes altered : List UInt8} (h : Altered 0 16 bytes altered) :
    firstBlock bytes ≠ firstBlock altered := by
  intro hsame
  refine h.ne (List.ext_getElem h.length_eq fun i hi hi' => ?_)
  by_cases hfirst : i < 16
  · have hbyte := congrArg (·[i]) hsame
    simp only [getElem_firstBlock _ hfirst, List.getElem?_eq_getElem hi, List.getElem?_eq_getElem hi',
      Option.getD_some] at hbyte
    exact hbyte.symm
  · have hbyte := h.same i (.inr (by omega))
    rwa [List.getElem?_eq_getElem hi, List.getElem?_eq_getElem hi', Option.some.injEq] at hbyte

/-- **A text changed inside one block** is cut into the same blocks but for that one. -/
theorem differOnce_blocks {k : ℕ} {bytes altered : List UInt8}
    (h : Altered (16 * k) (16 * k + 16) bytes altered) : DifferOnce (blocks bytes) (blocks altered) := by
  induction k generalizing bytes altered with
  | zero =>
    rw [blocks_of_ne_nil h.ne_nil.1, blocks_of_ne_nil h.ne_nil.2, h.drop_eq (by omega)]
    exact .head (firstBlock_ne h) _
  | succ k ih =>
    have hfirst : firstBlock altered = firstBlock bytes := by
      refine Vector.ext fun i hi => ?_
      rw [getElem_firstBlock _ hi, getElem_firstBlock _ hi, h.same i (.inl (by omega))]
    have hrest : Altered (16 * k) (16 * k + 16) (bytes.drop 16) (altered.drop 16) :=
      Altered.drop (h.mono (by omega) (by omega))
    rw [blocks_of_ne_nil h.ne_nil.1, blocks_of_ne_nil h.ne_nil.2, hfirst]
    exact .tail _ (ih hrest)

/-- Associated data that differ inside one block, with the same ciphertext. -/
theorem differOnce_input_of_aad {k : ℕ} {aad aad' : List UInt8}
    (h : Altered (16 * k) (16 * k + 16) aad aad') (ciphertext : List UInt8) :
    DifferOnce (input aad ciphertext) (input aad' ciphertext) := by
  have hlengths : lengthBlock aad' ciphertext = lengthBlock aad ciphertext := by
    rw [lengthBlock, lengthBlock, h.length_eq]
  rw [input, input, hlengths]
  exact ((differOnce_blocks h).append_right _).append_right _

/-- Ciphertexts that differ inside one block, under the same associated data. -/
theorem differOnce_input_of_ciphertext {k : ℕ} {ciphertext ciphertext' : List UInt8} (aad : List UInt8)
    (h : Altered (16 * k) (16 * k + 16) ciphertext ciphertext') :
    DifferOnce (input aad ciphertext) (input aad ciphertext') := by
  have hlengths : lengthBlock aad ciphertext' = lengthBlock aad ciphertext := by
    rw [lengthBlock, lengthBlock, h.length_eq]
  rw [input, input, hlengths]
  exact ((differOnce_blocks h).append_left _).append_right _

end Ghash

namespace Gcm

/-! ## The tag -/

variable {cipher : BlockCipher} {iv iv' : Bytes 12} {aad aad' ciphertext ciphertext' : List UInt8}

/-- Different vectors have different counter blocks. -/
theorem counterBlock_inj {number : ℕ} (h : counterBlock iv number = counterBlock iv' number) : iv = iv' := by
  have hbytes := congrArg Vector.toList h
  simp only [counterBlock, Vector.toList_cast, Vector.toList_append] at hbytes
  exact Vector.toList_inj.1 (List.append_inj_left hbytes (by simp))

/-- **The tag changes with the vector.** -/
theorem tag_ne_of_iv (hcipher : ∀ {a b}, cipher a = cipher b → a = b) (h : iv ≠ iv') :
    tag cipher iv aad ciphertext ≠ tag cipher iv' aad ciphertext := by
  intro hsame
  exact h (counterBlock_inj (hcipher (Bytes.xor_left_inj hsame)))

/-- The tag changes with one hashed block. -/
theorem tag_ne_of_input (hkey : cipher (Bytes.zero 16) ≠ Bytes.zero 16)
    (h : DifferOnce (Ghash.input aad ciphertext) (Ghash.input aad' ciphertext')) :
    tag cipher iv aad ciphertext ≠ tag cipher iv aad' ciphertext' := by
  intro hsame
  have hhash := Ghash.toBlock_inj (Bytes.xor_right_inj hsame)
  exact Ghash.hash_ne (Ghash.ofBlock_ne_zero hkey) (h.map Ghash.ofBlock_inj) hhash

/-- **The tag changes with one block of the associated data.** -/
theorem tag_ne_of_aad (hkey : cipher (Bytes.zero 16) ≠ Bytes.zero 16) {k : ℕ}
    (h : Altered (16 * k) (16 * k + 16) aad aad') :
    tag cipher iv aad ciphertext ≠ tag cipher iv aad' ciphertext :=
  tag_ne_of_input hkey (Ghash.differOnce_input_of_aad h ciphertext)

/-- **The tag changes with one block of the ciphertext.** -/
theorem tag_ne_of_ciphertext (hkey : cipher (Bytes.zero 16) ≠ Bytes.zero 16) {k : ℕ}
    (h : Altered (16 * k) (16 * k + 16) ciphertext ciphertext') :
    tag cipher iv aad ciphertext ≠ tag cipher iv aad ciphertext' :=
  tag_ne_of_input hkey (Ghash.differOnce_input_of_ciphertext aad h)

end Gcm
end Cashpoint
