/-
# The product of the hash, on numbers and at a point

`Ghash.mul` adds shifted copies of a 128-bit word. Two readings of it are proved here.

On numbers it is a loop over the bits of one factor (`Ghash.toNat_mul`), which evaluates
quickly, and so does the repeated square (`Ghash.toNat_squares`).

At a point `x` of a ring of characteristic two, an element has the value of the
polynomial whose coefficients are its bits (`Ghash.value`). Where
`x^128 = x^7 + x^2 + x + 1`, the value of a product is the product of the values
(`Ghash.value_mul`).
-/

import Cashpoint.Cipher.Ghash
import Mathlib.Algebra.Algebra.Defs
import Mathlib.Algebra.Field.ZMod
import Mathlib.Tactic.Ring

namespace Cashpoint
namespace Ghash

/-! ## Coefficients -/

/-- An element has 128 coefficients. -/
@[simp] theorem length_coefficients (a : Element) : (coefficients a).length = 128 := List.length_ofFn

/-- The coefficients are the bits of the word, from the highest down. -/
theorem getElem_coefficients (a : Element) {i : ℕ} (h : i < (coefficients a).length) :
    (coefficients a)[i] = a.getMsbD i := List.getElem_ofFn ..

/-- Words are added coefficient by coefficient. -/
theorem coefficients_xor (a b : Element) :
    coefficients (a ^^^ b) = List.zipWith (· ^^ ·) (coefficients a) (coefficients b) := by
  refine List.ext_getElem (by simp) fun i h _ => ?_
  simp [getElem_coefficients]

/-- A shift drops the coefficient of `x^127` and puts a zero before the others. -/
theorem coefficients_shiftRight (a : Element) :
    coefficients (a >>> 1) ++ [a.getLsbD 0] = false :: coefficients a := by
  refine List.ext_getElem (by simp) fun i h _ => ?_
  rcases i with _ | i
  · simp [getElem_coefficients]
  · rw [List.length_append, length_coefficients, List.length_singleton] at h
    by_cases hi : i = 127
    · subst hi
      simp [getElem_coefficients, BitVec.getMsbD]
    · have hlt : i + 1 < 128 := by omega
      simp [getElem_coefficients, hlt]

/-- The word that `x^128` reduces to is `1 + x + x^2 + x^7`. -/
theorem coefficients_reduced :
    coefficients reduced = [true, true, true, false, false, false, false, true] ++ List.replicate 120 false := by
  decide

/-- The coefficients from that of `x^127` down are the bits of the number, from the lowest up. -/
theorem reverse_coefficients (a : Element) :
    (coefficients a).reverse = List.ofFn fun i : Fin 128 => a.toNat.testBit i := by
  refine List.ext_getElem (by rw [List.length_reverse, length_coefficients, List.length_ofFn]) fun i h _ => ?_
  rw [List.length_reverse, length_coefficients] at h
  have hback : 128 - 1 - (128 - 1 - i) = i := by omega
  rw [List.getElem_reverse, getElem_coefficients, List.getElem_ofFn, length_coefficients, BitVec.getMsbD,
    hback, decide_eq_true (by omega), Bool.true_and]
  rfl

/-! ## On numbers -/

/-- Multiplying by `x` shifts, and adds a constant if the lowest bit is set. -/
theorem timesX_eq (a : Element) : timesX a = (a >>> 1) ^^^ (if a.getLsbD 0 then reduced else 0) := by
  unfold timesX
  cases a.getLsbD 0 <;> simp

/-- **Multiplying by `x` is linear.** -/
theorem timesX_xor (a b : Element) : timesX (a ^^^ b) = timesX a ^^^ timesX b := by
  have hsum (p q : Bool) : (if p ^^ q then reduced else 0) =
      (if p then reduced else 0) ^^^ (if q then reduced else 0) := by
    cases p <;> cases q <;> rfl
  rw [timesX_eq, timesX_eq, timesX_eq, BitVec.ushiftRight_xor_distrib, BitVec.getLsbD_xor, hsum]
  ac_rfl

/-- The product with `x` can be taken before the shifts are added or after. -/
theorem sumOfShifts_timesX (bits : List Bool) (a : Element) :
    sumOfShifts bits (timesX a) = timesX (sumOfShifts bits a) := by
  have hzero : timesX 0 = 0 := by decide
  induction bits generalizing a with
  | nil => exact hzero.symm
  | cons bit rest ih =>
    rw [sumOfShifts, sumOfShifts, ih, timesX_xor]
    cases bit
    · rw [if_neg Bool.false_ne_true, if_neg Bool.false_ne_true, hzero]
    · rfl

/-- The sum of the shifts by Horner's rule. -/
theorem sumOfShifts_eq_foldr (bits : List Bool) (a : Element) :
    sumOfShifts bits a = bits.foldr (fun bit sum => timesX sum ^^^ if bit then a else 0) 0 := by
  induction bits with
  | nil => rfl
  | cons bit rest ih => rw [sumOfShifts, sumOfShifts_timesX, ih, List.foldr_cons, BitVec.xor_comm]

/-- Multiplying by `x`, on numbers. -/
theorem toNat_timesX (a : Element) :
    (timesX a).toNat = (a.toNat >>> 1) ^^^ (a.toNat % 2 * reduced.toNat) := by
  rw [timesX_eq, BitVec.toNat_xor, BitVec.toNat_ushiftRight, BitVec.getLsbD, Nat.testBit_zero]
  rcases Nat.mod_two_eq_zero_or_one a.toNat with h | h <;> simp [h]

/-- A number handed on. The case split makes an evaluation know the number before it goes on,
where a plain application would carry an ever longer sum along. -/
def force (n : ℕ) (next : ℕ → ℕ) : ℕ :=
  match n with
  | 0 => next 0
  | k + 1 => next (k + 1)

/-- A number handed on is the same number. -/
theorem force_eq (n : ℕ) (next : ℕ → ℕ) : force n next = next n := by
  cases n <;> rfl

/-- The product with `m` of the `count` lowest bits of `n`, by Horner's rule from `sum` on. -/
def productFrom (m : ℕ) : (count n sum : ℕ) → ℕ
  | 0, _, sum => sum
  | count + 1, n, sum =>
    force ((sum >>> 1) ^^^ (sum % 2 * 0xe1000000000000000000000000000000) ^^^ (n % 2 * m))
      (productFrom m count (n / 2))

/-- The loop on numbers does what Horner's rule does on words. -/
theorem productFrom_eq (b : Element) (count n : ℕ) (sum : Element) :
    productFrom b.toNat count n sum.toNat =
      ((List.ofFn fun i : Fin count => n.testBit i).foldl
        (fun sum bit => timesX sum ^^^ if bit then b else 0) sum).toNat := by
  induction count generalizing n sum with
  | zero => simp [productFrom]
  | succ count ih =>
    have hstep : (sum.toNat >>> 1) ^^^ (sum.toNat % 2 * 0xe1000000000000000000000000000000) ^^^ (n % 2 * b.toNat) =
        (timesX sum ^^^ if n.testBit 0 then b else 0).toNat := by
      rw [BitVec.toNat_xor, toNat_timesX, Nat.testBit_zero]
      rcases Nat.mod_two_eq_zero_or_one n with h | h <;> simp [h, reduced]
    rw [productFrom, force_eq, hstep, ih, List.ofFn_succ, List.foldl_cons]
    simp [Nat.testBit_succ]

/-- **The product of two elements, as a loop on numbers.** -/
theorem toNat_mul (a b : Element) : (mul a b).toNat = productFrom b.toNat 128 a.toNat 0 := by
  have h := productFrom_eq b 128 a.toNat 0
  rw [← reverse_coefficients, List.foldl_reverse] at h
  rw [mul, sumOfShifts_eq_foldr]
  exact h.symm

/-- An element times itself. -/
def square (a : Element) : Element := mul a a

/-- A number squared `count` times. -/
def squares : (count n : ℕ) → ℕ
  | 0, n => n
  | count + 1, n => force (productFrom n 128 n 0) (squares count)

/-- Squaring so many times, on numbers. -/
theorem toNat_squares (count : ℕ) (a : Element) : (square^[count] a).toNat = squares count a.toNat := by
  induction count generalizing a with
  | zero => rfl
  | succ count ih => rw [Function.iterate_succ_apply, ih, square, toNat_mul, squares, force_eq]

/-! ## At a point -/

section Value

variable {K : Type*} [CommRing K]

/-- The polynomial with the given coefficients, that of `1` first, at a point. -/
def eval (x : K) : List Bool → K
  | [] => 0
  | bit :: bits => (if bit then 1 else 0) + x * eval x bits

/-- An element as a polynomial, at a point. -/
def value (x : K) (a : Element) : K := eval x (coefficients a)

/-- Coefficients behind others are those of higher powers. -/
theorem eval_append (x : K) (l l' : List Bool) : eval x (l ++ l') = eval x l + x ^ l.length * eval x l' := by
  induction l with
  | nil => simp [eval]
  | cons bit rest ih =>
    simp only [List.cons_append, eval, ih, List.length_cons, pow_succ]
    ring

/-- Without coefficients the polynomial is zero. -/
theorem eval_replicate_false (x : K) (n : ℕ) : eval x (List.replicate n false) = 0 := by
  induction n with
  | zero => rfl
  | succ n ih => simp [List.replicate_succ, eval, ih]

/-- A homomorphism maps the value of a polynomial to that at the image of the point. -/
theorem map_eval {L : Type*} [CommRing L] (f : K →+* L) (x : K) (l : List Bool) :
    f (eval x l) = eval (f x) l := by
  induction l with
  | nil => simp [eval]
  | cons bit rest ih => cases bit <;> simp [eval, ih]

/-- So it does with the value of an element. -/
theorem map_value {L : Type*} [CommRing L] (f : K →+* L) (x : K) (a : Element) :
    f (value x a) = value (f x) a := map_eval f x (coefficients a)

/-- A word that starts with the given bits and goes on with zeros. -/
theorem value_of_coefficients {x : K} {a : Element} {bits : List Bool} {n : ℕ}
    (h : coefficients a = bits ++ List.replicate n false) : value x a = eval x bits := by
  rw [value, h, eval_append, eval_replicate_false, mul_zero, add_zero]

/-- The value of what `x^128` reduces to. -/
theorem value_reduced (x : K) : value x reduced = x ^ 7 + x ^ 2 + x + 1 := by
  rw [value_of_coefficients coefficients_reduced]
  simp only [eval, if_true, if_neg Bool.false_ne_true]
  ring

variable [Algebra (ZMod 2) K]

/-- Whatever is added to itself is zero. -/
theorem add_self (a : K) : a + a = 0 := by
  have h : (2 : K) = 0 := by
    rw [← map_ofNat (algebraMap (ZMod 2) K) 2]
    exact map_zero _
  rw [← two_mul, h, zero_mul]

/-- The sum of coefficients stands for the sum of the polynomials. -/
theorem eval_zipWith_xor (x : K) : ∀ {l l' : List Bool}, l.length = l'.length →
    eval x (List.zipWith (· ^^ ·) l l') = eval x l + eval x l'
  | [], [], _ => by simp [eval]
  | b :: l, b' :: l', h => by
    have ih := eval_zipWith_xor x (Nat.succ.inj h)
    have hbit : (if b ^^ b' then (1 : K) else 0) = (if b then 1 else 0) + (if b' then 1 else 0) := by
      cases b <;> cases b' <;> simp [add_self]
    rw [List.zipWith_cons_cons, eval, eval, eval, ih, hbit]
    ring

/-- The sum of words has the sum of their values. -/
theorem value_xor (x : K) (a b : Element) : value x (a ^^^ b) = value x a + value x b := by
  rw [value, coefficients_xor, eval_zipWith_xor x (by simp)]
  rfl

/-- The zero word has the value zero. -/
theorem value_zero (x : K) : value x 0 = 0 := by
  have h := value_xor x 0 0
  rwa [BitVec.xor_self, add_self] at h

/-- A word or zero, as a bit says, is the word times the bit. -/
theorem value_ite (x : K) (bit : Bool) (a : Element) :
    value x (if bit then a else 0) = (if bit then 1 else 0) * value x a := by
  cases bit
  · rw [if_neg Bool.false_ne_true, if_neg Bool.false_ne_true, value_zero, zero_mul]
  · rw [if_pos rfl, if_pos rfl, one_mul]

/-- The word for `x` times an element has the value that `x` and the element say. -/
theorem value_timesX {x : K} (hx : x ^ 128 = value x reduced) (a : Element) :
    value x (timesX a) = x * value x a := by
  have hshift := congrArg (eval x) (coefficients_shiftRight a)
  rw [eval_append, length_coefficients, hx] at hshift
  simp only [eval, mul_zero, add_zero, if_neg Bool.false_ne_true] at hshift
  rw [timesX_eq, value_xor, value_ite, mul_comm _ (value x reduced)]
  exact hshift.trans (zero_add _)

/-- The sum of shifts has the product of the values. -/
theorem value_sumOfShifts {x : K} (hx : x ^ 128 = value x reduced) (bits : List Bool) (a : Element) :
    value x (sumOfShifts bits a) = eval x bits * value x a := by
  induction bits generalizing a with
  | nil => rw [sumOfShifts, value_zero, eval, zero_mul]
  | cons bit rest ih =>
    rw [sumOfShifts, value_xor, value_ite, ih, value_timesX hx, eval]
    ring

/-- **At a root of the modulus the product of elements is the product of their values.** -/
theorem value_mul {x : K} (hx : x ^ 128 = value x reduced) (a b : Element) :
    value x (mul a b) = value x a * value x b := value_sumOfShifts hx (coefficients a) b

/-- Squaring so many times squares the value as many times. -/
theorem value_squares {x : K} (hx : x ^ 128 = value x reduced) (count : ℕ) (a : Element) :
    value x (square^[count] a) = value x a ^ 2 ^ count := by
  induction count generalizing a with
  | zero => rw [Function.iterate_zero, id, pow_zero, pow_one]
  | succ count ih =>
    rw [Function.iterate_succ_apply, ih, square, value_mul hx, ← pow_two, ← pow_mul, ← pow_succ']

end Value

end Ghash
end Cashpoint
