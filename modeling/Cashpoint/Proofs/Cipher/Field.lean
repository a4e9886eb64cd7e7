/-
# The elements of the hash form a field

`x^128 + x^7 + x^2 + x + 1` is irreducible over the field of two elements
(`Ghash.irreducible_modulus`). The words of 128 bits with the product of the hash are the
polynomials modulo it, so a factor other than zero can be cancelled
(`Ghash.mul_right_cancel`).

Irreducible: for a degree that is a power of two, it is enough that a root, in whatever
field, comes back to itself after as many squarings as the degree, and not after half as
many (`irreducible_of_squares`). Both are two runs of 64 squarings of words. That `x` has
moved after the first run is seen from an inverse of the difference.
-/

import Cashpoint.Proofs.Cipher.Product
import Mathlib.FieldTheory.Finite.Basic
import Mathlib.RingTheory.AdjoinRoot
import Mathlib.Tactic.ComputeDegree
import Mathlib.Tactic.LinearCombination

namespace Cashpoint

open Polynomial

/-- **A test for irreducible polynomials** over the field of two elements, for a degree that
is a power of two: every root, in whatever field, is left as it is by squaring as often as the
degree says, and moved by half of that. -/
theorem irreducible_of_squares {f : (ZMod 2)[X]} {k : ℕ} (hdegree : f.natDegree = 2 ^ (k + 1))
    (hroots : ∀ (K : Type) [Field K] [Algebra (ZMod 2) K] (x : K), aeval x f = 0 →
      x ^ 2 ^ 2 ^ (k + 1) = x ∧ x ^ 2 ^ 2 ^ k ≠ x) : Irreducible f := by
  have hpos : 0 < f.natDegree := hdegree ▸ Nat.two_pow_pos (k + 1)
  have hne : f ≠ 0 := ne_zero_of_natDegree_gt hpos
  obtain ⟨g, hg, hdvd⟩ := WfDvdMonoid.exists_irreducible_factor
    (fun hunit => hpos.ne' (natDegree_eq_zero_of_isUnit hunit)) hne
  -- the field that a root of the factor generates, and the squaring map on it
  have : Fact (Irreducible g) := ⟨hg⟩
  have : FiniteDimensional (ZMod 2) (AdjoinRoot g) := (AdjoinRoot.powerBasis hg.ne_zero).finite
  have : Finite (AdjoinRoot g) := Module.finite_of_finite (ZMod 2)
  let square := FiniteField.frobeniusAlgHom (ZMod 2) (AdjoinRoot g)
  have hsquare (n : ℕ) (y : AdjoinRoot g) : (square ^ n) y = y ^ 2 ^ n := by
    rw [AlgHom.coe_pow, FiniteField.coe_frobeniusAlgHom, pow_iterate, ZMod.card]
  have horder : orderOf square = g.natDegree := by
    rw [FiniteField.orderOf_frobeniusAlgHom, (AdjoinRoot.powerBasis hg.ne_zero).finrank,
      AdjoinRoot.powerBasis_dim]
  obtain ⟨hback, hmoved⟩ := hroots (AdjoinRoot g) (AdjoinRoot.root g) (by
    rw [AdjoinRoot.aeval_eq, AdjoinRoot.mk_eq_zero]
    exact hdvd)
  have hall : square ^ 2 ^ (k + 1) = 1 := AdjoinRoot.algHom_ext (by rw [hsquare, hback, AlgHom.one_apply])
  -- the degree of the factor divides that of `f`, and no smaller power of two will do
  obtain ⟨j, hj, hgj⟩ := (Nat.dvd_prime_pow Nat.prime_two).1 (horder ▸ orderOf_dvd_of_pow_eq_one hall)
  have hjk : j = k + 1 := by
    by_contra hlt
    have hhalf : square ^ 2 ^ k = 1 := by
      rw [← orderOf_dvd_iff_pow_eq_one, horder, hgj]
      exact pow_dvd_pow 2 (by omega)
    exact hmoved (by rw [← hsquare, hhalf, AlgHom.one_apply])
  have hsame : Associated g f := associated_of_dvd_of_natDegree_le hdvd hne (by rw [hdegree, hgj, hjk])
  exact hsame.irreducible hg

namespace Ghash

/-! ## The modulus -/

/-- The polynomial by which the product of the hash reduces. Irreducible for the elaborator too,
which would otherwise multiply the power out. -/
@[irreducible] noncomputable def modulus : (ZMod 2)[X] := X ^ 128 + (X ^ 7 + X ^ 2 + X + 1)

/-- The modulus has the degree 128. -/
theorem natDegree_modulus : modulus.natDegree = 128 := by
  unfold modulus
  compute_degree!

/-- The modulus at a point, with its powers written out. -/
theorem aeval_modulus {K : Type*} [CommRing K] [Algebra (ZMod 2) K] (x : K) :
    aeval x modulus = x ^ 128 + (x ^ 7 + x ^ 2 + x + 1) := by
  unfold modulus
  simp only [map_add, map_pow, map_one, aeval_X]

/-- At a root of the modulus, `x^128` is what the hash reduces it to. -/
theorem pow_eq_of_root {K : Type*} [CommRing K] [Algebra (ZMod 2) K] {x : K} (h : aeval x modulus = 0) :
    x ^ 128 = value x reduced := by
  have hsum : x ^ 128 + value x reduced = 0 := by rw [value_reduced, ← aeval_modulus, h]
  linear_combination hsum - add_self (value x reduced)

/-- The element `x`. -/
def generator : Element := 0x40000000000000000000000000000000#128

/-- The element `1`. -/
def unit : Element := 0x80000000000000000000000000000000#128

/-- The element `x` squared 64 times. -/
def half : Element := 0x6f9945a9e519a7229d4c1ad657f8a686#128

/-- The element `x` has the value `x`. -/
theorem value_generator {K : Type*} [CommRing K] (x : K) : value x generator = x := by
  have h : coefficients generator = [false, true] ++ List.replicate 126 false := by decide
  rw [value_of_coefficients h]
  simp [eval]

/-- The element `1` has the value `1`. -/
theorem value_unit {K : Type*} [CommRing K] (x : K) : value x unit = 1 := by
  have h : coefficients unit = [true] ++ List.replicate 127 false := by decide
  rw [value_of_coefficients h]
  simp [eval]

/-- Squaring `x` 64 times gives `half`. -/
theorem squares_generator : square^[64] generator = half := by
  apply BitVec.eq_of_toNat_eq
  rw [toNat_squares]
  apply Nat.eq_of_beq_eq_true
  decide +kernel

/-- Squaring `half` 64 times gives `x` back. -/
theorem squares_half : square^[64] half = generator := by
  apply BitVec.eq_of_toNat_eq
  rw [toNat_squares]
  apply Nat.eq_of_beq_eq_true
  decide +kernel

/-- The element `x` and what 64 squarings make of it differ by an element with an inverse. -/
theorem mul_inverse : mul 0x180da934bf53158251c13dbb149f5279#128 (half ^^^ generator) = unit := by
  apply BitVec.eq_of_toNat_eq
  rw [toNat_mul]
  apply Nat.eq_of_beq_eq_true
  decide +kernel

/-- **The modulus is irreducible.** -/
theorem irreducible_modulus : Irreducible modulus := by
  refine irreducible_of_squares (k := 6) natDegree_modulus fun K _ _ x hroot => ?_
  have hx := pow_eq_of_root hroot
  have hhalf : value x half = x ^ 2 ^ 64 := by
    rw [← squares_generator, value_squares hx, value_generator]
  have hback : x = (x ^ 2 ^ 64) ^ 2 ^ 64 := by
    rw [← hhalf, ← value_squares hx, squares_half, value_generator]
  constructor
  · rw [← pow_mul, ← pow_add] at hback
    exact hback.symm
  · intro hmoved
    have hinverse := congrArg (value x) mul_inverse
    rw [value_mul hx, value_xor, value_generator, value_unit, hhalf.trans hmoved, add_self, mul_zero] at hinverse
    exact zero_ne_one hinverse

/-! ## Cancellation -/

instance : Fact (Irreducible modulus) := ⟨irreducible_modulus⟩

/-- An element in the field of polynomials modulo `modulus`. -/
noncomputable def residue (a : Element) : AdjoinRoot modulus := value (AdjoinRoot.root modulus) a

/-- The product of elements is the product in the field. -/
theorem residue_mul (a b : Element) : residue (mul a b) = residue a * residue b :=
  value_mul (pow_eq_of_root (by rw [AdjoinRoot.aeval_eq, AdjoinRoot.mk_self])) a b

/-- The coefficients of the polynomial are those it was given by. -/
theorem coeff_eval (l : List Bool) (i : ℕ) :
    (eval (X : (ZMod 2)[X]) l).coeff i = if l[i]? = some true then 1 else 0 := by
  induction l generalizing i with
  | nil => simp [eval]
  | cons bit rest ih =>
    cases i with
    | zero => cases bit <;> simp [eval]
    | succ i => cases bit <;> simp [eval, ih, coeff_one]

/-- The degree of the polynomial is below the number of coefficients. -/
theorem degree_eval_lt (l : List Bool) : (eval (X : (ZMod 2)[X]) l).degree < l.length := by
  rw [degree_lt_iff_coeff_zero]
  intro i hi
  rw [coeff_eval, List.getElem?_eq_none hi, if_neg (Option.some_ne_none true).symm]

/-- A polynomial with the coefficients of a word is too short to be a multiple of the modulus. -/
theorem eq_zero_of_residue {a : Element} (h : residue a = 0) : a = 0#128 := by
  rw [residue, ← AdjoinRoot.mk_X, ← map_value, AdjoinRoot.mk_eq_zero] at h
  have hdegree : (value (X : (ZMod 2)[X]) a).degree < modulus.degree := by
    rw [degree_eq_natDegree irreducible_modulus.ne_zero, natDegree_modulus]
    exact lt_of_lt_of_eq (degree_eval_lt _) (congrArg Nat.cast (length_coefficients a))
  have hzero := eq_zero_of_dvd_of_degree_lt h hdegree
  apply BitVec.eq_of_getMsbD_eq
  intro i hi
  have hi' : i < (coefficients a).length := hi.trans_eq (length_coefficients a).symm
  have hcoeff := coeff_eval (coefficients a) i
  rw [← value, hzero, coeff_zero, List.getElem?_eq_getElem hi', getElem_coefficients] at hcoeff
  rw [BitVec.getMsbD_zero]
  cases hbit : a.getMsbD i with
  | false => rfl
  | true => simp [hbit] at hcoeff

/-- Different elements are different in the field. -/
theorem residue_inj {a b : Element} (h : residue a = residue b) : a = b := by
  have hsum : residue (a ^^^ b) = 0 := by
    have hxor : residue (a ^^^ b) = residue a + residue b := value_xor _ a b
    rw [hxor, h, add_self]
  exact BitVec.xor_eq_zero_iff.1 (eq_zero_of_residue hsum)

/-- **A factor other than zero can be cancelled.** -/
theorem mul_right_cancel {a b key : Element} (hkey : key ≠ 0) (h : mul a key = mul b key) : a = b := by
  have hproduct := congrArg residue h
  rw [residue_mul, residue_mul] at hproduct
  exact residue_inj (mul_right_cancel₀ (fun hzero => hkey (eq_zero_of_residue hzero)) hproduct)

end Ghash
end Cashpoint
