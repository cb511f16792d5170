import Mathlib.Algebra.CharP.Two
import Mathlib.Algebra.Field.ZMod
import Mathlib.RingTheory.AdjoinRoot

/-!
# Bit vectors as polynomials over the two-element field

A bit vector of width `w` denotes the polynomial of degree below `w` with its bits as
coefficients. The usual product of shifts and additions, reduced by a constant whenever a bit is
shifted out, computes the product of what its arguments denote modulo `X ^ w` plus the constant.
-/

namespace HorrorScope.Base.BinaryPoly

open Polynomial

variable {w : Nat}

/-- The polynomial a bit vector denotes. -/
noncomputable def toPoly (a : BitVec w) : (ZMod 2)[X] :=
  ∑ i ∈ Finset.range w, if a.getLsbD i then X ^ i else 0

/-- The bits are the coefficients. -/
theorem coeff_toPoly (a : BitVec w) (n : Nat) :
    (toPoly a).coeff n = if a.getLsbD n then 1 else 0 := by
  have hterm (i : Nat) : (if a.getLsbD i then (X : (ZMod 2)[X]) ^ i else 0).coeff n =
      if i = n then (if a.getLsbD n then 1 else 0) else 0 := by
    by_cases hi : i = n
    · subst hi
      cases a.getLsbD i <;> simp
    · cases a.getLsbD i <;> simp [hi, Ne.symm hi]
  rw [toPoly, finsetSum_coeff, Finset.sum_congr rfl fun i _ ↦ hterm i, Finset.sum_ite_eq']
  by_cases hn : n < w
  · rw [if_pos (Finset.mem_range.mpr hn)]
  · rw [if_neg fun h ↦ hn (Finset.mem_range.mp h), BitVec.getLsbD_of_ge _ _ (by omega)]
    rfl

/-- Different bit vectors denote different polynomials. -/
theorem toPoly_injective : Function.Injective (toPoly (w := w)) := by
  intro a b h
  apply BitVec.eq_of_getLsbD_eq
  intro i _
  have hi := congrArg (coeff · i) h
  simp only [coeff_toPoly] at hi
  cases ha : a.getLsbD i <;> cases hb : b.getLsbD i <;> simp_all

/-- The width bounds the degree. -/
theorem degree_toPoly_lt (a : BitVec w) : (toPoly a).degree < w := by
  rw [degree_lt_iff_coeff_zero]
  intro n hn
  rw [coeff_toPoly, BitVec.getLsbD_of_ge _ _ (by exact_mod_cast hn)]
  rfl

/-- Without bits there is no term. -/
@[simp] theorem toPoly_zero : toPoly (0#w) = 0 := by
  ext n
  simp [coeff_toPoly]

/-- The exclusive or is the sum. -/
theorem toPoly_xor (a b : BitVec w) : toPoly (a ^^^ b) = toPoly a + toPoly b := by
  ext n
  simp only [coeff_toPoly, coeff_add, BitVec.getLsbD_xor]
  cases a.getLsbD n <;> cases b.getLsbD n <;> decide

/-- A bit vector from its lowest bit and the others. -/
theorem toPoly_eq_add_X_mul (a : BitVec w) :
    toPoly a = (if a.getLsbD 0 then (1 : (ZMod 2)[X]) else 0) + X * toPoly (a >>> 1) := by
  ext n
  cases n with
  | zero => cases h : a.getLsbD 0 <;> simp [coeff_toPoly, h]
  | succ n =>
    have hone : (if a.getLsbD 0 then (1 : (ZMod 2)[X]) else 0).coeff (n + 1) = 0 := by
      split <;> simp [coeff_one]
    rw [coeff_add, hone, zero_add, coeff_X_mul, coeff_toPoly, coeff_toPoly,
      BitVec.getLsbD_ushiftRight, Nat.add_comm 1 n]

/-- Shifted to the left, a bit vector is multiplied by `X`, up to the bit that is lost. -/
theorem X_mul_toPoly (a : BitVec w) :
    X * toPoly a = toPoly (a <<< 1) + if a.msb then X ^ w else 0 := by
  have hmsb := BitVec.msb_eq_getLsbD_last a
  ext n
  have hlost : (if a.msb then (X : (ZMod 2)[X]) ^ w else 0).coeff n =
      if n = w ∧ a.msb then 1 else 0 := by
    cases a.msb <;> simp [coeff_X_pow]
  rw [coeff_add, hlost, coeff_toPoly, BitVec.getLsbD_shiftLeft]
  cases n with
  | zero =>
    rw [coeff_X_mul_zero, hmsb]
    rcases Nat.eq_zero_or_pos w with rfl | hw
    · simp
    · simp [hw.ne]
  | succ n =>
    rw [coeff_X_mul, coeff_toPoly, hmsb, Nat.add_sub_cancel]
    rcases Nat.lt_trichotomy (n + 1) w with hn | hn | hn
    · simp [hn, hn.ne]
    · subst hn
      simp
    · simp [BitVec.getLsbD_of_ge a n (by omega), hn.ne', Nat.not_lt.mpr hn.le]

/-! ### Residues -/

/-- `X ^ w` plus a polynomial of smaller degree. -/
noncomputable def modulus (r : BitVec w) : (ZMod 2)[X] := X ^ w + toPoly r

/-- The modulus is monic. -/
theorem monic_modulus (r : BitVec w) : (modulus r).Monic := monic_X_pow_add (degree_toPoly_lt r)

/-- The modulus has the width as its degree. -/
theorem degree_modulus (r : BitVec w) : (modulus r).degree = w := by
  rw [modulus, degree_add_eq_left_of_degree_lt, degree_X_pow]
  rw [degree_X_pow]
  exact degree_toPoly_lt r

/-- What a bit vector denotes modulo `modulus r`. -/
noncomputable def residue (r a : BitVec w) : AdjoinRoot (modulus r) :=
  AdjoinRoot.mk (modulus r) (toPoly a)

variable (r : BitVec w)

/-- Zero denotes zero. -/
theorem residue_zero : residue r 0#w = 0 := by rw [residue, toPoly_zero, map_zero]

/-- The exclusive or is the sum of the residues. -/
theorem residue_xor (a b : BitVec w) : residue r (a ^^^ b) = residue r a + residue r b := by
  rw [residue, toPoly_xor, map_add]
  rfl

/-- A bit vector denotes the class of a polynomial exactly if it is its remainder. -/
theorem residue_eq_mk_iff {a : BitVec w} {p : (ZMod 2)[X]} :
    residue r a = AdjoinRoot.mk (modulus r) p ↔ toPoly a = p %ₘ modulus r := by
  have hsmall : toPoly a %ₘ modulus r = toPoly a := by
    rw [modByMonic_eq_self_iff (monic_modulus r), degree_modulus]
    exact degree_toPoly_lt a
  rw [residue, AdjoinRoot.mk_eq_mk, ← modByMonic_eq_zero_iff_dvd (monic_modulus r), sub_modByMonic,
    hsmall, sub_eq_zero]

/-- Different bit vectors denote different residues. -/
theorem residue_injective : Function.Injective (residue r) := by
  intro a b h
  have ha := (residue_eq_mk_iff r (p := toPoly b)).mp h
  have hb := (residue_eq_mk_iff r (a := b) (p := toPoly b)).mp rfl
  exact toPoly_injective (ha.trans hb.symm)

/-! ### The product -/

/-- A bit vector shifted to the left, the constant added if a bit is lost. -/
def mulX (a : BitVec w) : BitVec w := if a.msb then (a <<< 1) ^^^ r else a <<< 1

/-- `mulX` multiplies by the root of the modulus. -/
theorem residue_mulX (a : BitVec w) :
    residue r (mulX r a) = AdjoinRoot.root (modulus r) * residue r a := by
  have hX : AdjoinRoot.root (modulus r) * residue r a =
      AdjoinRoot.mk (modulus r) (X * toPoly a) := by
    rw [map_mul]
    rfl
  rw [hX, X_mul_toPoly, mulX]
  split
  · -- the two differ by the modulus
    rw [residue, toPoly_xor, AdjoinRoot.mk_eq_mk]
    refine ⟨1, ?_⟩
    rw [modulus, mul_one, add_sub_add_left_eq_sub, sub_eq_add_neg, CharTwo.neg_eq, add_comm]
  · rw [add_zero]
    rfl

/-- The variables of the product. -/
structure Product (w : Nat) where
  p : BitVec w
  a : BitVec w
  b : BitVec w

/-- One bit of `b`. -/
def Product.step (v : Product w) : Product w where
  p := if v.b.getLsbD 0 then v.p ^^^ v.a else v.p
  a := mulX r v.a
  b := v.b >>> 1

/-- What is in `p` and what is still to be added to it. -/
noncomputable def Product.value (v : Product w) : AdjoinRoot (modulus r) :=
  residue r v.p + residue r v.a * residue r v.b

private theorem Product.value_step (v : Product w) : (v.step r).value r = v.value r := by
  have hb : residue r v.b =
      (if v.b.getLsbD 0 then (1 : AdjoinRoot (modulus r)) else 0) +
        AdjoinRoot.root (modulus r) * residue r (v.b >>> 1) := by
    rw [residue, toPoly_eq_add_X_mul, map_add, map_mul]
    congr 1
    split
    · exact map_one _
    · exact map_zero _
  have hp : residue r (v.step r).p = residue r v.p +
      residue r v.a * if v.b.getLsbD 0 then (1 : AdjoinRoot (modulus r)) else 0 := by
    rw [step]
    cases v.b.getLsbD 0
    · simp
    · simp [residue_xor]
  rw [value, value, hp, hb, show (v.step r).a = mulX r v.a from rfl, residue_mulX]
  change _ + _ * residue r (v.b >>> 1) = _
  ring

private theorem Product.value_iterate (v : Product w) (n : Nat) :
    ((step r)^[n] v).value r = v.value r := by
  induction n with
  | zero => rfl
  | succ n ih => rw [Function.iterate_succ_apply', value_step, ih]

private theorem Product.b_iterate (v : Product w) (n : Nat) : ((step r)^[n] v).b = v.b >>> n := by
  induction n with
  | zero => rfl
  | succ n ih =>
    rw [Function.iterate_succ_apply', BitVec.shiftRight_add, ← ih]
    rfl

/-- The product of shifts and additions, bit by bit of `b`. -/
def product (a b : BitVec w) : BitVec w := ((Product.step r)^[w] ⟨0#w, a, b⟩).p

/-- The loop computes the product of the residues. -/
theorem residue_product (a b : BitVec w) :
    residue r (product r a b) = residue r a * residue r b := by
  have hvalue := Product.value_iterate r ⟨0#w, a, b⟩ w
  have hb : ((Product.step r)^[w] ⟨0#w, a, b⟩).b = 0#w := by
    rw [Product.b_iterate]
    exact BitVec.ushiftRight_eq_zero (Nat.le_refl w)
  rw [Product.value, Product.value, hb, residue_zero, mul_zero, add_zero, zero_add] at hvalue
  exact hvalue

/-- It denotes the product of the polynomials, reduced. -/
theorem toPoly_product (a b : BitVec w) :
    toPoly (product r a b) = (toPoly a * toPoly b) %ₘ modulus r := by
  rw [← residue_eq_mk_iff, residue_product, map_mul]
  rfl

end HorrorScope.Base.BinaryPoly
