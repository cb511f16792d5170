import HorrorScope.Base.BinaryPoly
import HorrorScope.Base.Bits

/-!
# Arithmetic of `aes.c`

The bytes of `src/toe-arduino/sketch_slowAes/aes.c:10-71` with exclusive or and `gmult` are the
polynomials over the two-element field modulo `x ^ 8 + x ^ 4 + x ^ 3 + x + 1`, and words with
`coef_add` and `coef_mult` are the polynomials over those modulo `x ^ 4 + 1`.
-/

namespace HorrorScope.Aes

open HorrorScope.Base Polynomial

/-- The variables of `gmult`. -/
structure Gmult where
  p : UInt8
  a : UInt8
  b : UInt8

/-- The body of the loop in `gmult` (`aes.c:36-43`). -/
def Gmult.step (v : Gmult) : Gmult :=
  let p := if v.b &&& 1 ≠ 0 then v.p ^^^ v.a else v.p
  let hbs := v.a &&& 0x80
  let a := v.a <<< 1
  ⟨p, if hbs ≠ 0 then a ^^^ 0x1b else a, v.b >>> 1⟩

/-- `gmult` (`aes.c:31`). -/
def gmult (a b : UInt8) : UInt8 := (Gmult.step^[8] ⟨0, a, b⟩).p

/-- A word of four bytes. -/
abbrev Word := List.Vector UInt8 4

/-- The indices of a word are not empty. -/
scoped instance neZero_four : NeZero 4 := ⟨by decide⟩

/-- `coef_add` (`aes.c:53`). -/
def coefAdd (a b : Word) : Word :=
  ⟨[a.get 0 ^^^ b.get 0, a.get 1 ^^^ b.get 1, a.get 2 ^^^ b.get 2, a.get 3 ^^^ b.get 3], rfl⟩

/-- `coef_mult` (`aes.c:65`). -/
def coefMult (a b : Word) : Word :=
  ⟨[gmult (a.get 0) (b.get 0) ^^^ gmult (a.get 3) (b.get 1) ^^^ gmult (a.get 2) (b.get 2) ^^^
      gmult (a.get 1) (b.get 3),
    gmult (a.get 1) (b.get 0) ^^^ gmult (a.get 0) (b.get 1) ^^^ gmult (a.get 3) (b.get 2) ^^^
      gmult (a.get 2) (b.get 3),
    gmult (a.get 2) (b.get 0) ^^^ gmult (a.get 1) (b.get 1) ^^^ gmult (a.get 0) (b.get 2) ^^^
      gmult (a.get 3) (b.get 3),
    gmult (a.get 3) (b.get 0) ^^^ gmult (a.get 2) (b.get 1) ^^^ gmult (a.get 1) (b.get 2) ^^^
      gmult (a.get 0) (b.get 3)], rfl⟩

/-! ### Bytes -/

private theorem and_one_ne_zero_iff (b : UInt8) : b &&& 1 ≠ 0 ↔ b.toBitVec.getLsbD 0 = true := by
  revert b
  apply forall_uInt8
  decide +kernel

private theorem and_0x80_ne_zero_iff (a : UInt8) : a &&& 0x80 ≠ 0 ↔ a.toBitVec.msb = true := by
  revert a
  apply forall_uInt8
  decide +kernel

/-- The variables as bit vectors. -/
private def Gmult.toProduct (v : Gmult) : BinaryPoly.Product 8 :=
  ⟨v.p.toBitVec, v.a.toBitVec, v.b.toBitVec⟩

private theorem Gmult.toProduct_step (v : Gmult) : v.step.toProduct = v.toProduct.step 0x1b := by
  have hp : v.step.p.toBitVec =
      if v.b.toBitVec.getLsbD 0 then v.p.toBitVec ^^^ v.a.toBitVec else v.p.toBitVec := by
    simp only [step, and_one_ne_zero_iff]
    split <;> rfl
  have ha : v.step.a.toBitVec = BinaryPoly.mulX 0x1b v.a.toBitVec := by
    simp only [step, and_0x80_ne_zero_iff, BinaryPoly.mulX]
    split <;> rfl
  rw [toProduct, hp, ha]
  rfl

private theorem Gmult.toProduct_iterate (v : Gmult) (n : Nat) :
    (step^[n] v).toProduct = (BinaryPoly.Product.step 0x1b)^[n] v.toProduct := by
  induction n with
  | zero => rfl
  | succ n ih =>
    rw [Function.iterate_succ_apply', Function.iterate_succ_apply', ← ih, toProduct_step]

private theorem toBitVec_gmult (a b : UInt8) :
    (gmult a b).toBitVec = BinaryPoly.product 0x1b a.toBitVec b.toBitVec :=
  congrArg BinaryPoly.Product.p (Gmult.toProduct_iterate ⟨0, a, b⟩ 8)

/-- The modulus, as the source's comment has it. -/
theorem modulus_eq :
    BinaryPoly.modulus (0x1b : BitVec 8) = X ^ 8 + X ^ 4 + X ^ 3 + X + 1 := by
  have hbits : BinaryPoly.toPoly (0x1b : BitVec 8) = X ^ 4 + X ^ 3 + X + 1 := by
    simp only [BinaryPoly.toPoly, Finset.sum_range_succ, Finset.sum_range_zero]
    simp
    ring
  rw [BinaryPoly.modulus, hbits]
  ring

/-- `gmult` multiplies polynomials modulo `x ^ 8 + x ^ 4 + x ^ 3 + x + 1`. -/
theorem toPoly_gmult (a b : UInt8) :
    BinaryPoly.toPoly (gmult a b).toBitVec =
      (BinaryPoly.toPoly a.toBitVec * BinaryPoly.toPoly b.toBitVec) %ₘ
        (X ^ 8 + X ^ 4 + X ^ 3 + X + 1) := by
  rw [toBitVec_gmult, BinaryPoly.toPoly_product, modulus_eq]

/-- The ring the bytes stand for. -/
abbrev Ring8 : Type := AdjoinRoot (BinaryPoly.modulus (0x1b : BitVec 8))

/-- The element a byte stands for. -/
noncomputable def gf (a : UInt8) : Ring8 := BinaryPoly.residue 0x1b a.toBitVec

/-- Different bytes are different elements of the field. -/
theorem gf_injective : Function.Injective gf := by
  intro a b h
  exact UInt8.toBitVec_inj.mp (BinaryPoly.residue_injective _ h)

/-- The zero of the field. -/
@[simp] theorem gf_zero : gf 0 = 0 := BinaryPoly.residue_zero _

/-- The exclusive or is the sum. -/
@[simp] theorem gf_xor (a b : UInt8) : gf (a ^^^ b) = gf a + gf b := BinaryPoly.residue_xor _ _ _

/-- `gmult` is the product. -/
@[simp] theorem gf_gmult (a b : UInt8) : gf (gmult a b) = gf a * gf b := by
  rw [gf, toBitVec_gmult, BinaryPoly.residue_product]
  rfl

/-- The one of the field. -/
@[simp] theorem gf_one : gf 1 = 1 := by
  have hbits : BinaryPoly.toPoly (1 : BitVec 8) = 1 := by
    simp only [BinaryPoly.toPoly, Finset.sum_range_succ, Finset.sum_range_zero]
    simp
  rw [gf, BinaryPoly.residue]
  exact (congrArg _ hbits).trans (map_one _)

/-! ### Words -/

/-- Coefficient by coefficient, `coef_mult` is the product with exponents modulo 4. -/
theorem gf_get_coefMult (a b : Word) (k : Fin 4) :
    gf ((coefMult a b).get k) = ∑ j, gf (a.get (k - j)) * gf (b.get j) := by
  have hsum (x₀ x₁ x₂ x₃ y₀ y₁ y₂ y₃ : UInt8) :
      gf (gmult x₀ y₀ ^^^ gmult x₁ y₁ ^^^ gmult x₂ y₂ ^^^ gmult x₃ y₃) =
        gf x₀ * gf y₀ + gf x₁ * gf y₁ + gf x₂ * gf y₂ + gf x₃ * gf y₃ := by
    simp only [gf_xor, gf_gmult]
  rw [Fin.sum_univ_four]
  fin_cases k <;> exact hsum ..

/-- The product of words is associative. -/
theorem coefMult_assoc (a b c : Word) :
    coefMult (coefMult a b) c = coefMult a (coefMult b c) := by
  apply List.Vector.ext
  intro k
  apply gf_injective
  simp only [gf_get_coefMult, Finset.sum_mul, Finset.mul_sum]
  conv_rhs => rw [Finset.sum_comm]
  refine Finset.sum_congr rfl fun j _ ↦ ?_
  refine Fintype.sum_equiv (Equiv.addRight j) _ _ fun l ↦ ?_
  rw [Equiv.coe_addRight, add_sub_cancel_right, sub_sub, add_comm j l, mul_assoc]

/-- `{01}`. -/
def oneWord : Word := ⟨[1, 0, 0, 0], rfl⟩

/-- The word that changes nothing. -/
theorem coefMult_oneWord (b : Word) : coefMult oneWord b = b := by
  have hne : ∀ k : Fin 4, k ≠ 0 → oneWord.get k = 0 := by decide
  apply List.Vector.ext
  intro k
  apply gf_injective
  rw [gf_get_coefMult, Fintype.sum_eq_single k]
  · rw [sub_self, show oneWord.get 0 = 1 from rfl, gf_one, one_mul]
  · intro j hj
    rw [hne (k - j) (sub_ne_zero.mpr hj.symm), gf_zero, zero_mul]

/-- The ring has more than one element. -/
instance : Nontrivial Ring8 := ⟨gf 0, gf 1, gf_injective.ne (by decide)⟩

/-- The polynomial with the bytes of a word as coefficients. -/
noncomputable def wordPoly (a : Word) : Ring8[X] := ∑ k : Fin 4, C (gf (a.get k)) * X ^ (k : Nat)

private theorem two_eq_zero : (2 : Ring8[X]) = 0 := by
  have h : (OfNat.ofNat 2 : ZMod 2) = 0 := rfl
  rw [← map_ofNat (algebraMap (ZMod 2) Ring8[X]) 2, h, map_zero]

/-- `coef_mult` multiplies polynomials over the bytes modulo `x ^ 4 + 1`. -/
theorem wordPoly_coefMult (a b : Word) :
    wordPoly (coefMult a b) = (wordPoly a * wordPoly b) %ₘ (X ^ 4 + 1) := by
  rw [← C_1]
  have hmonic : (X ^ 4 + C 1 : Ring8[X]).Monic := monic_X_pow_add_C 1 (by decide)
  have hdegree : (wordPoly (coefMult a b)).degree < (X ^ 4 + C 1 : Ring8[X]).degree := by
    rw [degree_X_pow_add_C (by decide)]
    exact degree_sum_fin_lt fun k ↦ gf ((coefMult a b).get k)
  -- the quotient has the coefficients whose exponents are above 3
  have hdiv : ∃ q, wordPoly (coefMult a b) + (X ^ 4 + C 1) * q = wordPoly a * wordPoly b := by
    have hval : ((0 : Fin 4) : Nat) = 0 ∧ ((1 : Fin 4) : Nat) = 1 ∧ ((2 : Fin 4) : Nat) = 2 ∧
        ((3 : Fin 4) : Nat) = 3 := by decide
    simp only [wordPoly, gf_get_coefMult, Fin.sum_univ_four, Fin.reduceSub, map_add, map_mul, hval]
    generalize C (gf (a.get 0)) = a₀, C (gf (a.get 1)) = a₁, C (gf (a.get 2)) = a₂,
      C (gf (a.get 3)) = a₃, C (gf (b.get 0)) = b₀, C (gf (b.get 1)) = b₁, C (gf (b.get 2)) = b₂,
      C (gf (b.get 3)) = b₃
    refine ⟨(a₁ * b₃ + a₂ * b₂ + a₃ * b₁) + (a₂ * b₃ + a₃ * b₂) * X + a₃ * b₃ * X ^ 2, ?_⟩
    rw [C_1]
    linear_combination
      ((a₁ * b₃ + a₂ * b₂ + a₃ * b₁) + (a₂ * b₃ + a₃ * b₂) * X + a₃ * b₃ * X ^ 2) * two_eq_zero
  obtain ⟨q, hq⟩ := hdiv
  exact (div_modByMonic_unique q _ hmonic ⟨hq, hdegree⟩).2.symm

end HorrorScope.Aes
