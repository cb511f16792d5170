import HorrorScope.Aes.Field

/-!
# The substitution tables of `aes.c`

The tables are what the standard defines them to be: `s_box` is the inverse under `gmult` followed
by an affine map of the bits, and `inv_s_box` undoes it.
-/

namespace HorrorScope.Aes

open HorrorScope.Base

/-- `s_box` (`aes.c:99`). -/
def sBoxTable : List UInt8 :=
  [
    0x63, 0x7c, 0x77, 0x7b, 0xf2, 0x6b, 0x6f, 0xc5, 0x30, 0x01, 0x67, 0x2b, 0xfe, 0xd7, 0xab, 0x76,
    0xca, 0x82, 0xc9, 0x7d, 0xfa, 0x59, 0x47, 0xf0, 0xad, 0xd4, 0xa2, 0xaf, 0x9c, 0xa4, 0x72, 0xc0,
    0xb7, 0xfd, 0x93, 0x26, 0x36, 0x3f, 0xf7, 0xcc, 0x34, 0xa5, 0xe5, 0xf1, 0x71, 0xd8, 0x31, 0x15,
    0x04, 0xc7, 0x23, 0xc3, 0x18, 0x96, 0x05, 0x9a, 0x07, 0x12, 0x80, 0xe2, 0xeb, 0x27, 0xb2, 0x75,
    0x09, 0x83, 0x2c, 0x1a, 0x1b, 0x6e, 0x5a, 0xa0, 0x52, 0x3b, 0xd6, 0xb3, 0x29, 0xe3, 0x2f, 0x84,
    0x53, 0xd1, 0x00, 0xed, 0x20, 0xfc, 0xb1, 0x5b, 0x6a, 0xcb, 0xbe, 0x39, 0x4a, 0x4c, 0x58, 0xcf,
    0xd0, 0xef, 0xaa, 0xfb, 0x43, 0x4d, 0x33, 0x85, 0x45, 0xf9, 0x02, 0x7f, 0x50, 0x3c, 0x9f, 0xa8,
    0x51, 0xa3, 0x40, 0x8f, 0x92, 0x9d, 0x38, 0xf5, 0xbc, 0xb6, 0xda, 0x21, 0x10, 0xff, 0xf3, 0xd2,
    0xcd, 0x0c, 0x13, 0xec, 0x5f, 0x97, 0x44, 0x17, 0xc4, 0xa7, 0x7e, 0x3d, 0x64, 0x5d, 0x19, 0x73,
    0x60, 0x81, 0x4f, 0xdc, 0x22, 0x2a, 0x90, 0x88, 0x46, 0xee, 0xb8, 0x14, 0xde, 0x5e, 0x0b, 0xdb,
    0xe0, 0x32, 0x3a, 0x0a, 0x49, 0x06, 0x24, 0x5c, 0xc2, 0xd3, 0xac, 0x62, 0x91, 0x95, 0xe4, 0x79,
    0xe7, 0xc8, 0x37, 0x6d, 0x8d, 0xd5, 0x4e, 0xa9, 0x6c, 0x56, 0xf4, 0xea, 0x65, 0x7a, 0xae, 0x08,
    0xba, 0x78, 0x25, 0x2e, 0x1c, 0xa6, 0xb4, 0xc6, 0xe8, 0xdd, 0x74, 0x1f, 0x4b, 0xbd, 0x8b, 0x8a,
    0x70, 0x3e, 0xb5, 0x66, 0x48, 0x03, 0xf6, 0x0e, 0x61, 0x35, 0x57, 0xb9, 0x86, 0xc1, 0x1d, 0x9e,
    0xe1, 0xf8, 0x98, 0x11, 0x69, 0xd9, 0x8e, 0x94, 0x9b, 0x1e, 0x87, 0xe9, 0xce, 0x55, 0x28, 0xdf,
    0x8c, 0xa1, 0x89, 0x0d, 0xbf, 0xe6, 0x42, 0x68, 0x41, 0x99, 0x2d, 0x0f, 0xb0, 0x54, 0xbb, 0x16]

/-- `inv_s_box` (`aes.c:121`). -/
def invSBoxTable : List UInt8 :=
  [
    0x52, 0x09, 0x6a, 0xd5, 0x30, 0x36, 0xa5, 0x38, 0xbf, 0x40, 0xa3, 0x9e, 0x81, 0xf3, 0xd7, 0xfb,
    0x7c, 0xe3, 0x39, 0x82, 0x9b, 0x2f, 0xff, 0x87, 0x34, 0x8e, 0x43, 0x44, 0xc4, 0xde, 0xe9, 0xcb,
    0x54, 0x7b, 0x94, 0x32, 0xa6, 0xc2, 0x23, 0x3d, 0xee, 0x4c, 0x95, 0x0b, 0x42, 0xfa, 0xc3, 0x4e,
    0x08, 0x2e, 0xa1, 0x66, 0x28, 0xd9, 0x24, 0xb2, 0x76, 0x5b, 0xa2, 0x49, 0x6d, 0x8b, 0xd1, 0x25,
    0x72, 0xf8, 0xf6, 0x64, 0x86, 0x68, 0x98, 0x16, 0xd4, 0xa4, 0x5c, 0xcc, 0x5d, 0x65, 0xb6, 0x92,
    0x6c, 0x70, 0x48, 0x50, 0xfd, 0xed, 0xb9, 0xda, 0x5e, 0x15, 0x46, 0x57, 0xa7, 0x8d, 0x9d, 0x84,
    0x90, 0xd8, 0xab, 0x00, 0x8c, 0xbc, 0xd3, 0x0a, 0xf7, 0xe4, 0x58, 0x05, 0xb8, 0xb3, 0x45, 0x06,
    0xd0, 0x2c, 0x1e, 0x8f, 0xca, 0x3f, 0x0f, 0x02, 0xc1, 0xaf, 0xbd, 0x03, 0x01, 0x13, 0x8a, 0x6b,
    0x3a, 0x91, 0x11, 0x41, 0x4f, 0x67, 0xdc, 0xea, 0x97, 0xf2, 0xcf, 0xce, 0xf0, 0xb4, 0xe6, 0x73,
    0x96, 0xac, 0x74, 0x22, 0xe7, 0xad, 0x35, 0x85, 0xe2, 0xf9, 0x37, 0xe8, 0x1c, 0x75, 0xdf, 0x6e,
    0x47, 0xf1, 0x1a, 0x71, 0x1d, 0x29, 0xc5, 0x89, 0x6f, 0xb7, 0x62, 0x0e, 0xaa, 0x18, 0xbe, 0x1b,
    0xfc, 0x56, 0x3e, 0x4b, 0xc6, 0xd2, 0x79, 0x20, 0x9a, 0xdb, 0xc0, 0xfe, 0x78, 0xcd, 0x5a, 0xf4,
    0x1f, 0xdd, 0xa8, 0x33, 0x88, 0x07, 0xc7, 0x31, 0xb1, 0x12, 0x10, 0x59, 0x27, 0x80, 0xec, 0x5f,
    0x60, 0x51, 0x7f, 0xa9, 0x19, 0xb5, 0x4a, 0x0d, 0x2d, 0xe5, 0x7a, 0x9f, 0x93, 0xc9, 0x9c, 0xef,
    0xa0, 0xe0, 0x3b, 0x4d, 0xae, 0x2a, 0xf5, 0xb0, 0xc8, 0xeb, 0xbb, 0x3c, 0x83, 0x53, 0x99, 0x61,
    0x17, 0x2b, 0x04, 0x7e, 0xba, 0x77, 0xd6, 0x26, 0xe1, 0x69, 0x14, 0x63, 0x55, 0x21, 0x0c, 0x7d]

/-- The row and the column of a byte, and the index they give. -/
def index (x : UInt8) : Nat :=
  let row := (x &&& 0xf0) >>> 4
  let col := x &&& 0x0f
  16 * row.toNat + col.toNat

/-- The index is the byte itself, so every lookup is inside the table. -/
theorem index_eq_toNat (x : UInt8) : index x = x.toNat := by
  revert x
  apply forall_uInt8
  decide +kernel

/-- `s_box[16*row+col]`. -/
def sBox (x : UInt8) : UInt8 := sBoxTable.getD (index x) 0

/-- `inv_s_box[16*row+col]`. -/
def invSBox (x : UInt8) : UInt8 := invSBoxTable.getD (index x) 0

/-! ### The standard's definition -/

/-- The bits of a byte moved to the left in a circle. -/
def rotl (x : UInt8) (k : UInt8) : UInt8 := x <<< k ||| x >>> (8 - k)

/-- The affine map behind the inverse: bit `i` of the result is the sum of bits `i`, `i + 4`,
`i + 5`, `i + 6` and `i + 7` of the argument, in a circle, and of bit `i` of `0x63`. -/
def affine (x : UInt8) : UInt8 :=
  x ^^^ rotl x 1 ^^^ rotl x 2 ^^^ rotl x 3 ^^^ rotl x 4 ^^^ 0x63

/-- `y` is the inverse of `x`, where zero counts as its own inverse. -/
def IsInverse (x y : UInt8) : Prop := if x = 0 then y = 0 else gmult x y = 1

/-- Whether two bytes are inverse can be computed. -/
instance (x y : UInt8) : Decidable (IsInverse x y) := inferInstanceAs (Decidable (ite _ _ _))

/-- The argument of the affine map in an entry of the table. -/
def inverse (x : UInt8) : UInt8 :=
  let y := sBox x
  rotl y 1 ^^^ rotl y 3 ^^^ rotl y 6 ^^^ 0x05

private theorem tables_check (x : UInt8) :
    IsInverse x (inverse x) ∧ affine (inverse x) = sBox x ∧ invSBox (sBox x) = x := by
  revert x
  apply forall_uInt8
  decide +kernel

/-- `inv_s_box` undoes `s_box`. -/
theorem invSBox_sBox (x : UInt8) : invSBox (sBox x) = x := (tables_check x).2.2

/-- Different bytes have different substitutes. -/
theorem sBox_injective : Function.Injective sBox := Function.LeftInverse.injective invSBox_sBox

/-- `s_box` undoes `inv_s_box`. -/
theorem sBox_invSBox (x : UInt8) : sBox (invSBox x) = x := by
  have : Finite UInt8 := Finite.of_injective UInt8.toFin fun _ _ ↦ UInt8.toFin_inj.mp
  have hsurj : Function.Surjective sBox := Finite.surjective_of_injective sBox_injective
  exact Function.LeftInverse.rightInverse_of_surjective invSBox_sBox hsurj x

private theorem gf_mul_gf_inverse {x : UInt8} (h : x ≠ 0) : gf x * gf (inverse x) = 1 := by
  have hx := (tables_check x).1
  rw [IsInverse, if_neg h] at hx
  rw [← gf_gmult, hx, gf_one]

private theorem IsInverse.unique {x y : UInt8} (h : IsInverse x y) : y = inverse x := by
  by_cases hx : x = 0
  · have hy := (tables_check x).1
    rw [IsInverse, if_pos hx] at h hy
    rw [h, hy]
  · rw [IsInverse, if_neg hx] at h
    apply gf_injective
    have hy : gf x * gf y = 1 := by rw [← gf_gmult, h, gf_one]
    calc gf y = gf x * gf y * gf (inverse x) := by
          rw [mul_right_comm, gf_mul_gf_inverse hx, one_mul]
      _ = gf (inverse x) := by rw [hy, one_mul]

/-- The tables are those of the standard: `s_box` takes a byte to the affine image of its
inverse, and `inv_s_box` takes it back. -/
theorem tables_standard (x : UInt8) :
    ∃ y, IsInverse x y ∧ (∀ z, IsInverse x z → z = y) ∧ sBox x = affine y ∧
      invSBox (affine y) = x := by
  obtain ⟨hinv, heq, hback⟩ := tables_check x
  refine ⟨inverse x, hinv, fun z hz ↦ hz.unique, heq.symm, ?_⟩
  rw [heq, hback]

/-- A factor that is not zero cancels. -/
theorem gf_mul_left_cancel {x y z : UInt8} (hx : x ≠ 0) (h : gf x * gf y = gf x * gf z) :
    y = z := by
  apply gf_injective
  calc gf y = gf x * gf y * gf (inverse x) := by
        rw [mul_right_comm, gf_mul_gf_inverse hx, one_mul]
    _ = gf z := by rw [h, mul_right_comm, gf_mul_gf_inverse hx, one_mul]

end HorrorScope.Aes
