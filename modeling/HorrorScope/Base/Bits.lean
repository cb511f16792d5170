import Mathlib.Logic.Basic

/-!
# Bit fields of an 8-bit register

What a read under a mask sees after the usual read-modify-write updates, and what a sequence of
updates that only set bits leaves.
-/

namespace HorrorScope.Base

/-- A property of bytes, checked for each of them. -/
theorem forall_uInt8 {p : UInt8 → Prop} [DecidablePred p]
    (h : (List.range 256).all fun n ↦ p (UInt8.ofNat n)) (a : UInt8) : p a := by
  have ha := List.all_eq_true.mp h a.toNat (List.mem_range.mpr a.toNat_lt)
  simpa using ha

/-- Setting bits makes them read as set. -/
theorem or_and_mask (x m : UInt8) : (x ||| m) &&& m = m := by
  apply UInt8.toBitVec_inj.mp
  ext i hi
  simp only [UInt8.toBitVec_and, UInt8.toBitVec_or, BitVec.getElem_and, BitVec.getElem_or]
  cases m.toBitVec[i] <;> simp

/-- Clearing bits makes them read as clear. -/
theorem and_not_and_mask (x m : UInt8) : x &&& ~~~m &&& m = 0 := by
  apply UInt8.toBitVec_inj.mp
  ext i hi
  simp

/-- Reading a field after it was cleared and then set to a value of the field. -/
theorem field_and_mask (x m v : UInt8) (h : v &&& m = v) : (x &&& ~~~m ||| v) &&& m = v := by
  apply UInt8.toBitVec_inj.mp
  ext i hi
  have hv : (v.toBitVec[i] && m.toBitVec[i]) = v.toBitVec[i] := by
    have := congrArg (fun y : UInt8 ↦ y.toBitVec[i]) h
    simpa only [UInt8.toBitVec_and, BitVec.getElem_and] using this
  simp only [UInt8.toBitVec_and, UInt8.toBitVec_or, UInt8.toBitVec_not, BitVec.getElem_and,
    BitVec.getElem_or, BitVec.getElem_not]
  revert hv
  cases m.toBitVec[i] <;> cases v.toBitVec[i] <;> simp

/-! ### Bits that are only ever set -/

/-- The bits of all the bytes. -/
def orAll (xs : List UInt8) : UInt8 := xs.foldr (· ||| ·) 0

/-- No values have no bits. -/
@[simp] theorem orAll_nil : orAll [] = 0 := rfl

/-- The bits of the first value and of the others. -/
@[simp] theorem orAll_cons (x : UInt8) (xs : List UInt8) : orAll (x :: xs) = x ||| orAll xs := rfl

/-- No bit is set outside a mask when none of the bytes has any. -/
theorem orAll_or_eq {xs : List UInt8} {x : UInt8} (h : ∀ y ∈ xs, y ||| x = x) :
    orAll xs ||| x = x := by
  induction xs with
  | nil => exact UInt8.zero_or
  | cons y xs ih =>
    rw [orAll_cons, UInt8.or_assoc, ih fun z hz ↦ h z (List.mem_cons_of_mem _ hz)]
    exact h y List.mem_cons_self

private theorem or_orAll {xs : List UInt8} {x : UInt8} (hx : x ∈ xs) :
    x ||| orAll xs = orAll xs := by
  induction hx with
  | head xs => rw [orAll_cons, ← UInt8.or_assoc, UInt8.or_self]
  | tail y hx ih =>
    rw [orAll_cons, ← UInt8.or_assoc, UInt8.or_comm x y, UInt8.or_assoc, ih]

/-- All together are the last one when it has all their bits. -/
theorem orAll_eq_getLast_iff (xs : List UInt8) :
    orAll xs = xs.getLast?.getD 0 ↔ ∀ x ∈ xs, x ||| xs.getLast?.getD 0 = xs.getLast?.getD 0 := by
  constructor
  · intro h x hx
    rw [← h]
    exact or_orAll hx
  · intro h
    cases hlast : xs.getLast? with
    | none => rw [List.getLast?_eq_none_iff.mp hlast]; rfl
    | some x =>
      rw [hlast] at h
      have hle : orAll xs ||| x = x := orAll_or_eq h
      have hge : x ||| orAll xs = orAll xs := or_orAll (List.mem_of_getLast? hlast)
      rw [Option.getD_some, ← hge, UInt8.or_comm, hle]

end HorrorScope.Base
