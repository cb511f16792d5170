import Mathlib.Data.Fin.Basic
import Mathlib.Logic.Function.Iterate

/-!
# Positions on a ring

A position in an array of `n` cells that goes back to the first cell behind the last one, and the
cells from one position on, read as a list. A cell written behind the last one read is the next
element of the list as long as the list does not go round the whole ring.
-/

namespace HorrorScope.Base.Ring

variable {α : Type*} {n : Nat}

/-- The position behind `i`. -/
def next (i : Fin n) : Fin n :=
  if h : i.val + 1 = n then ⟨0, by omega⟩ else ⟨i.val + 1, by omega⟩

/-- The next place, as a number. -/
theorem val_next (i : Fin n) : (next i).val = (i.val + 1) % n := by
  unfold next
  split
  · next h => simp [h]
  · next h =>
    have hlt : i.val + 1 < n := by omega
    rw [Nat.mod_eq_of_lt hlt]

/-- The place `k` places on, as a number. -/
theorem val_next_iterate (k : Nat) (i : Fin n) : (next^[k] i).val = (i.val + k) % n := by
  induction k with
  | zero => exact (Nat.mod_eq_of_lt i.isLt).symm
  | succ k ih =>
    rw [Function.iterate_succ_apply', val_next, ih, Nat.mod_add_mod]
    rfl

/-- Less than a round apart, two positions differ. -/
theorem next_iterate_ne {j k : Nat} (hjk : j < k) (hk : k < n) (i : Fin n) :
    next^[j] i ≠ next^[k] i := by
  intro h
  have hval := congrArg Fin.val h
  rw [val_next_iterate, val_next_iterate] at hval
  have hmod := Nat.sub_mod_eq_zero_of_mod_eq hval.symm
  rw [Nat.add_sub_add_left, Nat.mod_eq_of_lt (by omega)] at hmod
  omega

/-- The `k` cells from position `i` on. -/
def segment (cells : Fin n → α) (i : Fin n) : Nat → List α
  | 0 => []
  | k + 1 => cells i :: segment cells (next i) k

/-- A segment from its first cell. -/
@[simp] theorem segment_succ (cells : Fin n → α) (i : Fin n) (k : Nat) :
    segment cells i (k + 1) = cells i :: segment cells (next i) k := rfl

/-- The length of a segment. -/
@[simp] theorem length_segment (cells : Fin n → α) (i : Fin n) (k : Nat) :
    (segment cells i k).length = k := by
  induction k generalizing i with
  | zero => rfl
  | succ k ih => rw [segment_succ, List.length_cons, ih]

/-- A segment up to its last cell. -/
theorem segment_succ_right (cells : Fin n → α) (i : Fin n) (k : Nat) :
    segment cells i (k + 1) = segment cells i k ++ [cells (next^[k] i)] := by
  induction k generalizing i with
  | zero => rfl
  | succ k ih => rw [segment_succ, ih, segment_succ, List.cons_append, Function.iterate_succ_apply]

/-- A segment depends on its own cells only. -/
theorem segment_congr {cells cells' : Fin n → α} {i : Fin n} {k : Nat}
    (h : ∀ j < k, cells (next^[j] i) = cells' (next^[j] i)) :
    segment cells i k = segment cells' i k := by
  induction k generalizing i with
  | zero => rfl
  | succ k ih =>
    rw [segment_succ, segment_succ]
    congr 1
    · exact h 0 (by omega)
    · exact ih fun j hj ↦ h (j + 1) (by omega)

/-- A cell written behind the segment. -/
theorem segment_update (cells : Fin n → α) (i : Fin n) {k : Nat} (hk : k < n) (x : α) :
    segment (Function.update cells (next^[k] i) x) i (k + 1) = segment cells i k ++ [x] := by
  rw [segment_succ_right, Function.update_self]
  congr 1
  refine segment_congr fun j hj ↦ ?_
  rw [Function.update_of_ne (next_iterate_ne hj hk i)]

end HorrorScope.Base.Ring
