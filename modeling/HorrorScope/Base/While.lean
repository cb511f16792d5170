import Mathlib.Data.Finset.Card
import Mathlib.Data.Nat.Find
import Mathlib.Logic.Function.Iterate

/-!
# Loops without a bound of their own

`while cond(s): s = body(s)`, and the search for the first element of a sequence that a
finite set does not have: a loop of that kind ends after at most as many iterations as the
set has elements, if the sequence has no element twice.
-/

namespace HorrorScope.Base

variable {σ : Type}

/-- The state behind the loop, if it ends within `fuel` iterations. -/
def whileLoop (cond : σ → Bool) (body : σ → σ) : Nat → σ → Option σ
  | 0, s => if cond s then none else some s
  | fuel + 1, s => if cond s then whileLoop cond body fuel (body s) else some s

/-- A loop whose test fails ends at once. -/
theorem whileLoop_of_not {cond : σ → Bool} {s : σ} (h : cond s = false) (body : σ → σ)
    (fuel : Nat) : whileLoop cond body fuel s = some s := by
  cases fuel <;> simp [whileLoop, h]

/-- The loop ends at the first iterate of its body that fails the test. -/
theorem whileLoop_iterate {cond : σ → Bool} {body : σ → σ} {n fuel : Nat} {s : σ}
    (hlt : ∀ i < n, cond (body^[i] s) = true) (hn : cond (body^[n] s) = false) (hle : n ≤ fuel) :
    whileLoop cond body fuel s = some (body^[n] s) := by
  induction n generalizing fuel s with
  | zero => exact whileLoop_of_not hn body fuel
  | succ n ih =>
    obtain ⟨fuel, rfl⟩ : ∃ m, fuel = m + 1 := ⟨fuel - 1, by omega⟩
    have hs : cond s = true := hlt 0 (Nat.succ_pos n)
    rw [whileLoop, if_pos hs, Function.iterate_succ_apply]
    apply ih
    · intro i hi
      have hi' := hlt (i + 1) (Nat.succ_lt_succ hi)
      rwa [Function.iterate_succ_apply] at hi'
    · rwa [Function.iterate_succ_apply] at hn
    · omega

/-! ### The first element outside a finite set -/

variable {α : Type} [DecidableEq α]

/-- Among the first elements of a sequence without repetitions, one more than a set has, one is
not in the set. -/
theorem exists_le_notMem {f : Nat → α} (hf : Function.Injective f) (s : Finset α) :
    ∃ k ≤ s.card, f k ∉ s := by
  have hcard : s.card < ((Finset.range (s.card + 1)).image f).card := by
    rw [Finset.card_image_of_injective _ hf, Finset.card_range]
    exact Nat.lt_succ_self _
  obtain ⟨x, hx, hxs⟩ := Finset.exists_mem_notMem_of_card_lt_card hcard
  obtain ⟨k, hk, rfl⟩ := Finset.mem_image.mp hx
  exact ⟨k, Nat.lt_succ_iff.mp (Finset.mem_range.mp hk), hxs⟩

private theorem exists_first_notMem {f : Nat → α} (hf : Function.Injective f) (s : Finset α) :
    ∃ k ≤ s.card, f k ∉ s ∧ ∀ j < k, f j ∈ s := by
  have hex : ∃ k, f k ∉ s := by
    obtain ⟨k, -, hk⟩ := exists_le_notMem hf s
    exact ⟨k, hk⟩
  obtain ⟨k, hle, hk⟩ := exists_le_notMem hf s
  refine ⟨Nat.find hex, (Nat.find_min' hex hk).trans hle, Nat.find_spec hex, ?_⟩
  intro j hj
  exact not_not.mp (Nat.find_min hex hj)

/-- A loop that tries the elements of a sequence in turn ends at the first one that the set does
not have, within as many iterations as the set has elements. -/
theorem exists_whileLoop_notMem {f : Nat → α} (hf : Function.Injective f) (s : Finset α)
    (cond : σ → Bool) (body : σ → σ) (start : σ) (tried : σ → α)
    (hcond : ∀ x, cond x = true ↔ tried x ∈ s) (htried : ∀ k, tried (body^[k] start) = f k) :
    ∃ k, (∀ fuel, s.card ≤ fuel → whileLoop cond body fuel start = some (body^[k] start)) ∧
      f k ∉ s ∧ ∀ j < k, f j ∈ s := by
  obtain ⟨k, hle, hk, hj⟩ := exists_first_notMem hf s
  refine ⟨k, ?_, hk, hj⟩
  intro fuel hfuel
  apply whileLoop_iterate
  · intro i hi
    rw [hcond, htried]
    exact hj i hi
  · rw [← Bool.not_eq_true, hcond, htried]
    exact hk
  · omega

end HorrorScope.Base
