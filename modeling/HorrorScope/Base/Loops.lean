import Mathlib.Data.List.FinRange
import Mathlib.Data.List.Nodup
import Mathlib.Data.Prod.Basic

/-!
# Loops over the parts of a state

A loop whose iterations change separate parts of the state changes each part by its own iteration
only, in whatever order they run. A loop is undone by its inverse iterations in reverse order.
-/

namespace HorrorScope.Base

variable {σ ι κ β : Type*}

/-- Iteration `i` changes part `i` of the state, as `f i` says, and no other part. -/
structure ChangesPart (get : σ → ι → β) (f : ι → β → β) (step : σ → ι → σ) : Prop where
  own : ∀ s i, get (step s i) i = f i (get s i)
  other : ∀ s i k, k ≠ i → get (step s i) k = get s k

namespace ChangesPart

variable {get : σ → ι → β} {f : ι → β → β} {step : σ → ι → σ}

/-- A loop leaves the parts it does not run over. -/
theorem foldl_of_notMem (h : ChangesPart get f step) {l : List ι} {k : ι} (hk : k ∉ l) (s : σ) :
    get (l.foldl step s) k = get s k := by
  induction l generalizing s with
  | nil => rfl
  | cons i l ih =>
    rw [List.mem_cons, not_or] at hk
    rw [List.foldl_cons, ih hk.2, h.other s i k hk.1]

/-- A loop changes each part it runs over once. -/
theorem foldl_of_mem (h : ChangesPart get f step) {l : List ι} (hl : l.Nodup) {k : ι} (hk : k ∈ l)
    (s : σ) : get (l.foldl step s) k = f k (get s k) := by
  induction l generalizing s with
  | nil => cases hk
  | cons i l ih =>
    obtain ⟨hi, hl⟩ := List.nodup_cons.mp hl
    rw [List.foldl_cons]
    rcases List.mem_cons.mp hk with rfl | hk
    · rw [h.foldl_of_notMem hi, h.own]
    · rw [ih hl hk, h.other s i k fun hki ↦ hi (hki ▸ hk)]

/-- An inner loop over all second coordinates changes a row. -/
theorem rows {get : σ → ι × κ → β} {f : ι × κ → β → β} {step : σ → ι × κ → σ}
    (h : ChangesPart get f step) {l : List κ} (hl : l.Nodup) (hall : ∀ j, j ∈ l) :
    ChangesPart (fun s i j ↦ get s (i, j)) (fun i row j ↦ f (i, j) (row j))
      (fun s i ↦ l.foldl (fun s j ↦ step s (i, j)) s) := by
  have hmap (s : σ) (i : ι) :
      l.foldl (fun s j ↦ step s (i, j)) s = (l.map (Prod.mk i)).foldl step s :=
    List.foldl_map.symm
  constructor
  · intro s i
    funext j
    rw [hmap]
    exact h.foldl_of_mem (hl.map (Prod.mk_right_injective i)) (List.mem_map_of_mem (hall j)) s
  · intro s i k hki
    funext j
    rw [hmap]
    apply h.foldl_of_notMem
    intro hmem
    obtain ⟨_, _, he⟩ := List.mem_map.mp hmem
    exact hki (congrArg Prod.fst he).symm

end ChangesPart

/-- What every iteration from `a` on keeps holds at the end of the loop. -/
theorem foldl_drop_finRange {n : Nat} {P : Nat → σ → Prop} {step : σ → Fin n → σ} {a : Nat}
    (ha : a ≤ n) (hstep : ∀ i : Fin n, a ≤ i → ∀ s, P i s → P (i + 1) (step s i)) {s : σ}
    (hs : P a s) : P n (((List.finRange n).drop a).foldl step s) := by
  induction hd : n - a generalizing a s with
  | zero =>
    have han : a = n := by omega
    rw [List.drop_eq_nil_of_le (by rw [List.length_finRange]; omega)]
    exact han ▸ hs
  | succ d ih =>
    have han : a < n := by omega
    rw [List.drop_eq_getElem_cons (by rwa [List.length_finRange]), List.foldl_cons,
      List.getElem_finRange]
    exact ih (by omega) (fun i hi ↦ hstep i (by omega)) (hstep ⟨a, han⟩ (Nat.le_refl a) s hs)
      (by omega)

/-- Iterations that undo each other behind `A` leave `A` alone. -/
theorem foldl_reverse_foldl {f g : σ → ι → σ} {A : σ → σ} (h : ∀ s i, g (A (f s i)) i = A s)
    (l : List ι) (s : σ) : l.reverse.foldl g (A (l.foldl f s)) = A s := by
  induction l generalizing s with
  | nil => rfl
  | cons i l ih =>
    rw [List.foldl_cons, List.reverse_cons, List.foldl_append, ih (f s i)]
    exact h s i

end HorrorScope.Base
