import Mathlib.Data.List.Infix

/-!
# Patterns of literals and greedy repetitions

A pattern is a sequence of literals and of repetitions of a class of symbols. A
repetition takes the longest run that lets the rest of the pattern match, as a
backtracking matcher does that tries the longest run first. A match starts at the first
symbol of the text and may end anywhere; its result is the list of the runs kept as
groups.
-/

namespace HorrorScope.Base.Regex

variable {α β : Type}

/-- One item of a pattern: a literal, or a greedy repetition of at least `least` symbols
of a class, kept as a group or not. -/
inductive Item (α : Type) where
  | lit (s : List α)
  | many (p : α → Bool) (least : Nat) (group : Bool)

/-! ### The longest run -/

/-- End a run here, if it is long enough and `k` accepts the rest. -/
def stop (k : List α → Option β) (least : Nat) (xs : List α) : Option (List α × β) :=
  if least = 0 then (k xs).map fun b ↦ ([], b) else none

/-- The longest run of symbols in `p`, of at least `least` symbols, whose rest `k`
accepts. -/
def greedy (p : α → Bool) (k : List α → Option β) : Nat → List α → Option (List α × β)
  | least, [] => stop k least []
  | least, x :: xs =>
    if p x then
      ((greedy p k (least - 1) xs).map fun r ↦ (x :: r.1, r.2)).or (stop k least (x :: xs))
    else stop k least (x :: xs)

private theorem stop_eq_none_iff {k : List α → Option β} {least : Nat} {xs : List α} :
    stop k least xs = none ↔ (least = 0 → k xs = none) := by
  unfold stop
  split <;> simp_all

private theorem stop_eq_some_iff {k : List α → Option β} {least : Nat} {xs ys : List α} {b : β} :
    stop k least xs = some (ys, b) ↔ least = 0 ∧ ys = [] ∧ k xs = some b := by
  unfold stop
  split
  · next h => simp [h, and_comm, eq_comm]
  · next h => simp [h]

/-- No run is found exactly when `k` refuses the rest of every run that is long enough. -/
theorem greedy_eq_none_iff {p : α → Bool} {k : List α → Option β} {least : Nat} {xs : List α} :
    greedy p k least xs = none ↔
      ∀ ys zs, xs = ys ++ zs → (∀ y ∈ ys, p y) → least ≤ ys.length → k zs = none := by
  induction xs generalizing least with
  | nil =>
    rw [greedy, stop_eq_none_iff]
    constructor
    · intro h ys zs hxs _ hle
      obtain ⟨rfl, rfl⟩ := List.append_eq_nil_iff.mp hxs.symm
      exact h (Nat.le_zero.mp hle)
    · rintro h rfl
      exact h [] [] rfl (by simp) (Nat.le_refl 0)
  | cons x xs ih =>
    rw [greedy]
    -- the empty run is the one that stops at `x`, every other run starts with `x`
    constructor
    · intro h ys zs hxs hys hle
      cases ys with
      | nil =>
        rw [List.nil_append] at hxs
        subst hxs
        have hz : least = 0 := Nat.le_zero.mp hle
        split at h
        · rw [Option.or_eq_none_iff] at h
          exact stop_eq_none_iff.mp h.2 hz
        · exact stop_eq_none_iff.mp h hz
      | cons y ys =>
        obtain ⟨rfl, rfl⟩ : x = y ∧ xs = ys ++ zs := by simpa using hxs
        rw [if_pos (hys x (by simp)), Option.or_eq_none_iff, Option.map_eq_none_iff, ih] at h
        apply h.1 ys zs rfl
        · intro u hu
          exact hys u (List.mem_cons_of_mem _ hu)
        · rw [List.length_cons] at hle
          omega
    · intro h
      have hstop : stop k least (x :: xs) = none := by
        rw [stop_eq_none_iff]
        rintro rfl
        exact h [] (x :: xs) rfl (by simp) (Nat.le_refl 0)
      split
      · next hx =>
        rw [Option.or_eq_none_iff, Option.map_eq_none_iff, ih]
        refine ⟨fun ys zs hxs hys hle ↦ ?_, hstop⟩
        apply h (x :: ys) zs (by rw [hxs, List.cons_append])
        · simpa [hx] using hys
        · rw [List.length_cons]
          omega
      · exact hstop

/-- The run found is the longest one whose rest `k` accepts. -/
theorem greedy_eq_some_iff {p : α → Bool} {k : List α → Option β} {least : Nat}
    {xs ys : List α} {b : β} :
    greedy p k least xs = some (ys, b) ↔
      ∃ zs, xs = ys ++ zs ∧ (∀ y ∈ ys, p y) ∧ least ≤ ys.length ∧ k zs = some b ∧
        ∀ us vs, zs = us ++ vs → us ≠ [] → (∀ u ∈ us, p u) → k vs = none := by
  induction xs generalizing least ys with
  | nil =>
    rw [greedy, stop_eq_some_iff]
    constructor
    · rintro ⟨rfl, rfl, hk⟩
      refine ⟨[], rfl, by simp, Nat.le_refl 0, hk, fun us vs h hne ↦ ?_⟩
      exact absurd (List.append_eq_nil_iff.mp h.symm).1 hne
    · rintro ⟨zs, h, _, hle, hk, _⟩
      obtain ⟨rfl, rfl⟩ := List.append_eq_nil_iff.mp h.symm
      exact ⟨Nat.le_zero.mp hle, rfl, hk⟩
  | cons x xs ih =>
    rw [greedy]
    by_cases hx : p x
    · rw [if_pos hx, Option.or_eq_some_iff, Option.map_eq_none_iff, stop_eq_some_iff]
      constructor
      · rintro (h | ⟨hn, rfl, rfl, hk⟩)
        · obtain ⟨r, hr, he⟩ := Option.map_eq_some_iff.mp h
          obtain ⟨rfl, rfl⟩ := Prod.mk.inj he
          obtain ⟨zs, rfl, hys, hle, hk, hmax⟩ := ih.mp hr
          refine ⟨zs, rfl, by simpa [hx] using hys, ?_, hk, hmax⟩
          rw [List.length_cons]
          omega
        · refine ⟨x :: xs, rfl, by simp, Nat.le_refl 0, hk, fun us vs h hne hus ↦ ?_⟩
          -- a longer run starts with `x`, and the recursive call found none
          cases us with
          | nil => exact absurd rfl hne
          | cons u us =>
            obtain ⟨rfl, rfl⟩ : x = u ∧ xs = us ++ vs := by simpa using h
            exact greedy_eq_none_iff.mp hn us vs rfl
              (fun v hv ↦ hus v (List.mem_cons_of_mem _ hv)) (by simp)
      · rintro ⟨zs, h, hys, hle, hk, hmax⟩
        cases ys with
        | nil =>
          rw [List.nil_append] at h
          subst h
          refine Or.inr ⟨?_, Nat.le_zero.mp hle, rfl, hk⟩
          rw [greedy_eq_none_iff]
          intro us vs hxs hus _
          exact hmax (x :: us) vs (by rw [hxs, List.cons_append]) (by simp)
            (by simpa [hx] using hus)
        | cons y ys =>
          obtain ⟨rfl, rfl⟩ : x = y ∧ xs = ys ++ zs := by simpa using h
          refine Or.inl (Option.map_eq_some_iff.mpr ⟨(ys, b), ih.mpr ?_, rfl⟩)
          rw [List.length_cons] at hle
          exact ⟨zs, rfl, fun u hu ↦ hys u (List.mem_cons_of_mem _ hu), by omega, hk, hmax⟩
    · rw [if_neg hx, stop_eq_some_iff]
      constructor
      · rintro ⟨rfl, rfl, hk⟩
        refine ⟨x :: xs, rfl, by simp, Nat.le_refl 0, hk, fun us vs h hne hus ↦ ?_⟩
        cases us with
        | nil => exact absurd rfl hne
        | cons u us =>
          obtain ⟨rfl, _⟩ : x = u ∧ xs = us ++ vs := by simpa using h
          exact absurd (hus x (by simp)) hx
      · rintro ⟨zs, h, hys, hle, hk, _⟩
        cases ys with
        | nil =>
          rw [List.nil_append] at h
          subst h
          exact ⟨Nat.le_zero.mp hle, rfl, hk⟩
        | cons y ys =>
          obtain ⟨rfl, _⟩ : x = y ∧ xs = ys ++ zs := by simpa using h
          exact absurd (hys x (by simp)) hx

/-- What follows a symbol outside the class does not matter, if it does not matter to `k`. -/
theorem greedy_append_cons {p : α → Bool} {k : List α → Option β} {c : α} {ys : List α}
    (hc : p c = false) (hk : ∀ zs, k (zs ++ c :: ys) = k zs) (least : Nat) (xs : List α) :
    greedy p k least (xs ++ c :: ys) = greedy p k least xs := by
  induction xs generalizing least with
  | nil =>
    have h := hk []
    rw [List.nil_append] at h
    simp [greedy, hc, stop, h]
  | cons x xs ih =>
    have h := hk (x :: xs)
    rw [List.cons_append] at h
    simp only [List.cons_append, greedy, stop, ih, h]

/-! ### Matching -/

/-- Add a run to the groups, if it is kept. -/
def keep (group : Bool) (ys : List α) (gs : List (List α)) : List (List α) :=
  if group then ys :: gs else gs

/-- A captured group comes in front. -/
@[simp] theorem keep_true (ys : List α) (gs : List (List α)) : keep true ys gs = ys :: gs := rfl

/-- Without a capture there is no group. -/
@[simp] theorem keep_false (ys : List α) (gs : List (List α)) : keep false ys gs = gs := rfl

section Matching

variable [DecidableEq α]

/-- Match a pattern at the start of a text: the groups of the match, or `none`. -/
def groups : List (Item α) → List α → Option (List (List α))
  | [], _ => some []
  | .lit s :: items, xs => if s.isPrefixOf xs then groups items (xs.drop s.length) else none
  | .many p least group :: items, xs =>
    (greedy p (fun zs ↦ groups items zs) least xs).map fun r ↦ keep group r.1 r.2

/-- The empty pattern matches and captures nothing. -/
@[simp] theorem groups_nil (xs : List α) : groups [] xs = some [] := rfl

/-- A literal that stands at the start is passed over. -/
@[simp] theorem groups_lit_append (s : List α) (items : List (Item α)) (zs : List α) :
    groups (.lit s :: items) (s ++ zs) = groups items zs := by
  rw [groups, if_pos (List.isPrefixOf_iff_prefix.mpr (List.prefix_append s zs)),
    List.drop_left]

/-- A literal matches itself at the start. -/
theorem groups_lit_eq_some_iff {s : List α} {items : List (Item α)} {xs : List α}
    {gs : List (List α)} :
    groups (.lit s :: items) xs = some gs ↔ ∃ zs, xs = s ++ zs ∧ groups items zs = some gs := by
  constructor
  · intro h
    rw [groups] at h
    split at h
    · next hs =>
      obtain ⟨zs, rfl⟩ := List.isPrefixOf_iff_prefix.mp hs
      rw [List.drop_left] at h
      exact ⟨zs, rfl, h⟩
    · cases h
  · rintro ⟨zs, rfl, h⟩
    rw [groups_lit_append, h]

/-- A repetition takes the longest run that lets the rest of the pattern match. -/
theorem groups_many_eq_some_iff {p : α → Bool} {least : Nat} {group : Bool}
    {items : List (Item α)} {xs : List α} {gs : List (List α)} :
    groups (.many p least group :: items) xs = some gs ↔
      ∃ ys zs gs', xs = ys ++ zs ∧ (∀ y ∈ ys, p y) ∧ least ≤ ys.length ∧
        groups items zs = some gs' ∧ keep group ys gs' = gs ∧
        ∀ us vs, zs = us ++ vs → us ≠ [] → (∀ u ∈ us, p u) → groups items vs = none := by
  rw [groups, Option.map_eq_some_iff]
  constructor
  · rintro ⟨⟨ys, gs'⟩, h, hk⟩
    obtain ⟨zs, hxs, hys, hle, hm, hmax⟩ := greedy_eq_some_iff.mp h
    exact ⟨ys, zs, gs', hxs, hys, hle, hm, hk, hmax⟩
  · rintro ⟨ys, zs, gs', hxs, hys, hle, hm, hk, hmax⟩
    exact ⟨(ys, gs'), greedy_eq_some_iff.mpr ⟨zs, hxs, hys, hle, hm, hmax⟩, hk⟩

/-- A repetition fails if the rest fails behind every run of it. -/
theorem groups_many_eq_none_iff {p : α → Bool} {least : Nat} {group : Bool}
    {items : List (Item α)} {xs : List α} :
    groups (.many p least group :: items) xs = none ↔
      ∀ ys zs, xs = ys ++ zs → (∀ y ∈ ys, p y) → least ≤ ys.length → groups items zs = none := by
  rw [groups, Option.map_eq_none_iff, greedy_eq_none_iff]

/-- A repetition runs up to the first symbol outside its class, if the rest matches
there. -/
theorem groups_many_run {p : α → Bool} {least : Nat} {group : Bool} {items : List (Item α)}
    {ys zs : List α} {gs : List (List α)} (hys : ∀ y ∈ ys, p y) (hle : least ≤ ys.length)
    (hzs : ∀ z ∈ zs.head?, p z = false) (h : groups items zs = some gs) :
    groups (.many p least group :: items) (ys ++ zs) = some (keep group ys gs) := by
  rw [groups_many_eq_some_iff]
  refine ⟨ys, zs, gs, rfl, hys, hle, h, rfl, fun us vs hz hne hus ↦ ?_⟩
  cases us with
  | nil => exact absurd rfl hne
  | cons u us =>
    have hu : p u = false := hzs u (by simp [hz])
    rw [hus u (by simp)] at hu
    cases hu

/-- A repetition that is not kept gives the same match from any earlier start in its
class. -/
theorem groups_many_append_of_some {p : α → Bool} {items : List (Item α)} {ys zs : List α}
    {gs : List (List α)} (hys : ∀ y ∈ ys, p y)
    (h : groups (.many p 0 false :: items) zs = some gs) :
    groups (.many p 0 false :: items) (ys ++ zs) = some gs := by
  obtain ⟨us, vs, gs', rfl, hus, _, hm, rfl, hmax⟩ := groups_many_eq_some_iff.mp h
  rw [groups_many_eq_some_iff]
  refine ⟨ys ++ us, vs, gs', (List.append_assoc ..).symm, ?_, Nat.zero_le _, hm, rfl, hmax⟩
  intro y hy
  rcases List.mem_append.mp hy with hy | hy
  · exact hys y hy
  · exact hus y hy

/-- A last repetition of any length matches every text. -/
theorem groups_many_last (p : α → Bool) (xs : List α) :
    groups [.many p 0 false] xs = some [] := by
  cases h : groups [.many p 0 false] xs with
  | none =>
    have hn : groups ([] : List (Item α)) xs = none :=
      groups_many_eq_none_iff.mp h [] xs rfl (by simp) (Nat.le_refl 0)
    cases hn
  | some gs =>
    obtain ⟨_, _, gs', _, _, _, hm, rfl, _⟩ := groups_many_eq_some_iff.mp h
    exact hm.symm

/-! ### The length of a match -/

/-- The least number of symbols a pattern matches. -/
def minLength : List (Item α) → Nat
  | [] => 0
  | .lit s :: items => s.length + minLength items
  | .many _ least _ :: items => least + minLength items

/-- A text shorter than the least match of the pattern does not match. -/
theorem groups_eq_none_of_length_lt {items : List (Item α)} {xs : List α}
    (h : xs.length < minLength items) : groups items xs = none := by
  induction items generalizing xs with
  | nil => simp [minLength] at h
  | cons item items ih =>
    cases item with
    | lit s =>
      rw [Option.eq_none_iff_forall_ne_some]
      intro gs hm
      obtain ⟨zs, rfl, hzs⟩ := groups_lit_eq_some_iff.mp hm
      rw [minLength, List.length_append] at h
      rw [ih (by omega)] at hzs
      cases hzs
    | many p least group =>
      rw [groups_many_eq_none_iff]
      intro ys zs hxs _ hle
      apply ih
      rw [hxs, minLength, List.length_append] at h
      omega

/-! ### A symbol that ends every match -/

/-- No text that an item matches has the symbol `c`. -/
def Item.Rejects (c : α) : Item α → Prop
  | .lit s => c ∉ s
  | .many p _ _ => p c = false

/-- What follows a symbol that every item rejects does not matter. -/
theorem groups_append_cons {items : List (Item α)} {c : α}
    (h : ∀ item ∈ items, item.Rejects c) (xs ys : List α) :
    groups items (xs ++ c :: ys) = groups items xs := by
  induction items generalizing xs with
  | nil => rfl
  | cons item items ih =>
    have ih := ih fun i hi ↦ h i (List.mem_cons_of_mem _ hi)
    have hc := h item (by simp)
    cases item with
    | lit s =>
      by_cases hs : s <+: xs
      · obtain ⟨zs, rfl⟩ := hs
        rw [List.append_assoc, groups_lit_append, groups_lit_append, ih]
      · -- the literal has no `c`, so it cannot reach beyond `xs`
        have hs' : ¬ s <+: xs ++ c :: ys := by
          rintro ⟨t, ht⟩
          rcases List.append_eq_append_iff.mp ht with ⟨us, rfl, _⟩ | ⟨us, rfl, hus⟩
          · exact hs (List.prefix_append s us)
          · cases us with
            | nil => exact hs (by simp)
            | cons u us =>
              obtain ⟨rfl, _⟩ : c = u ∧ ys = us ++ t := by simpa using hus
              exact hc (by simp)
        rw [groups, groups, if_neg (mt List.isPrefixOf_iff_prefix.mp hs'),
          if_neg (mt List.isPrefixOf_iff_prefix.mp hs)]
    | many p least group =>
      simp only [groups]
      rw [greedy_append_cons hc ih]

end Matching

end HorrorScope.Base.Regex
