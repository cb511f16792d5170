import Mathlib.Data.List.Basic

/-!
# Runs of a deterministic transition function

A system is a total `step : S → E → S`; everything that is not determined by the state
(which party moves, what a peer sends, when hardware acts) is an event. A run is a list of
events. `Guarded ok` says that a condition on the state before each event is met all along
the run; `Guarded.invariant` is the induction rule every run result of the development uses.
-/

namespace HorrorScope.Base

variable {S E : Type*} (step : S → E → S)

/-- The state after a list of events. -/
def run (s : S) (evs : List E) : S := evs.foldl step s

/-- The run without events. -/
@[simp] theorem run_nil (s : S) : run step s [] = s := rfl

/-- The run from its first event. -/
@[simp] theorem run_cons (s : S) (e : E) (evs : List E) :
    run step s (e :: evs) = run step (step s e) evs := rfl

/-- One run after another. -/
@[simp] theorem run_append (s : S) (evs₁ evs₂ : List E) :
    run step s (evs₁ ++ evs₂) = run step (run step s evs₁) evs₂ := by
  simp [run, List.foldl_append]

/-- Each event of the run meets `ok` in the state it happens in. -/
def Guarded (ok : S → E → Prop) : S → List E → Prop
  | _, [] => True
  | s, e :: evs => ok s e ∧ Guarded ok (step s e) evs

/-- A guard that can be computed can be checked along a run. -/
instance Guarded.decidable (ok : S → E → Prop) [∀ s e, Decidable (ok s e)] :
    ∀ (s : S) (evs : List E), Decidable (Guarded step ok s evs)
  | _, [] => inferInstanceAs (Decidable True)
  | s, e :: evs =>
    have := Guarded.decidable ok (step s e) evs
    inferInstanceAs (Decidable (ok s e ∧ Guarded step ok (step s e) evs))

variable {step}

/-- Both parts of a guarded run are guarded. -/
theorem Guarded.of_append {ok : S → E → Prop} {s : S} {evs₁ evs₂ : List E}
    (h : Guarded step ok s (evs₁ ++ evs₂)) :
    Guarded step ok s evs₁ ∧ Guarded step ok (run step s evs₁) evs₂ := by
  induction evs₁ generalizing s with
  | nil => exact ⟨trivial, h⟩
  | cons e evs₁ ih =>
    obtain ⟨h₁, h₂⟩ := ih h.2
    exact ⟨⟨h.1, h₁⟩, h₂⟩

/-- Two guarded runs, one after the other. -/
theorem Guarded.append {ok : S → E → Prop} {s : S} {evs₁ evs₂ : List E}
    (h₁ : Guarded step ok s evs₁) (h₂ : Guarded step ok (run step s evs₁) evs₂) :
    Guarded step ok s (evs₁ ++ evs₂) := by
  induction evs₁ generalizing s with
  | nil => exact h₂
  | cons e evs₁ ih => exact ⟨h₁.1, ih h₁.2 h₂⟩

/-- A guard may be weakened. -/
theorem Guarded.mono {ok ok' : S → E → Prop} (himp : ∀ s e, ok s e → ok' s e) {s : S}
    {evs : List E} (h : Guarded step ok s evs) : Guarded step ok' s evs := by
  induction evs generalizing s with
  | nil => trivial
  | cons e evs ih => exact ⟨himp s e h.1, ih h.2⟩

/-- A guard on the events alone. -/
theorem guarded_of_forall {P : E → Prop} {s : S} {evs : List E} (h : ∀ e ∈ evs, P e) :
    Guarded step (fun _ e ↦ P e) s evs := by
  induction evs generalizing s with
  | nil => trivial
  | cons e evs ih => exact ⟨h e (by simp), ih fun e' he' ↦ h e' (by simp [he'])⟩

/-- Two guards at once. -/
theorem Guarded.and {ok ok' : S → E → Prop} {s : S} {evs : List E} (h : Guarded step ok s evs)
    (h' : Guarded step ok' s evs) : Guarded step (fun s e ↦ ok s e ∧ ok' s e) s evs := by
  induction evs generalizing s with
  | nil => trivial
  | cons e evs ih => exact ⟨⟨h.1, h'.1⟩, ih h.2 h'.2⟩

/-- What holds at the start and is kept by every step that meets the guard holds at the end
of every guarded run. -/
theorem Guarded.invariant {ok : S → E → Prop} {Inv : S → Prop}
    (hstep : ∀ s e, Inv s → ok s e → Inv (step s e)) {s : S} (hs : Inv s) {evs : List E}
    (h : Guarded step ok s evs) : Inv (run step s evs) := by
  induction evs generalizing s with
  | nil => exact hs
  | cons e evs ih => exact ih (hstep s e hs h.1) h.2

/-- Two guards that agree wherever the invariant of an allowed run holds. -/
theorem guarded_congr {ok ok' allowed : S → E → Prop} {Inv : S → Prop}
    (hstep : ∀ s e, Inv s → allowed s e → Inv (step s e))
    (hok : ∀ s e, Inv s → (ok s e ↔ ok' s e)) {s : S} (hs : Inv s) {evs : List E}
    (h : Guarded step allowed s evs) : Guarded step ok s evs ↔ Guarded step ok' s evs := by
  induction evs generalizing s with
  | nil => exact Iff.rfl
  | cons e evs ih => exact and_congr (hok s e hs) (ih (hstep s e hs h.1) h.2)

/-- The invariant rule for runs without a guard. -/
theorem invariant_run {Inv : S → Prop} (hstep : ∀ s e, Inv s → Inv (step s e)) {s : S}
    (hs : Inv s) (evs : List E) : Inv (run step s evs) := by
  induction evs generalizing s with
  | nil => exact hs
  | cons e evs ih => exact ih (hstep s e hs)

/-! ### Observations along a run -/

section Observations

variable {O : Type*} (obs : S → E → List O)

/-- What the events of a run show, one after the other. -/
def observed (step : S → E → S) : S → List E → List O
  | _, [] => []
  | s, e :: evs => obs s e ++ observed step (step s e) evs

/-- The invariant rule for the state together with what has been observed so far. -/
theorem Guarded.invariant_observed {ok : S → E → Prop} {Inv : S → List O → Prop}
    (hstep : ∀ s e os, Inv s os → ok s e → Inv (step s e) (os ++ obs s e)) {s : S} {os : List O}
    (hs : Inv s os) {evs : List E} (h : Guarded step ok s evs) :
    Inv (run step s evs) (os ++ observed obs step s evs) := by
  induction evs generalizing s os with
  | nil =>
    rw [observed, List.append_nil]
    exact hs
  | cons e evs ih =>
    rw [observed, ← List.append_assoc]
    exact ih (hstep s e os hs h.1) h.2

/-- What goes in, what comes out and what the state holds: a relation between lists that holds
before and after each step holds for a whole run. -/
theorem Guarded.traffic {ok : S → E → Prop} {Inv : S → Prop} {r : List O → List O → Prop}
    (hrefl : ∀ a, r a a) (htrans : ∀ {a b c}, r a b → r b c → r a c)
    (happend : ∀ {a b} c d, r a b → r (c ++ a ++ d) (c ++ b ++ d))
    {content : S → List O} {inp out : S → E → List O}
    (hinv : ∀ s e, Inv s → ok s e → Inv (step s e))
    (hstep : ∀ s e, Inv s → ok s e → r (out s e ++ content (step s e)) (content s ++ inp s e))
    {s : S} (hs : Inv s) {evs : List E} (h : Guarded step ok s evs) :
    r (observed out step s evs ++ content (run step s evs))
      (content s ++ observed inp step s evs) := by
  induction evs generalizing s with
  | nil =>
    rw [observed, observed, List.append_nil]
    exact hrefl _
  | cons e evs ih =>
    have hrest := happend (out s e) [] (ih (hinv s e hs h.1) h.2)
    have hfirst := happend [] (observed inp step (step s e) evs) (hstep s e hs h.1)
    simp only [List.nil_append, List.append_nil, List.append_assoc] at hrest hfirst
    simp only [observed, run_cons, List.append_assoc]
    exact htrans hrest hfirst

/-- Nothing is lost, added or taken out of order. -/
theorem Guarded.conserved {ok : S → E → Prop} {Inv : S → Prop} {content : S → List O}
    {inp out : S → E → List O} (hinv : ∀ s e, Inv s → ok s e → Inv (step s e))
    (hstep : ∀ s e, Inv s → ok s e → out s e ++ content (step s e) = content s ++ inp s e)
    {s : S} (hs : Inv s) {evs : List E} (h : Guarded step ok s evs) :
    observed out step s evs ++ content (run step s evs) = content s ++ observed inp step s evs :=
  h.traffic (fun _ ↦ rfl) Eq.trans (fun _ _ h ↦ by rw [h]) hinv hstep hs

/-- Nothing is added or taken out of order. -/
theorem Guarded.sublist {ok : S → E → Prop} {Inv : S → Prop} {content : S → List O}
    {inp out : S → E → List O} (hinv : ∀ s e, Inv s → ok s e → Inv (step s e))
    (hstep : ∀ s e, Inv s → ok s e →
      (out s e ++ content (step s e)).Sublist (content s ++ inp s e))
    {s : S} (hs : Inv s) {evs : List E} (h : Guarded step ok s evs) :
    (observed out step s evs ++ content (run step s evs)).Sublist
      (content s ++ observed inp step s evs) :=
  h.traffic List.Sublist.refl List.Sublist.trans
    (fun c d h ↦ (h.append_left c).append_right d) hinv hstep hs

/-- What two runs show, one after the other. -/
theorem observed_append (s : S) (evs₁ evs₂ : List E) :
    observed obs step s (evs₁ ++ evs₂) =
      observed obs step s evs₁ ++ observed obs step (run step s evs₁) evs₂ := by
  induction evs₁ generalizing s with
  | nil => rfl
  | cons e evs₁ ih => rw [List.cons_append, observed, ih, observed, List.append_assoc, run_cons]

/-- What is read off another observation event by event is read off it in a whole run. -/
theorem Guarded.observed_eq_filterMap {O' : Type*} {obs' : S → E → List O'} {f : O' → Option O}
    {ok : S → E → Prop} {Inv : S → Prop} (hinv : ∀ s e, Inv s → ok s e → Inv (step s e))
    (hobs : ∀ s e, Inv s → ok s e → obs s e = (obs' s e).filterMap f) {s : S} (hs : Inv s)
    {evs : List E} (h : Guarded step ok s evs) :
    observed obs step s evs = (observed obs' step s evs).filterMap f := by
  induction evs generalizing s with
  | nil => rfl
  | cons e evs ih =>
    rw [observed, observed, List.filterMap_append, hobs s e hs h.1, ih (hinv s e hs h.1) h.2]

end Observations

/-! ### Runs of a component -/

section Components

variable {S' E' O : Type*} {step' : S' → E' → S'} {component : S → S'} {forwarded : S → E → List E'}
  (hforwarded : ∀ s e, component (step s e) = run step' (component s) (forwarded s e))

include hforwarded

/-- A component that makes some steps of its own in each step of the system runs on them. -/
theorem component_run (s : S) (evs : List E) :
    component (run step s evs) = run step' (component s) (observed forwarded step s evs) := by
  induction evs generalizing s with
  | nil => rfl
  | cons e evs ih => rw [run_cons, ih, observed, run_append, hforwarded]

/-- What a component shows in a run of the system. -/
theorem observed_component (obs : S' → E' → List O) (s : S) (evs : List E) :
    observed obs step' (component s) (observed forwarded step s evs) =
      observed (fun s e ↦ observed obs step' (component s) (forwarded s e)) step s evs := by
  induction evs generalizing s with
  | nil => rfl
  | cons e evs ih => rw [observed, observed_append, ← hforwarded, ih, observed]

end Components

/-! ### Writing in order -/

section Pointers

variable (p q : S → E → Prop)

/-- After an event of the first kind there is none of the second. -/
def NeverAfter (step : S → E → S) : S → List E → Prop
  | _, [] => True
  | s, e :: evs =>
    (p s e → Guarded step (fun s e ↦ ¬ q s e) (step s e) evs) ∧ NeverAfter step (step s e) evs

/-- Two conditions that can be computed can be checked along a run. -/
instance NeverAfter.decidable [∀ s e, Decidable (p s e)] [∀ s e, Decidable (q s e)]
    (step : S → E → S) : ∀ (s : S) (evs : List E), Decidable (NeverAfter p q step s evs)
  | _, [] => inferInstanceAs (Decidable True)
  | s, e :: evs =>
    have := NeverAfter.decidable step (step s e) evs
    inferInstanceAs (Decidable (_ ∧ _))

variable {p q}

/-- Without events of the second kind there are none after any other. -/
theorem neverAfter_of_guarded {s : S} {evs : List E}
    (h : Guarded step (fun s e ↦ ¬ q s e) s evs) : NeverAfter p q step s evs := by
  induction evs generalizing s with
  | nil => trivial
  | cons e evs ih => exact ⟨fun _ ↦ h.2, ih h.2⟩

variable (p q) in
/-- What an event does to a pointer: it skips something, it writes at the pointer and moves it on
by one, or it leaves the pointer. -/
structure Advances (step : S → E → S) (ptr : S → Nat) (pos : S → E → List Nat) (s : S) (e : E) :
    Prop where
  skip : p s e → pos s e = [] ∧ ptr s < ptr (step s e)
  write : q s e → pos s e = [ptr s] ∧ ptr (step s e) = ptr s + 1
  stay : ¬ p s e → ¬ q s e → pos s e = [] ∧ ptr (step s e) = ptr s

variable {ptr : S → Nat} {pos : S → E → List Nat} {ok : S → E → Prop} {Inv : S → Prop}
  (hinv : ∀ s e, Inv s → ok s e → Inv (step s e))
  (hstep : ∀ s e, Inv s → ok s e → Advances p q step ptr pos s e)

include hinv hstep

private theorem observed_eq_range'_of_lt {c : Nat} {s : S} (hs : Inv s) (hc : c < ptr s)
    {evs : List E} (h : Guarded step ok s evs) :
    (∃ k, observed pos step s evs = List.range' c k) ↔
      Guarded step (fun s e ↦ ¬ q s e) s evs := by
  induction evs generalizing s with
  | nil => exact ⟨fun _ ↦ trivial, fun _ ↦ ⟨0, rfl⟩⟩
  | cons e evs ih =>
    have hadv := hstep s e hs h.1
    by_cases hq : q s e
    · -- the first position written is behind `c`
      obtain ⟨hpos, -⟩ := hadv.write hq
      refine iff_of_false ?_ fun hno ↦ hno.1 hq
      rintro ⟨k, hk⟩
      rw [observed, hpos] at hk
      cases k with
      | zero => cases hk
      | succ k =>
        rw [List.range'_succ] at hk
        have hhead := (List.cons.inj hk).1
        omega
    · have hmove : pos s e = [] ∧ ptr s ≤ ptr (step s e) := by
        by_cases hp : p s e
        · exact ⟨(hadv.skip hp).1, Nat.le_of_lt (hadv.skip hp).2⟩
        · exact ⟨(hadv.stay hp hq).1, Nat.le_of_eq (hadv.stay hp hq).2.symm⟩
      have hih := ih (hinv s e hs h.1) (Nat.lt_of_lt_of_le hc hmove.2) h.2
      rw [observed, hmove.1, List.nil_append, hih]
      exact ⟨fun hg ↦ ⟨hq, hg⟩, fun hg ↦ hg.2⟩

/-- The positions written are consecutive exactly if nothing is written after something was
skipped. -/
theorem observed_eq_range'_iff {s : S} (hs : Inv s) {evs : List E} (h : Guarded step ok s evs) :
    (∃ k, observed pos step s evs = List.range' (ptr s) k) ↔ NeverAfter p q step s evs := by
  induction evs generalizing s with
  | nil => exact ⟨fun _ ↦ trivial, fun _ ↦ ⟨0, rfl⟩⟩
  | cons e evs ih =>
    have hadv := hstep s e hs h.1
    have hs' := hinv s e hs h.1
    by_cases hp : p s e
    · obtain ⟨hpos, hlt⟩ := hadv.skip hp
      rw [observed, hpos, List.nil_append, observed_eq_range'_of_lt hinv hstep hs' hlt h.2]
      exact ⟨fun hg ↦ ⟨fun _ ↦ hg, neverAfter_of_guarded hg⟩, fun hn ↦ hn.1 hp⟩
    · have hnever : NeverAfter p q step s (e :: evs) ↔ NeverAfter p q step (step s e) evs :=
        ⟨fun hn ↦ hn.2, fun hn ↦ ⟨fun hno ↦ absurd hno hp, hn⟩⟩
      rw [hnever, ← ih hs' h.2]
      by_cases hq : q s e
      · obtain ⟨hpos, hptr⟩ := hadv.write hq
        rw [observed, hpos, hptr]
        constructor
        · rintro ⟨k, hk⟩
          cases k with
          | zero => cases hk
          | succ k =>
            rw [List.range'_succ] at hk
            exact ⟨k, (List.cons.inj hk).2⟩
        · rintro ⟨k, hk⟩
          exact ⟨k + 1, by rw [hk, List.range'_succ]; rfl⟩
      · obtain ⟨hpos, hptr⟩ := hadv.stay hp hq
        rw [observed, hpos, hptr, List.nil_append]

end Pointers

/-! ### Costs along a run -/

/-- What the events of a run cost together. -/
def total (cost : S → E → Nat) (step : S → E → S) : S → List E → Nat
  | _, [] => 0
  | s, e :: evs => cost s e + total cost step (step s e) evs

/-- The rule of a potential `n` that pays for the steps: one that is raised by no step by more than
what the event brings bounds what a whole run costs. -/
theorem Guarded.total_add_le {ok : S → E → Prop} {Inv : S → Nat → Prop}
    {cost credit : S → E → Nat}
    (hstep : ∀ s e n, Inv s n → ok s e →
      ∃ n', Inv (step s e) n' ∧ cost s e + n' ≤ n + credit s e)
    {s : S} {n : Nat} (hs : Inv s n) {evs : List E} (h : Guarded step ok s evs) :
    ∃ n', Inv (run step s evs) n' ∧
      total cost step s evs + n' ≤ n + total credit step s evs := by
  induction evs generalizing s n with
  | nil => exact ⟨n, hs, by simp [total]⟩
  | cons e evs ih =>
    obtain ⟨n₁, hs₁, hle₁⟩ := hstep s e n hs h.1
    obtain ⟨n', hs', hle'⟩ := ih hs₁ h.2
    refine ⟨n', hs', ?_⟩
    rw [total, total]
    omega

end HorrorScope.Base
