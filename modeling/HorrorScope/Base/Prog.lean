import Mathlib.Logic.Relation

/-!
# Statement-level programs under interference

A routine of a processor that shares its state `σ` with hardware: assignments, reads of the
shared state and busy waits, each one atomic, with the hardware free to act between any two of
them. `Safe` is the partial-correctness judgement for such a program: whatever steps of the
interference relation `R` come in between, every state on the way satisfies `I`, every wait is
entered only in states that satisfy `W` and the program returns only in states that satisfy
`Q`. The proof rules ask for an assertion that the interference keeps (`Stable`) in front of
each statement.
-/

namespace HorrorScope.Base

/-- A program over shared state `σ` that returns an `α`. -/
inductive Prog (σ α : Type) : Type where
  /-- Return. -/
  | ret (a : α)
  /-- One assignment to the shared state. -/
  | stmt (f : σ → σ) (k : Prog σ α)
  /-- One read of the shared state. -/
  | get (k : σ → Prog σ α)
  /-- A busy wait: `while (!c);`. -/
  | await (c : σ → Bool) (k : Prog σ α)

namespace Prog

variable {σ α β : Type}

/-- Sequential composition. -/
def bind : Prog σ α → (α → Prog σ β) → Prog σ β
  | ret a, g => g a
  | stmt f k, g => stmt f (k.bind g)
  | get k, g => get fun s ↦ (k s).bind g
  | await c k, g => await c (k.bind g)

/-- Programs in sequence. -/
instance : Monad (Prog σ) where
  pure := ret
  bind := bind

/-- The assignment `f` as a program. -/
def assign (f : σ → σ) : Prog σ Unit := stmt f (ret ())

/-- The value `f` has in the shared state at this moment. -/
def read (f : σ → α) : Prog σ α := get fun s ↦ ret (f s)

/-- `while (!c);` as a program. -/
def wait (c : σ → Bool) : Prog σ Unit := await c (ret ())

/-- One step of the processor; a wait whose condition is false steps to itself. -/
def step : Prog σ α → σ → Prog σ α × σ
  | ret a, s => (ret a, s)
  | stmt f k, s => (k, f s)
  | get k, s => (k s, s)
  | await c k, s => if c s then (k, s) else (await c k, s)

/-- An assertion the interference `R` keeps. -/
def Stable (R : σ → σ → Prop) (P : σ → Prop) : Prop := ∀ ⦃s s'⦄, P s → R s s' → P s'

/-- A stable assertion outlasts any number of actions of the environment. -/
theorem Stable.many {R : σ → σ → Prop} {P : σ → Prop} (h : Stable R P) {s s' : σ} (hs : P s)
    (hR : Relation.ReflTransGen R s s') : P s' := by
  induction hR with
  | refl => exact hs
  | tail _ hb ih => exact h ih hb

/-- Under interference `R`, every state satisfies `I`, waits are entered only in `W`-states and
`Q` holds on return. -/
def Safe (R : σ → σ → Prop) (I : σ → Prop) (W : (σ → Bool) → σ → Prop) (Q : α → σ → Prop) :
    Prog σ α → σ → Prop
  | ret a, s => ∀ s', Relation.ReflTransGen R s s' → I s' ∧ Q a s'
  | stmt f k, s => ∀ s', Relation.ReflTransGen R s s' → I s' ∧ Safe R I W Q k (f s')
  | get k, s => ∀ s', Relation.ReflTransGen R s s' → I s' ∧ Safe R I W Q (k s') s'
  | await c k, s => ∀ s', Relation.ReflTransGen R s s' →
      I s' ∧ W c s' ∧ (c s' = true → Safe R I W Q k s')

section Rules

variable {R : σ → σ → Prop} {I : σ → Prop} {W : (σ → Bool) → σ → Prop} {Q : α → σ → Prop}

/-- Interference keeps the judgement. -/
theorem Safe.env {p : Prog σ α} {s s' : σ} (h : Safe R I W Q p s) (hR : R s s') :
    Safe R I W Q p s' := by
  cases p with
  | ret a => exact fun t ht ↦ h t (.head hR ht)
  | stmt f k => exact fun t ht ↦ h t (.head hR ht)
  | get k => exact fun t ht ↦ h t (.head hR ht)
  | await c k => exact fun t ht ↦ h t (.head hR ht)

/-- A step of the program keeps the judgement. -/
theorem Safe.step {p : Prog σ α} {s : σ} (h : Safe R I W Q p s) :
    Safe R I W Q (p.step s).1 (p.step s).2 := by
  cases p with
  | ret a => exact h
  | stmt f k => exact (h s .refl).2
  | get k => exact (h s .refl).2
  | await c k =>
    by_cases hc : c s = true
    · rw [show (await c k).step s = (k, s) from if_pos hc]
      exact (h s .refl).2.2 hc
    · rw [show (await c k).step s = (await c k, s) from if_neg hc]
      exact h

/-- The invariant holds where a safe program starts. -/
theorem Safe.inv {p : Prog σ α} {s : σ} (h : Safe R I W Q p s) : I s := by
  cases p with
  | ret a => exact (h s .refl).1
  | stmt f k => exact (h s .refl).1
  | get k => exact (h s .refl).1
  | await c k => exact (h s .refl).1

/-- The postcondition holds where a safe program has returned. -/
theorem Safe.of_ret {a : α} {s : σ} (h : Safe R I W Q (ret a) s) : Q a s := (h s .refl).2

/-- The assertion of a busy wait holds where a safe program waits. -/
theorem Safe.of_await {c : σ → Bool} {k : Prog σ α} {s : σ} (h : Safe R I W Q (await c k) s) :
    W c s := (h s .refl).2.1

/-- The rule for a result. -/
theorem safe_ret {P : σ → Prop} (hP : Stable R P) {a : α} {s : σ} (hs : P s)
    (hQ : ∀ s, P s → Q a s) (hI : ∀ s, P s → I s := by simp) : Safe R I W Q (ret a) s :=
  fun t ht ↦ ⟨hI t (hP.many hs ht), hQ t (hP.many hs ht)⟩

/-- The rule for an assignment. -/
theorem safe_stmt {P : σ → Prop} (hP : Stable R P) {f : σ → σ} {k : Prog σ α} {s : σ} (hs : P s)
    (hk : ∀ s, P s → Safe R I W Q k (f s)) (hI : ∀ s, P s → I s := by simp) :
    Safe R I W Q (stmt f k) s :=
  fun t ht ↦ ⟨hI t (hP.many hs ht), hk t (hP.many hs ht)⟩

/-- The rule for a read. -/
theorem safe_get {P : σ → Prop} (hP : Stable R P) {k : σ → Prog σ α} {s : σ} (hs : P s)
    (hk : ∀ s, P s → Safe R I W Q (k s) s) (hI : ∀ s, P s → I s := by simp) :
    Safe R I W Q (get k) s :=
  fun t ht ↦ ⟨hI t (hP.many hs ht), hk t (hP.many hs ht)⟩

/-- The rule for a busy wait. -/
theorem safe_await {P : σ → Prop} (hP : Stable R P) {c : σ → Bool} {k : Prog σ α} {s : σ}
    (hs : P s) (hW : ∀ s, P s → W c s) (hk : ∀ s, P s → c s = true → Safe R I W Q k s)
    (hI : ∀ s, P s → I s := by simp) : Safe R I W Q (await c k) s :=
  fun t ht ↦ ⟨hI t (hP.many hs ht), hW t (hP.many hs ht), hk t (hP.many hs ht)⟩

/-- Weaker assertions. -/
theorem Safe.mono {I' : σ → Prop} {W' : (σ → Bool) → σ → Prop} {Q' : α → σ → Prop}
    {p : Prog σ α} {s : σ} (h : Safe R I W Q p s) (hI : ∀ s, I s → I' s)
    (hW : ∀ c s, W c s → W' c s) (hQ : ∀ a s, Q a s → Q' a s) : Safe R I' W' Q' p s := by
  induction p generalizing s with
  | ret a => exact fun t ht ↦ ⟨hI t (h t ht).1, hQ a t (h t ht).2⟩
  | stmt f k ih => exact fun t ht ↦ ⟨hI t (h t ht).1, ih (h t ht).2⟩
  | get k ih => exact fun t ht ↦ ⟨hI t (h t ht).1, ih t (h t ht).2⟩
  | await c k ih =>
    exact fun t ht ↦ ⟨hI t (h t ht).1, hW c t (h t ht).2.1, fun hc ↦ ih ((h t ht).2.2 hc)⟩

/-- Weaker postconditions. -/
theorem Safe.imp {Q' : α → σ → Prop} {p : Prog σ α} {s : σ} (h : Safe R I W Q p s)
    (hQ : ∀ a s, Q a s → Q' a s) : Safe R I W Q' p s :=
  h.mono (fun _ h ↦ h) (fun _ _ h ↦ h) hQ

/-- Sequencing: the first program establishes what the second one needs. -/
theorem safe_bind {Q' : β → σ → Prop} {p : Prog σ α} {g : α → Prog σ β} {s : σ}
    (h : Safe R I W (fun a s' ↦ Safe R I W Q' (g a) s') p s) : Safe R I W Q' (p >>= g) s := by
  induction p generalizing s with
  | ret a => exact (h s .refl).2
  | stmt f k ih => exact fun t ht ↦ ⟨(h t ht).1, ih (h t ht).2⟩
  | get k ih => exact fun t ht ↦ ⟨(h t ht).1, ih t (h t ht).2⟩
  | await c k ih => exact fun t ht ↦ ⟨(h t ht).1, (h t ht).2.1, fun hc ↦ ih ((h t ht).2.2 hc)⟩

end Rules

/-- Every assignment of the program keeps `I`. -/
def Keeps (I : σ → Prop) : Prog σ α → Prop
  | ret _ => True
  | stmt f k => (∀ s, I s → I (f s)) ∧ k.Keeps I
  | get k => ∀ s, (k s).Keeps I
  | await _ k => k.Keeps I

/-- A sequence keeps what both parts keep. -/
theorem keeps_bind {I : σ → Prop} {p : Prog σ α} {g : α → Prog σ β} (hp : p.Keeps I)
    (hg : ∀ a, (g a).Keeps I) : (p >>= g).Keeps I := by
  induction p with
  | ret a => exact hg a
  | stmt f k ih => exact ⟨hp.1, ih hp.2⟩
  | get k ih => exact fun s ↦ ih s (hp s)
  | await c k ih => exact ih hp

/-- Every program keeps the trivial assertion. -/
theorem keeps_true (p : Prog σ α) : p.Keeps fun _ ↦ True := by
  induction p with
  | ret a => trivial
  | stmt f k ih => exact ⟨fun _ _ ↦ trivial, ih⟩
  | get k ih => exact ih
  | await c k ih => exact ih

/-- Where the interference keeps `I`, too, it holds throughout a program whose assignments
keep it. -/
theorem Keeps.safe {R : σ → σ → Prop} {I : σ → Prop} (hR : Stable R I) {p : Prog σ α}
    (hp : p.Keeps I) {s : σ} (hs : I s) :
    Safe R I (fun _ s' ↦ I s') (fun _ s' ↦ I s') p s := by
  induction p generalizing s with
  | ret a => exact safe_ret hR hs (fun _ h ↦ h) (fun _ h ↦ h)
  | stmt f k ih => exact safe_stmt hR hs (fun t ht ↦ ih hp.2 (hp.1 t ht)) (fun _ h ↦ h)
  | get k ih => exact safe_get hR hs (fun t ht ↦ ih t (hp t) ht) (fun _ h ↦ h)
  | await c k ih =>
    exact safe_await hR hs (fun _ h ↦ h) (fun t ht _ ↦ ih hp ht) (fun _ h ↦ h)

/-- Any program, where nothing is claimed. -/
theorem safe_true {R : σ → σ → Prop} (p : Prog σ α) (s : σ) :
    Safe R (fun _ ↦ True) (fun _ _ ↦ True) (fun _ _ ↦ True) p s :=
  (keeps_true p).safe (fun _ _ _ _ ↦ trivial) trivial

/-! ### What a program reads -/

section Reads

variable {ο : Type} {obs : σ → List ο}

/-- Whatever states the program reads, the observations `os` made of them and the value `a` it
returns satisfy `Q`. -/
def Yields (obs : σ → List ο) (Q : List ο → α → Prop) : Prog σ α → Prop
  | ret a => Q [] a
  | stmt _ k => k.Yields obs Q
  | get k => ∀ s, (k s).Yields obs fun os a ↦ Q (obs s ++ os) a
  | await _ k => k.Yields obs Q

/-- The rule of consequence for observations. -/
theorem Yields.mono {Q Q' : List ο → α → Prop} (hQ : ∀ os a, Q os a → Q' os a) {p : Prog σ α}
    (h : p.Yields obs Q) : p.Yields obs Q' := by
  induction p generalizing Q Q' with
  | ret a => exact hQ _ _ h
  | stmt f k ih => exact ih hQ h
  | get k ih => exact fun s ↦ ih s (fun os a ↦ hQ _ a) (h s)
  | await c k ih => exact ih hQ h

/-- The observations of a sequence are those of its parts. -/
theorem yields_bind {Q : List ο → β → Prop} {p : Prog σ α} {g : α → Prog σ β}
    (h : p.Yields obs fun os a ↦ (g a).Yields obs fun os' b ↦ Q (os ++ os') b) :
    (p >>= g).Yields obs Q := by
  change (p.bind g).Yields obs Q
  induction p generalizing Q with
  | ret a => exact h
  | stmt f k ih => exact ih h
  | get k ih =>
    intro s
    refine ih s ((h s).mono fun os a ha ↦ ha.mono fun os' b hb ↦ ?_)
    rw [← List.append_assoc]
    exact hb
  | await c k ih => exact ih h

/-- Nothing is observed of the states read. -/
theorem yields_silent {Q : List ο → α → Prop} (hQ : ∀ a, Q [] a) (p : Prog σ α) :
    p.Yields (fun _ ↦ []) Q := by
  induction p with
  | ret a => exact hQ a
  | stmt f k ih => exact ih
  | get k ih => exact ih
  | await c k ih => exact ih

/-- Some execution of the program there is. -/
theorem Yields.exists [Inhabited σ] {Q : List ο → α → Prop} {p : Prog σ α}
    (h : p.Yields obs Q) : ∃ os a, Q os a := by
  induction p generalizing Q with
  | ret a => exact ⟨[], a, h⟩
  | stmt f k ih => exact ih h
  | get k ih =>
    obtain ⟨os, a, ha⟩ := ih default (h default)
    exact ⟨_, a, ha⟩
  | await c k ih => exact ih h

end Reads

/-! ### Execution against given interference -/

/-- Run the program, with what the hardware does before statement `i` given by `env i`. A wait is
left in the state it is entered in: `Passes` says that its condition holds there. -/
def exec (env : Nat → σ → σ) : Prog σ α → Nat × σ → α × (Nat × σ)
  | ret a, s => (a, s)
  | stmt f k, s => k.exec env (s.1 + 1, f (env s.1 s.2))
  | get k, s => (k (env s.1 s.2)).exec env (s.1 + 1, env s.1 s.2)
  | await _ k, s => k.exec env (s.1 + 1, env s.1 s.2)

/-- The interference ends every wait of the program. -/
def Passes (env : Nat → σ → σ) : Prog σ α → Nat × σ → Prop
  | ret _, _ => True
  | stmt f k, s => k.Passes env (s.1 + 1, f (env s.1 s.2))
  | get k, s => (k (env s.1 s.2)).Passes env (s.1 + 1, env s.1 s.2)
  | await c k, s => c (env s.1 s.2) = true ∧ k.Passes env (s.1 + 1, env s.1 s.2)

/-- What the interference and the program's assignments keep holds behind the program. -/
theorem Keeps.exec {env : Nat → σ → σ} {I : σ → Prop} (henv : ∀ i s, I s → I (env i s))
    {p : Prog σ α} (hp : p.Keeps I) {s : Nat × σ} (hs : I s.2) : I (p.exec env s).2.2 := by
  induction p generalizing s with
  | ret a => exact hs
  | stmt f k ih => exact ih hp.2 (hp.1 _ (henv _ _ hs))
  | get k ih => exact ih _ (hp _) (henv _ _ hs)
  | await c k ih => exact ih hp (henv _ _ hs)

/-- Some assignment of the program establishes `I`, and none behind it breaks it. -/
def Ensures (I : σ → Prop) : Prog σ α → Prop
  | ret _ => False
  | stmt f k => ((∀ s, I (f s)) ∧ k.Keeps I) ∨ k.Ensures I
  | get k => ∀ s, (k s).Ensures I
  | await _ k => k.Ensures I

/-- What the first part ensures and the second keeps is ensured. -/
theorem ensures_bind {I : σ → Prop} {p : Prog σ α} {g : α → Prog σ β} (hp : p.Ensures I)
    (hg : ∀ a, (g a).Keeps I) : (p >>= g).Ensures I := by
  induction p with
  | ret a => exact hp.elim
  | stmt f k ih =>
    rcases hp with ⟨hf, hk⟩ | hk
    · exact .inl ⟨hf, keeps_bind hk hg⟩
    · exact .inr (ih hk)
  | get k ih => exact fun s ↦ ih s (hp s)
  | await c k ih => exact ih hp

/-- What the interference keeps and the program establishes holds behind the program. -/
theorem Ensures.exec {env : Nat → σ → σ} {I : σ → Prop} (henv : ∀ i s, I s → I (env i s))
    {p : Prog σ α} (hp : p.Ensures I) (s : Nat × σ) : I (p.exec env s).2.2 := by
  induction p generalizing s with
  | ret a => exact hp.elim
  | stmt f k ih =>
    rcases hp with ⟨hf, hk⟩ | hk
    · exact hk.exec henv (hf _)
    · exact ih hk _
  | get k ih => exact ih _ (hp _) _
  | await c k ih => exact ih hp _

/-! ### A program seen through a view of the state -/

section Views

variable {τ : Type} {view : σ → τ}

/-- Whatever it reads, the program turns a state with the view `x` into one with the view `y`. -/
def Maps (view : σ → τ) : Prog σ α → τ → τ → Prop
  | ret _, x, y => y = x
  | stmt f k, x, y => ∃ g : τ → τ, (∀ s, view (f s) = g (view s)) ∧ k.Maps view (g x) y
  | get k, x, y => ∀ s, (k s).Maps view x y
  | await _ k, x, y => k.Maps view x y

/-- What two parts do to a view one after the other. -/
theorem maps_bind {p : Prog σ α} {g : α → Prog σ β} {x y z : τ} (hp : p.Maps view x y)
    (hg : ∀ a, (g a).Maps view y z) : (p >>= g).Maps view x z := by
  change (p.bind g).Maps view x z
  induction p generalizing x with
  | ret a =>
    cases hp
    exact hg a
  | stmt f k ih =>
    obtain ⟨f', hf, hk⟩ := hp
    exact ⟨f', hf, ih hk⟩
  | get k ih => exact fun s ↦ ih s (hp s)
  | await c k ih => exact ih hp

/-- Interference that does not change the view leaves what the program makes of it. -/
theorem Maps.exec {env : Nat → σ → σ} (henv : ∀ i s, view (env i s) = view s) {p : Prog σ α}
    {s : Nat × σ} {y : τ} (hp : p.Maps view (view s.2) y) : view (p.exec env s).2.2 = y := by
  induction p generalizing s with
  | ret a => exact hp.symm
  | stmt f k ih =>
    obtain ⟨f', hf, hk⟩ := hp
    apply ih
    rw [hf, henv]
    exact hk
  | get k ih =>
    apply ih
    rw [henv]
    exact hp _
  | await c k ih =>
    apply ih
    rw [henv]
    exact hp

end Views

end Prog

end HorrorScope.Base
