import Mathlib.Logic.Basic

/-!
# Reactive processes

A process reads inputs of type `ι`, sends outputs of type `ο` and makes calls `c : γ` that are
answered by something outside it with a value of `ρ c`. It is the tree of everything it may do
next, so a property of all its behaviours is a recursion over the tree (`Proc.All`).
-/

namespace HorrorScope.Base

/-- A process that returns an `α`. -/
inductive Proc (ι ο γ : Type) (ρ : γ → Type) (α : Type) : Type where
  /-- Return. -/
  | ret (a : α)
  /-- Wait for one input. -/
  | recv (k : ι → Proc ι ο γ ρ α)
  /-- Send one output. -/
  | send (o : ο) (k : Proc ι ο γ ρ α)
  /-- Make a call and go on with its answer. -/
  | call (c : γ) (k : ρ c → Proc ι ο γ ρ α)

namespace Proc

variable {ι ο γ : Type} {ρ : γ → Type} {α β : Type}

/-- Sequential composition. -/
def bind : Proc ι ο γ ρ α → (α → Proc ι ο γ ρ β) → Proc ι ο γ ρ β
  | ret a, g => g a
  | recv k, g => recv fun i ↦ (k i).bind g
  | send o k, g => send o (k.bind g)
  | call c k, g => call c fun r ↦ (k r).bind g

/-- Processes in sequence. -/
instance : Monad (Proc ι ο γ ρ) where
  pure := ret
  bind := bind

/-- Wait for one input and return it. -/
def input : Proc ι ο γ ρ ι := recv ret

/-- Send `o`. -/
def output (o : ο) : Proc ι ο γ ρ Unit := send o (ret ())

/-- Make the call `c` and return its answer. -/
def ask (c : γ) : Proc ι ο γ ρ (ρ c) := call c ret

/-- `pure` is `ret`. -/
@[simp] theorem pure_eq_ret (a : α) : (pure a : Proc ι ο γ ρ α) = ret a := rfl

/-- A process behind a result. -/
@[simp] theorem ret_bind (a : α) (g : α → Proc ι ο γ ρ β) : (ret a >>= g) = g a := rfl

/-- Three processes in sequence. -/
theorem bind_assoc {δ : Type} (p : Proc ι ο γ ρ α) (g : α → Proc ι ο γ ρ β)
    (f : β → Proc ι ο γ ρ δ) : (p >>= g >>= f) = (p >>= fun a ↦ g a >>= f) := by
  induction p with
  | ret a => rfl
  | recv k ih => exact congrArg recv (funext ih)
  | send o k ih => exact congrArg (send o) ih
  | call c k ih => exact congrArg (call c) (funext ih)

/-- Every call the process may make satisfies `P`, every value it may return `Q`. -/
def All (P : γ → Prop) (Q : α → Prop) : Proc ι ο γ ρ α → Prop
  | ret a => Q a
  | recv k => ∀ i, (k i).All P Q
  | send _ k => k.All P Q
  | call c k => P c ∧ ∀ r, (k r).All P Q

variable {P : γ → Prop} {Q : α → Prop}

/-- `All` of a result. -/
@[simp] theorem all_ret (a : α) : (ret a : Proc ι ο γ ρ α).All P Q ↔ Q a := .rfl

/-- `All` of an input. -/
@[simp] theorem all_recv (k : ι → Proc ι ο γ ρ α) :
    (recv k).All P Q ↔ ∀ i, (k i).All P Q := .rfl

/-- `All` of an output. -/
@[simp] theorem all_send (o : ο) (k : Proc ι ο γ ρ α) : (send o k).All P Q ↔ k.All P Q := .rfl

/-- `All` of a call. -/
@[simp] theorem all_call (c : γ) (k : ρ c → Proc ι ο γ ρ α) :
    (call c k).All P Q ↔ P c ∧ ∀ r, (k r).All P Q := .rfl

/-- A condition that asks for nothing holds of every process. -/
theorem all_true (p : Proc ι ο γ ρ α) : p.All (fun _ ↦ True) (fun _ ↦ True) := by
  induction p with
  | ret a => trivial
  | recv k ih => exact ih
  | send o k ih => exact ih
  | call c k ih => exact ⟨trivial, ih⟩

end Proc

end HorrorScope.Base
