import Mathlib.Data.List.Basic
import HorrorScope.Base.Proc

/-!
# A server and its client, taking turns

A `Service` is a loop that waits for an input, runs the process the input selects and waits
again. The calls its processes make are answered by `handle`, over a state `η` of their own.
Such a server is determined by the inputs it gets, so a client can be run against it as if the
server did everything it can between two actions of the client: `Client.exec`.

What the server has done since the client last read is kept as a list of actions: `some o` for
an output, `none` for a step that sends nothing (taking an input, making a call). The silent
steps behind the last output a client reads tell whether it can be sure that the server has
come to rest.
-/

namespace HorrorScope.Base

/-- A server loop with state `α` between two inputs, over an environment with state `η`. -/
structure Service (ι ο γ : Type) (ρ : γ → Type) (α η : Type) where
  /-- The process an input selects. -/
  start : α → ι → Proc ι ο γ ρ α
  /-- The answer to a call. -/
  handle : (c : γ) → η → ρ c × η

/-- A server that has done what it can, and its actions the client has not read past. -/
structure Turn (ι ο γ : Type) (ρ : γ → Type) (α η : Type) where
  proc : Proc ι ο γ ρ α
  env : η
  unread : List (Option ο)

/-! ### Action lists -/

section Actions

variable {ο : Type}

/-- Read up to `n` outputs: the outputs, and the actions behind the last of them. -/
def readActions : Nat → List (Option ο) → List ο × List (Option ο)
  | 0, u => ([], u)
  | _ + 1, [] => ([], [])
  | n + 1, none :: u => readActions (n + 1) u
  | n + 1, some o :: u => (o :: (readActions n u).1, (readActions n u).2)

/-- A read of nothing. -/
@[simp] theorem readActions_zero (u : List (Option ο)) : readActions 0 u = ([], u) := by
  unfold readActions
  rfl

/-- A read when nothing has been said. -/
@[simp] theorem readActions_nil (n : Nat) : readActions n ([] : List (Option ο)) = ([], []) := by
  cases n <;> rfl

/-- A read passes over a silent action. -/
@[simp] theorem readActions_none (n : Nat) (u : List (Option ο)) :
    readActions (n + 1) (none :: u) = readActions (n + 1) u := by
  rw [readActions]

/-- A read takes a byte. -/
@[simp] theorem readActions_some (n : Nat) (o : ο) (u : List (Option ο)) :
    readActions (n + 1) (some o :: u) = (o :: (readActions n u).1, (readActions n u).2) := by
  rw [readActions]

/-- A read passes over any number of silent actions. -/
@[simp] theorem readActions_replicate (n k : Nat) (u : List (Option ο)) :
    readActions (n + 1) (List.replicate k none ++ u) = readActions (n + 1) u := by
  induction k with
  | zero => rfl
  | succ k ih =>
    rw [List.replicate_succ, List.cons_append, readActions_none, ih]

/-- Outputs that are all there. -/
theorem readActions_map_append {n : Nat} {os : List ο} (h : n ≤ os.length)
    (u : List (Option ο)) :
    readActions n (os.map some ++ u) = (os.take n, (os.drop n).map some ++ u) := by
  induction os generalizing n with
  | nil =>
    obtain rfl : n = 0 := Nat.le_zero.mp h
    simp
  | cons o os ih =>
    cases n with
    | zero => simp
    | succ n => simp [ih (Nat.le_of_succ_le_succ h)]

/-- Fewer outputs than asked for. -/
theorem readActions_map {n : Nat} {os : List ο} (h : os.length ≤ n) :
    readActions n (os.map some) = (os, []) := by
  induction os generalizing n with
  | nil => simp
  | cons o os ih =>
    cases n with
    | zero => exact absurd h (Nat.not_succ_le_zero _)
    | succ n => simp [ih (Nat.le_of_succ_le_succ h)]

/-- The same actions without some of the silent ones. -/
inductive Quieter : List (Option ο) → List (Option ο) → Prop
  | nil : Quieter [] []
  | skip {u u' : List (Option ο)} (h : Quieter u u') : Quieter u (none :: u')
  | cons (a : Option ο) {u u' : List (Option ο)} (h : Quieter u u') : Quieter (a :: u) (a :: u')

namespace Quieter

/-- As quiet as itself. -/
theorem refl : ∀ u : List (Option ο), Quieter u u
  | [] => .nil
  | a :: u => .cons a (refl u)

/-- Quieter in both parts. -/
theorem append {u u' w w' : List (Option ο)} (h : Quieter u u') (hw : Quieter w w') :
    Quieter (u ++ w) (u' ++ w') := by
  induction h with
  | nil => exact hw
  | skip _ ih => exact .skip ih
  | cons a _ ih => exact .cons a ih

/-- Quieter in two steps. -/
theorem trans {u v w : List (Option ο)} (h : Quieter u v) (hv : Quieter v w) : Quieter u w := by
  induction hv generalizing u with
  | nil => exact h
  | skip _ ih => exact .skip (ih h)
  | cons a _ ih =>
    cases h with
    | skip h => exact .skip (ih h)
    | cons _ h => exact .cons a (ih h)

/-- Nothing is quieter than nothing. -/
theorem eq_nil {u : List (Option ο)} (h : Quieter u []) : u = [] := by
  cases h
  rfl

/-- Silent actions do not change what is read. -/
theorem readActions {u u' : List (Option ο)} (h : Quieter u u') (n : Nat) :
    (readActions n u).1 = (readActions n u').1 ∧
      Quieter (Base.readActions n u).2 (Base.readActions n u').2 := by
  induction h generalizing n with
  | nil => simp [Quieter.nil]
  | skip h ih =>
    cases n with
    | zero => simpa using h.skip
    | succ n => simpa using ih (n + 1)
  | cons a h ih =>
    cases n with
    | zero => simpa using h.cons a
    | succ n =>
      cases a with
      | none => simpa using ih (n + 1)
      | some o => simpa using ih n

end Quieter

end Actions

/-! ### The server -/

namespace Service

variable {ι ο γ : Type} {ρ : γ → Type} {α η : Type}

/-- The process waits for an input: for an operand or, once it has returned, for the next
command. -/
def Waits : Proc ι ο γ ρ α → Prop
  | .ret _ => True
  | .recv _ => True
  | .send _ _ => False
  | .call _ _ => False

variable (S : Service ι ο γ ρ α η)

/-- A waiting process takes an input. -/
def give : Proc ι ο γ ρ α → ι → Proc ι ο γ ρ α
  | .ret a, b => S.start a b
  | .recv k, b => k b
  | p, _ => p

/-- Run to the next read, behind the actions `u`. -/
def settle : Proc ι ο γ ρ α → η → List (Option ο) → Turn ι ο γ ρ α η
  | .ret a, h, u => ⟨.ret a, h, u⟩
  | .recv k, h, u => ⟨.recv k, h, u⟩
  | .send o k, h, u => settle k h (u ++ [some o])
  | .call c k, h, u => settle (k (S.handle c h).1) (S.handle c h).2 (u ++ [none])

/-- Take one input and run to the next read. -/
def take (t : Turn ι ο γ ρ α η) (b : ι) : Turn ι ο γ ρ α η :=
  S.settle (S.give t.proc b) t.env (t.unread ++ [none])

/-- Take inputs one after the other. -/
def feed (t : Turn ι ο γ ρ α η) (q : List ι) : Turn ι ο γ ρ α η := q.foldl S.take t

/-- Without input the service stays where it is. -/
@[simp] theorem feed_nil (t : Turn ι ο γ ρ α η) : S.feed t [] = t := rfl

/-- The service takes its input byte by byte. -/
@[simp] theorem feed_cons (t : Turn ι ο γ ρ α η) (b : ι) (q : List ι) :
    S.feed t (b :: q) = S.feed (S.take t b) q := rfl

/-- The service takes two inputs one after the other. -/
theorem feed_append (t : Turn ι ο γ ρ α η) (q q' : List ι) :
    S.feed t (q ++ q') = S.feed (S.feed t q) q' := List.foldl_append

/-- A process that waits has nothing to do. -/
theorem settle_of_waits {p : Proc ι ο γ ρ α} (hp : Waits p) (h : η) (u : List (Option ο)) :
    S.settle p h u = ⟨p, h, u⟩ := by
  cases p with
  | ret a => rfl
  | recv k => rfl
  | send o k => exact hp.elim
  | call c k => exact hp.elim

/-- What is done goes behind what was done before. -/
theorem settle_unread (p : Proc ι ο γ ρ α) (h : η) (u : List (Option ο)) :
    S.settle p h u =
      ⟨(S.settle p h []).proc, (S.settle p h []).env, u ++ (S.settle p h []).unread⟩ := by
  induction p generalizing h u with
  | ret a => simp [settle]
  | recv k => simp [settle]
  | send o k ih =>
    simp only [settle, List.nil_append]
    rw [ih h (u ++ [some o]), ih h [some o]]
    simp
  | call c k ih =>
    simp only [settle, List.nil_append]
    rw [ih _ _ (u ++ [none]), ih _ _ [none]]
    simp

/-- What was unread stays in front of what the input brings. -/
theorem feed_unread (p : Proc ι ο γ ρ α) (h : η) (u : List (Option ο)) (q : List ι) :
    S.feed ⟨p, h, u⟩ q =
      ⟨(S.feed ⟨p, h, []⟩ q).proc, (S.feed ⟨p, h, []⟩ q).env,
        u ++ (S.feed ⟨p, h, []⟩ q).unread⟩ := by
  induction q generalizing p h u with
  | nil => simp
  | cons b q ih =>
    simp only [feed_cons, take, List.nil_append]
    rw [settle_unread _ _ _ (u ++ [none]), settle_unread _ _ _ [none], ih _ _ (_ ++ _),
      ih _ _ ([none] ++ _)]
    simp

/-- Run any process until it waits with the inputs `q` used up, behind the actions `u`. -/
def trace (p : Proc ι ο γ ρ α) (h : η) (u : List (Option ο)) (q : List ι) : Turn ι ο γ ρ α η :=
  S.feed (S.settle p h u) q

/-- What was unread stays in front of what the process says. -/
theorem trace_unread (p : Proc ι ο γ ρ α) (h : η) (u : List (Option ο)) (q : List ι) :
    S.trace p h u q =
      ⟨(S.trace p h [] q).proc, (S.trace p h [] q).env, u ++ (S.trace p h [] q).unread⟩ := by
  unfold trace
  rw [S.settle_unread p h u]
  generalize S.settle p h [] = t
  obtain ⟨p', h', w⟩ := t
  rw [S.feed_unread p' h' (u ++ w), S.feed_unread p' h' w, List.append_assoc]

/-- Without input a process that waits says nothing. -/
theorem trace_of_waits {p : Proc ι ο γ ρ α} (hp : Waits p) (h : η) (u : List (Option ο)) :
    S.trace p h u [] = ⟨p, h, u⟩ := S.settle_of_waits hp h u

/-- Only a waiting process without an input has nothing to do. -/
theorem waits_of_trace_unread {p : Proc ι ο γ ρ α} {h : η} {q : List ι}
    (hu : (S.trace p h [] q).unread = []) : Waits p ∧ q = [] := by
  cases q with
  | nil =>
    cases p with
    | ret a => exact ⟨trivial, rfl⟩
    | recv k => exact ⟨trivial, rfl⟩
    | send o k =>
      change (S.settle k h [some o]).unread = [] at hu
      rw [settle_unread] at hu
      simp at hu
    | call c k =>
      change (S.settle _ _ [none]).unread = [] at hu
      rw [settle_unread] at hu
      simp at hu
  | cons b q =>
    change (S.feed (S.settle _ _ _) q).unread = [] at hu
    rw [settle_unread, feed_unread] at hu
    simp at hu

end Service

namespace Turn

variable {ι ο γ : Type} {ρ : γ → Type} {α η : Type}

/-- The same server, with fewer silent actions behind it. -/
structure Quieter (t t' : Turn ι ο γ ρ α η) : Prop where
  proc : t.proc = t'.proc
  env : t.env = t'.env
  unread : Base.Quieter t.unread t'.unread

/-- As quiet as itself. -/
theorem Quieter.refl (t : Turn ι ο γ ρ α η) : t.Quieter t := ⟨rfl, rfl, .refl _⟩

/-- Quieter in two steps. -/
theorem Quieter.trans {t₁ t₂ t₃ : Turn ι ο γ ρ α η} (h : t₁.Quieter t₂) (h' : t₂.Quieter t₃) :
    t₁.Quieter t₃ :=
  ⟨h.proc.trans h'.proc, h.env.trans h'.env, h.unread.trans h'.unread⟩

/-- Silent actions before what is done now. -/
theorem Quieter.settle (S : Service ι ο γ ρ α η) (p : Proc ι ο γ ρ α) (h : η)
    {u u' : List (Option ο)} (hu : Base.Quieter u u') :
    (S.settle p h u).Quieter (S.settle p h u') := by
  rw [S.settle_unread p h u, S.settle_unread p h u']
  exact ⟨rfl, rfl, hu.append (.refl _)⟩

/-- Input keeps a service quieter. -/
theorem Quieter.feed (S : Service ι ο γ ρ α η) {t t' : Turn ι ο γ ρ α η} (h : t.Quieter t')
    (q : List ι) : (S.feed t q).Quieter (S.feed t' q) := by
  obtain ⟨p, e, u⟩ := t
  obtain ⟨p', e', u'⟩ := t'
  obtain ⟨hp, he, hu⟩ := h
  dsimp only at hp he hu
  subst hp he
  rw [S.feed_unread p e u, S.feed_unread p e u']
  exact ⟨rfl, rfl, hu.append (.refl _)⟩

end Turn

/-! ### The client -/

/-- A client that ends with a `β`. -/
inductive Client (ι ο β : Type) : Type where
  /-- End. -/
  | ret (b : β)
  /-- Write inputs for the server. -/
  | write (bs : List ι) (k : Client ι ο β)
  /-- Read up to `n` outputs of the server. -/
  | read (n : Nat) (k : List ο → Client ι ο β)
  /-- Open the link anew, which discards what has not been read. -/
  | reopen (k : Client ι ο β)

namespace Client

variable {ι ο γ : Type} {ρ : γ → Type} {α η β δ : Type}

/-- Sequential composition. -/
def bind : Client ι ο β → (β → Client ι ο δ) → Client ι ο δ
  | ret b, g => g b
  | write bs k, g => write bs (k.bind g)
  | read n k, g => read n fun os ↦ (k os).bind g
  | reopen k, g => reopen (k.bind g)

/-- Clients in sequence. -/
instance : Monad (Client ι ο) where
  pure := ret
  bind := bind

/-- Run the client, the server doing all it can after each input. -/
def exec (S : Service ι ο γ ρ α η) :
    Client ι ο β → Turn ι ο γ ρ α η → β × Turn ι ο γ ρ α η
  | ret b, t => (b, t)
  | write bs k, t => exec S k (S.feed t bs)
  | read n k, t =>
    exec S (k (readActions n t.unread).1) { t with unread := (readActions n t.unread).2 }
  | reopen k, t => exec S k { t with unread := [] }

variable (S : Service ι ο γ ρ α η)

/-- The second client goes on where the first has left the service. -/
@[simp] theorem exec_bind (c : Client ι ο β) (g : β → Client ι ο δ) (t : Turn ι ο γ ρ α η) :
    exec S (c >>= g) t = exec S (g (exec S c t).1) (exec S c t).2 := by
  change exec S (c.bind g) t = _
  induction c generalizing t with
  | ret b => rfl
  | write bs k ih => exact ih _
  | read n k ih => exact ih _ _
  | reopen k ih => exact ih _

/-- Silent actions of the server make no difference to the client. -/
theorem exec_quieter (c : Client ι ο β) {t t' : Turn ι ο γ ρ α η} (h : t.Quieter t') :
    (exec S c t).1 = (exec S c t').1 ∧ (exec S c t).2.Quieter (exec S c t').2 := by
  induction c generalizing t t' with
  | ret b => exact ⟨rfl, h⟩
  | write bs k ih => exact ih (h.feed S bs)
  | read n k ih =>
    obtain ⟨hos, hu⟩ := h.unread.readActions n
    unfold exec
    rw [hos]
    exact ih _ ⟨h.proc, h.env, hu⟩
  | reopen k ih => exact ih ⟨h.proc, h.env, .nil⟩

/-! ### A client with any answers -/

/-- The client with the given answers to its reads: what it writes, how it ends and the answers
it has not used. -/
def dialogue : Client ι ο β → List (List ο) → (List ι × β) × List (List ο)
  | ret b, answers => (([], b), answers)
  | write bs k, answers =>
    ((bs ++ (k.dialogue answers).1.1, (k.dialogue answers).1.2), (k.dialogue answers).2)
  | read _ k, [] => (k []).dialogue []
  | read _ k, os :: answers => (k os).dialogue answers
  | reopen k, answers => k.dialogue answers

/-- Whatever the client reads, what it writes takes the server from `a` to a state that
satisfies `Q` together with the client's result; `moves a bs a'` says that the inputs `bs` take it
from `a` to `a'`. -/
def Sends (moves : α → List ι → α → Prop) (Q : β → α → Prop) : Client ι ο β → α → Prop
  | ret b, a => Q b a
  | write bs k, a => ∃ a', moves a bs a' ∧ k.Sends moves Q a'
  | read _ k, a => ∀ os, (k os).Sends moves Q a
  | reopen k, a => k.Sends moves Q a

variable {moves : α → List ι → α → Prop}

/-- The rule of consequence for what a client sends. -/
theorem Sends.mono {Q Q' : β → α → Prop} (hQ : ∀ b a, Q b a → Q' b a) {c : Client ι ο β} {a : α}
    (h : c.Sends moves Q a) : c.Sends moves Q' a := by
  induction c generalizing a with
  | ret b => exact hQ b a h
  | write bs k ih =>
    obtain ⟨a', hm, hk⟩ := h
    exact ⟨a', hm, ih hk⟩
  | read n k ih => exact fun os ↦ ih os (h os)
  | reopen k ih => exact ih h

/-- What two clients send one after the other. -/
theorem sends_bind {Q : δ → α → Prop} {c : Client ι ο β} {g : β → Client ι ο δ} {a : α}
    (h : c.Sends moves (fun b a' ↦ (g b).Sends moves Q a') a) : (c >>= g).Sends moves Q a := by
  change (c.bind g).Sends moves Q a
  induction c generalizing a with
  | ret b => exact h
  | write bs k ih =>
    obtain ⟨a', hm, hk⟩ := h
    exact ⟨a', hm, ih hk⟩
  | read n k ih => exact fun os ↦ ih os (h os)
  | reopen k ih => exact ih h

/-- The judgement is about every dialogue. -/
theorem Sends.dialogue (hrefl : ∀ a, moves a [] a)
    (htrans : ∀ a a' a'' bs bs', moves a bs a' → moves a' bs' a'' → moves a (bs ++ bs') a'')
    {Q : β → α → Prop} {c : Client ι ο β} {a : α} (h : c.Sends moves Q a)
    (answers : List (List ο)) :
    ∃ a', moves a (c.dialogue answers).1.1 a' ∧ Q (c.dialogue answers).1.2 a' := by
  induction c generalizing a answers with
  | ret b => exact ⟨a, hrefl a, h⟩
  | write bs k ih =>
    obtain ⟨a₁, hm, hk⟩ := h
    obtain ⟨a₂, hm', hQ⟩ := ih hk answers
    exact ⟨a₂, htrans _ _ _ _ _ hm hm', hQ⟩
  | read n k ih =>
    cases answers with
    | nil => exact ih [] (h []) []
    | cons os answers => exact ih os (h os) answers
  | reopen k ih => exact ih h answers

end Client

end HorrorScope.Base
