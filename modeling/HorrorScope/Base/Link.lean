import HorrorScope.Base.Service

/-!
# A server at the end of two links

Inputs cross a `Pipe`: they are cut into packets of any size, and the server's read takes one
input at a time from the packet it has. Outputs queue up until they are read. `Link.turn` is the
server after everything it will do without further inputs; its steps only remove silent actions
from what is still ahead (`Link.turn_step`), so whatever is known about the turn stays known while
the server and the links proceed at their own pace.
-/

namespace HorrorScope.Base

/-- Inputs on their way to the server. -/
structure Pipe (ι : Type) where
  /-- Taken from the packet by a read that has not returned yet. -/
  buffer : List ι := []
  /-- The rest of the packet at the server's end. -/
  packet : List ι := []
  wire : List ι := []
  deriving DecidableEq, Repr

namespace Pipe

variable {ι : Type}

/-- All of them, the next one first. -/
def all (q : Pipe ι) : List ι := q.buffer ++ q.packet ++ q.wire

/-- Write behind them. -/
def write (q : Pipe ι) (bs : List ι) : Pipe ι := { q with wire := q.wire ++ bs }

/-- The next `k` inputs arrive as a packet, if the last one is used up. -/
def deliver (q : Pipe ι) (k : Nat) : Pipe ι :=
  match q.packet with
  | [] => { q with packet := q.wire.take k, wire := q.wire.drop k }
  | _ :: _ => q

/-- One round of the server's read loop: return a buffered input or poll the packet. -/
def poll (q : Pipe ι) : Option ι × Pipe ι :=
  match q.buffer, q.packet with
  | b :: buffer, _ => (some b, { q with buffer := buffer })
  | [], b :: packet => (none, { q with buffer := [b], packet := packet })
  | [], [] => (none, q)

/-- A write goes behind everything on its way. -/
@[simp] theorem all_write (q : Pipe ι) (bs : List ι) : (q.write bs).all = q.all ++ bs := by
  simp [all, write]

/-- A delivery loses nothing. -/
@[simp] theorem all_deliver (q : Pipe ι) (k : Nat) : (q.deliver k).all = q.all := by
  obtain ⟨buffer, packet, wire⟩ := q
  cases packet with
  | nil => simp [all, deliver]
  | cons b packet => rfl

/-- A read takes the first input, or none yet. -/
theorem all_poll (q : Pipe ι) : q.all = (q.poll).1.toList ++ (q.poll).2.all := by
  obtain ⟨buffer, packet, wire⟩ := q
  cases buffer with
  | cons b buffer => rfl
  | nil =>
    cases packet with
    | nil => rfl
    | cons b packet => rfl

end Pipe

/-- A server and its links. -/
structure Link (ι ο γ : Type) (ρ : γ → Type) (α η : Type) where
  proc : Proc ι ο γ ρ α
  env : η
  inbound : Pipe ι := {}
  outbound : List ο := []

/-- What happens on its own. -/
inductive LinkEvent where
  | server
  /-- A packet of this size arrives at the server. -/
  | packet (k : Nat)
  deriving DecidableEq, Repr

namespace Link

variable {ι ο γ : Type} {ρ : γ → Type} {α η : Type}

/-- Whether a process waits can be seen from its next step. -/
instance : (p : Proc ι ο γ ρ α) → Decidable (Service.Waits p)
  | .ret _ => .isTrue trivial
  | .recv _ => .isTrue trivial
  | .send _ _ => .isFalse id
  | .call _ _ => .isFalse id

/-- The server waits and nothing is on its way to it. -/
def AtRest (l : Link ι ο γ ρ α η) : Prop := Service.Waits l.proc ∧ l.inbound.all.length = 0

/-- Whether a link is at rest can be computed. -/
instance (l : Link ι ο γ ρ α η) : Decidable l.AtRest := inferInstanceAs (Decidable (_ ∧ _))

/-- Write inputs. -/
def write (l : Link ι ο γ ρ α η) (bs : List ι) : Link ι ο γ ρ α η :=
  { l with inbound := l.inbound.write bs }

/-- Take `n` outputs. -/
def drop (l : Link ι ο γ ρ α η) (n : Nat) : Link ι ο γ ρ α η :=
  { l with outbound := l.outbound.drop n }

variable (S : Service ι ο γ ρ α η)

/-- A waiting server polls once for an input. -/
def pollStep (l : Link ι ο γ ρ α η) : Link ι ο γ ρ α η :=
  match l.inbound.poll with
  | (some b, inbound) => { l with proc := S.give l.proc b, inbound := inbound }
  | (none, inbound) => { l with inbound := inbound }

/-- The server acts. -/
def serverStep (l : Link ι ο γ ρ α η) : Link ι ο γ ρ α η :=
  match l.proc with
  | .ret _ => l.pollStep S
  | .recv _ => l.pollStep S
  | .send o k => { l with proc := k, outbound := l.outbound ++ [o] }
  | .call c k => { l with proc := k (S.handle c l.env).1, env := (S.handle c l.env).2 }

/-- One event. -/
def step (l : Link ι ο γ ρ α η) : LinkEvent → Link ι ο γ ρ α η
  | .server => l.serverStep S
  | .packet k => { l with inbound := l.inbound.deliver k }

/-- The server after everything it will do with the inputs it has been sent. -/
def turn (l : Link ι ο γ ρ α η) : Turn ι ο γ ρ α η :=
  S.trace l.proc l.env (l.outbound.map some) l.inbound.all

/-- Outputs are only added. -/
theorem outbound_step (l : Link ι ο γ ρ α η) (e : LinkEvent) :
    ∃ os, (l.step S e).outbound = l.outbound ++ os := by
  cases e with
  | packet k => exact ⟨[], (List.append_nil _).symm⟩
  | server =>
    have hpoll : (l.pollStep S).outbound = l.outbound := by
      unfold pollStep
      split <;> rfl
    unfold step serverStep
    dsimp only
    split
    · exact ⟨[], by rw [hpoll, List.append_nil]⟩
    · exact ⟨[], by rw [hpoll, List.append_nil]⟩
    · next o k _ => exact ⟨[o], rfl⟩
    · exact ⟨[], (List.append_nil _).symm⟩

/-! ### The turn -/

/-- A link at rest is where the service is. -/
theorem AtRest.turn_eq {l : Link ι ο γ ρ α η} (h : l.AtRest) :
    l.turn S = ⟨l.proc, l.env, l.outbound.map some⟩ := by
  unfold turn
  rw [List.length_eq_zero_iff.mp h.2, S.trace_of_waits h.1]

/-- A write is fed to where the service will be. -/
theorem turn_write (l : Link ι ο γ ρ α η) (bs : List ι) :
    (l.write bs).turn S = S.feed (l.turn S) bs := by
  change S.trace l.proc l.env _ (l.inbound.write bs).all = _
  rw [Pipe.all_write]
  exact S.feed_append _ _ _

/-- The first outputs are the ones that are there. -/
theorem readActions_turn {l : Link ι ο γ ρ α η} {n : Nat} (h : n ≤ l.outbound.length) :
    (readActions n (l.turn S).unread).1 = l.outbound.take n ∧
      (l.drop n).turn S =
        { l.turn S with unread := (readActions n (l.turn S).unread).2 } := by
  unfold turn
  rw [S.trace_unread l.proc l.env (l.outbound.map some)]
  dsimp only
  rw [readActions_map_append h]
  exact ⟨rfl, S.trace_unread _ _ _ _⟩

private theorem quieter_trace (p : Proc ι ο γ ρ α) (h : η) (u : List (Option ο)) (q : List ι) :
    (S.trace p h u q).Quieter (S.feed (S.settle p h (u ++ [none])) q) := by
  have hu : Quieter u (u ++ [none]) := by
    simpa using (Quieter.refl u).append (.skip .nil : Quieter [] [none])
  exact (Turn.Quieter.settle S p h hu).feed S q

private theorem turn_pollStep {l : Link ι ο γ ρ α η} (hp : Service.Waits l.proc) :
    ((l.pollStep S).turn S).Quieter (l.turn S) := by
  have hall := l.inbound.all_poll
  unfold pollStep
  split
  · next b inbound hpoll =>
    rw [hpoll] at hall
    unfold turn
    rw [hall]
    change (S.trace (S.give l.proc b) l.env _ inbound.all).Quieter
      (S.feed (S.take (S.settle l.proc l.env _) b) inbound.all)
    rw [S.settle_of_waits hp]
    exact quieter_trace S _ _ _ _
  · next inbound hpoll =>
    rw [hpoll] at hall
    unfold turn
    rw [hall]
    exact .refl _

private theorem turn_serverStep (l : Link ι ο γ ρ α η) :
    ((l.serverStep S).turn S).Quieter (l.turn S) := by
  obtain ⟨proc, env, inbound, outbound⟩ := l
  cases proc with
  | ret a => exact turn_pollStep S trivial
  | recv k => exact turn_pollStep S trivial
  | send o k =>
    change (S.trace k env ((outbound ++ [o]).map some) inbound.all).Quieter
      (S.trace k env (outbound.map some ++ [some o]) inbound.all)
    rw [List.map_append]
    exact .refl _
  | call c k => exact quieter_trace S _ _ _ _

/-- What happens on its own only removes silent actions from what is ahead. -/
theorem turn_step (l : Link ι ο γ ρ α η) (e : LinkEvent) :
    ((l.step S e).turn S).Quieter (l.turn S) := by
  cases e with
  | server => exact l.turn_serverStep S
  | packet k =>
    unfold step turn
    rw [Pipe.all_deliver]
    exact .refl _

/-! ### Rest -/

/-- The server waits at `p` with nothing on its way in either direction. -/
structure Rest (l : Link ι ο γ ρ α η) (p : Proc ι ο γ ρ α) (h : η) : Prop where
  proc : l.proc = p
  env : l.env = h
  inbound : l.inbound.all = []
  outbound : l.outbound = []

variable {S}

/-- A link at rest with nothing unread is where the service is. -/
theorem Rest.turn_eq {l : Link ι ο γ ρ α η} {p : Proc ι ο γ ρ α} {h : η} (hl : l.Rest p h)
    (hp : Service.Waits p) : l.turn S = ⟨p, h, []⟩ := by
  have hrest : l.AtRest := ⟨by rw [hl.proc]; exact hp, by rw [hl.inbound]; rfl⟩
  rw [hrest.turn_eq, hl.proc, hl.env, hl.outbound]
  rfl

/-- A turn without any action ahead is one at rest. -/
theorem rest_of_turn {l : Link ι ο γ ρ α η} {p : Proc ι ο γ ρ α} {h : η}
    (ht : (l.turn S).Quieter ⟨p, h, []⟩) : l.Rest p h := by
  have hu := ht.unread.eq_nil
  unfold turn at hu
  rw [S.trace_unread] at hu
  obtain ⟨hout, htrace⟩ := List.append_eq_nil_iff.mp hu
  obtain ⟨hw, hin⟩ := S.waits_of_trace_unread htrace
  have hrest : l.AtRest := ⟨hw, by rw [hin]; rfl⟩
  have hp := ht.proc
  have he := ht.env
  rw [hrest.turn_eq] at hp he
  exact ⟨hp, he, hin, List.map_eq_nil_iff.mp hout⟩

/-! ### Coming to rest -/

variable (S)

/-- A waiting server gets the next input that is on its way. -/
theorem exists_give {l : Link ι ο γ ρ α η} (hp : Service.Waits l.proc) (hin : l.inbound.all ≠ []) :
    ∃ (es : List LinkEvent) (b : ι) (inbound : Pipe ι),
      es.foldl (step S) l = { l with proc := S.give l.proc b, inbound := inbound } ∧
        inbound.all.length < l.inbound.all.length := by
  have hserver (q : Pipe ι) : ({ l with inbound := q } : Link ι ο γ ρ α η).step S .server =
      ({ l with inbound := q } : Link ι ο γ ρ α η).pollStep S := by
    obtain ⟨proc, env, inbound, outbound⟩ := l
    cases proc with
    | ret a => rfl
    | recv k => rfl
    | send o k => exact hp.elim
    | call c k => exact hp.elim
  obtain ⟨proc, env, ⟨buffer, packet, wire⟩, outbound⟩ := l
  cases buffer with
  | cons b buffer =>
    refine ⟨[.server], b, ⟨buffer, packet, wire⟩, hserver _, ?_⟩
    simp [Pipe.all]
  | nil =>
    cases packet with
    | cons b packet =>
      refine ⟨[.server, .server], b, ⟨[], packet, wire⟩, ?_, by simp [Pipe.all]⟩
      rw [List.foldl_cons, hserver ⟨[], b :: packet, wire⟩]
      exact hserver ⟨[b], packet, wire⟩
    | nil =>
      cases wire with
      | nil => exact absurd rfl hin
      | cons b wire =>
        refine ⟨[.packet 1, .server, .server], b, ⟨[], [], wire⟩, ?_, by simp [Pipe.all]⟩
        change [LinkEvent.server, .server].foldl (step S) ⟨proc, env, ⟨[], [b], wire⟩, outbound⟩ = _
        rw [List.foldl_cons, hserver ⟨[], [b], wire⟩]
        exact hserver ⟨[b], [], wire⟩

/-- On its own, the server comes to rest. -/
theorem exists_atRest (l : Link ι ο γ ρ α η) :
    ∃ es : List LinkEvent, (es.foldl (step S) l).AtRest := by
  obtain ⟨proc, env, inbound, outbound⟩ := l
  -- a server that waits gets an input and there is one less; before, it does what it has to do
  induction hn : inbound.all.length using Nat.strongRecOn generalizing proc env inbound
    outbound with
  | ind n ih =>
    have hwaits (proc : Proc ι ο γ ρ α) (env : η) (outbound : List ο) (hp : Service.Waits proc) :
        ∃ es : List LinkEvent, (es.foldl (step S) ⟨proc, env, inbound, outbound⟩).AtRest := by
      by_cases hin : inbound.all = []
      · exact ⟨[], hp, by rw [List.foldl_nil]; exact List.length_eq_zero_iff.mpr hin⟩
      · obtain ⟨es, b, inbound', hes, hlt⟩ :=
          exists_give S (l := ⟨proc, env, inbound, outbound⟩) hp hin
        obtain ⟨es', hes'⟩ := ih _ (hn ▸ hlt) (S.give proc b) env inbound' outbound rfl
        refine ⟨es ++ es', ?_⟩
        rw [List.foldl_append, hes]
        exact hes'
    induction proc generalizing env outbound with
    | ret a => exact hwaits _ _ _ trivial
    | recv k => exact hwaits _ _ _ trivial
    | send o k ihk =>
      obtain ⟨es, hes⟩ := ihk env (outbound ++ [o])
      exact ⟨.server :: es, hes⟩
    | call c k ihk =>
      obtain ⟨es, hes⟩ := ihk (S.handle c env).1 (S.handle c env).2 outbound
      exact ⟨.server :: es, hes⟩

end Link

end HorrorScope.Base
