import HorrorScope.Base.Link

/-!
# A server and its client, at the same time

The session runs a client and a server in any interleaving over two lossless links. A read of the
client gets what it asks for as soon as that is there; it gives up earlier only when the server is
at rest, and only then may the link be opened anew.

Whoever acts first, the client ends as it does when they take turns (`Session.outcome_step`);
and where taking turns leaves no action of the server unread, the session has come to rest as
soon as the client has ended (`Session.rest_of_ended`).
-/

namespace HorrorScope.Base

/-- A client and a server connected by two links. -/
structure Session (ι ο γ : Type) (ρ : γ → Type) (α η β : Type) where
  client : Client ι ο β
  link : Link ι ο γ ρ α η

/-- Who acts next. -/
inductive SessionEvent where
  | client
  /-- The client's read gives up. -/
  | timeout
  | link (e : LinkEvent)
  deriving DecidableEq, Repr

namespace Session

variable {ι ο γ : Type} {ρ : γ → Type} {α η β : Type}

/-- The client acts, if it can. -/
def clientStep (s : Session ι ο γ ρ α η β) : Session ι ο γ ρ α η β :=
  match s.client with
  | .ret _ => s
  | .write bs k => ⟨k, s.link.write bs⟩
  | .read n k =>
    if n ≤ s.link.outbound.length then ⟨k (s.link.outbound.take n), s.link.drop n⟩ else s
  | .reopen k => if s.link.AtRest then ⟨k, { s.link with outbound := [] }⟩ else s

/-- A read of the client ends with less than it asked for. -/
def timeoutStep (s : Session ι ο γ ρ α η β) : Session ι ο γ ρ α η β :=
  match s.client with
  | .read n k =>
    if s.link.AtRest ∧ s.link.outbound.length < n then
      ⟨k s.link.outbound, { s.link with outbound := [] }⟩
    else s
  | _ => s

variable (S : Service ι ο γ ρ α η)

/-- One event. -/
def step (s : Session ι ο γ ρ α η β) : SessionEvent → Session ι ο γ ρ α η β
  | .client => s.clientStep
  | .timeout => s.timeoutStep
  | .link e => { s with link := s.link.step S e }

/-- How the client ends if the two take turns from here on. -/
def outcome (s : Session ι ο γ ρ α η β) : β × Turn ι ο γ ρ α η :=
  s.client.exec S (s.link.turn S)

private theorem outcome_clientStep (s : Session ι ο γ ρ α η β) :
    s.clientStep.outcome S = s.outcome S := by
  obtain ⟨client, link⟩ := s
  cases client with
  | ret b => rfl
  | write bs k =>
    change k.exec S ((link.write bs).turn S) = k.exec S (S.feed (link.turn S) bs)
    rw [link.turn_write]
  | read n k =>
    unfold clientStep
    dsimp only
    split
    · next hn =>
      obtain ⟨hread, hdrop⟩ := link.readActions_turn S hn
      change (k (link.outbound.take n)).exec S ((link.drop n).turn S) = _
      rw [hdrop, ← hread]
      rfl
    · rfl
  | reopen k =>
    unfold clientStep
    dsimp only
    split
    · next hr =>
      have hr' : { link with outbound := [] }.AtRest := hr
      unfold outcome
      rw [hr.turn_eq, hr'.turn_eq]
      rfl
    · rfl

private theorem outcome_timeoutStep (s : Session ι ο γ ρ α η β) :
    s.timeoutStep.outcome S = s.outcome S := by
  obtain ⟨client, link⟩ := s
  cases client with
  | ret b => rfl
  | write bs k => rfl
  | reopen k => rfl
  | read n k =>
    unfold timeoutStep
    dsimp only
    split
    · next hr =>
      have hr' : { link with outbound := [] }.AtRest := hr.1
      unfold outcome
      rw [hr.1.turn_eq, hr'.turn_eq]
      dsimp only [Client.exec]
      rw [readActions_map (Nat.le_of_lt hr.2)]
      rfl
    · rfl

/-- One event changes nothing but the silent actions behind the client's back. -/
theorem outcome_step (s : Session ι ο γ ρ α η β) (e : SessionEvent) :
    ((s.step S e).outcome S).1 = (s.outcome S).1 ∧
      ((s.step S e).outcome S).2.Quieter (s.outcome S).2 := by
  cases e with
  | client =>
    rw [step, outcome_clientStep]
    exact ⟨rfl, .refl _⟩
  | timeout =>
    rw [step, outcome_timeoutStep]
    exact ⟨rfl, .refl _⟩
  | link e => exact s.client.exec_quieter S (s.link.turn_step S e)

variable {S}

/-- If taking turns leaves nothing unread, the session is at rest once the client has ended. -/
theorem rest_of_ended {s : Session ι ο γ ρ α η β} {b b' : β} {p : Proc ι ο γ ρ α} {h : η}
    (hs : (s.outcome S).1 = b ∧ (s.outcome S).2.Quieter ⟨p, h, []⟩) (hb : s.client = .ret b') :
    b' = b ∧ s.link.Rest p h := by
  have ho : s.outcome S = (b', s.link.turn S) := by
    unfold outcome
    rw [hb]
    rfl
  rw [ho] at hs
  exact ⟨hs.1, Link.rest_of_turn hs.2⟩

end Session

end HorrorScope.Base
