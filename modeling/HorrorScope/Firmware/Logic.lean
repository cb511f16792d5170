import HorrorScope.Firmware.Contract

/-!
# One command at a time

A contract says the same of every command. The judgement here follows one command from its
dispatch on, so that what a routine leaves behind is known to the statements after it:
`Spec.Safe` is to `main` what `Prog.Safe` is to a routine. `Spec.step` is its soundness, for
steps without a further command.
-/

namespace HorrorScope.Firmware

open HorrorScope.Base Prog

/-- Assertions along one command. -/
structure Spec where
  /-- The hardware's actions. -/
  rely : Hw → Hw → Prop
  /-- The states in which the routine of a call waits for a condition. -/
  atWait : Call → (Hw → Bool) → Hw → Prop
  /-- The states in which a byte is sent. -/
  atSend : UInt8 → Hw → Prop
  /-- What is assumed of the states in which a byte is sent. -/
  onSend : UInt8 → Hw → Prop := fun _ _ ↦ True
  /-- The states in which the command is over. -/
  atEnd : Vars → Hw → Prop := fun _ _ ↦ True

namespace Spec

variable (K : Spec) (L : Layout)

/-- The assertions hold along every behaviour of the process. -/
def Safe : Fw Vars → Hw → Prop
  | .ret v, r => ∀ r', Relation.ReflTransGen K.rely r r' → K.atEnd v r'
  | .recv k, r => ∀ r', Relation.ReflTransGen K.rely r r' → ∀ b, Safe (k b) r'
  | .send b k, r => ∀ r', Relation.ReflTransGen K.rely r r' →
      K.atSend b r' ∧ (K.onSend b r' → Safe k r')
  | .call c k, r => ∀ r', Relation.ReflTransGen K.rely r r' →
      Prog.Safe K.rely (fun _ ↦ True) (K.atWait c) (fun a r'' ↦ Safe (k a) r'') (c.body L) r'

/-- The assertions at one state of the machine. -/
def Holds (m : Machine) : Prop :=
  match m.ctl with
  | .idle v => K.Safe L (.ret v) m.hw
  | .main p => K.Safe L p m.hw
  | .inCall c body k =>
    Prog.Safe K.rely (fun _ ↦ True) (K.atWait c) (fun a r ↦ K.Safe L (k a) r) body m.hw

/-- Hardware acts as relied upon, bytes are sent as assumed and no further command is
received. -/
def Allows (m : Machine) : Event → Prop
  | .cpu => ∀ b k, m.ctl = .main (.send b k) → K.onSend b m.hw
  | .byte _ => ∀ v, m.ctl ≠ .idle v
  | .hw e => K.rely m.hw (e.act m.hw)

variable {K L}

/-- The rule for the end of a command. -/
theorem safe_ret {P : Hw → Prop} (hP : Stable K.rely P) {v : Vars} {r : Hw} (hr : P r)
    (he : ∀ r, P r → K.atEnd v r) : K.Safe L (.ret v) r :=
  fun t ht ↦ he t (hP.many hr ht)

/-- The rule for a byte that is sent. -/
theorem safe_send {P : Hw → Prop} (hP : Stable K.rely P) {b : UInt8} {k : Fw Vars} {r : Hw}
    (hr : P r) (hs : ∀ r, P r → K.atSend b r)
    (hk : ∀ r, P r → K.onSend b r → K.Safe L k r) : K.Safe L (.send b k) r :=
  fun t ht ↦ ⟨hs t (hP.many hr ht), hk t (hP.many hr ht)⟩

/-- The rule for a call. -/
theorem safe_call {P : Hw → Prop} (hP : Stable K.rely P) {c : Call} {k : c.Answer → Fw Vars}
    {r : Hw} (hr : P r) (hc : ∀ r, P r → Prog.Safe K.rely (fun _ ↦ True) (K.atWait c)
      (fun a r' ↦ K.Safe L (k a) r') (c.body L) r) : K.Safe L (.call c k) r :=
  fun t ht ↦ hc t (hP.many hr ht)

private theorem Safe.env {p : Fw Vars} {r r' : Hw} (h : K.Safe L p r) (hr : K.rely r r') :
    K.Safe L p r' := by
  cases p with
  | ret v => exact fun t ht ↦ h t (.head hr ht)
  | recv k => exact fun t ht ↦ h t (.head hr ht)
  | send b k => exact fun t ht ↦ h t (.head hr ht)
  | call c k => exact fun t ht ↦ h t (.head hr ht)

private theorem holds_cpuStep {m : Machine} (h : K.Holds L m) (hok : K.Allows m .cpu) :
    K.Holds L (m.cpuStep L) := by
  obtain ⟨ctl, hw, out, lastWait⟩ := m
  cases ctl with
  | idle v => exact h
  | main p =>
    cases p with
    | ret v => exact h
    | recv k => exact h
    | send b k => exact (h hw .refl).2 (hok b k rfl)
    | call c k => exact h hw .refl
  | inCall c body k =>
    cases body with
    | ret a => exact (h hw .refl).2
    | stmt f k' => exact h.step
    | get k' => exact h.step
    | await c' k' => exact h.step

/-- One allowed event keeps the assertions. -/
theorem step (m : Machine) (ev : Event) (h : K.Holds L m) (hok : K.Allows m ev) :
    K.Holds L (m.step L ev) := by
  cases ev with
  | cpu => exact holds_cpuStep h hok
  | byte b =>
    obtain ⟨ctl, hw, out, lastWait⟩ := m
    cases ctl with
    | idle v => exact absurd rfl (hok v)
    | inCall c body k => exact h
    | main p =>
      cases p with
      | recv k => exact h hw .refl b
      | ret v => exact h
      | send b k => exact h
      | call c k => exact h
  | hw e =>
    obtain ⟨ctl, hw, out, lastWait⟩ := m
    cases ctl with
    | idle v => exact Safe.env h hok
    | main p => exact Safe.env h hok
    | inCall c body k => exact Prog.Safe.env h hok

end Spec

end HorrorScope.Firmware
