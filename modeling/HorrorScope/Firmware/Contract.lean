import HorrorScope.Firmware.Main

/-!
# Contracts of the firmware's routines

A `Contract` says what the hardware may do between two statements, what every state satisfies,
what holds when a routine waits and when it returns, with which arguments `main` calls the
routines and which values its variables take. If every routine meets it (`Contract.Met`), it
holds in every state of every run whose events it allows (`Contract.Met.run`). All results
about runs of the firmware are instances.
-/

namespace HorrorScope.Firmware

open HorrorScope.Base Prog

/-- What a group of results assumes of the hardware and guarantees of the routines. -/
structure Contract where
  /-- The hardware's actions. -/
  rely : Hw → Hw → Prop
  /-- Every state. -/
  inv : Hw → Prop
  /-- The states in which the routine of a call waits for a condition. -/
  atWait : Call → (Hw → Bool) → Hw → Prop := fun _ _ _ ↦ True
  /-- The states in which the routine of a call returns. -/
  post : (c : Call) → c.Answer → Hw → Prop := fun _ _ _ ↦ True
  /-- The calls `main` makes. -/
  pre : Call → Prop := fun _ ↦ True
  /-- The variables at the command read. -/
  vars : Vars → Prop := fun _ ↦ True

namespace Contract

variable (K : Contract) (L : Layout)

/-- Every routine keeps its part of the contract. -/
structure Met : Prop where
  stable : Stable K.rely K.inv
  body : ∀ c, K.pre c → ∀ r, K.inv r →
    Safe K.rely K.inv (K.atWait c) (K.post c) (c.body L) r

/-- The contract at one state of the machine. -/
def Holds (m : Machine) : Prop :=
  K.inv m.hw ∧
  match m.ctl with
  | .idle v => K.vars v
  | .main p => p.All K.pre K.vars
  | .inCall c body k =>
    K.pre c ∧ Safe K.rely K.inv (K.atWait c) (K.post c) body m.hw ∧
      ∀ a, (k a).All K.pre K.vars

/-- The events the contract allows in a state. -/
def Allows (m : Machine) : Event → Prop
  | .cpu => True
  | .byte b => ∀ v, m.ctl = .idle v → K.vars v → (dispatch v b).All K.pre K.vars
  | .hw e => K.rely m.hw (e.act m.hw)

variable {K L}

private theorem holds_cpuStep (hK : K.Met L) {m : Machine} (h : K.Holds m) :
    K.Holds (m.cpuStep L) := by
  obtain ⟨ctl, hw, out, lastWait⟩ := m
  obtain ⟨hi, hc⟩ := h
  cases ctl with
  | idle v => exact ⟨hi, hc⟩
  | main p =>
    cases p with
    | ret v => exact ⟨hi, hc⟩
    | recv k => exact ⟨hi, hc⟩
    | send b k => exact ⟨hi, hc⟩
    | call c k => exact ⟨hi, hc.1, hK.body c hc.1 hw hi, hc.2⟩
  | inCall c body k =>
    obtain ⟨hpre, hsafe, hk⟩ := hc
    cases body with
    | ret a => exact ⟨hi, hk a⟩
    | stmt f k' => exact ⟨hsafe.step.inv, hpre, hsafe.step, hk⟩
    | get k' => exact ⟨hsafe.step.inv, hpre, hsafe.step, hk⟩
    | await c' k' => exact ⟨hsafe.step.inv, hpre, hsafe.step, hk⟩

private theorem holds_byteStep {m : Machine} (h : K.Holds m) {b : UInt8}
    (hok : K.Allows m (.byte b)) : K.Holds (m.byteStep b) := by
  obtain ⟨ctl, hw, out, lastWait⟩ := m
  obtain ⟨hi, hc⟩ := h
  cases ctl with
  | idle v => exact ⟨hi, hok v rfl hc⟩
  | inCall c body k => exact ⟨hi, hc⟩
  | main p =>
    cases p with
    | recv k => exact ⟨hi, hc b⟩
    | ret v => exact ⟨hi, hc⟩
    | send b k => exact ⟨hi, hc⟩
    | call c k => exact ⟨hi, hc⟩

private theorem holds_hwStep (hK : K.Met L) {m : Machine} (h : K.Holds m) {e : HwEvent}
    (hok : K.rely m.hw (e.act m.hw)) : K.Holds (m.step L (.hw e)) := by
  obtain ⟨ctl, hw, out, lastWait⟩ := m
  obtain ⟨hi, hc⟩ := h
  refine ⟨hK.stable hi hok, ?_⟩
  cases ctl with
  | idle v => exact hc
  | main p => exact hc
  | inCall c body k => exact ⟨hc.1, hc.2.1.env hok, hc.2.2⟩

/-- One allowed event keeps the contract. -/
theorem Met.step (hK : K.Met L) (m : Machine) (ev : Event) (h : K.Holds m)
    (hok : K.Allows m ev) : K.Holds (m.step L ev) := by
  cases ev with
  | cpu => exact holds_cpuStep hK h
  | byte b => exact holds_byteStep h hok
  | hw e => exact holds_hwStep hK h hok

/-- The contract holds in every state of a run of allowed events. -/
theorem Met.run (hK : K.Met L) {m : Machine} (h : K.Holds m) {evs : List Event}
    (hok : Guarded (Machine.step L) K.Allows m evs) :
    K.Holds (Base.run (Machine.step L) m evs) :=
  hok.invariant hK.step h

/-- The invariant of a contract that holds. -/
theorem Holds.inv {m : Machine} (h : K.Holds m) : K.inv m.hw := h.1

/-- The variables between two commands. -/
theorem Holds.of_idle {m : Machine} (h : K.Holds m) {v : Vars} (hm : m.ctl = .idle v) :
    K.vars v := by
  have hc := h.2
  rw [hm] at hc
  exact hc

/-- A routine that runs was called as the contract says and is safe. -/
theorem Holds.of_inCall {m : Machine} (h : K.Holds m) {c : Call} {body : Routine c.Answer}
    {k : c.Answer → Fw Vars} (hm : m.ctl = .inCall c body k) :
    K.pre c ∧ Safe K.rely K.inv (K.atWait c) (K.post c) body m.hw := by
  have hc := h.2
  rw [hm] at hc
  exact ⟨hc.1, hc.2.1⟩

end Contract

end HorrorScope.Firmware
