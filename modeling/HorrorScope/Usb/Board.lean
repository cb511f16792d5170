import HorrorScope.Link.Commands
import HorrorScope.Usb.GetChar

/-!
# The command loop behind the port

The port and the processor together: packets, requests and bus events come between any two
statements of `USB_serial_get_char` and of the command loop, and the hardware acts at any time. The
processor is in `USB_serial_get_char` only where the command loop reads a byte, so the bytes it
takes are those of the host, and a command loop that is back at its command read has executed the
commands that the host has sent.
-/

namespace HorrorScope.Usb

open HorrorScope.Base HorrorScope.Firmware HorrorScope.Link

namespace Serial

variable {s : Serial}

/-- Only a call leads into `USB_serial_get_char`. -/
theorem stmt_step_of_idle (h : s.stmt = .idle) {e : Event} (he : e ≠ .call) :
    (s.step e).stmt = .idle := by
  cases e with
  | call => exact absurd rfl he
  | cpu control =>
    change (s.cpuStep control).stmt = .idle
    unfold cpuStep
    rw [h]
    exact h
  | otherTask =>
    change (if s.stmt = .idle then s.usbTask else s).stmt = .idle
    rw [if_pos h, (usbTask_frame s).2.2, h]
  | bus e => cases e <;> exact h
  | request r =>
    change (ite _ s _).stmt = .idle
    split <;> exact h
  | halt set =>
    change (ite _ s _).stmt = .idle
    split <;> exact h
  | packet data =>
    change (ite _ _ s).stmt = .idle
    split <;> exact h

/-- `USB_serial_get_char` returns a byte with its last statement. -/
theorem returns_eq_nil_or (s : Serial) (e : Event) :
    s.returns e = [] ∨ s.stmt ≠ .idle ∧ (s.step e).stmt = .idle ∧ ∃ x, s.returns e = [x] := by
  cases e with
  | cpu control =>
    by_cases hst : s.stmt = .remove
    · refine .inr ⟨by rw [hst]; exact Stmt.noConfusion, ?_, s.ring.peek, if_pos hst⟩
      change (s.cpuStep control).stmt = .idle
      unfold cpuStep
      rw [hst]
    · exact .inl (if_neg hst)
  | _ => exact .inl rfl

end Serial

/-- The firmware with its port. -/
structure Board where
  serial : Serial := {}
  machine : Machine := .boot

namespace Board

/-- What can happen next. -/
inductive Event where
  /-- A call of `USB_serial_get_char`, one of its statements or an event on the bus. -/
  | usb (e : Serial.Event)
  /-- The processor makes a step outside of `USB_serial_get_char`. -/
  | cpu
  | hw (e : HwEvent)
  deriving DecidableEq, Repr

/-- The processor reads a byte. -/
def reads (b : Board) : Bool :=
  match b.machine.ctl with
  | .idle _ => true
  | .main (.recv _) => true
  | _ => false

/-- What the command loop sees of an event. -/
def forwarded (b : Board) : Event → List Firmware.Event
  | .usb e => (b.serial.returns e).map .byte
  | .cpu => [.cpu]
  | .hw e => [.hw e]

/-- What the port sees of it. -/
def serialStep (b : Board) : Event → Serial
  | .usb e => b.serial.step e
  | _ => b.serial

variable (L : Layout)

/-- One event. -/
def step (b : Board) (ev : Event) : Board :=
  ⟨b.serialStep ev, run (Machine.step L) b.machine (b.forwarded ev)⟩

/-- The bytes that arrive with an event. -/
def sent (b : Board) : Event → List UInt8
  | .usb e => b.serial.arrives e
  | _ => []

/-- The bytes that have arrived and that the command loop has not taken. -/
def pending (b : Board) : List UInt8 := b.serial.pending

/-- The port loses nothing, and `USB_serial_get_char` is called where the processor reads. -/
def Allowed (b : Board) : Event → Prop
  | .usb e => b.serial.Lossless e ∧ (e = .call → b.reads = true)
  | _ => True

/-- Whether an event is allowed can be computed. -/
instance (b : Board) : (ev : Event) → Decidable (b.Allowed ev)
  | .usb _ => inferInstanceAs (Decidable (_ ∧ _))
  | .cpu | .hw _ => inferInstanceAs (Decidable True)

/-- The processor in `USB_serial_get_char` is at a read. -/
structure Inv (b : Board) : Prop where
  serial : b.serial.Inv
  reads : b.serial.stmt ≠ .idle → b.reads = true

variable {L}

private theorem received_of_reads {b : Board} (h : b.reads = true) (x : UInt8) :
    received b.machine (.byte x) = [x] := by
  unfold reads at h
  unfold received
  dsimp only
  generalize b.machine.ctl = ctl at h ⊢
  split at h
  · rfl
  · rfl
  · exact absurd h Bool.false_ne_true

/-- At a read, the processor waits for the port. -/
theorem step_cpu_of_reads {b : Board} (h : b.reads = true) : b.step L .cpu = b := by
  have hcpu : b.machine.cpuStep L = b.machine := by
    unfold reads at h
    unfold Machine.cpuStep
    split at h
    · next hctl => rw [hctl]
    · next hctl => rw [hctl]
    · exact absurd h Bool.false_ne_true
  change (⟨b.serial, b.machine.cpuStep L⟩ : Board) = b
  rw [hcpu]

private theorem Inv.step {b : Board} (h : b.Inv) {ev : Event} (hev : b.Allowed ev) :
    (b.step L ev).Inv := by
  cases ev with
  | usb e =>
    refine ⟨(h.serial.step hev.1.1).1, fun hne ↦ ?_⟩
    have hsame : b.serial.returns e = [] := by
      rcases b.serial.returns_eq_nil_or e with hnone | ⟨-, hidle, -⟩
      · exact hnone
      · exact absurd hidle hne
    have hreads : b.reads = true := by
      by_cases hcall : e = .call
      · exact hev.2 hcall
      · exact h.reads fun hidle ↦ hne (Serial.stmt_step_of_idle hidle hcall)
    have hmachine : (b.step L (.usb e)).machine = b.machine := by
      change run (Machine.step L) b.machine ((b.serial.returns e).map .byte) = b.machine
      rw [hsame]
      rfl
    rw [Board.reads, hmachine]
    exact hreads
  | cpu =>
    refine ⟨h.serial, fun hne ↦ ?_⟩
    rw [step_cpu_of_reads (h.reads hne)]
    exact h.reads hne
  | hw e => exact ⟨h.serial, h.reads⟩

/-- The bytes that the command loop takes in an event are those that the port returns. -/
theorem Inv.received_forwarded {b : Board} (h : b.Inv) {ev : Event} (hev : b.Allowed ev) :
    observed received (Machine.step L) b.machine (b.forwarded ev) ++ (b.step L ev).pending =
      b.pending ++ b.sent ev := by
  cases ev with
  | usb e =>
    have hreturned : observed received (Machine.step L) b.machine (b.forwarded (.usb e)) =
        b.serial.returns e := by
      change observed received (Machine.step L) b.machine ((b.serial.returns e).map .byte) = _
      rcases b.serial.returns_eq_nil_or e with hnone | ⟨hcalled, -, x, hx⟩
      · rw [hnone]
        rfl
      · rw [hx, List.map_singleton, observed, received_of_reads (h.reads hcalled)]
        rfl
    rw [hreturned]
    exact h.serial.returns_append_pending hev.1
  | cpu => exact (List.append_nil _).symm
  | hw e => exact (List.append_nil _).symm

private theorem inv_start : ({} : Board).Inv := ⟨Serial.inv_start, fun hne ↦ absurd rfl hne⟩

private theorem machine_step (b : Board) (ev : Event) :
    (b.step L ev).machine = run (Machine.step L) b.machine (b.forwarded ev) := rfl

/-- In every run from reset, the processor runs on bytes that are those of the host up to the ones
that are pending. -/
theorem received_append_pending {evs : List Event}
    (hevs : Guarded (Board.step L) Allowed ({} : Board) evs) :
    observed received (Machine.step L) .boot (observed forwarded (Board.step L) {} evs) ++
        (run (Board.step L) {} evs).pending =
      observed sent (Board.step L) {} evs := by
  have hboard : observed (fun b ev ↦ observed received (Machine.step L) b.machine (b.forwarded ev))
        (Board.step L) {} evs ++ (run (Board.step L) {} evs).pending =
      observed sent (Board.step L) {} evs :=
    hevs.conserved (fun _ _ h hev ↦ h.step hev)
      (fun _ _ h hev ↦ h.received_forwarded hev) inv_start
  rw [← hboard]
  exact congrArg (· ++ _) (observed_component machine_step received {} evs)

/-- In every run from reset in which the port loses nothing, a command loop that is back at its
command read with nothing pending has executed the commands that the host has sent: its variables
and the registers that only the processor writes are what these commands leave. -/
theorem commands_of_sent {evs : List Event}
    (hevs : Guarded (Board.step L) Allowed ({} : Board) evs) {v : Vars}
    (hidle : (run (Board.step L) {} evs).machine.ctl = .idle v)
    (hpending : (run (Board.step L) {} evs).pending = []) :
    ∃ cmds : List Cmd, observed sent (Board.step L) {} evs = cmds.flatMap Cmd.bytes ∧
      v = varsAfter cmds {} ∧
      ∃ ω, (run (Board.step L) {} evs).machine.hw.settings =
        (callAll (hardware L ω) (initCalls ++ callsOf cmds {}) (0, {})).2.settings := by
  have hreceived := received_append_pending hevs
  rw [hpending, List.append_nil] at hreceived
  have hmachine : (run (Board.step L) {} evs).machine =
      run (Machine.step L) .boot (observed forwarded (Board.step L) {} evs) :=
    component_run machine_step {} evs
  rw [hmachine] at hidle ⊢
  obtain ⟨cmds, hcmds⟩ := exists_cmds_of_boot hidle
  exact ⟨cmds, hreceived.symm.trans hcmds, run_boot hidle hcmds⟩

/-- A delay of five, in two packets. -/
def settingDelay : List Event :=
  List.replicate 81 .cpu ++ Serial.opening.map .usb ++ [.usb (.packet [chr 'w', 0])] ++
    (List.replicate 2 (Serial.calling.map .usb)).flatten ++ [.usb (.packet [5])] ++
    Serial.calling.map .usb ++ List.replicate 6 .cpu

/-- The host sets a delay of 5. -/
theorem commands_of_sent_settingDelay :
    ∃ cmds : List Cmd, observed sent (Board.step someLayout) {} settingDelay =
        cmds.flatMap Cmd.bytes ∧
      { delay := 5 } = varsAfter cmds {} ∧
      ∃ ω, (run (Board.step someLayout) {} settingDelay).machine.hw.settings =
        (callAll (hardware someLayout ω) (initCalls ++ callsOf cmds {}) (0, {})).2.settings :=
  commands_of_sent (by decide +kernel) (Ctl.eq_idle_of_vars (by decide +kernel)) (by decide +kernel)

end Board

end HorrorScope.Usb
