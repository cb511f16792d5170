import HorrorScope.Base.Run
import HorrorScope.Host.Scope

/-!
# The status byte of a wait

The commands `d`, `f` and `h` send `r`, wait for a trigger and send a status byte. What the polls
of `trigger_wait` see and the bytes the command sends are observed along a run of the machine;
`Yields` says of a process which observations it can make, whatever the hardware does. The
host's two decoders of the status byte are run on a port that delivers the bytes sent.
-/

namespace HorrorScope.Link

open HorrorScope.Base HorrorScope.Firmware HorrorScope.Host

/-! ### Observations -/

/-- What is observed of a step of the machine. -/
inductive Obs where
  /-- A poll of `PORTA.INTFLAGS` by `trigger_wait`. -/
  | poll (flagged : Bool)
  /-- A byte sent. -/
  | sent (b : UInt8)
  deriving DecidableEq, Repr

/-- The flag a poll saw. -/
def Obs.flag : Obs → Option Bool
  | poll flagged => some flagged
  | sent _ => none

/-- The byte sent. -/
def Obs.byte : Obs → Option UInt8
  | poll _ => none
  | sent b => some b

/-- What is observed of the registers a routine reads: `trigger_wait` reads them only to poll. -/
def readsOf : Call → Hw → List Obs
  | .triggerWait _ _, r => [.poll r.flagged]
  | _, _ => []

/-- What an event shows. -/
def observe (m : Machine) : Event → List Obs
  | .cpu =>
    match m.ctl with
    | .main (.send b _) => [.sent b]
    | .inCall c (.get _) _ => readsOf c m.hw
    | _ => []
  | _ => []

variable (L : Layout)

/-- What a run shows. -/
def shown (m : Machine) (evs : List Event) : List Obs := observed observe (Machine.step L) m evs

private theorem out_step (m : Machine) (ev : Event) :
    (m.step L ev).out = m.out ++ (observe m ev).filterMap Obs.byte := by
  obtain ⟨ctl, hw, out, lastWait⟩ := m
  have hreads : ∀ c : Call, (readsOf c hw).filterMap Obs.byte = [] := by
    intro c
    cases c <;> rfl
  cases ev with
  | hw e => exact (List.append_nil _).symm
  | byte b =>
    cases ctl with
    | main p => cases p <;> exact (List.append_nil _).symm
    | _ => exact (List.append_nil _).symm
  | cpu =>
    cases ctl with
    | idle v => exact (List.append_nil _).symm
    | main p => cases p <;> first | rfl | exact (List.append_nil _).symm
    | inCall c body k =>
      cases body with
      | get k' =>
        change out = out ++ (readsOf c hw).filterMap Obs.byte
        rw [hreads, List.append_nil]
      | _ => exact (List.append_nil _).symm

/-- A run sends the bytes it shows. -/
theorem out_run (m : Machine) (evs : List Event) :
    (run (Machine.step L) m evs).out = m.out ++ (shown L m evs).filterMap Obs.byte := by
  unfold shown
  induction evs generalizing m with
  | nil => simp [observed]
  | cons ev evs ih =>
    rw [run_cons, ih, out_step, observed, List.filterMap_append, List.append_assoc]

/-! ### What a process can show -/

/-- Whatever the hardware does and the process receives, what it shows satisfies `Q`. -/
def Yields (Q : List Obs → Prop) : Fw Vars → Prop
  | .ret _ => Q []
  | .recv k => ∀ b, Yields Q (k b)
  | .send b k => Yields (fun os ↦ Q (.sent b :: os)) k
  | .call c k => (c.body L).Yields (readsOf c) fun os a ↦ Yields (fun os' ↦ Q (os ++ os')) (k a)

private theorem Yields.mono {Q Q' : List Obs → Prop} (hQ : ∀ os, Q os → Q' os) {p : Fw Vars}
    (h : Yields L Q p) : Yields L Q' p := by
  induction p generalizing Q Q' with
  | ret v => exact hQ _ h
  | recv k ih => exact fun b ↦ ih b hQ (h b)
  | send b k ih => exact ih (fun os ↦ hQ _) h
  | call c k ih => exact Prog.Yields.mono (fun os a ↦ ih a fun os' ↦ hQ _) h

/-- A call that reads nothing of interest. -/
theorem yields_ask {Q : List Obs → Prop} {c : Call} {g : c.Answer → Fw Vars}
    (hc : readsOf c = fun _ ↦ []) (hg : ∀ a, Yields L Q (g a)) : Yields L Q (ask c >>= g) := by
  change (c.body L).Yields (readsOf c) _
  rw [hc]
  exact Prog.yields_silent hg _

private theorem yields_putChar {Q : List Obs → Prop} {b : UInt8} {g : Unit → Fw Vars}
    (hg : Yields L (fun os ↦ Q (.sent b :: os)) (g ())) : Yields L Q (putChar b >>= g) := hg

private theorem Yields.exists {Q : List Obs → Prop} {p : Fw Vars} (h : Yields L Q p) :
    ∃ os, Q os := by
  have : Inhabited Hw := ⟨{}⟩
  induction p generalizing Q with
  | ret v => exact ⟨[], h⟩
  | recv k ih => exact ih 0 (h 0)
  | send b k ih =>
    obtain ⟨os, hos⟩ := ih h
    exact ⟨_, hos⟩
  | call c k ih =>
    obtain ⟨os, a, ha⟩ := Prog.Yields.exists h
    obtain ⟨os', hos⟩ := ih a ha
    exact ⟨_, hos⟩

/-- What can still be shown satisfies `Q`. -/
def StillYields (Q : List Obs → Prop) : Ctl → Prop
  | .idle _ => Q []
  | .main p => Yields L Q p
  | .inCall c body k => body.Yields (readsOf c) fun os a ↦ Yields L (fun os' ↦ Q (os ++ os')) (k a)

/-- No further command is received. -/
def NoCommand (m : Machine) : Event → Prop
  | .byte _ => ∀ v, m.ctl ≠ .idle v
  | _ => True

private theorem stillYields_cpuStep {Q : List Obs → Prop} {m : Machine}
    (h : StillYields L Q m.ctl) :
    StillYields L (fun os ↦ Q (observe m .cpu ++ os)) (m.cpuStep L).ctl := by
  obtain ⟨ctl, hw, out, lastWait⟩ := m
  cases ctl with
  | idle v => exact h
  | main p =>
    cases p with
    | ret v => exact h
    | recv k => exact h
    | send b k => exact h
    | call c k => exact h
  | inCall c body k =>
    cases body with
    | ret a => exact h
    | stmt f k' => exact h
    | get k' =>
      refine (h hw).mono fun os a ha ↦ ha.mono L fun os' hos ↦ ?_
      change Q (readsOf c hw ++ (os ++ os'))
      rw [← List.append_assoc]
      exact hos
    | await c' k' =>
      change Prog.Yields _ _ ((Prog.await c' k').step hw).1
      by_cases hc : c' hw = true
      · rw [show (Prog.await c' k').step hw = (k', hw) from if_pos hc]
        exact h
      · rw [show (Prog.await c' k').step hw = (.await c' k', hw) from if_neg hc]
        exact h

private theorem stillYields_step {Q : List Obs → Prop} (m : Machine) (ev : Event)
    (h : StillYields L Q m.ctl) (hok : NoCommand m ev) :
    StillYields L (fun os ↦ Q (observe m ev ++ os)) (m.step L ev).ctl := by
  cases ev with
  | cpu => exact stillYields_cpuStep L h
  | hw e => exact h
  | byte b =>
    obtain ⟨ctl, hw, out, lastWait⟩ := m
    cases ctl with
    | idle v => exact absurd rfl (hok v)
    | inCall c body k => exact h
    | main p =>
      cases p with
      | ret v => exact h
      | recv k => exact h b
      | send b' k => exact h
      | call c k => exact h

/-- After the observations `os`, what can still be shown makes them satisfy `Q`. -/
private def Completes (Q : List Obs → Prop) (m : Machine) (os : List Obs) : Prop :=
  StillYields L (fun os' ↦ Q (os ++ os')) m.ctl

private theorem completes_step {Q : List Obs → Prop} (m : Machine) (ev : Event) (os : List Obs)
    (h : Completes L Q m os) (hok : NoCommand m ev) :
    Completes L Q (m.step L ev) (os ++ observe m ev) := by
  unfold Completes
  simp only [List.append_assoc]
  exact stillYields_step L m ev h hok

/-- What a run has shown and what can still be shown. -/
theorem stillYields_run {Q : List Obs → Prop} {m : Machine} (h : StillYields L Q m.ctl)
    {evs : List Event} (hevs : Guarded (Machine.step L) NoCommand m evs) :
    StillYields L (fun os ↦ Q (shown L m evs ++ os)) (run (Machine.step L) m evs).ctl := by
  have hstart : Completes L Q m [] := h
  exact hevs.invariant_observed observe (completes_step L) hstart

private theorem StillYields.exists {Q : List Obs → Prop} {ctl : Ctl} (h : StillYields L Q ctl) :
    ∃ os, Q os := by
  cases ctl with
  | idle v => exact ⟨[], h⟩
  | main p => exact Yields.exists L h
  | inCall c body k =>
    have : Inhabited Hw := ⟨{}⟩
    obtain ⟨os, a, ha⟩ := Prog.Yields.exists h
    obtain ⟨os', hos⟩ := ha.exists L
    exact ⟨_, hos⟩

/-! ### The three commands -/

/-- The flag was seen set at one of the first `timeout` polls. -/
def caught (timeout : UInt32) (flags : List Bool) : Bool :=
  (flags.take timeout.toNat).contains true

private theorem yields_pollTrigger (timeout : Nat) :
    (pollTrigger timeout).Yields (fun r ↦ [Obs.poll r.flagged]) fun os left ↦
      ∃ flags : List Bool, os = flags.map .poll ∧
        decide (left ≠ 0) = (flags.take timeout).contains true := by
  induction timeout with
  | zero => exact ⟨[], rfl, rfl⟩
  | succ timeout ih =>
    intro r
    by_cases hr : r.flagged = true
    · simp only [hr]
      exact ⟨[true], rfl, by simp⟩
    · simp only [hr]
      refine ih.mono fun os left ⟨flags, hos, hleft⟩ ↦ ⟨false :: flags, ?_, ?_⟩
      · rw [hos]
        rfl
      · rw [hleft]
        simp

private theorem yields_triggerFinish (left : Nat) :
    (triggerFinish left).Yields (fun r ↦ [Obs.poll r.flagged]) fun os timedOut ↦
      os = [] ∧ timedOut = !decide (left ≠ 0) := by
  unfold triggerFinish
  by_cases h : left = 0
  · simp only [h, if_true]
    exact ⟨rfl, rfl⟩
  · simp only [h, if_false]
    exact ⟨rfl, by simp [h]⟩

/-- `trigger_wait` returns 0 exactly if it was caught. -/
theorem yields_triggerWait (timeout : UInt32) (delay : UInt16) :
    (triggerWait timeout delay).Yields (fun r ↦ [Obs.poll r.flagged]) fun os timedOut ↦
      ∃ flags : List Bool, os = flags.map .poll ∧ timedOut = !caught timeout flags := by
  refine Prog.yields_bind ?_
  -- the statements in front of the loop read nothing
  change Prog.Yields _ _ (pollTrigger timeout.toNat >>= triggerFinish)
  refine Prog.yields_bind ((yields_pollTrigger timeout.toNat).mono ?_)
  rintro os left ⟨flags, rfl, hleft⟩
  refine (yields_triggerFinish left).mono ?_
  rintro os' timedOut ⟨rfl, rfl⟩
  exact ⟨flags, List.append_nil _, by rw [hleft, caught]⟩

/-- The commands that wait for a trigger. -/
def waitCommands : List UInt8 := [chr 'd', chr 'f', chr 'h']

/-- The status byte of a command; that of `f` is the other way round. -/
def statusOf (command : UInt8) (caught : Bool) : UInt8 :=
  if (command == chr 'f') != caught then chr 'd' else chr 'e'

/-- The command shows `r`, its polls and its status byte. -/
def Reports (command : UInt8) (timeout : UInt32) (os : List Obs) : Prop :=
  ∃ flags : List Bool, os =
    .sent (chr 'r') :: (flags.map .poll ++ [.sent (statusOf command (caught timeout flags))])

private theorem yields_wait {Q : List Obs → Prop} {timeout : UInt32} {delay : UInt16}
    {g : Bool → Fw Vars}
    (hg : ∀ flags : List Bool,
      Yields L (fun os ↦ Q (flags.map .poll ++ os)) (g !caught timeout flags)) :
    Yields L Q (ask (.triggerWait timeout delay) >>= g) := by
  refine (yields_triggerWait timeout delay).mono ?_
  rintro os timedOut ⟨flags, rfl, rfl⟩
  exact hg flags

private theorem yields_glitchPulses {Q : List Obs → Prop} {g : Unit → Fw Vars}
    (hg : Yields L Q (g ())) (n : Nat) : Yields L Q (glitchPulses n >>= g) := by
  induction n with
  | zero => exact hg
  | succ n ih =>
    change Yields L Q (ask (.hiresSetCounter 0x00) >>= fun _ ↦
      ask .hiresGlitch >>= fun _ ↦ glitchPulses n >>= g)
    exact yields_ask L rfl fun _ ↦ yields_ask L rfl fun _ ↦ ih

private theorem yields_arm (v : Vars) :
    Yields L (Reports (chr 'd') v.timeout) (Command.arm.run v) := by
  apply yields_ask L rfl
  intro _
  apply yields_putChar
  apply yields_wait
  intro flags
  apply yields_ask L rfl
  intro _
  refine ⟨flags, ?_⟩
  cases caught v.timeout flags <;> rfl

private theorem yields_fault (v : Vars) :
    Yields L (Reports (chr 'f') v.timeout) (Command.fault.run v) := by
  apply yields_putChar
  apply yields_wait
  intro flags
  refine ⟨flags, ?_⟩
  cases caught v.timeout flags <;> rfl

private theorem yields_glitch (v : Vars) :
    Yields L (Reports (chr 'h') v.timeout) (Command.glitch.run v) := by
  apply yields_ask L rfl
  intro _
  apply yields_ask L rfl
  intro _
  apply yields_putChar
  apply yields_wait
  intro flags
  apply yields_glitchPulses
  refine ⟨flags, ?_⟩
  cases caught v.timeout flags <;> rfl

private theorem yields_waitCommand {command : UInt8} (hc : command ∈ waitCommands) (v : Vars) :
    Yields L (Reports command v.timeout) (dispatch v command) := by
  simp only [waitCommands, List.mem_cons, List.not_mem_nil, or_false] at hc
  rcases hc with rfl | rfl | rfl
  · exact yields_arm L v
  · exact yields_fault L v
  · exact yields_glitch L v

/-! ### The host's reading of it -/

/-- A port that answers to nothing. -/
def silentPort : Service UInt8 UInt8 Empty (fun _ ↦ Empty) Unit Unit :=
  ⟨fun _ _ ↦ .ret (), fun c _ ↦ c.elim⟩

/-- What a method returns on a port that delivers `bytes`. -/
def onPort {α : Type} (bytes : List UInt8) (method : ScopeM α) (self : Scope) : Except Raised α :=
  ((method.run.run self).exec silentPort ⟨.ret (), (), bytes.map some⟩).1.1

/-- The bytes of a command say whether the trigger was caught, and both decoders of the host
understand them. -/
structure Agrees (caught : Bool) (bytes : List UInt8) : Prop where
  bytes_eq : bytes = [chr 'r', if caught then chr 'd' else chr 'e']
  completion (self : Scope) :
    onPort bytes (do arm; waitForCompletion) self = .ok caught
  glitcher (self : Scope) :
    onPort bytes (do return (← glitchArm, ← waitForGlitcher)) self = .ok (false, !caught)

private theorem agrees_status (caught : Bool) :
    Agrees caught [chr 'r', if caught then chr 'd' else chr 'e'] := by
  cases caught with
  | false => exact ⟨rfl, fun _ ↦ rfl, fun _ ↦ rfl⟩
  | true => exact ⟨rfl, fun _ ↦ rfl, fun _ ↦ rfl⟩

private theorem agrees_statusOf_iff {command : UInt8} {caught : Bool} :
    Agrees caught [chr 'r', statusOf command caught] ↔ command ≠ chr 'f' := by
  by_cases hc : command = chr 'f'
  · subst hc
    have hne : ¬Agrees caught [chr 'r', statusOf (chr 'f') caught] := by
      intro h
      have hb := h.bytes_eq
      revert hb
      cases caught <;> decide
    simp [hne]
  · have hs : statusOf command caught = if caught then chr 'd' else chr 'e' := by
      rw [statusOf, beq_eq_false_iff_ne.mpr hc, Bool.false_bne]
    rw [hs]
    exact ⟨fun _ ↦ hc, fun _ ↦ agrees_status caught⟩

/-- The polls along a run. -/
def polls (m : Machine) (evs : List Event) : List Bool := (shown L m evs).filterMap Obs.flag

/-- A command that waits for a trigger shows `r` before it polls and nothing but a status byte
afterwards. Once it is over, its bytes agree with what the polls saw, for the host, too, exactly
if it is not `f`. -/
theorem status_agrees_iff {m : Machine} {v : Vars} (hm : m.ctl = .idle v) {command : UInt8}
    (hc : command ∈ waitCommands) {evs : List Event}
    (hevs : Guarded (Machine.step L) NoCommand (m.step L (.byte command)) evs) :
    (∃ (flags : List Bool) (status : UInt8), shown L (m.step L (.byte command)) evs <+:
      .sent (chr 'r') :: (flags.map .poll ++ [.sent status])) ∧
    ∀ v', (run (Machine.step L) (m.step L (.byte command)) evs).ctl = .idle v' →
      ((∃ bytes, (run (Machine.step L) (m.step L (.byte command)) evs).out = m.out ++ bytes ∧
          Agrees (caught v.timeout (polls L (m.step L (.byte command)) evs)) bytes) ↔
        command ≠ chr 'f') := by
  have hstart : StillYields L (Reports command v.timeout) (m.step L (.byte command)).ctl := by
    obtain ⟨ctl, hw, out, lastWait⟩ := m
    dsimp only at hm
    subst hm
    exact yields_waitCommand L hc v
  have hend := stillYields_run L hstart hevs
  constructor
  · obtain ⟨os, flags, hos⟩ := hend.exists L
    exact ⟨flags, _, os, hos⟩
  · intro v' hv'
    rw [hv'] at hend
    obtain ⟨flags, hos⟩ := hend
    rw [List.append_nil] at hos
    have hpolls : polls L (m.step L (.byte command)) evs = flags := by
      simp [polls, hos, List.filterMap_cons, Function.comp_def, Obs.flag]
    have hout : (run (Machine.step L) (m.step L (.byte command)) evs).out =
        m.out ++ [chr 'r', statusOf command (caught v.timeout flags)] := by
      rw [out_run, out_step, hos]
      simp [observe, Function.comp_def, Obs.byte]
    rw [hpolls, hout]
    constructor
    · rintro ⟨bytes, hbytes, hagrees⟩
      rw [← List.append_cancel_left hbytes] at hagrees
      exact agrees_statusOf_iff.mp hagrees
    · intro hf
      exact ⟨_, rfl, agrees_statusOf_iff.mpr hf⟩

/-- Whether an event is no command can be computed. -/
instance (m : Machine) : (ev : Event) → Decidable (NoCommand m ev)
  | .byte _ =>
    match m with
    | ⟨.idle v, _, _, _⟩ => .isFalse fun h ↦ h v rfl
    | ⟨.main _, _, _, _⟩ => .isTrue fun _ ↦ Ctl.noConfusion
    | ⟨.inCall _ _ _, _, _, _⟩ => .isTrue fun _ ↦ Ctl.noConfusion
  | .cpu => .isTrue trivial
  | .hw _ => .isTrue trivial

/-- The trigger comes at the fourth poll of `h`, and one pulse is fired. -/
def caughtGlitch : List Event :=
  List.replicate 30 .cpu ++ [.hw .edge, .hw .overflow] ++ List.replicate 14 .cpu ++
    [.hw .compareMatch] ++ List.replicate 5 .cpu

/-- A glitch whose trigger is caught at the fourth poll. -/
theorem status_agrees_iff_caughtGlitch :
    polls someLayout (initialised.step someLayout (.byte (chr 'h'))) caughtGlitch =
      [false, false, false, true] ∧
    ∃ bytes, (run (Machine.step someLayout) (initialised.step someLayout (.byte (chr 'h')))
        caughtGlitch).out = initialised.out ++ bytes ∧
      Agrees (caught 40000
        (polls someLayout (initialised.step someLayout (.byte (chr 'h'))) caughtGlitch)) bytes := by
  have hidle : initialised.ctl = .idle {} := Ctl.eq_idle_of_vars (by decide +kernel)
  have hend : (run (Machine.step someLayout) (initialised.step someLayout (.byte (chr 'h')))
      caughtGlitch).ctl = .idle {} := Ctl.eq_idle_of_vars (by decide +kernel)
  exact ⟨by decide +kernel,
    ((status_agrees_iff someLayout hidle (by decide) (by decide +kernel)).2 _ hend).mpr (by decide)⟩

/-- The trigger comes at the only poll of `f`. -/
def caughtFault : List Event :=
  List.replicate 13 .cpu ++ [.hw .edge, .hw .overflow] ++ List.replicate 8 .cpu

/-- The trigger is caught, `f` sends `e`, and the host takes it for a timeout. -/
theorem not_agrees_caughtFault :
    (run (Machine.step someLayout) (initialised.step someLayout (.byte (chr 'f')))
      caughtFault).ctl.vars = some {} ∧
    polls someLayout (initialised.step someLayout (.byte (chr 'f'))) caughtFault = [true] ∧
    (run (Machine.step someLayout) (initialised.step someLayout (.byte (chr 'f')))
      caughtFault).out = initialised.out ++ [chr 'r', chr 'e'] ∧
    onPort [chr 'r', chr 'e'] (do arm; waitForCompletion) {} = .ok false ∧
    ¬Agrees (caught 40000
      (polls someLayout (initialised.step someLayout (.byte (chr 'f'))) caughtFault))
      [chr 'r', chr 'e'] := by
  have hpolls : polls someLayout (initialised.step someLayout (.byte (chr 'f'))) caughtFault =
      [true] := by decide +kernel
  refine ⟨by decide +kernel, hpolls, by decide +kernel, rfl, fun h ↦ ?_⟩
  rw [hpolls] at h
  exact absurd h.bytes_eq (by decide)

end HorrorScope.Link
