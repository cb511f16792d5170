import HorrorScope.Link.Hardware

/-!
# What a command does

The table of the commands: how many operand bytes each one takes, what it makes of the variables
of `main` and which routines it calls. Neither depends on what the routines return, so a stream
of commands determines the variables and the calls behind it (`takes_cmds`), and every stream
after which the device is back at its command read is a sequence of whole commands
(`exists_commands`).
-/

namespace HorrorScope.Link

open HorrorScope.Base HorrorScope.Firmware

/-- The number of operand bytes. -/
def operandCount : Command → Nat
  | .setGain => 1
  | .setClockDivider => 1
  | .setBits12 => 1
  | .setPulses => 1
  | .setNumberOfSamples => 2
  | .setBias => 2
  | .setDelay => 2
  | .setGlitchLength => 2
  | .setTimeout => 2
  | _ => 0

/-- The variables after a command with its operands, and the calls it makes. -/
def effect (v : Vars) : Command → List UInt8 → Vars × List Call
  | .arm, _ => (v, [.memset 0, .triggerWait v.timeout v.delay, .dmaadcReadBufCh0 v.numberOfSamples])
  | .sampleFetch, _ => (v, (List.range v.numberOfSamples.toNat).map .load)
  | .setNumberOfSamples, [high, low] =>
    (if (short high low).toNat > scopeBufSize then v
      else { v with numberOfSamples := short high low }, [])
  | .setGain, [c] => (v, [.adcChGain (c <<< 2)])
  | .setClockDivider, [c] => (v, [.adcPrescaler (c &&& 0x7)])
  | .setBias, [high, low] => (v, [.adcCalibrate (short high low)])
  | .fault, _ => (v, [.triggerWait v.timeout v.delay])
  | .setBits12, [c] => ({ v with bits12 := c &&& 1 }, [.dmaadcInit (c &&& 1), .triggerInit])
  | .glitch, _ =>
    (v, [.hiresSetCounter 0x00, .hiresSetCompare (0xff - v.glitchLength),
        .triggerWait v.timeout v.delay] ++
      (List.replicate v.pulses.toNat [.hiresSetCounter 0x00, .hiresGlitch]).flatten)
  | .setDelay, [high, low] => ({ v with delay := short high low }, [])
  | .setGlitchLength, [high, low] => ({ v with glitchLength := (short high low).toUInt8 }, [])
  | .setTimeout, [high, low] => ({ v with timeout := (short high low).toUInt32 }, [])
  | .setPulses, [c] => ({ v with pulses := c }, [])
  | .turnOff, _ => (v, [.powerOff])
  | .turnOn, _ => (v, [.powerOn])
  | _, _ => (v, [])

/-- A command byte with all its operands. A byte that is no label has none. -/
structure Cmd where
  byte : UInt8
  operands : List UInt8
  complete : operands.length = ((Command.ofByte byte).map operandCount).getD 0

namespace Cmd

/-- The bytes on the wire. -/
def bytes (cmd : Cmd) : List UInt8 := cmd.byte :: cmd.operands

/-- The variables after the command, and the calls it makes. -/
def effect (v : Vars) (cmd : Cmd) : Vars × List Call :=
  match Command.ofByte cmd.byte with
  | some c => Link.effect v c cmd.operands
  | none => (v, [])

end Cmd

variable {η : Type} (handle : Handle η)

/-- Make some calls, whatever they return. -/
def callAll (cs : List Call) (h : η) : η := cs.foldl (fun h c ↦ (handle c h).2) h

/-- No calls. -/
@[simp] theorem callAll_nil (h : η) : callAll handle [] h = h := rfl

/-- The first call and the others. -/
@[simp] theorem callAll_cons (c : Call) (cs : List Call) (h : η) :
    callAll handle (c :: cs) h = callAll handle cs (handle c h).2 := rfl

/-- Calls one after another. -/
theorem callAll_append (cs cs' : List Call) (h : η) :
    callAll handle (cs ++ cs') h = callAll handle cs' (callAll handle cs h) := List.foldl_append

/-- The record of the calls. -/
theorem callAll_logged (cs₀ cs : List Call) (h : η) :
    callAll (logged handle) cs (cs₀, h) = (cs₀ ++ cs, callAll handle cs h) := by
  induction cs generalizing cs₀ h with
  | nil => simp
  | cons c cs ih =>
    rw [callAll_cons, callAll_cons]
    refine (ih _ _).trans ?_
    rw [List.append_assoc]
    rfl

/-! ### One command -/

/-- The device takes the bytes and gets back to its command read. -/
def Takes (v : Vars) (h : η) (data : List UInt8) (v' : Vars) (h' : η) : Prop :=
  ∀ u, ∃ u', (device handle).feed ⟨.ret v, h, u⟩ data = ⟨.ret v', h', u'⟩

variable {handle}

private theorem Takes.trans {v v' v'' : Vars} {h h' h'' : η} {data data' : List UInt8}
    (ht : Takes handle v h data v' h') (ht' : Takes handle v' h' data' v'' h'') :
    Takes handle v h (data ++ data') v'' h'' := by
  intro u
  obtain ⟨u', hu'⟩ := ht u
  obtain ⟨u'', hu''⟩ := ht' u'
  exact ⟨u'', by rw [Service.feed_append, hu', hu'']⟩

private theorem settle_pulses (v : Vars) (b : UInt8) (n : Nat) (h : η)
    (u : List (Option UInt8)) :
    ∃ u', (device handle).settle (do glitchPulses n; putChar b; return v) h u =
      ⟨.ret v, callAll handle (List.replicate n [.hiresSetCounter 0x00, .hiresGlitch]).flatten h,
        u'⟩ := by
  induction n generalizing h u with
  | zero => exact ⟨_, rfl⟩
  | succ n ih => exact ih _ _

private theorem settle_loads (v : Vars) (i n : Nat) (h : η) (u : List (Option UInt8)) :
    ∃ u', (device handle).settle (do putBuf i n; return v) h u =
      ⟨.ret v, callAll handle ((List.range' i n).map .load) h, u'⟩ := by
  induction n generalizing i h u with
  | zero => exact ⟨_, rfl⟩
  | succ n ih => exact ih _ _ _

private theorem feed_command {b : UInt8} {c : Command} (hb : Command.ofByte b = some c) (v : Vars)
    (h : η) (u : List (Option UInt8)) (operands : List UInt8) :
    (device handle).feed ⟨.ret v, h, u⟩ (b :: operands) =
      (device handle).feed ((device handle).settle (c.run v) h (u ++ [none])) operands := by
  have hd : dispatch v b = c.run v := by
    unfold dispatch
    rw [hb]
  rw [← hd]
  rfl

private theorem takes_command {b : UInt8} {c : Command} (hb : Command.ofByte b = some c)
    {operands : List UInt8} (hops : operands.length = operandCount c) (v : Vars) (h : η) :
    Takes handle v h (b :: operands) (effect v c operands).1
      (callAll handle (effect v c operands).2 h) := by
  intro u
  rw [feed_command hb]
  cases c with
  | test => obtain rfl := List.length_eq_zero_iff.mp hops; exact ⟨_, rfl⟩
  | arm => obtain rfl := List.length_eq_zero_iff.mp hops; exact ⟨_, rfl⟩
  | fault => obtain rfl := List.length_eq_zero_iff.mp hops; exact ⟨_, rfl⟩
  | turnOff => obtain rfl := List.length_eq_zero_iff.mp hops; exact ⟨_, rfl⟩
  | turnOn => obtain rfl := List.length_eq_zero_iff.mp hops; exact ⟨_, rfl⟩
  | sampleFetch =>
    obtain rfl := List.length_eq_zero_iff.mp hops
    change ∃ u', _ = (⟨.ret v, callAll handle ((List.range _).map .load) h, u'⟩ : Device η)
    rw [List.range_eq_range']
    exact settle_loads v 0 _ h _
  | glitch =>
    obtain rfl := List.length_eq_zero_iff.mp hops
    exact settle_pulses v _ _ _ _
  | setGain => obtain ⟨x, rfl⟩ := List.length_eq_one_iff.mp hops; exact ⟨_, rfl⟩
  | setClockDivider => obtain ⟨x, rfl⟩ := List.length_eq_one_iff.mp hops; exact ⟨_, rfl⟩
  | setBits12 => obtain ⟨x, rfl⟩ := List.length_eq_one_iff.mp hops; exact ⟨_, rfl⟩
  | setPulses => obtain ⟨x, rfl⟩ := List.length_eq_one_iff.mp hops; exact ⟨_, rfl⟩
  | setBias => obtain ⟨high, low, rfl⟩ := List.length_eq_two.mp hops; exact ⟨_, rfl⟩
  | setDelay => obtain ⟨high, low, rfl⟩ := List.length_eq_two.mp hops; exact ⟨_, rfl⟩
  | setGlitchLength => obtain ⟨high, low, rfl⟩ := List.length_eq_two.mp hops; exact ⟨_, rfl⟩
  | setTimeout => obtain ⟨high, low, rfl⟩ := List.length_eq_two.mp hops; exact ⟨_, rfl⟩
  | setNumberOfSamples =>
    obtain ⟨high, low, rfl⟩ := List.length_eq_two.mp hops
    change ∃ u', (device handle).settle (if (short high low).toNat > scopeBufSize then _ else _)
      h _ = (⟨.ret (if (short high low).toNat > scopeBufSize then _ else _), h, u'⟩ : Device η)
    by_cases hgt : (short high low).toNat > scopeBufSize
    · rw [if_pos hgt, if_pos hgt]
      exact ⟨_, rfl⟩
    · rw [if_neg hgt, if_neg hgt]
      exact ⟨_, rfl⟩

/-- Every command does what the table says. -/
theorem takes_cmd (cmd : Cmd) (v : Vars) (h : η) :
    Takes handle v h cmd.bytes (cmd.effect v).1 (callAll handle (cmd.effect v).2 h) := by
  obtain ⟨b, operands, hops⟩ := cmd
  unfold Cmd.effect Cmd.bytes
  cases hb : Command.ofByte b with
  | some c =>
    rw [hb] at hops
    exact takes_command hb hops v h
  | none =>
    rw [hb] at hops
    obtain rfl := List.length_eq_zero_iff.mp hops
    intro u
    change ∃ u', (device handle).settle (dispatch v b) h _ = _
    unfold dispatch
    rw [hb]
    exact ⟨_, rfl⟩

/-! ### Streams of commands -/

/-- The variables after a stream of commands. -/
def varsAfter (cmds : List Cmd) (v : Vars) : Vars := cmds.foldl (fun v cmd ↦ (cmd.effect v).1) v

/-- The calls of a stream of commands. -/
def callsOf : List Cmd → Vars → List Call
  | [], _ => []
  | cmd :: cmds, v => (cmd.effect v).2 ++ callsOf cmds (cmd.effect v).1

private theorem takes_cmds (cmds : List Cmd) (v : Vars) (h : η) :
    Takes handle v h (cmds.flatMap Cmd.bytes) (varsAfter cmds v)
      (callAll handle (callsOf cmds v) h) := by
  induction cmds generalizing v h with
  | nil => exact fun u ↦ ⟨u, rfl⟩
  | cons cmd cmds ih =>
    rw [List.flatMap_cons, callsOf, callAll_append]
    exact (takes_cmd cmd v h).trans (ih _ _)

private theorem recv_ne_ret (k : UInt8 → Fw Vars) (v : Vars) : Proc.recv k ≠ .ret v := by
  simp

private theorem proc_ne_ret {b : UInt8} {c : Command} (hb : Command.ofByte b = some c)
    {operands : List UInt8} (hops : operands.length < operandCount c) (v : Vars) (h : η)
    (u : List (Option UInt8)) (v' : Vars) :
    ((device handle).feed ⟨.ret v, h, u⟩ (b :: operands)).proc ≠ .ret v' := by
  have htwo : operandCount c ≤ 2 := by
    cases c <;> simp [operandCount]
  rw [feed_command hb]
  obtain _ | ⟨x, _ | ⟨y, operands⟩⟩ := operands
  · cases c <;> first
      | exact absurd hops (Nat.lt_irrefl 0)
      | exact recv_ne_ret _ v'
  · cases c <;> first
      | exact recv_ne_ret _ v'
      | exact absurd hops (by simp [operandCount])
  · simp only [List.length_cons] at hops
    omega

/-- The operands a byte asks for. -/
private def wanted (b : UInt8) : Nat := ((Command.ofByte b).map operandCount).getD 0

/-- What brings the device from its command read back to it is a sequence of whole commands. -/
theorem exists_commands {v v' : Vars} {h : η} {u : List (Option UInt8)} {q : List UInt8}
    (hq : ((device handle).feed ⟨.ret v, h, u⟩ q).proc = .ret v') :
    ∃ cmds : List Cmd, q = cmds.flatMap Cmd.bytes := by
  induction hlen : q.length using Nat.strongRecOn generalizing q v h u with
  | ind n ih =>
    cases q with
    | nil => exact ⟨[], rfl⟩
    | cons b q =>
      by_cases hle : wanted b ≤ q.length
      · -- the operands of the first command are all there
        let cmd : Cmd := ⟨b, q.take (wanted b), List.length_take_of_le hle⟩
        have hsplit : b :: q = cmd.bytes ++ q.drop (wanted b) := by
          rw [Cmd.bytes, List.cons_append, List.take_append_drop]
        have hcmd : Takes handle v h cmd.bytes _ _ := takes_cmd cmd v h
        obtain ⟨u', hu'⟩ := hcmd u
        rw [hsplit, Service.feed_append, hu'] at hq
        have hshort : (q.drop (wanted b)).length < n := by
          rw [← hlen, List.length_drop, List.length_cons]
          omega
        obtain ⟨cmds, hcmds⟩ := ih _ hshort hq rfl
        refine ⟨cmd :: cmds, ?_⟩
        rw [List.flatMap_cons, ← hcmds, ← hsplit]
      · exfalso
        unfold wanted at hle
        cases hb : Command.ofByte b with
        | some c =>
          rw [hb] at hle
          exact proc_ne_ret hb (Nat.lt_of_not_le hle) v h u v' hq
        | none =>
          rw [hb] at hle
          exact hle (Nat.zero_le _)

/-! ### On the machine -/

variable {L : Layout}

private theorem cmds_of_trace {p : Fw Vars} {v v' : Vars} {r₀ r : Hw} {ω : Interference}
    (cs₀ : List Call) {cs : List Call} {n : Nat} {q : List UInt8} {u : List (Option UInt8)}
    (hp : ∃ u₀, (device (logged (hardware L ω))).settle p ([], 0, r₀) [] =
      ⟨.ret v, callAll (logged (hardware L ω)) cs₀ ([], 0, r₀), u₀⟩)
    (ht : (device (logged (hardware L ω))).trace p ([], 0, r₀) [] q = ⟨.ret v', (cs, n, r), u⟩) :
    ∃ cmds : List Cmd, q = cmds.flatMap Cmd.bytes := by
  obtain ⟨u₀, hu₀⟩ := hp
  unfold Service.trace at ht
  rw [hu₀] at ht
  exact exists_commands (congrArg Turn.proc ht)

private theorem calls_of_trace {p : Fw Vars} {v v' : Vars} {r₀ r : Hw} {ω : Interference}
    (cs₀ : List Call) {cs : List Call} {n : Nat} {cmds : List Cmd} {u : List (Option UInt8)}
    (hp : ∃ u₀, (device (logged (hardware L ω))).settle p ([], 0, r₀) [] =
      ⟨.ret v, callAll (logged (hardware L ω)) cs₀ ([], 0, r₀), u₀⟩)
    (ht : (device (logged (hardware L ω))).trace p ([], 0, r₀) [] (cmds.flatMap Cmd.bytes) =
      ⟨.ret v', (cs, n, r), u⟩) :
    v' = varsAfter cmds v ∧ cs = cs₀ ++ callsOf cmds v ∧
      callAll (hardware L ω) (cs₀ ++ callsOf cmds v) (0, r₀) = (n, r) := by
  obtain ⟨u₀, hu₀⟩ := hp
  unfold Service.trace at ht
  have htakes : Takes (logged (hardware L ω)) v (callAll (logged (hardware L ω)) cs₀ ([], 0, r₀))
      (cmds.flatMap Cmd.bytes) _ _ := takes_cmds cmds v _
  obtain ⟨u', hu'⟩ := htakes u₀
  rw [hu₀, hu', ← callAll_append, callAll_logged] at ht
  have hproc : Proc.ret (varsAfter cmds v) = .ret v' := congrArg Turn.proc ht
  have hcalls : cs₀ ++ callsOf cmds v = cs := congrArg (fun t ↦ t.env.1) ht
  exact ⟨(Proc.ret.inj hproc).symm, hcalls.symm, congrArg (fun t ↦ t.env.2) ht⟩

section Idle

variable {m : Machine} {v v' : Vars} {evs : List Event} (hm : m.ctl = .idle v)
  (hv' : (run (Machine.step L) m evs).ctl = .idle v')

include hm hv'

/-- A run of the machine that takes whole commands makes their calls, and the registers only the
processor writes are as these leave them, for some behaviour of the hardware. -/
theorem run_cmds {cmds : List Cmd}
    (hq : observed received (Machine.step L) m evs = cmds.flatMap Cmd.bytes) :
    v' = varsAfter cmds v ∧ observed called (Machine.step L) m evs = callsOf cmds v ∧
      ∃ ω, (run (Machine.step L) m evs).hw.settings =
        (callAll (hardware L ω) (callsOf cmds v) (0, m.hw)).2.settings := by
  obtain ⟨ω, n, r, u, es, hfeed, hhw, -⟩ := exists_feed_of_run L hm evs hv'
  rw [hq] at hfeed
  obtain ⟨hvars, hcalls, henv⟩ := calls_of_trace (p := .ret v) [] ⟨[], rfl⟩ hfeed
  refine ⟨hvars, hcalls, ω, ?_⟩
  rw [hhw, settings_actions]
  exact congrArg (fun s ↦ s.2.settings) henv.symm

end Idle

/-- The calls of `main` up to its loop. -/
def initCalls : List Call :=
  [.memset (chr 'U'), .adcInit 1, .dmaadcInit 1, .triggerInit, .powerInit, .hiresInit,
    .hiresSetPeriod 0xff]

section Boot

variable {v' : Vars} {evs : List Event}
  (hv' : (run (Machine.step L) .boot evs).ctl = .idle v')

include hv'

/-- From reset, too, the bytes taken are whole commands. -/
theorem exists_cmds_of_boot :
    ∃ cmds : List Cmd, observed received (Machine.step L) .boot evs = cmds.flatMap Cmd.bytes := by
  obtain ⟨ω, n, r, u, es, htrace, -⟩ := exists_trace_of_run L (m := .boot) rfl evs hv'
  exact cmds_of_trace initCalls ⟨_, rfl⟩ htrace

/-- A run from reset makes the calls of the initialisation and those of the commands. -/
theorem run_boot {cmds : List Cmd}
    (hq : observed received (Machine.step L) .boot evs = cmds.flatMap Cmd.bytes) :
    v' = varsAfter cmds {} ∧
      ∃ ω, (run (Machine.step L) .boot evs).hw.settings =
        (callAll (hardware L ω) (initCalls ++ callsOf cmds {}) (0, {})).2.settings := by
  obtain ⟨ω, n, r, u, es, htrace, hhw, -⟩ := exists_trace_of_run L (m := .boot) rfl evs hv'
  rw [hq] at htrace
  obtain ⟨hvars, -, henv⟩ := calls_of_trace initCalls ⟨_, rfl⟩ htrace
  refine ⟨hvars, ω, ?_⟩
  rw [hhw, settings_actions]
  exact congrArg (fun s ↦ s.2.settings) henv.symm

end Boot

/-- What all the calls keep. -/
theorem keeps_callAll (ω : Interference) {I : Settings → Prop} {cs : List Call}
    (hcs : ∀ c ∈ cs, (c.body L).Keeps fun r ↦ I r.settings) {s : Nat × Hw} (hs : I s.2.settings) :
    I (callAll (hardware L ω) cs s).2.settings := by
  induction cs generalizing s with
  | nil => exact hs
  | cons c cs ih =>
    apply ih
    · intro c' hc'
      exact hcs c' (List.mem_cons_of_mem _ hc')
    · exact keeps_hardware ω (hcs c List.mem_cons_self) hs

/-! ### A part of the settings, followed through the calls -/

section Views

variable {τ : Type} {view : Settings → τ} {after : τ → Call → τ} {x : τ}

/-- A part of the settings behind some calls, from what each of them makes of it. -/
theorem view_callAll
    (hafter : ∀ (c : Call) (x : τ), (c.body L).Maps (fun r ↦ view r.settings) x (after x c))
    (ω : Interference) (cs : List Call) (s : Nat × Hw) :
    view (callAll (hardware L ω) cs s).2.settings = cs.foldl after (view s.2.settings) := by
  induction cs generalizing s with
  | nil => rfl
  | cons c cs ih =>
    rw [callAll_cons, ih, List.foldl_cons]
    congr 1
    refine (hafter c _).exec fun i r ↦ ?_
    rw [settings_actAll]

private theorem view_pollTrigger (timeout : Nat) (x : τ) :
    (pollTrigger timeout).Maps (fun r ↦ view r.settings) x x := by
  induction timeout with
  | zero => exact rfl
  | succ timeout ih =>
    intro r
    change (if r.flagged then pure (timeout + 1) else pollTrigger timeout).Maps _ x x
    split
    · exact rfl
    · exact ih

/-- Of the settings, `trigger_wait` writes the period of the delay timer only. -/
theorem view_triggerWait (hper : ∀ (y : Settings) (per : UInt16), view { y with per } = view y)
    (timeout : UInt32) (delay : UInt16) (x : τ) :
    (triggerWait timeout delay).Maps (fun r ↦ view r.settings) x x := by
  refine Prog.maps_bind ?_ fun _ ↦ Prog.maps_bind (view_pollTrigger _ x) fun left ↦ ?_
  · repeat' first
      | exact rfl
      | refine ⟨id, fun _ ↦ rfl, ?_⟩
      | refine ⟨id, fun r ↦ hper r.settings delay, ?_⟩
  · unfold triggerFinish
    refine ⟨id, fun _ ↦ rfl, ?_⟩
    split
    · repeat' first | exact rfl | refine ⟨id, fun _ ↦ rfl, ?_⟩
    · repeat' first | exact rfl | refine ⟨id, fun _ ↦ rfl, ?_⟩

private theorem foldl_of_forall {cs : List Call} (h : ∀ c ∈ cs, after x c = x) :
    cs.foldl after x = x := by
  induction cs with
  | nil => rfl
  | cons c cs ih =>
    rw [List.foldl_cons, h c List.mem_cons_self]
    exact ih fun c' hc' ↦ h c' (List.mem_cons_of_mem _ hc')

/-- The pulses of a glitch leave what one of them leaves. -/
theorem foldl_pulses (hcounter : after x (.hiresSetCounter 0x00) = x)
    (hglitch : after x .hiresGlitch = x) (n : Nat) :
    (List.replicate n [Call.hiresSetCounter 0x00, .hiresGlitch]).flatten.foldl after x = x := by
  apply foldl_of_forall
  intro c hc
  obtain ⟨cs, hcs, hc⟩ := List.mem_flatten.mp hc
  obtain ⟨-, rfl⟩ := List.mem_replicate.mp hcs
  rcases List.mem_pair.mp hc with rfl | rfl
  · exact hcounter
  · exact hglitch

/-- So do the reads of a transfer. -/
theorem foldl_loads (hload : ∀ i, after x (.load i) = x) (n : Nat) :
    ((List.range n).map Call.load).foldl after x = x := by
  apply foldl_of_forall
  intro c hc
  obtain ⟨i, -, rfl⟩ := List.mem_map.mp hc
  exact hload i

end Views

end HorrorScope.Link
