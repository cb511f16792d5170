import HorrorScope.Link.Converter

/-!
# The lines that feed the target

The eight pins of `PORTC` feed the target, and `hires_init` hands them to `TCC2`: while the timer
stands still they carry what is in its `CTRLC`. A glitch starts the timer and has to stop it, and
`x` and `y` write `CTRLC`. Whatever commands have come since reset, the timer is found stopped at
the next command read and the lines carry what the last `x` or `y` has put there.
-/

namespace HorrorScope.Link

open HorrorScope.Base HorrorScope.Firmware

/-! ### The timer -/

/-- The registers of `TCC2` that decide what the pins carry between two pulses. -/
@[ext] structure Supply where
  ctrla : UInt8 := 0
  ctrlb : UInt8 := 0
  ctrlc : UInt8 := 0
  ctrle : UInt8 := 0
  lper : UInt8 := 0
  hper : UInt8 := 0
  deriving DecidableEq, Repr

/-- The registers among those only the processor writes. -/
def supply (x : Settings) : Supply :=
  ⟨x.tcc2.ctrla, x.tcc2.ctrlb, x.tcc2.ctrlc, x.tcc2.ctrle, x.tcc2.lper, x.tcc2.hper⟩

/-- What a call makes of them. -/
def Supply.after (a : Supply) : Call → Supply
  | .hiresInit =>
    { a with
      ctrla := a.ctrla ||| TC2_CLKSEL_OFF_gc
      ctrlb := 0xff
      ctrle := a.ctrle ||| TC2_BYTEM_SPLITMODE_gc
      ctrlc := a.ctrlc ||| 0x4 }
  | .hiresSetPeriod period => { a with lper := period, hper := period }
  | .hiresGlitch => { a with ctrla := TC2_CLKSEL_OFF_gc }
  | .powerInit => { a with ctrlc := 0xff }
  | .powerOff => { a with ctrlc := 0x00 }
  | .powerOn => { a with ctrlc := 0xff }
  | _ => a

/-- Every routine does to the registers what the table says. -/
theorem supply_body (L : Layout) (c : Call) (a : Supply) :
    (c.body L).Maps (fun r ↦ supply r.settings) a (a.after c) := by
  cases c with
  | triggerWait timeout delay => exact view_triggerWait (fun _ _ ↦ rfl) timeout delay a
  | load i => exact fun _ ↦ rfl
  | hiresInit =>
    exact ⟨fun a ↦ { a with ctrla := a.ctrla ||| TC2_CLKSEL_OFF_gc }, fun _ ↦ rfl,
      fun a ↦ { a with ctrlb := 0xff }, fun _ ↦ rfl,
      fun a ↦ { a with ctrle := a.ctrle ||| TC2_BYTEM_SPLITMODE_gc }, fun _ ↦ rfl,
      fun a ↦ { a with ctrlc := a.ctrlc ||| 0x4 }, fun _ ↦ rfl, rfl⟩
  | hiresSetPeriod period =>
    exact ⟨fun a ↦ { a with hper := period }, fun _ ↦ rfl,
      fun a ↦ { a with lper := period }, fun _ ↦ rfl, rfl⟩
  | hiresGlitch =>
    -- the loop between the two writes of `CTRLA` only reads
    exact ⟨id, fun _ ↦ rfl, id, fun _ ↦ rfl,
      fun a ↦ { a with ctrla := TC2_CLKSEL_DIV1_gc }, fun _ ↦ rfl,
      fun a ↦ { a with ctrla := TC2_CLKSEL_OFF_gc }, fun _ ↦ rfl, rfl⟩
  | powerInit =>
    exact ⟨id, fun _ ↦ rfl, id, fun _ ↦ rfl, fun a ↦ { a with ctrlc := 0xff }, fun _ ↦ rfl, rfl⟩
  | powerOff => exact ⟨id, fun _ ↦ rfl, fun a ↦ { a with ctrlc := 0x00 }, fun _ ↦ rfl, rfl⟩
  | powerOn => exact ⟨id, fun _ ↦ rfl, fun a ↦ { a with ctrlc := 0xff }, fun _ ↦ rfl, rfl⟩
  | adcInit bits12 =>
    change (adcInit bits12).Maps _ a a
    unfold adcInit
    repeat' first | exact rfl | refine ⟨id, fun _ ↦ rfl, ?_⟩ | split
  | dmaadcInit bits12 =>
    change (dmaadcInit bits12).Maps _ a a
    unfold dmaadcInit
    repeat' first | exact rfl | refine ⟨id, fun _ ↦ rfl, ?_⟩ | split
  | _ => repeat' first | exact rfl | refine ⟨id, fun _ ↦ rfl, ?_⟩

/-! ### The commands -/

/-- What an `x` or a `y` puts on the lines. -/
def Cmd.power (cmd : Cmd) : Option UInt8 :=
  match Command.ofByte cmd.byte with
  | some .turnOff => some 0x00
  | some .turnOn => some 0xff
  | _ => none

/-- What a command leaves behind when it finds the timer stopped. -/
def Supply.afterCmd (a : Supply) (cmd : Cmd) : Supply :=
  { a with ctrlc := cmd.power.getD a.ctrlc }

private theorem supply_cmd (cmd : Cmd) (v : Vars) {a : Supply} (ha : a.ctrla = TC2_CLKSEL_OFF_gc) :
    (cmd.effect v).2.foldl Supply.after a = a.afterCmd cmd := by
  obtain ⟨b, operands, hops⟩ := cmd
  obtain ⟨ctrla, ctrlb, ctrlc, ctrle, lper, hper⟩ := a
  obtain rfl : ctrla = TC2_CLKSEL_OFF_gc := ha
  unfold Supply.afterCmd Cmd.effect Cmd.power
  dsimp only
  cases hb : Command.ofByte b with
  | none => rfl
  | some c =>
    rw [hb] at hops
    cases c with
    | sampleFetch => exact foldl_loads (fun _ ↦ rfl) _
    | glitch => exact foldl_pulses rfl rfl _
    | setGain => obtain ⟨x, rfl⟩ := List.length_eq_one_iff.mp hops; rfl
    | setClockDivider => obtain ⟨x, rfl⟩ := List.length_eq_one_iff.mp hops; rfl
    | setBits12 => obtain ⟨x, rfl⟩ := List.length_eq_one_iff.mp hops; rfl
    | setPulses => obtain ⟨x, rfl⟩ := List.length_eq_one_iff.mp hops; rfl
    | setBias => obtain ⟨high, low, rfl⟩ := List.length_eq_two.mp hops; rfl
    | setNumberOfSamples => obtain ⟨high, low, rfl⟩ := List.length_eq_two.mp hops; rfl
    | setDelay => obtain ⟨high, low, rfl⟩ := List.length_eq_two.mp hops; rfl
    | setGlitchLength => obtain ⟨high, low, rfl⟩ := List.length_eq_two.mp hops; rfl
    | setTimeout => obtain ⟨high, low, rfl⟩ := List.length_eq_two.mp hops; rfl
    | _ => rfl

/-- What the `x`s and `y`s put on the lines, in their order. -/
def powers (cmds : List Cmd) : List UInt8 := cmds.filterMap Cmd.power

/-- Of a stream of commands only the last `x` or `y` is left. -/
theorem supply_cmds (cmds : List Cmd) (v : Vars) {a : Supply} (ha : a.ctrla = TC2_CLKSEL_OFF_gc) :
    (callsOf cmds v).foldl Supply.after a =
      { a with ctrlc := (powers cmds).getLast?.getD a.ctrlc } := by
  induction cmds generalizing v a with
  | nil => rfl
  | cons cmd cmds ih =>
    have hstill : (a.afterCmd cmd).ctrla = TC2_CLKSEL_OFF_gc := ha
    rw [callsOf, List.foldl_append, supply_cmd cmd v ha, ih _ hstill, powers, powers,
      List.filterMap_cons]
    unfold Supply.afterCmd
    cases cmd.power with
    | none => rfl
    | some c =>
      dsimp only
      rw [List.getLast?_cons]
      rfl

/-! ### From reset -/

/-- After any commands from reset, with any behaviour of the hardware, the glitch timer stands
still at the command read, has all eight pins and its period, and the pins carry what the last `x`
or `y` has put there: with no such command they are on. -/
theorem supply_boot {L : Layout} {evs : List Event} {v : Vars}
    (hv : (run (Machine.step L) .boot evs).ctl = .idle v) :
    (∃ cmds : List Cmd, observed received (Machine.step L) .boot evs = cmds.flatMap Cmd.bytes) ∧
    ∀ cmds : List Cmd, observed received (Machine.step L) .boot evs = cmds.flatMap Cmd.bytes →
      supply (run (Machine.step L) .boot evs).hw.settings =
        ⟨TC2_CLKSEL_OFF_gc, 0xff, (powers cmds).getLast?.getD 0xff, TC2_BYTEM_SPLITMODE_gc,
          0xff, 0xff⟩ := by
  refine ⟨exists_cmds_of_boot hv, fun cmds hcmds ↦ ?_⟩
  obtain ⟨-, ω, hω⟩ := run_boot hv hcmds
  have hinit : initCalls.foldl Supply.after (supply (Hw.settings {})) =
      ⟨TC2_CLKSEL_OFF_gc, 0xff, 0xff, TC2_BYTEM_SPLITMODE_gc, 0xff, 0xff⟩ := by decide
  rw [hω, view_callAll (supply_body L), List.foldl_append, hinit, supply_cmds cmds {} rfl]

/-- The lines on, off and a new delay. -/
def turningOff : List Cmd :=
  [⟨chr 'y', [], rfl⟩, ⟨chr 'x', [], rfl⟩, ⟨chr 'w', [0, 5], rfl⟩]

/-- The lines behind an `x`. -/
theorem supply_boot_turningOff :
    supply (run (Machine.step someLayout) .boot (sending turningOff)).hw.settings =
      ⟨TC2_CLKSEL_OFF_gc, 0xff, 0x00, TC2_BYTEM_SPLITMODE_gc, 0xff, 0xff⟩ := by
  have hv : (run (Machine.step someLayout) .boot (sending turningOff)).ctl = .idle { delay := 5 } :=
    Ctl.eq_idle_of_vars (by decide +kernel)
  exact (supply_boot hv).2 turningOff (by decide +kernel)

end HorrorScope.Link
