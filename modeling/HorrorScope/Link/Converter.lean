import HorrorScope.Link.Commands

/-!
# The converter's settings

`g`, `c` and `b` set the gain, the prescaler and the calibration of the converter. The registers
are updated by routines that read them first; some clear the field they set and `adc_ch_gain` does
not. What is left in the registers is computed for every stream of commands from reset, with
any behaviour of the hardware.
-/

namespace HorrorScope.Link

open HorrorScope.Base HorrorScope.Firmware

/-! ### What the routines do to the registers -/

/-- The registers behind the settings. -/
@[ext] structure Conversion where
  ch0Ctrl : UInt8 := 0
  prescaler : UInt8 := 0
  cal : UInt16 := 0
  deriving DecidableEq, Repr

/-- The registers among those only the processor writes. -/
def conversion (x : Settings) : Conversion := ⟨x.adca.ch0Ctrl, x.adca.prescaler, x.adca.cal⟩

/-- What a call makes of them. -/
def Conversion.after (a : Conversion) : Call → Conversion
  | .adcChGain gain => { a with ch0Ctrl := a.ch0Ctrl ||| gain }
  | .adcPrescaler prescaler =>
    { a with prescaler := a.prescaler &&& ~~~ADC_PRESCALER_gm ||| prescaler }
  | .adcCalibrate adcCal => { a with cal := adcCal }
  | .adcInit _ =>
    { a with
      prescaler := a.prescaler &&& ~~~ADC_PRESCALER_gm ||| ADC_PRESCALER_DIV4_gc
      ch0Ctrl := (a.ch0Ctrl ||| ADC_CH_GAIN_1X_gc) &&& ~~~ADC_CH_INPUTMODE_gm |||
        ADC_CH_INPUTMODE_DIFFWGAIN_gc }
  | _ => a

private theorem maps_adcInit (bits12 : UInt8) (a : Conversion) :
    (adcInit bits12).Maps (fun r ↦ conversion r.settings) a (a.after (.adcInit bits12)) := by
  unfold adcInit
  repeat' first
    | exact rfl
    | refine ⟨id, fun _ ↦ rfl, ?_⟩
    | refine ⟨fun a ↦ { a with prescaler := a.prescaler &&& ~~~ADC_PRESCALER_gm },
        fun _ ↦ rfl, ?_⟩
    | refine ⟨fun a ↦ { a with prescaler := a.prescaler ||| ADC_PRESCALER_DIV4_gc },
        fun _ ↦ rfl, ?_⟩
    | refine ⟨fun a ↦ { a with ch0Ctrl := a.ch0Ctrl ||| ADC_CH_GAIN_1X_gc }, fun _ ↦ rfl, ?_⟩
    | refine ⟨fun a ↦ { a with ch0Ctrl := a.ch0Ctrl &&& ~~~ADC_CH_INPUTMODE_gm },
        fun _ ↦ rfl, ?_⟩
    | refine ⟨fun a ↦ { a with ch0Ctrl := a.ch0Ctrl ||| ADC_CH_INPUTMODE_DIFFWGAIN_gc },
        fun _ ↦ rfl, ?_⟩
    | split

/-- Every routine does to the registers what the table says. -/
theorem maps_body (L : Layout) (c : Call) (a : Conversion) :
    (c.body L).Maps (fun r ↦ conversion r.settings) a (a.after c) := by
  cases c with
  | triggerWait timeout delay => exact view_triggerWait (fun _ _ ↦ rfl) timeout delay a
  | adcInit bits12 => exact maps_adcInit bits12 a
  | load i => exact fun _ ↦ rfl
  | adcChGain gain =>
    exact ⟨fun a ↦ { a with ch0Ctrl := a.ch0Ctrl ||| gain }, fun _ ↦ rfl, rfl⟩
  | adcPrescaler prescaler =>
    exact ⟨fun a ↦ { a with prescaler := a.prescaler &&& ~~~ADC_PRESCALER_gm }, fun _ ↦ rfl,
      fun a ↦ { a with prescaler := a.prescaler ||| prescaler }, fun _ ↦ rfl, rfl⟩
  | adcCalibrate adcCal => exact ⟨fun a ↦ { a with cal := adcCal }, fun _ ↦ rfl, rfl⟩
  | dmaadcInit bits12 =>
    change (dmaadcInit bits12).Maps _ a a
    unfold dmaadcInit
    repeat' first | exact rfl | refine ⟨id, fun _ ↦ rfl, ?_⟩ | split
  | _ => repeat' first | exact rfl | refine ⟨id, fun _ ↦ rfl, ?_⟩

/-! ### What the commands do to them -/

/-- The operand of a `g`. -/
def Cmd.gain (cmd : Cmd) : Option UInt8 :=
  match Command.ofByte cmd.byte, cmd.operands with
  | some .setGain, [c] => some c
  | _, _ => none

/-- The operand of a `c`. -/
def Cmd.divider (cmd : Cmd) : Option UInt8 :=
  match Command.ofByte cmd.byte, cmd.operands with
  | some .setClockDivider, [c] => some c
  | _, _ => none

/-- The operand of a `b`. -/
def Cmd.bias (cmd : Cmd) : Option UInt16 :=
  match Command.ofByte cmd.byte, cmd.operands with
  | some .setBias, [high, low] => some (short high low)
  | _, _ => none

/-- What a command makes of the registers. -/
def Conversion.afterCmd (a : Conversion) (cmd : Cmd) : Conversion where
  ch0Ctrl := cmd.gain.elim a.ch0Ctrl fun c ↦ a.ch0Ctrl ||| c <<< 2
  prescaler := cmd.divider.elim a.prescaler fun c ↦
    a.prescaler &&& ~~~ADC_PRESCALER_gm ||| (c &&& 0x7)
  cal := cmd.bias.getD a.cal

private theorem after_cmd (cmd : Cmd) (v : Vars) (a : Conversion) :
    (cmd.effect v).2.foldl Conversion.after a = a.afterCmd cmd := by
  obtain ⟨b, operands, hops⟩ := cmd
  unfold Conversion.afterCmd Cmd.effect Cmd.gain Cmd.divider Cmd.bias
  dsimp only
  cases hb : Command.ofByte b with
  | none => rfl
  | some c =>
    rw [hb] at hops
    cases c with
    | setGain => obtain ⟨x, rfl⟩ := List.length_eq_one_iff.mp hops; rfl
    | setClockDivider => obtain ⟨x, rfl⟩ := List.length_eq_one_iff.mp hops; rfl
    | setBias => obtain ⟨high, low, rfl⟩ := List.length_eq_two.mp hops; rfl
    | sampleFetch => exact foldl_loads (fun _ ↦ rfl) _
    | glitch => exact foldl_pulses rfl rfl _
    | setBits12 => obtain ⟨x, rfl⟩ := List.length_eq_one_iff.mp hops; rfl
    | setPulses => obtain ⟨x, rfl⟩ := List.length_eq_one_iff.mp hops; rfl
    | setNumberOfSamples => obtain ⟨high, low, rfl⟩ := List.length_eq_two.mp hops; rfl
    | setDelay => obtain ⟨high, low, rfl⟩ := List.length_eq_two.mp hops; rfl
    | setGlitchLength => obtain ⟨high, low, rfl⟩ := List.length_eq_two.mp hops; rfl
    | setTimeout => obtain ⟨high, low, rfl⟩ := List.length_eq_two.mp hops; rfl
    | _ => rfl

private theorem after_cmds (cmds : List Cmd) (v : Vars) (a : Conversion) :
    (callsOf cmds v).foldl Conversion.after a = cmds.foldl Conversion.afterCmd a := by
  induction cmds generalizing v a with
  | nil => rfl
  | cons cmd cmds ih => rw [callsOf, List.foldl_append, after_cmd, ih, List.foldl_cons]

/-! ### Streams of commands -/

/-- The operands of the `g`s, in their order. -/
def gains (cmds : List Cmd) : List UInt8 := cmds.filterMap Cmd.gain

/-- The operands of the `c`s. -/
def dividers (cmds : List Cmd) : List UInt8 := cmds.filterMap Cmd.divider

/-- The operands of the `b`s. -/
def biases (cmds : List Cmd) : List UInt16 := cmds.filterMap Cmd.bias

section Streams

variable (cmds : List Cmd) (a : Conversion)

/-- The gains gather in the control register. -/
theorem ch0Ctrl_afterCmds :
    (cmds.foldl Conversion.afterCmd a).ch0Ctrl = a.ch0Ctrl ||| orAll (gains cmds) <<< 2 := by
  induction cmds generalizing a with
  | nil => simp [gains, orAll]
  | cons cmd cmds ih =>
    rw [List.foldl_cons, ih, gains, gains, List.filterMap_cons]
    unfold Conversion.afterCmd
    cases cmd.gain with
    | none => rfl
    | some c =>
      change _ = a.ch0Ctrl ||| (c ||| orAll (gains cmds)) <<< 2
      rw [UInt8.shiftLeft_or, ← UInt8.or_assoc]
      rfl

private theorem seven_and_mask (c : UInt8) : c &&& 0x7 &&& ADC_PRESCALER_gm = c &&& 0x7 := by
  rw [UInt8.and_assoc]
  rfl

/-- The prescaler is the last one set. -/
theorem prescaler_afterCmds :
    (cmds.foldl Conversion.afterCmd a).prescaler &&& ADC_PRESCALER_gm =
      ((dividers cmds).getLast?.map (· &&& 0x7)).getD (a.prescaler &&& ADC_PRESCALER_gm) := by
  induction cmds generalizing a with
  | nil => rfl
  | cons cmd cmds ih =>
    rw [List.foldl_cons, ih, dividers, dividers, List.filterMap_cons]
    unfold Conversion.afterCmd
    cases cmd.divider with
    | none => rfl
    | some c =>
      dsimp only [Option.elim]
      rw [field_and_mask _ _ _ (seven_and_mask c), List.getLast?_cons]
      cases (cmds.filterMap Cmd.divider).getLast? <;> rfl

/-- So is the calibration. -/
theorem cal_afterCmds :
    (cmds.foldl Conversion.afterCmd a).cal = (biases cmds).getLast?.getD a.cal := by
  induction cmds generalizing a with
  | nil => rfl
  | cons cmd cmds ih =>
    rw [List.foldl_cons, ih, biases, biases, List.filterMap_cons]
    unfold Conversion.afterCmd
    cases cmd.bias with
    | none => rfl
    | some c =>
      dsimp only
      rw [List.getLast?_cons]
      rfl

end Streams

/-! ### The last one set -/

/-- Bits 4..2 of `ADCA.CH0.CTRL`. -/
def gainField (ch0Ctrl : UInt8) : UInt8 := (ch0Ctrl >>> 2) &&& 0x7

private theorem or_seven {x : UInt8} (hx : x ≤ 7) : x ||| 7 = 7 := by
  have h : ∀ n < 8, UInt8.ofNat n ||| 7 = 7 := by decide
  have := h x.toNat (Nat.lt_succ_of_le hx)
  rwa [UInt8.ofNat_toNat] at this

private theorem gainField_gained {x : UInt8} (hx : x ||| 7 = 7) :
    gainField (ADC_CH_INPUTMODE_DIFFWGAIN_gc ||| x <<< 2) = x := by
  have hle : x.toNat ≤ 7 := by
    have hor : (x ||| 7).toNat = x.toNat ||| 7 := UInt8.toNat_or x 7
    rw [hx] at hor
    calc
      x.toNat ≤ x.toNat ||| 7 := Nat.left_le_or
      _ = 7 := hor.symm
  have h : ∀ n < 8, gainField (ADC_CH_INPUTMODE_DIFFWGAIN_gc ||| UInt8.ofNat n <<< 2) =
      UInt8.ofNat n := by decide
  have := h x.toNat (Nat.lt_succ_of_le hle)
  rwa [UInt8.ofNat_toNat] at this

private theorem inputMode_gained (x : UInt8) :
    (ADC_CH_INPUTMODE_DIFFWGAIN_gc ||| x <<< 2) &&& ADC_CH_INPUTMODE_gm =
      ADC_CH_INPUTMODE_DIFFWGAIN_gc := by
  rw [UInt8.or_comm]
  exact or_and_mask _ _

private theorem and_seven (c : UInt8) : c &&& 0x7 = c % 8 := by
  apply UInt8.toNat_inj.mp
  rw [UInt8.toNat_and, UInt8.toNat_mod]
  exact Nat.and_two_pow_sub_one_eq_mod c.toNat 3

/-- The converter has the settings sent last, or those of `adc_init`. -/
structure LastWins (cmds : List Cmd) (a : Adc) : Prop where
  gain : gainField a.ch0Ctrl = (gains cmds).getLast?.getD (gainField ADC_CH_GAIN_1X_gc)
  inputMode : a.ch0Ctrl &&& ADC_CH_INPUTMODE_gm = ADC_CH_INPUTMODE_DIFFWGAIN_gc
  prescaler : a.prescaler &&& ADC_PRESCALER_gm =
    ((dividers cmds).getLast?.map (· % 8)).getD ADC_PRESCALER_DIV4_gc
  cal : ∀ bias, (biases cmds).getLast? = some bias → a.cal = bias

private theorem conversion_boot {L : Layout} {evs : List Event} {v : Vars}
    (hv : (run (Machine.step L) .boot evs).ctl = .idle v) {cmds : List Cmd}
    (hcmds : observed received (Machine.step L) .boot evs = cmds.flatMap Cmd.bytes) :
    conversion (run (Machine.step L) .boot evs).hw.settings =
      cmds.foldl Conversion.afterCmd ⟨ADC_CH_INPUTMODE_DIFFWGAIN_gc, ADC_PRESCALER_DIV4_gc, 0⟩ := by
  obtain ⟨-, ω, hω⟩ := run_boot hv hcmds
  rw [hω, view_callAll (maps_body L), List.foldl_append, after_cmds]
  rfl

private theorem conversion_other {L : Layout} {m : Machine} {evs : List Event} {v v' : Vars}
    (hm : m.ctl = .idle v) (hv' : (run (Machine.step L) m evs).ctl = .idle v') {cmds : List Cmd}
    (hcmds : observed received (Machine.step L) m evs = cmds.flatMap Cmd.bytes)
    (hother : ∀ cmd ∈ cmds, cmd.gain = none ∧ cmd.divider = none ∧ cmd.bias = none) :
    conversion (run (Machine.step L) m evs).hw.settings = conversion m.hw.settings := by
  obtain ⟨-, -, ω, hω⟩ := run_cmds hm hv' hcmds
  rw [hω, view_callAll (maps_body L), after_cmds]
  clear hω hcmds
  induction cmds with
  | nil => rfl
  | cons cmd cmds ih =>
    obtain ⟨hg, hd, hb⟩ := hother cmd List.mem_cons_self
    rw [List.foldl_cons]
    unfold Conversion.afterCmd
    rw [hg, hd, hb]
    exact ih fun cmd' hcmd' ↦ hother cmd' (List.mem_cons_of_mem _ hcmd')

section Boot

variable (L : Layout) (evs : List Event) (v : Vars)

/-- After any commands from reset, with `g` operands in 0..7, the settings are the last ones sent
exactly when no `g` before has set a bit that the last one does not have: `adc_ch_gain` never clears
the field. `d`, `8`, `h`, `n` and `w` change none of them. -/
theorem lastWins_iff (hv : (run (Machine.step L) .boot evs).ctl = .idle v) :
    (∃ cmds : List Cmd, observed received (Machine.step L) .boot evs = cmds.flatMap Cmd.bytes) ∧
    (∀ cmds : List Cmd, observed received (Machine.step L) .boot evs = cmds.flatMap Cmd.bytes →
      (∀ gain ∈ gains cmds, gain ≤ 7) →
      (LastWins cmds (run (Machine.step L) .boot evs).hw.adca ↔
        ∀ gain ∈ gains cmds,
          gain ||| (gains cmds).getLast?.getD 0 = (gains cmds).getLast?.getD 0)) ∧
    ∀ (evs' : List Event) (v' : Vars) (cmd : Cmd),
      (run (Machine.step L) (run (Machine.step L) .boot evs) evs').ctl = .idle v' →
      observed received (Machine.step L) (run (Machine.step L) .boot evs) evs' = cmd.bytes →
      cmd.byte ∈ [chr 'd', chr '8', chr 'h', chr 'n', chr 'w'] →
      conversion (run (Machine.step L) (run (Machine.step L) .boot evs) evs').hw.settings =
        conversion (run (Machine.step L) .boot evs).hw.settings := by
  refine ⟨exists_cmds_of_boot hv, ?_, ?_⟩
  · intro cmds hcmds hgains
    have hconv := conversion_boot hv hcmds
    have hgained : orAll (gains cmds) ||| 7 = 7 :=
      orAll_or_eq fun gain hgain ↦ or_seven (hgains gain hgain)
    have hch0 : (run (Machine.step L) .boot evs).hw.adca.ch0Ctrl =
        ADC_CH_INPUTMODE_DIFFWGAIN_gc ||| orAll (gains cmds) <<< 2 :=
      (congrArg Conversion.ch0Ctrl hconv).trans (ch0Ctrl_afterCmds cmds _)
    rw [← orAll_eq_getLast_iff]
    constructor
    · intro h
      rw [← gainField_gained hgained, ← hch0]
      exact h.gain
    · intro h
      refine ⟨?_, ?_, ?_, ?_⟩
      · rw [hch0, gainField_gained hgained]
        exact h
      · rw [hch0]
        exact inputMode_gained _
      · simp only [← and_seven]
        exact (congrArg (fun a ↦ a.prescaler &&& ADC_PRESCALER_gm) hconv).trans
          (prescaler_afterCmds cmds _)
      · intro bias hbias
        refine (congrArg Conversion.cal hconv).trans ?_
        rw [cal_afterCmds, hbias]
        rfl
  · intro evs' v' cmd hv' hcmd hbyte
    have hone : observed received (Machine.step L) (run (Machine.step L) .boot evs) evs' =
        [cmd].flatMap Cmd.bytes := by simpa using hcmd
    apply conversion_other hv hv' hone
    simp only [List.mem_singleton, forall_eq]
    unfold Cmd.gain Cmd.divider Cmd.bias
    simp only [List.mem_cons, List.not_mem_nil, or_false] at hbyte
    rcases hbyte with h | h | h | h | h <;> rw [h] <;> exact ⟨rfl, rfl, rfl⟩

end Boot

/-- Each byte comes when the one before is dealt with. -/
def paced (data : List UInt8) : List Event :=
  data.flatMap fun b ↦ .byte b :: List.replicate 6 .cpu

/-- The commands, from reset. -/
def sending (cmds : List Cmd) : List Event :=
  List.replicate 81 .cpu ++ paced (cmds.flatMap Cmd.bytes)

/-- `c` 13, `b` 0x0102 and two gains, the second with the bits of the first. -/
def rising : List Cmd :=
  [⟨chr 'c', [13], rfl⟩, ⟨chr 'b', [1, 2], rfl⟩, ⟨chr 'g', [1], rfl⟩, ⟨chr 'g', [3], rfl⟩]

/-- Gains that only add bits, and a command that sets something else. -/
theorem lastWins_iff_rising :
    LastWins rising (run (Machine.step someLayout) .boot (sending rising)).hw.adca ∧
    conversion (run (Machine.step someLayout) (run (Machine.step someLayout) .boot
      (sending rising)) (paced [chr 'w', 0, 5])).hw.settings =
      conversion (run (Machine.step someLayout) .boot (sending rising)).hw.settings := by
  have hv : (run (Machine.step someLayout) .boot (sending rising)).ctl = .idle {} :=
    Ctl.eq_idle_of_vars (by decide +kernel)
  have hv' : (run (Machine.step someLayout) (run (Machine.step someLayout) .boot
      (sending rising)) (paced [chr 'w', 0, 5])).ctl = .idle { delay := 5 } :=
    Ctl.eq_idle_of_vars (by decide +kernel)
  have hgains : gains rising = [1, 3] := rfl
  have h := lastWins_iff someLayout (sending rising) {} hv
  constructor
  · refine (h.2.1 rising (by decide +kernel) ?_).mpr ?_
    · simp [hgains]
    · simp only [hgains, List.forall_mem_cons, List.getLast?_cons, List.getLast?_nil]
      exact ⟨rfl, rfl, by simp⟩
  · exact h.2.2 _ _ ⟨chr 'w', [0, 5], rfl⟩ hv' (by decide +kernel) (by decide)

/-- Gain 2x and then 4x. -/
def secondGain : List Cmd := [⟨chr 'g', [1], rfl⟩, ⟨chr 'g', [2], rfl⟩]

/-- The second gain is ORed into the first: the converter is left at 8x. -/
theorem not_lastWins_secondGain :
    (run (Machine.step someLayout) .boot (sending secondGain)).ctl.vars = some {} ∧
    observed received (Machine.step someLayout) .boot (sending secondGain) =
      secondGain.flatMap Cmd.bytes ∧
    gainField (run (Machine.step someLayout) .boot (sending secondGain)).hw.adca.ch0Ctrl = 3 ∧
    ¬ LastWins secondGain (run (Machine.step someLayout) .boot (sending secondGain)).hw.adca := by
  refine ⟨by decide +kernel, by decide +kernel, by decide +kernel, ?_⟩
  intro h
  exact absurd h.gain (by decide +kernel)

end HorrorScope.Link
