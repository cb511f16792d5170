import HorrorScope.Firmware.Hardware

/-!
# The firmware's drivers

`adc.c`, `dmaadc.c`, `trigger.c` and `hires_glitch.c`, statement by statement. Every register
assignment and every poll is a step of its own; `x &= ~m; x |= v;` is two.
-/

namespace HorrorScope.Firmware

open HorrorScope.Base Prog

/-- `sizeof(scopeBuf)`, `1024 * 3 + 512` (`HorrorScope.c:17`). -/
def scopeBufSize : Nat := 3584

/-- Where the linker put the two static objects whose addresses the drivers use. -/
structure Layout where
  /-- `&scopeBuf[0]`. -/
  scopeBuf : UInt16
  /-- `&clkSel` of `trigger.c`. -/
  clkSel : UInt16
  /-- The buffer lies in the 64 KB data space. -/
  fits : scopeBuf.toNat + scopeBufSize ≤ 65536

/-- A routine of the firmware. -/
abbrev Routine := Prog Hw

/-- `((uint16_t) p >> 0) & 0xFF`. -/
def lo (p : UInt16) : UInt8 := (p &&& 0xff).toUInt8

/-- `((uint16_t) p >> 8) & 0xFF`. -/
def hi (p : UInt16) : UInt8 := ((p >>> 8) &&& 0xff).toUInt8

/-- `reg &= ~mask; reg |= v;` for the register that `on` updates. -/
def setField (on : (UInt8 → UInt8) → Hw → Hw) (mask v : UInt8) : Routine Unit := do
  assign (on (· &&& ~~~mask))
  assign (on (· ||| v))

/-! ### `adc.c` -/

def ADC_ENABLE_bm : UInt8 := 0x01
def ADC_CH0START_bm : UInt8 := 0x04
def ADC_CONMODE_bm : UInt8 := 0x10
def ADC_FREERUN_bm : UInt8 := 0x08
def ADC_RESOLUTION_12BIT_gc : UInt8 := 0x00
def ADC_RESOLUTION_8BIT_gc : UInt8 := 0x04
def ADC_REFSEL_gm : UInt8 := 0x70
def ADC_REFSEL_INT1V_gc : UInt8 := 0x00
def ADC_BANDGAP_bm : UInt8 := 0x02
def ADC_SWEEP_gm : UInt8 := 0xc0
def ADC_SWEEP_0_gc : UInt8 := 0x00
def ADC_EVSEL_gm : UInt8 := 0x38
def ADC_EVSEL_0123_gc : UInt8 := 0x00
def ADC_EVACT_gm : UInt8 := 0x07
def ADC_EVACT_NONE_gc : UInt8 := 0x00
def ADC_PRESCALER_gm : UInt8 := 0x07
def ADC_PRESCALER_DIV4_gc : UInt8 := 0x00
def ADC_CH_GAIN_1X_gc : UInt8 := 0x00
def ADC_CH_INPUTMODE_gm : UInt8 := 0x03
def ADC_CH_INPUTMODE_DIFFWGAIN_gc : UInt8 := 0x03
def ADC_CH_MUXPOS_gm : UInt8 := 0x78
def ADC_CH_MUXPOS_PIN3_gc : UInt8 := 0x18
def ADC_CH_MUXNEG_gm : UInt8 := 0x07
def ADC_CH_MUXNEG_PIN5_gc : UInt8 := 0x01
def ADC_CH_INTLVL_gm : UInt8 := 0x03
def ADC_CH_INTLVL_OFF_gc : UInt8 := 0x00
def ADC_CH_INTLVL_LO_gc : UInt8 := 0x01

/-- `ADCA.CTRLA`. -/
def onCtrla (f : UInt8 → UInt8) (r : Hw) : Hw := { r with adca.ctrla := f r.adca.ctrla }

/-- `ADCA.REFCTRL`. -/
def onRefctrl (f : UInt8 → UInt8) (r : Hw) : Hw := { r with adca.refctrl := f r.adca.refctrl }

/-- `ADCA.EVCTRL`. -/
def onEvctrl (f : UInt8 → UInt8) (r : Hw) : Hw := { r with adca.evctrl := f r.adca.evctrl }

/-- `ADCA.PRESCALER`. -/
def onPrescaler (f : UInt8 → UInt8) (r : Hw) : Hw :=
  { r with adca.prescaler := f r.adca.prescaler }

/-- `ADCA.CH0.CTRL`. -/
def onCh0Ctrl (f : UInt8 → UInt8) (r : Hw) : Hw := { r with adca.ch0Ctrl := f r.adca.ch0Ctrl }

/-- `ADCA.CH0.MUXCTRL`. -/
def onCh0Muxctrl (f : UInt8 → UInt8) (r : Hw) : Hw :=
  { r with adca.ch0Muxctrl := f r.adca.ch0Muxctrl }

/-- `ADCA.CH0.INTCTRL`. -/
def onCh0Intctrl (f : UInt8 → UInt8) (r : Hw) : Hw :=
  { r with adca.ch0Intctrl := f r.adca.ch0Intctrl }

/-- `adc_enable` (`adc.c:103`). -/
def adcEnable (en : Bool) : Routine Unit :=
  if en then assign (onCtrla (· ||| ADC_ENABLE_bm)) else assign (onCtrla (· &&& ~~~ADC_ENABLE_bm))

/-- `adc_refsel` (`adc.c:124`). -/
def adcRefsel (refsel : UInt8) : Routine Unit := setField onRefctrl ADC_REFSEL_gm refsel

/-- `adc_bandgap` (`adc.c:131`). -/
def adcBandgap (bandgap : Bool) : Routine Unit :=
  if bandgap then assign (onRefctrl (· ||| ADC_BANDGAP_bm))
  else assign (onRefctrl (· &&& ~~~ADC_BANDGAP_bm))

/-- `adc_sweep` (`adc.c:143`). -/
def adcSweep (sweep : UInt8) : Routine Unit := setField onEvctrl ADC_SWEEP_gm sweep

/-- `adc_evsel` (`adc.c:158`). -/
def adcEvsel (evsel : UInt8) : Routine Unit := setField onEvctrl ADC_EVSEL_gm evsel

/-- `adc_evact` (`adc.c:172`). -/
def adcEvact (evact : UInt8) : Routine Unit := setField onEvctrl ADC_EVACT_gm evact

/-- `adc_prescaler` (`adc.c:187`). -/
def adcPrescaler (prescaler : UInt8) : Routine Unit :=
  setField onPrescaler ADC_PRESCALER_gm prescaler

/-- `ADCA.INTFLAGS |= intflags`: the flags read as set are written back as ones, too. -/
def adcIntflags (intflags : UInt8) : Routine Unit :=
  assign fun r ↦ { r with adca.intflags := r.adca.intflags &&& ~~~(r.adca.intflags ||| intflags) }

/-- The clearing of the old gain is commented out in the source (`adc.c:234-240`). -/
def adcChGain (gain : UInt8) : Routine Unit := assign (onCh0Ctrl (· ||| gain))

/-- `adc_ch_inputmode` (`adc.c:255`). -/
def adcChInputmode (inputmode : UInt8) : Routine Unit :=
  setField onCh0Ctrl ADC_CH_INPUTMODE_gm inputmode

/-- `adc_ch_muxpos` (`adc.c:288`). -/
def adcChMuxpos (muxpos : UInt8) : Routine Unit := setField onCh0Muxctrl ADC_CH_MUXPOS_gm muxpos

/-- `adc_ch_muxneg` (`adc.c:327`). -/
def adcChMuxneg (muxneg : UInt8) : Routine Unit := setField onCh0Muxctrl ADC_CH_MUXNEG_gm muxneg

/-- `adc_ch_intlvl` (`adc.c:348`). -/
def adcChIntlvl (intlvl : UInt8) : Routine Unit := setField onCh0Intctrl ADC_CH_INTLVL_gm intlvl

/-- `adc_calibrate` (`adc.c:94`). -/
def adcCalibrate (adcCal : UInt16) : Routine Unit :=
  assign fun r ↦ { r with adca.cal := adcCal }

/-- `adc_init` (`adc.c:33-87`). -/
def adcInit (bits12 : UInt8) : Routine Unit := do
  adcEnable false
  adcIntflags 0x0f
  assign fun r ↦ { r with adca.ctrlb := ADC_CONMODE_bm ||| ADC_FREERUN_bm }
  if bits12 ≠ 0 then
    assign fun r ↦ { r with adca.ctrlb := r.adca.ctrlb ||| ADC_RESOLUTION_12BIT_gc }
  else
    assign fun r ↦ { r with adca.ctrlb := r.adca.ctrlb ||| ADC_RESOLUTION_8BIT_gc }
  adcRefsel ADC_REFSEL_INT1V_gc
  adcBandgap true
  adcSweep ADC_SWEEP_0_gc
  adcEvsel ADC_EVSEL_0123_gc
  adcEvact ADC_EVACT_NONE_gc
  adcPrescaler ADC_PRESCALER_DIV4_gc
  adcChGain ADC_CH_GAIN_1X_gc
  adcChInputmode ADC_CH_INPUTMODE_DIFFWGAIN_gc
  adcChMuxpos ADC_CH_MUXPOS_PIN3_gc
  adcChMuxneg ADC_CH_MUXNEG_PIN5_gc
  assign fun r ↦ { r with porta.pin3ctrl := r.porta.pin3ctrl ||| PORT_ISC_INPUT_DISABLE_gc }
  assign fun r ↦ { r with porta.pin5ctrl := r.porta.pin5ctrl ||| PORT_ISC_INPUT_DISABLE_gc }
  adcChIntlvl ADC_CH_INTLVL_OFF_gc
  adcEnable true
  assign (onCtrla (· ||| ADC_CH0START_bm))

/-! ### `dmaadc.c` -/

/-- `dmaadc_init` (`dmaadc.c:10-36`). -/
def dmaadcInit (bits12 : UInt8) : Routine Unit := do
  assign fun r ↦ { r with dmaCtrl := 0 }
  assign Hw.resetDma
  -- `while((DMA.CTRL & DMA_RESET_bm) != 0);`
  wait fun r ↦ r.dmaCtrl &&& 0x40 == 0
  assign fun r ↦ { r with ch0.repcnt := 1 }
  assign fun r ↦ { r with dmaCtrl := DMA_ENABLE_bm }
  assign fun r ↦ { r with ch0.addrctrl := DMA_CH_SRCRELOAD_BURST_gc ||| DMA_CH_SRCDIR_INC_gc |||
    DMA_CH_DESTRELOAD_TRANSACTION_gc ||| DMA_CH_DESTDIR_INC_gc }
  assign fun r ↦ { r with ch0.trigsrc := DMA_CH_TRIGSRC_ADCA_CH0_gc }
  if bits12 ≠ 0 then
    assign fun r ↦ { r with ch0.ctrla := DMA_CH_BURSTLEN_2BYTE_gc ||| DMA_CH_SINGLE_bm }
  else
    assign fun r ↦ { r with ch0.ctrla := DMA_CH_BURSTLEN_1BYTE_gc ||| DMA_CH_SINGLE_bm }
  assign fun r ↦ { r with ch0.srcaddr0 := lo ADCA_CH0_RES }
  assign fun r ↦ { r with ch0.srcaddr1 := hi ADCA_CH0_RES }
  assign fun r ↦ { r with ch0.srcaddr2 := 0 }

/-- `while(!(DMA.CH0.CTRLA & DMA_CH_ENABLE_bm));` leaves the loop on this. -/
def ch0Enabled (r : Hw) : Bool := r.ch0.enabled

/-- What `dmaadc_read_buf_ch0` does after it has enabled the channel (`dmaadc.c:52-65`). -/
def dmaadcFinish : Routine Unit := do
  adcChIntlvl ADC_CH_INTLVL_LO_gc
  assign fun r ↦ { r with interrupts := false }
  wait ch0Enabled
  assign fun r ↦ { r with interrupts := true }
  adcChIntlvl ADC_CH_INTLVL_OFF_gc

/-- `dmaadc_read_buf_ch0(buf, length, bits12)` (`dmaadc.c:38-66`); its last argument is not
used. Writing zeros to `DMA.INTFLAGS` clears nothing. -/
def dmaadcReadBufCh0 (buf length : UInt16) : Routine Unit := do
  assign fun r ↦ { r with ch0.repcnt := 1 }
  assign fun r ↦ { r with ch0.trfcnt := length }
  assign fun r ↦ { r with ch0.ctrla := r.ch0.ctrla ||| DMA_CH_REPEAT_bm }
  assign fun r ↦ { r with ch0.destaddr0 := lo buf }
  assign fun r ↦ { r with ch0.destaddr1 := hi buf }
  assign fun r ↦ { r with ch0.destaddr2 := 0 }
  assign fun r ↦ { r with dmaIntflags := r.dmaIntflags &&& ~~~0 }
  assign Hw.enableCh0
  dmaadcFinish

/-! ### `trigger.c` -/

/-- `trigger_init` (`trigger.c:7-31`). It enables channel 1 without a trigger source. -/
def triggerInit (L : Layout) : Routine Unit := do
  assign fun r ↦ { r with porta.out := r.porta.out &&& ~~~TRIGGER_PIN }
  assign fun r ↦ { r with porta.pin2ctrl := PORT_OPC_PULLDOWN_gc ||| PORT_ISC_RISING_gc }
  assign fun r ↦ { r with porta.intctrl := 0 }
  assign fun r ↦ { r with tcd0.intctrla := 0 }
  assign fun r ↦ { r with evsysCh0mux := EVSYS_CHMUX_PORTA_PIN2_gc }
  assign fun r ↦ { r with ch2.trigsrc := 0 }
  assign fun r ↦ { r with ch1.repcnt := 1 }
  assign fun r ↦ { r with ch1.trfcnt := 1 }
  assign fun r ↦ { r with ch1.addrctrl := DMA_CH_SRCRELOAD_BURST_gc ||| DMA_CH_DESTRELOAD_BURST_gc }
  assign fun r ↦ { r with ch1.ctrla := DMA_CH_BURSTLEN_1BYTE_gc ||| DMA_CH_SINGLE_bm }
  assign fun r ↦ { r with ch1.srcaddr0 := lo L.clkSel }
  assign fun r ↦ { r with ch1.srcaddr1 := hi L.clkSel }
  assign fun r ↦ { r with ch1.srcaddr2 := 0 }
  assign fun r ↦ { r with ch1.destaddr0 := lo TCD0_CTRLA }
  assign fun r ↦ { r with ch1.destaddr1 := hi TCD0_CTRLA }
  assign fun r ↦ { r with ch1.destaddr2 := 0 }
  assign fun r ↦ { r with ch1.ctrla := r.ch1.ctrla ||| DMA_CH_ENABLE_bm }

/-- `TCD0.CTRLA = 0`. -/
def stopTcd0 : Routine Unit := assign fun r ↦ { r with tcd0.ctrla := 0 }.note .stopped

/-- `while(timeout>0 && !PORTA.INTFLAGS) timeout--;`, returning what is left of `timeout`. -/
def pollTrigger : Nat → Routine Nat
  | 0 => pure 0
  | timeout + 1 => do
    if ← read Hw.flagged then pure (timeout + 1) else pollTrigger timeout

/-- The loop assigns nothing. -/
theorem keeps_pollTrigger {I : Hw → Prop} (timeout : Nat) : (pollTrigger timeout).Keeps I := by
  induction timeout with
  | zero => trivial
  | succ timeout ih =>
    intro r
    change (if r.flagged then pure (timeout + 1) else pollTrigger timeout).Keeps _
    split
    · trivial
    · exact ih

/-- `trigger_wait` up to its first loop (`trigger.c:35-48`). -/
def triggerArm (delay : UInt16) : Routine Unit := do
  stopTcd0
  assign fun r ↦ { r with tcd0.cnt := 0 }
  assign fun r ↦ { r with tcd0.per := delay }
  assign (Hw.clearTcd0Flags 0xff)
  assign fun r ↦ { r with ch1.repcnt := 1 }
  assign fun r ↦ { r with ch1.trfcnt := 1 }
  assign fun r ↦ { r with dmaIntflags := r.dmaIntflags &&& ~~~0 }
  assign fun r ↦ { r with porta.int0mask := TRIGGER_PIN }
  assign fun r ↦ { r with log.clearedAt := r.log.edges }.clearPortFlags 0x3 |>.note .cleared
  assign fun r ↦ { r with ch1.trigsrc := DMA_CH_TRIGSRC_EVSYS_CH0_gc }
  assign fun r ↦
    { r with ch1.ctrla := r.ch1.ctrla ||| (DMA_CH_SINGLE_bm ||| DMA_CH_ENABLE_bm) }.note .rearmed

/-- `trigger_wait` after its first loop, with what is left of `timeout` (`trigger.c:53-64`).
The source clears the trigger source of channel 2, not of channel 1. -/
def triggerFinish (timeout : Nat) : Routine Bool := do
  assign fun r ↦ { r with ch2.trigsrc := 0 }
  if timeout = 0 then
    stopTcd0
    return true
  wait Hw.overflowed
  stopTcd0
  return false

/-- `trigger_wait` (`trigger.c:34-65`): `true` is its return value 1, a timeout. -/
def triggerWait (timeout : UInt32) (delay : UInt16) : Routine Bool := do
  triggerArm delay
  let left ← pollTrigger timeout.toNat
  triggerFinish left

/-! ### `hires_glitch.c` -/

/-- `hires_init` (`hires_glitch.c:7-29`). -/
def hiresInit : Routine Unit := do
  assign fun r ↦ { r with tcc2.ctrla := r.tcc2.ctrla ||| TC2_CLKSEL_OFF_gc }
  assign fun r ↦ { r with tcc2.ctrlb := 0xff }
  assign fun r ↦ { r with tcc2.ctrle := r.tcc2.ctrle ||| TC2_BYTEM_SPLITMODE_gc }
  assign fun r ↦ { r with tcc2.ctrlc := r.tcc2.ctrlc ||| 0x4 }

/-- `hires_stop_timer` (`hires_glitch.c:39`). -/
def hiresStopTimer : Routine Unit := assign fun r ↦ { r with tcc2.ctrla := TC2_CLKSEL_OFF_gc }

/-- `hires_glitch` (`hires_glitch.c:30-37`). -/
def hiresGlitch : Routine Unit := do
  assign (Hw.clearTcc2Flags 0)
  assign fun r ↦ r.clearTcc2Flags (r.tcc2.intflags ||| TC2_LCMPAIF_bm)
  assign fun r ↦ { r with tcc2.ctrla := TC2_CLKSEL_DIV1_gc }
  wait fun r ↦ r.tcc2.intflags &&& TC2_LCMPAIF_bm != 0
  hiresStopTimer

/-- `hires_set_counter` (`hires_glitch.c:43`). -/
def hiresSetCounter (counter : UInt8) : Routine Unit := do
  assign fun r ↦ { r with tcc2.lcnt := counter }
  assign fun r ↦ { r with tcc2.hcnt := counter }

/-- `hires_set_period` (`hires_glitch.c:47`). -/
def hiresSetPeriod (period : UInt8) : Routine Unit := do
  assign fun r ↦ { r with tcc2.hper := period }
  assign fun r ↦ { r with tcc2.lper := period }

/-- `hires_set_compare` (`hires_glitch.c:53`). -/
def hiresSetCompare (compare : UInt8) : Routine Unit := do
  assign fun r ↦ { r with tcc2.lcmpa := compare }
  assign fun r ↦ { r with tcc2.lcmpb := compare }
  assign fun r ↦ { r with tcc2.lcmpc := compare }
  assign fun r ↦ { r with tcc2.lcmpd := compare }
  assign fun r ↦ { r with tcc2.hcmpa := compare }
  assign fun r ↦ { r with tcc2.hcmpb := compare }
  assign fun r ↦ { r with tcc2.hcmpc := compare }
  assign fun r ↦ { r with tcc2.hcmpd := compare }

end HorrorScope.Firmware
