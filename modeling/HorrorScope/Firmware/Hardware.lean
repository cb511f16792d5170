import Mathlib.Logic.Function.Basic
import HorrorScope.Base.Prog

/-!
# XMEGA registers used by the scope firmware

The registers that `adc.c`, `dmaadc.c`, `trigger.c` and `hires_glitch.c` read and write, the
data memory that holds `scopeBuf`, and the four things the hardware does on its own: a
trigger edge, an overflow of `TCD0`, one byte moved by DMA channel 0 and a compare match of
`TCC2`. Flag registers are cleared by writing ones; bit masks are those of the part's header.

`Log` records which edge started the delay timer and how far a `trigger_wait` has got. It is
history only: no register and no statement depends on it.
-/

namespace HorrorScope.Firmware

open HorrorScope.Base

/-! ### Bit masks -/

def DMA_ENABLE_bm : UInt8 := 0x80
def DMA_CH_ENABLE_bm : UInt8 := 0x80
def DMA_CH_REPEAT_bm : UInt8 := 0x20
def DMA_CH_SINGLE_bm : UInt8 := 0x04
def DMA_CH_BURSTLEN_1BYTE_gc : UInt8 := 0x00
def DMA_CH_BURSTLEN_2BYTE_gc : UInt8 := 0x01
def DMA_CH_SRCRELOAD_BURST_gc : UInt8 := 0x80
def DMA_CH_SRCDIR_INC_gc : UInt8 := 0x10
def DMA_CH_DESTRELOAD_BURST_gc : UInt8 := 0x08
def DMA_CH_DESTRELOAD_TRANSACTION_gc : UInt8 := 0x0c
def DMA_CH_DESTDIR_INC_gc : UInt8 := 0x01
def DMA_CH_TRIGSRC_EVSYS_CH0_gc : UInt8 := 0x01
def DMA_CH_TRIGSRC_ADCA_CH0_gc : UInt8 := 0x10
def TC_CLKSEL_DIV4_gc : UInt8 := 0x03
def TC0_OVFIF_bm : UInt8 := 0x01
def TC2_CLKSEL_OFF_gc : UInt8 := 0x00
def TC2_CLKSEL_DIV1_gc : UInt8 := 0x01
def TC2_BYTEM_SPLITMODE_gc : UInt8 := 0x02
def TC2_LCMPAIF_bm : UInt8 := 0x10
def PORT_OPC_PULLDOWN_gc : UInt8 := 0x10
def PORT_ISC_RISING_gc : UInt8 := 0x01
def PORT_ISC_INPUT_DISABLE_gc : UInt8 := 0x07
def PORT_INT0IF_bm : UInt8 := 0x01
def EVSYS_CHMUX_PORTA_PIN2_gc : UInt8 := 0x52

/-- `#define TRIGGER_PIN PIN2_bm` (`trigger.c:3`). -/
def TRIGGER_PIN : UInt8 := 0x04

/-- Addresses the DMA channels are pointed at: `&ADCA.CH0.RES` (also `RESL`), `&TCD0_CTRLA`. -/
def ADCA_CH0_RES : UInt16 := 0x0224

/-- The address of `TCD0.CTRLA`. -/
def TCD0_CTRLA : UInt16 := 0x0900

/-! ### Peripherals -/

/-- One channel of the DMA controller. -/
structure DmaChannel where
  ctrla : UInt8 := 0
  addrctrl : UInt8 := 0
  trigsrc : UInt8 := 0
  trfcnt : UInt16 := 0
  repcnt : UInt8 := 0
  srcaddr0 : UInt8 := 0
  srcaddr1 : UInt8 := 0
  srcaddr2 : UInt8 := 0
  destaddr0 : UInt8 := 0
  destaddr1 : UInt8 := 0
  destaddr2 : UInt8 := 0
  deriving DecidableEq, Repr

/-- `DMA_CH_ENABLE_bm` of the channel's `CTRLA`. -/
def DmaChannel.enabled (c : DmaChannel) : Bool := c.ctrla &&& DMA_CH_ENABLE_bm != 0

/-- The 24-bit destination address. -/
def DmaChannel.dest (c : DmaChannel) : Nat :=
  c.destaddr0.toNat + 256 * c.destaddr1.toNat + 65536 * c.destaddr2.toNat

/-- Bytes in one block transfer: `TRFCNT`, where zero stands for 64 KB. -/
def DmaChannel.blockSize (c : DmaChannel) : Nat :=
  if c.trfcnt = 0 then 65536 else c.trfcnt.toNat

/-- A block transfer: where it goes, how long it is and the bytes it has moved so far. -/
structure Transfer where
  dest : Nat
  size : Nat
  bytes : List UInt8
  deriving DecidableEq, Repr

/-- The converter `ADCA` with its channel 0. -/
structure Adc where
  ctrla : UInt8 := 0
  ctrlb : UInt8 := 0
  refctrl : UInt8 := 0
  evctrl : UInt8 := 0
  prescaler : UInt8 := 0
  intflags : UInt8 := 0
  cal : UInt16 := 0
  ch0Ctrl : UInt8 := 0
  ch0Muxctrl : UInt8 := 0
  ch0Intctrl : UInt8 := 0
  deriving DecidableEq, Repr

/-- `PORTA`, the port of the trigger pin and the converter's inputs. -/
structure PortA where
  out : UInt8 := 0
  pin2ctrl : UInt8 := 0
  pin3ctrl : UInt8 := 0
  pin5ctrl : UInt8 := 0
  intctrl : UInt8 := 0
  int0mask : UInt8 := 0
  intflags : UInt8 := 0
  deriving DecidableEq, Repr

/-- `TCD0`, the timer that counts the delay after a trigger. -/
structure Tcd0 where
  ctrla : UInt8 := 0
  cnt : UInt16 := 0
  per : UInt16 := 0
  intctrla : UInt8 := 0
  intflags : UInt8 := 0
  deriving DecidableEq, Repr

/-- `TCC2`, the split timer that shapes the glitch pulse. -/
structure Tcc2 where
  ctrla : UInt8 := 0
  ctrlb : UInt8 := 0
  ctrlc : UInt8 := 0
  ctrle : UInt8 := 0
  intflags : UInt8 := 0
  lcnt : UInt8 := 0
  hcnt : UInt8 := 0
  lper : UInt8 := 0
  hper : UInt8 := 0
  lcmpa : UInt8 := 0
  lcmpb : UInt8 := 0
  lcmpc : UInt8 := 0
  lcmpd : UInt8 := 0
  hcmpa : UInt8 := 0
  hcmpb : UInt8 := 0
  hcmpc : UInt8 := 0
  hcmpd : UInt8 := 0
  deriving DecidableEq, Repr

/-- How far the latest `trigger_wait` has got. -/
inductive Phase where
  /-- `TCD0.CTRLA = 0` was the last of the three writes below. -/
  | stopped
  /-- `PORTA.INTFLAGS = 0x3` was. -/
  | cleared
  /-- The write of `DMA.CH1.CTRLA` that arms the channel was. -/
  | rearmed
  deriving DecidableEq, Repr

/-- History of the trigger: edges are numbered from 0 in the order they occur. -/
structure Log where
  /-- Edges so far. -/
  edges : Nat := 0
  /-- Edges before the latest write of `PORTA.INTFLAGS`. -/
  clearedAt : Nat := 0
  /-- The edge that started the latest run of `TCD0`. -/
  startedBy : Nat := 0
  /-- The edge that started the run of `TCD0` that set the overflow flag. -/
  overflowedBy : Nat := 0
  phase : Phase := .stopped
  deriving DecidableEq, Repr

/-- The state the processor shares with the hardware. -/
structure Hw where
  dmaCtrl : UInt8 := 0
  dmaIntflags : UInt8 := 0
  ch0 : DmaChannel := {}
  ch1 : DmaChannel := {}
  ch2 : DmaChannel := {}
  /-- The block transfer channel 0 was last enabled for. -/
  xfer : Option Transfer := none
  adca : Adc := {}
  porta : PortA := {}
  portcDir : UInt8 := 0
  portcOut : UInt8 := 0
  tcd0 : Tcd0 := {}
  tcc2 : Tcc2 := {}
  evsysCh0mux : UInt8 := 0
  /-- The global interrupt flag, `cli` and `sei`. -/
  interrupts : Bool := true
  mem : Nat → UInt8 := fun _ ↦ 0
  log : Log := {}

namespace Hw

/-! ### Register writes with an effect of their own -/

/-- `DMA.CTRL = DMA_RESET_bm`: every channel goes back to its reset state and the bit clears
itself. -/
def resetDma (r : Hw) : Hw :=
  { r with dmaCtrl := 0, dmaIntflags := 0, ch0 := {}, ch1 := {}, ch2 := {}, xfer := none }

/-- `DMA.CH0.CTRLA |= DMA_CH_ENABLE_bm`: a block transfer as described by the channel's
registers starts. -/
def enableCh0 (r : Hw) : Hw :=
  { r with
    ch0 := { r.ch0 with ctrla := r.ch0.ctrla ||| DMA_CH_ENABLE_bm }
    xfer := some ⟨r.ch0.dest, r.ch0.blockSize, []⟩ }

/-- `PORTA.INTFLAGS = v`: two flags, cleared by writing ones. -/
def clearPortFlags (v : UInt8) (r : Hw) : Hw :=
  { r with porta := { r.porta with intflags := r.porta.intflags &&& ~~~v &&& 0x3 } }

/-- `TCD0.INTFLAGS = v`. -/
def clearTcd0Flags (v : UInt8) (r : Hw) : Hw :=
  { r with tcd0 := { r.tcd0 with intflags := r.tcd0.intflags &&& ~~~v } }

/-- `TCC2.INTFLAGS = v`. -/
def clearTcc2Flags (v : UInt8) (r : Hw) : Hw :=
  { r with tcc2 := { r.tcc2 with intflags := r.tcc2.intflags &&& ~~~v } }

/-- Enter a phase of `trigger_wait` in the history. -/
def note (p : Phase) (r : Hw) : Hw := { r with log := { r.log with phase := p } }

/-! ### What the registers say -/

/-- `TCD0` has a clock. -/
def timerOn (r : Hw) : Bool := r.tcd0.ctrla != 0

/-- `TCD0.INTFLAGS & TC0_OVFIF_bm`. -/
def overflowed (r : Hw) : Bool := r.tcd0.intflags &&& TC0_OVFIF_bm != 0

/-- `PORTA.INTFLAGS` is not zero. -/
def flagged (r : Hw) : Bool := r.porta.intflags != 0

/-- Channel 1 is enabled and triggered by the event channel of the trigger pin. -/
def armed (r : Hw) : Bool := r.ch1.enabled && r.ch1.trigsrc == DMA_CH_TRIGSRC_EVSYS_CH0_gc

/-! ### What the hardware does -/

/-- Channel 1 moves `clkSel` to `TCD0.CTRLA` and disables itself. A timer that already runs
goes on with the run it is in. -/
def startTimer (r : Hw) : Hw :=
  { r with
    ch1 := { r.ch1 with ctrla := r.ch1.ctrla &&& ~~~DMA_CH_ENABLE_bm }
    tcd0 := { r.tcd0 with ctrla := TC_CLKSEL_DIV4_gc }
    log := { r.log with startedBy := if r.timerOn then r.log.startedBy else r.log.edges } }

/-- The port's own flag for an edge on the selected pin. -/
def raisePortFlag (r : Hw) : Hw :=
  if r.porta.int0mask &&& TRIGGER_PIN != 0 then
    { r with porta := { r.porta with intflags := r.porta.intflags ||| PORT_INT0IF_bm } }
  else r

/-- A rising edge on the trigger pin. -/
def edge (r : Hw) : Hw :=
  let r' := if r.armed then r.startTimer else r
  { r'.raisePortFlag with log := { r'.log with edges := r'.log.edges + 1 } }

/-- `TCD0` reaches its period. The flag names the run of the overflow that set it. -/
def overflow (r : Hw) : Hw :=
  if r.timerOn then
    { r with
      tcd0 := { r.tcd0 with intflags := r.tcd0.intflags ||| TC0_OVFIF_bm }
      log := { r.log with
        overflowedBy := if r.overflowed then r.log.overflowedBy else r.log.startedBy } }
  else r

/-- Channel 0 moves one byte to the next address; after the last one it disables itself. -/
def moveByte (b : UInt8) (r : Hw) : Hw :=
  match r.xfer with
  | none => r
  | some x =>
    if r.ch0.enabled && x.bytes.length < x.size then
      { r with
        mem := Function.update r.mem (x.dest + x.bytes.length) b
        xfer := some { x with bytes := x.bytes ++ [b] }
        ch0 := { r.ch0 with
          ctrla := if x.bytes.length + 1 = x.size then r.ch0.ctrla &&& ~~~DMA_CH_ENABLE_bm
            else r.ch0.ctrla } }
    else r

/-- The low byte of `TCC2` reaches its compare value. -/
def compareMatch (r : Hw) : Hw :=
  if r.tcc2.ctrla != 0 then
    { r with tcc2 := { r.tcc2 with intflags := r.tcc2.intflags ||| TC2_LCMPAIF_bm } }
  else r

end Hw

/-- The hardware's own actions. -/
inductive HwEvent where
  | edge
  | overflow
  | dmaByte (b : UInt8)
  | compareMatch
  deriving DecidableEq, Repr

/-- The effect of a hardware action. -/
def HwEvent.act : HwEvent → Hw → Hw
  | edge, r => r.edge
  | overflow, r => r.overflow
  | dmaByte b, r => r.moveByte b
  | compareMatch, r => r.compareMatch

/-! ### What the hardware leaves alone -/

/-- The registers that only the processor writes. -/
structure Settings where
  adca : Adc
  per : UInt16
  /-- `TCC2` without its flags. -/
  tcc2 : Tcc2

namespace Hw

/-- The registers that only the processor writes. -/
def settings (r : Hw) : Settings := ⟨r.adca, r.tcd0.per, { r.tcc2 with intflags := 0 }⟩

private theorem settings_edge (r : Hw) : r.edge.settings = r.settings := by
  have hflag : ∀ r : Hw, r.raisePortFlag.settings = r.settings := by
    intro r
    unfold raisePortFlag
    split <;> rfl
  change (if r.armed then r.startTimer else r).raisePortFlag.settings = r.settings
  rw [hflag]
  split <;> rfl

/-- The hardware does not write them. -/
theorem settings_act (r : Hw) (e : HwEvent) : (e.act r).settings = r.settings := by
  cases e with
  | edge => exact settings_edge r
  | dmaByte b =>
    change (r.moveByte b).settings = r.settings
    unfold moveByte
    split
    · rfl
    · split <;> rfl
  | overflow =>
    change r.overflow.settings = r.settings
    unfold overflow
    split <;> rfl
  | compareMatch =>
    change r.compareMatch.settings = r.settings
    unfold compareMatch
    split <;> rfl

end Hw

end HorrorScope.Firmware
