import HorrorScope.Base.Bits
import HorrorScope.Firmware.Contract

/-!
# The trigger handshake, abstractly

What `trigger_wait` and the hardware agree on comes down to six bits: whether DMA channel 1 is
enabled and has its trigger source, whether the port selects the pin and has flagged an edge,
whether the delay timer runs and whether it has overflowed. `Handshake` is that state with the
history of edges, `Handshake.edge` and `Handshake.overflow` what the hardware does to it. The
registers refine it: `handshake_act` for the hardware's actions, the `handshake_*` lemmas for
the statements of `trigger_wait`.
-/

namespace HorrorScope.Firmware

open HorrorScope.Base Prog

/-- The trigger path in six bits and its history. -/
structure Handshake where
  /-- `DMA.CH1.CTRLA & DMA_CH_ENABLE_bm`. -/
  enabled : Bool
  /-- `DMA.CH1.TRIGSRC` is the event channel of the trigger pin. -/
  sourced : Bool
  /-- `PORTA.INT0MASK` selects the trigger pin. -/
  selected : Bool
  flagged : Bool
  timerOn : Bool
  overflowed : Bool
  log : Log
  deriving DecidableEq, Repr

namespace Handshake

/-- An edge would start the timer. -/
def armed (h : Handshake) : Bool := h.enabled && h.sourced

/-- A trigger edge. -/
def edge (h : Handshake) : Handshake :=
  { h with
    enabled := h.enabled && !h.armed
    flagged := h.flagged || h.selected
    timerOn := h.timerOn || h.armed
    log := { h.log with
      edges := h.log.edges + 1
      startedBy := if h.armed && !h.timerOn then h.log.edges else h.log.startedBy } }

/-- The timer reaches its period, if it runs. -/
def overflow (h : Handshake) : Handshake :=
  { h with
    overflowed := h.overflowed || h.timerOn
    log := { h.log with
      overflowedBy := if h.timerOn && !h.overflowed then h.log.startedBy
        else h.log.overflowedBy } }

/-! The statements of `trigger_wait` that touch it. -/

/-- `TCD0.CTRLA = 0`. -/
def stop (h : Handshake) : Handshake := { h with timerOn := false, log.phase := .stopped }

/-- `TCD0.INTFLAGS = 0xff`. -/
def clearOverflow (h : Handshake) : Handshake := { h with overflowed := false }

/-- `PORTA.INT0MASK = TRIGGER_PIN`. -/
def select (h : Handshake) : Handshake := { h with selected := true }

/-- `PORTA.INTFLAGS = 0x3`. -/
def clearFlag (h : Handshake) : Handshake :=
  { h with flagged := false, log := { h.log with clearedAt := h.log.edges, phase := .cleared } }

/-- `DMA.CH1.TRIGSRC = DMA_CH_TRIGSRC_EVSYS_CH0_gc`. -/
def source (h : Handshake) : Handshake := { h with sourced := true }

/-- `DMA.CH1.CTRLA |= DMA_CH_SINGLE_bm|DMA_CH_ENABLE_bm`. -/
def enable (h : Handshake) : Handshake := { h with enabled := true, log.phase := .rearmed }

private theorem edge_of_armed {h : Handshake} (ha : h.armed = true) : h.edge =
    { h with
      enabled := false
      flagged := h.flagged || h.selected
      timerOn := true
      log := { h.log with
        edges := h.log.edges + 1
        startedBy := if h.timerOn then h.log.startedBy else h.log.edges } } := by
  unfold edge
  rw [ha]
  cases h.timerOn <;> simp

private theorem edge_of_not_armed {h : Handshake} (ha : ¬h.armed = true) : h.edge =
    { h with
      flagged := h.flagged || h.selected
      log := { h.log with edges := h.log.edges + 1 } } := by
  unfold edge
  rw [Bool.not_eq_true] at ha
  simp [ha]

private theorem overflow_of_timerOn {h : Handshake} (ht : h.timerOn = true) : h.overflow =
    { h with
      overflowed := true
      log := { h.log with
        overflowedBy := if h.overflowed then h.log.overflowedBy else h.log.startedBy } } := by
  unfold overflow
  rw [ht]
  cases h.overflowed <;> simp

private theorem overflow_of_not_timerOn {h : Handshake} (ht : ¬h.timerOn = true) :
    h.overflow = h := by
  obtain ⟨enabled, sourced, selected, flagged, timerOn, overflowed, log⟩ := h
  cases timerOn with
  | true => exact absurd rfl ht
  | false => simp [overflow]

end Handshake

namespace Hw

/-- The handshake state the registers stand for. -/
def handshake (r : Hw) : Handshake where
  enabled := r.ch1.enabled
  sourced := r.ch1.trigsrc == DMA_CH_TRIGSRC_EVSYS_CH0_gc
  selected := r.porta.int0mask &&& TRIGGER_PIN != 0
  flagged := r.flagged
  timerOn := r.timerOn
  overflowed := r.overflowed
  log := r.log

/-! ### The hardware's actions -/

private theorem or_ne_zero (x : UInt8) : (x ||| PORT_INT0IF_bm != 0) = true := by
  rw [bne_iff_ne]
  intro h
  have := or_and_mask x PORT_INT0IF_bm
  rw [h] at this
  exact absurd this (by decide)

private theorem or_ovfif (x : UInt8) : ((x ||| TC0_OVFIF_bm) &&& TC0_OVFIF_bm != 0) = true := by
  rw [or_and_mask]
  decide

private theorem handshake_startTimer (r : Hw) : r.startTimer.handshake =
    { r.handshake with
      enabled := false
      timerOn := true
      log := { r.log with
        startedBy := if r.timerOn then r.log.startedBy else r.log.edges } } := by
  simp only [startTimer, handshake, DmaChannel.enabled, and_not_and_mask, flagged, overflowed,
    timerOn, Handshake.mk.injEq, true_and, and_true]
  constructor <;> decide

private theorem handshake_raisePortFlag (r : Hw) : r.raisePortFlag.handshake =
    { r.handshake with flagged := r.handshake.flagged || r.handshake.selected } := by
  unfold raisePortFlag
  by_cases h : (r.porta.int0mask &&& TRIGGER_PIN != 0) = true
  · rw [if_pos h]
    simp only [handshake, flagged, h, Bool.or_true, or_ne_zero]
    rfl
  · rw [if_neg h]
    simp only [handshake, h, Bool.or_false]

private theorem handshake_edge (r : Hw) : r.edge.handshake = r.handshake.edge := by
  change { (if r.armed then r.startTimer else r).raisePortFlag.handshake with
    log := { (if r.armed then r.startTimer else r).log with
      edges := (if r.armed then r.startTimer else r).log.edges + 1 } } = r.handshake.edge
  rw [handshake_raisePortFlag]
  by_cases h : r.armed = true
  · rw [if_pos h, handshake_startTimer,
      Handshake.edge_of_armed (show r.handshake.armed = true from h)]
    rfl
  · rw [if_neg h, Handshake.edge_of_not_armed (show ¬r.handshake.armed = true from h)]
    rfl

private theorem handshake_overflow (r : Hw) : r.overflow.handshake = r.handshake.overflow := by
  unfold overflow
  by_cases h : r.timerOn = true
  · rw [if_pos h, Handshake.overflow_of_timerOn (show r.handshake.timerOn = true from h)]
    simp only [handshake, overflowed, or_ovfif]
    rfl
  · rw [if_neg h, Handshake.overflow_of_not_timerOn (show ¬r.handshake.timerOn = true from h)]

private theorem handshake_moveByte (r : Hw) (b : UInt8) :
    (r.moveByte b).handshake = r.handshake := by
  unfold moveByte
  split
  · rfl
  · split <;> rfl

private theorem handshake_compareMatch (r : Hw) : r.compareMatch.handshake = r.handshake := by
  unfold compareMatch
  split <;> rfl

/-- The hardware's actions refine those of the handshake; the other two do not touch it. -/
theorem handshake_act (r : Hw) (e : HwEvent) : (e.act r).handshake =
    match e with
    | .edge => r.handshake.edge
    | .overflow => r.handshake.overflow
    | _ => r.handshake := by
  cases e with
  | edge => exact handshake_edge r
  | overflow => exact handshake_overflow r
  | dmaByte b => exact handshake_moveByte r b
  | compareMatch => exact handshake_compareMatch r

/-! ### The statements of `trigger_wait` -/

/-- `TCD0.CTRLA = 0` on the registers. -/
theorem handshake_stop (r : Hw) :
    ({ r with tcd0.ctrla := 0 }.note .stopped).handshake = r.handshake.stop := rfl

/-- `TCD0.INTFLAGS = 0xff` on the registers. -/
theorem handshake_clearOverflow (r : Hw) :
    (r.clearTcd0Flags 0xff).handshake = r.handshake.clearOverflow := by
  have h : r.tcd0.intflags &&& ~~~0xff &&& TC0_OVFIF_bm = 0 := by
    rw [show (~~~0xff : UInt8) = 0 from rfl, UInt8.and_zero, UInt8.zero_and]
  simp only [handshake, clearTcd0Flags, overflowed, h]
  rfl

/-- `PORTA.INT0MASK = TRIGGER_PIN` on the registers. -/
theorem handshake_select (r : Hw) :
    { r with porta.int0mask := TRIGGER_PIN }.handshake = r.handshake.select := by
  simp only [handshake, show (TRIGGER_PIN &&& TRIGGER_PIN != 0) = true by decide]
  rfl

/-- `PORTA.INTFLAGS = 0x3` on the registers. -/
theorem handshake_clearFlag (r : Hw) :
    (({ r with log.clearedAt := r.log.edges }.clearPortFlags 0x3).note .cleared).handshake =
      r.handshake.clearFlag := by
  simp only [handshake, clearPortFlags, note, flagged, and_not_and_mask]
  rfl

/-- `DMA.CH1.TRIGSRC = DMA_CH_TRIGSRC_EVSYS_CH0_gc` on the registers. -/
theorem handshake_source (r : Hw) :
    { r with ch1.trigsrc := DMA_CH_TRIGSRC_EVSYS_CH0_gc }.handshake = r.handshake.source := by
  simp only [handshake, beq_self_eq_true]
  rfl

/-- `DMA.CH1.CTRLA |= DMA_CH_SINGLE_bm|DMA_CH_ENABLE_bm` on the registers. -/
theorem handshake_enable (r : Hw) :
    ({ r with ch1.ctrla := r.ch1.ctrla ||| (DMA_CH_SINGLE_bm ||| DMA_CH_ENABLE_bm) }.note
      .rearmed).handshake = r.handshake.enable := by
  simp only [handshake, note, DmaChannel.enabled, ← UInt8.or_assoc, or_and_mask]
  rfl

end Hw

end HorrorScope.Firmware
