import HorrorScope.Firmware.Sampling

/-!
# Bounds of the sample buffer

`n` (`HorrorScope.c:111-122`) checks its operand against `sizeof(scopeBuf)`, `d` hands it to the
16-bit block counter of DMA channel 0 and `s` reads that many bytes. The check lets zero
through, and the counter takes zero for 64 KB. With that one value kept away from `d`, every
capture and every fetch stays inside the buffer.
-/

namespace HorrorScope.Firmware

open HorrorScope.Base Prog

/-- The address lies in `scopeBuf`. -/
def Layout.InScopeBuf (L : Layout) (a : Nat) : Prop :=
  L.scopeBuf.toNat ≤ a ∧ a < L.scopeBuf.toNat + scopeBufSize

/-! ### Arguments and variables -/

/-- The lengths and indices `main` passes on; a capture has at least `least` bytes. -/
def BoundedCall (least : Nat) : Call → Prop
  | .dmaadcReadBufCh0 length => least ≤ length.toNat ∧ length.toNat ≤ scopeBufSize
  | .load i => i < scopeBufSize
  | _ => True

/-- What the check in `n` establishes. -/
def BoundedVars (v : Vars) : Prop := v.numberOfSamples.toNat ≤ scopeBufSize

section Calls

variable {P : Call → Prop} {Q : Vars → Prop} {g : Unit → Fw Vars}

private theorem all_putBuf (hP : ∀ i < scopeBufSize, P (.load i)) (hg : (g ()).All P Q)
    (i n : Nat) (h : i + n ≤ scopeBufSize) : (putBuf i n >>= g).All P Q := by
  induction n generalizing i with
  | zero => exact hg
  | succ n ih => exact ⟨hP i (by omega), fun _ ↦ ih (i + 1) (by omega)⟩

private theorem all_putStringP (hg : (g ()).All P Q) (s : List UInt8) :
    (putStringP s >>= g).All P Q := by
  induction s with
  | nil => exact hg
  | cons c s ih => exact ih

private theorem all_glitchPulses (hP : ∀ c, P (.hiresSetCounter c)) (hP' : P .hiresGlitch)
    (hg : (g ()).All P Q) (n : Nat) : (glitchPulses n >>= g).All P Q := by
  induction n with
  | zero => exact hg
  | succ n ih => exact ⟨hP _, fun _ ↦ ⟨hP', fun _ ↦ ih⟩⟩

end Calls

private theorem all_run {least : Nat} {v : Vars} (hv : BoundedVars v) (c : Command)
    (harm : c = .arm → least ≤ v.numberOfSamples.toNat) :
    (c.run v).All (BoundedCall least) BoundedVars := by
  cases c with
  | arm => exact ⟨trivial, fun _ ↦ ⟨trivial, fun _ ↦ ⟨⟨harm rfl, hv⟩, fun _ ↦ hv⟩⟩⟩
  | sampleFetch =>
    refine all_putBuf (fun _ h ↦ h) ?_ 0 _ ?_
    · exact hv
    · rw [Nat.zero_add]
      exact hv
  | setNumberOfSamples =>
    intro high low
    change Proc.All _ _ (if _ then _ else _)
    -- the check against `sizeof(scopeBuf)`
    split
    · refine all_putStringP ?_ _
      exact hv
    · next h => exact Nat.le_of_not_gt h
  | glitch =>
    refine ⟨trivial, fun _ ↦ ⟨trivial, fun _ ↦ ⟨trivial, fun timedOut ↦ ?_⟩⟩⟩
    refine all_glitchPulses (fun _ ↦ trivial) trivial ?_ _
    exact hv
  | test => exact hv
  | setGain => exact fun _ ↦ ⟨trivial, fun _ ↦ hv⟩
  | setClockDivider => exact fun _ ↦ ⟨trivial, fun _ ↦ hv⟩
  | setBias => exact fun _ _ ↦ ⟨trivial, fun _ ↦ hv⟩
  | fault => exact ⟨trivial, fun _ ↦ hv⟩
  | setBits12 => exact fun _ ↦ ⟨trivial, fun _ ↦ ⟨trivial, fun _ ↦ hv⟩⟩
  | setDelay => exact fun _ _ ↦ hv
  | setGlitchLength => exact fun _ _ ↦ hv
  | setTimeout => exact fun _ _ ↦ hv
  | setPulses => exact fun _ ↦ hv
  | turnOff => exact ⟨trivial, fun _ ↦ hv⟩
  | turnOn => exact ⟨trivial, fun _ ↦ hv⟩

private theorem all_dispatch {least : Nat} {v : Vars} (hv : BoundedVars v) (b : UInt8)
    (harm : Command.ofByte b = some .arm → least ≤ v.numberOfSamples.toNat) :
    (dispatch v b).All (BoundedCall least) BoundedVars := by
  unfold dispatch
  cases h : Command.ofByte b with
  | some c => exact all_run hv c fun hc ↦ harm (by rw [h, hc])
  | none =>
    refine all_putStringP ?_ _
    refine all_putStringP ?_ _
    exact hv

private theorem all_init {least : Nat} : init.All (BoundedCall least) BoundedVars :=
  ⟨trivial, fun _ ↦ ⟨trivial, fun _ ↦ ⟨trivial, fun _ ↦ ⟨trivial, fun _ ↦ ⟨trivial, fun _ ↦
    ⟨trivial, fun _ ↦ ⟨trivial, fun _ ↦ Nat.le_refl scopeBufSize⟩⟩⟩⟩⟩⟩⟩

/-! ### Registers -/

/-- The block transfer of channel 0, if there is one, lies in `scopeBuf`. -/
def TransferInBounds (L : Layout) (r : Hw) : Prop :=
  ∀ x, r.xfer = some x →
    L.scopeBuf.toNat ≤ x.dest ∧ x.dest + x.size ≤ L.scopeBuf.toNat + scopeBufSize

variable (L : Layout)

private theorem stable_inBounds : Stable AnyAction (TransferInBounds L) := by
  rintro r _ hr ⟨e, rfl⟩ x' hx'
  change (e.act r).sampling.xfer = some x' at hx'
  rw [Hw.sampling_act] at hx'
  cases e with
  | dmaByte b =>
    obtain ⟨x, hx, hd, hs⟩ := r.sampling.moveByte_xfer b hx'
    rw [hd, hs]
    exact hr x hx
  | edge => exact hr x' hx'
  | overflow => exact hr x' hx'
  | compareMatch => exact hr x' hx'

private theorem inBounds_enableCh0 {length : UInt16} (hl : 0 < length.toNat)
    (hu : length.toNat ≤ scopeBufSize) {r : Hw} (h : r.ch0.AimedAt L.scopeBuf length) :
    TransferInBounds L r.enableCh0 := by
  intro x hx
  have hx : some ⟨r.ch0.dest, r.ch0.blockSize, []⟩ = some x := hx
  cases hx
  dsimp only
  rw [h.dest_eq, h.blockSize_eq hl]
  omega

private theorem keeps_dmaadcFinish : dmaadcFinish.Keeps (TransferInBounds L) := by
  repeat' first | exact trivial | refine ⟨fun _ h ↦ h, ?_⟩

private theorem keeps_dmaadcInit (bits12 : UInt8) :
    (dmaadcInit bits12).Keeps (TransferInBounds L) := by
  -- the reset of the controller drops the transfer
  refine ⟨fun _ h ↦ h, fun _ _ x hx ↦ absurd hx (by simp [Hw.resetDma]), ?_⟩
  repeat' first | exact trivial | refine ⟨fun _ h ↦ h, ?_⟩ | split

private theorem keeps_adcInit (bits12 : UInt8) : (adcInit bits12).Keeps (TransferInBounds L) := by
  repeat' first | exact trivial | refine ⟨fun _ h ↦ h, ?_⟩ | split

private theorem keeps_triggerFinish (left : Nat) :
    (triggerFinish left).Keeps (TransferInBounds L) := by
  repeat' first | exact trivial | refine ⟨fun _ h ↦ h, ?_⟩ | split

private theorem keeps_triggerWait (timeout : UInt32) (delay : UInt16) :
    (triggerWait timeout delay).Keeps (TransferInBounds L) := by
  refine keeps_bind ?_ fun _ ↦ keeps_bind (keeps_pollTrigger _) fun left ↦
    keeps_triggerFinish L left
  repeat' first | exact trivial | refine ⟨fun _ h ↦ h, ?_⟩

private theorem keeps_body (c : Call) (hc : ∀ length, c ≠ .dmaadcReadBufCh0 length) :
    (c.body L).Keeps (TransferInBounds L) := by
  cases c with
  | dmaadcReadBufCh0 length => exact absurd rfl (hc length)
  | triggerWait timeout delay => exact keeps_triggerWait L timeout delay
  | dmaadcInit bits12 => exact keeps_dmaadcInit L bits12
  | adcInit bits12 => exact keeps_adcInit L bits12
  | load i => exact fun _ ↦ trivial
  | _ => repeat' first | exact trivial | refine ⟨fun _ h ↦ h, ?_⟩

private theorem capture_safe {length : UInt16} (hl : 0 < length.toNat)
    (hu : length.toNat ≤ scopeBufSize) {r : Hw} (hr : TransferInBounds L r) :
    Safe AnyAction (TransferInBounds L) (fun _ _ ↦ True) (fun _ _ ↦ True)
      (dmaadcReadBufCh0 L.scopeBuf length) r := by
  refine dmaadcReadBufCh0_safe (stable_inBounds L) ?_ (fun r _ hc ↦ ?_) hr
  · intro r r' hx hr x hx'
    exact hr x (hx.symm.trans hx')
  · exact ((keeps_dmaadcFinish L).safe (stable_inBounds L) (inBounds_enableCh0 L hl hu hc)).mono
      (fun _ h ↦ h) (fun _ _ _ ↦ trivial) (fun _ _ _ ↦ trivial)

/-! ### Runs -/

/-- Bounded arguments, whatever the hardware does. -/
def argumentsContract : Contract where
  rely := AnyAction
  inv _ := True
  pre := BoundedCall 0
  vars := BoundedVars

private theorem argumentsContract_run (evs : List Event) :
    argumentsContract.Holds (run (Machine.step L) .boot evs) := by
  have hmet : argumentsContract.Met L :=
    { stable := fun _ _ _ _ ↦ trivial
      body := fun _ _ _ _ ↦ safe_true _ _ }
  have hstep : ∀ m ev, argumentsContract.Holds m → argumentsContract.Holds (m.step L ev) := by
    intro m ev h
    refine hmet.step m ev h ?_
    cases ev with
    | cpu => trivial
    | byte b => exact fun v _ hv ↦ all_dispatch hv b fun _ ↦ Nat.zero_le _
    | hw e => exact ⟨e, rfl⟩
  exact invariant_run hstep ⟨trivial, all_init⟩ evs

/-- `numberOfSamples` never exceeds the buffer, in any run. -/
theorem numberOfSamples_le (evs : List Event) {v : Vars}
    (h : (run (Machine.step L) .boot evs).ctl = .idle v) :
    v.numberOfSamples.toNat ≤ scopeBufSize :=
  (argumentsContract_run L evs).of_idle h

/-- `s` never reads outside the buffer, in any run. -/
theorem load_inScopeBuf (evs : List Event) {i : Nat} {body : Routine UInt8}
    {k : UInt8 → Fw Vars} (h : (run (Machine.step L) .boot evs).ctl = .inCall (.load i) body k) :
    L.InScopeBuf (L.scopeBuf.toNat + i) := by
  have hi : i < scopeBufSize := ((argumentsContract_run L evs).of_inCall h).1
  constructor <;> omega

/-- Captures of at least one byte stay in the buffer. -/
def captureContract : Contract where
  rely := AnyAction
  inv := TransferInBounds L
  pre := BoundedCall 1
  vars := BoundedVars

private theorem captureContract_met : (captureContract L).Met L where
  stable := stable_inBounds L
  body c hc r hr := by
    by_cases h : ∃ length, c = .dmaadcReadBufCh0 length
    · obtain ⟨length, rfl⟩ := h
      exact capture_safe L hc.1 hc.2 hr
    · exact ((keeps_body L c fun length hl ↦ h ⟨length, hl⟩).safe (stable_inBounds L) hr).mono
        (fun _ h ↦ h) (fun _ _ _ ↦ trivial) (fun _ _ _ ↦ trivial)

/-- `d` is received only with a non-zero `numberOfSamples`. -/
def ArmsNonzero (m : Machine) (ev : Event) : Prop :=
  (match m.ctl, ev with
  | .idle v, .byte b => Command.ofByte b != some .arm || v.numberOfSamples != 0
  | _, _ => true) = true

/-- Whether an arming asks for samples can be computed. -/
instance (m : Machine) (ev : Event) : Decidable (ArmsNonzero m ev) :=
  inferInstanceAs (Decidable (_ = true))

private theorem captureContract_run {evs : List Event}
    (h : Guarded (Machine.step L) ArmsNonzero .boot evs) :
    (captureContract L).Holds (run (Machine.step L) .boot evs) := by
  refine (captureContract_met L).run ⟨fun x hx ↦ absurd hx (by simp [Machine.boot]), all_init⟩
    (h.mono fun m ev hev ↦ ?_)
  cases ev with
  | cpu => trivial
  | hw e => exact ⟨e, rfl⟩
  | byte b =>
    intro v hv hb
    refine all_dispatch hb b fun harm ↦ ?_
    have hne : v.numberOfSamples ≠ 0 := by
      unfold ArmsNonzero at hev
      rw [hv] at hev
      simpa [harm] using hev
    exact Nat.pos_of_ne_zero fun h0 ↦ hne (UInt16.toNat_inj.mp h0)

/-- In every run from reset in which `d` never comes with `numberOfSamples = 0`, the length
stays within the buffer, a byte moved by a capture changes nothing outside it, and a fetch reads
nothing outside it. -/
theorem scopeBuf_bounds (evs : List Event)
    (hevs : Guarded (Machine.step L) ArmsNonzero .boot evs) :
    (∀ v, (run (Machine.step L) .boot evs).ctl = .idle v →
      v.numberOfSamples.toNat ≤ scopeBufSize) ∧
    (∀ b a, ¬L.InScopeBuf a →
      ((run (Machine.step L) .boot evs).step L (.hw (.dmaByte b))).hw.mem a =
        (run (Machine.step L) .boot evs).hw.mem a) ∧
    (∀ i body k, (run (Machine.step L) .boot evs).ctl = .inCall (.load i) body k →
      L.InScopeBuf (L.scopeBuf.toNat + i)) := by
  refine ⟨fun v hv ↦ numberOfSamples_le L evs hv, fun b a ha ↦ ?_,
    fun i body k h ↦ load_inScopeBuf L evs h⟩
  change (HwEvent.act (.dmaByte b) _).sampling.mem a = _
  rw [Hw.sampling_act]
  refine Sampling.moveByte_mem _ b fun x hx hlt haddr ↦ ha ?_
  obtain ⟨hlo, hhi⟩ := (captureContract_run L hevs).inv x hx
  constructor <;> omega

/-- Set the timeout to zero, so that `trigger_wait` returns at once, set a length and arm: the
run up to the start of the transfer. -/
def capture (high low : UInt8) : List Event :=
  afterCommand (chr 'e') ++ [.byte 0, .byte 0] ++ List.replicate 2 .cpu ++
    [.byte (chr 'n'), .byte high, .byte low] ++ List.replicate 2 .cpu ++
    [.byte (chr 'd')] ++ List.replicate 28 .cpu

/-- A capture of the whole buffer. -/
theorem scopeBuf_bounds_capture :
    (run (Machine.step someLayout) .boot (capture 0x0e 0x00)).hw.xfer =
      some ⟨0x2000, 3584, []⟩ ∧
    ∀ b a, ¬someLayout.InScopeBuf a →
      ((run (Machine.step someLayout) .boot (capture 0x0e 0x00)).step someLayout
        (.hw (.dmaByte b))).hw.mem a =
      (run (Machine.step someLayout) .boot (capture 0x0e 0x00)).hw.mem a :=
  ⟨by decide +kernel, (scopeBuf_bounds someLayout (capture 0x0e 0x00) (by decide +kernel)).2.1⟩

private theorem filling_run {m : Machine} {dest size : Nat} {bs : List UInt8} (b : UInt8)
    (h : m.hw.sampling.Filling dest size bs) (n : Nat) (hn : bs.length + n ≤ size) :
    (run (Machine.step L) m (List.replicate n (.hw (.dmaByte b)))).hw.sampling.Filling dest size
        (bs ++ List.replicate n b) ∧
      ∀ a, dest + bs.length + n ≤ a →
        (run (Machine.step L) m (List.replicate n (.hw (.dmaByte b)))).hw.mem a = m.hw.mem a := by
  induction n generalizing m bs with
  | zero => simpa using h
  | succ n ih =>
    have hs : (m.step L (.hw (.dmaByte b))).hw.sampling = m.hw.sampling.moveByte b :=
      Hw.sampling_act _ _
    have hf := h.moveByte (by omega) b
    rw [← hs] at hf
    obtain ⟨hfill, hmem⟩ := ih hf (by rw [List.length_append, List.length_singleton]; omega)
    rw [List.append_assoc, List.singleton_append, ← List.replicate_succ] at hfill
    refine ⟨hfill, fun a ha ↦ ?_⟩
    rw [List.replicate_succ, run_cons, hmem a (by
      rw [List.length_append, List.length_singleton]; omega)]
    change (m.step L (.hw (.dmaByte b))).hw.sampling.mem a = _
    rw [hs]
    refine Sampling.moveByte_mem _ b fun x hx _ ↦ ?_
    rw [h.xfer] at hx
    cases hx
    dsimp only
    omega

private theorem mem_filling_run {m : Machine} {dest size : Nat} (b : UInt8)
    (h : m.hw.sampling.Filling dest size []) (n : Nat) (hn : n < size) :
    (run (Machine.step L) m (List.replicate n (.hw (.dmaByte b)))).hw.mem (dest + n) =
        m.hw.mem (dest + n) ∧
      ((run (Machine.step L) m (List.replicate n (.hw (.dmaByte b)))).step L
        (.hw (.dmaByte b))).hw.mem (dest + n) = b := by
  -- no byte before it has touched the address of byte `n`
  obtain ⟨hf, hmem⟩ := filling_run L b h n (by rw [List.length_nil]; omega)
  rw [List.nil_append] at hf
  refine ⟨hmem _ (by rw [List.length_nil]; omega), ?_⟩
  have hnext := hf.mem_moveByte (by rwa [List.length_replicate]) b
  rw [List.length_replicate] at hnext
  change (HwEvent.act (.dmaByte b) _).sampling.mem _ = _
  rw [Hw.sampling_act, hnext]

/-- With `numberOfSamples = 0` the capture is 64 KB long, and its byte 3584 lands behind the
buffer. -/
theorem not_scopeBuf_bounds_capture_zero :
    ∃ evs b a, ¬someLayout.InScopeBuf a ∧
      ((run (Machine.step someLayout) .boot evs).step someLayout (.hw (.dmaByte b))).hw.mem a ≠
        (run (Machine.step someLayout) .boot evs).hw.mem a := by
  have h0 : (run (Machine.step someLayout) .boot (capture 0 0)).hw.sampling.Filling 0x2000 65536
      [] := ⟨by decide +kernel, by decide, by decide +kernel, fun _ h ↦ absurd h (by simp)⟩
  have hzero : (run (Machine.step someLayout) .boot (capture 0 0)).hw.mem (0x2000 + 3584) = 0 := by
    decide +kernel
  obtain ⟨hold, hnew⟩ := mem_filling_run someLayout 1 h0 3584 (by decide)
  refine ⟨capture 0 0 ++ List.replicate 3584 (.hw (.dmaByte 1)), 1, 0x2000 + 3584, ?_, ?_⟩
  · exact fun h ↦ absurd h.2 (by decide)
  · rw [run_append, hold, hnew, hzero]
    decide

end HorrorScope.Firmware
