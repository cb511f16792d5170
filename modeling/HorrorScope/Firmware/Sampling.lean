import HorrorScope.Base.Bits
import HorrorScope.Firmware.Contract

/-!
# The sampling path, abstractly

A capture is between DMA channel 0 and the data memory: of the hardware's actions only the
move of a byte touches them. `Sampling` is that part of the state, `sampling_act` says what the
hardware does to it. `Filling` describes a capture in progress: the bytes moved so far are in
memory and the channel is enabled exactly while some are missing.
-/

namespace HorrorScope.Firmware

open HorrorScope.Base Prog

/-- DMA channel 0, its block transfer and the memory it writes. -/
structure Sampling where
  ch0 : DmaChannel
  xfer : Option Transfer
  mem : Nat → UInt8

/-- The sampling path of the registers. -/
def Hw.sampling (r : Hw) : Sampling := ⟨r.ch0, r.xfer, r.mem⟩

/-- Channel 0 moves one byte, if it is enabled and its block is not complete. -/
def Sampling.moveByte (b : UInt8) (s : Sampling) : Sampling :=
  match s.xfer with
  | none => s
  | some x =>
    if s.ch0.enabled && x.bytes.length < x.size then
      { mem := Function.update s.mem (x.dest + x.bytes.length) b
        xfer := some { x with bytes := x.bytes ++ [b] }
        ch0 := { s.ch0 with
          ctrla := if x.bytes.length + 1 = x.size then s.ch0.ctrla &&& ~~~DMA_CH_ENABLE_bm
            else s.ch0.ctrla } }
    else s

namespace Hw

private theorem sampling_moveByte (r : Hw) (b : UInt8) :
    (r.moveByte b).sampling = r.sampling.moveByte b := by
  unfold moveByte Sampling.moveByte
  change _ = match r.xfer with | none => r.sampling | some x => _
  cases h : r.xfer with
  | none => rfl
  | some x =>
    dsimp only
    change _ = if r.ch0.enabled && x.bytes.length < x.size then _ else _
    split
    · rfl
    · rfl

private theorem sampling_edge (r : Hw) : r.edge.sampling = r.sampling := by
  have hr : ∀ r : Hw, r.raisePortFlag.sampling = r.sampling := by
    intro r
    unfold raisePortFlag
    split <;> rfl
  change (if r.armed then r.startTimer else r).raisePortFlag.sampling = r.sampling
  rw [hr]
  split <;> rfl

/-- Of the hardware's actions only the move of a byte touches the sampling path. -/
theorem sampling_act (r : Hw) (e : HwEvent) : (e.act r).sampling =
    match e with
    | .dmaByte b => r.sampling.moveByte b
    | _ => r.sampling := by
  cases e with
  | edge => exact sampling_edge r
  | dmaByte b => exact sampling_moveByte r b
  | overflow =>
    change r.overflow.sampling = r.sampling
    unfold overflow
    split <;> rfl
  | compareMatch =>
    change r.compareMatch.sampling = r.sampling
    unfold compareMatch
    split <;> rfl

end Hw

namespace Sampling

variable (s : Sampling) (b : UInt8)

/-- A byte changes no register of the channel but `CTRLA`. -/
theorem moveByte_ch0 : ∃ a, (s.moveByte b).ch0 = { s.ch0 with ctrla := a } := by
  refine ⟨(s.moveByte b).ch0.ctrla, ?_⟩
  unfold moveByte
  split
  · rfl
  · split <;> rfl

/-- A byte leaves the transfer where it is and as long as it is. -/
theorem moveByte_xfer {x' : Transfer} (h : (s.moveByte b).xfer = some x') :
    ∃ x, s.xfer = some x ∧ x'.dest = x.dest ∧ x'.size = x.size := by
  unfold moveByte at h
  split at h
  · next hn =>
    rw [hn] at h
    exact absurd h (by simp)
  · next x hx =>
    split at h
    · cases h
      exact ⟨x, hx, rfl, rfl⟩
    · exact ⟨x', h, rfl, rfl⟩

/-- A byte goes nowhere but to the next address of an unfinished transfer. -/
theorem moveByte_mem {a : Nat}
    (h : ∀ x, s.xfer = some x → x.bytes.length < x.size → a ≠ x.dest + x.bytes.length) :
    (s.moveByte b).mem a = s.mem a := by
  unfold moveByte
  split
  · rfl
  · next x hx =>
    split
    · next hc =>
      rw [Bool.and_eq_true, decide_eq_true_eq] at hc
      exact Function.update_of_ne (h x hx hc.2) _ _
    · rfl

/-- A block of `size` bytes at `dest` of which the bytes `bs` have been moved. -/
structure Filling (s : Sampling) (dest size : Nat) (bs : List UInt8) : Prop where
  xfer : s.xfer = some ⟨dest, size, bs⟩
  length_le : bs.length ≤ size
  enabled : s.ch0.enabled = decide (bs.length < size)
  stored : ∀ i (h : i < bs.length), s.mem (dest + i) = bs[i]

variable {s : Sampling} {dest size : Nat} {bs : List UInt8}

/-- The next byte of a capture that is not complete. -/
theorem Filling.moveByte (h : s.Filling dest size bs) (hlt : bs.length < size) (b : UInt8) :
    (s.moveByte b).Filling dest size (bs ++ [b]) := by
  have hm : s.moveByte b =
      { mem := Function.update s.mem (dest + bs.length) b
        xfer := some ⟨dest, size, bs ++ [b]⟩
        ch0 := { s.ch0 with
          ctrla := if bs.length + 1 = size then s.ch0.ctrla &&& ~~~DMA_CH_ENABLE_bm
            else s.ch0.ctrla } } := by
    unfold Sampling.moveByte
    rw [h.xfer]
    dsimp only
    rw [if_pos]
    rw [h.enabled, Bool.and_eq_true, decide_eq_true_eq]
    exact ⟨hlt, hlt⟩
  rw [hm]
  refine ⟨rfl, by rw [List.length_append]; exact hlt, ?_, ?_⟩
  · rw [List.length_append, List.length_singleton]
    by_cases hlast : bs.length + 1 = size
    · simp [DmaChannel.enabled, hlast, and_not_and_mask]
    · have he : s.ch0.enabled = true := by rw [h.enabled]; simpa using hlt
      simp only [hlast, if_false]
      rw [show ({ s.ch0 with ctrla := s.ch0.ctrla } : DmaChannel) = s.ch0 from rfl, he]
      exact (decide_eq_true (by omega)).symm
  · intro i hi
    rw [List.length_append, List.length_singleton] at hi
    by_cases hlast : i = bs.length
    · subst hlast
      simp
    · have hi' : i < bs.length := by omega
      rw [List.getElem_append_left hi', ← h.stored i hi']
      exact Function.update_of_ne (by omega) _ _

/-- Where the next byte goes. -/
theorem Filling.mem_moveByte (h : s.Filling dest size bs) (hlt : bs.length < size) (b : UInt8) :
    (s.moveByte b).mem (dest + bs.length) = b := by
  rw [(h.moveByte hlt b).stored bs.length (by simp)]
  simp

/-- A complete capture stays as it is. -/
theorem Filling.moveByte_of_complete (h : s.Filling dest size bs) (hlen : bs.length = size)
    (b : UInt8) : s.moveByte b = s := by
  unfold Sampling.moveByte
  rw [h.xfer]
  dsimp only
  rw [if_neg]
  rw [h.enabled]
  simp [hlen]

end Sampling

/-- `((uint16_t) p >> 0) & 0xFF` and `((uint16_t) p >> 8) & 0xFF` make up `p`. -/
theorem lo_add_hi (p : UInt16) : (lo p).toNat + 256 * (hi p).toNat = p.toNat := by
  have hp := p.toNat_lt
  have hlo : (lo p).toNat = p.toNat % 256 := by
    simp only [lo, UInt16.toNat_toUInt8, UInt16.toNat_and]
    rw [show (0xff : UInt16).toNat = 2 ^ 8 - 1 from rfl, Nat.and_two_pow_sub_one_eq_mod]
    omega
  have hhi : (hi p).toNat = p.toNat / 256 := by
    simp only [hi, UInt16.toNat_toUInt8, UInt16.toNat_and, UInt16.toNat_shiftRight]
    rw [show (0xff : UInt16).toNat = 2 ^ 8 - 1 from rfl, Nat.and_two_pow_sub_one_eq_mod,
      show (8 : UInt16).toNat % 16 = 8 from rfl, Nat.shiftRight_eq_div_pow]
    omega
  omega

/-! ### Starting a capture -/

/-- Any action of the hardware. -/
def AnyAction (r r' : Hw) : Prop := ∃ e : HwEvent, r' = e.act r

/-- The channel's block is `length` bytes at `buf`. -/
structure DmaChannel.AimedAt (c : DmaChannel) (buf length : UInt16) : Prop where
  trfcnt : c.trfcnt = length
  destaddr0 : c.destaddr0 = lo buf
  destaddr1 : c.destaddr1 = hi buf
  destaddr2 : c.destaddr2 = 0

/-- The channel writes to the buffer it is aimed at. -/
theorem DmaChannel.AimedAt.dest_eq {c : DmaChannel} {buf length : UInt16}
    (h : c.AimedAt buf length) : c.dest = buf.toNat := by
  rw [DmaChannel.dest, h.destaddr0, h.destaddr1, h.destaddr2, lo_add_hi]
  rfl

/-- The channel moves as many bytes as it is asked for. -/
theorem DmaChannel.AimedAt.blockSize_eq {c : DmaChannel} {buf length : UInt16}
    (h : c.AimedAt buf length) (hl : 0 < length.toNat) : c.blockSize = length.toNat := by
  rw [DmaChannel.blockSize, h.trfcnt, if_neg]
  intro h0
  rw [h0] at hl
  exact absurd hl (by decide)

section Start

variable {I : Hw → Prop} (hI : Stable AnyAction I)
include hI

/-- The hardware keeps every register of the channel but `CTRLA`. -/
theorem stable_ch0 {P : DmaChannel → Prop} (hP : ∀ c a, P c → P { c with ctrla := a }) :
    Stable AnyAction fun r ↦ I r ∧ P r.ch0 := by
  rintro r _ ⟨hi, hp⟩ ⟨e, rfl⟩
  refine ⟨hI hi ⟨e, rfl⟩, ?_⟩
  change P (e.act r).sampling.ch0
  rw [Hw.sampling_act]
  cases e with
  | dmaByte b =>
    obtain ⟨a, ha⟩ := r.sampling.moveByte_ch0 b
    change P (r.sampling.moveByte b).ch0
    rw [ha]
    exact hP _ _ hp
  | edge => exact hp
  | overflow => exact hp
  | compareMatch => exact hp

variable {W : (Hw → Bool) → Hw → Prop} {Q : Unit → Hw → Prop}

private theorem safe_ch0 {P : DmaChannel → Prop} (hP : ∀ c a, P c → P { c with ctrla := a })
    {f : Hw → Hw} {k : Routine Unit} {r : Hw} (hr : I r ∧ P r.ch0)
    (hk : ∀ r, I r ∧ P r.ch0 → Safe AnyAction I W Q k (f r)) :
    Safe AnyAction I W Q (.stmt f k) r :=
  safe_stmt (stable_ch0 hI hP) hr hk fun _ h ↦ h.1

/-- `dmaadc_read_buf_ch0` has aimed the channel when it enables it. -/
theorem dmaadcReadBufCh0_safe (hx : ∀ r r' : Hw, r'.xfer = r.xfer → I r → I r')
    {buf length : UInt16}
    (hfin : ∀ r, I r → r.ch0.AimedAt buf length → Safe AnyAction I W Q dmaadcFinish r.enableCh0)
    {r : Hw} (hr : I r) : Safe AnyAction I W Q (dmaadcReadBufCh0 buf length) r := by
  refine safe_stmt hI hr (fun r hr ↦ ?_) (fun _ h ↦ h)
  refine safe_stmt hI (hx r _ rfl hr) (fun r hr ↦ ?_) (fun _ h ↦ h)
  refine safe_ch0 hI (P := fun c ↦ c.trfcnt = length) (fun _ _ h ↦ h) ⟨hx r _ rfl hr, rfl⟩
    fun r hr ↦ ?_
  refine safe_ch0 hI (P := fun c ↦ c.trfcnt = length) (fun _ _ h ↦ h)
    ⟨hx r _ rfl hr.1, hr.2⟩ fun r hr ↦ ?_
  refine safe_ch0 hI (P := fun c ↦ c.trfcnt = length ∧ c.destaddr0 = lo buf) (fun _ _ h ↦ h)
    ⟨hx r _ rfl hr.1, hr.2, rfl⟩ fun r hr ↦ ?_
  refine safe_ch0 hI (P := fun c ↦ c.trfcnt = length ∧ c.destaddr0 = lo buf ∧
    c.destaddr1 = hi buf) (fun _ _ h ↦ h) ⟨hx r _ rfl hr.1, hr.2.1, hr.2.2, rfl⟩ fun r hr ↦ ?_
  obtain ⟨hr, ht, h0, h1⟩ := hr
  refine safe_ch0 hI (P := fun c ↦ c.AimedAt buf length) (fun _ _ h ↦ ⟨h.1, h.2, h.3, h.4⟩)
    ⟨hx r _ rfl hr, ⟨ht, h0, h1, rfl⟩⟩ fun r hr ↦ ?_
  refine safe_ch0 hI (P := fun c ↦ c.AimedAt buf length) (fun _ _ h ↦ ⟨h.1, h.2, h.3, h.4⟩)
    ⟨hx r _ rfl hr.1, hr.2⟩ fun r hr ↦ ?_
  exact hfin r hr.1 hr.2

end Start

end HorrorScope.Firmware
