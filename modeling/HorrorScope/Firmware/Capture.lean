import HorrorScope.Firmware.Logic
import HorrorScope.Firmware.Sampling

/-!
# Completeness of a capture

`dmaadc_read_buf_ch0` (`dmaadc.c:38-66`) waits with `while(!(DMA.CH0.CTRLA & DMA_CH_ENABLE_bm));`.
The bit is set while the transfer runs and cleared by its last byte, so the loop ends while
bytes are still missing and spins once none is. A run of `d` is complete exactly if the transfer
is under way at every poll and over when the status byte is sent.
-/

namespace HorrorScope.Firmware

open HorrorScope.Base Prog

variable (L : Layout) (n : Nat)

/-- Channel 0 is filling the first `n` bytes of `scopeBuf`, or has done so. -/
def Captured (r : Hw) : Prop := ∃ bs, r.sampling.Filling L.scopeBuf.toNat n bs

/-- All `n` bytes have been moved. -/
def CapturedAll (r : Hw) : Prop :=
  ∃ bs, r.sampling.Filling L.scopeBuf.toNat n bs ∧ bs.length = n

private theorem stable_captured : Stable AnyAction (Captured L n) := by
  rintro r _ ⟨bs, h⟩ ⟨e, rfl⟩
  have hs := r.sampling_act e
  cases e with
  | edge => exact ⟨bs, hs ▸ h⟩
  | overflow => exact ⟨bs, hs ▸ h⟩
  | compareMatch => exact ⟨bs, hs ▸ h⟩
  | dmaByte b =>
    rw [Captured, hs]
    by_cases hlt : bs.length < n
    · exact ⟨bs ++ [b], h.moveByte hlt b⟩
    · refine ⟨bs, ?_⟩
      dsimp only
      rw [h.moveByte_of_complete (by have := h.length_le; omega)]
      exact h

/-- A complete capture is left alone by the hardware. -/
theorem sampling_act_of_complete {r : Hw} {bs : List UInt8}
    (h : r.sampling.Filling L.scopeBuf.toNat n bs) (hlen : bs.length = n) (e : HwEvent) :
    (e.act r).sampling = r.sampling := by
  rw [Hw.sampling_act]
  cases e with
  | dmaByte b => exact h.moveByte_of_complete hlen b
  | edge => rfl
  | overflow => rfl
  | compareMatch => rfl

private theorem stable_capturedAll : Stable AnyAction (CapturedAll L n) := by
  rintro r _ ⟨bs, h, hlen⟩ ⟨e, rfl⟩
  refine ⟨bs, ?_, hlen⟩
  rw [sampling_act_of_complete L n h hlen]
  exact h

/-! ### The command `d` -/

/-- The status byte of `d` is sent with the capture of this command in `scopeBuf`. With
`timely`, it is assumed to be sent no sooner than the last byte is there. -/
def armSpec (v : Vars) (timely : Prop) : Spec where
  rely := AnyAction
  atWait
    | .dmaadcReadBufCh0 _, _, r => Captured L v.numberOfSamples.toNat r
    | _, _, _ => True
  atSend b r := b = chr 'r' ∨ Captured L v.numberOfSamples.toNat r
  onSend b r := timely → b = chr 'r' ∨ CapturedAll L v.numberOfSamples.toNat r
  atEnd v' r := v' = v ∧ (timely → CapturedAll L v.numberOfSamples.toNat r)

private theorem stable_top : Stable AnyAction fun _ ↦ True := fun _ _ _ _ ↦ trivial

private theorem filling_enableCh0 {L : Layout} {length : UInt16} (hl : 0 < length.toNat) {r : Hw}
    (h : r.ch0.AimedAt L.scopeBuf length) :
    r.enableCh0.sampling.Filling L.scopeBuf.toNat length.toNat [] where
  xfer := by
    change some (Transfer.mk r.ch0.dest r.ch0.blockSize []) = _
    rw [h.dest_eq, h.blockSize_eq hl]
  length_le := Nat.zero_le _
  enabled := by
    rw [List.length_nil, decide_eq_true hl]
    change ((r.ch0.ctrla ||| DMA_CH_ENABLE_bm) &&& DMA_CH_ENABLE_bm != 0) = true
    rw [or_and_mask]
    decide
  stored i hi := absurd hi (Nat.not_lt_zero i)

private theorem keeps_dmaadcFinish_captured : dmaadcFinish.Keeps (Captured L n) := by
  repeat' first | exact trivial | refine ⟨fun _ h ↦ h, ?_⟩

private theorem arm_safe {v : Vars} (hn : 0 < v.numberOfSamples.toNat) (timely : Prop) (r : Hw) :
    (armSpec L v timely).Safe L (Command.arm.run v) r := by
  refine Spec.safe_call stable_top trivial fun r _ ↦ (safe_true _ _).imp fun _ r _ ↦ ?_
  refine Spec.safe_send stable_top trivial (fun _ _ ↦ .inl rfl) fun r _ _ ↦ ?_
  refine Spec.safe_call stable_top trivial fun r _ ↦ (safe_true _ _).imp fun timedOut r _ ↦ ?_
  refine Spec.safe_call stable_top trivial fun r _ ↦ ?_
  refine dmaadcReadBufCh0_safe stable_top (fun _ _ _ _ ↦ trivial) (fun r _ hc ↦ ?_) trivial
  have hfin := (keeps_dmaadcFinish_captured L v.numberOfSamples.toNat).safe
    (stable_captured L v.numberOfSamples.toNat) ⟨[], filling_enableCh0 hn hc⟩
  refine hfin.mono (fun _ _ ↦ trivial) (fun _ _ h ↦ h) fun _ r hr ↦ ?_
  refine Spec.safe_send (stable_captured L _) hr (fun _ h ↦ .inr h) fun r _ hall ↦ ?_
  by_cases ht : timely
  · refine Spec.safe_ret (stable_capturedAll L _) ((hall ht).resolve_left ?_)
      fun _ h ↦ ⟨rfl, fun _ ↦ h⟩
    cases timedOut <;> decide
  · exact Spec.safe_ret stable_top trivial fun _ _ ↦ ⟨rfl, fun h ↦ absurd h ht⟩

/-! ### Runs of `d` -/

/-- The processor is in the wait loop of `dmaadc_read_buf_ch0`. -/
def Machine.polls (m : Machine) : Bool :=
  match m.ctl with
  | .inCall (.dmaadcReadBufCh0 _) (.await _ _) _ => true
  | _ => false

/-- The processor is about to send a byte other than the `r` that announces the wait. -/
def Machine.sendsStatus (m : Machine) : Bool :=
  match m.ctl with
  | .main (.send b _) => b != chr 'r'
  | _ => false

/-- How many bytes channel 0 has moved since it was last enabled. -/
def Machine.moved (m : Machine) : Nat :=
  match m.hw.xfer with
  | some x => x.bytes.length
  | none => 0

/-- At an event of a run of `d` with `numberOfSamples = n`: if the processor polls and the
transfer is over, the loop ends; if the processor sends the status byte, `scopeBuf` holds the
`n` bytes this capture has moved. -/
structure CaptureOk (m : Machine) (ev : Event) : Prop where
  exit : m.polls = true → m.moved = n → ch0Enabled m.hw = true
  stored : m.sendsStatus = true → ev = .cpu →
    ∃ bs, m.hw.xfer = some ⟨L.scopeBuf.toNat, n, bs⟩ ∧ bs.length = n ∧
      ∀ i (h : i < bs.length), m.hw.mem (L.scopeBuf.toNat + i) = bs[i]

/-- The transfer is under way when the processor polls and over when it sends the status. -/
structure Timely (m : Machine) (ev : Event) : Prop where
  poll : m.polls = true → m.moved < n
  status : m.sendsStatus = true → ev = .cpu → n ≤ m.moved

private theorem moved_eq {m : Machine} {dest size : Nat} {bs : List UInt8}
    (h : m.hw.sampling.Filling dest size bs) : m.moved = bs.length := by
  have hx : m.hw.xfer = some ⟨dest, size, bs⟩ := h.xfer
  rw [Machine.moved, hx]

private theorem captured_of_polls {m : Machine} {v : Vars} {timely : Prop}
    (h : (armSpec L v timely).Holds L m) (hm : m.polls = true) :
    Captured L v.numberOfSamples.toNat m.hw := by
  unfold Machine.polls at hm
  split at hm
  · next length c k' k hctl =>
    unfold Spec.Holds at h
    rw [hctl] at h
    exact h.of_await
  · exact absurd hm Bool.false_ne_true

private theorem captured_of_sendsStatus {m : Machine} {v : Vars} {timely : Prop}
    (h : (armSpec L v timely).Holds L m) (hm : m.sendsStatus = true) :
    Captured L v.numberOfSamples.toNat m.hw := by
  unfold Machine.sendsStatus at hm
  split at hm
  · next b k hctl =>
    unfold Spec.Holds at h
    rw [hctl] at h
    exact (h m.hw .refl).1.resolve_left (bne_iff_ne.mp hm)
  · exact absurd hm Bool.false_ne_true

private theorem captureOk_iff {m : Machine} {v : Vars} {timely : Prop}
    (h : (armSpec L v timely).Holds L m) (ev : Event) :
    CaptureOk L v.numberOfSamples.toNat m ev ↔ Timely v.numberOfSamples.toNat m ev := by
  constructor
  · intro hok
    constructor
    · intro hm
      obtain ⟨bs, hf⟩ := captured_of_polls L h hm
      have hle := hf.length_le
      rw [moved_eq hf]
      by_contra hge
      have hen : m.hw.ch0.enabled = true := hok.exit hm (by rw [moved_eq hf]; omega)
      rw [show m.hw.ch0.enabled = _ from hf.enabled, decide_eq_true_eq] at hen
      omega
    · intro hm hev
      obtain ⟨bs, hx, hlen, -⟩ := hok.stored hm hev
      rw [Machine.moved, hx]
      exact Nat.le_of_eq hlen.symm
  · intro ht
    constructor
    · intro hm hmoved
      have := ht.poll hm
      omega
    · intro hm hev
      obtain ⟨bs, hf⟩ := captured_of_sendsStatus L h hm
      have hge := ht.status hm hev
      rw [moved_eq hf] at hge
      exact ⟨bs, hf.xfer, Nat.le_antisymm hf.length_le hge, hf.stored⟩

/-! ### Fetching a capture -/

/-- How `s` goes on after byte `j` is loaded. -/
private def sendRest (length j : Nat) (v : Vars) (b : UInt8) : Fw Vars :=
  .send b (putBuf (j + 1) (length - (j + 1)) >>= fun _ ↦ .ret v)

/-- The stages of `s` over the buffer contents `bs`, with the bytes still to be sent. -/
private inductive Fetching (bs : List UInt8) (v : Vars) : Ctl → List UInt8 → Prop
  | next (j : Nat) (hj : j ≤ bs.length) :
      Fetching bs v (.main (putBuf j (bs.length - j) >>= fun _ ↦ .ret v)) (bs.drop j)
  | loading (j : Nat) (hj : j < bs.length) :
      Fetching bs v (.inCall (.load j) (Call.body L (.load j)) (sendRest bs.length j v))
        (bs.drop j)
  | loaded (j : Nat) (hj : j < bs.length) :
      Fetching bs v (.inCall (.load j) (.ret bs[j]) (sendRest bs.length j v)) (bs.drop j)
  | sending (j : Nat) (hj : j < bs.length) :
      Fetching bs v (.main (sendRest bs.length j v bs[j])) (bs.drop j)
  | finished : Fetching bs v (.idle v) []

/-- `s` sends `out` followed by the bytes of a complete capture. -/
private structure Fetches (bs : List UInt8) (v : Vars) (out : List UInt8) (m : Machine) : Prop where
  filled : m.hw.sampling.Filling L.scopeBuf.toNat bs.length bs
  stage : ∃ rest, Fetching L bs v m.ctl rest ∧ m.out ++ rest = out ++ bs

private theorem putBuf_of_lt {length j : Nat} (hj : j < length) (v : Vars) :
    (putBuf j (length - j) >>= fun _ ↦ .ret v) = .call (.load j) (sendRest length j v) := by
  obtain ⟨d, hd⟩ : ∃ d, length - j = d + 1 := ⟨length - j - 1, by omega⟩
  have hd' : length - (j + 1) = d := by omega
  rw [hd]
  unfold sendRest
  rw [hd']
  rfl

private theorem fetches_cpuStep {bs : List UInt8} {v : Vars} {out : List UInt8} {m : Machine}
    (h : Fetches L bs v out m) : Fetches L bs v out (m.cpuStep L) := by
  obtain ⟨ctl, hw, sent, lastWait⟩ := m
  obtain ⟨hf, rest, hstage, hout⟩ := h
  dsimp only at hf hstage hout
  cases hstage with
  | next j hj =>
    by_cases hlt : j < bs.length
    · rw [putBuf_of_lt hlt]
      exact ⟨hf, _, .loading j hlt, hout⟩
    · have hj' : j = bs.length := by omega
      subst hj'
      rw [Nat.sub_self]
      rw [List.drop_length] at hout
      exact ⟨hf, [], .finished, hout⟩
  | loading j hj =>
    have hb : hw.mem (L.scopeBuf.toNat + j) = bs[j] := hf.stored j hj
    refine ⟨hf, _, ?_, hout⟩
    change Fetching L bs v (.inCall (.load j) (.ret (hw.mem (L.scopeBuf.toNat + j))) _) _
    rw [hb]
    exact .loaded j hj
  | loaded j hj => exact ⟨hf, _, .sending j hj, hout⟩
  | sending j hj =>
    refine ⟨hf, _, .next (j + 1) hj, ?_⟩
    rw [List.drop_eq_getElem_cons hj] at hout
    change sent ++ [bs[j]] ++ _ = _
    rw [List.append_assoc]
    exact hout
  | finished => exact ⟨hf, [], .finished, hout⟩

private theorem fetches_step {bs : List UInt8} {v : Vars} {out : List UInt8} (m : Machine)
    (ev : Event) (h : Fetches L bs v out m) (hev : ∀ b, ev ≠ .byte b) :
    Fetches L bs v out (m.step L ev) := by
  cases ev with
  | cpu => exact fetches_cpuStep L h
  | byte b => exact absurd rfl (hev b)
  | hw e =>
    refine ⟨?_, h.stage⟩
    change (e.act m.hw).sampling.Filling _ _ _
    rw [sampling_act_of_complete L _ h.filled rfl]
    exact h.filled

/-- If the command is over, `s` returns the `n` bytes the capture has moved, whatever the
hardware does meanwhile. -/
def FetchOk (m : Machine) : Prop :=
  ∀ v, m.ctl = .idle v → ∃ bs, m.hw.xfer = some ⟨L.scopeBuf.toNat, n, bs⟩ ∧ bs.length = n ∧
    ∀ evs, (∀ b, .byte b ∉ evs) → ∀ v',
      (run (Machine.step L) (m.step L (.byte (chr 's'))) evs).ctl = .idle v' →
      (run (Machine.step L) (m.step L (.byte (chr 's'))) evs).out = m.out ++ bs

private theorem not_byte_of_mem {evs : List Event} (hevs : ∀ b, .byte b ∉ evs) :
    ∀ e ∈ evs, ∀ b, e ≠ .byte b := by
  rintro _ he b rfl
  exact hevs b he

private theorem fetchOk_of_capturedAll {m : Machine} {v : Vars} (hm : m.ctl = .idle v)
    (h : CapturedAll L v.numberOfSamples.toNat m.hw) :
    FetchOk L v.numberOfSamples.toNat m := by
  obtain ⟨bs, hf, hlen⟩ := h
  intro v₁ hv₁
  refine ⟨bs, hf.xfer, hlen, fun evs hevs v' hv' ↦ ?_⟩
  have hstart : Fetches L bs v m.out (m.step L (.byte (chr 's'))) := by
    obtain ⟨ctl, hw, out, lastWait⟩ := m
    dsimp only at hm
    subst hm
    refine ⟨by rw [hlen]; exact hf, bs, ?_, rfl⟩
    have h0 : Fetching L bs v (.main (putBuf 0 (bs.length - 0) >>= fun _ ↦ .ret v)) (bs.drop 0) :=
      .next 0 (Nat.zero_le _)
    rw [Nat.sub_zero, hlen] at h0
    exact h0
  have hend := (guarded_of_forall (not_byte_of_mem hevs)).invariant (fetches_step L) hstart
  obtain ⟨rest, hstage, hout⟩ := hend.stage
  rw [hv'] at hstage
  cases hstage
  simpa using hout

private theorem holds_arm {m : Machine} {v : Vars} (hm : m.ctl = .idle v)
    (hpos : 0 < v.numberOfSamples.toNat) (timely : Prop) :
    (armSpec L v timely).Holds L (m.step L (.byte (chr 'd'))) := by
  obtain ⟨ctl, hw, out, lastWait⟩ := m
  dsimp only at hm
  subst hm
  exact arm_safe L hpos timely hw

private theorem allows_of_not_byte {v : Vars} (m : Machine) {ev : Event}
    (hev : ∀ b, ev ≠ .byte b) : (armSpec L v False).Allows m ev := by
  cases ev with
  | cpu => exact fun b k _ h ↦ h.elim
  | byte b => exact absurd rfl (hev b)
  | hw e => exact ⟨e, rfl⟩

private theorem allows_of_timely {v : Vars} {m : Machine} {ev : Event}
    (h : (armSpec L v True).Holds L m) (ht : Timely v.numberOfSamples.toNat m ev)
    (hev : ∀ b, ev ≠ .byte b) : (armSpec L v True).Allows m ev := by
  cases ev with
  | byte b => exact absurd rfl (hev b)
  | hw e => exact ⟨e, rfl⟩
  | cpu =>
    intro b k hctl _
    by_cases hb : b = chr 'r'
    · exact .inl hb
    · have hs : m.sendsStatus = true := by
        rw [Machine.sendsStatus, hctl]
        exact bne_iff_ne.mpr hb
      obtain ⟨bs, hx, hlen, hst⟩ := ((captureOk_iff L h .cpu).mpr ht).stored hs rfl
      obtain ⟨bs', hf⟩ := captured_of_sendsStatus L h hs
      obtain rfl : bs' = bs := by
        have hx' := hf.xfer.symm.trans hx
        simpa using hx'
      exact .inr ⟨bs', hf, hlen⟩

/-- A run of `d` is complete, and what a following `s` returns is its capture, exactly if the
transfer is under way at every poll of the wait loop and over when the status byte is sent. -/
theorem capture_complete_iff {m : Machine} {v : Vars} (hm : m.ctl = .idle v)
    (hpos : 0 < v.numberOfSamples.toNat) (evs : List Event) (hevs : ∀ b, .byte b ∉ evs) :
    Guarded (Machine.step L) (CaptureOk L v.numberOfSamples.toNat)
        (m.step L (.byte (chr 'd'))) evs ∧
      FetchOk L v.numberOfSamples.toNat (run (Machine.step L) (m.step L (.byte (chr 'd'))) evs) ↔
    Guarded (Machine.step L) (Timely v.numberOfSamples.toNat) (m.step L (.byte (chr 'd'))) evs := by
  have hbytes := not_byte_of_mem hevs
  have hiff := guarded_congr (Spec.step (L := L)) (fun _ ev h ↦ captureOk_iff L h ev)
    (holds_arm L hm hpos False)
    ((guarded_of_forall hbytes).mono fun m _ hev ↦ allows_of_not_byte L m hev)
  constructor
  · intro h
    exact hiff.mp h.1
  · intro ht
    refine ⟨hiff.mpr ht, fun v' hv' ↦ ?_⟩
    have hend := (ht.and (guarded_of_forall hbytes)).invariant
      (fun m ev h hok ↦ Spec.step m ev h (allows_of_timely L h hok.1 hok.2))
      (holds_arm L hm hpos True)
    unfold Spec.Holds at hend
    rw [hv'] at hend
    obtain ⟨rfl, hall⟩ := hend _ .refl
    exact fetchOk_of_capturedAll L hv' (hall trivial) v' hv'

/-- Whether an event is timely can be computed. -/
instance (m : Machine) (ev : Event) : Decidable (Timely n m ev) :=
  decidable_of_iff
    ((m.polls = true → m.moved < n) ∧ (m.sendsStatus = true → ev = .cpu → n ≤ m.moved))
    ⟨fun h ↦ ⟨h.1, h.2⟩, fun h ↦ ⟨h.1, h.2⟩⟩

/-- The scope behind its initialisation and the commands `e` and `n`: it waits for no trigger and
takes two samples. -/
def readyForTwo : Machine :=
  run (Machine.step someLayout) initialised
    ([.byte (chr 'e'), .byte 0, .byte 0] ++ List.replicate 2 .cpu ++
      [.byte (chr 'n'), .byte 0, .byte 2] ++ List.replicate 2 .cpu)

/-- A run of `d` in which the two bytes come between the poll and the status byte. -/
def timelyCapture : List Event :=
  List.replicate 32 .cpu ++ [.hw (.dmaByte 7), .hw (.dmaByte 8)] ++ List.replicate 6 .cpu

/-- Both bytes come between the poll and the status byte. -/
theorem capture_complete_iff_timelyCapture :
    Guarded (Machine.step someLayout) (Timely 2)
        (readyForTwo.step someLayout (.byte (chr 'd'))) timelyCapture ∧
      Guarded (Machine.step someLayout) (CaptureOk someLayout 2)
        (readyForTwo.step someLayout (.byte (chr 'd'))) timelyCapture ∧
      FetchOk someLayout 2
        (run (Machine.step someLayout) (readyForTwo.step someLayout (.byte (chr 'd')))
          timelyCapture) := by
  have ht : Guarded (Machine.step someLayout) (Timely 2)
      (readyForTwo.step someLayout (.byte (chr 'd'))) timelyCapture := by decide +kernel
  have hidle : readyForTwo.ctl = .idle { timeout := 0, numberOfSamples := 2 } :=
    Ctl.eq_idle_of_vars (by decide +kernel)
  exact ⟨ht, (capture_complete_iff someLayout hidle (by decide) timelyCapture
    (by simp [timelyCapture])).mpr ht⟩

/-- Without a byte moved, the loop is left at once and the status is sent over a zeroed buffer.
With both bytes moved before the first poll, the loop is never left. -/
theorem not_captureOk_of_untimely :
    ¬Guarded (Machine.step someLayout) (CaptureOk someLayout 2)
        (readyForTwo.step someLayout (.byte (chr 'd'))) (List.replicate 37 .cpu) ∧
    ¬Guarded (Machine.step someLayout) (CaptureOk someLayout 2)
        (readyForTwo.step someLayout (.byte (chr 'd')))
        (List.replicate 28 .cpu ++ [.hw (.dmaByte 7), .hw (.dmaByte 8)] ++
          List.replicate 4 .cpu) := by
  constructor
  · intro h
    rw [show List.replicate 37 Event.cpu = List.replicate 36 .cpu ++ [.cpu] from rfl] at h
    obtain ⟨bs, hx, hlen, -⟩ := h.of_append.2.1.stored (by decide +kernel) rfl
    have hnone : (run (Machine.step someLayout) (readyForTwo.step someLayout (.byte (chr 'd')))
        (List.replicate 36 .cpu)).hw.xfer = some ⟨0x2000, 2, []⟩ := by decide +kernel
    rw [hnone] at hx
    cases hx
    exact absurd hlen (by decide)
  · intro h
    rw [show List.replicate 4 Event.cpu = List.replicate 3 .cpu ++ [.cpu] from rfl,
      ← List.append_assoc] at h
    exact absurd (h.of_append.2.1.exit (by decide +kernel) (by decide +kernel)) (by decide +kernel)

end HorrorScope.Firmware
