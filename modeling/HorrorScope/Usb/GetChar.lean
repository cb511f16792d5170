import HorrorScope.Usb.Serial

/-!
# `USB_serial_get_char`

Any number of calls of `USB_serial_get_char`, whatever the host and the bus do in between. The bytes
that have arrived and not been returned are in three places: the ring, the variable of the call and
the packet in the endpoint. Each step moves one of them on or none, as long as no reset comes in the
middle of a read; what the calls return is the host's bytes in their order, and a call returns once
there is a byte for it.
-/

namespace HorrorScope.Usb

open HorrorScope.Base

namespace Serial

variable (s : Serial)

/-! ### What holds in front of each statement -/

/-- A packet is there and has been measured. -/
structure Reading : Prop where
  selected : s.selected = .dataOut
  trnCompl : s.out.trnCompl = true
  length_eq : s.out.length = s.out.cnt

/-- What holds in front of a statement. -/
def At : Stmt → Prop
  | .idle | .isEmpty | .classTask | .usbTask => s.receivedByte = none
  | .remove => s.receivedByte = none ∧ s.ring.isEmpty = false
  | .isFull | .isConfigured | .mayReceive | .selectEndpoint =>
    s.receivedByte = none ∧ s.ring.contents = []
  | .isOutReceived =>
    s.receivedByte = none ∧ s.ring.contents = [] ∧ s.selected = .dataOut
  | .bytesInEndpoint => s.receivedByte = none ∧ s.ring.contents = [] ∧ s.Reading
  | .read8 =>
    s.receivedByte = none ∧ s.ring.contents = [] ∧ s.Reading ∧ s.out.position < s.out.cnt
  | .bytesLeft => s.ring.contents = [] ∧ s.Reading
  | .clearOut => s.ring.contents = [] ∧ s.Reading ∧ s.out.position = s.out.cnt
  | .insert => s.ring.contents = []

/-- The statement works on the endpoint that is selected. -/
def Stmt.onSelected : Stmt → Bool
  | .isOutReceived | .bytesInEndpoint | .read8 | .bytesLeft | .clearOut => true
  | _ => false

/-- What holds between any two statements. -/
structure Inv : Prop where
  ring : s.ring.Inv
  out : s.out.WF
  stmt : s.At s.stmt

/-- The event runs `USB_USBTask`. -/
def RunsTask : Event → Prop
  | .cpu _ => s.stmt = .usbTask
  | .otherTask => s.stmt = .idle
  | _ => False

/-- `USB_USBTask` is about to process a `ClearFeature` for a packet that has been read in part, so
that its first bytes would be read again. -/
def Rewinds : Prop :=
  s.device.deviceState ≠ .unattached ∧ s.setHalt = some false ∧ s.out.position ≠ 0

/-- No reset in the middle of a read, and no byte is read again. -/
def InOrder (ev : Event) : Prop :=
  (ev = .bus .reset → s.stmt.onSelected = false) ∧ (s.RunsTask ev → ¬ s.Rewinds)

/-- Nor does the host configure the endpoint again while it has unread bytes. -/
def Lossless (ev : Event) : Prop :=
  s.InOrder ev ∧ (s.RunsTask ev → s.reconfigures = true → s.out.unread = [])

/-- Whether an event runs `USB_USBTask` can be computed. -/
instance : (ev : Event) → Decidable (s.RunsTask ev)
  | .cpu _ => inferInstanceAs (Decidable (_ = _))
  | .otherTask => inferInstanceAs (Decidable (_ = _))
  | .call | .bus _ | .request _ | .halt _ | .packet _ => inferInstanceAs (Decidable False)

/-- Whether the endpoint is rewound can be computed. -/
instance : Decidable s.Rewinds := inferInstanceAs (Decidable (_ ∧ _ ∧ _))

/-- Whether an event keeps the order can be computed. -/
instance (ev : Event) : Decidable (s.InOrder ev) := inferInstanceAs (Decidable (_ ∧ _))

/-- Whether an event loses nothing can be computed. -/
instance (ev : Event) : Decidable (s.Lossless ev) := inferInstanceAs (Decidable (_ ∧ _))

/-- A step returns the first of the pending bytes, or none, and keeps the others. -/
structure Passes (s s' : Serial) (out : List UInt8) : Prop where
  inv : s'.Inv
  pending_eq : out ++ s'.pending = s.pending

variable {s}

/-- A step that moves no byte. -/
theorem Inv.passes_of_eq {s' : Serial} (h : s.Inv) (hat : s'.At s'.stmt) (hring : s'.ring = s.ring)
    (hout : s'.out = s.out) (hbyte : s'.receivedByte = s.receivedByte) : s.Passes s' [] where
  inv := ⟨hring ▸ h.ring, hout ▸ h.out, hat⟩
  pending_eq := by simp [pending, hring, hout, hbyte]

section

variable (h : s.Inv) (control : Control)

include h

private theorem Inv.at_eq {st : Stmt} (hs : s.stmt = st) : s.At st := hs ▸ h.stmt

private theorem Inv.passes_isOutReceived (hs : s.stmt = .isOutReceived) :
    s.Passes (s.cpuStep control) [] := by
  obtain ⟨hbyte, hempty, hselected⟩ := h.at_eq hs
  simp only [cpuStep, hs]
  rw [if_pos hselected]
  split
  · next htrn =>
    refine ⟨⟨h.ring, h.out.measure, hbyte, hempty, hselected, htrn, rfl⟩, ?_⟩
    rfl
  · exact h.passes_of_eq hempty rfl rfl rfl

private theorem Inv.passes_read8 (hs : s.stmt = .read8) : s.Passes (s.cpuStep control) [] := by
  obtain ⟨hbyte, hempty, hreading, hlt⟩ := h.at_eq hs
  have htrn := hreading.trnCompl
  simp only [cpuStep, hs]
  rw [if_pos hreading.selected]
  refine ⟨⟨h.ring, h.out.advance htrn hlt, hempty, hreading.selected, htrn, hreading.length_eq⟩, ?_⟩
  simp [pending, hempty, hbyte, h.out.unread_eq_cons htrn hlt]

private theorem Inv.passes_clearOut (hs : s.stmt = .clearOut) :
    s.Passes (s.cpuStep control) [] := by
  obtain ⟨hempty, hreading, hend⟩ := h.at_eq hs
  simp only [cpuStep, hs]
  rw [if_pos hreading.selected]
  refine ⟨⟨h.ring, h.out.clearOut, hempty⟩, ?_⟩
  have hclear : s.out.clearOut.unread = [] := OutEndpoint.unread_of_not_trnCompl rfl
  simp [pending, hclear, OutEndpoint.unread_of_position_eq hend]

private theorem Inv.isFull_of_contents (hempty : s.ring.contents = []) : s.ring.isFull = false := by
  rw [Bool.eq_false_iff, ne_eq, h.ring.isFull_iff, hempty]
  decide

private theorem Inv.passes_insert (hs : s.stmt = .insert) : s.Passes (s.cpuStep control) [] := by
  have hempty : s.ring.contents = [] := h.at_eq hs
  have hfull := h.isFull_of_contents hempty
  simp only [cpuStep, hs]
  split
  · next hbyte => exact h.passes_of_eq hbyte rfl rfl rfl
  · next b hbyte =>
    refine ⟨⟨h.ring.insert hfull b, h.out, rfl⟩, ?_⟩
    simp [pending, hbyte, RingBuffer.contents_insert h.ring hfull]

private theorem Inv.passes_remove (hs : s.stmt = .remove) :
    s.Passes (s.cpuStep control) [s.ring.peek] := by
  obtain ⟨hbyte, hempty⟩ := h.at_eq hs
  simp only [cpuStep, hs]
  refine ⟨⟨h.ring.remove hempty, h.out, hbyte⟩, ?_⟩
  simp [pending, RingBuffer.contents_eq_cons hempty]

/-- Every statement but `USB_USBTask` passes the bytes on. -/
theorem Inv.passes_cpuStep (hs : s.stmt ≠ .usbTask) :
    s.Passes (s.cpuStep control) (if s.stmt = .remove then [s.ring.peek] else []) := by
  cases hst : s.stmt with
  | usbTask => exact absurd hst hs
  | isOutReceived => exact h.passes_isOutReceived control hst
  | read8 => exact h.passes_read8 control hst
  | clearOut => exact h.passes_clearOut control hst
  | insert => exact h.passes_insert control hst
  | remove => exact h.passes_remove control hst
  -- the other statements only choose the next one
  | idle =>
    simp only [cpuStep, hst]
    exact h.passes_of_eq h.stmt rfl rfl rfl
  | isEmpty =>
    have hbyte : s.receivedByte = none := h.at_eq hst
    simp only [cpuStep, hst]
    cases hempty : s.ring.isEmpty with
    | true => exact h.passes_of_eq ⟨hbyte, (RingBuffer.isEmpty_iff _).mp hempty⟩ rfl rfl rfl
    | false => exact h.passes_of_eq ⟨hbyte, hempty⟩ rfl rfl rfl
  | isFull =>
    obtain ⟨hbyte, hempty⟩ := h.at_eq hst
    simp only [cpuStep, hst]
    cases s.ring.isFull with
    | true => exact h.passes_of_eq hbyte rfl rfl rfl
    | false => exact h.passes_of_eq ⟨hbyte, hempty⟩ rfl rfl rfl
  | isConfigured =>
    obtain ⟨hbyte, hempty⟩ := h.at_eq hst
    simp only [cpuStep, hst]
    by_cases hstate : s.device.deviceState = .configured
    · rw [if_pos hstate]
      exact h.passes_of_eq ⟨hbyte, hempty⟩ rfl rfl rfl
    · rw [if_neg hstate]
      exact h.passes_of_eq hbyte rfl rfl rfl
  | mayReceive =>
    obtain ⟨hbyte, hempty⟩ := h.at_eq hst
    simp only [cpuStep, hst]
    cases s.device.accepts with
    | true => exact h.passes_of_eq ⟨rfl, hempty⟩ rfl rfl hbyte.symm
    | false => exact h.passes_of_eq hempty rfl rfl hbyte.symm
  | selectEndpoint =>
    obtain ⟨hbyte, hempty⟩ := h.at_eq hst
    simp only [cpuStep, hst]
    exact h.passes_of_eq ⟨hbyte, hempty, rfl⟩ rfl rfl rfl
  | bytesInEndpoint =>
    obtain ⟨hbyte, hempty, hreading⟩ := h.at_eq hst
    simp only [cpuStep, hst]
    rw [if_pos hreading.selected]
    cases hhas : s.out.hasBytes with
    | true =>
      rw [OutEndpoint.hasBytes, bne_iff_ne, hreading.length_eq] at hhas
      have hlt := Nat.lt_of_le_of_ne h.out.position_le hhas.symm
      exact h.passes_of_eq ⟨hbyte, hempty, ⟨hreading.selected, hreading.trnCompl,
        hreading.length_eq⟩, hlt⟩ rfl rfl rfl
    | false =>
      exact h.passes_of_eq ⟨hempty, hreading.selected, hreading.trnCompl, hreading.length_eq⟩
        rfl rfl rfl
  | bytesLeft =>
    obtain ⟨hempty, hreading⟩ := h.at_eq hst
    simp only [cpuStep, hst]
    rw [if_pos hreading.selected]
    cases hhas : s.out.hasBytes with
    | true => exact h.passes_of_eq hempty rfl rfl rfl
    | false =>
      rw [OutEndpoint.hasBytes, bne_eq_false_iff_eq, hreading.length_eq] at hhas
      exact h.passes_of_eq ⟨hempty, ⟨hreading.selected, hreading.trnCompl, hreading.length_eq⟩,
        hhas.symm⟩ rfl rfl rfl
  | classTask =>
    have hbyte : s.receivedByte = none := h.at_eq hst
    simp only [cpuStep, hst]
    exact h.passes_of_eq hbyte rfl rfl rfl

end

/-! ### The other events -/

/-- `USB_USBTask` leaves the ring buffer and the call. -/
theorem usbTask_frame (s : Serial) :
    s.usbTask.ring = s.ring ∧ s.usbTask.receivedByte = s.receivedByte ∧
      s.usbTask.stmt = s.stmt := by
  unfold usbTask
  split
  · exact ⟨rfl, rfl, rfl⟩
  · split <;> exact ⟨rfl, rfl, rfl⟩

/-- `USB_USBTask` keeps the unread bytes unless it configures the endpoint. -/
theorem Inv.out_usbTask (h : s.Inv) (hrewinds : ¬ s.Rewinds) :
    s.usbTask.out.WF ∧ s.usbTask.out.unread = if s.reconfigures then [] else s.out.unread := by
  unfold usbTask
  split
  · next hstate => simp [reconfigures, Device.configures, hstate, h.out]
  · next hstate =>
    split
    · next hset =>
      have hno : s.reconfigures = false := by simp [reconfigures, hset]
      rw [hno]
      exact ⟨h.out.stall, rfl⟩
    · next hset =>
      have hno : s.reconfigures = false := by simp [reconfigures, hset]
      have hposition : s.out.position = 0 := by
        by_contra hne
        exact hrewinds ⟨hstate, hset, hne⟩
      rw [hno]
      refine ⟨h.out.reset, ?_⟩
      simp [OutEndpoint.unread, OutEndpoint.reset, hposition]
    · cases s.reconfigures with
      | true => exact ⟨.configure _, OutEndpoint.unread_of_not_trnCompl rfl⟩
      | false => exact ⟨h.out, rfl⟩

/-- What a step does to the bytes that have arrived: it passes them on, or it drops those in the
endpoint. -/
def Moves (s : Serial) (ev : Event) : Prop :=
  s.returns ev ++ (s.step ev).pending = s.pending ++ s.arrives ev ∨
    s.RunsTask ev ∧ s.reconfigures = true ∧
      s.returns ev ++ (s.step ev).pending = s.ring.contents ++ s.receivedByte.toList ∧
        s.arrives ev = []

private theorem Passes.moves {ev : Event} (h : s.Passes (s.step ev) (s.returns ev))
    (harrives : s.arrives ev = []) : (s.step ev).Inv ∧ s.Moves ev := by
  refine ⟨h.inv, .inl ?_⟩
  rw [h.pending_eq, harrives, List.append_nil]

/-- An event with `USB_USBTask`, behind which comes the statement `st`. -/
theorem Inv.moves_usbTask (h : s.Inv) (st : Stmt) {ev : Event} (hruns : s.RunsTask ev)
    (hrewinds : ¬ s.Rewinds) (hstep : s.step ev = { s.usbTask with stmt := st })
    (hat : ∀ s' : Serial, s'.receivedByte = none → s'.At st) (hbyte : s.receivedByte = none)
    (hreturns : s.returns ev = []) (harrives : s.arrives ev = []) :
    (s.step ev).Inv ∧ s.Moves ev := by
  obtain ⟨hring, hreceived, -⟩ := usbTask_frame s
  obtain ⟨hwf, hunread⟩ := h.out_usbTask hrewinds
  have hpending : (s.step ev).pending = s.ring.contents ++
      (s.receivedByte.toList ++ if s.reconfigures then [] else s.out.unread) := by
    rw [hstep, ← hunread, ← hring, ← hreceived]
    rfl
  refine ⟨?_, ?_⟩
  · rw [hstep]
    exact ⟨hring ▸ h.ring, hwf, hat _ (hreceived.trans hbyte)⟩
  · rw [Moves, hpending, hreturns, harrives]
    cases hrec : s.reconfigures with
    | true => exact .inr ⟨hruns, rfl, by simp, rfl⟩
    | false => exact .inl (by simp [pending])

/-- What an event of the host or the bus leaves alone. -/
structure Undisturbed (s s' : Serial) : Prop where
  stmt : s'.stmt = s.stmt
  ring : s'.ring = s.ring
  receivedByte : s'.receivedByte = s.receivedByte
  selected : s.stmt.onSelected = true → s'.selected = s.selected
  /-- A packet that is there. -/
  out : s.out.trnCompl = true → s'.out.trnCompl = true ∧ s'.out.length = s.out.length ∧
    s'.out.cnt = s.out.cnt ∧ s'.out.position = s.out.position

private theorem Undisturbed.reading {s' : Serial} (hu : s.Undisturbed s')
    (hstmt : s.stmt.onSelected = true) (h : s.Reading) : s'.Reading := by
  obtain ⟨htrn, hlength, hcnt, -⟩ := hu.out h.trnCompl
  exact ⟨(hu.selected hstmt).trans h.selected, htrn, by rw [hlength, hcnt, h.length_eq]⟩

private theorem Undisturbed.at_stmt {s' : Serial} (hu : s.Undisturbed s') (h : s.At s.stmt) :
    s'.At s'.stmt := by
  rw [hu.stmt]
  have hsel := hu.selected
  have hread := hu.reading
  cases hst : s.stmt <;> rw [hst] at h hsel hread
  case isOutReceived =>
    exact ⟨hu.receivedByte.trans h.1, hu.ring ▸ h.2.1, (hsel rfl).trans h.2.2⟩
  case bytesInEndpoint =>
    exact ⟨hu.receivedByte.trans h.1, hu.ring ▸ h.2.1, hread rfl h.2.2⟩
  case read8 =>
    obtain ⟨-, -, hcnt, hposition⟩ := hu.out h.2.2.1.trnCompl
    exact ⟨hu.receivedByte.trans h.1, hu.ring ▸ h.2.1, hread rfl h.2.2.1, by
      rw [hcnt, hposition]
      exact h.2.2.2⟩
  case bytesLeft => exact ⟨hu.ring ▸ h.1, hread rfl h.2⟩
  case clearOut =>
    obtain ⟨-, -, hcnt, hposition⟩ := hu.out h.2.1.trnCompl
    exact ⟨hu.ring ▸ h.1, hread rfl h.2.1, by
      rw [hcnt, hposition]
      exact h.2.2⟩
  case insert => exact (congrArg RingBuffer.contents hu.ring).trans h
  case idle | isEmpty | classTask | usbTask => exact hu.receivedByte.trans h
  case remove => exact ⟨hu.receivedByte.trans h.1, hu.ring ▸ h.2⟩
  case isFull | isConfigured | mayReceive | selectEndpoint =>
    exact ⟨hu.receivedByte.trans h.1, hu.ring ▸ h.2⟩

private theorem Undisturbed.moves {ev : Event} (hu : s.Undisturbed (s.step ev)) (h : s.Inv)
    (hwf : (s.step ev).out.WF) (hreturns : s.returns ev = [])
    (hunread : (s.step ev).out.unread = s.out.unread ++ s.arrives ev) :
    (s.step ev).Inv ∧ s.Moves ev := by
  refine ⟨⟨hu.ring ▸ h.ring, hwf, hu.at_stmt h.stmt⟩, .inl ?_⟩
  simp [pending, hu.ring, hu.receivedByte, hreturns, hunread]

/-- An event that changes nothing but the device and its requests. -/
theorem Inv.moves_device (h : s.Inv) {ev : Event} {device : Device} {setHalt : Option Bool}
    (hstep : s.step ev = { s with device := device, setHalt := setHalt })
    (hreturns : s.returns ev = []) (harrives : s.arrives ev = []) :
    (s.step ev).Inv ∧ s.Moves ev := by
  refine Undisturbed.moves ?_ h ?_ hreturns ?_
  · rw [hstep]
    exact ⟨rfl, rfl, rfl, fun _ ↦ rfl, fun htrn ↦ ⟨htrn, rfl, rfl, rfl⟩⟩
  · rw [hstep]
    exact h.out
  · rw [hstep, harrives, List.append_nil]

private theorem Inv.moves_packet (h : s.Inv) (data : List UInt8) :
    (s.step (.packet data)).Inv ∧ s.Moves (.packet data) := by
  by_cases hready : s.out.ready ∧ data.length ≤ 64
  · have htrn := OutEndpoint.trnCompl_of_ready hready.1
    obtain ⟨hwf, hunread⟩ := h.out.store htrn data
    have hstep : s.step (.packet data) = { s with out := s.out.store data } := if_pos hready
    have harrives : s.arrives (.packet data) = data := if_pos hready
    refine Undisturbed.moves ?_ h ?_ rfl ?_
    · rw [hstep]
      refine ⟨rfl, rfl, rfl, fun _ ↦ rfl, fun hno ↦ ?_⟩
      rw [htrn] at hno
      cases hno
    · rw [hstep]
      exact hwf
    · rw [hstep, harrives, OutEndpoint.unread_of_not_trnCompl htrn]
      exact hunread
  · exact h.moves_device (if_neg hready) rfl (if_neg hready)

private theorem Inv.moves_reset (h : s.Inv) (hstmt : s.stmt.onSelected = false) :
    (s.step (.bus .reset)).Inv ∧ s.Moves (.bus .reset) := by
  refine Undisturbed.moves ⟨rfl, rfl, rfl, fun hon ↦ ?_, fun htrn ↦ ⟨htrn, rfl, rfl, rfl⟩⟩ h
    h.out.clear rfl ?_
  · rw [hstmt] at hon
    cases hon
  · exact (List.append_nil _).symm

private theorem Inv.moves_cpu (h : s.Inv) (control : Control)
    (hrewinds : s.stmt = .usbTask → ¬ s.Rewinds) :
    (s.step (.cpu control)).Inv ∧ s.Moves (.cpu control) := by
  by_cases hst : s.stmt = .usbTask
  · refine h.moves_usbTask .isEmpty hst (hrewinds hst) ?_ (fun _ hb ↦ hb) (h.at_eq hst) ?_ rfl
    · simp only [step, cpuStep, hst]
    · simp [returns, hst]
  · exact (h.passes_cpuStep control hst).moves rfl

/-- Every event keeps the invariant, and moves the bytes on or drops those in the endpoint. -/
theorem Inv.step (h : s.Inv) {ev : Event} (hev : s.InOrder ev) :
    (s.step ev).Inv ∧ s.Moves ev := by
  cases ev with
  | call =>
    by_cases hst : s.stmt = .idle
    · have hstep : s.step .call = { s with stmt := .isEmpty } := if_pos hst
      refine Passes.moves ?_ rfl
      rw [hstep]
      exact h.passes_of_eq (h.at_eq hst) rfl rfl rfl
    · exact h.moves_device (if_neg hst) rfl rfl
  | cpu control => exact h.moves_cpu control hev.2
  | otherTask =>
    by_cases hst : s.stmt = .idle
    · refine h.moves_usbTask .idle hst (hev.2 hst) ?_ (fun _ hb ↦ hb) (h.at_eq hst) rfl rfl
      have hstep : s.step .otherTask = s.usbTask := if_pos hst
      rw [hstep, ← hst, ← (usbTask_frame s).2.2]
    · exact h.moves_device (if_neg hst) rfl rfl
  | bus e =>
    cases e with
    | reset => exact h.moves_reset (hev.1 rfl)
    | suspend => exact h.moves_device rfl rfl rfl
    | resume => exact h.moves_device rfl rfl rfl
  | request r =>
    by_cases hset : s.setHalt.isSome
    · exact h.moves_device (if_pos hset) rfl rfl
    · exact h.moves_device (if_neg hset) rfl rfl
  | halt set =>
    by_cases hset : s.setHalt.isSome ∨ s.device.setup.isSome
    · exact h.moves_device (if_pos hset) rfl rfl
    · exact h.moves_device (if_neg hset) rfl rfl
  | packet data => exact h.moves_packet data

/-! ### Whole runs -/

/-- The port at the start. -/
theorem inv_start : ({} : Serial).Inv :=
  ⟨RingBuffer.inv_initBuffer (by decide), ⟨Nat.le_refl 0, Nat.le_refl 0, fun _ ↦ rfl⟩, rfl⟩

/-- The host opens the port. -/
def opening : List Event :=
  [.bus .reset, .request (.setAddress 5), .otherTask, .request (.setConfiguration 1), .otherTask,
    .request (.setLineEncoding 115200), .otherTask]

/-- A call, up to its end if a byte is there. -/
def calling : List Event := .call :: .replicate 15 (.cpu ⟨false, false, 0⟩)

/-- Whatever the host and the bus do, as long as no reset comes in the middle of a read and no halt
is cleared for a packet that has been read in part: the bytes returned are bytes that the host has
sent, in their order, none of them twice. -/
theorem returned_sublist_sent {evs : List Event}
    (hevs : Guarded Serial.step InOrder ({} : Serial) evs) :
    (observed returns Serial.step {} evs ++ (run Serial.step {} evs).pending).Sublist
      (observed arrives Serial.step {} evs) := by
  refine hevs.sublist (fun _ _ h hev ↦ (h.step hev).1) (fun s ev h hev ↦ ?_) inv_start
  rcases (h.step hev).2 with heq | ⟨-, -, heq, -⟩
  · rw [heq]
  · rw [heq, pending, ← List.append_assoc, List.append_assoc]
    exact List.sublist_append_left ..

/-- A reset behind `Endpoint_BytesInEndpoint`: the call returns a byte of the control endpoint. -/
example : observed returns Serial.step {} (opening ++ [.packet [0x64], .call] ++
    .replicate 7 (.cpu ⟨true, true, 0x55⟩) ++ [.bus .reset] ++
      .replicate 8 (.cpu ⟨true, true, 0x55⟩)) = [0x55] := by decide +kernel

/-- The host opens the port again in front of an unread byte, which is lost. -/
def reopened : List Event :=
  opening ++ [.packet [0x64, 0x12]] ++ calling ++ opening ++ [.packet [0x67]] ++ calling

/-- The byte between two that are returned is lost when the port is opened again. -/
theorem returned_sublist_sent_reopened :
    observed returns Serial.step {} reopened = [0x64, 0x67] ∧
      (observed returns Serial.step {} reopened ++
        (run Serial.step {} reopened).pending).Sublist [0x64, 0x12, 0x67] :=
  ⟨by decide +kernel, returned_sublist_sent (by decide +kernel)⟩

/-- Without a loss, what is returned and what is pending is what has arrived. -/
theorem Inv.returns_append_pending (h : s.Inv) {ev : Event} (hev : s.Lossless ev) :
    s.returns ev ++ (s.step ev).pending = s.pending ++ s.arrives ev := by
  rcases (h.step hev.1).2 with heq | ⟨hruns, hrec, heq, harrives⟩
  · exact heq
  · rw [heq, harrives, pending, hev.2 hruns hrec]
    simp

/-- If the host does not configure the device again in front of unread bytes either, none is
lost. -/
theorem returned_append_pending {evs : List Event}
    (hevs : Guarded Serial.step Lossless ({} : Serial) evs) :
    observed returns Serial.step {} evs ++ (run Serial.step {} evs).pending =
      observed arrives Serial.step {} evs :=
  hevs.conserved (fun _ _ h hev ↦ (h.step hev.1).1) (fun _ _ h hev ↦ h.returns_append_pending hev)
    inv_start

/-- Four bytes in two packets, of which three are returned. -/
def threeCalls : List Event :=
  opening ++ [.packet [0x64, 0x12]] ++ calling ++ calling ++ [.packet [0x34, 0x67]] ++ calling

/-- Three calls return three bytes, and one is pending. -/
theorem returned_append_pending_threeCalls :
    observed returns Serial.step {} threeCalls = [0x64, 0x12, 0x34] ∧
      observed returns Serial.step {} threeCalls ++ (run Serial.step {} threeCalls).pending =
        [0x64, 0x12, 0x34, 0x67] :=
  ⟨by decide +kernel, returned_append_pending (by decide +kernel)⟩

/-! ### A call returns -/

/-- The port is open and no request waits. -/
structure Open (s : Serial) : Prop where
  accepts : s.device.accepts = true
  setup : s.device.setup = none
  setHalt : s.setHalt = none

/-- How many statements are left, at most, if a byte is pending. -/
def rank (s : Serial) : Nat :=
  match s.stmt with
  | .idle => 0
  | .remove => 1
  | .usbTask => if s.ring.isEmpty then 16 else 3
  | .classTask => if s.ring.isEmpty then 17 else 4
  | .insert => if s.receivedByte.isNone then 18 else 5
  | .clearOut => if s.receivedByte.isNone then 19 else 6
  | .bytesLeft => if s.receivedByte.isNone then 20 else 7
  | .read8 => 8
  | .bytesInEndpoint => 9
  | .isOutReceived => 10
  | .selectEndpoint => 11
  | .mayReceive => 12
  | .isConfigured => 13
  | .isFull => 14
  | .isEmpty => if s.ring.isEmpty then 15 else 2

private theorem rank_le (s : Serial) : s.rank ≤ 20 := by
  unfold rank
  split <;> first | omega | (split <;> omega)

private theorem Open.usbTask_eq (h : s.Open) : s.usbTask = s := by
  have hno : s.reconfigures = false := by
    simp [reconfigures, Device.configures_of_setup_none h.setup]
  unfold usbTask
  rw [hno, Device.usbTask_of_setup_none h.setup]
  split
  · rfl
  · split
    · next hset => simp [h.setHalt] at hset
    · next hset => simp [h.setHalt] at hset
    · rfl

/-- A statement of an open port passes the bytes on. -/
theorem Open.passes (hopen : s.Open) (h : s.Inv) (control : Control) :
    s.Passes (s.cpuStep control) (if s.stmt = .remove then [s.ring.peek] else []) := by
  by_cases hst : s.stmt = .usbTask
  · simp only [cpuStep, hst, hopen.usbTask_eq]
    exact h.passes_of_eq (h.at_eq hst) rfl rfl rfl
  · exact h.passes_cpuStep control hst

private theorem cpuStep_device (hst : s.stmt ≠ .usbTask) (control : Control) :
    (s.cpuStep control).device = s.device ∧ (s.cpuStep control).setHalt = s.setHalt := by
  unfold cpuStep
  grind

private theorem Open.cpuStep (hopen : s.Open) (control : Control) : (s.cpuStep control).Open := by
  by_cases hst : s.stmt = .usbTask
  · simp only [Serial.cpuStep, hst, hopen.usbTask_eq]
    exact ⟨hopen.accepts, hopen.setup, hopen.setHalt⟩
  · obtain ⟨hdevice, hset⟩ := cpuStep_device hst control
    exact ⟨hdevice ▸ hopen.accepts, hdevice ▸ hopen.setup, hset ▸ hopen.setHalt⟩

/-- With a byte pending, every statement brings the end of the call nearer. -/
theorem Open.rank_lt (hopen : s.Open) (h : s.Inv) (hpending : s.pending ≠ [])
    (hcall : s.stmt ≠ .idle) (control : Control) : (s.cpuStep control).rank < s.rank := by
  have haccepts := hopen.accepts
  have hunread (hempty : s.ring.contents = []) (hbyte : s.receivedByte = none) :
      s.out.trnCompl = true ∧ s.out.cnt ≠ s.out.position := by
    have hne : s.out.unread ≠ [] := by simpa [pending, hempty, hbyte] using hpending
    constructor
    · by_contra hno
      exact hne (OutEndpoint.unread_of_not_trnCompl (Bool.eq_false_iff.mpr hno))
    · exact fun heq ↦ hne (OutEndpoint.unread_of_position_eq heq.symm)
  cases hst : s.stmt with
  | idle => exact absurd hst hcall
  | remove => simp [rank, Serial.cpuStep, hst]
  | usbTask =>
    simp only [rank, Serial.cpuStep, hst, hopen.usbTask_eq]
    split <;> decide
  | classTask =>
    simp only [rank, Serial.cpuStep, hst]
    split <;> decide
  | insert =>
    have hempty : s.ring.contents = [] := h.at_eq hst
    simp only [rank, Serial.cpuStep, hst]
    cases hbyte : s.receivedByte with
    | none => simp [(RingBuffer.isEmpty_iff _).mpr hempty]
    | some b =>
      have hinsert : (s.ring.insert b).isEmpty = false := by
        rw [Bool.eq_false_iff, ne_eq, RingBuffer.isEmpty_iff,
          RingBuffer.contents_insert h.ring (h.isFull_of_contents hempty)]
        simp
      simp [hinsert]
  | clearOut =>
    obtain ⟨-, hreading, -⟩ := h.at_eq hst
    cases hbyte : s.receivedByte <;>
      simp [rank, Serial.cpuStep, hst, hreading.selected, hbyte]
  | bytesLeft =>
    obtain ⟨-, hreading⟩ := h.at_eq hst
    cases hbyte : s.receivedByte <;> cases hhas : s.out.hasBytes <;>
      simp [rank, Serial.cpuStep, hst, hreading.selected, hbyte, hhas]
  | read8 =>
    obtain ⟨-, -, hreading, -⟩ := h.at_eq hst
    simp [rank, Serial.cpuStep, hst, hreading.selected]
  | bytesInEndpoint =>
    obtain ⟨hbyte, hempty, hreading⟩ := h.at_eq hst
    have hhas : s.out.hasBytes = true := by
      rw [OutEndpoint.hasBytes, bne_iff_ne, hreading.length_eq]
      exact (hunread hempty hbyte).2
    simp [rank, Serial.cpuStep, hst, hreading.selected, hhas]
  | isOutReceived =>
    obtain ⟨hbyte, hempty, hselected⟩ := h.at_eq hst
    simp [rank, Serial.cpuStep, hst, hselected, (hunread hempty hbyte).1]
  | selectEndpoint => simp [rank, Serial.cpuStep, hst]
  | mayReceive => simp [rank, Serial.cpuStep, hst, haccepts]
  | isConfigured =>
    have hstate : s.device.deviceState = .configured := by
      rw [Device.accepts, Bool.and_eq_true, beq_iff_eq] at haccepts
      exact haccepts.1
    simp [rank, Serial.cpuStep, hst, hstate]
  | isFull =>
    obtain ⟨-, hempty⟩ := h.at_eq hst
    simp [rank, Serial.cpuStep, hst, h.isFull_of_contents hempty]
  | isEmpty =>
    cases hempty : s.ring.isEmpty <;> simp [rank, Serial.cpuStep, hst, hempty]

private theorem cpuStep_ne_idle (hcall : s.stmt ≠ .idle) (hst : s.stmt ≠ .remove)
    (control : Control) :
    (s.cpuStep control).stmt ≠ .idle := by
  unfold Serial.cpuStep
  grind

/-- With a byte pending, a call returns the first one, after no more statements than its rank. -/
theorem Open.returns_of_pending (hopen : s.Open) (h : s.Inv) (hcall : s.stmt ≠ .idle) {b : UInt8}
    {bs : List UInt8} (hpending : s.pending = b :: bs) (control : Control) :
    ∃ n ≤ s.rank, observed returns Serial.step s (.replicate n (.cpu control)) = [b] ∧
      (run Serial.step s (.replicate n (.cpu control))).stmt = .idle := by
  induction hrank : s.rank using Nat.strong_induction_on generalizing s with
  | _ r ih =>
    have hlt := hopen.rank_lt h (by simp [hpending]) hcall control
    have hpasses := hopen.passes h control
    by_cases hst : s.stmt = .remove
    · -- the last statement
      rw [if_pos hst] at hpasses
      have hpeek := hpasses.pending_eq
      rw [hpending, List.singleton_append, List.cons.injEq] at hpeek
      refine ⟨1, by omega, ?_, ?_⟩
      · simp [observed, returns, hst, hpeek.1]
      · simp [run, Serial.step, Serial.cpuStep, hst]
    · rw [if_neg hst] at hpasses
      have hpending' : (s.cpuStep control).pending = b :: bs := hpasses.pending_eq.trans hpending
      obtain ⟨n, hn, hreturns, hidle⟩ := ih _ (hrank ▸ hlt) (hopen.cpuStep control) hpasses.inv
        (cpuStep_ne_idle hcall hst control) hpending' rfl
      refine ⟨n + 1, by omega, ?_, hidle⟩
      rw [List.replicate_succ, observed]
      have hnone : s.returns (.cpu control) = [] := if_neg hst
      rw [hnone, List.nil_append]
      exact hreturns

/-- In every such run, a call of an open port that finds a byte pending returns the first one after
at most twenty statements. -/
theorem getChar_returns {evs : List Event} (hevs : Guarded Serial.step InOrder ({} : Serial) evs)
    (hopen : (run Serial.step {} evs).Open) (hcall : (run Serial.step {} evs).stmt ≠ .idle)
    {b : UInt8} {bs : List UInt8} (hpending : (run Serial.step {} evs).pending = b :: bs)
    (control : Control) :
    ∃ n ≤ 20,
      observed returns Serial.step (run Serial.step {} evs) (.replicate n (.cpu control)) = [b] ∧
        (run Serial.step (run Serial.step {} evs) (.replicate n (.cpu control))).stmt = .idle := by
  have hinv := hevs.invariant (fun _ _ h hev ↦ (h.step hev).1) inv_start
  obtain ⟨n, hn, hreturns, hidle⟩ := hopen.returns_of_pending hinv hcall hpending control
  exact ⟨n, hn.trans (rank_le _), hreturns, hidle⟩

/-- A call on a packet of two bytes. -/
theorem getChar_returns_packet :
    ∃ n ≤ 20, observed returns Serial.step
        (run Serial.step {} (opening ++ [.packet [0x64, 0x12], .call]))
        (.replicate n (.cpu ⟨false, false, 0⟩)) = [0x64] ∧
      (run Serial.step (run Serial.step {} (opening ++ [.packet [0x64, 0x12], .call]))
        (.replicate n (.cpu ⟨false, false, 0⟩))).stmt = .idle :=
  have hpending : (run Serial.step {} (opening ++ [.packet [0x64, 0x12], .call])).pending =
      [0x64, 0x12] := by decide +kernel
  getChar_returns (by decide +kernel) ⟨by decide +kernel, by decide +kernel, by decide +kernel⟩
    (by decide +kernel) hpending ⟨false, false, 0⟩

end Serial

end HorrorScope.Usb
