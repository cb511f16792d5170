import HorrorScope.Usb.Sender

/-!
# What the host gets

Any number of calls of `USB_serial_put_char` and `USB_serial_put_buf`, whatever the host and the bus
do in between. A byte on its way is still with the caller, with the function that writes it, in the
buffer, or in the packet that waits for the host, and every statement leaves it where it is, moves
it on or drops it. The order of the bytes is kept because a function writes to the endpoint only
behind a look at it: then no packet is waiting, or the device is not configured any more and
nothing is written there.
-/

namespace HorrorScope.Usb

open HorrorScope.Base

/-! ### The device -/

/-- A reset has been there, and `USB_USBTask` has not. -/
def Device.Down (u : Device) : Prop := u.configurationNumber = 0 ∧ u.deviceState ≠ .configured

private theorem Device.Down.busEvent {u : Device} (h : u.Down) (e : BusEvent) :
    (u.busEvent e).Down := by
  cases e with
  | suspend => exact ⟨h.1, DeviceState.noConfusion⟩
  | resume =>
    refine ⟨h.1, ?_⟩
    simp only [Device.busEvent, h.1, ne_eq, not_true_eq_false, if_false]
    split <;> exact DeviceState.noConfusion
  | reset => exact ⟨rfl, DeviceState.noConfusion⟩

private theorem Device.Down.receive {u : Device} (h : u.Down) (r : Request) :
    (u.receive r).Down := by
  unfold Device.receive
  split <;> exact h

private theorem Device.Down.not_accepts {u : Device} (h : u.Down) : u.accepts = false := by
  simp [accepts, h.2]

/-- Only a `SetConfiguration` brings the device up again. -/
theorem Device.Down.usbTask {u : Device} (h : u.Down) (hno : u.configures = false) :
    u.usbTask.Down := by
  unfold Device.usbTask
  split
  · exact h
  · next hstate =>
    split
    · exact h
    · next r hsetup =>
      cases r with
      | setAddress wValue =>
        refine ⟨h.1, ?_⟩
        simp only [processControlRequest]
        split <;> exact DeviceState.noConfusion
      | setConfiguration wValue =>
        have hgt : wValue.toUInt8 > FIXED_NUM_CONFIGURATIONS := by
          simpa [configures, hstate, hsetup] using hno
        simp only [processControlRequest, setConfiguration, if_pos hgt]
        exact h
      | setLineEncoding baudRateBPS => exact h
      | setControlLineState wValue => exact h

/-! ### The endpoint -/

namespace InEndpoint

variable (ep : InEndpoint)

/-- The bytes of the next packet are inside the buffer, and there are none while a packet waits. -/
structure WF : Prop where
  position_le : ep.position ≤ CDC_RX_EPSIZE
  length_le : ep.length ≤ CDC_RX_EPSIZE
  position_eq_zero : ep.busNack = false → ep.position = 0

variable {ep}

private theorem packet_of_busNack (h : ep.busNack = true) : ep.packet = [] := if_pos h

private theorem buffered_of_position (h : ep.position = 0) : ep.buffered = [] := by
  rw [buffered, h, List.take_zero]

private theorem held_of_busNack (h : ep.busNack = true) : ep.held = ep.buffered := by
  rw [held, packet_of_busNack h, List.nil_append]

private theorem WF.clearIn (h : ep.WF) : ep.clearIn.WF := ⟨Nat.zero_le _, h.length_le, fun _ ↦ rfl⟩

/-- The bytes of the next packet become the packet. -/
theorem held_clearIn (h : ep.busNack = true) : ep.clearIn.held = ep.held := by
  rw [held, buffered_of_position rfl, held_of_busNack h, List.append_nil]
  rfl

private theorem WF.write8 (h : ep.WF) (hnack : ep.busNack = true)
    (hlt : ep.position < CDC_RX_EPSIZE) (b : UInt8) : (ep.write8 b).WF where
  position_le := hlt
  length_le := h.length_le
  position_eq_zero hno := by
    rw [show (ep.write8 b).busNack = true from hnack] at hno
    cases hno

private theorem held_write8 (hnack : ep.busNack = true) (hlt : ep.position < CDC_RX_EPSIZE)
    (b : UInt8) :
    (ep.write8 b).held = ep.held ++ [b] := by
  have hdata : (ep.write8 b).data = ep.data.set ⟨ep.position, hlt⟩ b := dif_pos hlt
  have hlen : ep.position < ep.data.toList.length := by
    rw [List.Vector.toList_length]
    exact hlt
  have hnack' : (ep.write8 b).busNack = true := hnack
  rw [held_of_busNack hnack', held_of_busNack hnack, buffered, buffered, hdata,
    List.Vector.toList_set]
  change (ep.data.toList.set ep.position b).take (ep.position + 1) = _
  rw [List.take_add_one, List.take_set_of_le (Nat.le_refl _), List.getElem?_set_self hlen]
  rfl

private theorem WF.configure (ep : InEndpoint) : ep.configure.WF :=
  ⟨Nat.zero_le _, Nat.le_refl _, fun _ ↦ rfl⟩

private theorem held_configure (ep : InEndpoint) : ep.configure.held = [] := by
  rw [held_of_busNack rfl, buffered_of_position rfl]

private theorem WF.clear (h : ep.WF) : ep.clear.WF :=
    ⟨h.position_le, h.length_le, h.position_eq_zero⟩

private theorem WF.give (h : ep.WF) : ep.give.WF :=
  ⟨h.position_le, h.length_le, fun hno ↦ Bool.noConfusion hno⟩

private theorem packet_append_held_give (ep : InEndpoint) :
    ep.packet ++ ep.give.held = ep.held := by
  rw [held_of_busNack rfl]
  rfl

end InEndpoint

namespace Sender

variable (s : Sender)

/-! ### What holds in front of each statement -/

/-- `CDC_Device_SendByte` or `CDC_Device_SendData` is running. -/
def Stmt.sending : Stmt → Bool
  | .selectSend | .waitFirst | .isAllowed | .clearFull | .waitFull | .write8 => true
  | _ => false

/-- `CDC_Device_USBTask` is running. -/
def Stmt.flushing : Stmt → Bool
  | .classMay | .classSelect | .classReady | .flushMay | .flushSelect | .flushBytes | .flushFull
  | .flushClear | .flushWait | .flushAgain => true
  | _ => false

/-- The statement works on the endpoint that is selected. -/
def Stmt.onSelected : Stmt → Bool
  | .isInReady | .waitFirst | .isAllowed | .clearFull | .waitFull | .write8 | .classReady
  | .flushBytes | .flushFull | .flushClear | .flushWait | .flushAgain => true
  | _ => false

/-- What the conditions and the looks at the endpoint before a statement have found. -/
def Looked : Stmt → Prop
  | .select | .isInReady => s.todo ≠ []
  | .maySend => s.todo ≠ [] ∧ (s.inp.busNack = true ∨ s.device.Down)
  | .flushMay => s.inp.busNack = true ∨ s.device.Down
  | .selectSend | .waitFirst | .flushSelect | .flushBytes | .flushFull | .flushClear =>
    s.inp.busNack = true
  | .isAllowed | .clearFull | .flushAgain => s.selected = .dataIn → s.inp.busNack = true
  | .waitFull => s.selected = .dataIn → s.inp.position = 0
  | .write8 => s.selected = .dataIn → s.inp.busNack = true ∧ s.inp.position < CDC_RX_EPSIZE
  | _ => True

/-- What holds between any two statements. -/
structure Inv : Prop where
  inp : s.inp.WF
  todo : s.stmt = .idle → s.todo = []
  chunk : s.stmt.sending = false → s.chunk = []
  selected : s.stmt.onSelected = true → s.selected = .dataIn ∨ s.device.Down
  looked : s.Looked s.stmt

/-- No statement drops a byte: the port is open where the functions look, no wait ends with an
error, no reset comes in front of a write, and the endpoint is not configured while it holds
bytes. -/
def Lossless : Event → Prop
  | .cpu env =>
    (s.stmt = .check → s.todo ≠ [] → s.device.maySend = true) ∧
    (s.stmt = .maySend → s.device.accepts = true) ∧
    (s.stmt = .waitFirst ∨ s.stmt = .waitFull → s.waitUntilReady env ≠ .failed) ∧
    (s.stmt = .write8 → s.selected = .dataIn) ∧
    (s.stmt = .usbTask → s.device.configures = true → s.inp.held = [])
  | _ => True

/-- Whether an event loses nothing can be computed. -/
instance : (ev : Event) → Decidable (s.Lossless ev)
  | .cpu _ => inferInstanceAs (Decidable (_ ∧ _ ∧ _ ∧ _ ∧ _))
  | .call _ | .bus _ | .request _ | .poll => inferInstanceAs (Decidable True)

variable {s}

/-- What has been looked at in front of a statement. -/
theorem Inv.looked_eq (h : s.Inv) {st : Stmt} (hs : s.stmt = st) : s.Looked st := hs ▸ h.looked

/-- Outside the functions that write there is no chunk. -/
theorem Inv.chunk_eq (h : s.Inv) {st : Stmt} (hs : s.stmt = st) (hst : st.sending = false) :
    s.chunk = [] := h.chunk (hs ▸ hst)

private theorem Inv.selected_eq (h : s.Inv) {st : Stmt} (hs : s.stmt = st)
    (hst : st.onSelected = true) :
    s.selected = .dataIn ∨ s.device.Down := h.selected (hs ▸ hst)

/-- A step that keeps every byte. -/
structure Passes (s s' : Sender) : Prop where
  inv : s'.Inv
  content_eq : s'.content = s.content

/-- A step that moves no byte. -/
theorem Inv.passes_of_eq {s' : Sender} (h : s.Inv) (hinp : s'.inp = s.inp)
    (hchunk : s'.chunk = s.chunk) (htodo : s'.todo = s.todo) (hidle : s'.stmt ≠ .idle)
    (hsending : s'.stmt.sending = true ∨ s.chunk = [])
    (hselected : s'.stmt.onSelected = true → s'.selected = .dataIn ∨ s'.device.Down)
    (hlooked : s'.Looked s'.stmt) : s.Passes s' where
  inv :=
    { inp := hinp ▸ h.inp
      todo := fun hstmt ↦ absurd hstmt hidle
      chunk := by
        intro hstmt
        rcases hsending with hsend | hempty
        · rw [hstmt] at hsend
          cases hsend
        · exact hchunk.trans hempty
      selected := hselected
      looked := hlooked }
  content_eq := by rw [content, content, hinp, hchunk, htodo]

/-- What an event does to the bytes on their way. -/
structure Moves (s : Sender) (ev : Event) : Prop where
  inv : (s.step ev).Inv
  sublist : (s.delivers ev ++ (s.step ev).content).Sublist (s.content ++ s.puts ev)
  eq_of_lossless : s.Lossless ev → s.delivers ev ++ (s.step ev).content = s.content ++ s.puts ev

private theorem moves_of_eq {ev : Event} (hinv : (s.step ev).Inv)
    (heq : s.delivers ev ++ (s.step ev).content = s.content ++ s.puts ev) : s.Moves ev :=
  ⟨hinv, by rw [heq], fun _ ↦ heq⟩

private theorem Passes.moves {env : Env} (h : s.Passes (s.cpuStep env)) : s.Moves (.cpu env) :=
  moves_of_eq h.inv (h.content_eq.trans (List.append_nil _).symm)

/-- A statement that drops bytes, unless it is lossless. -/
theorem moves_of_sublist {env : Env} (hinv : (s.cpuStep env).Inv)
    (hsub : (s.cpuStep env).content.Sublist s.content)
    (heq : s.Lossless (.cpu env) → (s.cpuStep env).content = s.content) : s.Moves (.cpu env) where
  inv := hinv
  sublist := by
    change (s.cpuStep env).content.Sublist (s.content ++ [])
    rw [List.append_nil]
    exact hsub
  eq_of_lossless hev := (heq hev).trans (List.append_nil _).symm

private theorem nack_of_accepts (hlooked : s.inp.busNack = true ∨ s.device.Down)
    (haccepts : s.device.accepts = true) : s.inp.busNack = true := by
  rcases hlooked with hnack | hdown
  · exact hnack
  · rw [hdown.not_accepts] at haccepts
    cases haccepts

private theorem nack_of_ready {env : Env} (hready : s.waitUntilReady env = .ready)
    (hselected : s.selected = .dataIn) : s.inp.busNack = true := by
  unfold waitUntilReady at hready
  split at hready
  · next hin =>
    rw [inReady, if_pos hselected] at hin
    exact hin
  · split at hready <;> cases hready

/-- A look that finds the endpoint ready: there is no packet in it, or it is not the endpoint. -/
theorem nack_or_down {env : Env} (hon : s.selected = .dataIn ∨ s.device.Down)
    (hready : s.inReady env = true) : s.inp.busNack = true ∨ s.device.Down := by
  rcases hon with hselected | hdown
  · rw [inReady, if_pos hselected] at hready
    exact .inl hready
  · exact .inr hdown

/-! ### Clearing the endpoint -/

/-- `Endpoint_ClearIN` changes the endpoint only. -/
theorem clearIn_frame (s : Sender) :
    s.clearIn.device = s.device ∧ s.clearIn.selected = s.selected ∧ s.clearIn.chunk = s.chunk ∧
      s.clearIn.todo = s.todo := by
  unfold clearIn
  split <;> exact ⟨rfl, rfl, rfl, rfl⟩

private theorem held_clearIn (hnack : s.selected = .dataIn → s.inp.busNack = true) :
    s.clearIn.inp.held = s.inp.held := by
  unfold clearIn
  split
  · next hselected => exact InEndpoint.held_clearIn (hnack hselected)
  · rfl

/-- Behind `Endpoint_ClearIN` the buffer is empty. -/
theorem position_clearIn (hselected : s.selected = .dataIn) : s.clearIn.inp.position = 0 := by
  rw [clearIn, if_pos hselected]
  rfl

/-- Without bytes in the endpoint the buffer is empty. -/
theorem position_of_not_hasBytes {env : Env} (hselected : s.selected = .dataIn)
    (hno : ¬ s.hasBytes env = true) : s.inp.position = 0 := by
  rw [hasBytes, if_pos hselected, InEndpoint.hasBytes, bne_iff_ne, ne_eq, Decidable.not_not] at hno
  exact hno

private theorem Inv.wf_clearIn (h : s.Inv) : s.clearIn.inp.WF := by
  unfold clearIn
  split
  · exact h.inp.clearIn
  · exact h.inp

/-- Behind a write, wherever it went, the loop over the chunk goes on or ends. -/
theorem inv_written (hon : s.selected = .dataIn ∨ s.device.Down) {ep : InEndpoint} (hwf : ep.WF)
    (hnack : s.selected = .dataIn → ep.busNack = true) (rest : List UInt8) :
    ({ s with inp := ep, chunk := rest, stmt := if rest = [] then .classMay else .isAllowed } :
      Sender).Inv := by
  by_cases hrest : rest = []
  · rw [if_pos hrest]
    exact ⟨hwf, fun hst ↦ Stmt.noConfusion hst, fun _ ↦ hrest, fun hst ↦ Bool.noConfusion hst,
      trivial⟩
  · rw [if_neg hrest]
    exact ⟨hwf, fun hst ↦ Stmt.noConfusion hst, fun hst ↦ Bool.noConfusion hst,
      fun _ ↦ hon, hnack⟩

section

variable (h : s.Inv) (env : Env)

include h

/-- The packet that is cleared for the host has the bytes that were buffered. -/
theorem Inv.passes_clearIn (hon : s.selected = .dataIn ∨ s.device.Down)
    (hnack : s.selected = .dataIn → s.inp.busNack = true) (st : Stmt) (hidle : st ≠ .idle)
    (hsending : st.sending = true ∨ s.chunk = [])
    (hlooked : ({ s.clearIn with stmt := st } : Sender).Looked st) :
    s.Passes { s.clearIn with stmt := st } := by
  obtain ⟨hdevice, hselected, hchunk, htodo⟩ := clearIn_frame s
  refine ⟨⟨h.wf_clearIn, fun hst ↦ absurd hst hidle, fun hst ↦ ?_, fun _ ↦ ?_, hlooked⟩, ?_⟩
  · rcases hsending with hsend | hempty
    · rw [show st.sending = false from hst] at hsend
      cases hsend
    · exact hchunk.trans hempty
  · change s.clearIn.selected = .dataIn ∨ s.clearIn.device.Down
    rw [hselected, hdevice]
    exact hon
  · change s.clearIn.inp.held ++ (s.clearIn.chunk ++ s.clearIn.todo) = _
    rw [held_clearIn hnack, hchunk, htodo]
    rfl

/-! ### The statements -/

/-- The loop of `CDC_Device_USBTask` and of the functions that call it goes on to a statement that
assumes nothing. -/
theorem Inv.passes_to (hchunk : s.chunk = []) (st : Stmt) (hidle : st ≠ .idle)
    (hon : st.onSelected = false) (hlooked : s.Looked st) : s.Passes { s with stmt := st } := by
  refine h.passes_of_eq rfl rfl rfl hidle (.inr hchunk) (fun hst ↦ ?_) ?_
  · rw [show st.onSelected = true from hst] at hon
    cases hon
  · cases st <;> exact hlooked

/-- It goes on to a statement that works on the selected endpoint. -/
theorem Inv.passes_on (hon : s.selected = .dataIn ∨ s.device.Down) (st : Stmt) (hidle : st ≠ .idle)
    (hsending : st.sending = true ∨ s.chunk = []) (hlooked : s.Looked st) :
    s.Passes { s with stmt := st } :=
  h.passes_of_eq rfl rfl rfl hidle hsending (fun _ ↦ hon)
    (by cases st <;> exact hlooked)

/-- A `Endpoint_SelectEndpoint`. -/
theorem Inv.passes_select (st : Stmt) (hidle : st ≠ .idle)
    (hsending : st.sending = true ∨ s.chunk = [])
    (hlooked : ({ s with selected := .dataIn, stmt := st } : Sender).Looked st) :
    s.Passes { s with selected := .dataIn, stmt := st } :=
  h.passes_of_eq rfl rfl rfl hidle hsending (fun _ ↦ .inl rfl) hlooked

private theorem Inv.moves_check (hs : s.stmt = .check) : s.Moves (.cpu env) := by
  have hchunk := h.chunk_eq hs rfl
  by_cases hopen : s.device.maySend ∧ s.todo ≠ []
  · refine Passes.moves ?_
    simp only [cpuStep, hs]
    rw [if_pos hopen]
    exact h.passes_to hchunk .select Stmt.noConfusion rfl hopen.2
  · have hstep : s.cpuStep env = { s with todo := [], stmt := .idle } := by
      simp only [cpuStep, hs]
      exact if_neg hopen
    refine moves_of_sublist ?_ ?_ fun hev ↦ ?_
    · rw [hstep]
      exact ⟨h.inp, fun _ ↦ rfl, fun _ ↦ hchunk, fun hon ↦ Bool.noConfusion hon, trivial⟩
    · rw [hstep]
      exact (((List.nil_sublist _).append_left _).append_left _)
    · -- the loop ends because nothing is left
      have htodo : s.todo = [] := by
        by_contra hne
        exact hopen ⟨hev.1 hs hne, hne⟩
      rw [hstep, content, content, htodo]

private theorem Inv.moves_maySend (hs : s.stmt = .maySend) : s.Moves (.cpu env) := by
  have hchunk := h.chunk_eq hs rfl
  cases haccepts : s.device.accepts with
  | true =>
    have hnack := nack_of_accepts (h.looked_eq hs).2 haccepts
    refine Passes.moves ?_
    simp only [cpuStep, hs, haccepts, if_true]
    refine ⟨⟨h.inp, fun hst ↦ Stmt.noConfusion hst, fun hst ↦ Bool.noConfusion hst,
      fun hon ↦ Bool.noConfusion hon, hnack⟩, ?_⟩
    simp only [content, hchunk, List.take_append_drop, List.nil_append]
  | false =>
    have hstep : s.cpuStep env =
        { s with chunk := [], todo := s.todo.drop (CDC_RX_EPSIZE - 1), stmt := .classMay } := by
      simp only [cpuStep, hs, haccepts]
      rfl
    refine moves_of_sublist ?_ ?_ fun hev ↦ ?_
    · rw [hstep]
      exact ⟨h.inp, fun hst ↦ Stmt.noConfusion hst, fun _ ↦ rfl, fun hon ↦ Bool.noConfusion hon,
        trivial⟩
    · rw [hstep, content, content, hchunk]
      exact (List.drop_sublist _ _).append_left _
    · rw [hev.2.1 hs] at haccepts
      cases haccepts

/-- An error drops what has not been written. -/
theorem Inv.moves_giveUp (hfailed : s.waitUntilReady env = .failed)
    (hs : s.stmt = .waitFirst ∨ s.stmt = .waitFull) (hstep : s.cpuStep env = s.giveUp) :
    s.Moves (.cpu env) := by
  refine moves_of_sublist ?_ ?_ fun hev ↦ absurd hfailed (hev.2.2.1 hs)
  · rw [hstep]
    exact ⟨h.inp, fun hst ↦ Stmt.noConfusion hst, fun _ ↦ rfl, fun hon ↦ Bool.noConfusion hon,
      trivial⟩
  · rw [hstep]
    exact ((List.nil_sublist _).append_right _).append_left _

private theorem Inv.moves_waitFirst (hs : s.stmt = .waitFirst) : s.Moves (.cpu env) := by
  have hon := h.selected_eq hs rfl
  have hnack : s.inp.busNack = true := h.looked_eq hs
  cases hwait : s.waitUntilReady env with
  | ready =>
    refine Passes.moves ?_
    simp only [cpuStep, hs, hwait]
    exact h.passes_on hon .isAllowed Stmt.noConfusion (.inl rfl) fun _ ↦ hnack
  | failed => exact h.moves_giveUp env hwait (.inl hs) (by simp only [cpuStep, hs, hwait])
  | again =>
    refine Passes.moves ?_
    simp only [cpuStep, hs, hwait]
    exact ⟨h, rfl⟩

private theorem Inv.moves_waitFull (hs : s.stmt = .waitFull) : s.Moves (.cpu env) := by
  have hon := h.selected_eq hs rfl
  have hposition : s.selected = .dataIn → s.inp.position = 0 := h.looked_eq hs
  cases hwait : s.waitUntilReady env with
  | ready =>
    refine Passes.moves ?_
    simp only [cpuStep, hs, hwait]
    split
    · exact h.passes_on hon .isAllowed Stmt.noConfusion (.inl rfl) (nack_of_ready hwait)
    · refine h.passes_on hon .write8 Stmt.noConfusion (.inl rfl) fun hselected ↦ ?_
      refine ⟨nack_of_ready hwait hselected, ?_⟩
      rw [hposition hselected]
      decide
  | failed => exact h.moves_giveUp env hwait (.inr hs) (by simp only [cpuStep, hs, hwait])
  | again =>
    refine Passes.moves ?_
    simp only [cpuStep, hs, hwait]
    exact ⟨h, rfl⟩

private theorem Inv.moves_write8 (hs : s.stmt = .write8) : s.Moves (.cpu env) := by
  have hlooked : s.selected = .dataIn → s.inp.busNack = true ∧ s.inp.position < CDC_RX_EPSIZE :=
    h.looked_eq hs
  have hon := h.selected_eq hs rfl
  have hcpu : s.cpuStep env = s.write := by simp only [cpuStep, hs]
  cases hchunk : s.chunk with
  | nil =>
    refine Passes.moves ?_
    rw [hcpu, write]
    split
    · exact h.passes_to hchunk .classMay Stmt.noConfusion rfl trivial
    · next hcons =>
      rw [hchunk] at hcons
      cases hcons
  | cons b rest =>
    by_cases hselected : s.selected = .dataIn
    · obtain ⟨hnack, hlt⟩ := hlooked hselected
      refine Passes.moves ?_
      rw [hcpu]
      simp only [write, hchunk, if_pos hselected]
      refine ⟨inv_written hon (h.inp.write8 hnack hlt b) (fun _ ↦ hnack) rest, ?_⟩
      simp only [content, InEndpoint.held_write8 hnack hlt, hchunk, List.append_assoc,
        List.nil_append, List.cons_append]
    · -- a reset has come in between, and the byte goes to the control endpoint
      have hstep : s.cpuStep env =
          { s with chunk := rest, stmt := if rest = [] then .classMay else .isAllowed } := by
        rw [hcpu]
        simp only [write, hchunk, if_neg hselected]
      refine moves_of_sublist ?_ ?_ fun hev ↦ absurd (hev.2.2.2.1 hs) hselected
      · rw [hstep]
        exact inv_written hon h.inp (fun hno ↦ absurd hno hselected) rest
      · rw [hstep, content, content, hchunk]
        exact ((List.sublist_cons_self b rest).append_right _).append_left _

private theorem Inv.moves_usbTask (hs : s.stmt = .usbTask) : s.Moves (.cpu env) := by
  have hchunk := h.chunk_eq hs rfl
  have hcpu : s.cpuStep env = { s.runTask with stmt := .check } := by simp only [cpuStep, hs]
  have hwf : s.runTask.inp.WF := by
    unfold runTask
    dsimp only
    split
    · exact .configure _
    · exact h.inp
  have hinv : (s.cpuStep env).Inv := by
    rw [hcpu]
    exact ⟨hwf, fun hst ↦ Stmt.noConfusion hst, fun _ ↦ hchunk, fun hon ↦ Bool.noConfusion hon,
      trivial⟩
  have hheld : s.runTask.inp.held = if s.device.configures then [] else s.inp.held := by
    unfold runTask
    dsimp only
    split
    · exact InEndpoint.held_configure _
    · rfl
  have hcontent : (s.cpuStep env).content =
      (if s.device.configures then [] else s.inp.held) ++ (s.chunk ++ s.todo) := by
    rw [hcpu, ← hheld]
    rfl
  refine moves_of_sublist hinv ?_ fun hev ↦ ?_
  · rw [hcontent, content]
    refine List.Sublist.append_right ?_ _
    split
    · exact List.nil_sublist _
    · exact List.Sublist.refl _
  · rw [hcontent, content]
    split
    · next hconf => rw [hev.2.2.2.2 hs hconf]
    · rfl

private theorem Inv.passes_isInReady (hs : s.stmt = .isInReady) : s.Passes (s.cpuStep env) := by
  have hchunk := h.chunk_eq hs rfl
  have hon := h.selected_eq hs rfl
  simp only [cpuStep, hs]
  cases hready : s.inReady env with
  | true =>
    exact h.passes_to hchunk .maySend Stmt.noConfusion rfl
      ⟨h.looked_eq hs, nack_or_down hon hready⟩
  | false => exact h.passes_to hchunk .classMay Stmt.noConfusion rfl trivial

private theorem Inv.passes_isAllowed (hs : s.stmt = .isAllowed) : s.Passes (s.cpuStep env) := by
  have hnack : s.selected = .dataIn → s.inp.busNack = true := h.looked_eq hs
  have hon := h.selected_eq hs rfl
  simp only [cpuStep, hs]
  cases hallowed : s.isReadWriteAllowed env with
  | true =>
    refine h.passes_on hon .write8 Stmt.noConfusion (.inl rfl) fun hselected ↦ ?_
    rw [isReadWriteAllowed, if_pos hselected, InEndpoint.isReadWriteAllowed,
      decide_eq_true_iff] at hallowed
    exact ⟨hnack hselected, Nat.lt_of_lt_of_le hallowed h.inp.length_le⟩
  | false => exact h.passes_on hon .clearFull Stmt.noConfusion (.inl rfl) hnack

private theorem Inv.passes_clearFull (hs : s.stmt = .clearFull) : s.Passes (s.cpuStep env) := by
  have hnack : s.selected = .dataIn → s.inp.busNack = true := h.looked_eq hs
  have hon := h.selected_eq hs rfl
  simp only [cpuStep, hs]
  refine h.passes_clearIn hon hnack .waitFull Stmt.noConfusion (.inl rfl) fun hselected ↦ ?_
  exact position_clearIn ((clearIn_frame s).2.1.symm.trans hselected)

/-- `CDC_Device_USBTask` keeps every byte. -/
theorem Inv.passes_flushing (hst : s.stmt.flushing = true) : s.Passes (s.cpuStep env) := by
  cases hs : s.stmt with
  | classMay =>
    have hchunk := h.chunk_eq hs rfl
    simp only [cpuStep, hs]
    cases s.device.accepts with
    | true => exact h.passes_to hchunk .classSelect Stmt.noConfusion rfl trivial
    | false => exact h.passes_to hchunk .usbTask Stmt.noConfusion rfl trivial
  | classSelect =>
    simp only [cpuStep, hs]
    exact h.passes_select .classReady Stmt.noConfusion (.inr (h.chunk_eq hs rfl)) trivial
  | classReady =>
    have hchunk := h.chunk_eq hs rfl
    have hon := h.selected_eq hs rfl
    simp only [cpuStep, hs]
    cases hready : s.inReady env with
    | true =>
      exact h.passes_to hchunk .flushMay Stmt.noConfusion rfl (nack_or_down hon hready)
    | false => exact h.passes_to hchunk .usbTask Stmt.noConfusion rfl trivial
  | flushMay =>
    have hchunk := h.chunk_eq hs rfl
    simp only [cpuStep, hs]
    cases haccepts : s.device.accepts with
    | true =>
      exact h.passes_to hchunk .flushSelect Stmt.noConfusion rfl
        (nack_of_accepts (h.looked_eq hs) haccepts)
    | false => exact h.passes_to hchunk .usbTask Stmt.noConfusion rfl trivial
  | flushSelect =>
    have hnack : s.inp.busNack = true := h.looked_eq hs
    simp only [cpuStep, hs]
    exact h.passes_select .flushBytes Stmt.noConfusion (.inr (h.chunk_eq hs rfl)) hnack
  | flushBytes =>
    have hnack : s.inp.busNack = true := h.looked_eq hs
    have hchunk := h.chunk_eq hs rfl
    have hon := h.selected_eq hs rfl
    simp only [cpuStep, hs]
    cases s.hasBytes env with
    | true => exact h.passes_on hon .flushFull Stmt.noConfusion (.inr hchunk) hnack
    | false => exact h.passes_on hon .usbTask Stmt.noConfusion (.inr hchunk) trivial
  | flushFull =>
    have hnack : s.inp.busNack = true := h.looked_eq hs
    have hon := h.selected_eq hs rfl
    simp only [cpuStep, hs]
    exact h.passes_of_eq rfl rfl rfl Stmt.noConfusion (.inr (h.chunk_eq hs rfl))
      (fun _ ↦ hon) hnack
  | flushClear =>
    have hnack : s.inp.busNack = true := h.looked_eq hs
    have hchunk := h.chunk_eq hs rfl
    have hon := h.selected_eq hs rfl
    simp only [cpuStep, hs]
    cases s.bankFull with
    | true =>
      exact h.passes_clearIn hon (fun _ ↦ hnack) .flushWait Stmt.noConfusion (.inr hchunk) trivial
    | false =>
      exact h.passes_clearIn hon (fun _ ↦ hnack) .usbTask Stmt.noConfusion (.inr hchunk) trivial
  | flushWait =>
    have hchunk := h.chunk_eq hs rfl
    have hon := h.selected_eq hs rfl
    simp only [cpuStep, hs]
    cases hwait : s.waitUntilReady env with
    | ready =>
      exact h.passes_on hon .flushAgain Stmt.noConfusion (.inr hchunk) (nack_of_ready hwait)
    | failed => exact h.passes_to hchunk .usbTask Stmt.noConfusion rfl trivial
    | again => exact ⟨h, rfl⟩
  | flushAgain =>
    have hchunk := h.chunk_eq hs rfl
    have hon := h.selected_eq hs rfl
    simp only [cpuStep, hs]
    exact h.passes_clearIn hon (h.looked_eq hs) .usbTask Stmt.noConfusion (.inr hchunk) trivial
  | _ =>
    rw [hs] at hst
    cases hst

/-- Every statement keeps the invariant, and moves the bytes on or drops some of them. -/
theorem Inv.moves_cpu : s.Moves (.cpu env) := by
  cases hs : s.stmt with
  | check => exact h.moves_check env hs
  | maySend => exact h.moves_maySend env hs
  | waitFirst => exact h.moves_waitFirst env hs
  | waitFull => exact h.moves_waitFull env hs
  | write8 => exact h.moves_write8 env hs
  | usbTask => exact h.moves_usbTask env hs
  -- the other statements keep every byte
  | idle =>
    refine Passes.moves ?_
    simp only [cpuStep, hs]
    exact ⟨h, rfl⟩
  | select =>
    refine Passes.moves ?_
    simp only [cpuStep, hs]
    exact h.passes_select .isInReady Stmt.noConfusion (.inr (h.chunk_eq hs rfl)) (h.looked_eq hs)
  | isInReady => exact (h.passes_isInReady env hs).moves
  | selectSend =>
    have hnack : s.inp.busNack = true := h.looked_eq hs
    refine Passes.moves ?_
    simp only [cpuStep, hs]
    split
    · exact h.passes_select .waitFirst Stmt.noConfusion (.inl rfl) hnack
    · exact h.passes_select .isAllowed Stmt.noConfusion (.inl rfl) fun _ ↦ hnack
  | isAllowed => exact (h.passes_isAllowed env hs).moves
  | clearFull => exact (h.passes_clearFull env hs).moves
  | _ => exact (h.passes_flushing env (by rw [hs]; rfl)).moves

end

/-! ### The other events -/

/-- What an event of the host or the bus leaves alone. -/
structure Undisturbed (s s' : Sender) : Prop where
  stmt : s'.stmt = s.stmt
  todo : s'.todo = s.todo
  chunk : s'.chunk = s.chunk
  position : s'.inp.position = s.inp.position
  busNack : s.inp.busNack = true → s'.inp.busNack = true
  /-- A reset selects another endpoint. -/
  selected : s'.selected = s.selected ∨ s'.selected = .control ∧ s'.device.Down
  down : s.device.Down → s'.device.Down

private theorem Undisturbed.of_dataIn {s' : Sender} (hu : s.Undisturbed s')
    (h : s'.selected = .dataIn) :
    s.selected = .dataIn := by
  rcases hu.selected with hsame | ⟨hcontrol, -⟩
  · exact hsame.symm.trans h
  · rw [hcontrol] at h
    cases h

private theorem Undisturbed.looked {s' : Sender} (hu : s.Undisturbed s') {st : Stmt}
    (h : s.Looked st) :
    s'.Looked st := by
  cases st with
  | select | isInReady => exact fun hno ↦ h (hu.todo.symm.trans hno)
  | maySend => exact ⟨fun hno ↦ h.1 (hu.todo.symm.trans hno), h.2.imp hu.busNack hu.down⟩
  | flushMay => exact h.imp hu.busNack hu.down
  | selectSend | waitFirst | flushSelect | flushBytes | flushFull | flushClear =>
    exact hu.busNack h
  | isAllowed | clearFull | flushAgain => exact fun hdata ↦ hu.busNack (h (hu.of_dataIn hdata))
  | waitFull => exact fun hdata ↦ hu.position.trans (h (hu.of_dataIn hdata))
  | write8 =>
    intro hdata
    obtain ⟨hnack, hlt⟩ := h (hu.of_dataIn hdata)
    exact ⟨hu.busNack hnack, hu.position ▸ hlt⟩
  | _ => trivial

private theorem Undisturbed.inv {s' : Sender} (hu : s.Undisturbed s') (h : s.Inv)
    (hwf : s'.inp.WF) :
    s'.Inv where
  inp := hwf
  todo hst := hu.todo.trans (h.todo (hu.stmt.symm.trans hst))
  chunk hst := hu.chunk.trans (h.chunk (hu.stmt ▸ hst))
  selected hon := by
    rcases hu.selected with hsame | ⟨-, hdown⟩
    · rw [hsame]
      exact (h.selected (hu.stmt ▸ hon)).imp id hu.down
    · exact .inr hdown
  looked := hu.stmt ▸ hu.looked h.looked

private theorem Undisturbed.moves {ev : Event} (hu : s.Undisturbed (s.step ev)) (h : s.Inv)
    (hwf : (s.step ev).inp.WF) (hputs : s.puts ev = [])
    (hheld : s.delivers ev ++ (s.step ev).inp.held = s.inp.held) : s.Moves ev := by
  refine moves_of_eq (hu.inv h hwf) ?_
  rw [hputs, List.append_nil, content, content, hu.chunk, hu.todo, ← hheld, List.append_assoc]

/-- An event that changes nothing but the device. -/
theorem Inv.moves_device (h : s.Inv) {ev : Event} {device : Device}
    (hdown : s.device.Down → device.Down) (hstep : s.step ev = { s with device := device })
    (hputs : s.puts ev = []) (hdelivers : s.delivers ev = []) : s.Moves ev := by
  refine Undisturbed.moves ?_ h ?_ hputs ?_
  · rw [hstep]
    exact ⟨rfl, rfl, rfl, rfl, id, .inl rfl, hdown⟩
  · rw [hstep]
    exact h.inp
  · rw [hstep, hdelivers, List.nil_append]

private theorem Inv.moves_reset (h : s.Inv) : s.Moves (.bus .reset) := by
  have hdown : (s.step (.bus .reset)).device.Down := ⟨rfl, DeviceState.noConfusion⟩
  exact Undisturbed.moves ⟨rfl, rfl, rfl, rfl, id, .inr ⟨rfl, hdown⟩, fun _ ↦ hdown⟩ h h.inp.clear
    rfl rfl

private theorem Inv.moves_poll (h : s.Inv) : s.Moves .poll := by
  cases hoffers : s.inp.offers with
  | true =>
    have hstep : s.step .poll = { s with inp := s.inp.give } := if_pos hoffers
    have hdelivers : s.delivers .poll = s.inp.packet := if_pos hoffers
    refine Undisturbed.moves ?_ h ?_ rfl ?_
    · rw [hstep]
      exact ⟨rfl, rfl, rfl, rfl, fun _ ↦ rfl, .inl rfl, id⟩
    · rw [hstep]
      exact h.inp.give
    · rw [hstep, hdelivers]
      exact s.inp.packet_append_held_give
  | false =>
    have hno : ¬ s.inp.offers = true := by rw [hoffers]; exact Bool.false_ne_true
    exact h.moves_device id (if_neg hno) rfl (if_neg hno)

/-- A call puts its bytes behind those on their way. -/
theorem Inv.moves_call (h : s.Inv) (c : Call) : s.Moves (.call c) := by
  by_cases hs : s.stmt = .idle
  · have hstep : s.step (.call c) = s.enter c := if_pos hs
    have hputs : s.puts (.call c) = c.bytes := if_pos hs
    have htodo := h.todo hs
    have hchunk := h.chunk_eq hs rfl
    refine moves_of_eq ?_ ?_
    · rw [hstep]
      cases c with
      | putChar _ | putBuf _ | task =>
        exact ⟨h.inp, fun hst ↦ Stmt.noConfusion hst, fun _ ↦ hchunk,
          fun hon ↦ Bool.noConfusion hon, trivial⟩
    · rw [hstep, hputs]
      change (s.enter c).content = s.content ++ c.bytes
      cases c <;> simp [enter, content, Call.bytes, htodo, hchunk]
  · exact h.moves_device id (if_neg hs) (if_neg hs) rfl

/-- Every event keeps the invariant, and moves the bytes on or drops some of them. -/
theorem Inv.step (h : s.Inv) (ev : Event) : s.Moves ev := by
  cases ev with
  | call c => exact h.moves_call c
  | cpu env => exact h.moves_cpu env
  | bus e =>
    cases e with
    | reset => exact h.moves_reset
    | suspend => exact h.moves_device (·.busEvent .suspend) rfl rfl rfl
    | resume => exact h.moves_device (·.busEvent .resume) rfl rfl rfl
  | request r => exact h.moves_device (·.receive r) rfl rfl rfl
  | poll => exact h.moves_poll

/-! ### Whole runs -/

/-- The port at the start. -/
theorem inv_start : ({} : Sender).Inv :=
  ⟨⟨Nat.zero_le _, Nat.zero_le _, fun _ ↦ rfl⟩, fun _ ↦ rfl, fun _ ↦ rfl,
    fun hon ↦ Bool.noConfusion hon, trivial⟩

/-- The invariant holds in a whole run. -/
theorem Inv.after_run (h : s.Inv) (evs : List Event) : (run Sender.step s evs).Inv :=
  invariant_run (fun _ ev h ↦ (h.step ev).inv) h evs

/-- What the statements find at a control endpoint that has nothing to do. -/
def quiet : Env := ⟨false, false, false, false⟩

/-- The host asks for a packet in front of every statement. -/
def rounds (env : Env) (n : Nat) : List Event := (List.replicate n [Event.poll, .cpu env]).flatten

/-- The host opens the port. -/
def opening : List Event :=
  .bus .reset :: [Request.setAddress 5, .setConfiguration 1, .setLineEncoding 115200,
    .setControlLineState 1].flatMap fun r ↦ .request r :: .call .task :: .replicate 8 (.cpu quiet)

/-- Whatever the host and the bus do: the bytes that the host gets are bytes that the firmware has
put, in their order, none of them twice. -/
theorem delivered_sublist_put (evs : List Event) :
    (observed delivers Sender.step {} evs ++ (run Sender.step {} evs).content).Sublist
      (observed puts Sender.step {} evs) :=
  (guarded_of_forall (P := fun _ ↦ True) fun _ _ ↦ trivial).sublist
    (fun _ ev h _ ↦ (h.step ev).inv) (fun _ ev h _ ↦ (h.step ev).sublist) inv_start

/-- A reset behind `Endpoint_IsReadWriteAllowed`: the byte goes to the control endpoint. -/
example : observed delivers Sender.step {} (opening ++ [.call (.putChar 0x64)] ++
    .replicate 6 (.cpu quiet) ++ [.bus .reset] ++ rounds quiet 8 ++ opening ++ [.poll]) = [] := by
  decide +kernel

/-- A run in which no statement drops a byte. -/
theorem Inv.conserved (h : s.Inv) {evs : List Event} (hevs : Guarded Sender.step Lossless s evs) :
    observed delivers Sender.step s evs ++ (run Sender.step s evs).content =
      s.content ++ observed puts Sender.step s evs :=
  hevs.conserved (fun _ ev h _ ↦ (h.step ev).inv)
    (fun _ ev h hev ↦ (h.step ev).eq_of_lossless hev) h

/-- If no statement drops a byte, none is lost. -/
theorem delivered_append_content {evs : List Event}
    (hevs : Guarded Sender.step Lossless ({} : Sender) evs) :
    observed delivers Sender.step {} evs ++ (run Sender.step {} evs).content =
      observed puts Sender.step {} evs :=
  inv_start.conserved hevs

/-- One byte that the host has got, and three that are in the buffer. -/
def twoPuts : List Event :=
  opening ++ [.call (.putChar 0x64)] ++ rounds quiet 20 ++ [.call (.putBuf [1, 2, 3])] ++
    rounds quiet 12

/-- The first byte has been taken, the other three are in the buffer. -/
theorem delivered_append_content_twoPuts :
    observed delivers Sender.step {} twoPuts = [0x64] ∧
      observed delivers Sender.step {} twoPuts ++ (run Sender.step {} twoPuts).content =
        [0x64, 1, 2, 3] :=
  ⟨by decide +kernel, (delivered_append_content (by decide +kernel)).trans (by decide +kernel)⟩

/-- `Endpoint_Write_8` writes inside the buffer, and not into a packet that waits for the host. -/
theorem write_inside (evs : List Event)
    (hs : (run Sender.step {} evs).stmt = .write8)
    (hselected : (run Sender.step {} evs).selected = .dataIn) :
    (run Sender.step {} evs).inp.position < CDC_RX_EPSIZE ∧
      (run Sender.step {} evs).inp.packet = [] := by
  obtain ⟨hnack, hlt⟩ := (inv_start.after_run evs).looked_eq hs hselected
  exact ⟨hlt, InEndpoint.packet_of_busNack hnack⟩

/-- A call in front of its write. -/
def writing : List Event := opening ++ .call (.putChar 0x64) :: .replicate 6 (.cpu quiet)

/-- The first write of a call. -/
theorem write_inside_writing :
    (run Sender.step {} writing).inp.position < CDC_RX_EPSIZE ∧
      (run Sender.step {} writing).inp.packet = [] :=
  write_inside writing (by decide +kernel) (by decide +kernel)

/-! ### A call returns -/

/-- Configured, with DTR set and a line rate. -/
def Ready (s : Sender) : Prop := s.device.maySend = true ∧ s.device.accepts = true

/-- Whether a device is ready can be computed. -/
instance (s : Sender) : Decidable s.Ready := inferInstanceAs (Decidable (_ ∧ _))

/-- The endpoint of a device that is configured has its size. -/
def Wired (s : Sender) : Prop :=
  s.device.Down ∨ s.inp.enabled = true ∧ s.inp.length = CDC_TX_EPSIZE

/-- The port is open and no request waits. -/
structure Open (s : Sender) : Prop where
  maySend : s.device.maySend = true
  accepts : s.device.accepts = true
  setup : s.device.setup = none
  enabled : s.inp.enabled = true
  length : s.inp.length = CDC_TX_EPSIZE

/-- Where the loop may end, everything has been flushed. -/
def Flushed (s : Sender) : Prop :=
  s.stmt = .usbTask ∨ s.stmt = .check ∧ s.todo = [] ∨ s.stmt = .idle → s.inp.position = 0

/-- How many statements are left, apart from those for the bytes that have not been written. -/
def Stmt.left (position : Nat) : Stmt → Nat
  | .idle => 0
  | .maySend => 1
  | .isInReady => 2
  | .select => 3
  | .check => 4
  | .usbTask => 5
  | .flushAgain => 6
  | .flushWait => 7
  | .flushClear => 8
  | .flushFull => 9
  | .flushBytes => 10
  | .flushSelect => 11
  | .flushMay => 12
  | .classReady => 13
  | .classSelect => 14
  | .classMay => 15
  | .write8 => 16
  | .isAllowed => if position < CDC_TX_EPSIZE then 17 else 20
  | .waitFull => 18
  | .clearFull => 19
  | .waitFirst => 21
  | .selectSend => 22

/-- How many statements are left, at most, if the host takes every packet. -/
def rank (s : Sender) : Nat :=
  30 * s.todo.length + 8 * s.chunk.length + s.stmt.left s.inp.position

private theorem Stmt.left_isAllowed_le (position : Nat) : Stmt.left position .isAllowed ≤ 20 := by
  change (if position < CDC_TX_EPSIZE then 17 else 20) ≤ 20
  split <;> omega

private theorem Ready.not_down (h : s.Ready) : ¬ s.device.Down := by
  intro hdown
  have haccepts := h.2
  rw [hdown.not_accepts] at haccepts
  cases haccepts

/-- Of a ready device, the statements work on the endpoint for data. -/
theorem Ready.dataIn (hready : s.Ready) (h : s.Inv) (hon : s.stmt.onSelected = true) :
    s.selected = .dataIn := (h.selected hon).resolve_right hready.not_down

/-- The endpoint of a ready device has its size. -/
theorem Ready.length (hready : s.Ready) (hwired : s.Wired) : s.inp.length = CDC_TX_EPSIZE :=
  (hwired.resolve_left hready.not_down).2

/-- A ready device without a request is open. -/
theorem Ready.isOpen (hready : s.Ready) (hwired : s.Wired) (hsetup : s.device.setup = none) :
    s.Open :=
  ⟨hready.1, hready.2, hsetup, (hwired.resolve_left hready.not_down).1, hready.length hwired⟩

private theorem Open.isReady (h : s.Open) : s.Ready := ⟨h.maySend, h.accepts⟩

private theorem Open.dataIn (hopen : s.Open) (h : s.Inv) (hon : s.stmt.onSelected = true) :
    s.selected = .dataIn := hopen.isReady.dataIn h hon

private theorem Open.runTask_eq (hopen : s.Open) : s.runTask = s := by
  unfold runTask
  rw [Device.usbTask_of_setup_none hopen.setup, Device.configures_of_setup_none hopen.setup]
  rfl

/-- With a host that takes every packet, no statement drops a byte. -/
theorem Open.lossless (hopen : s.Open) (h : s.Inv) (hnack : s.inp.busNack = true) (env : Env) :
    s.Lossless (.cpu env) := by
  refine ⟨fun _ _ ↦ hopen.maySend, fun _ ↦ hopen.accepts, fun hs hfailed ↦ ?_, fun hs ↦ ?_,
    fun _ hconf ↦ ?_⟩
  · have hon : s.stmt.onSelected = true := by
      rcases hs with hs | hs <;> rw [hs] <;> rfl
    have hready : s.inReady env = true := by
      rw [inReady, if_pos (hopen.dataIn h hon)]
      exact hnack
    rw [waitUntilReady, if_pos hready] at hfailed
    cases hfailed
  · exact hopen.dataIn h (by rw [hs]; rfl)
  · rw [Device.configures_of_setup_none hopen.setup] at hconf
    cases hconf

/-- What the statements leave alone while the port is open. -/
structure Kept (s s' : Sender) : Prop where
  device : s'.device = s.device
  enabled : s'.inp.enabled = s.inp.enabled
  length : s'.inp.length = s.inp.length

private theorem Kept.isOpen {s' : Sender} (hk : s.Kept s') (hopen : s.Open) : s'.Open := by
  refine ⟨?_, ?_, ?_, hk.enabled.trans hopen.enabled, hk.length.trans hopen.length⟩
  · rw [hk.device]
    exact hopen.maySend
  · rw [hk.device]
    exact hopen.accepts
  · rw [hk.device]
    exact hopen.setup

private theorem kept_clearIn (s : Sender) (st : Stmt) : s.Kept { s.clearIn with stmt := st } := by
  unfold clearIn
  split <;> exact ⟨rfl, rfl, rfl⟩

private theorem kept_write (s : Sender) : s.Kept s.write := by
  unfold write
  split
  · exact ⟨rfl, rfl, rfl⟩
  · refine ⟨rfl, ?_, ?_⟩
    · dsimp only
      split <;> rfl
    · dsimp only
      split <;> rfl

private theorem kept_cpuStep (hne : s.stmt ≠ .usbTask) (env : Env) : s.Kept (s.cpuStep env) := by
  cases hs : s.stmt <;> simp only [cpuStep, hs]
  case clearFull | flushClear | flushAgain => exact kept_clearIn s _
  case usbTask => exact absurd hs hne
  case write8 => exact kept_write s
  case check | waitFirst | waitFull | flushWait => split <;> exact ⟨rfl, rfl, rfl⟩
  all_goals exact ⟨rfl, rfl, rfl⟩

private theorem Open.kept_cpuStep (hopen : s.Open) (env : Env) : s.Kept (s.cpuStep env) := by
  by_cases hs : s.stmt = .usbTask
  · simp only [cpuStep, hs, hopen.runTask_eq]
    exact ⟨rfl, rfl, rfl⟩
  · exact Sender.kept_cpuStep hs env

private theorem Kept.wired {s' : Sender} (hk : s.Kept s') (h : s.Wired) : s'.Wired := by
  rw [Wired, hk.device, hk.enabled, hk.length]
  exact h

/-- Every event keeps the endpoint as the last `SetConfiguration` has left it. -/
theorem Wired.step (h : s.Wired) (ev : Event) : (s.step ev).Wired := by
  cases ev with
  | call c =>
    simp only [Sender.step]
    split
    · cases c <;> exact h
    · exact h
  | cpu env =>
    by_cases hs : s.stmt = .usbTask
    · simp only [Sender.step, cpuStep, hs, runTask, Wired]
      cases hconf : s.device.configures with
      | true => exact .inr ⟨rfl, rfl⟩
      | false => exact h.imp (·.usbTask hconf) id
    · exact (kept_cpuStep hs env).wired h
  | bus e =>
    cases e with
    | reset => exact .inl ⟨rfl, DeviceState.noConfusion⟩
    | suspend => exact h.imp (·.busEvent .suspend) id
    | resume => exact h.imp (·.busEvent .resume) id
  | request r => exact h.imp (·.receive r) id
  | poll =>
    simp only [Sender.step]
    split <;> exact h

/-- The endpoint is wired in every run. -/
theorem wired_run (evs : List Event) : (run Sender.step {} evs).Wired :=
  invariant_run (fun _ ev h ↦ h.step ev) (.inl ⟨rfl, DeviceState.noConfusion⟩) evs

section

variable (hopen : s.Open) (h : s.Inv) (hnack : s.inp.busNack = true) (env : Env)

include hopen h hnack

private theorem Open.inReady (hon : s.stmt.onSelected = true) : s.inReady env = true := by
  rw [Sender.inReady, if_pos (hopen.dataIn h hon)]
  exact hnack

private theorem Open.waitUntilReady (hon : s.stmt.onSelected = true) :
    s.waitUntilReady env = .ready := if_pos (hopen.inReady h hnack env hon)

omit hnack in
private theorem Open.isReadWriteAllowed (hon : s.stmt.onSelected = true) :
    s.isReadWriteAllowed env = decide (s.inp.position < CDC_TX_EPSIZE) := by
  rw [Sender.isReadWriteAllowed, if_pos (hopen.dataIn h hon), InEndpoint.isReadWriteAllowed,
    hopen.length]

/-- Every statement brings the call nearer to its end. -/
theorem Open.rank_lt (hne : s.stmt ≠ .idle) : (s.cpuStep env).rank < s.rank := by
  obtain ⟨-, -, hchunk, htodo⟩ := clearIn_frame s
  have hready := hopen.inReady h hnack env
  have hwait := hopen.waitUntilReady h hnack env
  cases hs : s.stmt with
  | idle => exact absurd hs hne
  | check =>
    by_cases hgo : s.device.maySend ∧ s.todo ≠ []
    · simp only [cpuStep, hs, if_pos hgo, rank, Stmt.left]
      omega
    · simp only [cpuStep, hs, if_neg hgo, rank, Stmt.left, List.length_nil]
      omega
  | maySend =>
    have hpos : 0 < s.todo.length := List.length_pos_iff.mpr (h.looked_eq hs).1
    simp only [cpuStep, hs, hopen.accepts, if_true, rank, h.chunk_eq hs rfl, List.length_take,
      List.length_drop, List.length_nil, CDC_RX_EPSIZE, Stmt.left]
    omega
  | selectSend =>
    have hle := Stmt.left_isAllowed_le s.inp.position
    cases hbuf : s.isBuf with
    | true => simp [cpuStep, hs, hbuf, rank, Stmt.left]
    | false =>
      simp only [cpuStep, hs, hbuf, rank, Bool.false_eq_true, if_false]
      change _ < _ + 22
      omega
  | waitFirst =>
    have hle := Stmt.left_isAllowed_le s.inp.position
    simp only [cpuStep, hs, hwait (by rw [hs]; rfl), rank]
    change _ < _ + 21
    omega
  | isAllowed =>
    simp only [cpuStep, hs, hopen.isReadWriteAllowed h env (by rw [hs]; rfl), decide_eq_true_iff]
    by_cases hlt : s.inp.position < CDC_TX_EPSIZE
    · simp [hs, hlt, rank, Stmt.left]
    · simp [hs, hlt, rank, Stmt.left]
  | waitFull =>
    have hon : s.stmt.onSelected = true := by rw [hs]; rfl
    have hposition : s.inp.position = 0 := h.looked_eq hs (hopen.dataIn h hon)
    simp only [cpuStep, hs, hwait hon]
    split <;> simp [hs, hposition, rank, Stmt.left, CDC_TX_EPSIZE]
  | write8 =>
    simp only [cpuStep, hs, write]
    split
    · next hnil => simp [hs, rank, Stmt.left]
    · next b rest hcons =>
      by_cases hrest : rest = []
      · simp only [hs, hcons, if_pos hrest, rank, Stmt.left, List.length_cons]
        omega
      · have hle := Stmt.left_isAllowed_le (s.inp.write8 b).position
        simp only [hs, hcons, if_neg hrest, hopen.dataIn h (by rw [hs]; rfl), if_true, rank,
          List.length_cons]
        change _ < _ + 16
        omega
  | isInReady | classReady => simp [cpuStep, hs, hready (by rw [hs]; rfl), rank, Stmt.left]
  | clearFull | flushAgain => simp [cpuStep, hs, rank, hchunk, htodo, Stmt.left]
  | flushBytes =>
    simp only [cpuStep, hs]
    split <;> simp [hs, rank, Stmt.left]
  | flushClear =>
    simp only [cpuStep, hs]
    split <;> simp [hs, rank, hchunk, htodo, Stmt.left]
  | flushWait => simp [cpuStep, hs, hwait (by rw [hs]; rfl), rank, Stmt.left]
  | usbTask => simp [cpuStep, hs, hopen.runTask_eq, rank, Stmt.left]
  | _ => simp [cpuStep, hs, hopen.accepts, rank, Stmt.left]

/-- The loop comes to its end behind a flush. -/
theorem Open.flushed_cpuStep (hf : s.Flushed) : (s.cpuStep env).Flushed := by
  have hready := hopen.inReady h hnack env
  have hwait := hopen.waitUntilReady h hnack env
  have hdata := hopen.dataIn h
  cases hs : s.stmt with
  | idle =>
    simp only [cpuStep, hs]
    exact hf
  | check =>
    by_cases hgo : s.device.maySend ∧ s.todo ≠ []
    · simp [cpuStep, hs, if_pos hgo, Flushed]
    · have htodo : s.todo = [] := by
        by_contra hne
        exact hgo ⟨hopen.maySend, hne⟩
      simp only [cpuStep, hs, if_neg hgo]
      exact fun _ ↦ hf (.inr (.inl ⟨hs, htodo⟩))
  | usbTask =>
    simp only [cpuStep, hs, hopen.runTask_eq]
    exact fun _ ↦ hf (.inl hs)
  | flushBytes =>
    simp only [cpuStep, hs]
    split
    · simp [Flushed]
    · next hno => exact fun _ ↦ position_of_not_hasBytes (hdata (by rw [hs]; rfl)) hno
  | flushClear | flushAgain =>
    simp only [cpuStep, hs]
    exact fun _ ↦ position_clearIn (hdata (by rw [hs]; rfl))
  | write8 =>
    simp only [cpuStep, hs, write]
    split
    · simp [Flushed]
    · dsimp only [Flushed]
      split <;> simp
  | selectSend | isAllowed =>
    simp only [cpuStep, hs, Flushed]
    split <;> simp
  | waitFull =>
    simp only [cpuStep, hs, hwait (by rw [hs]; rfl), Flushed]
    split <;> simp
  | waitFirst | flushWait => simp [cpuStep, hs, hwait (by rw [hs]; rfl), Flushed]
  | isInReady | classReady => simp [cpuStep, hs, hready (by rw [hs]; rfl), Flushed]
  | _ => simp [cpuStep, hs, hopen.accepts, Flushed]

end

/-- What a poll of an open port leaves. -/
theorem Open.step_poll (hopen : s.Open) :
    s.Kept (s.step .poll) ∧ (s.step .poll).inp.busNack = true ∧ (s.step .poll).rank = s.rank ∧
      (s.step .poll).stmt = s.stmt ∧ (s.Flushed → (s.step .poll).Flushed) := by
  cases hnack : s.inp.busNack with
  | true =>
    have hstep : s.step .poll = s := by
      refine if_neg ?_
      simp [InEndpoint.offers, hnack]
    rw [hstep]
    exact ⟨⟨rfl, rfl, rfl⟩, hnack, rfl, rfl, id⟩
  | false =>
    have hstep : s.step .poll = { s with inp := s.inp.give } := by
      refine if_pos ?_
      simp [InEndpoint.offers, hnack, hopen.enabled]
    rw [hstep]
    exact ⟨⟨rfl, rfl, rfl⟩, rfl, rfl, rfl, id⟩

/-- With a host that asks often enough, a call on an open port returns. -/
theorem Open.returns (hopen : s.Open) (h : s.Inv) (env : Env) :
    ∃ n ≤ s.rank, Guarded Sender.step (fun s ev ↦ s.Open ∧ s.Lossless ev) s (rounds env n) ∧
      (run Sender.step s (rounds env n)).stmt = .idle ∧
      (run Sender.step s (rounds env n)).Open ∧
      (s.Flushed → (run Sender.step s (rounds env n)).Flushed) := by
  -- the rank falls with every statement
  induction hrank : s.rank using Nat.strong_induction_on generalizing s with
  | _ r ih =>
    by_cases hs : s.stmt = .idle
    · exact ⟨0, Nat.zero_le _, trivial, hs, hopen, id⟩
    · obtain ⟨hkept, hnack, hsame, hstmt, hflushed⟩ := hopen.step_poll
      have hpoll := h.moves_poll.inv
      have hopen' := hkept.isOpen hopen
      have hlt := hopen'.rank_lt hpoll hnack env (by rw [hstmt]; exact hs)
      rw [hsame, hrank] at hlt
      obtain ⟨n, hn, hguard, hidle, hstill, hclean⟩ := ih _ hlt
        ((hopen'.kept_cpuStep env).isOpen hopen') (hpoll.moves_cpu env).inv rfl
      refine ⟨n + 1, by omega, ?_, hidle, hstill, fun hf ↦ hclean ?_⟩
      · exact ⟨⟨hopen, trivial⟩, ⟨hopen', hopen'.lossless hpoll hnack env⟩, hguard⟩
      · exact hopen'.flushed_cpuStep hpoll hnack env (hflushed hf)

private theorem puts_rounds (s : Sender) (env : Env) (n : Nat) :
    observed puts Sender.step s (rounds env n) = [] := by
  induction n generalizing s with
  | zero => rfl
  | succ n ih => exact ih _

/-- An open port that is idle behind a flush and a poll holds nothing. -/
theorem Open.content_step_poll (hopen : s.Open) (h : s.Inv) (hf : s.Flushed) (hs : s.stmt = .idle) :
    (s.step .poll).stmt = .idle ∧ (s.step .poll).content = [] := by
  obtain ⟨-, hnack, -, hstmt, hflushed⟩ := hopen.step_poll
  have hpoll := h.moves_poll.inv
  have hidle := hstmt.trans hs
  refine ⟨hidle, ?_⟩
  rw [content, hpoll.todo hidle, hpoll.chunk_eq hidle rfl, InEndpoint.held_of_busNack hnack,
    InEndpoint.buffered_of_position (hflushed hf (.inr (.inr hidle)))]
  rfl

private theorem Open.enter (hopen : s.Open) (c : Call) : (s.enter c).Open := by
  cases c <;> exact ⟨hopen.maySend, hopen.accepts, hopen.setup, hopen.enabled, hopen.length⟩

private theorem flushed_enter (s : Sender) {c : Call} (hc : c ≠ .putBuf []) :
    (s.enter c).Flushed := by
  cases c with
  | putBuf buff =>
    have hbuff : buff ≠ [] := fun hnil ↦ hc (hnil ▸ rfl)
    simp [Flushed, enter, hbuff]
  | putChar val => simp [Flushed, enter]
  | task => simp [Flushed, enter]

private theorem Inv.rank_enter_le (h : s.Inv) (hidle : s.stmt = .idle) (c : Call) :
    (s.enter c).rank ≤ 30 * c.bytes.length + 15 := by
  cases c <;> simp [rank, enter, Call.bytes, Stmt.left, h.todo hidle, h.chunk_eq hidle rfl]

/-- In every run, a call on an open port with a host that asks often enough returns after a number
of statements that grows with the bytes only, and the host has then got all bytes: those that were
on their way and those of the call. A call for no bytes returns at once and flushes nothing. -/
theorem put_delivered {evs : List Event} (hidle : (run Sender.step {} evs).stmt = .idle)
    (hready : (run Sender.step {} evs).Ready)
    (hsetup : (run Sender.step {} evs).device.setup = none) (c : Call) (hc : c ≠ .putBuf [])
    (env : Env) :
    ∃ n ≤ 30 * c.bytes.length + 15,
      observed delivers Sender.step (run Sender.step {} evs)
          (.call c :: rounds env n ++ [.poll]) = (run Sender.step {} evs).content ++ c.bytes ∧
      (run Sender.step (run Sender.step {} evs) (.call c :: rounds env n ++ [.poll])).stmt =
        .idle ∧
      (run Sender.step (run Sender.step {} evs) (.call c :: rounds env n ++ [.poll])).content =
        [] := by
  have h := inv_start.after_run evs
  have hopen := hready.isOpen (wired_run evs) hsetup
  generalize run Sender.step {} evs = s at *
  have hstep : s.step (.call c) = s.enter c := if_pos hidle
  have hputs : s.puts (.call c) = c.bytes := if_pos hidle
  have hcall : (s.enter c).Inv := hstep ▸ (h.moves_call c).inv
  obtain ⟨n, hn, hguard, hend, hstill, hclean⟩ := (hopen.enter c).returns hcall env
  have hinv : (run Sender.step (s.enter c) (rounds env n)).Inv :=
    hcall.after_run (rounds env n)
  obtain ⟨hback, hempty⟩ := hstill.content_step_poll hinv (hclean (flushed_enter s hc)) hend
  have hrun : run Sender.step s (.call c :: rounds env n ++ [.poll]) =
      (run Sender.step (s.enter c) (rounds env n)).step .poll := by
    rw [List.cons_append, run_cons, run_append, hstep]
    rfl
  have hall : Guarded Sender.step Lossless s (.call c :: rounds env n ++ [.poll]) := by
    refine ⟨trivial, ?_⟩
    rw [hstep]
    exact (hguard.mono fun _ _ hev ↦ hev.2).append ⟨trivial, trivial⟩
  have hlaw := h.conserved hall
  have hput : observed puts Sender.step s (.call c :: rounds env n ++ [.poll]) = c.bytes := by
    rw [List.cons_append, observed, observed_append, puts_rounds, hputs]
    exact List.append_nil _
  rw [hrun, hempty, List.append_nil, hput] at hlaw
  refine ⟨n, hn.trans (h.rank_enter_le hidle c), hlaw, ?_, ?_⟩
  · rw [hrun]
    exact hback
  · rw [hrun]
    exact hempty

/-- Three bytes on a port that has just been opened. -/
theorem put_delivered_threeBytes :
    ∃ n ≤ 105,
      observed delivers Sender.step (run Sender.step {} opening)
          (.call (.putBuf [1, 2, 3]) :: rounds quiet n ++ [.poll]) =
        (run Sender.step {} opening).content ++ [1, 2, 3] ∧
      (run Sender.step (run Sender.step {} opening)
        (.call (.putBuf [1, 2, 3]) :: rounds quiet n ++ [.poll])).stmt = .idle ∧
      (run Sender.step (run Sender.step {} opening)
        (.call (.putBuf [1, 2, 3]) :: rounds quiet n ++ [.poll])).content = [] :=
  put_delivered (by decide +kernel) (by decide +kernel) (by decide +kernel) (.putBuf [1, 2, 3])
    (by decide) quiet

end Sender

end HorrorScope.Usb
