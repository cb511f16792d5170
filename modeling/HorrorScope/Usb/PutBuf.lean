import HorrorScope.Usb.Delivery

/-!
# `USB_serial_put_buf`

One call of `USB_serial_put_buf` (`usb_serial.c:129-142`), from any state that the port can be in,
with bus events, requests and polls of the host between any two of its statements. The loop goes on
behind a chunk whatever `CDC_Device_SendData` has returned for it. What has not been written to the
endpoint by then is lost, and the bytes written have a gap if a later one is written after all.
-/

namespace HorrorScope.Usb

open HorrorScope.Base

namespace Sender

variable {s : Sender} {buff : List UInt8}

/-! ### The bytes of the call -/

/-- The bytes that the call has not passed: the rest of the chunk and that of the buffer. -/
def remaining (s : Sender) : List UInt8 := s.chunk ++ s.todo

/-- How far the call has come in a buffer of `n` bytes. -/
def pointer (n : Nat) (s : Sender) : Nat := n - s.remaining.length

/-- A byte is written to the endpoint. -/
def Writes (s : Sender) : Event → Prop
  | .cpu _ => s.stmt = .write8 ∧ s.selected = .dataIn
  | _ => False

/-- Whether a byte is written can be computed. -/
instance (s : Sender) : (ev : Event) → Decidable (s.Writes ev)
  | .cpu _ => inferInstanceAs (Decidable (_ ∧ _))
  | .call _ | .bus _ | .request _ | .poll => inferInstanceAs (Decidable False)

/-- The byte that is written. -/
def writes (s : Sender) (ev : Event) : List UInt8 :=
  if s.Writes ev then s.chunk.take 1 else []

/-- Its place in the buffer. -/
def writesAt (n : Nat) (s : Sender) (ev : Event) : List Nat :=
  if s.Writes ev then [s.pointer n] else []

/-- `Endpoint_WaitUntilReady` returns an error to `Endpoint_Write_Stream_LE`. -/
def Fails (s : Sender) : Event → Prop
  | .cpu env =>
    (s.stmt = .waitFirst ∨ s.stmt = .waitFull) ∧ s.waitUntilReady env = .failed
  | _ => False

/-- Whether a wait fails can be computed. -/
instance (s : Sender) : (ev : Event) → Decidable (s.Fails ev)
  | .cpu _ => inferInstanceAs (Decidable (_ ∧ _))
  | .call _ | .bus _ | .request _ | .poll => inferInstanceAs (Decidable False)

/-- Bytes are passed and not written: the loop ends before the buffer, `CDC_Device_SendData` refuses
a chunk, the stream write ends with an error, or a reset has come in front of a write. -/
def Loses (s : Sender) : Event → Prop
  | .cpu env =>
    s.stmt = .check ∧ s.device.maySend = false ∧ s.todo ≠ [] ∨
      s.stmt = .maySend ∧ s.device.accepts = false ∨ s.Fails (.cpu env) ∨
      s.stmt = .write8 ∧ s.selected ≠ .dataIn
  | _ => False

/-- Whether bytes are lost can be computed. -/
instance (s : Sender) : (ev : Event) → Decidable (s.Loses ev)
  | .cpu _ => inferInstanceAs (Decidable (_ ∨ _ ∨ _ ∨ _))
  | .call _ | .bus _ | .request _ | .poll => inferInstanceAs (Decidable False)

/-- The event is no other call. -/
def Event.within : Event → Bool
  | .call _ => false
  | _ => true

/-- The bytes written are the first ones of the buffer, none skipped or repeated. -/
def GapFree (n : Nat) (s : Sender) (evs : List Event) : Prop :=
  ∃ k, observed (writesAt n) Sender.step s evs = List.range k

/-! ### One event -/

/-- What an event does to the bytes of the call. -/
structure Passage (s s' : Sender) (ev : Event) : Prop where
  writes : s.Writes ev → ∃ b, s.remaining = b :: s'.remaining
  loses : s.Loses ev → ∃ lost, lost ≠ [] ∧ s.remaining = lost ++ s'.remaining
  keeps : ¬ s.Loses ev → ¬ s.Writes ev → s'.remaining = s.remaining
  /-- There is a chunk while one is being written. -/
  chunk_ne : s'.stmt.sending = true → s'.chunk ≠ []
  chunk_le : s'.chunk.length ≤ CDC_RX_EPSIZE - 1

/-- What holds during a call for the bytes of `buff`. -/
structure Calling (buff : List UInt8) (s : Sender) : Prop where
  inv : s.Inv
  wired : s.Wired
  suffix : s.remaining <:+ buff
  chunk_ne : s.stmt.sending = true → s.chunk ≠ []
  chunk_le : s.chunk.length ≤ CDC_RX_EPSIZE - 1

/-- An event that moves no byte of the call. -/
structure Still (s s' : Sender) : Prop where
  chunk : s'.chunk = s.chunk
  todo : s'.todo = s.todo
  sending : s'.stmt.sending = true → s.stmt.sending = true

private theorem Loses.not_writes {ev : Event} (h : s.Loses ev) : ¬ s.Writes ev := by
  cases ev with
  | cpu env =>
    rintro ⟨hs, hdata⟩
    rcases h with ⟨hstmt, -⟩ | ⟨hstmt, -⟩ | ⟨hstmt | hstmt, -⟩ | ⟨-, hother⟩
    case inr.inr.inr => exact hother hdata
    all_goals
      rw [hs] at hstmt
      cases hstmt
  | call _ | bus _ | request _ | poll => exact id

private theorem Calling.passage_of_still (h : s.Calling buff) {s' : Sender} {ev : Event}
    (hstill : s.Still s') (hl : ¬ s.Loses ev) (hw : ¬ s.Writes ev) : s.Passage s' ev where
  writes hyes := absurd hyes hw
  loses hyes := absurd hyes hl
  keeps _ _ := by rw [remaining, remaining, hstill.chunk, hstill.todo]
  chunk_ne hst := by
    rw [hstill.chunk]
    exact h.chunk_ne (hstill.sending hst)
  chunk_le := by
    rw [hstill.chunk]
    exact h.chunk_le

private theorem still_clearIn {st : Stmt} (hst : st.sending = true → s.stmt.sending = true) :
    s.Still { s.clearIn with stmt := st } := by
  obtain ⟨-, -, hchunk, htodo⟩ := clearIn_frame s
  exact ⟨hchunk, htodo, hst⟩

private theorem still_cpuStep (env : Env) (hcheck : s.stmt ≠ .check) (hmay : s.stmt ≠ .maySend)
    (hfails : ¬ s.Fails (.cpu env)) (hwrite : s.stmt ≠ .write8) : s.Still (s.cpuStep env) := by
  cases hs : s.stmt with
  | check => exact absurd hs hcheck
  | maySend => exact absurd hs hmay
  | write8 => exact absurd hs hwrite
  | waitFirst | waitFull =>
    simp only [cpuStep, hs]
    cases hres : s.waitUntilReady env with
    | failed => exact absurd ⟨by simp [hs], hres⟩ hfails
    | ready => exact ⟨rfl, rfl, fun _ ↦ by rw [hs]; rfl⟩
    | again => exact ⟨rfl, rfl, id⟩
  | flushWait =>
    simp only [cpuStep, hs]
    cases s.waitUntilReady env with
    | ready | failed => exact ⟨rfl, rfl, fun hst ↦ Bool.noConfusion hst⟩
    | again => exact ⟨rfl, rfl, id⟩
  | clearFull =>
    simp only [cpuStep, hs]
    exact still_clearIn fun _ ↦ by rw [hs]; rfl
  | flushClear =>
    simp only [cpuStep, hs]
    refine still_clearIn fun hst ↦ ?_
    split at hst <;> cases hst
  | flushAgain =>
    simp only [cpuStep, hs]
    exact still_clearIn fun hst ↦ Bool.noConfusion hst
  | idle =>
    simp only [cpuStep, hs]
    exact ⟨rfl, rfl, id⟩
  | selectSend | isAllowed =>
    simp only [cpuStep, hs]
    exact ⟨rfl, rfl, fun _ ↦ by rw [hs]; rfl⟩
  | isInReady | classMay | classReady | flushMay | flushBytes =>
    simp only [cpuStep, hs]
    refine ⟨rfl, rfl, fun hst ↦ ?_⟩
    dsimp only at hst
    split at hst <;> cases hst
  | select | classSelect | flushSelect | flushFull | usbTask =>
    simp only [cpuStep, hs]
    exact ⟨rfl, rfl, fun hst ↦ Bool.noConfusion hst⟩

private theorem still_step {ev : Event} (hev : ev.within = true) (hcpu : ∀ env, ev ≠ .cpu env) :
    s.Still (s.step ev) := by
  cases ev with
  | call c => cases hev
  | cpu env => exact absurd rfl (hcpu env)
  | bus e => cases e <;> exact ⟨rfl, rfl, id⟩
  | request r => exact ⟨rfl, rfl, id⟩
  | poll =>
    simp only [Sender.step]
    split <;> exact ⟨rfl, rfl, id⟩

private theorem Calling.passage_check (h : s.Calling buff) (env : Env) (hs : s.stmt = .check) :
    s.Passage (s.cpuStep env) (.cpu env) := by
  have hchunk := h.inv.chunk_eq hs rfl
  have hw : ¬ s.Writes (.cpu env) := by simp [Writes, hs]
  by_cases hgo : s.device.maySend ∧ s.todo ≠ []
  · have hstep : s.cpuStep env = { s with stmt := .select } := by
      simp only [cpuStep, hs]
      exact if_pos hgo
    refine h.passage_of_still ?_ (by simp [Loses, Fails, hs, hgo.1]) hw
    rw [hstep]
    exact ⟨rfl, rfl, fun hst ↦ Bool.noConfusion hst⟩
  · have hstep : s.cpuStep env = { s with todo := [], stmt := .idle } := by
      simp only [cpuStep, hs]
      exact if_neg hgo
    rw [hstep]
    have hrest : ({ s with todo := [], stmt := .idle } : Sender).remaining = [] := by
      simp [remaining, hchunk]
    refine ⟨fun hyes ↦ absurd hyes hw, fun hl ↦ ⟨s.todo, ?_, ?_⟩, fun hl _ ↦ ?_,
      fun hst ↦ Bool.noConfusion hst, h.chunk_le⟩
    · rcases hl with ⟨-, -, hne⟩ | ⟨hstmt, -⟩ | ⟨hstmt | hstmt, -⟩ | ⟨hstmt, -⟩
      · exact hne
      all_goals
        rw [hs] at hstmt
        cases hstmt
    · rw [hrest, remaining, hchunk, List.nil_append, List.append_nil]
    · -- the loop has come to the end of the buffer
      have htodo : s.todo = [] := by
        by_contra hne
        have hmay : s.device.maySend = false := by simpa [hne] using hgo
        exact hl (.inl ⟨hs, hmay, hne⟩)
      rw [hrest, remaining, hchunk, htodo, List.nil_append]

private theorem Calling.passage_maySend (h : s.Calling buff) (env : Env) (hs : s.stmt = .maySend) :
    s.Passage (s.cpuStep env) (.cpu env) := by
  have hchunk := h.inv.chunk_eq hs rfl
  have htodo : s.todo ≠ [] := (h.inv.looked_eq hs).1
  have hw : ¬ s.Writes (.cpu env) := by simp [Writes, hs]
  have hne : s.todo.take (CDC_RX_EPSIZE - 1) ≠ [] := by
    simp [List.take_eq_nil_iff, htodo, CDC_RX_EPSIZE]
  have hsplit : s.remaining =
      s.todo.take (CDC_RX_EPSIZE - 1) ++ s.todo.drop (CDC_RX_EPSIZE - 1) := by
    rw [remaining, hchunk, List.nil_append, List.take_append_drop]
  cases haccepts : s.device.accepts with
  | true =>
    simp only [cpuStep, hs, haccepts, if_true]
    refine ⟨fun hyes ↦ absurd hyes hw, fun hl ↦ ?_, fun _ _ ↦ hsplit.symm, fun _ ↦ hne,
      List.length_take_le _ _⟩
    simp [Loses, Fails, hs, haccepts] at hl
  | false =>
    simp only [cpuStep, hs, haccepts, Bool.false_eq_true, if_false]
    exact ⟨fun hyes ↦ absurd hyes hw, fun _ ↦ ⟨_, hne, hsplit⟩,
      fun hl ↦ absurd (.inr (.inl ⟨hs, haccepts⟩)) hl, fun hst ↦ Bool.noConfusion hst,
      Nat.zero_le _⟩

private theorem Calling.passage_fails (h : s.Calling buff) {env : Env} (hf : s.Fails (.cpu env)) :
    s.Passage (s.cpuStep env) (.cpu env) := by
  have hstep : s.cpuStep env = s.giveUp := by
    rcases hf with ⟨hs | hs, hfailed⟩ <;> simp only [cpuStep, hs, hfailed]
  have hl : s.Loses (.cpu env) := .inr (.inr (.inl hf))
  have hsending : s.stmt.sending = true := by
    rcases hf.1 with hs | hs <;> rw [hs] <;> rfl
  rw [hstep]
  exact ⟨fun hyes ↦ absurd hyes hl.not_writes, fun _ ↦ ⟨_, h.chunk_ne hsending, rfl⟩,
    fun hno ↦ absurd hl hno, fun hst ↦ Bool.noConfusion hst, Nat.zero_le _⟩

private theorem Calling.passage_write8 (h : s.Calling buff) (env : Env) (hs : s.stmt = .write8) :
    s.Passage (s.cpuStep env) (.cpu env) := by
  cases hchunk : s.chunk with
  | nil => exact absurd hchunk (h.chunk_ne (by rw [hs]; rfl))
  | cons b rest =>
    have hle := h.chunk_le
    rw [hchunk, List.length_cons] at hle
    simp only [cpuStep, hs, write, hchunk]
    have hrem : s.remaining = b :: (rest ++ s.todo) := by rw [remaining, hchunk, List.cons_append]
    refine ⟨fun _ ↦ ⟨b, hrem⟩, fun _ ↦ ⟨[b], List.cons_ne_nil _ _, hrem⟩, fun hl hw ↦ ?_,
      fun hst hnil ↦ ?_, by dsimp only; omega⟩
    · have hdata : s.selected = .dataIn := by
        by_contra hother
        exact hl (.inr (.inr (.inr ⟨hs, hother⟩)))
      exact absurd ⟨hs, hdata⟩ hw
    · dsimp only at hst hnil
      rw [if_pos hnil] at hst
      cases hst

/-- Every event writes a byte of the call, loses some or leaves them. -/
theorem Calling.passage (h : s.Calling buff) {ev : Event} (hev : ev.within = true) :
    s.Passage (s.step ev) ev := by
  cases ev with
  | cpu env =>
    by_cases hcheck : s.stmt = .check
    · exact h.passage_check env hcheck
    by_cases hmay : s.stmt = .maySend
    · exact h.passage_maySend env hmay
    by_cases hfails : s.Fails (.cpu env)
    · exact h.passage_fails hfails
    by_cases hwrite : s.stmt = .write8
    · exact h.passage_write8 env hwrite
    · refine h.passage_of_still (still_cpuStep env hcheck hmay hfails hwrite) ?_ ?_
      · simp [Loses, hcheck, hmay, hfails, hwrite]
      · simp [Writes, hwrite]
  | call _ | bus _ | request _ | poll =>
    exact h.passage_of_still (still_step hev fun _ ↦ Event.noConfusion) id id

/-- What has not been passed behind an event has not been passed in front of it. -/
theorem Passage.suffix {s' : Sender} {ev : Event} (h : s.Passage s' ev) :
    s'.remaining <:+ s.remaining := by
  by_cases hl : s.Loses ev
  · obtain ⟨lost, -, hrem⟩ := h.loses hl
    exact ⟨lost, hrem.symm⟩
  by_cases hw : s.Writes ev
  · obtain ⟨b, hrem⟩ := h.writes hw
    exact ⟨[b], hrem.symm⟩
  · exact ⟨[], h.keeps hl hw⟩

private theorem Calling.step (h : s.Calling buff) {ev : Event} (hev : ev.within = true) :
    (s.step ev).Calling buff :=
  have hp := h.passage hev
  ⟨(h.inv.step ev).inv, h.wired.step ev, hp.suffix.trans h.suffix, hp.chunk_ne, hp.chunk_le⟩

/-! ### The bytes in a run -/

private theorem Calling.getElem?_pointer (h : s.Calling buff) :
    buff[s.pointer buff.length]? = s.remaining[0]? := by
  obtain ⟨passed, hbuff⟩ := h.suffix
  have hlen := congrArg List.length hbuff
  rw [List.length_append] at hlen
  have hpointer : s.pointer buff.length = passed.length := by
    rw [pointer]
    omega
  rw [hpointer, ← hbuff, List.getElem?_append_right (Nat.le_refl _), Nat.sub_self]

/-- The byte written is the first one that has not been passed. -/
theorem Calling.writes_of (h : s.Calling buff) {ev : Event} (hw : s.Writes ev) :
    s.writes ev = s.remaining.take 1 := by
  cases ev with
  | cpu env =>
    have hpos := List.length_pos_iff.mpr (h.chunk_ne (by rw [hw.1]; rfl))
    rw [writes, if_pos hw, remaining, List.take_append_of_le_length hpos]
  | call _ | bus _ | request _ | poll => exact hw.elim

/-- The bytes written are those of the buffer at the places written. -/
theorem Calling.writes_eq (h : s.Calling buff) {ev : Event} (hev : ev.within = true) :
    s.writes ev = (s.writesAt buff.length ev).filterMap (buff[·]?) := by
  by_cases hw : s.Writes ev
  · obtain ⟨b, hrem⟩ := (h.passage hev).writes hw
    have hget : buff[s.pointer buff.length]? = some b := by
      rw [h.getElem?_pointer, hrem]
      rfl
    rw [h.writes_of hw, hrem, writesAt, if_pos hw, List.filterMap_cons_some hget]
    rfl
  · rw [writes, if_neg hw, writesAt, if_neg hw]
    rfl

private theorem Calling.advances (h : s.Calling buff) {ev : Event} (hev : ev.within = true) :
    Advances Loses Writes Sender.step (pointer buff.length) (writesAt buff.length) s ev := by
  have hp := h.passage hev
  have hlen := h.suffix.length_le
  refine ⟨fun hl ↦ ⟨if_neg hl.not_writes, ?_⟩, fun hw ↦ ⟨if_pos hw, ?_⟩,
    fun hl hw ↦ ⟨if_neg hw, ?_⟩⟩
  · obtain ⟨lost, hne, hrem⟩ := hp.loses hl
    have hpos := List.length_pos_iff.mpr hne
    rw [hrem, List.length_append] at hlen
    rw [pointer, pointer, hrem, List.length_append]
    omega
  · obtain ⟨b, hrem⟩ := hp.writes hw
    rw [hrem, List.length_cons] at hlen
    rw [pointer, pointer, hrem, List.length_cons]
    omega
  · rw [pointer, pointer, hp.keeps hl hw]

/-- A run that loses nothing. -/
theorem Calling.observed_writes (h : s.Calling buff) {evs : List Event}
    (hevs : ∀ ev ∈ evs, ev.within = true)
    (hno : Guarded Sender.step (fun s ev ↦ ¬ s.Loses ev) s evs) :
    observed writes Sender.step s evs ++ (run Sender.step s evs).remaining = s.remaining := by
  induction evs generalizing s with
  | nil => rfl
  | cons ev evs ih =>
    have hev := hevs ev (List.mem_cons_self ..)
    have hp := h.passage hev
    have hrest := ih (h.step hev) (fun e he ↦ hevs e (List.mem_cons_of_mem _ he)) hno.2
    rw [observed, run_cons, List.append_assoc, hrest]
    by_cases hw : s.Writes ev
    · obtain ⟨b, hrem⟩ := hp.writes hw
      rw [h.writes_of hw, hrem]
      rfl
    · rw [writes, if_neg hw]
      exact hp.keeps hno.1 hw

/-- When the call returns, everything has been passed. -/
theorem Calling.observed_of_idle (h : s.Calling buff) (hrem : s.remaining = buff)
    {evs : List Event} (hevs : ∀ ev ∈ evs, ev.within = true)
    (hno : Guarded Sender.step (fun s ev ↦ ¬ s.Loses ev) s evs)
    (hend : (run Sender.step s evs).stmt = .idle) :
    observed writes Sender.step s evs = buff := by
  have hinv := h.inv.after_run evs
  have hall := h.observed_writes hevs hno
  rw [remaining, hinv.todo hend, hinv.chunk_eq hend rfl, hrem] at hall
  simpa using hall

/-! ### A call that is not disturbed -/

/-- A chunk is written to an endpoint that was empty, and flushed before the next one. -/
def Room (s : Sender) : Stmt → Prop
  | .isAllowed | .write8 => s.inp.position + s.chunk.length ≤ CDC_RX_EPSIZE - 1
  | .clearFull | .waitFull => False
  | .classMay | .classSelect | .classReady | .flushMay | .flushSelect | .flushBytes | .flushFull
  | .flushClear => True
  | _ => s.inp.position = 0

/-- Of a device that stays ready, the waits find the endpoint ready as long as a chunk fits. -/
theorem Ready.not_loses (hready : s.Ready) (h : s.Inv) {ev : Event}
    (hfull : s.stmt = .waitFull → ¬ s.Fails ev) : ¬ s.Loses ev := by
  cases ev with
  | cpu env =>
    rintro (⟨-, hmay, -⟩ | ⟨-, haccepts⟩ | hfails | ⟨hs, hother⟩)
    · exact absurd hready.1 (by rw [hmay]; exact Bool.false_ne_true)
    · exact absurd hready.2 (by rw [haccepts]; exact Bool.false_ne_true)
    · obtain ⟨hs | hs, hfailed⟩ := hfails
      · -- `Endpoint_IsINReady` has been true, and no packet has been cleared since
        have hnack : s.inp.busNack = true := h.looked_eq hs
        have hin : s.inReady env = true := by
          rw [inReady, if_pos (hready.dataIn h (by rw [hs]; rfl))]
          exact hnack
        rw [waitUntilReady, if_pos hin] at hfailed
        cases hfailed
      · exact hfull hs ⟨.inr hs, hfailed⟩
    · exact hother (hready.dataIn h (by rw [hs]; rfl))
  | call _ | bus _ | request _ | poll => exact id

private theorem Calling.fits (h : s.Calling buff) (hzero : s.inp.position = 0) :
    s.inp.position + s.chunk.length ≤ CDC_RX_EPSIZE - 1 := by
  rw [hzero, Nat.zero_add]
  exact h.chunk_le

private theorem Calling.room_isAllowed (h : s.Calling buff) (hready : s.Ready)
    (hs : s.stmt = .isAllowed) (hfits : s.inp.position + s.chunk.length ≤ CDC_RX_EPSIZE - 1)
    (env : Env) : (s.cpuStep env).Room (s.cpuStep env).stmt := by
  have hdata : s.selected = .dataIn := hready.dataIn h.inv (by rw [hs]; rfl)
  have hallowed : s.isReadWriteAllowed env = true := by
    rw [isReadWriteAllowed, if_pos hdata, InEndpoint.isReadWriteAllowed, decide_eq_true_iff,
      hready.length h.wired]
    exact Nat.lt_of_le_of_lt ((Nat.le_add_right _ _).trans hfits) (by decide)
  simp only [cpuStep, hs, hallowed, if_true]
  exact hfits

private theorem Calling.room_write8 (h : s.Calling buff) (hready : s.Ready)
    (hs : s.stmt = .write8) (hfits : s.inp.position + s.chunk.length ≤ CDC_RX_EPSIZE - 1)
    (env : Env) : (s.cpuStep env).Room (s.cpuStep env).stmt := by
  have hdata : s.selected = .dataIn := hready.dataIn h.inv (by rw [hs]; rfl)
  simp only [cpuStep, hs, write]
  split
  · trivial
  · next b rest hcons =>
    by_cases hrest : rest = []
    · simp only [if_pos hrest]
      trivial
    · rw [hcons, List.length_cons] at hfits
      simp only [if_neg hrest, if_pos hdata]
      change s.inp.position + 1 + rest.length ≤ CDC_RX_EPSIZE - 1
      omega

private theorem Calling.room_classReady (h : s.Calling buff) (hready : s.Ready)
    (hs : s.stmt = .classReady) (env : Env) : (s.cpuStep env).Room (s.cpuStep env).stmt := by
  have hdata : s.selected = .dataIn := hready.dataIn h.inv (by rw [hs]; rfl)
  simp only [cpuStep, hs]
  split
  · trivial
  · next hno =>
    -- a packet waits, and nothing is buffered behind it
    rw [inReady, if_pos hdata, Bool.not_eq_true] at hno
    exact h.inv.inp.position_eq_zero hno

private theorem Calling.room_flushBytes (h : s.Calling buff) (hready : s.Ready)
    (hs : s.stmt = .flushBytes) (env : Env) : (s.cpuStep env).Room (s.cpuStep env).stmt := by
  have hdata : s.selected = .dataIn := hready.dataIn h.inv (by rw [hs]; rfl)
  simp only [cpuStep, hs]
  split
  · trivial
  · next hno => exact position_of_not_hasBytes hdata hno

/-- While the device is ready, every statement leaves room for the next chunk. -/
theorem Calling.room_cpuStep (h : s.Calling buff) (hready : s.Ready) (hroom : s.Room s.stmt)
    (env : Env) : (s.cpuStep env).Room (s.cpuStep env).stmt := by
  have hdata := hready.dataIn h.inv
  have hat : ∀ {st : Stmt}, s.stmt = st → s.Room st := fun hs ↦ hs ▸ hroom
  cases hs : s.stmt with
  | clearFull | waitFull => exact (hat hs).elim
  | idle =>
    simp only [cpuStep, hs]
    exact hat hs
  | check =>
    have hzero : s.inp.position = 0 := hat hs
    simp only [cpuStep, hs]
    split <;> exact hzero
  | select | maySend =>
    have hzero : s.inp.position = 0 := hat hs
    simp only [cpuStep, hs, hready.2, if_true]
    exact hzero
  | isInReady =>
    have hzero : s.inp.position = 0 := hat hs
    simp only [cpuStep, hs]
    split
    · exact hzero
    · trivial
  | selectSend =>
    have hzero : s.inp.position = 0 := hat hs
    simp only [cpuStep, hs]
    split
    · exact hzero
    · exact h.fits hzero
  | waitFirst =>
    have hzero : s.inp.position = 0 := hat hs
    simp only [cpuStep, hs]
    split
    · exact h.fits hzero
    · trivial
    · exact hroom
  | isAllowed => exact h.room_isAllowed hready hs (hat hs) env
  | write8 => exact h.room_write8 hready hs (hat hs) env
  | classMay | classSelect | flushMay | flushSelect | flushFull =>
    simp only [cpuStep, hs, hready.2, if_true]
    trivial
  | classReady => exact h.room_classReady hready hs env
  | flushBytes => exact h.room_flushBytes hready hs env
  | flushClear =>
    have hzero := position_clearIn (hdata (by rw [hs]; rfl))
    simp only [cpuStep, hs]
    split <;> exact hzero
  | flushWait =>
    have hzero : s.inp.position = 0 := hat hs
    simp only [cpuStep, hs]
    split
    · exact hzero
    · exact hzero
    · exact hroom
  | flushAgain =>
    simp only [cpuStep, hs]
    exact position_clearIn (hdata (by rw [hs]; rfl))
  | usbTask =>
    have hzero : s.inp.position = 0 := hat hs
    simp only [cpuStep, hs, runTask]
    change (if s.device.configures = true then s.inp.configure else s.inp).position = 0
    split
    · rfl
    · exact hzero

/-- What holds during a call that is not disturbed. -/
theorem Calling.room_step (h : s.Calling buff) (hready : s.Ready) (hroom : s.Room s.stmt)
    {ev : Event} (hev : ev.within = true) : (s.step ev).Room (s.step ev).stmt := by
  cases ev with
  | call c => cases hev
  | cpu env => exact h.room_cpuStep hready hroom env
  | bus e => cases e <;> exact hroom
  | request r => exact hroom
  | poll =>
    simp only [Sender.step]
    split <;> exact hroom

/-- While the device is ready, nothing is lost if the endpoint was empty, or if no wait fails. -/
theorem Calling.guarded_not_loses (h : s.Calling buff) {evs : List Event}
    (hevs : ∀ ev ∈ evs, ev.within = true) (hready : Guarded Sender.step (fun s _ ↦ s.Ready) s evs)
    (hroom : s.Room s.stmt ∨ Guarded Sender.step (fun s ev ↦ ¬ s.Fails ev) s evs) :
    Guarded Sender.step (fun s ev ↦ ¬ s.Loses ev) s evs := by
  induction evs generalizing s with
  | nil => trivial
  | cons ev evs ih =>
    have hev := hevs ev (List.mem_cons_self ..)
    refine ⟨hready.1.not_loses h.inv fun hs ↦ ?_, ih (h.step hev)
      (fun e he ↦ hevs e (List.mem_cons_of_mem _ he)) hready.2
      (hroom.imp (h.room_step hready.1 · hev) fun hno ↦ hno.2)⟩
    rcases hroom with hroom | hno
    · rw [hs] at hroom
      exact hroom.elim
    · exact hno.1

private theorem Lossless.not_loses {ev : Event} (h : s.Lossless ev) : ¬ s.Loses ev := by
  cases ev with
  | cpu env =>
    obtain ⟨hcheck, hmay, hwait, hwrite, -⟩ := h
    rintro (⟨hs, hno, hne⟩ | ⟨hs, hno⟩ | ⟨hs, hfailed⟩ | ⟨hs, hother⟩)
    · exact Bool.false_ne_true (hno.symm.trans (hcheck hs hne))
    · exact Bool.false_ne_true (hno.symm.trans (hmay hs))
    · exact hwait hs hfailed
    · exact hother (hwrite hs)
  | call _ | bus _ | request _ | poll => exact id

private theorem within_of_mem_rounds {env : Env} {n : Nat} {ev : Event} (h : ev ∈ rounds env n) :
    ev.within = true := by
  obtain ⟨evs, hevs, hev⟩ := List.mem_flatten.mp h
  rw [List.eq_of_mem_replicate hevs] at hev
  rcases List.mem_pair.mp hev with rfl | rfl <;> rfl

private theorem Calling.after_run (h : s.Calling buff) {evs : List Event}
    (hevs : ∀ ev ∈ evs, ev.within = true) : (run Sender.step s evs).Calling buff :=
  (guarded_of_forall hevs).invariant (fun _ _ h hev ↦ h.step hev) h

/-- A device that is still ready and has no request left gets the call through, if the host takes
the packets. -/
theorem Calling.returns (h : s.Calling buff) (hrem : s.remaining = buff) {evs : List Event}
    (hevs : ∀ ev ∈ evs, ev.within = true)
    (hno : Guarded Sender.step (fun s ev ↦ ¬ s.Loses ev) s evs)
    (hready : (run Sender.step s evs).Ready)
    (hsetup : (run Sender.step s evs).device.setup = none) (env : Env) :
    ∃ n, (run Sender.step s (evs ++ rounds env n)).stmt = .idle ∧
      observed writes Sender.step s (evs ++ rounds env n) = buff := by
  have hcalling := h.after_run hevs
  obtain ⟨n, -, hguard, hend, -, -⟩ :=
    (hready.isOpen hcalling.wired hsetup).returns hcalling.inv env
  rw [← run_append] at hend
  have hall : ∀ ev ∈ evs ++ rounds env n, ev.within = true := by
    intro ev hev
    rcases List.mem_append.mp hev with hev | hev
    · exact hevs ev hev
    · exact within_of_mem_rounds hev
  have hnone : Guarded Sender.step (fun s ev ↦ ¬ s.Loses ev) s (evs ++ rounds env n) :=
    hno.append (hguard.mono fun _ _ hev ↦ hev.2.not_loses)
  exact ⟨n, hend, h.observed_of_idle hrem hall hnone hend⟩

/-! ### The call as a whole -/

/-- A call of `USB_serial_put_buf`, whatever has been before. -/
def putBuf (before : List Event) (buff : List UInt8) : Sender :=
  (run Sender.step {} before).step (.call (.putBuf buff))

private theorem calling_putBuf {before : List Event}
    (hidle : (run Sender.step {} before).stmt = .idle) (buff : List UInt8) :
    (putBuf before buff).Calling buff ∧ (putBuf before buff).remaining = buff := by
  have h := inv_start.after_run before
  have hwired := wired_run before
  unfold putBuf
  generalize run Sender.step {} before = s at *
  have hchunk := h.chunk_eq hidle rfl
  have hstep : s.step (.call (.putBuf buff)) = s.enter (.putBuf buff) := if_pos hidle
  have hinv := (h.moves_call (.putBuf buff)).inv
  have hrem : (s.enter (.putBuf buff)).remaining = buff := by
    rw [remaining, enter, hchunk, List.nil_append]
  rw [hstep] at hinv ⊢
  refine ⟨⟨hinv, hwired, ?_, fun hst ↦ Bool.noConfusion hst, ?_⟩, hrem⟩
  · exact ⟨[], hrem⟩
  · rw [enter, hchunk]
    exact Nat.zero_le _

/-- In every run of a call a chunk has at most 63 bytes, and the bytes written to the endpoint are
the first ones of the buffer exactly if none is written after some were lost. While the device is
configured with DTR set and a line rate, nothing is lost if the endpoint was empty at the start or
no wait of the stream write fails: the whole buffer has been written when the call returns, and it
returns if the host takes the packets and no request is left. -/
theorem gapFree_iff {before : List Event} (hidle : (run Sender.step {} before).stmt = .idle)
    (buff : List UInt8) {evs : List Event} (hevs : ∀ ev ∈ evs, ev.within = true) :
    (run Sender.step (putBuf before buff) evs).chunk.length ≤ 63 ∧
    observed writes Sender.step (putBuf before buff) evs =
      (observed (writesAt buff.length) Sender.step (putBuf before buff) evs).filterMap
        (buff[·]?) ∧
    (GapFree buff.length (putBuf before buff) evs ↔
      NeverAfter Loses Writes Sender.step (putBuf before buff) evs) ∧
    (Guarded Sender.step (fun s _ ↦ s.Ready) (putBuf before buff) evs →
      ((putBuf before buff).inp.position = 0 ∨
        Guarded Sender.step (fun s ev ↦ ¬ s.Fails ev) (putBuf before buff) evs) →
      ((run Sender.step (putBuf before buff) evs).stmt = .idle →
        observed writes Sender.step (putBuf before buff) evs = buff) ∧
      ((run Sender.step (putBuf before buff) evs).Ready →
        (run Sender.step (putBuf before buff) evs).device.setup = none →
        ∀ env, ∃ n,
          (run Sender.step (putBuf before buff) (evs ++ rounds env n)).stmt = .idle ∧
          observed writes Sender.step (putBuf before buff) (evs ++ rounds env n) = buff)) := by
  obtain ⟨h, hrem⟩ := calling_putBuf hidle buff
  have hstmt : (putBuf before buff).stmt = .check := by
    rw [putBuf, Sender.step, if_pos hidle]
    rfl
  generalize putBuf before buff = s at *
  have hwithin : Guarded Sender.step (fun _ ev ↦ ev.within = true) s evs := guarded_of_forall hevs
  have hpointer : s.pointer buff.length = 0 := by rw [pointer, hrem, Nat.sub_self]
  refine ⟨(h.after_run hevs).chunk_le, ?_, ?_, fun hready hstart ↦ ?_⟩
  · exact hwithin.observed_eq_filterMap _ (fun _ _ h hev ↦ h.step hev)
      (fun _ _ h hev ↦ h.writes_eq hev) h
  · have hiff := observed_eq_range'_iff (fun _ _ h hev ↦ h.step hev)
      (fun _ _ h hev ↦ h.advances hev) h hwithin
    rw [hpointer] at hiff
    simp only [GapFree, List.range_eq_range']
    exact hiff
  · have hroom : s.Room s.stmt ∨ Guarded Sender.step (fun s ev ↦ ¬ s.Fails ev) s evs := by
      rw [hstmt]
      exact hstart
    have hno := h.guarded_not_loses hevs hready hroom
    exact ⟨h.observed_of_idle hrem hevs hno, h.returns hrem hevs hno⟩

/-- A buffer for three chunks. -/
def threeChunks : List UInt8 := (List.range 130).map UInt8.ofNat

/-- A host that takes every packet gets a call through. -/
theorem gapFree_iff_attached :
    GapFree 130 (putBuf opening threeChunks) (rounds quiet 306) ∧
      observed writes Sender.step (putBuf opening threeChunks) (rounds quiet 306) =
        threeChunks := by
  have h := @gapFree_iff opening (by decide +kernel) threeChunks (rounds quiet 306)
    fun _ ↦ within_of_mem_rounds
  exact ⟨h.2.2.1.mpr (by decide +kernel),
    (h.2.2.2 (by decide +kernel) (.inl (by decide +kernel))).1 (by decide +kernel)⟩

/-- The device is configured again behind the first of three chunks, which zeroes the line rate
and leaves `ok_to_send`, and the host sets the rate again behind the second one, which is lost. -/
def reconfigured : List Event :=
  rounds quiet 140 ++ [.request (.setConfiguration 1)] ++ rounds quiet 6 ++
    [.request (.setLineEncoding 115200)] ++ rounds quiet 25

/-- The bytes of the second chunk are missing. -/
theorem not_gapFree_reconfigured :
    (run Sender.step (putBuf opening threeChunks) reconfigured).stmt = .idle ∧
      observed (writesAt 130) Sender.step (putBuf opening threeChunks) reconfigured =
        List.range 63 ++ List.range' 126 4 ∧
      ¬ GapFree 130 (putBuf opening threeChunks) reconfigured := by
  have hwritten : observed (writesAt 130) Sender.step (putBuf opening threeChunks) reconfigured =
      List.range 63 ++ List.range' 126 4 := by
    decide +kernel
  refine ⟨by decide +kernel, hwritten, ?_⟩
  rintro ⟨k, hk⟩
  rw [hwritten] at hk
  have hlen := congrArg List.length hk
  rw [List.length_range] at hlen
  subst hlen
  revert hk
  decide

/-- A chunk that was not flushed, since the device was suspended, leaves room for one byte of the
next one, and the wait of the stream write for the host fails. -/
example : observed (writesAt 130) Sender.step (putBuf opening threeChunks)
    (rounds quiet 132 ++ [.bus .suspend] ++ .replicate 2 (.cpu quiet) ++ [.bus .resume] ++
      .replicate 10 (.cpu quiet) ++ [.cpu { quiet with givesUp := true }] ++ rounds quiet 60) =
    List.range 64 ++ List.range' 126 4 := by
  decide +kernel

end Sender

end HorrorScope.Usb
