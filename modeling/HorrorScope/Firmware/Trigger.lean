import HorrorScope.Firmware.Handshake

/-!
# Waiting for a trigger

`trigger_wait` (`trigger.c:34-65`) detects a trigger by the port's flag and has the delay timer
started by DMA channel 1. The two paths are armed by different statements, so an edge may take
one and not the other. The results below say for which placements of edges the two agree. The
first contract rules out edges that raise the flag while the channel is not armed, the second
one edges that reach a channel an earlier wait has left armed.
-/

namespace HorrorScope.Firmware

open HorrorScope.Base Prog

/-! ### Interference by the trigger hardware -/

/-- The hardware acts, and an edge comes only where `ok` allows one. -/
def Rely (ok : Handshake → Prop) (r r' : Hw) : Prop :=
  ∃ e : HwEvent, (e = .edge → ok r.handshake) ∧ r' = e.act r

/-- An assertion the hardware keeps. -/
def Kept (ok P : Handshake → Prop) : Prop :=
  (∀ h, P h → ok h → P h.edge) ∧ ∀ h, P h → P h.overflow

private theorem Kept.stable {ok P : Handshake → Prop} (hP : Kept ok P) :
    Stable (Rely ok) fun r ↦ P r.handshake := by
  rintro r _ h ⟨e, hok, rfl⟩
  rw [Hw.handshake_act]
  cases e with
  | edge => exact hP.1 _ h (hok rfl)
  | overflow => exact hP.2 _ h
  | dmaByte b => exact h
  | compareMatch => exact h

private theorem kept_true (ok : Handshake → Prop) : Kept ok fun _ ↦ True :=
  ⟨fun _ _ _ ↦ trivial, fun _ _ ↦ trivial⟩

/-! ### Proof outlines of `trigger_wait` -/

/-- Assertions between the statements of `trigger_wait`, each one kept by the hardware and
established by the statement in front of it. -/
structure Outline (ok : Handshake → Prop) where
  /-- After `TCD0.CTRLA = 0`. -/
  stopped : Handshake → Prop
  /-- After `TCD0.INTFLAGS = 0xff`. -/
  fresh : Handshake → Prop
  /-- After `PORTA.INTFLAGS = 0x3`. -/
  cleared : Handshake → Prop
  /-- After `DMA.CH1.TRIGSRC = ...`. -/
  sourced : Handshake → Prop
  /-- After `DMA.CH1.CTRLA |= ...` and in the first loop. -/
  rearmed : Handshake → Prop
  /-- When the first loop was left with `timeout > 0`. -/
  caught : Handshake → Prop
  /-- When the overflow was seen. -/
  finished : Handshake → Prop
  keptStopped : Kept ok stopped
  keptFresh : Kept ok fresh
  keptCleared : Kept ok cleared
  keptSourced : Kept ok sourced
  keptRearmed : Kept ok rearmed
  keptCaught : Kept ok caught
  keptFinished : Kept ok finished
  stop : ∀ h : Handshake, stopped h.stop
  clearOverflow : ∀ h, stopped h → fresh h.clearOverflow
  select : ∀ h, fresh h → fresh h.select
  clearFlag : ∀ h, fresh h → cleared h.clearFlag
  source : ∀ h, cleared h → sourced h.source
  enable : ∀ h, sourced h → rearmed h.enable
  seeFlag : ∀ h, rearmed h → h.flagged = true → caught h
  seeOverflow : ∀ h, caught h → h.overflowed = true → finished h
  finish : ∀ h, finished h → finished h.stop

namespace Outline

variable {ok : Handshake → Prop} (o : Outline ok) {W : (Hw → Bool) → Hw → Prop}

private theorem triggerArm_safe (delay : UInt16) (r : Hw) :
    Safe (Rely ok) (fun _ ↦ True) W (fun _ r ↦ o.rearmed r.handshake) (triggerArm delay) r := by
  refine safe_stmt (kept_true ok).stable trivial fun r _ ↦ ?_
  have h := o.stop r.handshake
  rw [← Hw.handshake_stop] at h
  -- the counter and its period
  refine safe_stmt o.keptStopped.stable h fun r h ↦ ?_
  refine safe_stmt o.keptStopped.stable h fun r h ↦ ?_
  refine safe_stmt o.keptStopped.stable h fun r h ↦ ?_
  replace h := o.clearOverflow _ h
  rw [← Hw.handshake_clearOverflow] at h
  -- the channel's counters and the controller's flags
  refine safe_stmt o.keptFresh.stable h fun r h ↦ ?_
  refine safe_stmt o.keptFresh.stable h fun r h ↦ ?_
  refine safe_stmt o.keptFresh.stable h fun r h ↦ ?_
  refine safe_stmt o.keptFresh.stable h fun r h ↦ ?_
  replace h := o.select _ h
  rw [← Hw.handshake_select] at h
  refine safe_stmt o.keptFresh.stable h fun r h ↦ ?_
  replace h := o.clearFlag _ h
  rw [← Hw.handshake_clearFlag] at h
  refine safe_stmt o.keptCleared.stable h fun r h ↦ ?_
  replace h := o.source _ h
  rw [← Hw.handshake_source] at h
  refine safe_stmt o.keptSourced.stable h fun r h ↦ ?_
  replace h := o.enable _ h
  rw [← Hw.handshake_enable] at h
  exact safe_ret o.keptRearmed.stable h fun _ h ↦ h

/-- The first loop is left early only with the flag set. -/
theorem pollTrigger_safe (timeout : Nat) {r : Hw} (hr : o.rearmed r.handshake) :
    Safe (Rely ok) (fun _ ↦ True) W (fun left r ↦ left ≠ 0 → o.caught r.handshake)
      (pollTrigger timeout) r := by
  induction timeout generalizing r with
  | zero => exact safe_ret (kept_true ok).stable trivial fun _ _ h ↦ absurd rfl h
  | succ timeout ih =>
    refine safe_get o.keptRearmed.stable hr fun s hs ↦ ?_
    by_cases h : s.flagged = true
    · simp only [h]
      exact safe_ret o.keptCaught.stable (o.seeFlag _ hs h) fun _ h _ ↦ h
    · simp only [h]
      exact ih hs

private theorem triggerFinish_safe (left : Nat) {r : Hw} (hr : left ≠ 0 → o.caught r.handshake) :
    Safe (Rely ok) (fun _ ↦ True) (fun _ r ↦ o.caught r.handshake)
      (fun timedOut r ↦ timedOut = false → o.finished r.handshake) (triggerFinish left) r := by
  unfold triggerFinish
  by_cases h : left = 0
  · simp only [h, if_true]
    refine safe_stmt (kept_true ok).stable trivial fun r _ ↦ ?_
    refine safe_stmt (kept_true ok).stable trivial fun r _ ↦ ?_
    exact safe_ret (kept_true ok).stable trivial fun _ _ h ↦ absurd h (by decide)
  · simp only [h, if_false]
    refine safe_stmt o.keptCaught.stable (hr h) fun r hr ↦ ?_
    refine safe_await o.keptCaught.stable hr (fun _ h ↦ h) fun r hr ho ↦ ?_
    refine safe_stmt o.keptFinished.stable (o.seeOverflow _ hr ho) fun r hr ↦ ?_
    replace hr := o.finish _ hr
    rw [← Hw.handshake_stop] at hr
    exact safe_ret o.keptFinished.stable hr fun _ h _ ↦ h

private theorem triggerWait_safe (timeout : UInt32) (delay : UInt16) (r : Hw) :
    Safe (Rely ok) (fun _ ↦ True) (fun _ r ↦ o.caught r.handshake)
      (fun timedOut r ↦ timedOut = false → o.finished r.handshake)
      (triggerWait timeout delay) r := by
  refine safe_bind ((o.triggerArm_safe delay r).imp fun _ r hr ↦ ?_)
  refine safe_bind ((o.pollTrigger_safe timeout.toNat hr).imp fun left r hr ↦ ?_)
  exact o.triggerFinish_safe left hr

/-- The outline as a contract of all routines; it says nothing of the others. -/
def contract : Contract where
  rely := Rely ok
  inv _ := True
  atWait
    | .triggerWait _ _, _, r => o.caught r.handshake
    | _, _, _ => True
  post
    | .triggerWait _ _, timedOut, r => timedOut = false → o.finished r.handshake
    | _, _, _ => True

private theorem contract_met (L : Layout) : o.contract.Met L where
  stable := (kept_true ok).stable
  body c _ r _ := by
    cases c with
    | triggerWait timeout delay => exact o.triggerWait_safe timeout delay r
    | _ => exact safe_true _ _

end Outline

/-- Edges come only where `ok` allows one. -/
def EdgesOnly (ok : Handshake → Prop) (m : Machine) : Event → Prop
  | .hw .edge => ok m.hw.handshake
  | _ => True

/-- A condition on the handshake that can be computed can be checked of an event. -/
instance (ok : Handshake → Prop) [DecidablePred ok] (m : Machine) :
    (ev : Event) → Decidable (EdgesOnly ok m ev)
  | .hw .edge => inferInstanceAs (Decidable (ok m.hw.handshake))
  | .hw .overflow => .isTrue trivial
  | .hw (.dmaByte _) => .isTrue trivial
  | .hw .compareMatch => .isTrue trivial
  | .cpu => .isTrue trivial
  | .byte _ => .isTrue trivial

private theorem Outline.contract_run {ok : Handshake → Prop} (o : Outline ok) (L : Layout)
    {evs : List Event} (h : Guarded (Machine.step L) (EdgesOnly ok) .boot evs) :
    o.contract.Holds (run (Machine.step L) .boot evs) := by
  refine (o.contract_met L).run ⟨trivial, Proc.all_true _⟩ (h.mono fun m ev hev ↦ ?_)
  cases ev with
  | cpu => trivial
  | byte b => exact fun v _ _ ↦ Proc.all_true _
  | hw e => exact ⟨e, fun he ↦ by rw [he] at hev; exact hev, rfl⟩

/-! ### A wait for the delay timer finds it started -/

/-- Between the clearing of the port's flag and the arming of the channel, an edge finds the
channel armed. -/
def NotLost (h : Handshake) : Prop := h.log.phase = .cleared → h.armed = true

/-- The port has not flagged an edge that left the timer off. -/
private def Followed (h : Handshake) : Prop :=
  h.flagged = true → h.timerOn = true ∨ h.overflowed = true

/-- The timer runs or has run out. -/
private def Started (h : Handshake) : Prop := h.timerOn = true ∨ h.overflowed = true

private theorem started_edge {h : Handshake} (hs : h.armed = true ∨ Started h) :
    Started h.edge := by
  rcases hs with ha | ht | ho
  · exact .inl (by simp [Handshake.edge, ha])
  · exact .inl (by simp [Handshake.edge, ht])
  · exact .inr ho

private theorem started_overflow {h : Handshake} (hs : Started h) : Started h.overflow := by
  rcases hs with ht | ho
  · exact .inl ht
  · exact .inr (by simp [Handshake.overflow, ho])

private theorem followed_overflow {h : Handshake} (hf : Followed h) : Followed h.overflow :=
  fun h' ↦ started_overflow (hf h')

private theorem kept_cleared : Kept NotLost fun h ↦ h.log.phase = .cleared ∧ Followed h := by
  refine ⟨fun h hc hok ↦ ⟨hc.1, fun _ ↦ ?_⟩, fun h hc ↦ ⟨hc.1, followed_overflow hc.2⟩⟩
  exact started_edge (.inl (hok hc.1))

private theorem kept_rearmed : Kept NotLost fun h ↦ Followed h ∧ (h.armed = true ∨ Started h) := by
  refine ⟨fun h hr _ ↦ ⟨fun _ ↦ ?_, .inr ?_⟩, fun h hr ↦ ⟨followed_overflow hr.1, ?_⟩⟩
  · exact started_edge hr.2
  · exact started_edge hr.2
  · exact hr.2.imp_right started_overflow

/-- Without lost edges: once the flag is seen, the timer has been started. -/
def startedOutline : Outline NotLost where
  stopped _ := True
  fresh _ := True
  cleared h := h.log.phase = .cleared ∧ Followed h
  sourced h := (h.log.phase = .cleared ∧ Followed h) ∧ h.sourced = true
  rearmed h := Followed h ∧ (h.armed = true ∨ Started h)
  caught h := Started h
  finished _ := True
  keptStopped := kept_true _
  keptFresh := kept_true _
  keptCleared := kept_cleared
  keptSourced := ⟨fun h hs hok ↦ ⟨kept_cleared.1 h hs.1 hok, hs.2⟩,
    fun h hs ↦ ⟨kept_cleared.2 h hs.1, hs.2⟩⟩
  keptRearmed := kept_rearmed
  keptCaught := ⟨fun _ hs _ ↦ started_edge (.inr hs), fun _ hs ↦ started_overflow hs⟩
  keptFinished := kept_true _
  stop _ := trivial
  clearOverflow _ _ := trivial
  select _ _ := trivial
  clearFlag _ _ := ⟨rfl, fun hf ↦ absurd hf Bool.false_ne_true⟩
  source _ hc := ⟨hc, rfl⟩
  enable _ hs := ⟨hs.1.2, .inl hs.2⟩
  seeFlag _ hr hf := hr.1 hf
  seeOverflow _ _ _ := trivial
  finish _ _ := trivial

/-- The processor is in the second loop of `trigger_wait`, its only busy wait. -/
def Machine.awaitsOverflow (m : Machine) : Bool :=
  match m.ctl with
  | .inCall (.triggerWait _ _) (.await _ _) _ => true
  | _ => false

private theorem exists_of_awaitsOverflow {m : Machine} (h : m.awaitsOverflow = true) :
    ∃ timeout delay c k' k, m.ctl = .inCall (.triggerWait timeout delay) (.await c k') k := by
  unfold Machine.awaitsOverflow at h
  split at h
  · next timeout delay c k' k hctl => exact ⟨timeout, delay, c, k', k, hctl⟩
  · exact absurd h Bool.false_ne_true

/-- In every run from reset in which no edge comes between the clearing of the port's flag and
the arming of the channel while the channel is not armed, `trigger_wait` waits for the overflow
flag only with the timer running or the flag set. -/
theorem started_of_awaitsOverflow (L : Layout) (evs : List Event)
    (hevs : Guarded (Machine.step L) (EdgesOnly NotLost) .boot evs)
    (hm : (run (Machine.step L) .boot evs).awaitsOverflow = true) :
    (run (Machine.step L) .boot evs).hw.timerOn = true ∨
      (run (Machine.step L) .boot evs).hw.overflowed = true := by
  obtain ⟨timeout, delay, c, k', k, hctl⟩ := exists_of_awaitsOverflow hm
  exact ((startedOutline.contract_run L hevs).of_inCall hctl).2.of_await

/-- Whether an edge is lost can be computed. -/
instance (h : Handshake) : Decidable (NotLost h) :=
  inferInstanceAs (Decidable (_ → _))

/-- A wait whose trigger comes after the channel was armed. -/
def caughtEdge : List Event :=
  afterCommand (chr 'f') ++ List.replicate 13 .cpu ++ [.hw .edge] ++ List.replicate 2 .cpu

/-- An edge behind the arming starts the timer. -/
theorem started_of_awaitsOverflow_caughtEdge :
    (run (Machine.step someLayout) .boot caughtEdge).awaitsOverflow = true ∧
    ((run (Machine.step someLayout) .boot caughtEdge).hw.timerOn = true ∨
      (run (Machine.step someLayout) .boot caughtEdge).hw.overflowed = true) :=
  ⟨by decide +kernel, started_of_awaitsOverflow _ _ (by decide +kernel) (by decide +kernel)⟩

/-- An edge right after the port's flag was cleared: the flag ends the first loop, and nothing
has started the timer the second loop waits for. -/
theorem not_started_of_awaitsOverflow_lost_edge :
    ∃ evs : List Event, (run (Machine.step someLayout) .boot evs).awaitsOverflow = true ∧
      (run (Machine.step someLayout) .boot evs).hw.timerOn = false ∧
      (run (Machine.step someLayout) .boot evs).hw.overflowed = false :=
  ⟨afterCommand (chr 'f') ++ List.replicate 11 .cpu ++ [.hw .edge] ++ List.replicate 4 .cpu,
    by decide +kernel⟩

/-! ### The delay is counted from the trigger that ended the wait -/

/-- An edge finds the channel armed only after the latest wait has cleared the port's flag. -/
def NotStale (h : Handshake) : Prop := h.log.phase ≠ .stopped ∨ h.armed = false

/-- An edge finds the channel armed only after the latest wait has armed it itself. -/
def OwnArming (h : Handshake) : Prop := h.log.phase = .rearmed ∨ h.armed = false

private def Off (h : Handshake) : Prop := h.log.phase = .stopped ∧ h.timerOn = false

private theorem kept_off : Kept NotStale Off := by
  refine ⟨fun h ho hok ↦ ⟨ho.1, ?_⟩, fun h ho ↦ ho⟩
  have ha : h.armed = false := hok.resolve_left fun hne ↦ hne ho.1
  simp [Handshake.edge, ha, ho.2]

private def OffFresh (h : Handshake) : Prop := Off h ∧ h.overflowed = false

private theorem kept_offFresh : Kept NotStale OffFresh := by
  refine ⟨fun h ho hok ↦ ⟨kept_off.1 h ho.1 hok, ho.2⟩, fun h ho ↦ ⟨kept_off.2 h ho.1, ?_⟩⟩
  simp [Handshake.overflow, ho.1.2, ho.2]

/-- The timer's run and the overflow seen belong to edges after the clearing. -/
private structure Own (h : Handshake) : Prop where
  clearedAt : h.log.clearedAt ≤ h.log.edges
  startedBy : h.timerOn = true → h.log.clearedAt ≤ h.log.startedBy
  overflowedBy : h.overflowed = true → h.log.clearedAt ≤ h.log.overflowedBy

private theorem own_edge {h : Handshake} (ho : Own h) : Own h.edge where
  clearedAt := Nat.le_succ_of_le ho.clearedAt
  startedBy ht := by
    change h.log.clearedAt ≤ if h.armed && !h.timerOn then h.log.edges else h.log.startedBy
    split
    · exact ho.clearedAt
    · next hn =>
      -- the timer ran before the edge, or the edge would have started it
      have ht' : h.timerOn = true := by
        cases hon : h.timerOn with
        | true => rfl
        | false =>
          have ha : h.armed = true := by simpa [Handshake.edge, hon] using ht
          simp [ha, hon] at hn
      exact ho.startedBy ht'
  overflowedBy := ho.overflowedBy

private theorem own_overflow {h : Handshake} (ho : Own h) : Own h.overflow where
  clearedAt := ho.clearedAt
  startedBy := ho.startedBy
  overflowedBy h' := by
    change h.log.clearedAt ≤
      if h.timerOn && !h.overflowed then h.log.startedBy else h.log.overflowedBy
    split
    · next hn =>
      rw [Bool.and_eq_true] at hn
      exact ho.startedBy hn.1
    · next hn =>
      refine ho.overflowedBy ?_
      cases hov : h.overflowed with
      | true => rfl
      | false =>
        have ht : h.timerOn = true := by simpa [Handshake.overflow, hov] using h'
        simp [ht, hov] at hn

private theorem kept_own : Kept NotStale Own :=
  ⟨fun _ ho _ ↦ own_edge ho, fun _ ho ↦ own_overflow ho⟩

private theorem own_of_offFresh {h : Handshake} (ho : OffFresh h) : Own h.clearFlag where
  clearedAt := Nat.le_refl _
  startedBy ht := absurd (ho.1.2.symm.trans ht) Bool.false_ne_true
  overflowedBy hv := absurd (ho.2.symm.trans hv) Bool.false_ne_true

private def OwnOverflow (h : Handshake) : Prop :=
  h.overflowed = true ∧ h.log.clearedAt ≤ h.log.overflowedBy

private theorem kept_ownOverflow : Kept NotStale OwnOverflow := by
  refine ⟨fun h ho _ ↦ ho, fun h ho ↦ ⟨?_, ?_⟩⟩
  · simp [Handshake.overflow, ho.1]
  · simpa [Handshake.overflow, ho.1] using ho.2

/-- Without stale edges: the overflow seen is that of a run started after the clearing. -/
def ownTriggerOutline : Outline NotStale where
  stopped := Off
  fresh := OffFresh
  cleared := Own
  sourced := Own
  rearmed := Own
  caught := Own
  finished := OwnOverflow
  keptStopped := kept_off
  keptFresh := kept_offFresh
  keptCleared := kept_own
  keptSourced := kept_own
  keptRearmed := kept_own
  keptCaught := kept_own
  keptFinished := kept_ownOverflow
  stop _ := ⟨rfl, rfl⟩
  clearOverflow _ ho := ⟨ho, rfl⟩
  select _ ho := ho
  clearFlag _ ho := own_of_offFresh ho
  source _ ho := ⟨ho.clearedAt, ho.startedBy, ho.overflowedBy⟩
  enable _ ho := ⟨ho.clearedAt, ho.startedBy, ho.overflowedBy⟩
  seeFlag _ ho _ := ho
  seeOverflow _ ho hv := ⟨hv, ho.overflowedBy hv⟩
  finish _ ho := ho

private theorem edge_tcd0_of_not_armed {r : Hw} (h : r.armed = false) :
    r.edge.tcd0 = r.tcd0 := by
  simp only [Hw.edge, h, Bool.false_eq_true, if_false, Hw.raisePortFlag]
  split <;> rfl

/-- The value `trigger_wait` is about to return. -/
def Machine.waitReturns (m : Machine) : Option Bool :=
  match m.ctl with
  | .inCall (.triggerWait _ _) (.ret timedOut) _ => some timedOut
  | _ => none

private theorem exists_of_waitReturns {m : Machine} {timedOut : Bool}
    (h : m.waitReturns = some timedOut) :
    ∃ timeout delay k, m.ctl = .inCall (.triggerWait timeout delay) (.ret timedOut) k := by
  unfold Machine.waitReturns at h
  split at h
  · next timeout delay timedOut' k hctl =>
    cases h
    exact ⟨timeout, delay, k, hctl⟩
  · exact absurd h (by simp)

/-- Whether an edge is stale can be computed. -/
instance (h : Handshake) : Decidable (NotStale h) :=
  inferInstanceAs (Decidable (_ ∨ _))

/-- Whether the wait has armed the channel itself can be computed. -/
instance (h : Handshake) : Decidable (OwnArming h) :=
  inferInstanceAs (Decidable (_ ∨ _))

/-- A wait with `timeout = 1` that times out. -/
def timedOutWait : List Event :=
  afterCommand (chr 'e') ++ [.byte 0, .byte 1] ++ List.replicate 2 .cpu ++ [.byte (chr 'f')] ++
    List.replicate 19 .cpu

/-- The controller is reset by `8`, an edge finds nothing armed, and the next wait catches its
own trigger. -/
def ownEdge : List Event :=
  timedOutWait ++ [.byte (chr '8'), .byte 1] ++ List.replicate 36 .cpu ++ [.hw .edge] ++
    [.byte (chr 'f')] ++ List.replicate 13 .cpu ++ [.hw .edge, .hw .overflow] ++
    List.replicate 4 .cpu

/-- An edge behind the clearing of the flag is the own one of the wait, though an earlier one has
left the channel armed. -/
example : Guarded (Machine.step someLayout) (EdgesOnly NotStale) .boot
    (timedOutWait ++ [.byte (chr 'f')] ++ List.replicate 11 .cpu ++ [.hw .edge]) ∧
    ¬ Guarded (Machine.step someLayout) (EdgesOnly OwnArming) .boot
      (timedOutWait ++ [.byte (chr 'f')] ++ List.replicate 11 .cpu ++ [.hw .edge]) := by
  decide +kernel

/-- After a wait that timed out, the channel is still armed. An edge at the start of the next
wait, before it clears the port's flag, starts the timer, and its overflow ends that wait. -/
def staleEdge : List Event :=
  timedOutWait ++ [.byte (chr 'f')] ++ List.replicate 6 .cpu

end HorrorScope.Firmware
