import HorrorScope.Base.Session
import HorrorScope.Link.Device

/-!
# Host and firmware stay in step

Any sequence of operations on a `Scope`, run concurrently with the firmware over a lossless link.
The wire format has no framing, so what keeps the two in step is that every operation, on its
error paths too, reads exactly what the device sends. This rests on a relation between the host's
`numSamples` and the device's `numberOfSamples` that the code does not state: `Mirrors`.
-/

namespace HorrorScope.Link

open HorrorScope.Base HorrorScope.Firmware HorrorScope.Host

/-- The operations, with their arguments. -/
inductive Op where
  | setSamples (numSamples : Nat)
  | set12Bits (bits12 : Bool)
  | setBias (bias : Nat)
  | setDelay (delay : Nat)
  | setSampleSpeed (clockDivider : Nat)
  | setGain (gain : Nat)
  | setGlitchLength (glitchLength : Nat)
  | setPulses (pulses : Nat)
  | powerOn
  | powerOff
  | getSamples
  /-- `arm` followed by `waitForCompletion`. -/
  | arm
  /-- `glitchArm` followed by `waitForGlitcher`. -/
  | glitchArm
  deriving DecidableEq, Repr

/-- The method calls of an operation. -/
def Op.run : Op → ScopeM Unit
  | setSamples numSamples => Host.setSamples numSamples
  | set12Bits bits12 => Host.set12Bits bits12
  | setBias bias => Host.setBias bias
  | setDelay delay => Host.setDelay delay
  | setSampleSpeed clockDivider => Host.setSampleSpeed clockDivider
  | setGain gain => Host.setGain gain
  | setGlitchLength glitchLength => Host.setGlitchLength glitchLength
  | setPulses pulses => Host.setPulses pulses
  | powerOn => Host.powerOn
  | powerOff => Host.powerOff
  | getSamples => do let _ ← Host.getSamples
  | arm => do Host.arm; let _ ← waitForCompletion
  | glitchArm => do let _ ← Host.glitchArm; let _ ← waitForGlitcher

/-- The device never sends more samples than the host asks for. -/
structure Mirrors (host : Scope) (v : Vars) : Prop where
  le_numSamples : v.numberOfSamples.toNat ≤ host.numSamples
  le_scopeBufSize : v.numberOfSamples.toNat ≤ scopeBufSize

variable {η : Type} (handle : Handle η)

/-- From the command read, with nothing unread, the method gets back there with nothing unread. -/
def InStep {α : Type} (m : ScopeM α) (self : Scope) (v : Vars) (h : η) : Prop :=
  ∃ r self' v' h', perform handle m self ⟨.ret v, h, []⟩ = ((r, self'), ⟨.ret v', h', []⟩) ∧
    Mirrors self' v'

variable {handle} {self : Scope} {v : Vars} {h : η}

/-! ### One operation -/

private theorem inStep_of_eq {α : Type} {m : ScopeM α} {r : Except Raised α} {self' : Scope}
    {v' : Vars} {h' : η}
    (hm : perform handle m self ⟨.ret v, h, []⟩ = ((r, self'), ⟨.ret v', h', []⟩))
    (hs : self'.numSamples = self.numSamples) (hv : v'.numberOfSamples = v.numberOfSamples)
    (hmir : Mirrors self v) : InStep handle m self v h :=
  ⟨r, self', v', h', hm, by rw [hv, hs]; exact hmir.le_numSamples,
    by rw [hv]; exact hmir.le_scopeBufSize⟩

private theorem inStep_assert {m : ScopeM Unit} {c : Bool}
    (hm : c = true → InStep handle m self v h) (hmir : Mirrors self v) :
    InStep handle (do assert c; m) self v h := by
  cases hc : c with
  | true =>
    obtain ⟨r, self', v', h', heq, hmir'⟩ := hm hc
    refine ⟨r, self', v', h', ?_, hmir'⟩
    rw [perform_bind_of_ok _ _ _ (perform_assert_of_true _ _ _ rfl)]
    exact heq
  | false =>
    exact inStep_of_eq (perform_bind_of_error _ _ _ (perform_assert_of_false _ _ _ rfl)) rfl rfl
      hmir

private theorem inStep_acks {data : List UInt8} {v' : Vars} {h' : η}
    (ha : Acks handle v h data v' h') (hv : v'.numberOfSamples = v.numberOfSamples)
    (hmir : Mirrors self v) : InStep handle (do serialWrite data; checkResponse) self v h :=
  inStep_of_eq (ha.perform self) rfl hv hmir

private theorem inStep_modify {data : List UInt8} {v' : Vars} {h' : η} {g : Scope → Scope}
    (ha : Acks handle v h data v' h') (hg : (g self).numSamples = self.numSamples)
    (hv : v'.numberOfSamples = v.numberOfSamples) (hmir : Mirrors self v) :
    InStep handle (do modify g; serialWrite data; checkResponse) self v h :=
  inStep_of_eq ((perform_bind_of_ok _ _ _ (perform_modify ..)).trans (ha.perform _)) hg hv hmir

private theorem inStep_setSamples (numSamples : Nat) (hmir : Mirrors self v) :
    InStep handle (setSamples numSamples) self v h := by
  by_cases hfits : numSamples ≤ scopeBufSize
  · have htoNat : (UInt16.ofNat numSamples).toNat = numSamples :=
      UInt16.toNat_ofNat_of_lt' (Nat.lt_of_le_of_lt hfits (by decide))
    exact ⟨_, _, _, _, perform_setSamples self v h hfits, Nat.le_of_eq htoNat,
      Nat.le_trans (Nat.le_of_eq htoNat) hfits⟩
  · have hgt : scopeBufSize < numSamples := Nat.lt_of_not_le hfits
    -- the mirror is assigned although the device keeps its own length, which is smaller
    have hmir' : Mirrors { self with numSamples := numSamples } v :=
      ⟨Nat.le_trans hmir.le_scopeBufSize (Nat.le_of_lt hgt), hmir.le_scopeBufSize⟩
    by_cases hle : numSamples ≤ 0xffff
    · exact ⟨_, _, _, _, perform_setSamples_tooBig self v h hgt hle, hmir'⟩
    · exact ⟨_, _, _, _, perform_setSamples_assertionError self v h (Nat.lt_of_not_le hle), hmir'⟩

private theorem inStep_getSamples (hne : self.numSamples ≠ 0) (hmir : Mirrors self v) :
    InStep handle (do let _ ← getSamples) self v h := by
  obtain ⟨h', bs, hlen, hfeed⟩ : ∃ h', ∃ bs : List UInt8, bs.length = v.numberOfSamples.toNat ∧
      (device handle).feed ⟨.ret v, h, []⟩ [chr 's'] =
        ⟨.ret v, h', none :: bs.flatMap fun b ↦ [none, some b]⟩ :=
    ⟨_, _, length_loads .., feed_sampleFetch handle v h⟩
  have hread : readActions self.numSamples (none :: bs.flatMap fun b ↦ [none, some b]) =
      (bs, []) := by
    -- a read of at least one byte also waits for the device to take the command
    obtain ⟨n, hn⟩ : ∃ n, self.numSamples = n + 1 := Nat.exists_eq_succ_of_ne_zero hne
    rw [hn, readActions_none, ← hn]
    exact readActions_samples (by rw [hlen]; exact hmir.le_numSamples)
  have hget : ∃ r, perform handle getSamples self ⟨.ret v, h, []⟩ =
      ((r, self), ⟨.ret v, h', []⟩) := by
    unfold getSamples
    rw [perform_bind_of_ok _ _ _ (perform_serialWrite ..), hfeed,
      perform_bind_of_ok _ _ _ (perform_get ..), perform_bind_of_ok _ _ _ (perform_serialRead ..),
      hread]
    dsimp only
    split
    · exact ⟨_, rfl⟩
    · split
      · cases frombufferI2 bs with
        | ok items => exact ⟨_, rfl⟩
        | error e => exact ⟨_, rfl⟩
      · exact ⟨_, rfl⟩
  obtain ⟨r, hr⟩ := hget
  cases r with
  | ok samples => exact inStep_of_eq (perform_bind_of_ok _ _ _ hr) rfl rfl hmir
  | error e => exact inStep_of_eq (perform_bind_of_error _ _ _ hr) rfl rfl hmir

private theorem inStep_arm (hmir : Mirrors self v) :
    InStep handle (do arm; let _ ← waitForCompletion) self v h := by
  obtain ⟨h', timedOut, hfeed⟩ := feed_arm handle v h
  have harm : perform handle arm self ⟨.ret v, h, []⟩ =
      ((.ok (), self),
        ⟨.ret v, h', [none, none, some (if timedOut then chr 'e' else chr 'd')]⟩) := by
    unfold arm
    rw [perform_bind_of_ok _ _ _ (perform_serialWrite ..), hfeed]
    rfl
  have hwait : perform handle waitForCompletion self
      ⟨.ret v, h', [none, none, some (if timedOut then chr 'e' else chr 'd')]⟩ =
      ((.ok !timedOut, self), ⟨.ret v, h', []⟩) := by
    cases timedOut <;> rfl
  have hop := (perform_bind_of_ok (f := fun _ ↦ do let _ ← waitForCompletion) _ _ _ harm).trans
    (perform_bind_of_ok _ _ _ hwait)
  exact inStep_of_eq hop rfl rfl hmir

private theorem inStep_glitchArm (hmir : Mirrors self v) :
    InStep handle (do let _ ← glitchArm; let _ ← waitForGlitcher) self v h := by
  obtain ⟨h', n, b, hfeed⟩ := feed_glitch handle v h
  have harm : perform handle glitchArm self ⟨.ret v, h, []⟩ =
      ((.ok false, self), ⟨.ret v, h', none :: (List.replicate n none ++ [some b])⟩) := by
    unfold glitchArm
    rw [perform_bind_of_ok _ _ _ (perform_serialWrite ..), hfeed]
    rfl
  have hwait : perform handle waitForGlitcher self
      ⟨.ret v, h', none :: (List.replicate n none ++ [some b])⟩ =
      ((.ok ([b] != [chr 'd']), self), ⟨.ret v, h', []⟩) := by
    unfold waitForGlitcher
    rw [perform_bind_of_ok _ _ _ (perform_serialRead ..), readActions_none, readActions_replicate]
    rfl
  have hop := (perform_bind_of_ok (f := fun _ ↦ do let _ ← waitForGlitcher) _ _ _ harm).trans
    (perform_bind_of_ok _ _ _ hwait)
  exact inStep_of_eq hop rfl rfl hmir

/-- Every operation, on each of its error paths too, ends in step. -/
theorem inStep_op (op : Op) (hfetch : op = .getSamples → self.numSamples ≠ 0)
    (hmir : Mirrors self v) : InStep handle op.run self v h := by
  cases op with
  | setSamples numSamples => exact inStep_setSamples numSamples hmir
  | set12Bits bits12 => exact inStep_of_eq (perform_set12Bits self v h bits12) rfl rfl hmir
  | setBias bias =>
    exact inStep_assert (fun _ ↦ inStep_modify (acks_setBias v h _ _) rfl rfl hmir) hmir
  | setDelay delay =>
    exact inStep_assert (fun _ ↦ inStep_modify (acks_setDelay v h _ _) rfl rfl hmir) hmir
  | setSampleSpeed clockDivider =>
    exact inStep_assert (fun _ ↦ inStep_modify (acks_setClockDivider v h _) rfl rfl hmir) hmir
  | setGain gain =>
    exact inStep_assert (fun _ ↦ inStep_modify (acks_setGain v h _) rfl rfl hmir) hmir
  | setGlitchLength glitchLength =>
    exact inStep_assert (fun _ ↦ inStep_acks (acks_setGlitchLength v h _ _) rfl hmir) hmir
  | setPulses pulses =>
    exact inStep_assert (fun _ ↦ inStep_acks (acks_setPulses v h _) rfl hmir) hmir
  | powerOn => exact inStep_acks (acks_turnOn v h) rfl hmir
  | powerOff => exact inStep_acks (acks_turnOff v h) rfl hmir
  | getSamples => exact inStep_getSamples (hfetch rfl) hmir
  | arm => exact inStep_arm hmir
  | glitchArm => exact inStep_glitchArm hmir

/-! ### Sequences of operations over the link -/

/-- The host with the operations it still has to perform, and the link. -/
structure Play (η : Type) where
  todo : List Op
  session : Session UInt8 UInt8 Call Call.Answer Vars η (Except Raised Unit × Scope)

/-- Who acts next. -/
inductive PlayEvent where
  | session (e : SessionEvent)
  /-- The host calls its next operation, if the last one has returned or raised. -/
  | next
  deriving DecidableEq, Repr

namespace Play

/-- The object between two operations. -/
def host? (s : Play η) : Option Scope :=
  match s.session.client with
  | .ret (_, self) => some self
  | _ => none

/-- Call the next operation. -/
def next (s : Play η) : Play η :=
  match s.host?, s.todo with
  | some self, op :: todo => ⟨todo, ⟨op.run.run.run self, s.session.link⟩⟩
  | _, _ => s

variable (handle)

/-- One event. -/
def step (s : Play η) : PlayEvent → Play η
  | .session e => { s with session := s.session.step (device handle) e }
  | .next => s.next

/-- The host before the first operation, with the firmware at its command read. -/
def start (self : Scope) (v : Vars) (h : η) (ops : List Op) : Play η :=
  ⟨ops, .ret (.ok (), self), { proc := .ret v, env := h }⟩

/-- `getSamples` is not called with `numSamples = 0`. -/
def FetchesSome (s : Play η) (ev : PlayEvent) : Prop :=
  ev = .next → s.todo.head? = some .getSamples → s.host?.map Scope.numSamples ≠ some 0

/-- Whether a fetch asks for samples can be computed. -/
instance (s : Play η) (ev : PlayEvent) : Decidable (s.FetchesSome ev) :=
  inferInstanceAs (Decidable (_ → _))

/-- The firmware is at its command read and no byte is unread in either direction. -/
def Idle (s : Play η) : Prop := ∃ v h, s.session.link.Rest (.ret v) h

/-- The current operation will end in step. -/
private def WillLand (s : Play η) : Prop :=
  ∃ r self v h, (s.session.outcome (device handle)).1 = (r, self) ∧
    (s.session.outcome (device handle)).2.Quieter ⟨.ret v, h, []⟩ ∧ Mirrors self v

variable {handle}

private theorem WillLand.of_host {s : Play η} (hs : s.WillLand handle) {self : Scope}
    (hself : s.host? = some self) : ∃ v h, s.session.link.Rest (.ret v) h ∧ Mirrors self v := by
  obtain ⟨r, self', v, h, hr, hq, hmir⟩ := hs
  unfold host? at hself
  split at hself
  · next r' self'' hclient =>
    cases hself
    obtain ⟨heq, hrest⟩ := Session.rest_of_ended ⟨hr, hq⟩ hclient
    cases heq
    exact ⟨v, h, hrest, hmir⟩
  · exact absurd hself (by simp)

private theorem WillLand.step {s : Play η} (hs : s.WillLand handle) {ev : PlayEvent}
    (hev : s.FetchesSome ev) : (s.step handle ev).WillLand handle := by
  cases ev with
  | session e =>
    obtain ⟨r, self, v, h, hr, hq, hmir⟩ := hs
    obtain ⟨h₁, h₂⟩ := s.session.outcome_step (device handle) e
    exact ⟨r, self, v, h, h₁.trans hr, h₂.trans hq, hmir⟩
  | next =>
    change s.next.WillLand handle
    unfold Play.next
    split
    · next self op todo hself htodo =>
      obtain ⟨v, h, hrest, hmir⟩ := hs.of_host hself
      have hfetch : op = .getSamples → self.numSamples ≠ 0 := by
        rintro rfl h0
        exact hev rfl (by rw [htodo]; rfl) (by rw [hself, Option.map_some, h0])
      obtain ⟨r, self', v', h', hop, hmir'⟩ := inStep_op op hfetch hmir
      have hout : Session.outcome (device handle) ⟨op.run.run.run self, s.session.link⟩ =
          ((r, self'), ⟨.ret v', h', []⟩) := by
        unfold Session.outcome
        rw [hrest.turn_eq trivial]
        exact hop
      refine ⟨r, self', v', h', by rw [hout], ?_, hmir'⟩
      rw [hout]
      exact .refl _
    · exact hs

/-- From a host and a device in step: in every run of any operations in which `getSamples` is
not called with `numSamples = 0`, whenever an operation has returned or raised, the firmware is
at its command read and no byte is unread in either direction. -/
theorem idle_between_operations (handle : Handle η) {self : Scope} {v : Vars}
    (hmir : Mirrors self v) (h : η) (ops : List Op) (evs : List PlayEvent)
    (hevs : Guarded (step handle) FetchesSome (start self v h ops) evs)
    (hhost : (run (step handle) (start self v h ops) evs).host?.isSome = true) :
    (run (step handle) (start self v h ops) evs).Idle := by
  have hstart : (start self v h ops).WillLand handle :=
    ⟨.ok (), self, v, h, rfl, .refl _, hmir⟩
  obtain ⟨self', hself'⟩ := Option.isSome_iff_exists.mp hhost
  obtain ⟨v', h', hrest, -⟩ :=
    (hevs.invariant (fun _ _ hs hev ↦ hs.step hev) hstart).of_host hself'
  exact ⟨v', h', hrest⟩

/-- Answers for concrete runs: the trigger comes and the samples are zero. -/
def someHandle : Handle Unit := fun c _ ↦ (by cases c <;> exact default, ())

/-- A schedule in which host and firmware take turns, with packets of two bytes. -/
def turns (rounds : Nat) : List PlayEvent :=
  (List.replicate rounds
    [.next, .session .client, .session (.link (.packet 2)), .session (.link .server),
      .session .timeout]).flatten

/-- Five operations, one of which raises. -/
theorem idle_between_operations_turns :
    (run (step someHandle) (start { numSamples := 3584 } {} ()
      [.setSamples 3, .getSamples, .setSamples 5000, .getSamples, .arm]) (turns 55)).todo = [] ∧
    (run (step someHandle) (start { numSamples := 3584 } {} ()
      [.setSamples 3, .getSamples, .setSamples 5000, .getSamples, .arm]) (turns 55)).Idle :=
  ⟨by decide +kernel, idle_between_operations someHandle ⟨by decide, by decide⟩ () _ _
    (by decide +kernel) (by decide +kernel)⟩

/-- With `numSamples = 0`, `getSamples` returns without waiting for anything, and its command is
still on its way. -/
theorem not_idle_between_operations_zero :
    ∃ evs, (run (step someHandle) (start { numSamples := 3584 } {} ()
        [.setSamples 0, .getSamples]) evs).todo = [] ∧
      (run (step someHandle) (start { numSamples := 3584 } {} ()
        [.setSamples 0, .getSamples]) evs).host?.isSome = true ∧
      ¬(run (step someHandle) (start { numSamples := 3584 } {} ()
        [.setSamples 0, .getSamples]) evs).Idle := by
  refine ⟨turns 8 ++ [.next, .session .client, .session .client], by decide +kernel,
    by decide +kernel, ?_⟩
  rintro ⟨v, h, hrest⟩
  exact absurd hrest.inbound (by decide +kernel)

end Play

end HorrorScope.Link
