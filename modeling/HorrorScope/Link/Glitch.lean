import HorrorScope.Link.Commands

/-!
# The glitch that is fired

`setDelay`, `setGlitchLength` and `setPulses` send the parameters of a glitch, `glitchArm` has it
fired. Whatever a method reads, and whether it raises or not, all it writes are whole commands, so
the variables of `main` follow from the methods called alone. The commands are run on the machine,
with any behaviour of the hardware.
-/

namespace HorrorScope.Link

open HorrorScope.Base HorrorScope.Firmware HorrorScope.Host

/-! ### What the methods send -/

/-- The bytes are whole commands that turn the variables `v` into `v'`. -/
def Commands (v : Vars) (data : List UInt8) (v' : Vars) : Prop :=
  ∃ cmds : List Cmd, data = cmds.flatMap Cmd.bytes ∧ varsAfter cmds v = v'

private theorem Commands.refl (v : Vars) : Commands v [] v := ⟨[], rfl, rfl⟩

private theorem Commands.trans {v v' v'' : Vars} {data data' : List UInt8} (h : Commands v data v')
    (h' : Commands v' data' v'') : Commands v (data ++ data') v'' := by
  obtain ⟨cmds, rfl, rfl⟩ := h
  obtain ⟨cmds', rfl, rfl⟩ := h'
  exact ⟨cmds ++ cmds', by rw [List.flatMap_append], List.foldl_append⟩

private theorem Cmd.commands (cmd : Cmd) (v : Vars) : Commands v cmd.bytes (cmd.effect v).1 :=
  ⟨[cmd], by rw [List.flatMap_singleton], rfl⟩

/-- Whatever the method reads, it sends whole commands and ends with `Q` of its result, the object
and the device's variables. -/
def Leads {α : Type} (m : ScopeM α) (Q : Except Raised α → Scope → Vars → Prop) (self : Scope)
    (v : Vars) : Prop :=
  (m.run.run self).Sends Commands (fun r v' ↦ Q r.1 r.2 v') v

section Rules

variable {α β : Type} {Q : Except Raised α → Scope → Vars → Prop} {self : Scope} {v : Vars}

private theorem Leads.mono {Q' : Except Raised α → Scope → Vars → Prop} {m : ScopeM α}
    (h : Leads m Q self v) (hQ : ∀ r self v, Q r self v → Q' r self v) : Leads m Q' self v :=
  Client.Sends.mono (fun _ _ ↦ hQ _ _ _) h

/-- A method that raises ends the one it is called by. -/
theorem leads_bind {m : ScopeM β} {f : β → ScopeM α}
    (h : Leads m (fun r self' v' ↦ match r with
      | .ok b => Leads (f b) Q self' v'
      | .error e => Q (.error e) self' v') self v) : Leads (m >>= f) Q self v := by
  refine Client.sends_bind (Client.Sends.mono ?_ h)
  rintro ⟨r, self'⟩ v' hr
  cases r with
  | ok b => exact hr
  | error e => exact hr

private theorem leads_pure {a : α} (h : Q (.ok a) self v) : Leads (pure a) Q self v := h

private theorem leads_throw {e : Raised} (h : Q (.error e) self v) : Leads (throw e) Q self v := h

private theorem leads_get {Q : Except Raised Scope → Scope → Vars → Prop}
    (h : Q (.ok self) self v) :
    Leads get Q self v := h

private theorem leads_modify {Q : Except Raised Unit → Scope → Vars → Prop} {g : Scope → Scope}
    (h : Q (.ok ()) (g self) v) : Leads (modify g) Q self v := h

private theorem leads_assert {Q : Except Raised Unit → Scope → Vars → Prop} {c : Bool}
    (htrue : c = true → Q (.ok ()) self v)
    (hfalse : c = false → Q (.error .assertionError) self v) :
    Leads (assert c) Q self v := by
  cases c with
  | true => exact htrue rfl
  | false => exact hfalse rfl

private theorem leads_serialRead {Q : Except Raised (List UInt8) → Scope → Vars → Prop} {size : Nat}
    (h : ∀ data, Q (.ok data) self v) : Leads (serialRead size) Q self v := h

private theorem leads_serialReopen {Q : Except Raised Unit → Scope → Vars → Prop}
    (h : Q (.ok ()) self v) :
    Leads serialReopen Q self v := h

private theorem leads_serialWrite {Q : Except Raised Unit → Scope → Vars → Prop} (cmd : Cmd)
    (h : Q (.ok ()) self (cmd.effect v).1) : Leads (serialWrite cmd.bytes) Q self v :=
  ⟨_, cmd.commands v, h⟩

private theorem leads_checkResponse {Q : Except Raised Unit → Scope → Vars → Prop}
    (h : ∀ r, Q r self v) : Leads checkResponse Q self v := by
  apply leads_bind
  apply leads_serialRead
  intro response
  dsimp only
  split
  · apply leads_bind
    apply leads_serialRead
    intro extra
    exact leads_throw (h _)
  · exact leads_pure (h _)

/-- A command and the check of its acknowledgement. -/
theorem leads_command {Q : Except Raised Unit → Scope → Vars → Prop} (cmd : Cmd)
    (h : ∀ r, Q r self (cmd.effect v).1) :
    Leads (do serialWrite cmd.bytes; checkResponse) Q self v := by
  apply leads_bind
  apply leads_serialWrite
  exact leads_checkResponse h

/-- A check of the argument in front of a method. -/
theorem leads_checked {Q : Except Raised Unit → Scope → Vars → Prop} {c : Bool} {m : ScopeM Unit}
    (htrue : c = true → Leads m Q self v) (hfalse : c = false → Q (.error .assertionError) self v) :
    Leads (do assert c; m) Q self v := by
  apply leads_bind
  exact leads_assert htrue hfalse

end Rules

/-! ### The parameters of a glitch -/

/-- The methods of a `Scope`, with their arguments. -/
inductive Method where
  | setSamples (numSamples : Nat)
  | set12Bits (bits12 : Bool)
  | setBias (bias : Nat)
  | setDelay (delay : Nat)
  | setSampleSpeed (clockDivider : Nat)
  | setGain (gain : Nat)
  | arm
  | waitForCompletion
  | getSamples
  | powerOn
  | powerOff
  | setGlitchLength (glitchLength : Nat)
  | setPulses (pulses : Nat)
  | glitchArm
  | waitForGlitcher
  /-- `reconnect`, with the number of probes its loop has made when it is looked at. -/
  | reconnect (probes : Nat)
  deriving DecidableEq, Repr

/-- The method called. -/
def Method.run : Method → ScopeM Unit
  | setSamples numSamples => Host.setSamples numSamples
  | set12Bits bits12 => Host.set12Bits bits12
  | setBias bias => Host.setBias bias
  | setDelay delay => Host.setDelay delay
  | setSampleSpeed clockDivider => Host.setSampleSpeed clockDivider
  | setGain gain => Host.setGain gain
  | arm => Host.arm
  | waitForCompletion => do let _ ← Host.waitForCompletion
  | getSamples => do let _ ← Host.getSamples
  | powerOn => Host.powerOn
  | powerOff => Host.powerOff
  | setGlitchLength glitchLength => Host.setGlitchLength glitchLength
  | setPulses pulses => Host.setPulses pulses
  | glitchArm => do let _ ← Host.glitchArm
  | waitForGlitcher => do let _ ← Host.waitForGlitcher
  | reconnect probes => do let _ ← Host.reconnect probes

/-- The parameters requested by methods whose arguments pass the host's assertions. -/
structure Requested where
  delay : Option Nat := none
  length : Option Nat := none
  pulses : Option Nat := none
  deriving DecidableEq, Repr

/-- The last request counts. -/
def Method.request (q : Requested) : Method → Requested
  | setDelay delay => if delay ≤ 0xffff then { q with delay := some delay } else q
  | setGlitchLength glitchLength =>
    if glitchLength < 0xffff then { q with length := some glitchLength } else q
  | setPulses pulses => if pulses < 0xff then { q with pulses := some pulses } else q
  | _ => q

/-- What the variables of `main` make of the parameters requested: of the length only the low byte
is kept. -/
structure Applied (q : Requested) (host : Scope) (v : Vars) : Prop where
  delay : ∀ d, q.delay = some d → host.delay = d ∧ v.delay.toNat = d
  length : ∀ l, q.length = some l → v.glitchLength.toNat = l % 256
  pulses : ∀ p, q.pulses = some p → v.pulses.toNat = p

variable {q : Requested} {self self' : Scope} {v v' : Vars}

/-- The command byte is none that sets a parameter of the glitch. -/
def Other (b : UInt8) : Prop :=
  Command.ofByte b ∉ [some .setDelay, some .setGlitchLength, some .setPulses]

/-- Whether a command is another one can be computed. -/
instance (b : UInt8) : Decidable (Other b) := inferInstanceAs (Decidable (_ ∉ _))

private theorem effect_other {c : Command}
    (hc : some c ∉ [some Command.setDelay, some .setGlitchLength, some .setPulses]) (v : Vars)
    (operands : List UInt8) :
    (effect v c operands).1.delay = v.delay ∧
      (effect v c operands).1.glitchLength = v.glitchLength ∧
      (effect v c operands).1.pulses = v.pulses := by
  unfold effect
  split
  all_goals first
    | exact ⟨rfl, rfl, rfl⟩
    | exact absurd hc (by decide)
    | split <;> exact ⟨rfl, rfl, rfl⟩

private theorem Applied.kept (h : Applied q self v) (hself : self'.delay = self.delay)
    (hv : v'.delay = v.delay ∧ v'.glitchLength = v.glitchLength ∧ v'.pulses = v.pulses) :
    Applied q self' v' where
  delay d hd := by
    rw [hself, hv.1]
    exact h.delay d hd
  length l hl := by
    rw [hv.2.1]
    exact h.length l hl
  pulses p hp := by
    rw [hv.2.2]
    exact h.pulses p hp

private theorem Applied.cmd (h : Applied q self v) (hself : self'.delay = self.delay) {cmd : Cmd}
    (hcmd : Other cmd.byte) : Applied q self' (cmd.effect v).1 := by
  unfold Other at hcmd
  unfold Cmd.effect
  cases hb : Command.ofByte cmd.byte with
  | none => exact h.kept hself ⟨rfl, rfl, rfl⟩
  | some c =>
    rw [hb] at hcmd
    exact h.kept hself (effect_other hcmd v cmd.operands)

/-- The parameters are applied behind the method, whether it raises or not. -/
private abbrev Applies {α : Type} (q : Requested) (m : ScopeM α) (self : Scope) (v : Vars) : Prop :=
  Leads m (fun _ self' v' ↦ Applied q self' v') self v

private theorem applies_bind {α β : Type} {q' : Requested} {m : ScopeM β} {f : β → ScopeM α}
    (hm : Applies q m self v) (herr : ∀ self' v', Applied q self' v' → Applied q' self' v')
    (hf : ∀ b self' v', Applied q self' v' → Applies q' (f b) self' v') :
    Applies q' (m >>= f) self v := by
  apply leads_bind
  refine hm.mono fun r self' v' h ↦ ?_
  cases r with
  | ok b => exact hf b self' v' h
  | error e => exact herr self' v' h

private theorem applies_command (h : Applied q self v) (hself : self'.delay = self.delay)
    {b : UInt8} (hb : Other b) (operands : List UInt8)
    (hops : operands.length = ((Command.ofByte b).map operandCount).getD 0) :
    Applies q (do serialWrite (b :: operands); checkResponse) self' v :=
  leads_command ⟨b, operands, hops⟩ fun _ ↦ h.cmd hself hb

private theorem applies_modify (h : Applied q self v) (g : Scope → Scope)
    (hg : (g self).delay = self.delay) {b : UInt8} (hb : Other b) (operands : List UInt8)
    (hops : operands.length = ((Command.ofByte b).map operandCount).getD 0) :
    Applies q (do modify g; serialWrite (b :: operands); checkResponse) self v := by
  apply leads_bind
  apply leads_modify
  exact applies_command h hg hb operands hops

private theorem applies_setSamples (h : Applied q self v) (numSamples : Nat) :
    Applies q (setSamples numSamples) self v := by
  apply leads_bind
  apply leads_modify
  apply leads_checked
  · intro _
    have hself : ({ self with numSamples := numSamples } : Scope).delay = self.delay := rfl
    exact applies_command h hself (by decide) (bigEndian numSamples) rfl
  · intro _
    exact h.kept rfl ⟨rfl, rfl, rfl⟩

private theorem applies_set12Bits (h : Applied q self v) (bits12 : Bool) :
    Applies q (set12Bits bits12) self v :=
  applies_modify h _ rfl (by decide) [if bits12 then 1 else 0] rfl

private theorem applies_setBias (h : Applied q self v) (bias : Nat) :
    Applies q (setBias bias) self v := by
  apply leads_checked
  · intro _
    exact applies_modify h _ rfl (by decide) (bigEndian bias) rfl
  · intro _
    exact h

private theorem applies_setSampleSpeed (h : Applied q self v) (clockDivider : Nat) :
    Applies q (setSampleSpeed clockDivider) self v := by
  apply leads_checked
  · intro _
    exact applies_modify h _ rfl (by decide) [UInt8.ofNat clockDivider] rfl
  · intro _
    exact h

private theorem applies_setGain (h : Applied q self v) (gain : Nat) :
    Applies q (setGain gain) self v := by
  apply leads_checked
  · intro _
    exact applies_modify h _ rfl (by decide) [UInt8.ofNat gain] rfl
  · intro _
    exact h

private theorem applies_arm (h : Applied q self v) : Applies q arm self v := by
  apply leads_bind
  apply leads_serialWrite ⟨chr 'd', [], rfl⟩
  apply leads_bind
  apply leads_serialRead
  intro armed
  dsimp only
  split
  · apply leads_bind
    apply leads_serialRead
    intro additional
    exact leads_throw (h.cmd rfl (by decide))
  · exact leads_pure (h.cmd rfl (by decide))

private theorem applies_waitForCompletion (h : Applied q self v) :
    Applies q waitForCompletion self v := by
  apply leads_bind
  apply leads_serialRead
  intro response
  dsimp only
  split
  · exact leads_pure h
  · split
    · exact leads_pure h
    · exact leads_throw h

private theorem applies_getSamples (h : Applied q self v) : Applies q getSamples self v := by
  have h' : Applied q self (Cmd.effect v ⟨chr 's', [], rfl⟩).1 := h.cmd rfl (by decide)
  apply leads_bind
  apply leads_serialWrite ⟨chr 's', [], rfl⟩
  apply leads_bind
  apply leads_get
  apply leads_bind
  apply leads_serialRead
  intro samples
  dsimp only
  split
  · exact leads_throw h'
  · split
    · cases frombufferI2 samples with
      | ok items => exact h'
      | error e => exact h'
    · exact leads_pure h'

private theorem applies_glitchArm (h : Applied q self v) : Applies q glitchArm self v := by
  apply leads_bind
  apply leads_serialWrite ⟨chr 'h', [], rfl⟩
  apply leads_bind
  apply leads_serialRead
  intro response
  exact leads_pure (h.cmd rfl (by decide))

private theorem applies_waitForGlitcher (h : Applied q self v) :
    Applies q waitForGlitcher self v := by
  apply leads_bind
  apply leads_serialRead
  intro response
  exact leads_pure h

/-! ### The three setters -/

private theorem applied_delay (h : Applied q self v) {delay : Nat} (hd : delay ≤ 0xffff) :
    Applied { q with delay := some delay } { self with delay := delay }
      (Cmd.effect v ⟨chr 'w', bigEndian delay, rfl⟩).1 where
  delay d hd' := by
    cases hd'
    exact ⟨rfl, toNat_short_bigEndian hd⟩
  length := h.length
  pulses := h.pulses

private theorem applies_setDelay (h : Applied q self v) (delay : Nat) :
    Applies (Method.request q (.setDelay delay)) (setDelay delay) self v := by
  apply leads_checked
  · intro hd
    have hd' : delay ≤ 0xffff := of_decide_eq_true hd
    rw [Method.request, if_pos hd']
    apply leads_bind
    apply leads_modify
    exact leads_command ⟨chr 'w', bigEndian delay, rfl⟩ fun _ ↦ applied_delay h hd'
  · intro hd
    rw [Method.request, if_neg (of_decide_eq_false hd)]
    exact h

private theorem applies_setGlitchLength (h : Applied q self v) (glitchLength : Nat) :
    Applies (Method.request q (.setGlitchLength glitchLength)) (setGlitchLength glitchLength) self
      v := by
  apply leads_checked
  · intro hl
    have hl' : glitchLength < 0xffff := of_decide_eq_true hl
    rw [Method.request, if_pos hl']
    refine leads_command ⟨chr 'l', bigEndian glitchLength, rfl⟩ fun _ ↦ ⟨h.delay, ?_, h.pulses⟩
    intro l hl''
    cases hl''
    change (short _ _).toUInt8.toNat = _
    rw [UInt16.toNat_toUInt8, toNat_short_bigEndian (Nat.le_of_lt hl')]
  · intro hl
    rw [Method.request, if_neg (of_decide_eq_false hl)]
    exact h

private theorem applies_setPulses (h : Applied q self v) (pulses : Nat) :
    Applies (Method.request q (.setPulses pulses)) (setPulses pulses) self v := by
  apply leads_checked
  · intro hp
    have hp' : pulses < 0xff := of_decide_eq_true hp
    rw [Method.request, if_pos hp']
    refine leads_command ⟨chr 'p', [UInt8.ofNat (pulses &&& 0xff)], rfl⟩ fun _ ↦
      ⟨h.delay, h.length, ?_⟩
    have hlow : pulses &&& 0xff = pulses := by
      rw [show (0xff : Nat) = 2 ^ 8 - 1 from rfl, Nat.and_two_pow_sub_one_eq_mod]
      omega
    intro p hp''
    cases hp''
    change (UInt8.ofNat (pulses &&& 0xff)).toNat = pulses
    rw [hlow, UInt8.toNat_ofNat_of_lt' (Nat.lt_succ_of_lt hp')]
  · intro hp
    rw [Method.request, if_neg (of_decide_eq_false hp)]
    exact h

/-! ### Reconnecting -/

private theorem applies_setDelay_again (h : Applied q self v) :
    Applies q (setDelay self.delay) self v := by
  -- the delay of the object is the one requested last
  refine (applies_setDelay h self.delay).mono fun _ self' v' h' ↦ ?_
  rw [Method.request] at h'
  split at h'
  · refine ⟨fun d hd ↦ ?_, h'.length, h'.pulses⟩
    apply h'.delay
    rw [(h.delay d hd).1]
  · exact h'

private theorem applies_get {f : Scope → ScopeM Unit} (h : Applies q (f self) self v) :
    Applies q (do f (← get)) self v := by
  apply leads_bind
  exact leads_get h

private theorem applies_restore (h : Applied q self v) : Applies q restore self v := by
  unfold restore
  apply applies_get
  apply applies_bind (applies_setSamples h _) fun _ _ h ↦ h
  intro _ self v h
  apply applies_get
  apply applies_bind (applies_setSampleSpeed h _) fun _ _ h ↦ h
  intro _ self v h
  apply applies_get
  apply applies_bind (applies_set12Bits h _) fun _ _ h ↦ h
  intro _ self v h
  apply applies_get
  apply applies_bind (applies_setBias h _) fun _ _ h ↦ h
  intro _ self v h
  apply applies_get
  apply applies_bind (applies_setGain h _) fun _ _ h ↦ h
  intro _ self v h
  apply applies_get
  exact applies_setDelay_again h

private theorem applies_testScope (h : Applied q self v) : Applies q testScope self v := by
  apply leads_bind
  apply leads_serialWrite ⟨chr 't', [], rfl⟩
  apply leads_bind
  apply leads_serialRead
  intro val
  exact leads_pure (h.cmd rfl (by decide))

private theorem applies_probe (h : Applied q self v) (fuel : Nat) :
    Applies q (probe fuel) self v := by
  induction fuel generalizing self v with
  | zero => exact leads_pure h
  | succ fuel ih =>
    apply leads_bind
    apply leads_serialReopen
    apply applies_bind (applies_testScope h) fun _ _ h ↦ h
    intro answered self' v' h'
    cases answered with
    | true => exact leads_pure h'
    | false =>
      apply applies_bind (ih h') fun _ _ h ↦ h
      intro probes self'' v'' h''
      exact leads_pure h''

private theorem applies_reconnect (h : Applied q self v) (fuel : Nat) :
    Applies q (reconnect fuel) self v := by
  apply applies_bind (applies_probe h fuel) fun _ _ h ↦ h
  intro probes self' v' h'
  cases probes with
  | none => exact leads_pure h'
  | some n =>
    apply applies_bind (applies_restore h') fun _ _ h ↦ h
    intro _ self'' v'' h''
    exact leads_pure h''

/-! ### Any sequence of methods -/

private theorem applies_discard {α : Type} {m : ScopeM α} (h : Applies q m self v) :
    Applies q (do let _ ← m) self v := by
  apply applies_bind h fun _ _ h ↦ h
  intro _ self' v' h'
  exact leads_pure h'

/-- Every method, on each of its error paths too, leaves the device with the parameters
requested last. -/
theorem applies_method (h : Applied q self v) (method : Method) :
    Leads method.run (fun _ self' v' ↦ Applied (method.request q) self' v') self v := by
  cases method with
  | setSamples numSamples => exact applies_setSamples h numSamples
  | set12Bits bits12 => exact applies_set12Bits h bits12
  | setBias bias => exact applies_setBias h bias
  | setDelay delay => exact applies_setDelay h delay
  | setSampleSpeed clockDivider => exact applies_setSampleSpeed h clockDivider
  | setGain gain => exact applies_setGain h gain
  | arm => exact applies_arm h
  | waitForCompletion => exact applies_discard (applies_waitForCompletion h)
  | getSamples => exact applies_discard (applies_getSamples h)
  | powerOn => exact applies_command h rfl (b := chr 'y') (by decide) [] rfl
  | powerOff => exact applies_command h rfl (b := chr 'x') (by decide) [] rfl
  | setGlitchLength glitchLength => exact applies_setGlitchLength h glitchLength
  | setPulses pulses => exact applies_setPulses h pulses
  | glitchArm => exact applies_discard (applies_glitchArm h)
  | waitForGlitcher => exact applies_discard (applies_waitForGlitcher h)
  | reconnect probes => exact applies_discard (applies_reconnect h probes)

/-- Call the methods one after the other, with the given answers to their reads; what they raise
is caught. The bytes written and the object at the end. -/
def play (self : Scope) : List Method → List (List UInt8) → List UInt8 × Scope
  | [], _ => ([], self)
  | method :: methods, answers =>
    let called := (method.run.run.run self).dialogue answers
    let rest := play called.1.2.2 methods called.2
    (called.1.1 ++ rest.1, rest.2)

/-- The parameters requested by a sequence of methods. -/
def requested (methods : List Method) (q : Requested) : Requested := methods.foldl Method.request q

private theorem applied_play (h : Applied q self v) (methods : List Method)
    (answers : List (List UInt8)) :
    ∃ v', Commands v (play self methods answers).1 v' ∧
      Applied (requested methods q) (play self methods answers).2 v' := by
  induction methods generalizing q self v answers with
  | nil => exact ⟨v, .refl v, h⟩
  | cons method methods ih =>
    obtain ⟨v₁, hv₁, h₁⟩ := Client.Sends.dialogue Commands.refl
      (fun _ _ _ _ _ h h' ↦ Commands.trans h h') (applies_method h method) answers
    obtain ⟨v₂, hv₂, h₂⟩ := ih h₁ ((method.run.run.run self).dialogue answers).2
    exact ⟨v₂, hv₁.trans hv₂, h₂⟩

/-! ### The glitch -/

/-- The eight compare registers of `TCC2`. -/
def compareRegisters : List (Tcc2 → UInt8) :=
  [Tcc2.lcmpa, Tcc2.lcmpb, Tcc2.lcmpc, Tcc2.lcmpd, Tcc2.hcmpa, Tcc2.hcmpb, Tcc2.hcmpc, Tcc2.hcmpd]

/-- What they hold. -/
def compares (t : Tcc2) : List UInt8 := compareRegisters.map fun reg ↦ reg t

/-- A routine that leaves the delay and the compare registers alone. -/
private def Spares (L : Layout) (c : Call) : Prop :=
  ∀ per cmp, (c.body L).Keeps fun r ↦ r.settings.per = per ∧ compares r.settings.tcc2 = cmp

private theorem spares_hiresSetCounter (L : Layout) (counter : UInt8) :
    Spares L (.hiresSetCounter counter) :=
  fun _ _ ↦ ⟨fun _ h ↦ h, fun _ h ↦ h, trivial⟩

private theorem spares_hiresGlitch (L : Layout) : Spares L .hiresGlitch :=
  fun _ _ ↦ ⟨fun _ h ↦ h, fun _ h ↦ h, fun _ h ↦ h, fun _ h ↦ h, trivial⟩

private theorem ensures_triggerWait (L : Layout) (timeout : UInt32) (delay : UInt16) :
    (Call.body L (.triggerWait timeout delay)).Ensures fun r ↦ r.settings.per = delay := by
  have harm : (triggerArm delay).Ensures fun r ↦ r.settings.per = delay := by
    refine .inr (.inr (.inl ⟨fun _ ↦ rfl, ?_⟩))
    repeat' first | exact trivial | refine ⟨fun _ h ↦ h, ?_⟩
  refine Prog.ensures_bind harm fun _ ↦ Prog.keeps_bind (keeps_pollTrigger _) fun left ↦ ?_
  repeat' first | exact trivial | refine ⟨fun _ h ↦ h, ?_⟩ | split

private theorem keeps_triggerWait (L : Layout) (timeout : UInt32) (delay : UInt16)
    (cmp : List UInt8) :
    (Call.body L (.triggerWait timeout delay)).Keeps fun r ↦ compares r.settings.tcc2 = cmp := by
  refine Prog.keeps_bind ?_ fun _ ↦ Prog.keeps_bind (keeps_pollTrigger _) fun left ↦ ?_
  · repeat' first | exact trivial | refine ⟨fun _ h ↦ h, ?_⟩
  · repeat' first | exact trivial | refine ⟨fun _ h ↦ h, ?_⟩ | split

private theorem ensures_hiresSetCompare (L : Layout) (compare : UInt8) {reg : Tcc2 → UInt8}
    (hreg : reg ∈ compareRegisters) :
    (Call.body L (.hiresSetCompare compare)).Ensures fun r ↦ reg r.settings.tcc2 = compare := by
  -- each assignment sets one register and spares the others
  simp only [compareRegisters, List.mem_cons, List.not_mem_nil, or_false] at hreg
  rcases hreg with rfl | rfl | rfl | rfl | rfl | rfl | rfl | rfl
  all_goals
    repeat' first
      | exact trivial
      | refine .inl ⟨fun _ ↦ rfl, ?_⟩
      | refine ⟨fun _ h ↦ h, ?_⟩
      | apply Or.inr

private theorem compares_hiresSetCompare (L : Layout) (ω : Interference) (compare : UInt8)
    (s : Nat × Hw) :
    compares (hardware L ω (.hiresSetCompare compare) s).2.2.settings.tcc2 =
      List.replicate 8 compare := by
  rw [List.eq_replicate_iff]
  refine ⟨rfl, ?_⟩
  unfold compares
  rw [List.forall_mem_map]
  intro reg hreg
  exact ensures_hardware (I := fun x ↦ reg x.tcc2 = compare) ω
    (ensures_hiresSetCompare L compare hreg) s

private theorem settings_glitch (L : Layout) (ω : Interference) (v : Vars) (s : Nat × Hw) :
    (callAll (hardware L ω) (effect v .glitch []).2 s).2.settings.per = v.delay ∧
      compares (callAll (hardware L ω) (effect v .glitch []).2 s).2.settings.tcc2 =
        List.replicate 8 (0xff - v.glitchLength) := by
  have hpulses : ∀ c ∈ (List.replicate v.pulses.toNat
      [Call.hiresSetCounter 0x00, .hiresGlitch]).flatten, Spares L c := by
    intro c hc
    obtain ⟨cs, hcs, hc⟩ := List.mem_flatten.mp hc
    obtain ⟨-, rfl⟩ := List.mem_replicate.mp hcs
    simp only [List.mem_cons, List.not_mem_nil, or_false] at hc
    rcases hc with rfl | rfl
    · exact spares_hiresSetCounter L 0x00
    · exact spares_hiresGlitch L
  change _ ∧ _
  rw [effect, callAll_append]
  refine keeps_callAll (I := fun x ↦ x.per = v.delay ∧ compares x.tcc2 = _) ω
    (fun c hc ↦ hpulses c hc _ _) ⟨?_, ?_⟩
  · exact ensures_hardware (I := fun x ↦ x.per = v.delay) ω (ensures_triggerWait L _ _) _
  · refine keeps_hardware (I := fun x ↦ compares x.tcc2 = _) ω (keeps_triggerWait L _ _ _) ?_
    exact compares_hiresSetCompare L ω _ _

/-- The glitch is the one requested: the timer of the delay, the compare values without any
truncation, and the number of pulses. -/
structure Fired (delay length pulses : Nat) (calls : List Call) (r : Hw) : Prop where
  per : r.tcd0.per.toNat = delay
  compare : ∀ x ∈ compares r.tcc2, (x.toNat : Int) = 0xff - length
  glitches : calls.count .hiresGlitch = pulses

private theorem count_glitch (v : Vars) :
    (effect v .glitch []).2.count .hiresGlitch = v.pulses.toNat := by
  rw [effect, List.count_append, List.count_flatten, List.map_replicate,
    List.sum_replicate_nat]
  simp

private theorem compare_iff {glitchLength x : UInt8} {length : Nat} (hx : x = 0xff - glitchLength)
    (hl : glitchLength.toNat = length % 256) :
    (x.toNat : Int) = 0xff - length ↔ length ≤ 0xff := by
  have hle : glitchLength ≤ 0xff := UInt8.le_iff_toNat_le.mpr (Nat.le_of_lt_succ (UInt8.toNat_lt _))
  have hsub : x.toNat = 255 - length % 256 := by
    rw [hx, UInt8.toNat_sub_of_le _ _ hle, hl]
    rfl
  omega

/-- From any state of the machine at its command read: it takes what some methods write, whatever
these read, and then the command of `glitchArm`. The glitch is the one requested by the last
`setDelay`, `setGlitchLength` and `setPulses` exactly if the length fits into a byte. -/
theorem fired_iff (L : Layout) {m : Machine} {v₀ v₁ v₂ : Vars} (hm : m.ctl = .idle v₀)
    (self : Scope) (methods : List Method) (answers : List (List UInt8)) {evs₁ evs₂ : List Event}
    (hq₁ : observed received (Machine.step L) m evs₁ = (play self methods answers).1)
    (hv₁ : (run (Machine.step L) m evs₁).ctl = .idle v₁)
    (hq₂ : observed received (Machine.step L) (run (Machine.step L) m evs₁) evs₂ = [chr 'h'])
    (hv₂ : (run (Machine.step L) m (evs₁ ++ evs₂)).ctl = .idle v₂) {delay length pulses : Nat}
    (hreq : requested methods {} = ⟨some delay, some length, some pulses⟩) :
    Fired delay length pulses (observed called (Machine.step L) (run (Machine.step L) m evs₁) evs₂)
      (run (Machine.step L) m (evs₁ ++ evs₂)).hw ↔ length ≤ 0xff := by
  have hnone : Applied {} self v₀ := ⟨by simp, by simp, by simp⟩
  obtain ⟨v, ⟨cmds, hdata, hvars⟩, happ⟩ := applied_play hnone methods answers
  obtain ⟨hv, -, -⟩ := run_cmds hm hv₁ (hq₁.trans hdata)
  rw [hreq] at happ
  rw [hvars] at hv
  subst hv
  rw [run_append] at hv₂ ⊢
  let h : Cmd := ⟨chr 'h', [], rfl⟩
  have hq : observed received (Machine.step L) (run (Machine.step L) m evs₁) evs₂ =
      [h].flatMap Cmd.bytes := hq₂
  obtain ⟨-, hcalls, ω, hset⟩ := run_cmds hv₁ hv₂ hq
  have hcallsOf : callsOf [h] v₁ = (effect v₁ .glitch []).2 := List.append_nil _
  rw [hcallsOf] at hcalls hset
  obtain ⟨hper, hcmp⟩ := settings_glitch L ω v₁ (0, (run (Machine.step L) m evs₁).hw)
  rw [← hset] at hper hcmp
  have hcompare : ∀ x ∈ compares (run (Machine.step L) (run (Machine.step L) m evs₁) evs₂).hw.tcc2,
      x = 0xff - v₁.glitchLength := by
    intro x hx
    exact (List.eq_replicate_iff.mp hcmp).2 x hx
  constructor
  · intro hfired
    have hmem : _ ∈ compares (run (Machine.step L) (run (Machine.step L) m evs₁) evs₂).hw.tcc2 :=
      List.mem_cons_self
    exact (compare_iff (hcompare _ hmem) (happ.length _ rfl)).mp (hfired.compare _ hmem)
  · intro hle
    refine ⟨?_, fun x hx ↦ (compare_iff (hcompare x hx) (happ.length _ rfl)).mpr hle, ?_⟩
    · exact (congrArg UInt16.toNat hper).trans (happ.delay _ rfl).2
    · rw [hcalls, count_glitch]
      exact happ.pulses _ rfl

/-- Two pulses of the given length, five ticks after the trigger, each call acknowledged. -/
def twoPulses (glitchLength : Nat) : List UInt8 :=
  (play {} [.setDelay 5, .setGlitchLength glitchLength, .setPulses 2]
    [[chr 'd'], [chr 'd'], [chr 'd']]).1

/-- The machine takes the bytes one by one. -/
def taking (data : List UInt8) : List Event := data.flatMap fun b ↦ [.byte b, .cpu, .cpu]

/-- `h`, a trigger with its delay and a compare match for each pulse. -/
def glitching : List Event :=
  .byte (chr 'h') :: List.replicate 30 .cpu ++ [.hw .edge, .hw .overflow] ++
    (List.replicate 14 [.cpu, .cpu, .cpu, .hw .compareMatch]).flatten

/-- A delay of 5, a length of 10 and two pulses. -/
theorem fired_iff_twoPulses :
    Fired 5 10 2
      (observed called (Machine.step someLayout)
        (run (Machine.step someLayout) initialised (taking (twoPulses 10))) glitching)
      (run (Machine.step someLayout) initialised (taking (twoPulses 10) ++ glitching)).hw := by
  have hm : initialised.ctl = .idle {} := Ctl.eq_idle_of_vars (by decide +kernel)
  have hv₁ : (run (Machine.step someLayout) initialised (taking (twoPulses 10))).ctl =
      .idle { delay := 5, glitchLength := 10, pulses := 2 } :=
    Ctl.eq_idle_of_vars (by decide +kernel)
  have hv₂ : (run (Machine.step someLayout) initialised
      (taking (twoPulses 10) ++ glitching)).ctl =
      .idle { delay := 5, glitchLength := 10, pulses := 2 } :=
    Ctl.eq_idle_of_vars (by decide +kernel)
  exact (fired_iff someLayout hm {} [.setDelay 5, .setGlitchLength 10, .setPulses 2]
    [[chr 'd'], [chr 'd'], [chr 'd']] (by decide +kernel) hv₁ (by decide +kernel) hv₂
    (by decide)).mpr (by decide)

/-- A length of 266 passes the assertion and is acknowledged, and the compare registers get the
value that belongs to a length of 10. -/
theorem not_fired_266 :
    requested [.setDelay 5, .setGlitchLength 266, .setPulses 2] {} = ⟨some 5, some 266, some 2⟩ ∧
    (run (Machine.step someLayout) initialised (taking (twoPulses 266))).out =
      [chr 'd', chr 'd', chr 'd'] ∧
    (run (Machine.step someLayout) initialised
      (taking (twoPulses 266) ++ glitching)).ctl.vars.isSome = true ∧
    compares (run (Machine.step someLayout) initialised
      (taking (twoPulses 266) ++ glitching)).hw.tcc2 = List.replicate 8 (0xff - 10) ∧
    ¬Fired 5 266 2
      (observed called (Machine.step someLayout)
        (run (Machine.step someLayout) initialised (taking (twoPulses 266))) glitching)
      (run (Machine.step someLayout) initialised (taking (twoPulses 266) ++ glitching)).hw := by
  have hcmp : compares (run (Machine.step someLayout) initialised
      (taking (twoPulses 266) ++ glitching)).hw.tcc2 = List.replicate 8 (0xff - 10) := by
    decide +kernel
  refine ⟨by decide, by decide +kernel, by decide +kernel, hcmp, fun h ↦ ?_⟩
  have hfirst := h.compare (0xff - 10) (by rw [hcmp]; decide)
  exact absurd hfirst (by decide)

end HorrorScope.Link
