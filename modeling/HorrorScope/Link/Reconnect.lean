import HorrorScope.Base.Bits
import HorrorScope.Link.Hardware
import HorrorScope.Link.Lockstep

/-!
# Reconnecting resynchronises

`reconnect` probes with `t` until the device answers `T` and then writes all settings again. A
device that waits for operands of an interrupted command takes the probes for operands; it has
got at most two of them before it is back at its command read, and no answer to them reads as
`T`.
-/

namespace HorrorScope.Link

open HorrorScope.Base HorrorScope.Firmware HorrorScope.Host

/-- The commands with an operand of one byte. -/
def byteCommands : List UInt8 := ['g', 'c', '8', 'p'].map chr

/-- The commands with an operand of two bytes. -/
def shortCommands : List UInt8 := ['n', 'b', 'w', 'l', 'e'].map chr

/-- What the device may have received of a command when the host reconnects. -/
inductive Received : List UInt8 → Prop
  | nothing : Received []
  | byteCommand {b : UInt8} (hb : b ∈ byteCommands) : Received [b]
  | shortCommand {b : UInt8} (hb : b ∈ shortCommands) : Received [b]
  | highByte {b : UInt8} (hb : b ∈ shortCommands) (high : UInt8) : Received [b, high]

/-- All but the last byte of a command. -/
inductive LacksLast : List UInt8 → Prop
  | byteCommand {b : UInt8} (hb : b ∈ byteCommands) : LacksLast [b]
  | highByte {b : UInt8} (hb : b ∈ shortCommands) (high : UInt8) : LacksLast [b, high]

variable {η : Type} {handle : Handle η}

/-! ### What the device makes of a probe -/

private theorem mem_byteCommands {b : UInt8} (hb : b ∈ byteCommands) :
    b = chr 'g' ∨ b = chr 'c' ∨ b = chr '8' ∨ b = chr 'p' := by
  simpa [byteCommands] using hb

private theorem mem_shortCommands {b : UInt8} (hb : b ∈ shortCommands) :
    b = chr 'n' ∨ b = chr 'b' ∨ b = chr 'w' ∨ b = chr 'l' ∨ b = chr 'e' := by
  simpa [shortCommands] using hb

/-- Up to its last byte, a command is only taken in. -/
theorem feed_received (handle : Handle η) {pre : List UInt8} (hpre : Received pre) (v : Vars)
    (h : η) :
    ∃ p, (device handle).feed ⟨.ret v, h, []⟩ pre = ⟨p, h, List.replicate pre.length none⟩ := by
  cases hpre with
  | nothing => exact ⟨_, rfl⟩
  | byteCommand hb =>
    obtain rfl | rfl | rfl | rfl := mem_byteCommands hb <;> exact ⟨_, rfl⟩
  | shortCommand hb =>
    obtain rfl | rfl | rfl | rfl | rfl := mem_shortCommands hb <;> exact ⟨_, rfl⟩
  | highByte hb high =>
    obtain rfl | rfl | rfl | rfl | rfl := mem_shortCommands hb <;> exact ⟨_, rfl⟩

/-- A probe that completes a command is answered, but not by `T`. -/
def Misses (handle : Handle η) (v : Vars) (h : η) (data : List UInt8) : Prop :=
  ∃ v' h' u, (device handle).feed ⟨.ret v, h, []⟩ data = ⟨.ret v', h', u⟩ ∧
    (readActions 10 u).1 ≠ [chr 'T']

private theorem Acks.misses {v v' : Vars} {h h' : η} {data : List UInt8}
    (ha : Acks handle v h data v' h') : Misses handle v h data := by
  obtain ⟨n, hn⟩ := ha
  refine ⟨v', h', _, hn, ?_⟩
  rw [readActions_replicate]
  decide

private theorem misses_of_lacksLast {pre : List UInt8} (hpre : LacksLast pre) (v : Vars) (h : η)
    (b : UInt8) :
    Misses handle v h (pre ++ [b]) := by
  cases hpre with
  | byteCommand hb =>
    obtain rfl | rfl | rfl | rfl := mem_byteCommands hb
    · exact (acks_setGain v h b).misses
    · exact (acks_setClockDivider v h b).misses
    · exact (acks_setBits12 v h b).misses
    · exact (acks_setPulses v h b).misses
  | highByte hb high =>
    obtain rfl | rfl | rfl | rfl | rfl := mem_shortCommands hb
    · by_cases hle : (short high b).toNat ≤ scopeBufSize
      · exact (acks_setNumberOfSamples handle v h hle).misses
      · refine ⟨v, h, _, feed_setNumberOfSamples_tooBig handle v h (Nat.lt_of_not_le hle), ?_⟩
        decide
    · exact (acks_setBias v h high b).misses
    · exact (acks_setDelay v h high b).misses
    · exact (acks_setGlitchLength v h high b).misses
    · exact (acks_setTimeout v h high b).misses

/-! ### The probe loop -/

section Probe

variable (fuel : Nat) (self : Scope) (t : Device η)

/-- The first probe finds a device that reads commands. -/
theorem perform_probe_hit {v : Vars} {h : η} (ht : t.proc = .ret v) (he : t.env = h) :
    perform handle (probe (fuel + 1)) self t = ((.ok (some 1), self), ⟨.ret v, h, []⟩) := by
  obtain ⟨p, h', u⟩ := t
  dsimp only at ht he
  subst ht he
  unfold probe
  rw [perform_bind_of_ok _ _ _ (perform_serialReopen ..)]
  rfl

/-- A probe that is not answered by `T`. -/
theorem perform_probe_miss {t' : Device η}
    (ht : (device handle).feed { t with unread := [] } [chr 't'] = t')
    (hT : (readActions 10 t'.unread).1 ≠ [chr 'T']) {k : Nat} {self' : Scope} {t'' : Device η}
    (hrest : perform handle (probe fuel) self
      { t' with unread := (readActions 10 t'.unread).2 } = ((.ok (some k), self'), t'')) :
    perform handle (probe (fuel + 1)) self t = ((.ok (some (k + 1)), self'), t'') := by
  have htest : perform handle testScope self { t with unread := [] } =
      ((.ok false, self), { t' with unread := (readActions 10 t'.unread).2 }) := by
    unfold testScope
    rw [perform_bind_of_ok _ _ _ (perform_serialWrite ..), ht,
      perform_bind_of_ok _ _ _ (perform_serialRead ..), perform_pure, beq_eq_false_iff_ne.mpr hT]
  unfold probe
  rw [perform_bind_of_ok _ _ _ (perform_serialReopen ..), perform_bind_of_ok _ _ _ htest]
  exact perform_bind_of_ok _ _ _ hrest

end Probe

private theorem feed_next {pre : List UInt8} {v : Vars} {h : η} {p : Fw Vars} {n : Nat}
    (hp : (device handle).feed ⟨.ret v, h, []⟩ pre = ⟨p, h, List.replicate n none⟩) {b : UInt8}
    {t : Device η} (ht : (device handle).feed ⟨.ret v, h, []⟩ (pre ++ [b]) = t) :
    ∃ u, (device handle).feed ⟨p, h, []⟩ [b] = ⟨t.proc, t.env, u⟩ ∧
      t.unread = List.replicate n none ++ u := by
  rw [Service.feed_append, hp, Service.feed_unread] at ht
  subst ht
  exact ⟨_, rfl, rfl⟩

private theorem perform_probe_lacksLast {pre : List UInt8} (hpre : LacksLast pre) (self : Scope)
    {v : Vars} {h : η} {p : Fw Vars} {n : Nat}
    (hp : (device handle).feed ⟨.ret v, h, []⟩ pre = ⟨p, h, List.replicate n none⟩) :
    ∃ v' h', ∀ u fuel, perform handle (probe (fuel + 2)) self ⟨p, h, u⟩ =
      ((.ok (some 2), self), ⟨.ret v', h', []⟩) := by
  obtain ⟨v', h', w, hfeed, hT⟩ := misses_of_lacksLast hpre v h (chr 't')
  obtain ⟨u', hnext, hw⟩ := feed_next hp hfeed
  dsimp only at hw
  rw [hw, readActions_replicate] at hT
  exact ⟨v', h', fun u fuel ↦
    perform_probe_miss (fuel + 1) self _ hnext hT (perform_probe_hit fuel self _ rfl rfl)⟩

/-- Whatever the device has received of a command, it answers one of the first three probes. -/
theorem perform_probe_received (handle : Handle η) {pre : List UInt8} (hpre : Received pre)
    (self : Scope) (v : Vars) (h : η) (u : List (Option UInt8)) :
    ∃ k v' h', k ≤ 3 ∧ ∀ fuel, perform handle (probe (fuel + 3)) self
        ((device handle).feed ⟨.ret v, h, u⟩ pre) =
      ((.ok (some k), self), ⟨.ret v', h', []⟩) := by
  obtain ⟨p, hp⟩ := feed_received handle hpre v h
  rw [Service.feed_unread, hp]
  cases hpre with
  | nothing =>
    cases hp
    exact ⟨1, v, h, by decide, fun fuel ↦ perform_probe_hit _ self _ rfl rfl⟩
  | byteCommand hb =>
    obtain ⟨v', h', hprobe⟩ := perform_probe_lacksLast (.byteCommand hb) self hp
    exact ⟨2, v', h', by decide, fun fuel ↦ hprobe _ (fuel + 1)⟩
  | highByte hb high =>
    obtain ⟨v', h', hprobe⟩ := perform_probe_lacksLast (.highByte hb high) self hp
    exact ⟨2, v', h', by decide, fun fuel ↦ hprobe _ (fuel + 1)⟩
  | shortCommand hb =>
    -- the first probe is taken for the high byte and gets no answer at all
    obtain ⟨p', hp'⟩ := feed_received handle (.highByte hb (chr 't')) v h
    obtain ⟨u', hnext, hu'⟩ := feed_next (b := chr 't') hp hp'
    obtain rfl : u' = [none] := (List.cons.inj hu').2.symm
    obtain ⟨v', h', hprobe⟩ := perform_probe_lacksLast (.highByte hb (chr 't')) self hp'
    have hT : (readActions 10 [none]).1 ≠ [chr 'T'] := by decide
    refine ⟨3, v', h', by decide, fun fuel ↦ ?_⟩
    have hmiss := perform_probe_miss (fuel + 2) self ⟨p, h, u ++ [none]⟩ hnext hT (hprobe _ fuel)
    exact hmiss

/-! ### Writing the settings again -/

/-- The fields of the object within the range the device has for them. -/
structure InRange (host : Scope) : Prop where
  numSamples : host.numSamples ≤ scopeBufSize
  clockDivider : host.clockDivider ≤ 7
  bias : host.bias ≤ 0xffff
  gain : host.gain ≤ 0xff
  delay : host.delay ≤ 0xffff

/-- The fields of the object that the setters take and the device acknowledges. -/
structure Settable (host : Scope) : Prop where
  numSamples : host.numSamples ≤ scopeBufSize
  clockDivider : host.clockDivider ≤ 0xff
  bias : host.bias ≤ 0xffff
  gain : host.gain ≤ 0xff
  delay : host.delay ≤ 0xffff

private theorem InRange.settable {host : Scope} (h : InRange host) : Settable host :=
  { h with clockDivider := Nat.le_trans h.clockDivider (by decide) }

/-- The variables of `main` that mirror the object. -/
def restoredVars (self : Scope) (v : Vars) : Vars :=
  { v with
    numberOfSamples := UInt16.ofNat self.numSamples
    bits12 := if self.bits12 then 1 else 0
    delay := UInt16.ofNat self.delay }

/-- The calls behind `restore`, the first one innermost. -/
def restoredEnv (handle : Handle η) (self : Scope) (h : η) : η :=
  let after (c : Call) (h : η) : η := (handle c h).2
  after (.adcChGain (UInt8.ofNat self.gain <<< 2)) <|
    after (.adcCalibrate (UInt16.ofNat self.bias)) <|
    after .triggerInit <|
    after (.dmaadcInit (if self.bits12 then 1 else 0)) <|
    after (.adcPrescaler (UInt8.ofNat self.clockDivider &&& 0x7)) h

private theorem perform_restore {self : Scope} (hself : Settable self) (v : Vars) (h : η) :
    perform handle restore self ⟨.ret v, h, []⟩ =
      ((.ok (), self), ⟨.ret (restoredVars self v), restoredEnv handle self h, []⟩) := by
  unfold restore
  rw [perform_bind_of_ok _ _ _ (perform_get ..),
    perform_bind_of_ok _ _ _ (perform_setSamples self v h hself.numSamples),
    perform_bind_of_ok _ _ _ (perform_get ..),
    perform_bind_of_ok _ _ _ (perform_setSampleSpeed _ _ _ hself.clockDivider),
    perform_bind_of_ok _ _ _ (perform_get ..),
    perform_bind_of_ok _ _ _ (perform_set12Bits ..),
    perform_bind_of_ok _ _ _ (perform_get ..),
    perform_bind_of_ok _ _ _ (perform_setBias _ _ _ hself.bias),
    perform_bind_of_ok _ _ _ (perform_get ..),
    perform_bind_of_ok _ _ _ (perform_setGain _ _ _ hself.gain),
    perform_bind_of_ok _ _ _ (perform_get ..), perform_setDelay _ _ _ hself.delay]
  rfl

/-- From a device at its command read, `reconnect` needs one probe. -/
theorem perform_reconnect_idle {self : Scope} (hself : Settable self) (v : Vars) (h : η)
    (u : List (Option UInt8)) (fuel : Nat) :
    perform handle (reconnect (fuel + 1)) self ⟨.ret v, h, u⟩ =
      ((.ok (some 1), self), ⟨.ret (restoredVars self v), restoredEnv handle self h, []⟩) := by
  unfold reconnect
  rw [perform_bind_of_ok _ _ _ (perform_probe_hit fuel self _ rfl rfl)]
  exact perform_bind_of_ok _ _ _ (perform_restore hself v h)

/-- The state `reconnect` leaves is one from which every sequence of operations stays in step. -/
theorem mirrors_restoredVars {self : Scope} (hself : InRange self) (v : Vars) :
    Mirrors self (restoredVars self v) := by
  have hn : (restoredVars self v).numberOfSamples.toNat = self.numSamples :=
    UInt16.toNat_ofNat_of_lt' (Nat.lt_of_le_of_lt hself.numSamples (by decide))
  exact ⟨Nat.le_of_eq hn, Nat.le_trans (Nat.le_of_eq hn) hself.numSamples⟩

/-! ### The converter's registers -/

section Registers

variable (L : Layout) (ω : Interference)

private theorem adca_actAll (i : Nat) (r : Hw) : (actAll ω i r).adca = r.adca :=
  congrArg Settings.adca (settings_actAll ω i r)

private theorem adca_hardware {β : Type} (f : Adc → β) {c : Call}
    (hc : ∀ x, (c.body L).Keeps fun r ↦ f r.adca = x) (s : Nat × Hw) :
    f (hardware L ω c s).2.2.adca = f s.2.adca := by
  have hkeeps : (c.body L).Keeps fun r ↦ f r.settings.adca = f s.2.adca := hc _
  exact keeps_hardware (I := fun x ↦ f x.adca = f s.2.adca) ω hkeeps rfl

private theorem keeps_dmaadcInit {β : Type} (f : Adc → β) (bits12 : UInt8) (x : β) :
    (Call.body L (.dmaadcInit bits12)).Keeps fun r ↦ f r.adca = x := by
  change (dmaadcInit bits12).Keeps _
  unfold dmaadcInit
  repeat' first | exact trivial | refine ⟨fun _ h ↦ h, ?_⟩ | split

private theorem keeps_triggerInit {β : Type} (f : Adc → β) (x : β) :
    (Call.body L .triggerInit).Keeps fun r ↦ f r.adca = x := by
  change (triggerInit L).Keeps _
  unfold triggerInit
  repeat' first | exact trivial | refine ⟨fun _ h ↦ h, ?_⟩

private theorem prescaler_adcPrescaler (p : UInt8) (s : Nat × Hw) :
    (hardware L ω (.adcPrescaler p) s).2.2.adca.prescaler =
      s.2.adca.prescaler &&& ~~~ADC_PRESCALER_gm ||| p := by
  change (actAll ω (s.1 + 1) (onPrescaler (· &&& ~~~ADC_PRESCALER_gm)
    (actAll ω s.1 s.2))).adca.prescaler ||| p = _
  rw [adca_actAll]
  change (actAll ω s.1 s.2).adca.prescaler &&& ~~~ADC_PRESCALER_gm ||| p = _
  rw [adca_actAll]

/-- The later calls keep the prescaler `restore` has set. -/
theorem prescaler_restoredEnv (self : Scope) (s : Nat × Hw) :
    (restoredEnv (hardware L ω) self s).2.adca.prescaler &&& ADC_PRESCALER_gm =
      UInt8.ofNat self.clockDivider &&& 0x7 := by
  unfold restoredEnv
  dsimp only
  rw [adca_hardware L ω Adc.prescaler (c := .adcChGain _) fun x ↦ ⟨fun _ h ↦ h, trivial⟩,
    adca_hardware L ω Adc.prescaler (c := .adcCalibrate _) fun x ↦ ⟨fun _ h ↦ h, trivial⟩,
    adca_hardware L ω Adc.prescaler (keeps_triggerInit L _),
    adca_hardware L ω Adc.prescaler (keeps_dmaadcInit L _ _), prescaler_adcPrescaler]
  refine field_and_mask _ _ _ ?_
  rw [UInt8.and_assoc]
  rfl

private theorem cal_restoredEnv (self : Scope) (s : Nat × Hw) :
    (restoredEnv (hardware L ω) self s).2.adca.cal = UInt16.ofNat self.bias := by
  unfold restoredEnv
  dsimp only
  rw [adca_hardware L ω Adc.cal (c := .adcChGain _) fun x ↦ ⟨fun _ h ↦ h, trivial⟩]
  rfl

end Registers

/-- From a device that has received any part of a command, with any parameters and whatever the
hardware does: `reconnect` needs at most three probes, and when it returns the device is at its
command read, nothing is unread and its settings are those of the object. -/
theorem reconnect_received (L : Layout) (ω : Interference) {pre : List UInt8}
    (hpre : Received pre) {self : Scope} (hself : InRange self) (v : Vars) (s : Nat × Hw)
    (u : List (Option UInt8)) {fuel : Nat} (hfuel : 3 ≤ fuel) :
    ∃ probes v' s', probes ≤ 3 ∧
      perform (hardware L ω) (reconnect fuel) self
          ((device (hardware L ω)).feed ⟨.ret v, s, u⟩ pre) =
        ((.ok (some probes), self), ⟨.ret v', s', []⟩) ∧
      v'.numberOfSamples.toNat = self.numSamples ∧
      (s'.2.adca.prescaler &&& ADC_PRESCALER_gm).toNat = self.clockDivider ∧
      v'.bits12 = (if self.bits12 then 1 else 0) ∧
      s'.2.adca.cal.toNat = self.bias ∧
      v'.delay.toNat = self.delay := by
  obtain ⟨fuel, rfl⟩ : ∃ n, fuel = n + 3 := ⟨fuel - 3, by omega⟩
  obtain ⟨probes, v₁, s₁, hle, hprobe⟩ :=
    perform_probe_received (hardware L ω) hpre self v s u
  refine ⟨probes, restoredVars self v₁, restoredEnv (hardware L ω) self s₁, hle, ?_, ?_, ?_, rfl,
    ?_, ?_⟩
  · unfold reconnect
    rw [perform_bind_of_ok _ _ _ (hprobe fuel)]
    exact perform_bind_of_ok _ _ _ (perform_restore hself.settable v₁ s₁)
  · exact UInt16.toNat_ofNat_of_lt' (Nat.lt_of_le_of_lt hself.numSamples (by decide))
  · rw [prescaler_restoredEnv, UInt8.toNat_and,
      UInt8.toNat_ofNat_of_lt' (Nat.lt_of_le_of_lt hself.clockDivider (by decide))]
    change self.clockDivider &&& (2 ^ 3 - 1) = _
    rw [Nat.and_two_pow_sub_one_eq_mod]
    exact Nat.mod_eq_of_lt (Nat.lt_succ_of_le hself.clockDivider)
  · rw [cal_restoredEnv]
    exact UInt16.toNat_ofNat_of_lt' (Nat.lt_of_le_of_lt hself.bias (by decide))
  · exact UInt16.toNat_ofNat_of_lt' (Nat.lt_of_le_of_lt hself.delay (by decide))

/-- A device that has received the `n` of a command, and an object with its defaults. -/
theorem reconnect_received_defaults :
    Received [chr 'n'] ∧ InRange {} ∧
    ∃ probes v' s', probes ≤ 3 ∧
      perform (hardware someLayout fun _ ↦ [.edge]) (reconnect 3) {}
          ((device (hardware someLayout fun _ ↦ [.edge])).feed ⟨.ret {}, (0, {}), []⟩ [chr 'n']) =
        ((.ok (some probes), {}), ⟨.ret v', s', []⟩) ∧
      v'.numberOfSamples.toNat = 3500 := by
  have hpre : Received [chr 'n'] := .shortCommand (by decide)
  have hself : InRange {} := ⟨by decide, by decide, by decide, by decide, by decide⟩
  obtain ⟨probes, v', s', hle, hrun, hn, -⟩ :=
    reconnect_received someLayout (fun _ ↦ [.edge]) hpre hself {} (0, {}) [] (Nat.le_refl 3)
  exact ⟨hpre, hself, probes, v', s', hle, hrun, hn⟩

end HorrorScope.Link
