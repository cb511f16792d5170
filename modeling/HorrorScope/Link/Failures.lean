import HorrorScope.Link.Reconnect

/-!
# Settings that are refused

The setters of `acq/scope.py:81–118`, called one after the other by a caller that catches what
they raise (`runSetup.py`). A setter that asserts first has changed nothing when it raises;
`setSamples` has assigned `numSamples` by then, and the firmware (`HorrorScope.c:111–122`) refuses
more than its buffer holds.
-/

namespace HorrorScope.Link

open HorrorScope.Base HorrorScope.Firmware HorrorScope.Host

/-- The setters, with any argument. -/
inductive Setter where
  | setSamples (numSamples : Nat)
  | set12Bits (bits12 : Nat)
  | setBias (bias : Nat)
  | setDelay (delay : Nat)
  | setSampleSpeed (clockDivider : Nat)
  | setGain (gain : Nat)
  deriving DecidableEq, Repr

/-- The method call. Of `bits12` the source uses the truth value. -/
def Setter.run : Setter → ScopeM Unit
  | setSamples numSamples => Host.setSamples numSamples
  | set12Bits bits12 => Host.set12Bits (bits12 ≠ 0)
  | setBias bias => Host.setBias bias
  | setDelay delay => Host.setDelay delay
  | setSampleSpeed clockDivider => Host.setSampleSpeed clockDivider
  | setGain gain => Host.setGain gain

/-- The number of samples is the device's own, and every other field is one that it has taken. -/
structure InAgreement (host : Scope) (v : Vars) : Prop where
  settable : Settable host
  numberOfSamples : v.numberOfSamples.toNat = host.numSamples

variable {η : Type} (handle : Handle η)

/-- The object and the device behind a call, whatever it raises. -/
def attempt (s : Scope × Device η) (c : Setter) : Scope × Device η :=
  ((perform handle c.run s.1 s.2).1.2, (perform handle c.run s.1 s.2).2)

/-- Behind some calls. -/
def attemptAll (cs : List Setter) (s : Scope × Device η) : Scope × Device η :=
  cs.foldl (attempt handle) s

/-- What a caller relies on who catches the exceptions of its calls. -/
structure FailuresHarmless (cs : List Setter) (s : Scope × Device η) : Prop where
  unchanged : ∀ before c after e self t, cs = before ++ c :: after →
    perform handle c.run (attemptAll handle before s).1 (attemptAll handle before s).2 =
      ((.error e, self), t) → (self, t) = attemptAll handle before s
  numSamples : ∃ v h u, (attemptAll handle cs s).2 = ⟨.ret v, h, u⟩ ∧
    v.numberOfSamples.toNat = (attemptAll handle cs s).1.numSamples
  reconnect : ∀ fuel, ∃ v h, perform handle (Host.reconnect (fuel + 1)) (attemptAll handle cs s).1
    (attemptAll handle cs s).2 = ((.ok (some 1), (attemptAll handle cs s).1), ⟨.ret v, h, []⟩) ∧
    v.numberOfSamples.toNat = (attemptAll handle cs s).1.numSamples
  getSamples : ∀ message self t, perform handle Host.getSamples (attemptAll handle cs s).1
    (attemptAll handle cs s).2 ≠ ((.error (.exception message), self), t)

/-! ### One call -/

private theorem perform_setting_assertionError {c : Bool} (hc : c = false) (g : Scope → Scope)
    (data : List UInt8) (self : Scope) (t : Device η) :
    perform handle (do assert c; modify g; serialWrite data; checkResponse) self t =
      ((.error .assertionError, self), t) :=
  perform_bind_of_error _ _ _ (perform_assert_of_false _ _ _ hc)

/-- The call has raised and changed nothing, or returned with both sides in agreement. -/
private def Lands (c : Setter) (self : Scope) (v : Vars) (h : η) : Prop :=
  (∃ e, perform handle c.run self ⟨.ret v, h, []⟩ = ((.error e, self), ⟨.ret v, h, []⟩)) ∨
    ∃ self' v' h', perform handle c.run self ⟨.ret v, h, []⟩ =
      ((.ok (), self'), ⟨.ret v', h', []⟩) ∧ InAgreement self' v'

private theorem lands {c : Setter} (hc : ∀ n, c = .setSamples n → n ≤ scopeBufSize)
    {self : Scope} {v : Vars} (ha : InAgreement self v) (h : η) : Lands handle c self v h := by
  cases c with
  | setSamples n =>
    have hn : n ≤ scopeBufSize := hc n rfl
    have hlt : n < 2 ^ 16 := Nat.lt_of_le_of_lt hn (by decide)
    exact .inr ⟨_, _, _, perform_setSamples self v h hn, { ha.settable with numSamples := hn },
      UInt16.toNat_ofNat_of_lt' hlt⟩
  | set12Bits bits12 =>
    exact .inr ⟨_, _, _, perform_set12Bits self v h _, { ha.settable with },
      ha.numberOfSamples⟩
  | setBias bias =>
    by_cases hb : bias ≤ 0xffff
    · exact .inr ⟨_, _, _, perform_setBias self v h hb, { ha.settable with bias := hb },
        ha.numberOfSamples⟩
    · exact .inl ⟨_, perform_setting_assertionError handle (decide_eq_false hb) _ _ self _⟩
  | setDelay delay =>
    by_cases hd : delay ≤ 0xffff
    · exact .inr ⟨_, _, _, perform_setDelay self v h hd, { ha.settable with delay := hd },
        ha.numberOfSamples⟩
    · exact .inl ⟨_, perform_setting_assertionError handle (decide_eq_false hd) _ _ self _⟩
  | setSampleSpeed clockDivider =>
    by_cases hs : clockDivider ≤ 0xff
    · exact .inr ⟨_, _, _, perform_setSampleSpeed self v h hs,
        { ha.settable with clockDivider := hs }, ha.numberOfSamples⟩
    · exact .inl ⟨_, perform_setting_assertionError handle (decide_eq_false hs) _ _ self _⟩
  | setGain gain =>
    by_cases hg : gain ≤ 0xff
    · exact .inr ⟨_, _, _, perform_setGain self v h hg, { ha.settable with gain := hg },
        ha.numberOfSamples⟩
    · exact .inl ⟨_, perform_setting_assertionError handle (decide_eq_false hg) _ _ self _⟩

private theorem perform_setSamples_refused {n : Nat} (hn : scopeBufSize < n) (self : Scope)
    (v : Vars) (h : η) :
    ∃ e, perform handle (Setter.setSamples n).run self ⟨.ret v, h, []⟩ =
      ((.error e, { self with numSamples := n }), ⟨.ret v, h, []⟩) := by
  by_cases hle : n ≤ 0xffff
  · exact ⟨_, perform_setSamples_tooBig self v h hn hle⟩
  · exact ⟨_, perform_setSamples_assertionError self v h (Nat.lt_of_not_le hle)⟩

private theorem perform_reconnect_refused {self : Scope} (hn : scopeBufSize < self.numSamples)
    (v : Vars) (h : η) (u : List (Option UInt8)) (fuel : Nat) :
    ∃ e, perform handle (reconnect (fuel + 1)) self ⟨.ret v, h, u⟩ =
      ((.error e, self), ⟨.ret v, h, []⟩) := by
  obtain ⟨e, he⟩ := perform_setSamples_refused handle hn self v h
  have hrestore : perform handle restore self ⟨.ret v, h, []⟩ =
      ((.error e, self), ⟨.ret v, h, []⟩) := by
    unfold restore
    rw [perform_bind_of_ok _ _ _ (perform_get ..)]
    exact perform_bind_of_error _ _ _ he
  refine ⟨e, ?_⟩
  unfold reconnect
  rw [perform_bind_of_ok _ _ _ (perform_probe_hit fuel self _ rfl rfl)]
  exact perform_bind_of_error _ _ _ hrestore

/-! ### Any calls -/

/-- No call asks for more samples than the device has room for. -/
def Fitting (cs : List Setter) : Prop := ∀ n, .setSamples n ∈ cs → n ≤ scopeBufSize

private theorem attemptAll_cons (c : Setter) (cs : List Setter) (s : Scope × Device η) :
    attemptAll handle (c :: cs) s = attemptAll handle cs (attempt handle s c) := rfl

private theorem attemptAll_agreement {cs : List Setter} (hcs : Fitting cs) {self : Scope}
    {v : Vars} (ha : InAgreement self v) (h : η) :
    ∃ self' v' h', attemptAll handle cs (self, ⟨.ret v, h, []⟩) = (self', ⟨.ret v', h', []⟩) ∧
      InAgreement self' v' := by
  induction cs generalizing self v h with
  | nil => exact ⟨self, v, h, rfl, ha⟩
  | cons c cs ih =>
    have hc : ∀ n, c = .setSamples n → n ≤ scopeBufSize := by
      rintro n rfl
      exact hcs n List.mem_cons_self
    have hcs' : Fitting cs := fun n hn ↦ hcs n (List.mem_cons_of_mem _ hn)
    rw [attemptAll_cons]
    unfold attempt
    rcases lands handle hc ha h with ⟨e, he⟩ | ⟨self', v', h', heq, ha'⟩
    · rw [he]
      exact ih hcs' ha h
    · rw [heq]
      exact ih hcs' ha' h'

private theorem exists_first_unfitting {cs : List Setter} (hcs : ¬ Fitting cs) :
    ∃ before n after, cs = before ++ .setSamples n :: after ∧ scopeBufSize < n ∧
      Fitting before := by
  induction cs with
  | nil => exact absurd (fun n hn ↦ by cases hn) hcs
  | cons c cs ih =>
    by_cases hc : ∃ n, c = .setSamples n ∧ scopeBufSize < n
    · obtain ⟨n, rfl, hn⟩ := hc
      exact ⟨[], n, cs, rfl, hn, fun n hn ↦ by cases hn⟩
    · have hfirst : ∀ n, c = .setSamples n → n ≤ scopeBufSize := by
        intro n hcn
        by_contra hlt
        exact hc ⟨n, hcn, Nat.lt_of_not_le hlt⟩
      have hrest : ¬ Fitting cs := by
        intro h
        apply hcs
        intro n hn
        rcases List.mem_cons.mp hn with hcn | hn
        · exact hfirst n hcn.symm
        · exact h n hn
      obtain ⟨before, n, after, rfl, hn, hbefore⟩ := ih hrest
      refine ⟨c :: before, n, after, rfl, hn, ?_⟩
      intro m hm
      rcases List.mem_cons.mp hm with hcm | hm
      · exact hfirst m hcm.symm
      · exact hbefore m hm

private theorem frombufferI2_error {samples : List UInt8} {e : Raised}
    (he : frombufferI2 samples = .error e) : e = .valueError := by
  induction samples using frombufferI2.induct with
  | case1 => cases he
  | case2 b => cases he; rfl
  | case3 lo hi samples ih =>
    rw [frombufferI2] at he
    cases hrest : frombufferI2 samples with
    | ok items => rw [hrest] at he; cases he
    | error e' =>
      rw [hrest] at he
      cases he
      exact ih hrest

private theorem fetched_ne_exception (bits12 : Bool) (samples : List UInt8) {message : String} :
    fetched bits12 samples ≠ .error (.exception message) := by
  intro h
  unfold fetched at h
  cases bits12 with
  | false => cases h
  | true =>
    cases hs : frombufferI2 samples with
    | ok items => rw [if_pos rfl, hs] at h; cases h
    | error e =>
      rw [if_pos rfl, hs] at h
      have he := frombufferI2_error hs
      cases h
      cases he

section Calls

variable (handle : Handle η) (self : Scope) (v : Vars) (ha : InAgreement self v) (h : η)
  (cs : List Setter)

include ha

private theorem fitting_of_harmless
    (hh : FailuresHarmless handle cs (self, ⟨.ret v, h, []⟩)) : Fitting cs := by
  by_contra hcs
  obtain ⟨before, n, after, hsplit, hn, hbefore⟩ := exists_first_unfitting hcs
  obtain ⟨self', v', h', hall, ha'⟩ := attemptAll_agreement handle hbefore ha h
  obtain ⟨e, he⟩ := perform_setSamples_refused handle hn self' v' h'
  have hsame := hh.unchanged before _ after e { self' with numSamples := n } ⟨.ret v', h', []⟩
    hsplit
    (by rw [hall]; exact he)
  rw [hall] at hsame
  have hnum : n = self'.numSamples := congrArg (fun s ↦ s.1.numSamples) hsame
  have hle := ha'.settable.numSamples
  omega

/-- From an object in agreement with its device, in any sequence of calls whose exceptions are
caught: each one that raises leaves object and device as they were, the number of samples is the
same on both sides, and a later `reconnect` and `getSamples` get what they ask for, exactly when
no call asks for more samples than the device has room for. -/
theorem failuresHarmless_iff :
    FailuresHarmless handle cs (self, ⟨.ret v, h, []⟩) ↔
      ∀ n, .setSamples n ∈ cs → n ≤ scopeBufSize := by
  constructor
  · exact fitting_of_harmless handle self v ha h cs
  · intro hcs
    obtain ⟨self', v', h', hall, ha'⟩ := attemptAll_agreement handle hcs ha h
    refine ⟨?_, ?_, ?_, ?_⟩
    · intro before c after e self₁ t₁ hsplit hraise
      have hbefore : Fitting before := fun n hn ↦ hcs n (by rw [hsplit]; simp [hn])
      have hc : ∀ n, c = .setSamples n → n ≤ scopeBufSize := by
        rintro n rfl
        exact hcs n (by rw [hsplit]; simp)
      obtain ⟨self₂, v₂, h₂, hall₂, ha₂⟩ := attemptAll_agreement handle hbefore ha h
      rw [hall₂] at hraise ⊢
      rcases lands handle hc ha₂ h₂ with ⟨e', he'⟩ | ⟨self₃, v₃, h₃, heq, -⟩
      · rw [he'] at hraise
        cases hraise
        rfl
      · rw [heq] at hraise
        cases hraise
    · exact ⟨v', h', [], by rw [hall], by rw [hall]; exact ha'.numberOfSamples⟩
    · intro fuel
      rw [hall]
      refine ⟨_, _, perform_reconnect_idle ha'.settable v' h' [] fuel, ?_⟩
      exact UInt16.toNat_ofNat_of_lt' (Nat.lt_of_le_of_lt ha'.settable.numSamples (by decide))
    · intro message self₁ t₁
      rw [hall]
      obtain ⟨u, hu⟩ := perform_getSamples handle ha'.numberOfSamples h'
      rw [hu]
      intro heq
      exact fetched_ne_exception _ _ (congrArg (fun r ↦ r.1.1) heq)

end Calls

/-- A device that was told 3500 samples, and an object with its defaults. -/
theorem inAgreement_defaults : InAgreement {} { numberOfSamples := 3500 } :=
  ⟨⟨by decide, by decide, by decide, by decide, by decide⟩, by decide⟩

/-- Two calls that raise, between others. -/
theorem failuresHarmless_iff_assertions :
    InAgreement {} { numberOfSamples := 3500 } ∧
    FailuresHarmless Play.someHandle
      [.setSamples 100, .setBias 70000, .set12Bits 0, .setGain 256, .setSamples 200]
      ({}, ⟨.ret { numberOfSamples := 3500 }, (), []⟩) :=
  ⟨inAgreement_defaults,
    (failuresHarmless_iff Play.someHandle {} _ inAgreement_defaults () _).mpr (by
      intro n hn
      have h : n = 100 ∨ n = 200 := by simpa using hn
      rcases h with rfl | rfl <;> decide)⟩

/-- 4000 samples are refused, and the object has them all the same: `reconnect`, which sends them
again, raises and leaves everything as it is. -/
theorem not_failuresHarmless_tooBig :
    attemptAll Play.someHandle [.setSamples 4000]
        ({}, ⟨.ret { numberOfSamples := 3500 }, (), []⟩) =
      ({ numSamples := 4000 }, ⟨.ret { numberOfSamples := 3500 }, (), []⟩) ∧
    (∃ e, perform Play.someHandle (reconnect 1) { numSamples := 4000 }
        ⟨.ret { numberOfSamples := 3500 }, (), []⟩ =
      ((.error e, { numSamples := 4000 }), ⟨.ret { numberOfSamples := 3500 }, (), []⟩)) ∧
    ¬ FailuresHarmless Play.someHandle [.setSamples 4000]
      ({}, ⟨.ret { numberOfSamples := 3500 }, (), []⟩) := by
  refine ⟨?_, ?_, ?_⟩
  · obtain ⟨e, he⟩ := perform_setSamples_refused Play.someHandle (n := 4000) (by decide) {}
      { numberOfSamples := 3500 } ()
    change ((perform Play.someHandle (Setter.setSamples 4000).run {} _).1.2,
      (perform Play.someHandle (Setter.setSamples 4000).run {} _).2) = _
    rw [he]
  · exact perform_reconnect_refused Play.someHandle (by decide) _ _ _ 0
  · intro h
    have hfit := fitting_of_harmless _ _ _ inAgreement_defaults _ _ h 4000 List.mem_cons_self
    exact absurd hfit (by decide)

end HorrorScope.Link
