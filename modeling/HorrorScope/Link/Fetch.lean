import HorrorScope.Firmware.Capture
import HorrorScope.Link.Hardware

/-!
# Samples on their way to the host

In 12-bit mode the converter's result is the pair of registers `RESL`, `RESH`, moved by channel 0
as one burst (`dmaadc.c:10–36`). The length is a number of bytes on the device and in the read of
`getSamples` (`acq/scope.py:135–147`); numpy takes the bytes in pairs, and `runSetup.py:55–60`
declares half as many samples.
-/

namespace HorrorScope.Link

open HorrorScope.Base HorrorScope.Firmware HorrorScope.Host

/-! ### Results as bytes -/

/-- The burst of a result: `RESL`, then `RESH`. -/
def burst (result : Int16) : List UInt8 :=
  [result.toUInt16.toUInt8, (result.toUInt16 >>> 8).toUInt8]

/-- The samples that `runSetup.py` declares for the trace set. -/
def declaredSamples (numSamples : Nat) (bits12 : Bool) : Nat :=
  if bits12 then numSamples / 2 else numSamples

private theorem length_flatMap_burst (results : List Int16) :
    (results.flatMap burst).length = 2 * results.length := by
  induction results with
  | nil => rfl
  | cons x xs ih =>
    rw [List.flatMap_cons, List.length_append, ih, List.length_cons]
    change 2 + 2 * xs.length = _
    omega

private theorem take_flatMap_burst (results : List Int16) (k : Nat) :
    (results.flatMap burst).take (2 * k) = (results.take k).flatMap burst := by
  induction results generalizing k with
  | nil => simp
  | cons x xs ih =>
    cases k with
    | zero => simp
    | succ k =>
      change _ :: _ :: (xs.flatMap burst).take (2 * k) = _
      rw [ih]
      rfl

private theorem word_of_burst (w : UInt16) :
    w.toUInt8.toUInt16 ||| (w >>> 8).toUInt8.toUInt16 <<< 8 = w := by
  have hlow : w.toUInt8 = UInt8.ofNat (w.toNat &&& 0xff) := by
    apply UInt8.toNat_inj.mp
    rw [UInt16.toNat_toUInt8, UInt8.toNat_ofNat', Nat.and_two_pow_sub_one_eq_mod w.toNat 8,
      Nat.mod_mod]
  have hhigh : (w >>> 8).toUInt8 = UInt8.ofNat (w.toNat >>> 8) := by
    apply UInt8.toNat_inj.mp
    rw [UInt16.toNat_toUInt8, UInt8.toNat_ofNat', UInt16.toNat_shiftRight]
    rfl
  have hle : w.toNat ≤ 0xffff := Nat.le_of_lt_succ w.toNat_lt
  rw [UInt16.or_comm, hlow, hhigh]
  exact (short_bigEndian hle).trans UInt16.ofNat_toNat

/-- numpy's decoding of whole bursts. -/
theorem frombufferI2_bursts (results : List Int16) :
    frombufferI2 (results.flatMap burst) = .ok results := by
  induction results with
  | nil => rfl
  | cons x xs ih =>
    change (frombufferI2 (xs.flatMap burst)).map
      ((x.toUInt16.toUInt8.toUInt16 ||| (x.toUInt16 >>> 8).toUInt8.toUInt16 <<< 8).toInt16 :: ·) = _
    rw [ih, word_of_burst]
    rfl

/-- Half a burst is left over. -/
theorem frombufferI2_odd {samples : List UInt8} (h : samples.length % 2 = 1) :
    frombufferI2 samples = .error .valueError := by
  induction samples using frombufferI2.induct with
  | case1 => cases h
  | case2 b => rfl
  | case3 lo hi samples ih =>
    have hrest : samples.length % 2 = 1 := by
      simp only [List.length_cons] at h
      omega
    rw [frombufferI2, ih hrest]
    rfl

/-! ### The buffer -/

/-- A complete capture of `n` bytes, of these results. -/
structure CapturedResults (L : Layout) (n : Nat) (results : List Int16) (r : Hw) : Prop where
  filling : r.sampling.Filling L.scopeBuf.toNat n ((results.flatMap burst).take n)
  enough : n ≤ 2 * results.length

section Loads

variable {L : Layout} (ω : Interference) {n : Nat} {bs : List UInt8} (hlen : bs.length = n)

include hlen

private theorem sampling_actAll (i : Nat) {r : Hw}
    (hf : r.sampling.Filling L.scopeBuf.toNat n bs) : (actAll ω i r).sampling = r.sampling := by
  unfold actAll
  generalize ω i = es
  induction es generalizing r with
  | nil => rfl
  | cons e es ih =>
    have he := sampling_act_of_complete L n hf hlen e
    exact (ih (by rw [he]; exact hf)).trans he

/-- Whatever the hardware does meanwhile, the loads return the bytes of a complete capture. -/
theorem loads_of_complete (j k : Nat) (hjk : j + k ≤ n) (s : Nat × Hw)
    (hf : s.2.sampling.Filling L.scopeBuf.toNat n bs) :
    (loads (hardware L ω) j k s).1 = (bs.drop j).take k := by
  induction k generalizing j s with
  | zero => simp [loads]
  | succ k ih =>
    have hs := sampling_actAll ω hlen s.1 hf
    have hj : j < bs.length := by omega
    have hb : (hardware L ω (.load j) s).1 = bs[j] := by
      have hstored := hf.stored j hj
      rw [← hs] at hstored
      exact hstored
    have hrest := ih (j + 1) (by omega) (s.1 + 1, actAll ω s.1 s.2) (by rw [hs]; exact hf)
    change (hardware L ω (.load j) s).1 :: (loads (hardware L ω) (j + 1) k _).1 = _
    rw [hb, hrest, List.drop_eq_getElem_cons hj, List.take_succ_cons]

end Loads

/-! ### What `getSamples` returns -/

section Samples

variable {L : Layout} (ω : Interference) {self : Scope} {v : Vars}
  (hn : v.numberOfSamples.toNat = self.numSamples) (hbits : self.bits12 = true)
  {results : List Int16} {s : Nat × Hw} (hcap : CapturedResults L self.numSamples results s.2)

include hn hbits hcap

private theorem perform_getSamples_captured :
    ∃ t, perform (hardware L ω) getSamples self ⟨.ret v, s, []⟩ =
      (((frombufferI2 ((results.flatMap burst).take self.numSamples)).map .i2, self), t) := by
  have hlen : ((results.flatMap burst).take self.numSamples).length = self.numSamples := by
    rw [List.length_take, length_flatMap_burst]
    exact Nat.min_eq_left hcap.enough
  have hloads := loads_of_complete ω hlen 0 self.numSamples (by omega) s hcap.filling
  obtain ⟨u, hu⟩ := perform_getSamples (hardware L ω) hn s
  rw [hloads, List.drop_zero, List.take_take, Nat.min_self, fetched, if_pos hbits] at hu
  exact ⟨_, hu⟩

private theorem perform_getSamples_even (heven : self.numSamples % 2 = 0) :
    ∃ t, perform (hardware L ω) getSamples self ⟨.ret v, s, []⟩ =
      ((.ok (.i2 (results.take (self.numSamples / 2))), self), t) := by
  have hdouble : self.numSamples = 2 * (self.numSamples / 2) := by omega
  have hbytes : (results.flatMap burst).take self.numSamples =
      (results.take (self.numSamples / 2)).flatMap burst := by
    rw [← take_flatMap_burst, ← hdouble]
  obtain ⟨t, ht⟩ := perform_getSamples_captured ω hn hbits hcap
  rw [hbytes, frombufferI2_bursts] at ht
  exact ⟨t, ht⟩

private theorem perform_getSamples_odd (hodd : self.numSamples % 2 = 1) :
    ∃ t, perform (hardware L ω) getSamples self ⟨.ret v, s, []⟩ =
      ((.error .valueError, self), t) := by
  have hlen : ((results.flatMap burst).take self.numSamples).length % 2 = 1 := by
    rw [List.length_take, length_flatMap_burst, Nat.min_eq_left hcap.enough]
    exact hodd
  obtain ⟨t, ht⟩ := perform_getSamples_captured ω hn hbits hcap
  rw [frombufferI2_odd hlen] at ht
  exact ⟨t, ht⟩

end Samples

/-- With the same length on both sides, in 12-bit mode, and the complete capture of any results in
the buffer: `getSamples` returns the results in order, as many as are declared for the trace set,
exactly when the length is even. Whatever the hardware does meanwhile changes nothing. -/
theorem getSamples_results_iff (L : Layout) (ω : Interference) (self : Scope) (v : Vars)
    (hn : v.numberOfSamples.toNat = self.numSamples) (hbits : self.bits12 = true)
    (results : List Int16) (s : Nat × Hw)
    (hcap : CapturedResults L self.numSamples results s.2) :
    (∃ items t, perform (hardware L ω) getSamples self ⟨.ret v, s, []⟩ =
        ((.ok (.i2 items), self), t) ∧
      items = results.take (self.numSamples / 2) ∧
      items.length = declaredSamples self.numSamples self.bits12) ↔
    self.numSamples % 2 = 0 := by
  constructor
  · rintro ⟨items, t, hitems, -⟩
    by_contra hne
    obtain ⟨t', ht'⟩ := perform_getSamples_odd ω hn hbits hcap (by omega)
    rw [ht'] at hitems
    cases hitems
  · intro heven
    obtain ⟨t, ht⟩ := perform_getSamples_even ω hn hbits hcap heven
    refine ⟨_, t, ht, rfl, ?_⟩
    have henough := hcap.enough
    rw [declaredSamples, if_pos hbits, List.length_take]
    omega

/-- The registers and the memory behind a capture of these bytes. -/
def captureOf (bs : List UInt8) : Hw where
  xfer := some ⟨someLayout.scopeBuf.toNat, bs.length, bs⟩
  mem a := bs.getD (a - someLayout.scopeBuf.toNat) 0

private theorem filling_captureOf (bs : List UInt8) :
    (captureOf bs).sampling.Filling someLayout.scopeBuf.toNat bs.length bs where
  xfer := rfl
  length_le := Nat.le_refl _
  enabled := by
    rw [decide_eq_false (Nat.lt_irrefl _)]
    change ((0 : UInt8) &&& DMA_CH_ENABLE_bm != 0) = false
    decide
  stored i hi := by
    change bs.getD (someLayout.scopeBuf.toNat + i - someLayout.scopeBuf.toNat) 0 = _
    rw [Nat.add_sub_cancel_left, List.getD_eq_getElem?_getD, List.getElem?_eq_getElem hi]
    rfl

/-- Four bytes of a capture, with the hardware still acting. -/
theorem getSamples_results_iff_four :
    ∃ items t, perform (hardware someLayout fun _ ↦ [.dmaByte 9]) getSamples { numSamples := 4 }
        ⟨.ret { numberOfSamples := 4 }, (0, captureOf [0xFE, 0xFF, 0x01, 0x02]), []⟩ =
      ((.ok (.i2 items), { numSamples := 4 }), t) ∧ items = [-2, 513] ∧ items.length = 2 :=
  (getSamples_results_iff someLayout (fun _ ↦ [.dmaByte 9]) { numSamples := 4 }
    { numberOfSamples := 4 } rfl rfl [-2, 513] (0, captureOf [0xFE, 0xFF, 0x01, 0x02])
    ⟨filling_captureOf _, by decide⟩).mpr rfl

/-- Three bytes of the same results: numpy raises `ValueError`. -/
theorem not_getSamples_three :
    CapturedResults someLayout 3 [-2, 513] (captureOf [0xFE, 0xFF, 0x01]) ∧
    ∃ t, perform (hardware someLayout fun _ ↦ []) getSamples { numSamples := 3 }
        ⟨.ret { numberOfSamples := 3 }, (0, captureOf [0xFE, 0xFF, 0x01]), []⟩ =
      ((.error .valueError, { numSamples := 3 }), t) := by
  have hcap : CapturedResults someLayout 3 [-2, 513] (captureOf [0xFE, 0xFF, 0x01]) :=
    ⟨filling_captureOf _, by decide⟩
  exact ⟨hcap, perform_getSamples_odd (fun _ ↦ []) rfl rfl hcap rfl⟩

end HorrorScope.Link
