import HorrorScope.Base.Service
import HorrorScope.Host.Scope

/-!
# Methods of the host against the device

The command loop of the firmware as a service, and what it answers to the bytes of each command.
The routines behind its calls are answered by an arbitrary `handle`, so everything here holds
for whatever `trigger_wait` and the capture return.
-/

namespace HorrorScope.Link

open HorrorScope.Base HorrorScope.Firmware HorrorScope.Host

/-- The answers to the calls of `main`. -/
abbrev Handle (η : Type) := (c : Call) → η → c.Answer × η

/-- The command loop, between two actions of the host. -/
abbrev Device (η : Type) := Turn UInt8 UInt8 Call Call.Answer Vars η

/-- The command loop. -/
def device {η : Type} (handle : Handle η) : Service UInt8 UInt8 Call Call.Answer Vars η :=
  ⟨dispatch, handle⟩

variable {η : Type} (handle : Handle η)

/-- Run a method of the host against the device. -/
def perform {α : Type} (m : ScopeM α) (self : Scope) (t : Device η) :
    (Except Raised α × Scope) × Device η :=
  (m.run.run self).exec (device handle) t

section Methods

variable {α β : Type} (self : Scope) (t : Device η)

private theorem perform_bind (m : ScopeM α) (f : α → ScopeM β) :
    perform handle (m >>= f) self t =
      match perform handle m self t with
      | ((.ok a, self'), t') => perform handle (f a) self' t'
      | ((.error e, self'), t') => ((.error e, self'), t') := by
  change ((m.run.run self) >>= fun x ↦ _).exec _ _ = _
  rw [Client.exec_bind]
  unfold perform
  obtain ⟨⟨r, self'⟩, t'⟩ := (m.run.run self).exec (device handle) t
  cases r with
  | ok a => rfl
  | error e => rfl

/-- A method that does not raise, in front of another one. -/
theorem perform_bind_of_ok {m : ScopeM α} {f : α → ScopeM β} {a : α} {self' : Scope}
    {t' : Device η} (h : perform handle m self t = ((.ok a, self'), t')) :
    perform handle (m >>= f) self t = perform handle (f a) self' t' := by
  rw [perform_bind, h]

/-- Behind an exception nothing is done. -/
theorem perform_bind_of_error {m : ScopeM α} {f : α → ScopeM β} {e : Raised} {self' : Scope}
    {t' : Device η} (h : perform handle m self t = ((.error e, self'), t')) :
    perform handle (m >>= f) self t = ((.error e, self'), t') := by
  rw [perform_bind, h]

/-- A result changes nothing. -/
@[simp] theorem perform_pure (a : α) :
    perform handle (pure a : ScopeM α) self t = ((.ok a, self), t) := rfl

/-- The object is read. -/
@[simp] theorem perform_get : perform handle get self t = ((.ok self, self), t) := rfl

/-- The object is changed. -/
@[simp] theorem perform_modify (g : Scope → Scope) :
    perform handle (modify g) self t = ((.ok (), g self), t) := rfl

/-- A write is taken in by the device. -/
@[simp] theorem perform_serialWrite (data : List UInt8) :
    perform handle (serialWrite data) self t = ((.ok (), self), (device handle).feed t data) := rfl

/-- A read takes what the device has said. -/
@[simp] theorem perform_serialRead (size : Nat) :
    perform handle (serialRead size) self t =
      ((.ok (readActions size t.unread).1, self),
        { t with unread := (readActions size t.unread).2 }) := rfl

/-- A new port has nothing unread. -/
@[simp] theorem perform_serialReopen :
    perform handle serialReopen self t = ((.ok (), self), { t with unread := [] }) := rfl

/-- An assertion that holds. -/
theorem perform_assert_of_true {c : Bool} (hc : c = true) :
    perform handle (assert c) self t = ((.ok (), self), t) := by
  rw [hc]
  rfl

/-- An assertion that fails. -/
theorem perform_assert_of_false {c : Bool} (hc : c = false) :
    perform handle (assert c) self t = ((.error .assertionError, self), t) := by
  rw [hc]
  rfl

end Methods

/-! ### Commands that are acknowledged -/

/-- The device takes the bytes and answers `d` as the last thing it does. -/
def Acks (v : Vars) (h : η) (data : List UInt8) (v' : Vars) (h' : η) : Prop :=
  ∃ n, (device handle).feed ⟨.ret v, h, []⟩ data =
    ⟨.ret v', h', List.replicate n none ++ [some (chr 'd')]⟩

variable {handle}

/-- A command that is acknowledged leaves nothing unread. -/
theorem Acks.perform {v v' : Vars} {h h' : η} {data : List UInt8}
    (ha : Acks handle v h data v' h') (self : Scope) :
    perform handle (do serialWrite data; checkResponse) self ⟨.ret v, h, []⟩ =
      ((.ok (), self), ⟨.ret v', h', []⟩) := by
  obtain ⟨n, hn⟩ := ha
  rw [perform_bind_of_ok _ _ _ (perform_serialWrite ..), hn]
  unfold checkResponse
  rw [perform_bind_of_ok _ _ _ (perform_serialRead ..)]
  simp [readActions_replicate]

section Commands

variable (v : Vars) (h : η) (c high low : UInt8)

/-- The operand of `USB_serial_get_short`. -/
def short (high low : UInt8) : UInt16 := high.toUInt16 <<< 8 ||| low.toUInt16

/-- `g` is acknowledged. -/
theorem acks_setGain :
    Acks handle v h [chr 'g', c] v (handle (.adcChGain (c <<< 2)) h).2 := ⟨3, rfl⟩

/-- `c` is acknowledged. -/
theorem acks_setClockDivider :
    Acks handle v h [chr 'c', c] v (handle (.adcPrescaler (c &&& 0x7)) h).2 := ⟨3, rfl⟩

/-- `b` is acknowledged. -/
theorem acks_setBias :
    Acks handle v h [chr 'b', high, low] v (handle (.adcCalibrate (short high low)) h).2 :=
  ⟨4, rfl⟩

/-- `8` is acknowledged. -/
theorem acks_setBits12 :
    Acks handle v h [chr '8', c] { v with bits12 := c &&& 1 }
      (handle .triggerInit (handle (.dmaadcInit (c &&& 1)) h).2).2 := ⟨4, rfl⟩

/-- `w` is acknowledged. -/
theorem acks_setDelay :
    Acks handle v h [chr 'w', high, low] { v with delay := short high low } h := ⟨3, rfl⟩

/-- `l` is acknowledged, with the low byte kept. -/
theorem acks_setGlitchLength :
    Acks handle v h [chr 'l', high, low] { v with glitchLength := (short high low).toUInt8 } h :=
  ⟨3, rfl⟩

/-- `e` is acknowledged. -/
theorem acks_setTimeout :
    Acks handle v h [chr 'e', high, low] { v with timeout := (short high low).toUInt32 } h :=
  ⟨3, rfl⟩

/-- `p` is acknowledged. -/
theorem acks_setPulses : Acks handle v h [chr 'p', c] { v with pulses := c } h := ⟨2, rfl⟩

/-- `x` is acknowledged. -/
theorem acks_turnOff : Acks handle v h [chr 'x'] v (handle .powerOff h).2 := ⟨2, rfl⟩

/-- `y` is acknowledged. -/
theorem acks_turnOn : Acks handle v h [chr 'y'] v (handle .powerOn h).2 := ⟨2, rfl⟩

/-! ### The other commands -/

variable (handle)

private theorem feed_setNumberOfSamples :
    (device handle).feed ⟨.ret v, h, []⟩ [chr 'n', high, low] =
      (device handle).settle
        (if (short high low).toNat > scopeBufSize then do
          putStringP bufferTooBig
          return v
        else do
          putChar (chr 'd')
          return { v with numberOfSamples := short high low })
        h [none, none, none] := rfl

variable {high low}

/-- `n` is acknowledged for a number of samples that fits. -/
theorem acks_setNumberOfSamples (hle : (short high low).toNat ≤ scopeBufSize) :
    Acks handle v h [chr 'n', high, low] { v with numberOfSamples := short high low } h := by
  refine ⟨3, ?_⟩
  rw [feed_setNumberOfSamples, if_neg (Nat.not_lt.mpr hle)]
  rfl

/-- `n` with a number of samples that does not fit. -/
theorem feed_setNumberOfSamples_tooBig (hgt : scopeBufSize < (short high low).toNat) :
    (device handle).feed ⟨.ret v, h, []⟩ [chr 'n', high, low] =
      ⟨.ret v, h, List.replicate 3 none ++ bufferTooBig.map some⟩ := by
  rw [feed_setNumberOfSamples, if_pos hgt]
  rfl

/-- What the device says to a `d`. -/
theorem feed_arm :
    ∃ h', ∃ timedOut : Bool, (device handle).feed ⟨.ret v, h, []⟩ [chr 'd'] =
      ⟨.ret v, h', [none, none, some (chr 'r'), none, none,
        some (if timedOut then chr 'e' else chr 'd')]⟩ := ⟨_, _, rfl⟩

private theorem settle_glitchPulses (n : Nat) (b : UInt8) (h : η) (u : List (Option UInt8)) :
    ∃ h', (device handle).settle (do glitchPulses n; putChar b; return v) h u =
      ⟨.ret v, h', u ++ List.replicate (2 * n) none ++ [some b]⟩ := by
  induction n generalizing h u with
  | zero => exact ⟨h, by rw [Nat.mul_zero, List.replicate_zero, List.append_nil]; rfl⟩
  | succ n ih =>
    obtain ⟨h', hn⟩ := ih
      (handle .hiresGlitch (handle (.hiresSetCounter 0x00) h).2).2 (u ++ [none] ++ [none])
    refine ⟨h', Eq.trans hn ?_⟩
    rw [Nat.mul_succ, Nat.add_comm, ← List.replicate_append_replicate]
    simp

/-- What the device says to an `h`. -/
theorem feed_glitch :
    ∃ h' n b, (device handle).feed ⟨.ret v, h, []⟩ [chr 'h'] =
      ⟨.ret v, h', [none, none, none, some (chr 'r'), none] ++ List.replicate n none ++
        [some b]⟩ := by
  obtain ⟨h', hn⟩ := settle_glitchPulses handle v v.pulses.toNat _ _ _
  exact ⟨h', _, _, hn⟩

/-- The bytes that `n` loads from index `i` on answer, and the routines' state behind them. -/
def loads (i : Nat) : Nat → η → List UInt8 × η
  | 0, h => ([], h)
  | n + 1, h =>
    let (b, h) := handle (.load i) h
    let (bs, h) := loads (i + 1) n h
    (b :: bs, h)

/-- A load for each byte. -/
theorem length_loads (i n : Nat) (h : η) : (loads handle i n h).1.length = n := by
  induction n generalizing i h with
  | zero => rfl
  | succ n ih => exact congrArg Nat.succ (ih (i + 1) _)

private theorem settle_putBuf (n i : Nat) (h : η) (u : List (Option UInt8)) :
    (device handle).settle (do putBuf i n; return v) h u =
      ⟨.ret v, (loads handle i n h).2,
        u ++ (loads handle i n h).1.flatMap fun b ↦ [none, some b]⟩ := by
  induction n generalizing i h u with
  | zero =>
    change (⟨.ret v, h, u⟩ : Device η) = ⟨.ret v, h, u ++ []⟩
    rw [List.append_nil]
  | succ n ih =>
    have hn := ih (i + 1) (handle (.load i) h).2 (u ++ [none] ++ [some (handle (.load i) h).1])
    refine Eq.trans hn ?_
    rw [List.append_assoc, List.append_assoc]
    rfl

/-- What the device says to an `s`. -/
theorem feed_sampleFetch :
    (device handle).feed ⟨.ret v, h, []⟩ [chr 's'] =
      ⟨.ret v, (loads handle 0 v.numberOfSamples.toNat h).2,
        none :: (loads handle 0 v.numberOfSamples.toNat h).1.flatMap fun b ↦ [none, some b]⟩ :=
  settle_putBuf handle v _ 0 h [none]

/-- The device's samples are all read, whether there are enough of them or not. -/
theorem readActions_samples {bs : List UInt8} {n : Nat} (hle : bs.length ≤ n) :
    readActions n (bs.flatMap fun b ↦ [none, some b]) = (bs, []) := by
  induction bs generalizing n with
  | nil => simp
  | cons b bs ih =>
    cases n with
    | zero => exact absurd hle (Nat.not_succ_le_zero _)
    | succ n => simp [ih (Nat.le_of_succ_le_succ hle)]

end Commands

/-! ### Settings -/

section Settings

/-- Two bytes of the host are read as its number. -/
theorem short_bigEndian {n : Nat} (hn : n ≤ 0xffff) :
    short (UInt8.ofNat (n >>> 8)) (UInt8.ofNat (n &&& 0xff)) = UInt16.ofNat n := by
  have hhigh : n >>> 8 = n / 256 := Nat.shiftRight_eq_div_pow n 8
  have hlow : n &&& 0xff = n % 256 := Nat.and_two_pow_sub_one_eq_mod n 8
  apply UInt16.toNat_inj.mp
  rw [hhigh, hlow, short, UInt16.toNat_or, UInt16.toNat_shiftLeft, UInt8.toNat_toUInt16,
    UInt8.toNat_toUInt16, UInt8.toNat_ofNat_of_lt' (by change _ < 256; omega),
    UInt8.toNat_ofNat_of_lt' (by change _ < 256; omega),
    UInt16.toNat_ofNat_of_lt' (by change _ < 65536; omega)]
  change (n / 256) <<< 8 % 65536 ||| n % 256 = n
  rw [Nat.mod_eq_of_lt (by rw [Nat.shiftLeft_eq]; omega),
    ← Nat.shiftLeft_add_eq_or_of_lt (by omega), Nat.shiftLeft_eq]
  omega

/-- The number that two bytes of the host stand for. -/
theorem toNat_short_bigEndian {n : Nat} (hn : n ≤ 0xffff) :
    (short (UInt8.ofNat (n >>> 8)) (UInt8.ofNat (n &&& 0xff))).toNat = n := by
  rw [short_bigEndian hn]
  exact UInt16.toNat_ofNat_of_lt' (by change _ < 65536; omega)

variable {v v' : Vars} {h h' : η} {data : List UInt8}

/-- A method that checks its argument, assigns the mirror and sends a command. -/
theorem perform_setting {c : Bool} (hc : c = true) (g : Scope → Scope)
    (ha : Acks handle v h data v' h') (self : Scope) :
    perform handle (do assert c; modify g; serialWrite data; checkResponse) self ⟨.ret v, h, []⟩ =
      ((.ok (), g self), ⟨.ret v', h', []⟩) := by
  rw [perform_bind_of_ok _ _ _ (perform_assert_of_true _ _ _ hc),
    perform_bind_of_ok _ _ _ (perform_modify ..)]
  exact ha.perform _

variable (self : Scope) (v : Vars) (h : η)

/-- `setSamples` with a number of samples that fits. -/
theorem perform_setSamples {numSamples : Nat} (hn : numSamples ≤ scopeBufSize) :
    perform handle (setSamples numSamples) self ⟨.ret v, h, []⟩ =
      ((.ok (), { self with numSamples := numSamples }),
        ⟨.ret { v with numberOfSamples := UInt16.ofNat numSamples }, h, []⟩) := by
  have hle : numSamples ≤ 0xffff := Nat.le_trans hn (by decide)
  unfold setSamples
  rw [perform_bind_of_ok _ _ _ (perform_modify ..),
    perform_bind_of_ok _ _ _ (perform_assert_of_true _ _ _ (decide_eq_true hle)),
    ← short_bigEndian hle]
  exact (acks_setNumberOfSamples handle v h (by rwa [toNat_short_bigEndian hle])).perform _

/-- The device refuses the length; the mirror keeps it. -/
theorem perform_setSamples_tooBig {numSamples : Nat} (hgt : scopeBufSize < numSamples)
    (hle : numSamples ≤ 0xffff) :
    perform handle (setSamples numSamples) self ⟨.ret v, h, []⟩ =
      ((.error (.exception ("Incorrect response:" ++ hex (bufferTooBig.take 1) ++ " extra: " ++
        hex (bufferTooBig.drop 1))), { self with numSamples := numSamples }),
        ⟨.ret v, h, []⟩) := by
  unfold setSamples bigEndian
  rw [perform_bind_of_ok _ _ _ (perform_modify ..),
    perform_bind_of_ok _ _ _ (perform_assert_of_true _ _ _ (decide_eq_true hle)),
    perform_bind_of_ok _ _ _ (perform_serialWrite ..), feed_setNumberOfSamples_tooBig handle v h
      (by rwa [toNat_short_bigEndian hle])]
  rfl

/-- The assertion fails; the mirror keeps the length. -/
theorem perform_setSamples_assertionError {numSamples : Nat} (hgt : 0xffff < numSamples) :
    perform handle (setSamples numSamples) self ⟨.ret v, h, []⟩ =
      ((.error .assertionError, { self with numSamples := numSamples }), ⟨.ret v, h, []⟩) := by
  unfold setSamples
  rw [perform_bind_of_ok _ _ _ (perform_modify ..)]
  exact perform_bind_of_error _ _ _
    (perform_assert_of_false _ _ _ (decide_eq_false (Nat.not_le.mpr hgt)))

/-- `set12Bits` succeeds. -/
theorem perform_set12Bits (bits12 : Bool) :
    perform handle (set12Bits bits12) self ⟨.ret v, h, []⟩ =
      ((.ok (), { self with bits12 := bits12 }),
        ⟨.ret { v with bits12 := if bits12 then 1 else 0 },
          (handle .triggerInit (handle (.dmaadcInit (if bits12 then 1 else 0)) h).2).2, []⟩) := by
  unfold set12Bits
  rw [perform_bind_of_ok _ _ _ (perform_modify ..), (acks_setBits12 v h _).perform]
  cases bits12 <;> rfl

/-- `setBias` succeeds. -/
theorem perform_setBias {bias : Nat} (hb : bias ≤ 0xffff) :
    perform handle (setBias bias) self ⟨.ret v, h, []⟩ =
      ((.ok (), { self with bias := bias }),
        ⟨.ret v, (handle (.adcCalibrate (UInt16.ofNat bias)) h).2, []⟩) := by
  rw [← short_bigEndian hb]
  exact perform_setting (decide_eq_true hb) _ (acks_setBias v h _ _) self

/-- `setDelay` succeeds. -/
theorem perform_setDelay {delay : Nat} (hd : delay ≤ 0xffff) :
    perform handle (setDelay delay) self ⟨.ret v, h, []⟩ =
      ((.ok (), { self with delay := delay }),
        ⟨.ret { v with delay := UInt16.ofNat delay }, h, []⟩) := by
  rw [← short_bigEndian hd]
  exact perform_setting (decide_eq_true hd) _ (acks_setDelay v h _ _) self

/-- `setSampleSpeed` succeeds. -/
theorem perform_setSampleSpeed {clockDivider : Nat} (hc : clockDivider ≤ 0xff) :
    perform handle (setSampleSpeed clockDivider) self ⟨.ret v, h, []⟩ =
      ((.ok (), { self with clockDivider := clockDivider }),
        ⟨.ret v, (handle (.adcPrescaler (UInt8.ofNat clockDivider &&& 0x7)) h).2, []⟩) :=
  perform_setting (decide_eq_true hc) _ (acks_setClockDivider v h _) self

/-- `setGain` succeeds. -/
theorem perform_setGain {gain : Nat} (hg : gain ≤ 0xff) :
    perform handle (setGain gain) self ⟨.ret v, h, []⟩ =
      ((.ok (), { self with gain := gain }),
        ⟨.ret v, (handle (.adcChGain (UInt8.ofNat gain <<< 2)) h).2, []⟩) :=
  perform_setting (decide_eq_true hg) _ (acks_setGain v h _) self

end Settings

/-! ### Fetching the samples -/

/-- What `getSamples` makes of all the bytes it asked for. -/
def fetched (bits12 : Bool) (samples : List UInt8) : Except Raised Samples :=
  if bits12 then (frombufferI2 samples).map .i2 else .ok (.uint8 samples)

/-- With the same number on both sides, `getSamples` gets all the bytes. -/
theorem perform_getSamples (handle : Handle η) {self : Scope} {v : Vars}
    (hn : v.numberOfSamples.toNat = self.numSamples) (h : η) :
    ∃ u, perform handle getSamples self ⟨.ret v, h, []⟩ =
      ((fetched self.bits12 (loads handle 0 self.numSamples h).1, self),
        ⟨.ret v, (loads handle 0 self.numSamples h).2, u⟩) := by
  have hlen : (loads handle 0 self.numSamples h).1.length = self.numSamples := length_loads ..
  have hread : ∃ u, readActions self.numSamples
      (none :: (loads handle 0 self.numSamples h).1.flatMap fun b ↦ [none, some b]) =
        ((loads handle 0 self.numSamples h).1, u) := by
    cases hnum : self.numSamples with
    | zero => exact ⟨_, readActions_zero _⟩
    | succ n =>
      rw [readActions_none, ← hnum]
      exact ⟨_, readActions_samples (Nat.le_of_eq hlen)⟩
  obtain ⟨u, hu⟩ := hread
  refine ⟨u, ?_⟩
  unfold getSamples fetched
  rw [perform_bind_of_ok _ _ _ (perform_serialWrite ..), feed_sampleFetch, hn,
    perform_bind_of_ok _ _ _ (perform_get ..), perform_bind_of_ok _ _ _ (perform_serialRead ..), hu]
  dsimp only
  rw [if_neg (not_not_intro hlen)]
  cases self.bits12 with
  | true =>
    cases frombufferI2 (loads handle 0 self.numSamples h).1 with
    | ok items => rfl
    | error e => rfl
  | false => rfl

end HorrorScope.Link
