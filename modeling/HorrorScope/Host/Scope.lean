import HorrorScope.Base.Service
import HorrorScope.Firmware.Main

/-!
# The host's driver

`class Scope` of `acq/scope.py`. A method is a client of the serial port that reads and updates
the object's mirror of the device's settings and may raise an exception; what it has assigned
before the exception stays assigned. The port's name and timeout and the texts printed on the
console are left out.
-/

namespace HorrorScope.Host

open HorrorScope.Base HorrorScope.Firmware

/-- The attributes of a `Scope` (`scope.py:14-36`), with the defaults of its constructor. Of
`bits12` only the truth value is used. -/
structure Scope where
  numSamples : Nat := 3500
  clockDivider : Nat := 2
  bits12 : Bool := true
  bias : Nat := 0x444
  gain : Nat := 0
  delay : Nat := 0
  deriving DecidableEq, Repr

/-- What a method may raise. -/
inductive Raised where
  | assertionError
  /-- `np.frombuffer` on a buffer that is no whole number of items. -/
  | valueError
  | exception (message : String)
  deriving DecidableEq, Repr

/-- A method that returns an `α`. -/
abbrev ScopeM := ExceptT Raised (StateT Scope (Client UInt8 UInt8))

/-- `self.serial.write(data)`. -/
def serialWrite (data : List UInt8) : ScopeM Unit :=
  ExceptT.mk fun self ↦ .write data (.ret (.ok (), self))

/-- `self.serial.read(size)`. -/
def serialRead (size : Nat) : ScopeM (List UInt8) :=
  ExceptT.mk fun self ↦ .read size fun data ↦ .ret (.ok data, self)

/-- `self.serial.close()` and `serial.Serial(port=self.port, …)`. -/
def serialReopen : ScopeM Unit := ExceptT.mk fun self ↦ .reopen (.ret (.ok (), self))

/-- `assert c`. -/
def assert (c : Bool) : ScopeM Unit := if c then pure () else throw .assertionError

/-- `bytes.hex`. -/
def hex (data : List UInt8) : String :=
  .ofList (data.flatMap fun b ↦ [Nat.digitChar (b.toNat / 16), Nat.digitChar (b.toNat % 16)])

/-- `bytes([n >> 8, n & 0xff])`. -/
def bigEndian (n : Nat) : List UInt8 := [UInt8.ofNat (n >>> 8), UInt8.ofNat (n &&& 0xff)]

/-- `_testScope` (`scope.py:57-74`). The second comparison of the source, of bytes with a string,
is never true and only prints. -/
def testScope : ScopeM Bool := do
  serialWrite [chr 't']
  let val ← serialRead 10
  return val == [chr 'T']

/-- `_checkResponse` (`scope.py:76-79`). -/
def checkResponse : ScopeM Unit := do
  let response ← serialRead 1
  if response ≠ [chr 'd'] then
    let extra ← serialRead 100
    throw (.exception ("Incorrect response:" ++ hex response ++ " extra: " ++ hex extra))

/-! ### Settings -/

/-- `setSamples`: the mirror is assigned before the assertion. -/
def setSamples (numSamples : Nat) : ScopeM Unit := do
  modify fun self ↦ { self with numSamples := numSamples }
  assert (numSamples ≤ 0xffff)
  serialWrite (chr 'n' :: bigEndian numSamples)
  checkResponse

/-- `set12Bits`. -/
def set12Bits (bits12 : Bool) : ScopeM Unit := do
  modify fun self ↦ { self with bits12 := bits12 }
  serialWrite [chr '8', if bits12 then 1 else 0]
  checkResponse

/-- `setBias`. -/
def setBias (bias : Nat) : ScopeM Unit := do
  assert (bias ≤ 0xffff)
  modify fun self ↦ { self with bias := bias }
  serialWrite (chr 'b' :: bigEndian bias)
  checkResponse

/-- `setDelay`. -/
def setDelay (delay : Nat) : ScopeM Unit := do
  assert (delay ≤ 0xffff)
  modify fun self ↦ { self with delay := delay }
  serialWrite (chr 'w' :: bigEndian delay)
  checkResponse

/-- `setSampleSpeed`. -/
def setSampleSpeed (clockDivider : Nat) : ScopeM Unit := do
  assert (clockDivider ≤ 0xff)
  modify fun self ↦ { self with clockDivider := clockDivider }
  serialWrite [chr 'c', UInt8.ofNat clockDivider]
  checkResponse

/-- `setGain`. -/
def setGain (gain : Nat) : ScopeM Unit := do
  assert (gain ≤ 0xff)
  modify fun self ↦ { self with gain := gain }
  serialWrite [chr 'g', UInt8.ofNat gain]
  checkResponse

/-! ### Sampling -/

/-- `waitForCompletion`: `false` after a timeout of the device. -/
def waitForCompletion : ScopeM Bool := do
  let response ← serialRead 1
  if response = [chr 'e'] then return false
  if response = [chr 'd'] then return true
  throw (.exception "incorrect response")

/-- `arm`. -/
def arm : ScopeM Unit := do
  serialWrite [chr 'd']
  let armed ← serialRead 1
  if armed ≠ [chr 'r'] then
    let additional ← serialRead 100
    throw (.exception
      ("Scope hasn't armed!" ++ hex armed ++ "additional" ++ hex additional ++ "    "))

/-- What `getSamples` returns: the items of the array, before the change of 16-bit ones to
`float32`, which holds each of them exactly. -/
inductive Samples where
  | i2 (items : List Int16)
  | uint8 (items : List UInt8)
  deriving DecidableEq

/-- `np.frombuffer(samples, '<i2')`. -/
def frombufferI2 : List UInt8 → Except Raised (List Int16)
  | [] => .ok []
  | [_] => .error .valueError
  | lo :: hi :: samples =>
    (frombufferI2 samples).map ((lo.toUInt16 ||| hi.toUInt16 <<< 8).toInt16 :: ·)

/-- `getSamples`. -/
def getSamples : ScopeM Samples := do
  serialWrite [chr 's']
  let self ← get
  let samples ← serialRead self.numSamples
  if samples.length ≠ self.numSamples then
    throw (.exception ("Scope didn't return enough samples(" ++ toString self.numSamples ++ "):" ++
      toString samples.length))
  if self.bits12 then
    return .i2 (← liftExcept (frombufferI2 samples))
  return .uint8 samples
where
  /-- Raise what the library function raises. -/
  liftExcept {α : Type} (e : Except Raised α) : ScopeM α := ExceptT.mk (pure e)

/-! ### Glitching -/

/-- `powerOn`. -/
def powerOn : ScopeM Unit := do
  serialWrite [chr 'y']
  checkResponse

/-- `powerOff`. -/
def powerOff : ScopeM Unit := do
  serialWrite [chr 'x']
  checkResponse

/-- `setGlitchLength`. -/
def setGlitchLength (glitchLength : Nat) : ScopeM Unit := do
  assert (glitchLength < 0xffff)
  serialWrite (chr 'l' :: bigEndian glitchLength)
  checkResponse

/-- `setPulses`. -/
def setPulses (pulses : Nat) : ScopeM Unit := do
  assert (pulses < 0xff)
  serialWrite [chr 'p', UInt8.ofNat (pulses &&& 0xff)]
  checkResponse

/-- `glitchArm`: has it not armed? -/
def glitchArm : ScopeM Bool := do
  serialWrite [chr 'h']
  let response ← serialRead 1
  return response != [chr 'r']

/-- `waitForGlitcher`: has it timed out? -/
def waitForGlitcher : ScopeM Bool := do
  let response ← serialRead 1
  return response != [chr 'd']

/-! ### Reconnecting -/

/-- The loop of `reconnect`: the number of probes up to the one that was answered, `none` if
none of `fuel` probes was. -/
def probe : (fuel : Nat) → ScopeM (Option Nat)
  | 0 => pure none
  | fuel + 1 => do
    serialReopen
    if ← testScope then
      return some 1
    return (← probe fuel).map (· + 1)

/-- `reconnect` (`scope.py:39-53`) behind its loop. -/
def restore : ScopeM Unit := do
  setSamples (← get).numSamples
  setSampleSpeed (← get).clockDivider
  set12Bits (← get).bits12
  setBias (← get).bias
  setGain (← get).gain
  setDelay (← get).delay

/-- `reconnect`, for as long as `fuel` probes. -/
def reconnect (fuel : Nat) : ScopeM (Option Nat) := do
  let probes ← probe fuel
  if probes.isSome then
    restore
  return probes

end HorrorScope.Host
