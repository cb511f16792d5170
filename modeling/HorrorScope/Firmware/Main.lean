import HorrorScope.Base.Proc
import HorrorScope.Base.Run
import HorrorScope.Firmware.Drivers

/-!
# The command loop

`main` of `HorrorScope.c:19-203`: its variables, the initialisation of the peripherals and the
`switch` over the command byte. The loop's own control flow (reads of command and operand
bytes, replies, calls of driver routines) is a process; the routines it calls are programs over
the registers. `Machine` runs the two together with the hardware, one atomic step at a time.

The clock, power-reduction and UART set-up of `main` touches no register of `Hw` and is left
out.
-/

namespace HorrorScope.Firmware

open HorrorScope.Base

/-- The variables of `main` (`HorrorScope.c:20-25`). -/
structure Vars where
  timeout : UInt32 := 40000
  delay : UInt16 := 0
  numberOfSamples : UInt16 := 3584
  glitchLength : UInt8 := 0
  bits12 : UInt8 := 1
  pulses : UInt8 := 1
  deriving DecidableEq, Repr

/-- What `main` calls. -/
inductive Call where
  /-- `memset(scopeBuf, c, sizeof(scopeBuf))`. -/
  | memset (c : UInt8)
  /-- The read of `scopeBuf[i]` by `USB_serial_put_buf`. -/
  | load (i : Nat)
  | triggerWait (timeout : UInt32) (delay : UInt16)
  | dmaadcReadBufCh0 (length : UInt16)
  | adcChGain (gain : UInt8)
  | adcPrescaler (prescaler : UInt8)
  | adcCalibrate (adcCal : UInt16)
  | adcInit (bits12 : UInt8)
  | dmaadcInit (bits12 : UInt8)
  | triggerInit
  | hiresInit
  | hiresSetPeriod (period : UInt8)
  | hiresSetCounter (counter : UInt8)
  | hiresSetCompare (compare : UInt8)
  | hiresGlitch
  /-- `PORTC.DIRSET = 0xff; PORTC.OUT = 0xff; TCC2.CTRLC = 0xff`. -/
  | powerInit
  /-- `PORTC.OUTCLR = 0xff; TCC2.CTRLC = 0x00`. -/
  | powerOff
  /-- `PORTC.OUTSET = 0xff; TCC2.CTRLC = 0xff`. -/
  | powerOn
  deriving DecidableEq, Repr

/-- What a call returns. -/
@[reducible] def Call.Answer : Call → Type
  | load _ => UInt8
  | triggerWait _ _ => Bool
  | _ => Unit

/-- The routine behind a call. -/
def Call.body (L : Layout) : (c : Call) → Routine c.Answer
  | memset c => Prog.assign fun r ↦
      { r with mem := fun a ↦
        if L.scopeBuf.toNat ≤ a ∧ a < L.scopeBuf.toNat + scopeBufSize then c else r.mem a }
  | load i => Prog.read fun r ↦ r.mem (L.scopeBuf.toNat + i)
  | triggerWait timeout delay => Firmware.triggerWait timeout delay
  | dmaadcReadBufCh0 length => Firmware.dmaadcReadBufCh0 L.scopeBuf length
  | adcChGain gain => Firmware.adcChGain gain
  | adcPrescaler prescaler => Firmware.adcPrescaler prescaler
  | adcCalibrate adcCal => Firmware.adcCalibrate adcCal
  | adcInit bits12 => Firmware.adcInit bits12
  | dmaadcInit bits12 => Firmware.dmaadcInit bits12
  | triggerInit => Firmware.triggerInit L
  | hiresInit => Firmware.hiresInit
  | hiresSetPeriod period => Firmware.hiresSetPeriod period
  | hiresSetCounter counter => Firmware.hiresSetCounter counter
  | hiresSetCompare compare => Firmware.hiresSetCompare compare
  | hiresGlitch => Firmware.hiresGlitch
  | powerInit => do
      Prog.assign fun r ↦ { r with portcDir := 0xff }
      Prog.assign fun r ↦ { r with portcOut := 0xff }
      Prog.assign fun r ↦ { r with tcc2.ctrlc := 0xff }
  | powerOff => do
      Prog.assign fun r ↦ { r with portcOut := 0x00 }
      Prog.assign fun r ↦ { r with tcc2.ctrlc := 0x00 }
  | powerOn => do
      Prog.assign fun r ↦ { r with portcOut := 0xff }
      Prog.assign fun r ↦ { r with tcc2.ctrlc := 0xff }

/-- The control flow of `main`. -/
abbrev Fw := Proc UInt8 UInt8 Call Call.Answer

/-- Call a routine. -/
def ask (c : Call) : Fw c.Answer := Proc.ask c

/-- `USB_serial_get_char`. -/
def getChar : Fw UInt8 := Proc.input

/-- `USB_serial_get_short` (`usb_serial.c:176-180`): the high byte comes first. -/
def getShort : Fw UInt16 := do
  let high ← getChar
  let low ← getChar
  return high.toUInt16 <<< 8 ||| low.toUInt16

/-- `USB_serial_put_char`. -/
def putChar (val : UInt8) : Fw Unit := Proc.output val

/-- `USB_serial_put_string_P`, one character at a time. -/
def putStringP : List UInt8 → Fw Unit
  | [] => pure ()
  | c :: s => do putChar c; putStringP s

/-- `USB_serial_put_buf(scopeBuf + i, length)` over a link that accepts everything. -/
def putBuf (i : Nat) : Nat → Fw Unit
  | 0 => pure ()
  | length + 1 => do
    putChar (← ask (.load i))
    putBuf (i + 1) length

/-- The byte of an ASCII character. -/
def chr (c : Char) : UInt8 := c.toUInt8

/-- `"Buffer too big\r\n"`. -/
def bufferTooBig : List UInt8 :=
  ['B', 'u', 'f', 'f', 'e', 'r', ' ', 't', 'o', 'o', ' ', 'b', 'i', 'g', '\r', '\n'].map chr

/-- `"Invalid command:"`. -/
def invalidCommand : List UInt8 :=
  ['I', 'n', 'v', 'a', 'l', 'i', 'd', ' ', 'c', 'o', 'm', 'm', 'a', 'n', 'd', ':'].map chr

/-- The cases of the `switch`. -/
inductive Command where
  | test | arm | sampleFetch | setNumberOfSamples | setGain | setClockDivider | setBias | fault
  | setBits12 | glitch | setDelay | setGlitchLength | setTimeout | setPulses | turnOff | turnOn
  deriving DecidableEq, Repr

/-- The case labels of the `switch` (`HorrorScope.c:93-194`). -/
def Command.labels : List (UInt8 × Command) :=
  [(chr 'T', test), (chr 't', test), (chr 'd', arm), (chr 's', sampleFetch),
    (chr 'n', setNumberOfSamples), (chr 'g', setGain), (chr 'c', setClockDivider),
    (chr 'b', setBias), (chr 'f', fault), (chr '8', setBits12), (chr 'h', glitch),
    (chr 'w', setDelay), (chr 'l', setGlitchLength), (chr 'e', setTimeout), (chr 'p', setPulses),
    (chr 'x', turnOff), (chr 'y', turnOn)]

/-- The case a command byte selects; `none` is `default`. -/
def Command.ofByte (b : UInt8) : Option Command := labels.lookup b

/-- `for(int i=0;i < pulses;i++){ hires_set_counter(0x00); hires_glitch(); }`. -/
def glitchPulses : Nat → Fw Unit
  | 0 => pure ()
  | n + 1 => do
    ask (.hiresSetCounter 0x00)
    ask .hiresGlitch
    glitchPulses n

/-- One case of the `switch`, from after the command byte to its `break`. -/
def Command.run (v : Vars) : Command → Fw Vars
  | test => do
    putChar (chr 'T')
    return v
  | arm => do
    ask (.memset 0)
    putChar (chr 'r')
    let timedOut ← ask (.triggerWait v.timeout v.delay)
    ask (.dmaadcReadBufCh0 v.numberOfSamples)
    putChar (if timedOut then chr 'e' else chr 'd')
    return v
  | sampleFetch => do
    putBuf 0 v.numberOfSamples.toNat
    return v
  | setNumberOfSamples => do
    let temp ← getShort
    if temp.toNat > scopeBufSize then
      putStringP bufferTooBig
      return v
    putChar (chr 'd')
    return { v with numberOfSamples := temp }
  | setGain => do
    let c ← getChar
    ask (.adcChGain (c <<< 2))
    putChar (chr 'd')
    return v
  | setClockDivider => do
    let c ← getChar
    ask (.adcPrescaler (c &&& 0x7))
    putChar (chr 'd')
    return v
  | setBias => do
    let s ← getShort
    ask (.adcCalibrate s)
    putChar (chr 'd')
    return v
  | fault => do
    putChar (chr 'r')
    let timedOut ← ask (.triggerWait v.timeout v.delay)
    -- the other way round than in the cases `d` and `h`
    putChar (if timedOut then chr 'd' else chr 'e')
    return v
  | setBits12 => do
    let c ← getChar
    ask (.dmaadcInit (c &&& 1))
    ask .triggerInit
    putChar (chr 'd')
    return { v with bits12 := c &&& 1 }
  | glitch => do
    ask (.hiresSetCounter 0x00)
    ask (.hiresSetCompare (0xff - v.glitchLength))
    putChar (chr 'r')
    let timedOut ← ask (.triggerWait v.timeout v.delay)
    glitchPulses v.pulses.toNat
    putChar (if timedOut then chr 'e' else chr 'd')
    return v
  | setDelay => do
    let s ← getShort
    putChar (chr 'd')
    return { v with delay := s }
  | setGlitchLength => do
    let s ← getShort
    putChar (chr 'd')
    return { v with glitchLength := s.toUInt8 }
  | setTimeout => do
    let s ← getShort
    putChar (chr 'd')
    return { v with timeout := s.toUInt32 }
  | setPulses => do
    let c ← getChar
    putChar (chr 'd')
    return { v with pulses := c }
  | turnOff => do
    ask .powerOff
    putChar (chr 'd')
    return v
  | turnOn => do
    ask .powerOn
    putChar (chr 'd')
    return v

/-- The `switch` for a command byte. -/
def dispatch (v : Vars) (command : UInt8) : Fw Vars :=
  match Command.ofByte command with
  | some c => c.run v
  | none => do
    putStringP invalidCommand
    putChar command
    putStringP [chr '\r', chr '\n']
    return v

/-- `main` up to its loop. -/
def init : Fw Vars := do
  let v : Vars := {}
  ask (.memset (chr 'U'))
  ask (.adcInit v.bits12)
  ask (.dmaadcInit v.bits12)
  ask .triggerInit
  ask .powerInit
  ask .hiresInit
  ask (.hiresSetPeriod 0xff)
  return v

/-! ### The machine -/

/-- Where the processor is. -/
inductive Ctl where
  /-- At the command read of the loop. -/
  | idle (v : Vars)
  /-- In `main`, outside every routine. -/
  | main (p : Fw Vars)
  /-- In the routine of a call, with what is left of it and how `main` goes on. -/
  | inCall (c : Call) (body : Routine c.Answer) (k : c.Answer → Fw Vars)

/-- The firmware together with the hardware. -/
structure Machine where
  ctl : Ctl
  hw : Hw
  /-- The bytes handed to the USB link so far. -/
  out : List UInt8 := []
  /-- What the latest `trigger_wait` returned. -/
  lastWait : Option Bool := none

/-- What can happen next. -/
inductive Event where
  /-- The processor makes one step. -/
  | cpu
  /-- `USB_serial_get_char` returns this byte, if that is what the processor waits for. -/
  | byte (b : UInt8)
  /-- The hardware acts. -/
  | hw (e : HwEvent)
  deriving DecidableEq, Repr

/-- The new value of `lastWait` when a call returns. -/
def Call.noteReturn : (c : Call) → c.Answer → Option Bool → Option Bool
  | triggerWait _ _, timedOut, _ => some timedOut
  | _, _, last => last

namespace Machine

variable (L : Layout)

/-- One step of the processor. -/
def cpuStep (m : Machine) : Machine :=
  match m.ctl with
  | .idle _ => m
  | .main (.ret v) => { m with ctl := .idle v }
  | .main (.recv _) => m
  | .main (.send b k) => { m with ctl := .main k, out := m.out ++ [b] }
  | .main (.call c k) => { m with ctl := .inCall c (c.body L) k }
  | .inCall c (.ret a) k =>
    { m with ctl := .main (k a), lastWait := c.noteReturn a m.lastWait }
  | .inCall c body k =>
    { m with ctl := .inCall c (body.step m.hw).1 k, hw := (body.step m.hw).2 }

/-- A byte arrives at the read the processor is in. -/
def byteStep (b : UInt8) (m : Machine) : Machine :=
  match m.ctl with
  | .idle v => { m with ctl := .main (dispatch v b) }
  | .main (.recv k) => { m with ctl := .main (k b) }
  | _ => m

/-- One event. -/
def step (m : Machine) : Event → Machine
  | .cpu => m.cpuStep L
  | .byte b => m.byteStep b
  | .hw e => { m with hw := e.act m.hw }

/-- The machine at reset. -/
def boot : Machine := { ctl := .main init, hw := {} }

end Machine

/-! ### Concrete runs -/

/-- A layout for concrete runs. -/
def someLayout : Layout := ⟨0x2000, 0x3000, by decide⟩

/-- The variables of a processor that waits for a command. -/
def Ctl.vars : Ctl → Option Vars
  | idle v => some v
  | _ => none

/-- Only a processor that waits for a command has its variables. -/
theorem Ctl.eq_idle_of_vars {ctl : Ctl} {v : Vars} (h : ctl.vars = some v) : ctl = .idle v := by
  cases ctl with
  | idle v' => exact congrArg idle (Option.some.inj h)
  | main p => exact absurd h (by simp [vars])
  | inCall c body k => exact absurd h (by simp [vars])

/-- The scope after reset and initialisation. -/
def initialised : Machine := run (Machine.step someLayout) .boot (List.replicate 81 .cpu)

/-- Reset, initialisation and a command byte. -/
def afterCommand (b : UInt8) : List Event := List.replicate 81 .cpu ++ [.byte b]

end HorrorScope.Firmware
