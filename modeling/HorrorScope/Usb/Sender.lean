import Mathlib.Data.Vector.Basic
import HorrorScope.Usb.Serial

/-!
# The sending side of the serial port

`USB_serial_put_char` and `USB_serial_put_buf` (`usb_serial.c:114-142`), a statement at a time down
to the endpoint functions of `Endpoint_XMEGA.c`, with bus events, new requests and polls of the host
between any two of them. `CDC_Device_USBTask` flushes the endpoint in each round of their loops, and
in each round of the loop of `USB_serial_get_char` as well.

There is one buffer for the packet that waits for the host and for the bytes of the next one. The
functions have to look at the endpoint before they write to it, and the interrupt of a bus reset,
which selects the control endpoint, may come behind the look.
-/

namespace HorrorScope.Usb

open HorrorScope.Base

/-- `CDC_TX_EPSIZE`. -/
def CDC_TX_EPSIZE : Nat := 64

/-- `CDC_RX_EPSIZE`. -/
def CDC_RX_EPSIZE : Nat := 64

/-- The endpoint that the host reads from, as the USB module and `Endpoint_FIFO_t` hold it. It is
never stalled: a request for its halt feature ends at the OUT endpoint of the same number, since
`USB_Device_ClearSetFeature` selects an endpoint without its direction
(`DeviceStandardReq.c:356-361`). -/
structure InEndpoint where
  /-- `CTRL` has a type. -/
  enabled : Bool := false
  /-- `USB_EP_BUSNACK0_bm` of `STATUS`: there is no packet for the host. The USB module sets it when
  the host has taken one. -/
  busNack : Bool := false
  /-- `CNT`. -/
  cnt : Nat := 0
  /-- `in_fifo`. -/
  data : List.Vector UInt8 CDC_RX_EPSIZE := .replicate _ 0
  /-- `Length` of the FIFO. -/
  length : Nat := 0
  /-- `Position` of the FIFO. -/
  position : Nat := 0
  deriving DecidableEq

namespace InEndpoint

variable (ep : InEndpoint)

/-- `Endpoint_ConfigureEndpoint_PRV` (`Endpoint_XMEGA.c:168`). -/
def configure : InEndpoint :=
  { ep with
    enabled := true
    busNack := true
    cnt := 0
    length := CDC_TX_EPSIZE
    position := 0 }

/-- `Endpoint_ClearEndpoints` (`Endpoint_XMEGA.c:186`). -/
def clear : InEndpoint := { ep with enabled := false }

/-- `Endpoint_IsReadWriteAllowed` (`Endpoint_XMEGA.h:334`). -/
def isReadWriteAllowed : Bool := ep.position < ep.length

/-- `Endpoint_BytesInEndpoint` is not zero. -/
def hasBytes : Bool := ep.position != 0

/-- `Endpoint_ClearIN` (`Endpoint_XMEGA.c:96`). -/
def clearIn : InEndpoint := { ep with cnt := ep.position, busNack := false, position := 0 }

/-- `Endpoint_Write_8` (`Endpoint_XMEGA.c:125`). A write behind the end of the array, which never
happens, leaves it as it is. -/
def write8 (b : UInt8) : InEndpoint :=
  { ep with
    data := if h : ep.position < CDC_RX_EPSIZE then ep.data.set ⟨ep.position, h⟩ b else ep.data
    position := ep.position + 1 }

/-- The packet that waits for the host. -/
def packet : List UInt8 := if ep.busNack then [] else ep.data.toList.take ep.cnt

/-- The bytes of the next packet. -/
def buffered : List UInt8 := ep.data.toList.take ep.position

/-- The bytes that have been written and that the host has not got. -/
def held : List UInt8 := ep.packet ++ ep.buffered

/-- The host can take a packet. -/
def offers : Bool := ep.enabled && !ep.busNack

/-- The host takes the packet. -/
def give : InEndpoint := { ep with busNack := true }

end InEndpoint

namespace Sender

/-- The statements of the loops and of the functions they call. -/
inductive Stmt where
  /-- Outside the functions that send. -/
  | idle
  /-- The condition of the loop. -/
  | check
  | select
  /-- `Endpoint_IsINReady`. -/
  | isInReady
  /-- The first condition of `CDC_Device_SendByte` and `CDC_Device_SendData`. -/
  | maySend
  | selectSend
  /-- `Endpoint_WaitUntilReady` at the start of `Endpoint_Write_Stream_LE`. -/
  | waitFirst
  | isAllowed
  /-- `Endpoint_ClearIN` for a full bank. No `USB_USBTask` follows it, since
  `INTERRUPT_CONTROL_ENDPOINT` is defined (`LUFAConfig.h:83`). -/
  | clearFull
  | waitFull
  | write8
  /-- The first condition of `CDC_Device_USBTask`. -/
  | classMay
  | classSelect
  | classReady
  /-- The first condition of `CDC_Device_Flush`. -/
  | flushMay
  | flushSelect
  | flushBytes
  /-- `BankFull = !(Endpoint_IsReadWriteAllowed())`. -/
  | flushFull
  | flushClear
  | flushWait
  /-- The empty packet behind a full one. -/
  | flushAgain
  /-- `USB_USBTask`. -/
  | usbTask
  deriving DecidableEq, Repr

/-- What the statements find that is not in the state. -/
structure Env where
  /-- `Endpoint_IsINReady` at the control endpoint. -/
  ready : Bool
  /-- `Endpoint_IsReadWriteAllowed` at the control endpoint. -/
  allowed : Bool
  /-- `Endpoint_BytesInEndpoint` at the control endpoint is not zero. -/
  bytesIn : Bool
  /-- `Endpoint_WaitUntilReady` has counted `USB_STREAM_TIMEOUT_MS` frames, or finds the control
  endpoint stalled. -/
  givesUp : Bool
  deriving DecidableEq, Repr

/-- What the firmware calls. -/
inductive Call where
  | putChar (val : UInt8)
  | putBuf (buff : List UInt8)
  /-- A round of the loop of `USB_serial_get_char`: `CDC_Device_USBTask` and `USB_USBTask`. -/
  | task
  deriving DecidableEq, Repr

/-- The bytes of a call. -/
def Call.bytes : Call → List UInt8
  | .putChar val => [val]
  | .putBuf buff => buff
  | .task => []

/-- What can happen next. -/
inductive Event where
  | call (c : Call)
  /-- The next statement. -/
  | cpu (env : Env)
  | bus (e : BusEvent)
  /-- The host starts a request. -/
  | request (r : Request)
  /-- The host asks for a packet. -/
  | poll
  deriving DecidableEq, Repr

/-- What `Endpoint_WaitUntilReady` comes to in one of its rounds. -/
inductive Wait where
  | ready | failed | again
  deriving DecidableEq, Repr

end Sender

/-- The sending side of the serial port. -/
structure Sender where
  device : Device := {}
  inp : InEndpoint := {}
  selected : Selected := .control
  stmt : Sender.Stmt := .idle
  /-- The call is one of `USB_serial_put_buf`. -/
  isBuf : Bool := false
  /-- What the loop has not handed over: `val` while `needToSend` is set, or the `length` bytes at
  `buff`. -/
  todo : List UInt8 := []
  /-- What `CDC_Device_SendByte` or `Endpoint_Write_Stream_LE` has not written. -/
  chunk : List UInt8 := []
  /-- `BankFull` of `CDC_Device_Flush`. -/
  bankFull : Bool := false
  deriving DecidableEq

namespace Sender

variable (s : Sender) (env : Env)

/-- `Endpoint_IsINReady` (`Endpoint_XMEGA.c:51`). -/
def inReady : Bool := if s.selected = .dataIn then s.inp.busNack else env.ready

/-- `Endpoint_IsReadWriteAllowed`. -/
def isReadWriteAllowed : Bool :=
  if s.selected = .dataIn then s.inp.isReadWriteAllowed else env.allowed

/-- `Endpoint_BytesInEndpoint` is not zero. -/
def hasBytes : Bool := if s.selected = .dataIn then s.inp.hasBytes else env.bytesIn

/-- `Endpoint_ClearIN`. -/
def clearIn : Sender := if s.selected = .dataIn then { s with inp := s.inp.clearIn } else s

/-- A round of `Endpoint_WaitUntilReady` (`Endpoint_XMEGA.c:220`). -/
def waitUntilReady : Wait :=
  if s.inReady env then .ready
  else if s.device.deviceState = .unattached ∨ env.givesUp then .failed
  else .again

/-- The functions that send return an error. -/
def giveUp : Sender := { s with chunk := [], stmt := .classMay }

/-- `Endpoint_Write_8` with the first byte that has not been written. -/
def write : Sender :=
  match s.chunk with
  | [] => { s with stmt := .classMay }
  | b :: rest =>
    { s with
      inp := if s.selected = .dataIn then s.inp.write8 b else s.inp
      chunk := rest
      stmt := if rest = [] then .classMay else .isAllowed }

/-- `USB_USBTask`. A `SetConfiguration` configures the endpoint again. -/
def runTask : Sender :=
  { s with
    device := s.device.usbTask
    inp := if s.device.configures then s.inp.configure else s.inp }

/-- One statement. -/
def cpuStep : Sender :=
  match s.stmt with
  | .idle => s
  | .check =>
    if s.device.maySend ∧ s.todo ≠ [] then { s with stmt := .select }
    else { s with todo := [], stmt := .idle }
  | .select => { s with selected := .dataIn, stmt := .isInReady }
  | .isInReady => { s with stmt := if s.inReady env then .maySend else .classMay }
  | .maySend =>
    -- the loop goes on behind these bytes whatever is returned for them
    { s with
      chunk := if s.device.accepts then s.todo.take (CDC_RX_EPSIZE - 1) else []
      todo := s.todo.drop (CDC_RX_EPSIZE - 1)
      stmt := if s.device.accepts then .selectSend else .classMay }
  | .selectSend =>
    { s with selected := .dataIn, stmt := if s.isBuf then .waitFirst else .isAllowed }
  | .waitFirst =>
    match s.waitUntilReady env with
    | .ready => { s with stmt := .isAllowed }
    | .failed => s.giveUp
    | .again => s
  | .isAllowed => { s with stmt := if s.isReadWriteAllowed env then .write8 else .clearFull }
  | .clearFull => { s.clearIn with stmt := .waitFull }
  | .waitFull =>
    match s.waitUntilReady env with
    | .ready => { s with stmt := if s.isBuf then .isAllowed else .write8 }
    | .failed => s.giveUp
    | .again => s
  | .write8 => s.write
  | .classMay => { s with stmt := if s.device.accepts then .classSelect else .usbTask }
  | .classSelect => { s with selected := .dataIn, stmt := .classReady }
  | .classReady => { s with stmt := if s.inReady env then .flushMay else .usbTask }
  | .flushMay => { s with stmt := if s.device.accepts then .flushSelect else .usbTask }
  | .flushSelect => { s with selected := .dataIn, stmt := .flushBytes }
  | .flushBytes => { s with stmt := if s.hasBytes env then .flushFull else .usbTask }
  | .flushFull => { s with bankFull := !s.isReadWriteAllowed env, stmt := .flushClear }
  | .flushClear => { s.clearIn with stmt := if s.bankFull then .flushWait else .usbTask }
  | .flushWait =>
    match s.waitUntilReady env with
    | .ready => { s with stmt := .flushAgain }
    | .failed => { s with stmt := .usbTask }
    | .again => s
  | .flushAgain => { s.clearIn with stmt := .usbTask }
  | .usbTask => { s.runTask with stmt := .check }

/-- The interrupt of a bus event (`USBInterrupt_XMEGA.c:49`). A reset clears the endpoint and
selects that for control. -/
def busEvent (e : BusEvent) : Sender :=
  match e with
  | .reset =>
    { s with
      device := s.device.busEvent .reset
      inp := s.inp.clear
      selected := .control }
  | e => { s with device := s.device.busEvent e }

/-- A call, when none is running. -/
def enter (c : Call) : Sender :=
  match c with
  | .putChar val => { s with isBuf := false, todo := [val], stmt := .check }
  | .putBuf buff => { s with isBuf := true, todo := buff, stmt := .check }
  | .task => { s with stmt := .classMay }

/-- One event. -/
def step : Event → Sender
  | .call c => if s.stmt = .idle then s.enter c else s
  | .cpu env => s.cpuStep env
  | .bus e => s.busEvent e
  | .request r => { s with device := s.device.receive r }
  | .poll => if s.inp.offers then { s with inp := s.inp.give } else s

/-- The bytes that the firmware puts. -/
def puts : Event → List UInt8
  | .call c => if s.stmt = .idle then c.bytes else []
  | _ => []

/-- The bytes that the host gets. -/
def delivers : Event → List UInt8
  | .poll => if s.inp.offers then s.inp.packet else []
  | _ => []

/-- The bytes that have been put and that the host has not got. -/
def content : List UInt8 := s.inp.held ++ (s.chunk ++ s.todo)

end Sender

end HorrorScope.Usb
