import HorrorScope.Usb.Device
import HorrorScope.Usb.RingBuffer

/-!
# The receiving side of the serial port

`USB_serial_get_char` (`usb_serial.c:157-174`), a statement at a time down to the endpoint functions
of `Endpoint_XMEGA.c`, with bus events, new requests and packets of the host between any two of
them. Between the calls the firmware does something else, which may be one of the functions that
send and run `USB_USBTask` too.

The interrupt of a bus reset selects the control endpoint and does not select the old one again. If
it comes while a packet is being read, the rest of `CDC_Device_ReceiveByte` works on the control
endpoint, of which nothing is assumed here.
-/

namespace HorrorScope.Usb

open HorrorScope.Base

/-- The endpoint that the host sends to, as the USB module and `Endpoint_FIFO_t` hold it. -/
structure OutEndpoint where
  /-- `CTRL` has a type. -/
  enabled : Bool := false
  /-- `USB_EP_STALL_bm` of `CTRL`. -/
  stalled : Bool := false
  /-- `USB_EP_TRNCOMPL0_bm` of `STATUS`, and `USB_EP_BUSNACK0_bm`, which is set and cleared with it:
  while a packet is there, the next one is refused. -/
  trnCompl : Bool := false
  /-- `CNT`. -/
  cnt : Nat := 0
  /-- `out_fifo`. -/
  data : List UInt8 := []
  /-- `Length` of the FIFO. -/
  length : Nat := 0
  /-- `Position` of the FIFO. -/
  position : Nat := 0
  deriving DecidableEq, Repr

namespace OutEndpoint

variable (ep : OutEndpoint)

/-- `Endpoint_ConfigureEndpoint_PRV` (`Endpoint_XMEGA.c:168`). -/
def configure : OutEndpoint :=
  { ep with
    enabled := true
    stalled := false
    trnCompl := false
    cnt := 0
    length := 0
    position := 0 }

/-- `Endpoint_ClearEndpoints` (`Endpoint_XMEGA.c:186`). -/
def clear : OutEndpoint := { ep with enabled := false, stalled := false }

/-- `Endpoint_ClearOUT` (`Endpoint_XMEGA.c:103`). -/
def clearOut : OutEndpoint := { ep with trnCompl := false, position := 0 }

/-- The length that `Endpoint_IsOUTReceived` (`Endpoint_XMEGA.c:58`) takes over. -/
def measure : OutEndpoint := { ep with length := ep.cnt }

/-- `Endpoint_BytesInEndpoint` is not zero. -/
def hasBytes : Bool := ep.length != ep.position

/-- The byte that `Endpoint_Read_8` (`Endpoint_XMEGA.c:120`) returns. -/
def byte : UInt8 := ep.data.getD ep.position 0

/-- What `Endpoint_Read_8` leaves. -/
def advance : OutEndpoint := { ep with position := ep.position + 1 }

/-- `Endpoint_StallTransaction` (`Endpoint_XMEGA.c:109`). -/
def stall : OutEndpoint := { ep with stalled := true }

/-- `Endpoint_ClearStall` and `Endpoint_ResetEndpoint` (`Endpoint_XMEGA.h:292`). -/
def reset : OutEndpoint := { ep with stalled := false, position := 0 }

/-- The endpoint takes a packet now. -/
def ready : Bool := ep.enabled && !ep.stalled && !ep.trnCompl

/-- The USB module stores a packet. -/
def store (packet : List UInt8) : OutEndpoint :=
  { ep with
    trnCompl := true
    cnt := packet.length
    data := packet ++ ep.data.drop packet.length }

/-- The bytes of the packet that have not been read. -/
def unread : List UInt8 := if ep.trnCompl then (ep.data.take ep.cnt).drop ep.position else []

/-- The position is inside the packet, and at its start if there is none. -/
structure WF : Prop where
  position_le : ep.position ≤ ep.cnt
  cnt_le : ep.cnt ≤ ep.data.length
  position_eq_zero : ep.trnCompl = false → ep.position = 0

variable {ep}

/-- Without a packet there is nothing to read. -/
theorem unread_of_not_trnCompl (h : ep.trnCompl = false) : ep.unread = [] := by
  rw [unread, h]
  rfl

private theorem unread_of_trnCompl (h : ep.trnCompl = true) :
    ep.unread = (ep.data.take ep.cnt).drop ep.position := if_pos h

/-- Behind the last byte there is nothing to read. -/
theorem unread_of_position_eq (h : ep.position = ep.cnt) : ep.unread = [] := by
  unfold unread
  split
  · rw [h, List.drop_eq_nil_iff]
    exact List.length_take_le ..
  · rfl

/-- The byte read is the first of the unread ones. -/
theorem WF.unread_eq_cons (h : ep.WF) (htrn : ep.trnCompl = true) (hlt : ep.position < ep.cnt) :
    ep.unread = ep.byte :: ep.advance.unread := by
  have hcnt := h.cnt_le
  have hlen : ep.position < (ep.data.take ep.cnt).length := by
    rw [List.length_take]
    omega
  have hadvance : ep.advance.unread = (ep.data.take ep.cnt).drop (ep.position + 1) := if_pos htrn
  rw [unread_of_trnCompl htrn, List.drop_eq_getElem_cons hlen, List.getElem_take, byte,
    List.getD_eq_getElem?_getD, List.getElem?_eq_getElem (by omega), hadvance]
  rfl

/-- `Endpoint_IsOUTReceived` keeps the bounds. -/
theorem WF.measure (h : ep.WF) : ep.measure.WF := ⟨h.position_le, h.cnt_le, h.position_eq_zero⟩

/-- `Endpoint_Read_8` keeps the bounds inside the packet. -/
theorem WF.advance (h : ep.WF) (htrn : ep.trnCompl = true) (hlt : ep.position < ep.cnt) :
    ep.advance.WF where
  position_le := hlt
  cnt_le := h.cnt_le
  position_eq_zero hno := by
    rw [show ep.advance.trnCompl = true from htrn] at hno
    cases hno

/-- `Endpoint_ClearOUT` keeps the bounds. -/
theorem WF.clearOut (h : ep.WF) : ep.clearOut.WF := ⟨Nat.zero_le _, h.cnt_le, fun _ ↦ rfl⟩

/-- A configured endpoint is inside its bounds. -/
theorem WF.configure (ep : OutEndpoint) : ep.configure.WF :=
  ⟨Nat.le_refl 0, Nat.zero_le _, fun _ ↦ rfl⟩

/-- A cleared endpoint stays inside its bounds. -/
theorem WF.clear (h : ep.WF) : ep.clear.WF := ⟨h.position_le, h.cnt_le, h.position_eq_zero⟩

/-- A stalled endpoint stays inside its bounds. -/
theorem WF.stall (h : ep.WF) : ep.stall.WF := ⟨h.position_le, h.cnt_le, h.position_eq_zero⟩

/-- `Endpoint_ResetEndpoint` keeps the bounds. -/
theorem WF.reset (h : ep.WF) : ep.reset.WF := ⟨Nat.zero_le _, h.cnt_le, fun _ ↦ rfl⟩

/-- An endpoint that is ready for a packet holds none. -/
theorem trnCompl_of_ready (h : ep.ready = true) : ep.trnCompl = false := by
  cases htrn : ep.trnCompl with
  | false => rfl
  | true => simp [ready, htrn] at h

/-- The packet stored is unread. -/
theorem WF.store (h : ep.WF) (htrn : ep.trnCompl = false) (packet : List UInt8) :
    (ep.store packet).WF ∧ (ep.store packet).unread = packet := by
  have hposition := h.position_eq_zero htrn
  refine ⟨⟨?_, ?_, ?_⟩, ?_⟩
  · change ep.position ≤ packet.length
    omega
  · change packet.length ≤ (packet ++ ep.data.drop packet.length).length
    rw [List.length_append]
    omega
  · exact fun hno ↦ absurd hno Bool.noConfusion
  · rw [unread_of_trnCompl rfl]
    change ((packet ++ ep.data.drop packet.length).take packet.length).drop ep.position = packet
    rw [hposition, List.take_left, List.drop_zero]

end OutEndpoint

/-- `USB_Endpoint_SelectedEndpoint` with the FIFO and the handle that go with it. -/
inductive Selected where
  | control | dataIn | dataOut
  deriving DecidableEq, Repr

namespace Serial

/-- The statements of `USB_serial_get_char` and of the functions it calls. -/
inductive Stmt where
  /-- Outside `USB_serial_get_char`. -/
  | idle
  /-- The condition of the loop. -/
  | isEmpty
  | isFull
  | isConfigured
  /-- The first condition of `CDC_Device_ReceiveByte`. -/
  | mayReceive
  | selectEndpoint
  | isOutReceived
  /-- `Endpoint_BytesInEndpoint` in front of the read. -/
  | bytesInEndpoint
  | read8
  /-- `Endpoint_BytesInEndpoint` behind it. -/
  | bytesLeft
  | clearOut
  | insert
  /-- `CDC_Device_USBTask`. -/
  | classTask
  /-- `USB_USBTask`. -/
  | usbTask
  /-- `RingBuffer_Peek` and `RingBuffer_Remove`. -/
  | remove
  deriving DecidableEq, Repr

/-- What the endpoint functions find at the control endpoint. -/
structure Control where
  received : Bool
  bytesIn : Bool
  byte : UInt8
  deriving DecidableEq, Repr

/-- What can happen next. -/
inductive Event where
  /-- The firmware calls `USB_serial_get_char`. -/
  | call
  /-- The next statement, with what it finds if the control endpoint is selected. -/
  | cpu (control : Control)
  /-- `USB_USBTask` in one of the functions that send. -/
  | otherTask
  | bus (e : BusEvent)
  /-- The host starts a request. -/
  | request (r : Request)
  /-- The host starts to set or clear the halt feature of the endpoint. -/
  | halt (set : Bool)
  /-- The host sends a packet. -/
  | packet (data : List UInt8)
  deriving DecidableEq, Repr

end Serial

/-- The receiving side of the serial port. -/
structure Serial where
  device : Device := {}
  /-- A request for the halt feature that has been received and not been processed yet. -/
  setHalt : Option Bool := none
  out : OutEndpoint := {}
  selected : Selected := .control
  /-- `USBtoUSART_Buffer`. -/
  ring : RingBuffer 5 := .initBuffer (.replicate 5 0)
  stmt : Serial.Stmt := .idle
  /-- `ReceivedByte`, `none` for -1. -/
  receivedByte : Option UInt8 := none
  deriving DecidableEq

namespace Serial

variable (s : Serial)

/-- `USB_USBTask` is about to process a `SetConfiguration` that it accepts. -/
def reconfigures : Bool := s.setHalt.isNone && s.device.configures

/-- `USB_USBTask`. A `SetConfiguration` configures the endpoint again, and a `ClearFeature` calls
`Endpoint_ResetEndpoint` (`DeviceStandardReq.c:372`). -/
def usbTask : Serial :=
  if s.device.deviceState = .unattached then s
  else
    match s.setHalt with
    | some true => { s with setHalt := none, out := s.out.stall }
    | some false => { s with setHalt := none, out := s.out.reset }
    | none =>
      { s with
        device := s.device.usbTask
        out := if s.reconfigures then s.out.configure else s.out }

/-- One statement. -/
def cpuStep (control : Control) : Serial :=
  match s.stmt with
  | .idle => s
  | .isEmpty => { s with stmt := if s.ring.isEmpty then .isFull else .remove }
  | .isFull => { s with stmt := if s.ring.isFull then .classTask else .isConfigured }
  | .isConfigured =>
    { s with stmt := if s.device.deviceState = .configured then .mayReceive else .classTask }
  | .mayReceive =>
    { s with
      receivedByte := none
      stmt := if s.device.accepts then .selectEndpoint else .insert }
  | .selectEndpoint => { s with selected := .dataOut, stmt := .isOutReceived }
  | .isOutReceived =>
    if s.selected = .dataOut then
      if s.out.trnCompl then
        { s with out := s.out.measure, stmt := .bytesInEndpoint }
      else { s with stmt := .insert }
    else { s with stmt := if control.received then .bytesInEndpoint else .insert }
  | .bytesInEndpoint =>
    if s.selected = .dataOut then
      { s with stmt := if s.out.hasBytes then .read8 else .bytesLeft }
    else { s with stmt := if control.bytesIn then .read8 else .bytesLeft }
  | .read8 =>
    if s.selected = .dataOut then
      { s with
        receivedByte := some s.out.byte
        out := s.out.advance
        stmt := .bytesLeft }
    else { s with receivedByte := some control.byte, stmt := .bytesLeft }
  | .bytesLeft =>
    if s.selected = .dataOut then
      { s with stmt := if s.out.hasBytes then .insert else .clearOut }
    else { s with stmt := if control.bytesIn then .insert else .clearOut }
  | .clearOut =>
    if s.selected = .dataOut then { s with out := s.out.clearOut, stmt := .insert }
    else { s with stmt := .insert }
  | .insert =>
    match s.receivedByte with
    | none => { s with stmt := .classTask }
    | some b => { s with ring := s.ring.insert b, receivedByte := none, stmt := .classTask }
  | .classTask =>
    { s with
      selected := if s.device.accepts then .dataIn else s.selected
      stmt := .usbTask }
  | .usbTask => { s.usbTask with stmt := .isEmpty }
  | .remove => { s with ring := s.ring.remove, stmt := .idle }

/-- The interrupt of a bus event (`USBInterrupt_XMEGA.c:49`). A reset clears the endpoints and
selects that for control. -/
def busEvent (e : BusEvent) : Serial :=
  match e with
  | .reset =>
    { s with
      device := s.device.busEvent .reset
      setHalt := none
      out := s.out.clear
      selected := .control }
  | e => { s with device := s.device.busEvent e }

/-- One event. -/
def step : Event → Serial
  | .call => if s.stmt = .idle then { s with stmt := .isEmpty } else s
  | .cpu control => s.cpuStep control
  | .otherTask => if s.stmt = .idle then s.usbTask else s
  | .bus e => s.busEvent e
  | .request r => if s.setHalt.isSome then s else { s with device := s.device.receive r }
  | .halt set =>
    if s.setHalt.isSome ∨ s.device.setup.isSome then s else { s with setHalt := some set }
  | .packet data =>
    if s.out.ready ∧ data.length ≤ 64 then { s with out := s.out.store data } else s

/-- The bytes that arrive with an event. -/
def arrives : Event → List UInt8
  | .packet data => if s.out.ready ∧ data.length ≤ 64 then data else []
  | _ => []

/-- The byte that `USB_serial_get_char` returns. -/
def returns : Event → List UInt8
  | .cpu _ => if s.stmt = .remove then [s.ring.peek] else []
  | _ => []

/-- The bytes that have arrived and not been returned. -/
def pending : List UInt8 := s.ring.contents ++ (s.receivedByte.toList ++ s.out.unread)

end Serial

end HorrorScope.Usb
