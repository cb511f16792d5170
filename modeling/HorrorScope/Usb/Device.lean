import Mathlib.Logic.Basic

/-!
# The USB device state

What the LUFA library keeps about the device and its virtual serial port, as far as
`usb_serial.c` depends on it: the device state of `USBTask.c`, the standard requests that change
it (`DeviceStandardReq.c`), the bus events of `USBInterrupt_XMEGA.c` and the class requests of
`CDCClassDevice.c` with the callbacks in `usb_serial.c:196-221`.

Requests without influence on these fields are left out, and so is the wait for the data stage
of a `SetLineEncoding`.
-/

namespace HorrorScope.Usb

/-- `USB_Device_States_t`. -/
inductive DeviceState where
  | unattached | powered | default | addressed | configured | suspended
  deriving DecidableEq, Repr

/-- `FIXED_NUM_CONFIGURATIONS` (`LUFAConfig.h:81`). -/
def FIXED_NUM_CONFIGURATIONS : UInt8 := 1

/-- `CDC_CONTROL_LINE_OUT_DTR`. -/
def CDC_CONTROL_LINE_OUT_DTR : UInt16 := 1

/-- A control request. -/
inductive Request where
  | setAddress (wValue : UInt16)
  | setConfiguration (wValue : UInt16)
  | setLineEncoding (baudRateBPS : UInt32)
  | setControlLineState (wValue : UInt16)
  deriving DecidableEq, Repr

/-- An event on the bus. -/
inductive BusEvent where
  | suspend | resume | reset
  deriving DecidableEq, Repr

/-- The state behind the virtual serial port. -/
structure Device where
  /-- `USB_DeviceState`. -/
  deviceState : DeviceState := .unattached
  /-- `USB_Device_ConfigurationNumber`. -/
  configurationNumber : UInt8 := 0
  /-- `USB.ADDR`. -/
  addr : UInt8 := 0
  /-- `State.LineEncoding.BaudRateBPS` of the CDC interface. -/
  baudRateBPS : UInt32 := 0
  /-- `State.ControlLineStates.HostToDevice`. -/
  hostToDevice : UInt16 := 0
  /-- `ok_to_send` of `usb_serial.c`. -/
  okToSend : Bool := false
  /-- A request that has been received and not been processed yet. -/
  setup : Option Request := none
  deriving DecidableEq, Repr

namespace Device

variable (u : Device)

/-- `CDC_Device_ConfigureEndpoints`, called by `EVENT_USB_Device_ConfigurationChanged`: it zeroes
the CDC state and leaves `ok_to_send` alone. -/
def configureEndpoints : Device := { u with baudRateBPS := 0, hostToDevice := 0 }

/-- `USB_Device_SetConfiguration`. -/
def setConfiguration (wValue : UInt16) : Device :=
  if wValue.toUInt8 > FIXED_NUM_CONFIGURATIONS then u
  else
    configureEndpoints
      { u with
        configurationNumber := wValue.toUInt8
        deviceState :=
          if wValue.toUInt8 ≠ 0 then .configured
          else if u.addr ≠ 0 then .configured
          else .powered }

/-- `EVENT_CDC_Device_ControLineStateChanged`. -/
def controlLineStateChanged : Device :=
  { u with okToSend := u.hostToDevice &&& CDC_CONTROL_LINE_OUT_DTR != 0 }

/-- `USB_Device_ProcessControlRequest`. -/
def processControlRequest : Request → Device
  | .setAddress wValue =>
    let deviceAddress := (wValue &&& 0x7f).toUInt8
    { u with
      addr := deviceAddress
      deviceState := if deviceAddress ≠ 0 then .addressed else .default }
  | .setConfiguration wValue => u.setConfiguration wValue
  | .setLineEncoding baudRateBPS => { u with baudRateBPS := baudRateBPS }
  | .setControlLineState wValue => controlLineStateChanged { u with hostToDevice := wValue }

/-- `USB_USBTask`: process the request that is there, if any. -/
def usbTask : Device :=
  if u.deviceState = .unattached then u
  else
    match u.setup with
    | none => u
    | some r => processControlRequest { u with setup := none } r

/-- `USB_USBTask` is about to process a `SetConfiguration` that it accepts. -/
def configures : Bool :=
  u.deviceState != .unattached &&
    match u.setup with
    | some (.setConfiguration wValue) => wValue.toUInt8 ≤ FIXED_NUM_CONFIGURATIONS
    | _ => false

/-- The interrupt of a bus event (`USBInterrupt_XMEGA.c:49`). A reset configures the control
endpoint again, so that a request that has not been processed is gone. -/
def busEvent : BusEvent → Device
  | .suspend => { u with deviceState := .unattached }
  | .resume =>
    { u with
      deviceState :=
        if u.configurationNumber ≠ 0 then .configured
        else if u.addr ≠ 0 then .addressed
        else .powered }
  | .reset => { u with deviceState := .default, configurationNumber := 0, addr := 0, setup := none }

/-- The host starts a request, if the last one has been processed. -/
def receive (r : Request) : Device :=
  match u.setup with
  | none => { u with setup := some r }
  | some _ => u

/-- `CDC_Device_SendData` sends the data, all of it, instead of returning an error. -/
def accepts : Bool := u.deviceState == .configured && u.baudRateBPS != 0

/-- The condition of the loop in `USB_serial_put_buf`, apart from the length. -/
def maySend : Bool := u.deviceState == .configured && u.okToSend

variable {u}

/-- Without a request there is nothing to do. -/
theorem usbTask_of_setup_none (h : u.setup = none) : u.usbTask = u := by
  unfold usbTask
  rw [h]
  split <;> rfl

/-- Without a request nothing is configured. -/
theorem configures_of_setup_none (h : u.setup = none) : u.configures = false := by
  simp [configures, h]

end Device

end HorrorScope.Usb
