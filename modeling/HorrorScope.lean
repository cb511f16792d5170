import HorrorScope.Base.LittleEndian
import HorrorScope.Base.ByteFile
import HorrorScope.Base.Text
import HorrorScope.Base.Regex
import HorrorScope.Base.Bits
import HorrorScope.Base.BinaryPoly
import HorrorScope.Base.Loops
import HorrorScope.Base.Ring
import HorrorScope.Base.Run
import HorrorScope.Base.Prog
import HorrorScope.Base.Proc
import HorrorScope.Base.Service
import HorrorScope.Base.Link
import HorrorScope.Base.Session
import HorrorScope.Base.While
import HorrorScope.Trs.TraceSet
import HorrorScope.Trs.Records
import HorrorScope.Trs.Open
import HorrorScope.Trs.WellFormed
import HorrorScope.Trs.Written
import HorrorScope.Trs.RoundTrip
import HorrorScope.Trs.Interrupted
import HorrorScope.Trs.Append
import HorrorScope.Trs.NewFile
import HorrorScope.Trs.Reopen
import HorrorScope.Firmware.Hardware
import HorrorScope.Firmware.Drivers
import HorrorScope.Firmware.Main
import HorrorScope.Firmware.Contract
import HorrorScope.Firmware.Handshake
import HorrorScope.Firmware.Trigger
import HorrorScope.Firmware.Sampling
import HorrorScope.Firmware.Bounds
import HorrorScope.Firmware.Logic
import HorrorScope.Firmware.Capture
import HorrorScope.Host.Scope
import HorrorScope.Link.Status
import HorrorScope.Link.Device
import HorrorScope.Link.Lockstep
import HorrorScope.Link.Hardware
import HorrorScope.Link.Commands
import HorrorScope.Link.Glitch
import HorrorScope.Link.Converter
import HorrorScope.Link.Supply
import HorrorScope.Link.Fetch
import HorrorScope.Link.Reconnect
import HorrorScope.Link.Failures
import HorrorScope.Usb.Device
import HorrorScope.Usb.RingBuffer
import HorrorScope.Usb.Serial
import HorrorScope.Usb.GetChar
import HorrorScope.Usb.Board
import HorrorScope.Usb.Sender
import HorrorScope.Usb.Delivery
import HorrorScope.Usb.PutBuf
import HorrorScope.Aes.Field
import HorrorScope.Aes.SBox
import HorrorScope.Aes.State
import HorrorScope.Aes.Cipher
import HorrorScope.Aes.KeyExpansion
import HorrorScope.Aes.Fault
import HorrorScope.Acq.Target
import HorrorScope.Acq.Acquisition
import HorrorScope.Acq.Patience
import HorrorScope.Acq.SlowAes
import HorrorScope.Acq.TraceFile
import HorrorScope.Fi.RunSetup
import HorrorScope.Fi.RunLog
import HorrorScope.Fi.LogLine
import HorrorScope.Fi.ParseLog
import HorrorScope.Fi.PlotLog
import HorrorScope.Fi.Classified
import HorrorScope.Fi.WrongByte
import HorrorScope.Fi.Counts
