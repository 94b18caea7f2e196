import CportNode.Peripheral.Gpio
import CportNode.Peripheral.I2c
import CportNode.Peripheral.Spi
import CportNode.Peripheral.Timesync
import CportNode.Peripheral.Uart
import CportNode.Protocol

/-!
The peripherals of a node.  Drivers act on them only through the capability calls below, and every
such call may be set to fail with a chosen error before it reaches the peripheral, unless the
peripherals are reached directly.  A call that fails changes nothing, which its type says: it either
fails, or gives the board after it.
-/

namespace CportNode

structure FirmwareVersion where
  tag : String
  major : UInt16
  minor : UInt16
  deriving DecidableEq

def FirmwareVersion.current : FirmwareVersion := ⟨"sim", 0, 1⟩

inductive Capability
  | gpioDirection
  | gpioSetInput
  | gpioSetOutput
  | gpioGetValue
  | gpioSetValue
  | gpioSetDebounce
  | gpioConfigureInterrupt
  | gpioSetIrqHandler
  | i2cTransfer
  | spiMasterConfig
  | spiDeviceConfig
  | spiTransceive
  | uartWrite
  | uartConfigure
  | uartSetDtr
  | uartSetRts
  | uartSendBreak
  | uartRead
  | uartSetRxHandler
  | uartEnableRx
  | uartDisableRx
  | firmwareRunningVersion
  | timesyncEnable
  | timesyncDisable
  | timesyncAuthoritative
  | timesyncLastEvent
  deriving DecidableEq

namespace Capability

def name : Capability → String
  | gpioDirection => "gpio.direction"
  | gpioSetInput => "gpio.set_input"
  | gpioSetOutput => "gpio.set_output"
  | gpioGetValue => "gpio.get_value"
  | gpioSetValue => "gpio.set_value"
  | gpioSetDebounce => "gpio.set_debounce"
  | gpioConfigureInterrupt => "gpio.configure_interrupt"
  | gpioSetIrqHandler => "gpio.set_irq_handler"
  | i2cTransfer => "i2c.transfer"
  | spiMasterConfig => "spi.master_config"
  | spiDeviceConfig => "spi.device_config"
  | spiTransceive => "spi.transceive"
  | uartWrite => "uart.write"
  | uartConfigure => "uart.configure"
  | uartSetDtr => "uart.set_dtr"
  | uartSetRts => "uart.set_rts"
  | uartSendBreak => "uart.send_break"
  | uartRead => "uart.read"
  | uartSetRxHandler => "uart.set_rx_handler"
  | uartEnableRx => "uart.enable_rx"
  | uartDisableRx => "uart.disable_rx"
  | firmwareRunningVersion => "firmware.running_version"
  | timesyncEnable => "timesync.enable"
  | timesyncDisable => "timesync.disable"
  | timesyncAuthoritative => "timesync.authoritative"
  | timesyncLastEvent => "timesync.last_event"

def all : List Capability :=
  [gpioDirection, gpioSetInput, gpioSetOutput, gpioGetValue, gpioSetValue, gpioSetDebounce,
   gpioConfigureInterrupt, gpioSetIrqHandler, i2cTransfer, spiMasterConfig, spiDeviceConfig,
   spiTransceive, uartWrite, uartConfigure, uartSetDtr, uartSetRts, uartSendBreak, uartRead,
   uartSetRxHandler, uartEnableRx, uartDisableRx, firmwareRunningVersion, timesyncEnable,
   timesyncDisable, timesyncAuthoritative, timesyncLastEvent]

theorem mem_all (c : Capability) : c ∈ all := by
  cases c <;> decide

def ofTimesync : Timesync.Call → Capability
  | .enable .. => timesyncEnable
  | .disable => timesyncDisable
  | .authoritative .. => timesyncAuthoritative

end Capability

inductive Note
  | line (line : UInt8)
  | bytes (data : Bytes)
  deriving DecidableEq

structure Board where
  manifest : Bytes
  gpio : Gpio.Bank
  i2c : I2c.Bus
  spi : Spi.Controller
  uart : Uart.SerialLine
  reportedFirmware : Option FirmwareVersion
  timesync : Option Timesync.Source
  missing : List Protocol
  fault : Capability → Option DriverError
  /-- The peripherals are reached directly: no call is made to fail, and each answers for itself. -/
  direct : Bool
  notes : List Note

namespace Board

def fresh : Board where
  manifest := []
  gpio := .fresh 16
  i2c := .fresh
  spi := .fresh 2
  uart := .fresh
  reportedFirmware := none
  timesync := none
  missing := []
  fault := fun _ => none
  direct := false
  notes := []

def setFault (b : Board) (c : Capability) (e : Option DriverError) : Board :=
  { b with fault := fun c' => if c' = c then e else b.fault c' }

def obstacle? (b : Board) (c : Capability) : Option DriverError :=
  if b.direct then none else b.fault c

def guarded {α : Type} (b : Board) (c : Capability) (call : Except DriverError α) :
    Except DriverError α :=
  match b.obstacle? c with
  | some e => .error e
  | none => call

def direction (b : Board) (line : UInt8) : Except DriverError Gpio.Direction :=
  b.guarded .gpioDirection (b.gpio.read line (·.direction))

def level (b : Board) (line : UInt8) : Except DriverError Bool :=
  b.guarded .gpioGetValue (b.gpio.read line (·.high))

def withGpio (b : Board) (bank : Except DriverError Gpio.Bank) : Except DriverError Board :=
  bank.map ({ b with gpio := · })

def setInput (b : Board) (line : UInt8) : Except DriverError Board :=
  b.guarded .gpioSetInput (b.withGpio (b.gpio.setInput line))

def setOutput (b : Board) (line : UInt8) (high : Bool) : Except DriverError Board :=
  b.guarded .gpioSetOutput (b.withGpio (b.gpio.setOutput line high))

def setLevel (b : Board) (line : UInt8) (high : Bool) : Except DriverError Board :=
  b.guarded .gpioSetValue (b.withGpio (b.gpio.setLevel line high))

def setDebounce (b : Board) (line : UInt8) (microseconds : UInt16) : Except DriverError Board :=
  b.guarded .gpioSetDebounce (b.withGpio (b.gpio.setDebounce line microseconds))

def configureInterrupt (b : Board) (line : UInt8) (trigger : Gpio.Trigger) :
    Except DriverError Board :=
  b.guarded .gpioConfigureInterrupt (b.withGpio (b.gpio.setTrigger line trigger))

def setIrqHandler (b : Board) (handler : Option Gpio.Handler) : Except DriverError Board :=
  b.guarded .gpioSetIrqHandler (.ok { b with gpio := { b.gpio with handler } })

def i2cTransfer (b : Board) (address : UInt16) (legs : List I2c.Leg) :
    Except DriverError (List Bytes × Board) :=
  b.guarded .i2cTransfer
    ((b.i2c.transfer address legs).map fun (buffers, i2c) => (buffers, { b with i2c }))

def spiController (b : Board) : Spi.Controller :=
  if b.direct then b.spi.unmasked else b.spi

def spiMaster (b : Board) : Except DriverError Spi.Master :=
  b.guarded .spiMasterConfig (.ok b.spiController.master)

def spiDevice (b : Board) (chipSelect : UInt8) : Except DriverError Spi.Device :=
  b.guarded .spiDeviceConfig (b.spiController.device chipSelect)

def spiTransceive (b : Board) (settings : Spi.Settings) (segments : List Spi.Segment) :
    Except DriverError (List (Option Bytes) × Board) :=
  b.guarded .spiTransceive
    ((b.spi.transceive settings segments).map fun (buffers, spi) => (buffers, { b with spi }))

def uartWrite (b : Board) (data : Bytes) : Except DriverError Board :=
  b.guarded .uartWrite
    (.ok { b with uart := { b.uart with transmitted := b.uart.transmitted.append data } })

def uartConfigure (b : Board) (coding : Uart.LineCoding) : Except DriverError Board :=
  b.guarded .uartConfigure (.ok { b with uart := { b.uart with coding := some coding } })

def setDtr (b : Board) (dtr : Bool) : Except DriverError Board :=
  b.guarded .uartSetDtr (.ok { b with uart := { b.uart with dtr } })

def setRts (b : Board) (rts : Bool) : Except DriverError Board :=
  b.guarded .uartSetRts (.ok { b with uart := { b.uart with rts } })

def sendBreak (b : Board) : Except DriverError Board :=
  b.guarded .uartSendBreak (.ok { b with uart := { b.uart with breaks := b.uart.breaks + 1 } })

def takeReceived (b : Board) (most : Nat) : Bytes × Board :=
  let (data, uart) := b.uart.read most
  (data, { b with uart })

/-- Up to `most` received bytes.  When the call is set to fail, none are given and none are
taken. -/
def uartRead (b : Board) (most : Nat) : Bytes × Board :=
  match b.obstacle? .uartRead with
  | some _ => ([], b)
  | none => b.takeReceived most

def setRxHandler (b : Board) (handler : Option Uart.Handler) : Except DriverError Board :=
  b.guarded .uartSetRxHandler (.ok { b with uart := { b.uart with handler } })

def enableRx (b : Board) : Except DriverError Board :=
  b.guarded .uartEnableRx (.ok { b with uart := { b.uart with receiving := true } })

def disableRx (b : Board) : Except DriverError Board :=
  b.guarded .uartDisableRx (.ok { b with uart := { b.uart with receiving := false } })

def firmware (b : Board) : FirmwareVersion :=
  (if b.direct then none else b.reportedFirmware).getD .current

def runningVersion (b : Board) : Except DriverError FirmwareVersion :=
  b.guarded .firmwareRunningVersion (.ok b.firmware)

def timesyncCall (b : Board) (call : Timesync.Call) : Except DriverError Board :=
  match b.timesync with
  | none => .error .unsupported
  | some source =>
    b.guarded (.ofTimesync call) (.ok { b with timesync := some (source.record call) })

def lastEvent (b : Board) : Except DriverError UInt64 :=
  match b.timesync with
  | none => .error .unsupported
  | some source => b.guarded .timesyncLastEvent (.ok source.lastEvent)

def note (b : Board) (notes : List Note) : Board :=
  { b with notes := b.notes ++ notes }

/-- A line fires: the handler that runs, if the line is armed and a handler is installed.  Reporting
to the host disarms the line first. -/
def trigger (b : Board) (line : UInt8) : Option Gpio.Handler × Board :=
  match b.gpio.armedHandler line with
  | none => (none, b)
  | some .note => (some .note, b.note [.line line])
  | some (.report cport) =>
    match b.configureInterrupt line .disabled with
    | .ok b => (some (.report cport), b)
    | .error _ => (some (.report cport), b)

/-- What one call of a handler takes off the receive queue.  A driver makes a capability call, and
an observer reads the line itself. -/
def handlerRead (b : Board) : Uart.Handler → Bytes × Board
  | .forward cport => b.uartRead (Uart.Handler.forward cport).chunk
  | .note most => b.takeReceived most

theorem length_lt_of_takeReceived {b b' : Board} {most : Nat} {x : UInt8} {data : Bytes}
    (h : b.takeReceived most = (x :: data, b')) :
    b'.uart.received.toBytes.length < b.uart.received.toBytes.length := by
  simp only [takeReceived, Uart.SerialLine.read, Prod.mk.injEq] at h
  obtain ⟨taken, rfl⟩ := h
  have := congrArg List.length taken
  simp only [ByteQueue.read_fst, ByteQueue.toBytes_read_snd, List.length_take, List.length_cons,
    List.length_drop] at *
  omega

theorem length_lt_of_handlerRead {b b' : Board} {handler : Uart.Handler} {x : UInt8} {data : Bytes}
    (h : b.handlerRead handler = (x :: data, b')) :
    b'.uart.received.toBytes.length < b.uart.received.toBytes.length := by
  cases handler with
  | note most => exact length_lt_of_takeReceived h
  | forward cport =>
    simp only [handlerRead, uartRead] at h
    split at h
    · simp only [Prod.mk.injEq, reduceCtorEq, false_and] at h
    · exact length_lt_of_takeReceived h

/-- The chunks that a handler takes off the receive queue, one call after the other, until the queue
is empty, reception is disabled or a call takes nothing. -/
def drainReceived (b : Board) (handler : Uart.Handler) : List Bytes × Board :=
  if b.uart.receiving = false ∨ b.uart.received.isEmpty then ([], b)
  else
    match taken : b.handlerRead handler with
    | ([], b') => ([[]], b')
    | (x :: data, b') =>
      have := length_lt_of_handlerRead taken
      let (chunks, final) := drainReceived b' handler
      ((x :: data) :: chunks, final)
termination_by b.uart.received.toBytes.length

def pushReceived (b : Board) (data : Bytes) : List (UInt16 × Bytes) × Board :=
  let b := { b with uart := { b.uart with received := b.uart.received.append data } }
  match b.uart.handler with
  | none => ([], b)
  | some (.note most) =>
    let (chunks, b) := b.drainReceived (.note most)
    ([], b.note (chunks.map .bytes))
  | some (.forward cport) =>
    let (chunks, b) := b.drainReceived (.forward cport)
    ((chunks.filter (· ≠ [])).map fun chunk => (cport, chunk), b)

end Board

end CportNode
