import CportNode.ByteQueue
import CportNode.Driver.Error

namespace CportNode.Spi

structure Master where
  bitsPerWordMask : UInt32
  minSpeed : UInt32
  maxSpeed : UInt32
  mode : UInt16
  flags : UInt16
  chipSelects : UInt16
  deriving DecidableEq

structure Device where
  mode : UInt16
  bitsPerWord : UInt8
  maxSpeed : UInt32
  kind : UInt8
  name : String
  deriving DecidableEq

structure Settings where
  chipSelect : UInt8
  mode : UInt8
  bitsPerWord : UInt8
  speed : UInt32
  deriving DecidableEq

/-- One leg of a batch: the bytes to send, if any, and the buffer to receive into, if any. -/
structure Segment where
  send : Option Bytes
  receive : Option Bytes
  deriving DecidableEq

structure Controller where
  chipSelects : UInt16
  reportedMaster : Option Master
  reportedDevice : Option Device
  batches : List Settings
  sent : ByteQueue
  deriving DecidableEq

namespace Controller

def fresh (chipSelects : UInt16) : Controller := ⟨chipSelects, none, none, [], .empty⟩

def unmasked (c : Controller) : Controller :=
  { c with reportedMaster := none, reportedDevice := none }

def outOfRange (chipSelect : UInt8) : DriverError :=
  .invalidArgument s!"chip select {chipSelect.toNat} out of range"

def hasChipSelect (c : Controller) (chipSelect : UInt8) : Bool :=
  chipSelect.toNat < c.chipSelects.toNat

def master (c : Controller) : Master :=
  c.reportedMaster.getD ⟨0x80, 400000, 48000000, 0, 0, c.chipSelects⟩

def device (c : Controller) (chipSelect : UInt8) : Except DriverError Device :=
  match c.reportedDevice with
  | some d => .ok d
  | none =>
    if c.hasChipSelect chipSelect then .ok ⟨0, 8, 1000000, 0, "spidev"⟩
    else .error (outOfRange chipSelect)

def ramp (n : Nat) : Bytes :=
  (List.range n).map UInt8.ofNat

def received : Segment → Option Bytes
  | ⟨_, none⟩ => none
  | ⟨none, some buffer⟩ => some (ramp buffer.length)
  | ⟨some data, some buffer⟩ => some (data.take buffer.length ++ buffer.drop data.length)

def transceive (c : Controller) (settings : Settings) (segments : List Segment) :
    Except DriverError (List (Option Bytes) × Controller) :=
  if c.hasChipSelect settings.chipSelect then
    .ok (segments.map received,
      { c with
        batches := c.batches ++ [settings]
        sent := c.sent.append (segments.flatMap fun s => s.send.getD []) })
  else .error (outOfRange settings.chipSelect)

end Controller

end CportNode.Spi
