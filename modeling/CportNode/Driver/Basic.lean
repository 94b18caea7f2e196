import CportNode.Driver.Control
import CportNode.Driver.Firmware
import CportNode.Driver.Gpio
import CportNode.Driver.I2c
import CportNode.Driver.Loopback
import CportNode.Driver.Script
import CportNode.Driver.Spi
import CportNode.Driver.Uart

namespace CportNode

inductive Driver
  | control
  | gpio (triggers : Gpio.Triggers)
  | i2c
  | spi
  | uart
  | loopback
  | log (outlet : Bool)
  | firmwareManagement
  | firmwareDownload
  | bare
  | gate
  | scripted (script : Script)

namespace Driver

def name : Driver → String
  | control => "control"
  | gpio _ => "gpio"
  | i2c => "i2c"
  | spi => "spi"
  | uart => "uart"
  | loopback => "loopback"
  | log _ => "log"
  | firmwareManagement => "fw-management"
  | firmwareDownload => "fw-download"
  | bare => "bare"
  | gate => "gate"
  | scripted _ => "scripted"

/-- A driver that comes with the node, and not one that is there to try it out. -/
def builtIn : Driver → Bool
  | bare => false
  | gate => false
  | scripted _ => false
  | _ => true

def ofProtocol? : Protocol → Option Driver
  | .control => some control
  | .gpio => some (gpio .fresh)
  | .i2c => some i2c
  | .spi => some spi
  | .uart => some uart
  | .loopback => some loopback
  | .log => some (log false)
  | .firmwareManagement => some firmwareManagement
  | .firmwareDownload => some firmwareDownload
  | .vendor => none
  | .unknown _ => none

end Driver

def Board.driverFor (b : Board) (p : Protocol) : Option Driver :=
  if p ∈ b.missing then none else Driver.ofProtocol? p

end CportNode
