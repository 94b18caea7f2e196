import CportNode.Text.Blank
import CportNode.Text.Hex

namespace CportNode

inductive Protocol
  | control
  | gpio
  | i2c
  | uart
  | spi
  | loopback
  | firmwareDownload
  | firmwareManagement
  | log
  | vendor
  | unknown (id : UInt8)
  deriving DecidableEq

namespace Protocol

def named : List Protocol :=
  [control, gpio, i2c, uart, spi, loopback, firmwareDownload, firmwareManagement, log, vendor]

def id : Protocol → UInt8
  | control => 0x00
  | gpio => 0x02
  | i2c => 0x03
  | uart => 0x04
  | spi => 0x0b
  | loopback => 0x11
  | firmwareDownload => 0x17
  | firmwareManagement => 0x18
  | log => 0x1a
  | vendor => 0xff
  | unknown id => id

def name : Protocol → String
  | control => "control"
  | gpio => "gpio"
  | i2c => "i2c"
  | uart => "uart"
  | spi => "spi"
  | loopback => "loopback"
  | firmwareDownload => "fw-download"
  | firmwareManagement => "fw-management"
  | log => "log"
  | vendor => "vendor"
  | unknown _ => "unknown"

def label : Protocol → String
  | unknown id => "unknown(" ++ Hex.byteText id ++ ")"
  | p => p.name

def ofId (id : UInt8) : Protocol :=
  (named.find? fun p => p.id == id).getD (unknown id)

/-- A name may be written with blanks around it, in either case, and with underscores for
hyphens. -/
def normalName (name : String) : String :=
  String.ofList ((trimBlanks name.toList).map fun c => if c = '_' then '-' else c.toLower)

def ofName? (name : String) : Option Protocol :=
  named.find? fun p => p.name == normalName name

/-- Not an `unknown` under the id of a known protocol. -/
def Canonical : Protocol → Prop
  | unknown id => ofId id = unknown id
  | _ => True

@[simp] theorem ofId_id (p : Protocol) (h : p.Canonical) : ofId p.id = p := by
  cases p with
  | unknown id => exact h
  | _ => rfl

theorem canonical_of_mem_named {p : Protocol} (h : p ∈ named) : p.Canonical := by
  simp only [named, List.mem_cons, List.not_mem_nil, or_false] at h
  rcases h with rfl | rfl | rfl | rfl | rfl | rfl | rfl | rfl | rfl | rfl <;> trivial

end Protocol

end CportNode
