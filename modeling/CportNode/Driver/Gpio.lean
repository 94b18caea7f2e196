import CportNode.Driver.Reaction

/-!
The GPIO protocol.  Interrupts are one-shot: a line that has fired stays disarmed until the host
unmasks it, which arms it with the trigger last set through a successful irq-type request.  A line
for which none was set, or was set to none, is armed for rising edges.
-/

namespace CportNode.Gpio

inductive Request
  | version
  | lineCount
  | activate (line : UInt8)
  | direction (line : UInt8)
  | setInput (line : UInt8)
  | setOutput (line : UInt8) (high : Bool)
  | level (line : UInt8)
  | setLevel (line : UInt8) (high : Bool)
  | setDebounce (line : UInt8) (microseconds : UInt16)
  | irqType (line : UInt8) (trigger : Trigger)
  | irqMask (line : UInt8)
  | irqUnmask (line : UInt8)
  deriving DecidableEq

def irqEventKind : UInt8 := 0x0e

def Request.decode (kind : UInt8) (body : Bytes) : Except Status Request :=
  match kind.toNat, body with
  | 0x01, _ => .ok version
  | 0x02, _ => .ok lineCount
  | 0x03, line :: _ => .ok (activate line)
  | 0x04, line :: _ => .ok (activate line)
  | 0x05, line :: _ => .ok (direction line)
  | 0x06, line :: _ => .ok (setInput line)
  | 0x07, line :: high :: _ => .ok (setOutput line (high != 0))
  | 0x08, line :: _ => .ok (level line)
  | 0x09, line :: high :: _ => .ok (setLevel line (high != 0))
  | 0x0a, line :: lo :: hi :: _ => .ok (setDebounce line (Bytes.word16 lo hi))
  | 0x0b, line :: type :: _ => (required (Trigger.ofWire? type)).map (irqType line)
  | 0x0c, line :: _ => .ok (irqMask line)
  | 0x0d, line :: _ => .ok (irqUnmask line)
  | _, _ => .error .invalid

def Direction.toWire : Direction → UInt8
  | input => 1
  | output => 0

/-- The trigger that unmasking arms each line with. -/
abbrev Triggers := UInt8 → Trigger

namespace Triggers

def fresh : Triggers := fun _ => .edgeRising

def set (t : Triggers) (line : UInt8) (trigger : Trigger) : Triggers :=
  fun l => if l = line then trigger else t l

def remember (t : Triggers) (line : UInt8) : Trigger → Triggers
  | .disabled => t.set line .edgeRising
  | trigger => t.set line trigger

def after (t : Triggers) : Request → Reaction → Triggers
  | .irqType line trigger, .done _ => t.remember line trigger
  | _, _ => t

end Triggers

/-- A debounce time of zero is accepted and not passed on. -/
def Request.execute (r : Request) (t : Triggers) (b : Board) : Reaction × Board :=
  match r with
  | version => (.done [0, 1], b)
  | lineCount =>
    (if b.gpio.lineCount = 0 then .refused .unknownError else .done [b.gpio.lineCount], b)
  | activate _ => (.done [], b)
  | direction line => (.ofQuery (fun d => [d.toWire]) (b.direction line), b)
  | setInput line => b.reactTo (b.setInput line)
  | setOutput line high => b.reactTo (b.setOutput line high)
  | level line => (.ofQuery (fun high => [high.toUInt8]) (b.level line), b)
  | setLevel line high => b.reactTo (b.setLevel line high)
  | setDebounce line microseconds =>
    if microseconds = 0 then (.done [], b) else b.reactTo (b.setDebounce line microseconds)
  | irqType line trigger => b.reactTo (b.configureInterrupt line trigger)
  | irqMask line => b.reactTo (b.configureInterrupt line .disabled)
  | irqUnmask line => b.reactTo (b.configureInterrupt line (t line))

end CportNode.Gpio
