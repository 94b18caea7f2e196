import CportNode.Driver.Error

namespace CportNode.Gpio

inductive Direction
  | input
  | output
  deriving DecidableEq

inductive Trigger
  | disabled
  | edgeRising
  | edgeFalling
  | edgeBoth
  | levelHigh
  | levelLow
  deriving DecidableEq

def Direction.name : Direction → String
  | input => "input"
  | output => "output"

def Trigger.name : Trigger → String
  | disabled => "disabled"
  | edgeRising => "edge-rising"
  | edgeFalling => "edge-falling"
  | edgeBoth => "edge-both"
  | levelHigh => "level-high"
  | levelLow => "level-low"

def Trigger.all : List Trigger :=
  [disabled, edgeRising, edgeFalling, edgeBoth, levelHigh, levelLow]

theorem Trigger.mem_all (t : Trigger) : t ∈ all := by
  cases t <;> decide

def Trigger.ofWire? (value : UInt8) : Option Trigger :=
  match value.toNat with
  | 0x00 => some disabled
  | 0x01 => some edgeRising
  | 0x02 => some edgeFalling
  | 0x03 => some edgeBoth
  | 0x04 => some levelHigh
  | 0x08 => some levelLow
  | _ => none

structure Line where
  direction : Direction
  high : Bool
  debounce : UInt16
  trigger : Trigger
  deriving DecidableEq

def Line.reset : Line := ⟨.input, false, 0, .disabled⟩

inductive Handler
  | report (cport : UInt16)
  | note
  deriving DecidableEq

structure Bank where
  lines : List Line
  handler : Option Handler
  deriving DecidableEq

namespace Bank

def fresh (lineCount : UInt8) : Bank :=
  ⟨List.replicate lineCount.toNat Line.reset, none⟩

def lineCount (b : Bank) : UInt8 :=
  UInt8.ofNat b.lines.length

def outOfRange (b : Bank) (line : UInt8) : DriverError :=
  .invalidArgument s!"line {line.toNat} out of range ({b.lines.length} lines)"

def line? (b : Bank) (line : UInt8) : Option Line :=
  b.lines[line.toNat]?

def read {α : Type} (b : Bank) (line : UInt8) (field : Line → α) : Except DriverError α :=
  match b.line? line with
  | some l => .ok (field l)
  | none => .error (b.outOfRange line)

def modify (b : Bank) (line : UInt8) (change : Line → Line) : Except DriverError Bank :=
  match b.line? line with
  | some l => .ok { b with lines := b.lines.set line.toNat (change l) }
  | none => .error (b.outOfRange line)

def setInput (b : Bank) (line : UInt8) : Except DriverError Bank :=
  b.modify line ({ · with direction := .input })

def setOutput (b : Bank) (line : UInt8) (high : Bool) : Except DriverError Bank :=
  b.modify line ({ · with direction := .output, high })

def setLevel (b : Bank) (line : UInt8) (high : Bool) : Except DriverError Bank :=
  b.modify line ({ · with high })

def setDebounce (b : Bank) (line : UInt8) (microseconds : UInt16) : Except DriverError Bank :=
  b.modify line ({ · with debounce := microseconds })

def setTrigger (b : Bank) (line : UInt8) (trigger : Trigger) : Except DriverError Bank :=
  b.modify line ({ · with trigger })

def armedHandler (b : Bank) (line : UInt8) : Option Handler :=
  match b.line? line with
  | some l => if l.trigger = .disabled then none else b.handler
  | none => none

end Bank

end CportNode.Gpio
