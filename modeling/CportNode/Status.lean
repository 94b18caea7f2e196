import CportNode.Text.Hex

namespace CportNode

inductive Status
  | success
  | interrupted
  | timeout
  | noMemory
  | protocolBad
  | overflow
  | invalid
  | retry
  | nonexistent
  | unknownError
  | internal
  deriving DecidableEq

namespace Status

def code : Status → UInt8
  | success => 0x00
  | interrupted => 0x01
  | timeout => 0x02
  | noMemory => 0x03
  | protocolBad => 0x04
  | overflow => 0x05
  | invalid => 0x06
  | retry => 0x07
  | nonexistent => 0x08
  | unknownError => 0xfe
  | internal => 0xff

def ofCode (code : UInt8) : Status :=
  match code.toNat with
  | 0x00 => success
  | 0x01 => interrupted
  | 0x02 => timeout
  | 0x03 => noMemory
  | 0x04 => protocolBad
  | 0x05 => overflow
  | 0x06 => invalid
  | 0x07 => retry
  | 0x08 => nonexistent
  | 0xff => internal
  | _ => unknownError

def name : Status → String
  | success => "success"
  | interrupted => "interrupted"
  | timeout => "timeout"
  | noMemory => "no-memory"
  | protocolBad => "protocol-bad"
  | overflow => "overflow"
  | invalid => "invalid"
  | retry => "retry"
  | nonexistent => "nonexistent"
  | unknownError => "unknown-error"
  | internal => "internal"

def text (s : Status) : String :=
  s.name ++ " (" ++ Hex.byteText s.code ++ ")"

@[simp] theorem ofCode_code (s : Status) : ofCode s.code = s := by
  cases s <;> rfl

end Status

end CportNode
