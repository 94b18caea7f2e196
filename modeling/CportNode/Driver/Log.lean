import CportNode.Driver.Reaction

namespace CportNode.Log

inductive Request
  | acknowledgement
  deriving DecidableEq

def recordKind : UInt8 := 0x02

def Request.decode (kind : UInt8) : Except Status Request :=
  if kind = recordKind ||| Message.responseFlag then .ok acknowledgement
  else .error .protocolBad

def Request.execute : Request → Reaction
  | acknowledgement => .quiet

def record? (text : String) : Option Bytes :=
  let bytes := Bytes.ofText text
  if bytes.length < 65536 then some (Bytes.ofWord16 (UInt16.ofNat bytes.length) ++ bytes) else none

end CportNode.Log
