import CportNode.Driver.Reaction

namespace CportNode.Uart

inductive Request
  | version
  | send (data : Bytes)
  | setLineCoding (coding : LineCoding)
  | setControlLines (dtr rts : Bool)
  | sendBreak
  deriving DecidableEq

def receiveDataKind : UInt8 := 0x03

/-- The data of a send request, which may declare fewer bytes than there are. -/
def readData (body : Bytes) : Option Bytes := do
  let (size, data) ← Bytes.takeWord16 body
  if size.toNat ≤ data.length then return data.take size.toNat
  else none

def Request.decode (kind : UInt8) (body : Bytes) : Except Status Request :=
  match kind.toNat with
  | 0x01 => .ok version
  | 0x02 => (required (readData body)).map send
  | 0x04 => (required (LineCoding.ofWire? body)).map setLineCoding
  | 0x05 =>
    (required body.head?).map fun lines =>
      setControlLines (lines &&& 0x01 != 0) (lines &&& 0x02 != 0)
  | 0x06 => .ok sendBreak
  | _ => .error .protocolBad

/-- The second control line is left alone if the first cannot be set. -/
def setControlLines (b : Board) (dtr rts : Bool) : Reaction × Board :=
  match b.setDtr dtr with
  | .error e => (.refused e.status, b)
  | .ok b => b.reactTo (b.setRts rts)

def Request.execute (r : Request) (b : Board) : Reaction × Board :=
  match r with
  | version => (.done [0, 1], b)
  | send data => b.reactTo (b.uartWrite data)
  | setLineCoding coding => b.reactTo (b.uartConfigure coding)
  | setControlLines dtr rts => Uart.setControlLines b dtr rts
  | sendBreak => b.reactTo b.sendBreak

def forwarded (chunk : Bytes) : Bytes :=
  Bytes.ofWord16 (UInt16.ofNat chunk.length) ++ 0 :: chunk

end CportNode.Uart
