import CportNode.Driver.Reaction

namespace CportNode.Firmware

inductive Request
  | version
  deriving DecidableEq

def Request.decode (kind : UInt8) : Except Status Request :=
  match kind.toNat with
  | 0x01 => .ok version
  | _ => .error .protocolBad

def versionBytes (v : FirmwareVersion) : Bytes :=
  Bytes.padTo 10 (Bytes.ofText v.tag) ++ Bytes.ofWord16 v.major ++ Bytes.ofWord16 v.minor

def Request.execute (r : Request) (b : Board) : Reaction :=
  match r with
  | version =>
    match b.runningVersion with
    | .ok v => .done (versionBytes v)
    | .error _ => .refused .internal

end CportNode.Firmware
