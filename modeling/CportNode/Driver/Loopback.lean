import CportNode.Driver.Reaction

namespace CportNode.Loopback

inductive Request
  | ping
  | transfer (payload : Bytes)
  | sink
  deriving DecidableEq

def headerSize : Nat := 12

def complete (payload : Bytes) : Bool :=
  match Bytes.takeWord32 payload with
  | some (size, _) => headerSize + size.toNat ≤ payload.length
  | none => false

def Request.decode (kind : UInt8) (body : Bytes) : Except Status Request :=
  match kind.toNat with
  | 0x02 => .ok ping
  | 0x03 => if complete body then .ok (transfer body) else .error .invalid
  | 0x04 => if complete body then .ok sink else .error .invalid
  | _ => .error .invalid

def Request.execute : Request → Reaction
  | ping => .done []
  | transfer payload => .done payload
  | sink => .done []

end CportNode.Loopback
