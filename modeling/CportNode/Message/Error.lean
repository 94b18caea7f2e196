import CportNode.IoError

namespace CportNode

inductive MessageError
  | outOfMemory (size : Nat)
  | payloadTooLarge (size max : Nat)
  | invalidSize (declared min : Nat)
  | io (cause : IoError)
  | connectionClosed
  deriving DecidableEq

def MessageError.name : MessageError → String
  | outOfMemory _ => "out-of-memory"
  | payloadTooLarge _ _ => "payload-too-large"
  | invalidSize _ _ => "invalid-size"
  | io _ => "io"
  | connectionClosed => "connection-closed"

def MessageError.text : MessageError → String
  | outOfMemory size => s!"out of memory allocating {size} byte payload"
  | payloadTooLarge size max => s!"payload too large ({size} bytes, max {max})"
  | invalidSize declared min => s!"invalid message size {declared} (minimum {min})"
  | io cause => "message I/O error: " ++ cause.text
  | connectionClosed => "connection closed (incomplete message)"

end CportNode
