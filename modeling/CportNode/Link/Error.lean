import CportNode.Message.Error

namespace CportNode

inductive LinkError
  | bind (path : String) (cause : IoError)
  | connect (path : String) (cause : IoError)
  | accept (cause : IoError)
  | io (cause : IoError)
  | pathTooLong (path : String) (length max : Nat)
  | message (cause : MessageError)
  | invalidCport (cport : UInt16)
  | notListening (cport : UInt16)
  | notConnected
  | notInitialized
  | unsupported (reason : String)
  | shutdown
  deriving DecidableEq

def LinkError.name : LinkError → String
  | bind _ _ => "bind"
  | connect _ _ => "connect"
  | accept _ => "accept"
  | io _ => "io"
  | pathTooLong _ _ _ => "path-too-long"
  | message cause => "message." ++ cause.name
  | invalidCport _ => "invalid-cport"
  | notListening _ => "not-listening"
  | notConnected => "not-connected"
  | notInitialized => "not-initialized"
  | unsupported _ => "unsupported"
  | shutdown => "shutdown"

def LinkError.text : LinkError → String
  | bind path cause => "failed to bind to " ++ path ++ ": " ++ cause.text
  | connect path cause => "failed to connect to " ++ path ++ ": " ++ cause.text
  | accept cause => "failed to accept connection: " ++ cause.text
  | io cause => "transport I/O error: " ++ cause.text
  | pathTooLong path length max => s!"socket path too long ({length} bytes, max {max}): " ++ path
  | message cause => cause.text
  | invalidCport cport => s!"cport {cport.toNat} rejected"
  | notListening cport => s!"cport {cport.toNat} is not listening"
  | notConnected => "no peer connected"
  | notInitialized => "transport not initialised"
  | unsupported reason => "unsupported: " ++ reason
  | shutdown => "transport shut down"

end CportNode
