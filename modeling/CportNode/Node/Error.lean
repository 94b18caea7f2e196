import CportNode.Config.Basic
import CportNode.Driver.Error
import CportNode.Link.Error

namespace CportNode

inductive NodeError
  | invalidArgument (reason : String)
  | invalidCport (cport : UInt16)
  | alreadyBound (cport : UInt16) (driver : String)
  | notBound (cport : UInt16)
  | notConnected (cport : UInt16)
  | driver (cause : DriverError)
  | link (cause : LinkError)
  | message (cause : MessageError)
  | worker (cause : IoError)
  | notInitialized
  | config (reason : String)
  deriving DecidableEq

namespace NodeError

def text : NodeError → String
  | invalidArgument reason => "invalid argument: " ++ reason
  | invalidCport cport => s!"cport {cport.toNat} out of range"
  | alreadyBound cport name => s!"cport {cport.toNat} already bound to " ++ name
  | notBound cport => s!"no driver bound to cport {cport.toNat}"
  | notConnected cport => s!"cport {cport.toNat} not connected"
  | driver cause => "driver error: " ++ cause.text
  | link cause => "transport error: " ++ cause.text
  | message cause => "message error: " ++ cause.text
  | worker cause => "failed to start dispatch worker: " ++ cause.text
  | notInitialized => "engine not initialised"
  | config reason => "invalid configuration: " ++ reason

def name : NodeError → String
  | invalidArgument _ => "invalid-argument"
  | invalidCport _ => "invalid-cport"
  | alreadyBound _ _ => "already-bound"
  | notBound _ => "not-bound"
  | notConnected _ => "not-connected"
  | driver cause => "driver." ++ cause.name
  | link cause => "transport." ++ cause.name
  | message cause => "message." ++ cause.name
  | worker _ => "worker"
  | notInitialized => "not-initialized"
  | config _ => "config"

def ofConfig (e : ConfigError) : NodeError :=
  config e.text

def foreignBundle (cport : UInt16) (bundle claimed : UInt8) : NodeError :=
  let home := s!"cport {cport.toNat} belongs to bundle {bundle.toNat}"
  invalidArgument s!"{home}, not {claimed.toNat}"

def callerFault : NodeError → Bool
  | invalidArgument _ => true
  | invalidCport _ => true
  | notBound _ => true
  | _ => false

def status : NodeError → Status
  | driver cause => cause.status
  | message (.outOfMemory _) => .noMemory
  | message (.payloadTooLarge _ _) => .overflow
  | invalidArgument _ => .invalid
  | invalidCport _ => .invalid
  | notBound _ => .invalid
  | notConnected _ => .invalid
  | alreadyBound _ _ => .invalid
  | notInitialized => .nonexistent
  | link _ => .unknownError
  | message _ => .unknownError
  | worker _ => .unknownError
  | config _ => .unknownError

theorem status_ne_success (e : NodeError) : e.status ≠ .success := by
  cases e with
  | driver cause => exact cause.status_ne_success
  | message cause => cases cause <;> simp only [status, ne_eq, reduceCtorEq, not_false_eq_true]
  | _ => simp [status]

end NodeError

end CportNode
