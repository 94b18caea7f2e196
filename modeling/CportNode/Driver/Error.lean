import CportNode.Message.Error
import CportNode.Status

namespace CportNode

inductive DriverError
  | noMemory
  | interrupted
  | timeout
  | unsupported
  | invalidArgument (reason : String)
  | overflow
  | noDevice
  | busy
  | io (cause : IoError)
  | other (reason : String)
  deriving DecidableEq

namespace DriverError

def text : DriverError → String
  | noMemory => "out of memory"
  | interrupted => "interrupted"
  | timeout => "timed out"
  | unsupported => "operation not supported"
  | invalidArgument reason => "invalid argument: " ++ reason
  | overflow => "overflow"
  | noDevice => "no such device"
  | busy => "device busy"
  | io cause => "I/O error: " ++ cause.text
  | other reason => reason

def name : DriverError → String
  | noMemory => "no-memory"
  | interrupted => "interrupted"
  | timeout => "timeout"
  | unsupported => "unsupported"
  | invalidArgument _ => "invalid-argument"
  | overflow => "overflow"
  | noDevice => "no-device"
  | busy => "busy"
  | io _ => "io"
  | other _ => "other"

def status : DriverError → Status
  | noMemory => .noMemory
  | interrupted => .interrupted
  | timeout => .timeout
  | unsupported => .protocolBad
  | invalidArgument _ => .invalid
  | overflow => .overflow
  | noDevice => .nonexistent
  | busy => .retry
  | io _ => .unknownError
  | other _ => .unknownError

def ofIo (cause : IoError) : DriverError :=
  match cause.kind with
  | .outOfMemory => noMemory
  | .interrupted => interrupted
  | .timedOut => timeout
  | .wouldBlock => timeout
  | .unsupported => unsupported
  | .invalidInput => invalidArgument cause.text
  | .invalidData => invalidArgument cause.text
  | .notFound => noDevice
  | .notConnected => noDevice
  | _ => io cause

def ofMessage : MessageError → DriverError
  | .outOfMemory _ => noMemory
  | .payloadTooLarge _ _ => overflow
  | .io cause => ofIo cause
  | e => other e.text

theorem status_ne_success (e : DriverError) : e.status ≠ .success := by
  cases e <;> simp [status]

end DriverError

end CportNode
