namespace CportNode

inductive IoKind
  | notFound
  | permissionDenied
  | connectionRefused
  | connectionReset
  | connectionAborted
  | notConnected
  | addrInUse
  | addrNotAvailable
  | brokenPipe
  | alreadyExists
  | wouldBlock
  | invalidInput
  | invalidData
  | timedOut
  | writeZero
  | interrupted
  | unsupported
  | unexpectedEof
  | outOfMemory
  | isADirectory
  | other
  deriving DecidableEq

def IoKind.text : IoKind → String
  | notFound => "entity not found"
  | permissionDenied => "permission denied"
  | connectionRefused => "connection refused"
  | connectionReset => "connection reset"
  | connectionAborted => "connection aborted"
  | notConnected => "not connected"
  | addrInUse => "address in use"
  | addrNotAvailable => "address not available"
  | brokenPipe => "broken pipe"
  | alreadyExists => "entity already exists"
  | wouldBlock => "operation would block"
  | invalidInput => "invalid input parameter"
  | invalidData => "invalid data"
  | timedOut => "timed out"
  | writeZero => "write zero"
  | interrupted => "operation interrupted"
  | unsupported => "unsupported"
  | unexpectedEof => "unexpected end of file"
  | outOfMemory => "out of memory"
  | isADirectory => "is a directory"
  | other => "other error"

def IoKind.name : IoKind → String
  | notFound => "not-found"
  | permissionDenied => "permission-denied"
  | connectionRefused => "connection-refused"
  | connectionReset => "connection-reset"
  | connectionAborted => "connection-aborted"
  | notConnected => "not-connected"
  | addrInUse => "addr-in-use"
  | addrNotAvailable => "addr-not-available"
  | brokenPipe => "broken-pipe"
  | alreadyExists => "already-exists"
  | wouldBlock => "would-block"
  | invalidInput => "invalid-input"
  | invalidData => "invalid-data"
  | timedOut => "timed-out"
  | writeZero => "write-zero"
  | interrupted => "interrupted"
  | unsupported => "unsupported"
  | unexpectedEof => "unexpected-eof"
  | outOfMemory => "out-of-memory"
  | isADirectory => "is-a-directory"
  | other => "other"

def IoKind.all : List IoKind :=
  [.notFound, .permissionDenied, .connectionRefused, .connectionReset, .connectionAborted,
   .notConnected, .addrInUse, .addrNotAvailable, .brokenPipe, .alreadyExists, .wouldBlock,
   .invalidInput, .invalidData, .timedOut, .writeZero, .interrupted, .unsupported, .unexpectedEof,
   .outOfMemory, .isADirectory, .other]

theorem IoKind.mem_all (kind : IoKind) : kind ∈ all := by
  cases kind <;> decide

structure IoError where
  kind : IoKind
  text : String
  deriving DecidableEq

namespace IoError

def ofKind (kind : IoKind) : IoError :=
  ⟨kind, kind.text⟩

def noSuchFile : IoError :=
  ⟨.notFound, "No such file or directory (os error 2)"⟩

def resourceUnavailable : IoError :=
  ⟨.wouldBlock, "Resource temporarily unavailable (os error 11)"⟩

def refused : IoError :=
  ⟨.connectionRefused, "Connection refused (os error 111)"⟩

def addressInUse : IoError :=
  ⟨.addrInUse, "Address already in use (os error 98)"⟩

def invalidArgument : IoError :=
  ⟨.invalidInput, "Invalid argument (os error 22)"⟩

def brokenPipe : IoError :=
  ⟨.brokenPipe, "Broken pipe (os error 32)"⟩

def directoryInTheWay : IoError :=
  ⟨.isADirectory, "Is a directory (os error 21)"⟩

def notADirectory : IoError :=
  ⟨.other, "Not a directory (os error 20)"⟩

def nameTooLong : IoError :=
  ⟨.other, "File name too long (os error 36)"⟩

def noSuchDevice : IoError :=
  ⟨.other, "No such device or address (os error 6)"⟩

def interruptedBySignal : IoError → Bool
  | ⟨.interrupted, _⟩ => true
  | _ => false

/-- A write that fails this way may be tried again at once. -/
def passing : IoError → Bool
  | ⟨.interrupted, _⟩ => true
  | ⟨.wouldBlock, _⟩ => true
  | _ => false

end IoError

end CportNode
