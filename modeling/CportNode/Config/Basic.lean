import CportNode.Bytes
import CportNode.IoError
import CportNode.Protocol

namespace CportNode

structure Row where
  bundle : UInt8
  protocol : Protocol
  deriving DecidableEq

structure Config where
  cports : List Row
  queueCapacity : Nat
  workerName : String
  workerStackSize : Option Nat
  manifest : Option Bytes
  deriving DecidableEq

inductive ConfigError
  | malformed
  | unknownProtocol (name : String)
  | noCports
  | tooManyCports (count : Nat)
  | noCapacity
  | blankWorkerName
  | manifestNotText
  | unreadable (path : String) (cause : IoError)
  deriving DecidableEq

namespace Config

def defaultCapacity : Nat := 10

def defaultWorkerName : String := "greybus-rx"

def maxCports : Nat := 65536

def empty : Config := ⟨[], defaultCapacity, defaultWorkerName, none, none⟩

def check (c : Config) : Except ConfigError Unit :=
  if c.cports.isEmpty then .error .noCports
  else if maxCports < c.cports.length then .error (.tooManyCports c.cports.length)
  else if c.queueCapacity = 0 then .error .noCapacity
  else if c.workerName.toList.all isBlank then .error .blankWorkerName
  else .ok ()

end Config

def ConfigError.text : ConfigError → String
  | malformed => "not a configuration"
  | unknownProtocol name => "unknown protocol '" ++ name ++ "'"
  | noCports => "cport table is empty"
  | tooManyCports count => s!"cport table has {count} entries (max {Config.maxCports})"
  | noCapacity => "queue_capacity must be at least 1"
  | blankWorkerName => "worker_name must not be empty"
  | manifestNotText => "path contains invalid UTF-8 characters"
  | unreadable path cause => "failed to read " ++ path ++ ": " ++ cause.text

end CportNode
