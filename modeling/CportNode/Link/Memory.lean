import CportNode.Link.CportSet
import CportNode.Link.Error
import CportNode.Message.Basic

namespace CportNode

structure MemoryLink where
  attached : Bool
  listening : CportSet
  /-- Cports on which listening is refused. -/
  refused : CportSet
  sendsFail : Bool
  attachFault : Option LinkError
  stopFault : Option LinkError
  attachCalls : Nat
  detachCalls : Nat
  sent : List Packet
  deriving DecidableEq

namespace MemoryLink

def fresh : MemoryLink := ⟨false, .empty, .empty, false, none, none, 0, 0, []⟩

def attach (l : MemoryLink) : Except LinkError MemoryLink :=
  match l.attachFault with
  | some e => .error e
  | none => .ok { l with attached := true, attachCalls := l.attachCalls + 1 }

def detach (l : MemoryLink) : MemoryLink :=
  { l with attached := false, listening := .empty, detachCalls := l.detachCalls + 1 }

def listen (l : MemoryLink) (cport : UInt16) : Except LinkError MemoryLink :=
  if cport ∈ l.refused then .error (.unsupported "listen refused")
  else .ok { l with listening := l.listening.insert cport }

def refuse (l : MemoryLink) (cport : UInt16) : MemoryLink :=
  { l with refused := l.refused.insert cport }

def stopListening (l : MemoryLink) (cport : UInt16) : Except LinkError MemoryLink :=
  match l.stopFault with
  | some e => .error e
  | none =>
    if cport ∈ l.listening then .ok { l with listening := l.listening.erase cport }
    else .error (.notListening cport)

def send (l : MemoryLink) (p : Packet) : Except LinkError MemoryLink :=
  if l.sendsFail then .error .notConnected else .ok { l with sent := l.sent ++ [p] }

def receive (l : MemoryLink) : Option Packet × MemoryLink :=
  match l.sent with
  | [] => (none, l)
  | p :: rest => (some p, { l with sent := rest })

end MemoryLink

end CportNode
