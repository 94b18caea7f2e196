import CportNode.Link.CportSet
import CportNode.Link.Error
import CportNode.Message.Frame

/-!
A link over a socket.  Hosts connect in turn, and the oldest connection that is still live is the
one being served; the others wait, and what they write waits with them.  A connection ends when its
stream ends or breaks the framing, or when the link goes down.  What has arrived on it and was not
decoded is lost with it; what was sent on it can still be read afterwards.
-/

namespace CportNode

structure Connection where
  /-- Bytes from the host that are not yet decoded. -/
  arrived : Bytes
  /-- Bytes for the host that it has not yet read. -/
  outgoing : Bytes
  hostWrites : Bool
  hostReads : Bool
  /-- The node has not given the connection up. -/
  live : Bool
  /-- How much of what the host wrote was left when the node gave the connection up. -/
  unread : Nat
  deriving DecidableEq

namespace Connection

def fresh : Connection := ⟨[], [], true, true, true, 0⟩

def giveUp (c : Connection) : Connection :=
  { c with live := false, arrived := [], unread := c.arrived.length }

/-- The most bytes that a stream holds for its reader.  A writer waits to get rid of more. -/
def capacity : Nat := 219264

/-- The host was still waiting to write when the connection was given up. -/
def brokenOff (c : Connection) : Bool :=
  !c.live && capacity < c.unread

def write (c : Connection) (data : Bytes) : Option Connection :=
  if c.live && c.hostWrites then some { c with arrived := c.arrived ++ data } else none

end Connection

structure SocketLink where
  attached : Bool
  listening : CportSet
  connections : List Connection
  deriving DecidableEq

inductive Reading
  | packet (p : Packet)
  | ended
  | nothing
  deriving DecidableEq

namespace SocketLink

def fresh : SocketLink := ⟨false, .empty, []⟩

def modify (l : SocketLink) (number : Nat) (change : Connection → Connection) : SocketLink :=
  { l with connections := l.connections.modify number change }

/-- The connection being served, with its number.  While the link is down none is. -/
def current? (l : SocketLink) : Option (Connection × Nat) :=
  if l.attached then l.connections.zipIdx.find? (·.1.live) else none

def connected (l : SocketLink) : Bool :=
  l.current?.isSome

def dropCurrent (l : SocketLink) : SocketLink :=
  match l.current? with
  | some (_, number) => l.modify number .giveUp
  | none => l

def attach (l : SocketLink) : SocketLink :=
  { l with attached := true }

def detach (l : SocketLink) : SocketLink :=
  { l.dropCurrent with attached := false, listening := .empty }

def listen (l : SocketLink) (cport : UInt16) : SocketLink :=
  { l with listening := l.listening.insert cport }

def stopListening (l : SocketLink) (cport : UInt16) : Except LinkError SocketLink :=
  if cport ∈ l.listening then .ok { l with listening := l.listening.erase cport }
  else .error (.notListening cport)

def send (l : SocketLink) (p : Packet) : Except LinkError SocketLink :=
  match l.current? with
  | none => .error .notConnected
  | some (c, number) =>
    if c.hostReads then
      .ok (l.modify number ({ · with outgoing := c.outgoing ++ p.encode }))
    else .error (.message (.io .brokenPipe))

/-- A host connects, and has to wait while others are before it or the link is down. -/
def connect (l : SocketLink) : Nat × SocketLink :=
  (l.connections.length, { l with connections := l.connections ++ [.fresh] })

/-- The next packet of the connection being served.  A refused header ends it. -/
def read (l : SocketLink) : Reading × SocketLink :=
  match l.current? with
  | none => (.nothing, l)
  | some (c, number) =>
    match Packet.decode Message.maxSize c.arrived with
    | .error _ => (.ended, l.dropCurrent)
    | .ok none => if c.hostWrites then (.nothing, l) else (.ended, l.dropCurrent)
    | .ok (some (p, rest)) => (.packet p, l.modify number ({ · with arrived := rest }))

def backlog (l : SocketLink) : Nat :=
  l.connections.foldr (fun c rest => c.arrived.length + 1 + rest) 0

end SocketLink

end CportNode
