import CportNode.Link.Memory
import CportNode.Link.Socket

namespace CportNode

inductive Link
  | memory (l : MemoryLink)
  | socket (l : SocketLink)
  deriving DecidableEq

namespace Link

def attach : Link → Except LinkError Link
  | memory l => l.attach.map memory
  | socket l => .ok (socket l.attach)

def detach : Link → Link
  | memory l => memory l.detach
  | socket l => socket l.detach

def attached : Link → Bool
  | memory l => l.attached
  | socket l => l.attached

def listening : Link → CportSet
  | memory l => l.listening
  | socket l => l.listening

def listen : Link → UInt16 → Except LinkError Link
  | memory l, cport => (l.listen cport).map memory
  | socket l, cport => .ok (socket (l.listen cport))

def stopListening : Link → UInt16 → Except LinkError Link
  | memory l, cport => (l.stopListening cport).map memory
  | socket l, cport => (l.stopListening cport).map socket

def send : Link → Packet → Except LinkError Link
  | memory l, p => (l.send p).map memory
  | socket l, p => (l.send p).map socket

def name : Link → String
  | memory _ => "memory"
  | socket _ => "unix-socket"

def sent : Link → List Packet
  | memory l => l.sent
  | socket l => l.connections.flatMap fun c => (Packet.decodeAll Message.maxSize c.outgoing).1

end Link

end CportNode
