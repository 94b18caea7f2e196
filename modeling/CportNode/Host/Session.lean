import CportNode.Host.Client
import CportNode.Node.Lifecycle

namespace CportNode

namespace Node

def modifySocket (n : Node) (change : SocketLink → SocketLink) : Node :=
  match n.link with
  | .socket l => { n with link := .socket (change l) }
  | .memory _ => n

def readHost (n : Node) : Reading × Node :=
  match n.link with
  | .socket l =>
    let (reading, l) := l.read
    (reading, { n with link := .socket l })
  | .memory _ => (.nothing, n)

/-- A packet for a cport that does not listen goes no further, and none does on a link that outlives
its node's run. -/
def offer (n : Node) (p : Packet) : Node :=
  if n.running ∧ p.cport ∈ n.link.listening then (n.deliver p).2 else n

/-- Nobody reads on while a packet waits for room. -/
def makeRoom (n : Node) : Node :=
  if n.waiting.isEmpty then n else n.work

def serveAtMost : Nat → Node → Node
  | 0, n => n
  | most + 1, n =>
    match n.readHost with
    | (.nothing, n) => n
    | (.ended, n) => serveAtMost most n
    | (.packet p, n) => serveAtMost most (n.offer p).makeRoom

def serveHosts (n : Node) : Node :=
  match n.link with
  | .socket l => (n.serveAtMost l.backlog).settle
  | .memory _ => n

def hostConnected (n : Node) : Bool :=
  match n.link with
  | .socket l => l.connected
  | .memory _ => false

def connection? (n : Node) (number : Nat) : Option Connection :=
  match n.link with
  | .socket l => l.connections[number]?
  | .memory _ => none

end Node

structure Session where
  client : Client
  connection : Option Nat
  deriving DecidableEq

namespace Session

def apart : Session := ⟨.fresh, none⟩

def connect (n : Node) : Session × Node :=
  match n.link with
  | .socket l =>
    let (number, l) := l.connect
    (⟨.fresh, some number⟩, { n with link := .socket l })
  | .memory _ => (apart, n)

def connection? (s : Session) (n : Node) : Option Connection :=
  s.connection.bind n.connection?

def modify (s : Session) (n : Node) (change : Connection → Connection) : Node :=
  match s.connection with
  | some number => n.modifySocket (·.modify number change)
  | none => n

/-- A host cannot write to a session that is over, nor finish writing to one that the node ends
meanwhile. -/
def write (s : Session) (n : Node) (data : Bytes) : Except LinkError Unit × Node :=
  match (s.connection? n).bind (·.write data) with
  | none => (.error (.message (.io .brokenPipe)), n)
  | some c =>
    let n := (s.modify n fun _ => c).serveHosts
    if (s.connection? n).any (·.brokenOff) then (.error (.message (.io .brokenPipe)), n)
    else (.ok (), n)

def finish (s : Session) (n : Node) : Node :=
  (s.modify n ({ · with hostWrites := false })).serveHosts

def leave (s : Session) (n : Node) : Node :=
  (s.modify n ({ · with hostWrites := false, hostReads := false })).serveHosts

/-- What the host reads next: what was sent, and then nothing more until it gives up waiting, or the
end of the stream. -/
def source (s : Session) (n : Node) : Source :=
  match s.connection? n with
  | none => []
  | some c =>
    (if c.outgoing.isEmpty then [] else [.data c.outgoing]) ++
      (if c.live then [.fault .resourceUnavailable] else [])

def after (s : Session) (n : Node) (client : Client) (rest : Source) : Session × Node :=
  let outgoing := rest.flatMap fun
    | .data bytes => bytes
    | .fault _ => []
  ({ s with client }, s.modify n ({ · with outgoing }))

def arrived (s : Session) (n : Node) : Bytes :=
  (s.connection? n).elim [] (·.arrived)

def handOver (s : Session) (n : Node) : Bytes × Node :=
  ((s.connection? n).elim [] (·.outgoing), s.modify n ({ · with outgoing := [] }))

def send (s : Session) (n : Node) (p : Packet) : Except LinkError Unit × Node :=
  s.write n p.encode

def receive (s : Session) (n : Node) : Except LinkError Packet × Session × Node :=
  let (answer, client, rest) := s.client.receive (s.source n)
  (answer, s.after n client rest)

def request (s : Session) (n : Node) (cport : UInt16) (kind : UInt8) (payload : Bytes)
    (oneShot : Bool) : Except LinkError (Option Message) × Session × Node :=
  match s.client.compose cport kind payload oneShot with
  | (.error e, client) => (.error e, { s with client }, n)
  | (.ok p, client) =>
    let s := { s with client }
    match s.send n p with
    | (.error e, n) => (.error e, s, n)
    | (.ok (), n) =>
      if oneShot then (.ok none, s, n)
      else
        let (answer, client, rest) := client.await p (s.source n)
        (answer.map some, s.after n client rest)

end Session

end CportNode
