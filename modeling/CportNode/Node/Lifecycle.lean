import CportNode.Node.Queue
import CportNode.Node.Worker

namespace CportNode.Node

def ofParts (config : Config) (board : Board) (link : Link) : Node where
  config
  registry := .ofRows config.cports
  board
  link
  ids := .start
  counters := .zero
  queue := []
  waiting := []
  accepting := true
  gateOpen := false
  held := none
  running := true
  discarded := false
  outlet := none
  calls := []

/-- A configuration is checked, and the worker started, before the link is touched. -/
def start (config : Config) (board : Board) (link : Link) (spawn : Spawn := .usual) :
    Except NodeError Node :=
  match config.check with
  | .error e => .error (.ofConfig e)
  | .ok () =>
    match spawn config with
    | .error cause => .error (.worker cause)
    | .ok () =>
      match link.attach with
      | .error e => .error (.link e)
      | .ok link => .ok (ofParts config board link)

/-- Takes a node down: every driver is unbound, the worker empties the queue, and the link goes
last.  A node that is down already stays as it is. -/
def shutDown (n : Node) : Node :=
  if n.running then
    let n := n.halt
    let n := (if n.held.isSome then n.openGate else n).settle
    { n with link := n.link.detach }
  else n

def discard (n : Node) : Node :=
  { n.shutDown with discarded := true }

def deliver (n : Node) (p : Packet) : Except LinkError Receipt × Node :=
  if n.discarded then (.error .shutdown, n)
  else
    match n.receive p with
    | (.refused (.invalidCport cport), n) => (.error (.invalidCport cport), n)
    | (.refused _, n) => (.error .shutdown, n)
    | (receipt, n) => (.ok receipt, n)

def inject (n : Node) (p : Packet) : Except LinkError Receipt × Node :=
  if n.link.attached then n.deliver p else (.error .notInitialized, n)

def fire (n : Node) (line : UInt8) : Bool × Node :=
  let (handler, board) := n.board.trigger line
  let n := { n with board }
  match handler with
  | none => (false, n)
  | some .note => (true, n)
  | some (.report cport) => (true, (n.request cport Gpio.irqEventKind [line] true).2)

/-- Bytes arrive on the serial line, and go on to the host in chunks if they are to be forwarded.  A
chunk that cannot be sent is lost. -/
def arrive (n : Node) (data : Bytes) : Node :=
  let (chunks, board) := n.board.pushReceived data
  chunks.foldl
    (fun n (cport, chunk) =>
      (n.request cport Uart.receiveDataKind (Uart.forwarded chunk) true).2)
    { n with board }

end CportNode.Node
