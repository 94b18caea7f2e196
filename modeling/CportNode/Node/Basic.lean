import CportNode.Driver.Log
import CportNode.Link.Basic
import CportNode.Message.OperationIds
import CportNode.Node.Registry

/-!
A node: a table of cports with drivers, the board they act on, the link to the host, and one queue
of received requests with one worker behind it.

The state of a node is one value, and whatever happens to it is a function on that value.  What runs
beside each other in the world (producers, the worker, the peripherals) is here a choice of which
function comes next.
-/

namespace CportNode

structure Counters where
  received : Nat
  dispatched : Nat
  pinged : Nat
  droppedUnbound : Nat
  drained : Nat
  handlerErrors : Nat
  deriving DecidableEq

def Counters.zero : Counters := ⟨0, 0, 0, 0, 0, 0⟩

inductive Callback
  | init
  | exit
  | connected
  | disconnected
  | handle (request : Message)
  deriving DecidableEq

def Callback.name : Callback → String
  | init => "init"
  | exit => "exit"
  | connected => "connected"
  | disconnected => "disconnected"
  | handle _ => "handle"

structure Call where
  callback : Callback
  cport : UInt16
  deriving DecidableEq

structure Node where
  config : Config
  registry : Registry
  board : Board
  link : Link
  ids : OperationIds
  counters : Counters
  queue : List Packet
  /-- Requests of producers that wait for room in the queue. -/
  waiting : List Packet
  accepting : Bool
  gateOpen : Bool
  /-- The request whose driver holds the worker until the gate opens. -/
  held : Option Packet
  running : Bool
  /-- Nobody owns the node any more, and nothing more is delivered to it. -/
  discarded : Bool
  /-- The cport of the driver that the node's own log records go through. -/
  outlet : Option UInt16
  calls : List Call

namespace Node

def called (n : Node) (callback : Callback) (cport : UInt16) : Node :=
  { n with calls := ⟨callback, cport⟩ :: n.calls }

@[simp] theorem registry_called (n : Node) (callback : Callback) (cport : UInt16) :
    (n.called callback cport).registry = n.registry := rfl

def count (n : Node) (change : Counters → Counters) : Node :=
  { n with counters := change n.counters }

def modifySlot (n : Node) (cport : UInt16) (change : Slot → Slot) : Node :=
  { n with registry := n.registry.modify cport change }

@[simp] theorem registry_modifySlot (n : Node) (cport : UInt16) (change : Slot → Slot) :
    (n.modifySlot cport change).registry = n.registry.modify cport change := rfl

def send (n : Node) (p : Packet) : Except NodeError Node :=
  match n.registry.requireRange p.cport with
  | .error e => .error e
  | .ok () =>
    match n.link.send p with
    | .ok link => .ok { n with link }
    | .error e => .error (.link e)

def respond (n : Node) (cport : UInt16) (request : Message) (status : Status) (payload : Bytes) :
    Except NodeError Node :=
  if request.oneShot then .ok n
  else
    match request.response status payload with
    | .error e => .error (.message e)
    | .ok response => n.send ⟨cport, response⟩

/-- A request of the node's own, answered by its id.  The id is used up even if the request cannot
be sent. -/
def request (n : Node) (cport : UInt16) (kind : UInt8) (payload : Bytes) (oneShot : Bool) :
    Except NodeError UInt16 × Node :=
  let (id, ids) := Message.requestId oneShot n.ids
  let n := { n with ids }
  match Message.carrying kind id .success payload with
  | .error e => (.error (.message e), n)
  | .ok m =>
    match n.send ⟨cport, m⟩ with
    | .ok n => (.ok id, n)
    | .error e => (.error e, n)

def sendLog (n : Node) (cport : UInt16) (text : String) : Except NodeError UInt16 × Node :=
  match Log.record? text with
  | some payload => n.request cport Log.recordKind payload false
  | none =>
    (.error (.invalidArgument s!"log record of {text.utf8ByteSize} bytes too long"), n)

def log (n : Node) (text : String) : Except NodeError UInt16 × Node :=
  match n.outlet with
  | some cport => n.sendLog cport text
  | none => (.error .notInitialized, n)

end Node

end CportNode
