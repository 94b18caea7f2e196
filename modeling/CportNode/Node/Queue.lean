import CportNode.Node.Dispatch

namespace CportNode

inductive Receipt
  | accepted
  | waiting
  | dropped
  | refused (cause : NodeError)
  deriving DecidableEq

namespace Node

def enqueue (n : Node) (p : Packet) : Node :=
  { n with queue := n.queue ++ [p] }.count fun c => { c with received := c.received + 1 }

def hasRoom (n : Node) : Bool :=
  n.queue.length < n.config.queueCapacity

/-- A request for a cport without a driver is dropped, which is no error. -/
def receive (n : Node) (p : Packet) : Receipt × Node :=
  match n.registry.requireBound p.cport with
  | .error (.notBound _) =>
    (.dropped, n.count fun c => { c with droppedUnbound := c.droppedUnbound + 1 })
  | .error e => (.refused e, n)
  | .ok _ =>
    if !n.accepting then (.refused .notInitialized, n)
    else if n.hasRoom then (.accepted, n.enqueue p)
    else (.waiting, { n with waiting := n.waiting ++ [p] })

/-- A producer that waits, at a place in the line, puts its request onto the queue if there is
room. -/
def letIn (n : Node) (place : Nat) : Node :=
  match n.waiting[place]? with
  | none => n
  | some p =>
    if n.hasRoom then { n with waiting := n.waiting.eraseIdx place }.enqueue p else n

def take (n : Node) : Option (Packet × Node) :=
  match n.held, n.queue with
  | none, p :: queue => some (p, { n with queue })
  | _, _ => none

/-- One step of the worker.  The room that it makes can go to a producer that waits. -/
def workFor (n : Node) (place : Option Nat) : Node :=
  match n.take with
  | some (p, n) => (place.elim n n.letIn).dispatch p
  | none => n

def work (n : Node) : Node :=
  n.workFor (some 0)

def settle (n : Node) : Node :=
  Nat.repeat (fun n => (n.letIn 0).work) (n.queue.length + n.waiting.length) n

def openGate (n : Node) : Node :=
  let n := { n with gateOpen := true }
  match n.held with
  | none => n
  | some p =>
    let n := { n with held := none }
    n.conclude (n.answer p (.done p.message.payload))

def closeGate (n : Node) : Node :=
  { n with gateOpen := false }

end Node

end CportNode
