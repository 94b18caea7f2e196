import CportNode.Node.Binding

namespace CportNode.Node

/-- A cport that is connected listens from then on, unless its driver objects. -/
def connect (n : Node) (target : UInt16) : Reaction × Node :=
  match n.listen target with
  | .error _ => (.refused .invalid, n)
  | .ok n =>
    match n.notify target .connected with
    | (.ok (), n) => (.done [], n)
    | (.error e, n) =>
      (.refused e.status, match n.stopListening target with
        | .ok n' => n'
        | .error _ => n)

def disconnect (n : Node) (target : UInt16) : Reaction × Node :=
  let (_, n) := n.notify target .disconnected
  match n.stopListening target with
  | .ok n => (.done [], n)
  | .error e => (.refused e.status, n)

def onBoard {α : Type} (n : Node) (decoded : Except Status α)
    (execute : α → Board → Reaction × Board) : Reaction × Node :=
  match decoded with
  | .error status => (.refused status, n)
  | .ok r =>
    let (reaction, board) := execute r n.board
    (reaction, { n with board })

def reactionOf {α : Type} (decoded : Except Status α) (execute : α → Reaction) : Reaction :=
  match decoded with
  | .error status => .refused status
  | .ok r => execute r

def carryOutGpio (n : Node) (cport : UInt16) (triggers : Gpio.Triggers)
    (decoded : Except Status Gpio.Request) : Reaction × Node :=
  match decoded with
  | .error status => (.refused status, n)
  | .ok r =>
    let (reaction, board) := r.execute triggers n.board
    (reaction, { n with board }.modifySlot cport (.update (.gpio (triggers.after r reaction))))

def carryOut (n : Node) (cport : UInt16) (d : Driver) (kind : UInt8) (body : Bytes) :
    Reaction × Node :=
  match d with
  | .control =>
    match Control.Request.decode kind body with
    | .error status => (.refused status, n)
    | .ok (.connect target) => n.connect target
    | .ok (.disconnect target) => n.disconnect target
    | .ok (.query q) => n.onBoard (.ok q) Control.Query.execute
  | .gpio triggers => n.carryOutGpio cport triggers (Gpio.Request.decode kind body)
  | .i2c => n.onBoard (I2c.Request.decode kind body) I2c.Request.execute
  | .spi => n.onBoard (Spi.Request.decode kind body) Spi.Request.execute
  | .uart => n.onBoard (Uart.Request.decode kind body) Uart.Request.execute
  | .loopback => (reactionOf (Loopback.Request.decode kind body) Loopback.Request.execute, n)
  | .log _ => (reactionOf (Log.Request.decode kind) Log.Request.execute, n)
  | .firmwareManagement =>
    (reactionOf (Firmware.Request.decode kind) (·.execute n.board), n)
  | .firmwareDownload => (.refused .protocolBad, n)
  | .bare => (.quiet, n)
  | .gate => (.quiet, n)
  | .scripted _ => (.quiet, n)

/-- Sends the answer to a request.  A payload that no message can hold becomes a failure of its
own. -/
def answer (n : Node) (p : Packet) : Reaction → Except NodeError Node
  | .quiet => .ok n
  | .refused status => n.respond p.cport p.message status []
  | .done payload =>
    match n.respond p.cport p.message .success payload with
    | .error (.message e) => n.respond p.cport p.message (NodeError.message e).status []
    | outcome => outcome

def conclude (n : Node) : Except NodeError Node → Node
  | .ok n' => n'
  | .error _ => n.count fun c => { c with handlerErrors := c.handlerErrors + 1 }

def halt (n : Node) : Node :=
  { { n with running := false }.unregisterAll with accepting := false }

/-- The node goes down from within a handler: the worker cannot wait for itself. -/
def shutDownWithin (n : Node) : Node :=
  if n.running then
    let n := n.halt
    { n with link := n.link.detach }
  else n

def handleScripted (n : Node) (s : Script) (p : Packet) : Node :=
  match s.handleFault with
  | some e => n.conclude (.error (.driver e))
  | none =>
    let n := match s.handleUnregisters with
      | some cport => (n.unregister cport).2
      | none => n
    let n := if s.handleShutsDown then n.shutDownWithin else n
    n.conclude (n.answer p (.done p.message.payload))

def handleGate (n : Node) (p : Packet) : Node :=
  if n.gateOpen then n.conclude (n.answer p (.done p.message.payload))
  else { n with held := some p }

def handle (n : Node) (d : Driver) (p : Packet) : Node :=
  match d with
  | .gate => n.handleGate p
  | .scripted s => n.handleScripted s p
  | d =>
    let (reaction, n) := n.carryOut p.cport d p.message.kind p.message.payload
    n.conclude (n.answer p reaction)

/-- A ping is answered without the driver, and nothing is lost if the answer cannot be sent. -/
def dispatch (n : Node) (p : Packet) : Node :=
  match n.registry.route p.cport with
  | .draining => n.count fun c => { c with drained := c.drained + 1 }
  | .unbound => n.count fun c => { c with droppedUnbound := c.droppedUnbound + 1 }
  | .driver d =>
    if p.message.kind = Message.pingKind then
      let n := n.count fun c => { c with pinged := c.pinged + 1 }
      match n.answer p (.done []) with
      | .ok n => n
      | .error _ => n
    else
      let n := n.count fun c => { c with dispatched := c.dispatched + 1 }
      (n.called (.handle p.message) p.cport).handle d p

end CportNode.Node
