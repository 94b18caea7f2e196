import CportNode.Node.Basic

namespace CportNode

inductive Event
  | connected
  | disconnected
  deriving DecidableEq

def Event.callback : Event → Callback
  | connected => .connected
  | disconnected => .disconnected

def Event.fault (event : Event) : Driver → Option DriverError
  | .scripted s => match event with
    | .connected => s.connectedFault
    | .disconnected => s.disconnectedFault
  | _ => none

/-- Makes the drivers for the rows of a table.  It may make them depend on what it was asked for
before. -/
abbrev Factory (σ : Type) := σ → UInt16 → Row → Option Driver × σ

def Board.factory (b : Board) : Factory Unit :=
  fun _ _ row => (b.driverFor row.protocol, ())

namespace Node

def listen (n : Node) (cport : UInt16) : Except NodeError Node :=
  match n.registry.requireBound cport with
  | .error e => .error e
  | .ok _ =>
    match n.link.listen cport with
    | .ok link => .ok { n with link }
    | .error e => .error (.link e)

def stopListening (n : Node) (cport : UInt16) : Except NodeError Node :=
  match n.registry.requireBound cport with
  | .error e => .error e
  | .ok _ =>
    match n.link.stopListening cport with
    | .ok link => .ok { n with link }
    | .error e => .error (.link e)

def mute (n : Node) (cport : UInt16) : Node :=
  match n.link.stopListening cport with
  | .ok link => { n with link }
  | .error _ => n

def notify (n : Node) (cport : UInt16) (event : Event) : Except NodeError Unit × Node :=
  match n.registry.slot? cport with
  | none => (.error (.invalidCport cport), n)
  | some s =>
    match s.driver with
    | none => (.error (.notConnected cport), n)
    | some d =>
      let n := n.called event.callback cport
      match event.fault d with
      | some e => (.error (.driver e), n)
      | none => (.ok (), n)

def adopt (n : Node) (outcome : Except DriverError Board) : Except DriverError Unit × Node :=
  match outcome with
  | .ok board => (.ok (), { n with board })
  | .error e => (.error e, n)

def registerBare (n : Node) (cport : UInt16) (bundle : UInt8) : Node :=
  match n.registry.admits cport bundle with
  | .error _ => n
  | .ok () => (n.called .init cport).modifySlot cport (.bind .bare)

/-- Calls a driver's init.  The UART driver leaves its handler in place if reception cannot be
enabled. -/
def initDriver (n : Node) (cport : UInt16) (d : Driver) : Except DriverError Unit × Node :=
  let n := n.called .init cport
  match d with
  | .gpio _ => n.adopt (n.board.setIrqHandler (some (.report cport)))
  | .uart =>
    match n.adopt (n.board.setRxHandler (some (.forward cport))) with
    | (.ok (), n) => n.adopt n.board.enableRx
    | failed => failed
  | .log true => (.ok (), { n with outlet := some cport })
  | .scripted s =>
    let n := match s.initRegisters with
      | some bundle => n.registerBare cport bundle
      | none => n
    match s.initFault with
    | some e => (.error e, n)
    | none => (.ok (), n)
  | _ => (.ok (), n)

/-- Calls a driver's exit, which cannot fail.  A scripted driver may have another cport unbound by
`unregister`. -/
def exitDriver (unregister : Node → UInt16 → Node) (n : Node) (cport : UInt16) (d : Driver) :
    Node :=
  let n := n.called .exit cport
  match d with
  | .gpio _ => (n.adopt (n.board.setIrqHandler none)).2
  | .uart =>
    let n := (n.adopt n.board.disableRx).2
    (n.adopt (n.board.setRxHandler none)).2
  | .log true => { n with outlet := none }
  | .scripted s =>
    match s.exitUnregisters with
    | some other => unregister n other
    | none => n
  | _ => n

/-- Unbinds the driver of a cport.  Drivers that unbind each other do so at most `depth` deep. -/
def unregisterWithin : Nat → Node → UInt16 → Except NodeError Unit × Node
  | 0, n, _ => (.ok (), n)
  | depth + 1, n, cport =>
    match n.registry.requireBound cport with
    | .error e => (.error e, n)
    | .ok d =>
      let n := (n.mute cport).modifySlot cport .beginTeardown
      let n := exitDriver (fun n c => (unregisterWithin depth n c).2) n cport d
      (.ok (), n.modifySlot cport .unbind)

def unregister (n : Node) (cport : UInt16) : Except NodeError Unit × Node :=
  n.unregisterWithin (n.registry.size + 1) cport

/-- Binds a driver to a cport.  It is initialised first; if the cport was bound meanwhile, it is
taken down again. -/
def register (n : Node) (cport : UInt16) (bundle : UInt8) (d : Driver) :
    Except NodeError Unit × Node :=
  match n.registry.admits cport bundle with
  | .error e => (.error e, n)
  | .ok () =>
    match n.initDriver cport d with
    | (.error e, n) => (.error (.driver e), n)
    | (.ok (), n) =>
      match n.registry.driver? cport with
      | some other =>
        (.error (.alreadyBound cport other.name),
          exitDriver (fun n c => (n.unregister c).2) n cport d)
      | none => (.ok (), n.modifySlot cport (.bind d))

def registerRows {σ : Type} (factory : Factory σ) : Nat → List Row → σ → Node → Nat × σ × Node
  | _, [], state, n => (0, state, n)
  | index, row :: rows, state, n =>
    let cport := UInt16.ofNat index
    match factory state cport row with
    | (none, state) => registerRows factory (index + 1) rows state n
    | (some d, state) =>
      match n.register cport row.bundle d with
      | (.error _, n) => registerRows factory (index + 1) rows state n
      | (.ok (), n) =>
        let (bound, state, n) := registerRows factory (index + 1) rows state n
        (bound + 1, state, n)

def registerFromConfig {σ : Type} (n : Node) (factory : Factory σ) (state : σ) : Nat × σ × Node :=
  registerRows factory 0 n.config.cports state n

def registerAll (n : Node) : Nat × Node :=
  let (bound, _, n) := n.registerFromConfig n.board.factory ()
  (bound, n)

def listenAll (n : Node) : Node :=
  n.registry.boundCports.foldl
    (fun n c =>
      match n.listen c with
      | .ok n => n
      | .error _ => n)
    n

def unregisterAll (n : Node) : Node :=
  n.registry.boundCports.foldl (fun n c => (n.unregister c).2) n

end Node

end CportNode
