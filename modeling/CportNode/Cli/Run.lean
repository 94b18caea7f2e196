import CportNode.Cli.Payload
import CportNode.Cli.Report
import CportNode.Config.Json
import CportNode.Host.Session
import CportNode.Link.SocketFile

namespace CportNode.Cli

structure Outcome where
  code : ExitCode
  output : Bytes
  deriving DecidableEq

def loadConfig (files : Files) (path : String) : Except ConfigError Config :=
  match files path with
  | .error e => .error (.unreadable path e)
  | .ok bytes =>
    match Bytes.toText? bytes with
    | some text => Config.ofText text
    | none => .error (.unreadable path ⟨.invalidData, "stream did not contain valid UTF-8"⟩)

def loadFailure (path : String) (e : ConfigError) : Failure :=
  .ofNode ("failed loading " ++ path) (.ofConfig e)

def runConfig (files : Files) (path : String) (format : Format) : Except Failure Outcome :=
  match loadConfig files path with
  | .error e => .error (loadFailure path e)
  | .ok c => .ok ⟨.success, Report.config c format⟩

def runVersion (build : List String) (extended : Bool) : Outcome :=
  ⟨.success, (Report.versionLines build extended).flatMap lineBytes⟩

def preparePayload (files : Files) (args : SendArgs) : Except Failure Bytes := do
  let _ ← readDuration args.timeout
  args.payload.read files

def reportAnswer (args : SendArgs) (format : Format) :
    Except LinkError (Option Message) → Except Failure Outcome
  | .error e => .error (.ofLink "request failed" e)
  | .ok none => .ok ⟨.success, []⟩
  | .ok (some m) =>
    .ok ⟨if m.succeeded then .success else .operationFailed, Report.response args.cport m format⟩

def runSend (files : Files) (args : SendArgs) (format : Format) (peer : Except LinkError Node) :
    Except Failure Outcome × Except LinkError Node :=
  match preparePayload files args with
  | .error f => (.error f, peer)
  | .ok payload =>
    match peer with
    | .error e => (.error (.ofLink "connect failed" e), peer)
    | .ok n =>
      let (host, n) := Session.connect n
      let (answer, host, n) := host.request n args.cport args.kind payload args.oneShot
      (reportAnswer args format answer, .ok (host.leave n))

/-- The configuration and the manifest.  A manifest named on the command line takes the place of the
configured one. -/
def prepareNode (files : Files) (configPath : String) (manifest : Option String) :
    Except Failure (Config × Bytes) :=
  match loadConfig files configPath with
  | .error e => .error (loadFailure configPath e)
  | .ok c =>
    let c := match manifest with
      | some path => { c with manifest := some (Bytes.ofText path) }
      | none => c
    match c.manifest with
    | none => .ok (c, [])
    | some path =>
      let path := Lossy.text path
      match files path with
      | .ok bytes => .ok (c, bytes)
      | .error e => .error (.ofIo ("failed reading manifest " ++ path) e)

def bringUp (config : Config) (manifest : Bytes) (spawn : Spawn := .usual) :
    Except NodeError Node :=
  match Node.start config { Board.fresh with manifest } (.socket .fresh) spawn with
  | .error e => .error e
  | .ok n => .ok n.registerAll.2.listenAll

def startServing (files : Files) (path configPath : String) (manifest : Option String)
    (number : Nat) (found : PathEntry) (spawn : Spawn := .usual) :
    Except Failure (SocketFile × Node) := do
  let (config, manifest) ← prepareNode files configPath manifest
  match SocketFile.bind path SocketFile.defaultMode number found with
  | .error e => .error (.ofLink "bind failed" e)
  | .ok file =>
    match bringUp config manifest spawn with
    | .error e => .error (.ofNode "engine start failed" e)
    | .ok n => .ok (file, n)

end CportNode.Cli
