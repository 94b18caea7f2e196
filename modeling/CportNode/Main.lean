import CportNode.Cli.Run

namespace CportNode.Cli

def failureOf : IO.Error → IoError
  | .noFileOrDirectory _ _ _ => .noSuchFile
  | .inappropriateType _ _ _ => .directoryInTheWay
  | .resourceVanished _ _ => .brokenPipe
  | .resourceExhausted _ _ _ => .resourceUnavailable
  | .permissionDenied _ _ details => ⟨.permissionDenied, details⟩
  | .alreadyExists _ _ details => ⟨.alreadyExists, details⟩
  | .timeExpired _ details => ⟨.timedOut, details⟩
  | e => ⟨.other, toString e⟩

def readFile (path : String) : IO (Except IoError Bytes) := do
  try
    return .ok (← IO.FS.readBinFile path).toList
  catch e => return .error (failureOf e)

def filesAt (paths : List String) : IO Files := do
  let found ← paths.mapM fun path => return (path, ← readFile path)
  return fun path => (found.lookup path).getD (.error .noSuchFile)

def openStream (path : String) : IO (Except IoError IO.FS.Handle) := do
  try
    return .ok (← IO.FS.Handle.mk path .readWrite)
  catch e => return .error (failureOf e)

def writeBytes (stream : IO.FS.Handle) (data : Bytes) : IO Unit := do
  stream.write ⟨data.toArray⟩
  stream.flush

/-- Reads what the packet that has begun to arrive still lacks, at most, since a stream is waited on
until it has given all that was asked for. -/
def readPiece (stream : IO.FS.Handle) (arrived : Bytes) : IO Bytes := do
  let piece ← stream.read (USize.ofNat (max 1 (Packet.missing arrived)))
  return piece.toList

partial def awaitAnswer (stream : IO.FS.Handle) (deadline : Nat) (request : Packet) (c : Client) :
    IO (Except LinkError Message) := do
  let piece ← readPiece stream c.reader.buffer
  if piece.isEmpty then return (c.await request []).1
  let late := LinkError.message (.io .resourceUnavailable)
  match c.await request [.data piece, .fault .resourceUnavailable] with
  | (.ok m, _, _) => return .ok m
  | (.error e, c, _) =>
    if e = late ∧ (← IO.monoMsNow) < deadline then awaitAnswer stream deadline request c
    else return .error e

def exchange (stream : IO.FS.Handle) (args : SendArgs) (payload : Bytes) :
    IO (Except LinkError (Option Message)) := do
  let limit := (readDuration args.timeout).toOption.getD 0
  match Client.fresh.compose args.cport args.kind payload args.oneShot with
  | (.error e, _) => return .error e
  | (.ok request, c) =>
    try
      writeBytes stream request.encode
      if args.oneShot then return .ok none
      let answer ← awaitAnswer stream ((← IO.monoMsNow) + limit) request c
      return answer.map some
    catch e => return .error (.message (.io (failureOf e)))

def send (args : SendArgs) (format : Format) : IO (Except Failure Outcome) := do
  let paths := match args.payload with
    | .file path => [path]
    | _ => []
  match preparePayload (← filesAt paths) args with
  | .error f => return .error f
  | .ok payload =>
    match ← openStream args.path with
    | .error e => return .error (.ofLink "connect failed" (.connect args.path e))
    | .ok stream => return reportAnswer args format (← exchange stream args payload)

partial def serveStream (stream : IO.FS.Handle) (host : Session) (n : Node) : IO Unit := do
  let piece ← readPiece stream (host.arrived n)
  if piece.isEmpty then return
  match host.write n piece with
  | (.error _, _) => return
  | (.ok (), n) =>
    let (data, n) := host.handOver n
    writeBytes stream data
    serveStream stream host n

def nodePaths (files : Files) (configPath : String) (manifest : Option String) : List String :=
  let configured := (loadConfig files configPath).toOption.bind (·.manifest)
  configPath :: manifest.toList ++ (configured.map Lossy.text).toList

def serve (path configPath : String) (manifest : Option String) :
    IO (Except Failure Outcome) := do
  let paths := nodePaths (← filesAt [configPath]) configPath manifest
  match startServing (← filesAt paths) path configPath manifest 0 .absent with
  | .error f => return .error f
  | .ok (file, n) =>
    match ← openStream file.path with
    | .error e => return .error (.ofLink "bind failed" (.bind file.path e))
    | .ok stream =>
      try
        let (host, n) := Session.connect n
        serveStream stream host n
        return .ok ⟨.success, []⟩
      catch e => return .error (.ofLink "link failed" (.io (failureOf e)))

def run (format : Format) : Command → IO (Except Failure Outcome)
  | .serve path config manifest => serve path config manifest
  | .send args => send args format
  | .config path => return runConfig (← filesAt [path]) path format
  | .version extended => return .ok (runVersion Report.buildLines extended)

def defaultFormat : IO Format := do
  if ← (← IO.getStdout).isTty then return .table else return .json

def refuse (e : UsageError) : IO UInt32 := do
  if e.exitCode = 0 then IO.println usage
  else IO.eprintln ("error: " ++ e.text ++ "\n\n" ++ usage)
  return UInt32.ofNat e.exitCode

def perform (i : Invocation) : IO UInt32 := do
  let format ← match i.format with
    | some format => pure format
    | none => defaultFormat
  match ← run format i.command with
  | .ok outcome =>
    let stdout ← IO.getStdout
    stdout.write ⟨outcome.output.toArray⟩
    stdout.flush
    return UInt32.ofNat outcome.code.toNat
  | .error f =>
    IO.eprintln ("error: " ++ f.message)
    return UInt32.ofNat f.code.toNat

end CportNode.Cli

def main (args : List String) : IO UInt32 :=
  match CportNode.Cli.Invocation.parse args with
  | .error e => CportNode.Cli.refuse e
  | .ok i => CportNode.Cli.perform i
