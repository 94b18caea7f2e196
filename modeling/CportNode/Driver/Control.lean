import CportNode.Driver.Reaction

namespace CportNode.Control

inductive Query
  | version
  | manifestSize
  | manifest
  | interfaceVersion
  | disconnecting
  /-- Bundles and the interface are always ready to change their power state. -/
  | power
  | timesync (call : Timesync.Call)
  | lastEvent
  deriving DecidableEq

inductive Request
  | connect (target : UInt16)
  | disconnect (target : UInt16)
  | query (q : Query)
  deriving DecidableEq

def readTarget (body : Bytes) : Option UInt16 :=
  (Bytes.takeWord16 body).map (·.1)

def readEnable (body : Bytes) : Option Timesync.Call := do
  let (count, rest) ← Bytes.takeWord8 body
  let (frameTime, rest) ← Bytes.takeWord64 rest
  let (strobeDelay, rest) ← Bytes.takeWord32 rest
  let (refclk, _) ← Bytes.takeWord32 rest
  return .enable count frameTime strobeDelay refclk

def readAuthoritative (body : Bytes) : Option Timesync.Call := do
  let (t₀, rest) ← Bytes.takeWord64 body
  let (t₁, rest) ← Bytes.takeWord64 rest
  let (t₂, rest) ← Bytes.takeWord64 rest
  let (t₃, _) ← Bytes.takeWord64 rest
  return .authoritative t₀ t₁ t₂ t₃

def Request.decode (kind : UInt8) (body : Bytes) : Except Status Request :=
  match kind.toNat with
  | 0x01 => .ok (.query .version)
  | 0x03 => .ok (.query .manifestSize)
  | 0x04 => .ok (.query .manifest)
  | 0x05 => (required (readTarget body)).map .connect
  | 0x06 => (required (readTarget body)).map .disconnect
  | 0x07 => (required (readEnable body)).map fun call => .query (.timesync call)
  | 0x08 => .ok (.query (.timesync .disable))
  | 0x09 => (required (readAuthoritative body)).map fun call => .query (.timesync call)
  | 0x0a => .ok (.query .interfaceVersion)
  | 0x0c => .ok (.query .disconnecting)
  | 0x0d => .ok (.query .lastEvent)
  | 0x0f => .ok (.query .power)
  | 0x10 => .ok (.query .power)
  | 0x11 => .ok (.query .power)
  | 0x12 => .ok (.query .power)
  | 0x13 => .ok (.query .power)
  | 0x14 => .ok (.query .power)
  | _ => .error .invalid

def manifestOf (b : Board) (payload : Bytes → Bytes) : Reaction :=
  if b.manifest.length ≤ Message.maxPayload then .done (payload b.manifest)
  else .refused .overflow

def Query.execute (q : Query) (b : Board) : Reaction × Board :=
  match q with
  | version => (.done [0, 1], b)
  | manifestSize => (manifestOf b fun m => Bytes.ofWord16 (UInt16.ofNat m.length), b)
  | manifest => (manifestOf b id, b)
  | interfaceVersion => (.done (Bytes.ofWord16 0 ++ Bytes.ofWord16 1), b)
  | disconnecting => (.done [], b)
  | power => (.done [0], b)
  | timesync call => b.reactTo (b.timesyncCall call)
  | lastEvent => (.ofQuery Bytes.ofWord64 b.lastEvent, b)

end CportNode.Control
