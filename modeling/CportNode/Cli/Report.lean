import CportNode.Cli.Command
import CportNode.Cli.Table
import CportNode.Config.Basic
import CportNode.Json.Printer
import CportNode.Message.Basic

namespace CportNode.Cli

def lineBytes (text : String) : Bytes :=
  Bytes.ofText (text ++ "\n")

def jsonLine (j : Json) : Bytes :=
  lineBytes (String.ofList j.compact)

namespace Report

def responseJson (cport : UInt16) (m : Message) : Json :=
  .object [
    ("cport", .natural cport.toNat),
    ("op_type", .natural m.kind.toNat),
    ("operation_id", .natural m.id.toNat),
    ("result", .text m.status.name),
    ("result_code", .natural m.result.toNat),
    ("payload_size", .natural m.payload.length),
    ("payload", .text (Hex.ofBytes m.payload))]

def responseCells (cport : UInt16) (m : Message) : List String :=
  [toString cport.toNat, Hex.byteText m.kind, toString m.id.toNat, m.status.name,
    toString m.payload.length, Hex.ofBytes m.payload]

def labelled (labels cells : List String) : String :=
  " ".intercalate (List.zipWith (fun label cell => label ++ "=" ++ cell) labels cells)

def response (cport : UInt16) (m : Message) : Format → Bytes
  | .json => jsonLine (responseJson cport m)
  | .table => lineBytes (Table.render ["CPORT", "TYPE", "ID", "RESULT", "SIZE", "PAYLOAD"]
      [responseCells cport m])
  | .pretty => lineBytes (labelled ["cport", "type", "id", "result", "size", "payload"]
      (responseCells cport m))
  | .raw => m.payload

def rowJson (cport : Nat) (r : Row) : Json :=
  .object [
    ("cport", .natural cport),
    ("bundle", .natural r.bundle.toNat),
    ("protocol", .text r.protocol.label),
    ("protocol_id", .natural r.protocol.id.toNat)]

def configJson (c : Config) : Json :=
  .object [
    ("cport_count", .natural c.cports.length),
    ("queue_capacity", .natural c.queueCapacity),
    ("worker_name", .text c.workerName),
    ("cports", .array (c.cports.mapIdx rowJson))]

def rowCells (cport : Nat) (r : Row) : List String :=
  [toString cport, toString r.bundle.toNat, r.protocol.label, Hex.byteText r.protocol.id]

def config (c : Config) : Format → Bytes
  | .json => jsonLine (configJson c)
  | .table => lineBytes (Table.render ["CPORT", "BUNDLE", "PROTOCOL", "ID"]
      (c.cports.mapIdx rowCells))
  | .pretty => (c.cports.mapIdx fun cport r =>
      lineBytes (labelled ["cport", "bundle", "protocol", "id"] (rowCells cport r))).flatten
  | .raw => jsonLine (configJson c)

def version : String := "0.1.0"

def buildLines : List String :=
  ["target_os: linux", "target_arch: x86_64", "rustc: unknown", "git_hash: unknown"]

def versionLines (build : List String) (extended : Bool) : List String :=
  if extended then
    ["name: greybus", "version: " ++ version] ++ build ++
      [s!"max_payload: {Message.maxPayload} bytes", "features: protocols=true, cli=true"]
  else ["greybus " ++ version]

end Report

end CportNode.Cli
