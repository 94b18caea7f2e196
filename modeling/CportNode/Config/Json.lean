import CportNode.Config.Basic
import CportNode.Json.Draft
import CportNode.Json.Printer

/-!
Configurations as JSON.  A structure is written as an object with its fields in any order, or as an
array of its fields in their fixed order.  Fields are read in the order in which they stand, and the
first thing wrong is what is reported.
-/

namespace CportNode

/-- The members of a structure.  Items of an array take the names of the fields in turn; an item too
many gets a name that no field has. -/
def membersOf (names : List String) : Json → Except ConfigError (List (String × Json))
  | .object members => .ok members
  | .array items => .ok (name names items)
  | _ => .error .malformed
where
  name : List String → List Json → List (String × Json)
    | _, [] => []
    | [], item :: items => ("", item) :: name [] items
    | n :: names, item :: items => (n, item) :: name names items

def naturalBelow (bound : Nat) (j : Json) : Except ConfigError Nat :=
  match j.naturalBelow? bound with
  | some n => .ok n
  | none => .error .malformed

def byteOfJson (j : Json) : Except ConfigError UInt8 :=
  (naturalBelow 256 j).map UInt8.ofNat

def sizeOfJson (j : Json) : Except ConfigError Nat :=
  naturalBelow UInt64.size j

def textOfJson : Json → Except ConfigError String
  | .text s => .ok s
  | _ => .error .malformed

def optionalOfJson {α : Type} (value : Json → Except ConfigError α) :
    Json → Except ConfigError (Option α)
  | .null => .ok none
  | j => (value j).map some

def Protocol.ofJson : Json → Except ConfigError Protocol
  | .text name =>
    match ofName? name with
    | some p => .ok p
    | none => .error (.unknownProtocol name)
  | j => (byteOfJson j).map ofId

def Protocol.toJson : Protocol → Json
  | .unknown id => .natural id.toNat
  | p => .text p.name

def fillOnce {α : Type} (field : Option α) (value : Except ConfigError α) :
    Except ConfigError (Option α) :=
  match field with
  | some _ => .error .malformed
  | none => value.map some

namespace Row

def fieldNames : List String := ["bundle", "protocol"]

structure Fields where
  bundle : Option UInt8
  protocol : Option Protocol

def Fields.put (f : Fields) : String × Json → Except ConfigError Fields
  | ("bundle", j) => (fillOnce f.bundle (byteOfJson j)).map ({ f with bundle := · })
  | ("protocol", j) => (fillOnce f.protocol (Protocol.ofJson j)).map ({ f with protocol := · })
  | _ => .error .malformed

def Fields.toRow : Fields → Except ConfigError Row
  | ⟨some bundle, some protocol⟩ => .ok ⟨bundle, protocol⟩
  | _ => .error .malformed

def ofJson (j : Json) : Except ConfigError Row := do
  let members ← membersOf fieldNames j
  let fields ← members.foldlM Fields.put ⟨none, none⟩
  fields.toRow

def toJson (r : Row) : Json :=
  .object [("bundle", .natural r.bundle.toNat), ("protocol", r.protocol.toJson)]

end Row

namespace Config

def fieldNames : List String :=
  ["cports", "queue_capacity", "worker_name", "worker_stack_size", "manifest"]

structure Fields where
  cports : Option (List Row)
  queueCapacity : Option Nat
  workerName : Option String
  workerStackSize : Option (Option Nat)
  manifest : Option (Option Bytes)

def Fields.none : Fields := ⟨.none, .none, .none, .none, .none⟩

def rowsOfJson : Json → Except ConfigError (List Row)
  | .array items => items.mapM Row.ofJson
  | _ => .error .malformed

def pathOfJson (j : Json) : Except ConfigError Bytes :=
  (textOfJson j).map Bytes.ofText

def Fields.put (f : Fields) : String × Json → Except ConfigError Fields
  | ("cports", j) => (fillOnce f.cports (rowsOfJson j)).map ({ f with cports := · })
  | ("queue_capacity", j) =>
    (fillOnce f.queueCapacity (sizeOfJson j)).map ({ f with queueCapacity := · })
  | ("worker_name", j) => (fillOnce f.workerName (textOfJson j)).map ({ f with workerName := · })
  | ("worker_stack_size", j) =>
    (fillOnce f.workerStackSize (optionalOfJson sizeOfJson j)).map ({ f with workerStackSize := · })
  | ("manifest", j) =>
    (fillOnce f.manifest (optionalOfJson pathOfJson j)).map ({ f with manifest := · })
  | _ => .error .malformed

def Fields.toConfig (f : Fields) : Config where
  cports := f.cports.getD []
  queueCapacity := f.queueCapacity.getD defaultCapacity
  workerName := f.workerName.getD defaultWorkerName
  workerStackSize := f.workerStackSize.getD .none
  manifest := f.manifest.getD .none

def ofJson (j : Json) : Except ConfigError Config := do
  let members ← membersOf fieldNames j
  let fields ← members.foldlM Fields.put Fields.none
  return fields.toConfig

def ofText (text : String) : Except ConfigError Config := do
  let (tree, whole) := Json.read text
  let config ← ofJson tree
  if whole then
    config.check
    return config
  else .error .malformed

/-- No JSON text can hold a manifest path that is not text. -/
def toJson (c : Config) : Except ConfigError Json := do
  let manifest ← match c.manifest with
    | none => pure .null
    | some path =>
      match Bytes.toText? path with
      | some path => pure (.text path)
      | none => .error .manifestNotText
  return .object [
    ("cports", .array (c.cports.map Row.toJson)),
    ("queue_capacity", .natural c.queueCapacity),
    ("worker_name", .text c.workerName),
    ("worker_stack_size", match c.workerStackSize with
      | none => .null
      | some size => .natural size),
    ("manifest", manifest)]

def toText (c : Config) : Except ConfigError String :=
  c.toJson.map fun tree => String.ofList (Json.indented 0 tree)

end Config

end CportNode
