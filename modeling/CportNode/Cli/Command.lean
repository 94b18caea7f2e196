import CportNode.Bytes
import CportNode.Cli.Grammar
import CportNode.Text.Blank
import CportNode.Text.Numeral

namespace CportNode.Cli

inductive Format
  | json
  | table
  | pretty
  | raw
  deriving DecidableEq

namespace Format

def name : Format → String
  | json => "json"
  | table => "table"
  | pretty => "pretty"
  | raw => "raw"

def ofName? (name : String) : Option Format :=
  [json, table, pretty, raw].find? (·.name == name)

end Format

inductive PayloadSource
  | nothing
  | hex (digits : String)
  | data (text : String)
  | file (path : String)
  deriving DecidableEq

structure SendArgs where
  path : String
  cport : UInt16
  kind : UInt8
  payload : PayloadSource
  oneShot : Bool
  timeout : String
  deriving DecidableEq

inductive Command
  | serve (path config : String) (manifest : Option String)
  | send (args : SendArgs)
  | config (path : String)
  | version (extended : Bool)
  deriving DecidableEq

structure Invocation where
  command : Command
  format : Option Format
  deriving DecidableEq

def readNumber (input : String) : Except UsageError Nat :=
  let trimmed := trimBlanks input.toList
  let number := match trimmed with
    | '0' :: 'x' :: digits => Numeral.read? 16 UInt32.size digits
    | '0' :: 'X' :: digits => Numeral.read? 16 UInt32.size digits
    | digits => Numeral.read? 10 UInt32.size digits
  match number with
  | some n => .ok n
  | none => .error (.valueValidation ("invalid number: " ++ String.ofList trimmed))

def readByte (input : String) : Except UsageError UInt8 := do
  let n ← readNumber input
  if n < 256 then return UInt8.ofNat n
  else .error (.valueValidation (input ++ " does not fit in a byte"))

def readCport (input : String) : Except UsageError UInt16 := do
  let n ← readNumber input
  if n < 65536 then return UInt16.ofNat n
  else .error (.valueValidation (input ++ " is larger than 65535"))

def readFormat (input : String) : Except UsageError Format :=
  match Format.ofName? input with
  | some f => .ok f
  | none => .error .invalidValue

def textParameter (name : String) : Parameter := ⟨name, fun _ => .ok ()⟩

def pathParameter (name : String) : Parameter :=
  ⟨name, fun value => if value = "" then .error .invalidValue else .ok ()⟩

def parameterOf {α : Type} (name : String) (read : String → Except UsageError α) : Parameter :=
  ⟨name, fun value => (read value).map fun _ => ()⟩

def formatParameter : Parameter := parameterOf "format" readFormat

def subcommands : List String := ["serve", "send", "config", "version"]

def mainGrammar : Grammar := ⟨["help"], [formatParameter], [], [], subcommands ++ ["help"]⟩

def grammarOf (name : String) : Grammar :=
  match name with
  | "serve" =>
    ⟨["help"], [formatParameter, pathParameter "config", pathParameter "manifest"],
      [('c', "config")], [pathParameter "path"], []⟩
  | "send" =>
    ⟨["help", "oneshot"],
      [formatParameter, parameterOf "cport" readCport, parameterOf "type" readByte,
        textParameter "hex", textParameter "data", pathParameter "file", textParameter "timeout"],
      [], [pathParameter "path"], []⟩
  | "config" => ⟨["help"], [formatParameter], [], [pathParameter "path"], []⟩
  | _ => ⟨["help", "extended"], [formatParameter], [], [], []⟩

def Scan.require (s : Scan) (name : String) : Except UsageError String :=
  match s.value? name with
  | some value => .ok value
  | none => .error .missingRequiredArgument

def payloadOf (s : Scan) : Except UsageError PayloadSource :=
  match s.value? "hex", s.value? "data", s.value? "file" with
  | none, none, none => .ok .nothing
  | some digits, none, none => .ok (.hex digits)
  | none, some text, none => .ok (.data text)
  | none, none, some path => .ok (.file path)
  | _, _, _ => .error .argumentConflict

def defaultTimeout : String := "5s"

/-- Conflicts between parameters are reported before missing ones. -/
def commandOf (name : String) (s : Scan) : Except UsageError Command :=
  match name with
  | "serve" => do
    let path ← s.require "path"
    let config ← s.require "config"
    return .serve path config (s.value? "manifest")
  | "send" => do
    let payload ← payloadOf s
    let path ← s.require "path"
    let cport ← s.require "cport"
    let kind ← s.require "type"
    return .send {
      path
      cport := ← readCport cport
      kind := ← readByte kind
      payload
      oneShot := (s.value? "oneshot").isSome
      timeout := (s.value? "timeout").getD defaultTimeout }
  | "config" => do
    let path ← s.require "path"
    return .config path
  | _ => .ok (.version (s.value? "extended").isSome)

def helpOn : List String → UsageError
  | [] => .displayHelp
  | [name] => if mainGrammar.subcommands.contains name then .displayHelp else .invalidSubcommand
  | _ => .invalidSubcommand

def Invocation.parse (args : List String) : Except UsageError Invocation := do
  let (main, rest) ← mainGrammar.scan false (.start mainGrammar) args
  match rest with
  | none =>
    let main ← main.settle
    if main.found.isEmpty then .error .displayHelpOnMissingArgumentOrSubcommand
    else .error .missingSubcommand
  | some ("help", args) => .error (helpOn args)
  | some (name, args) =>
    let g := grammarOf name
    let (sub, _) ← g.scan false (.start g) args
    let sub ← sub.settle
    let command ← commandOf name sub
    let main ← main.settle
    let format := (sub.value? "format").orElse fun _ => main.value? "format"
    return ⟨command, format.bind Format.ofName?⟩

end CportNode.Cli
