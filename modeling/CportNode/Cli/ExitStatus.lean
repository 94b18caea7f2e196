import CportNode.Node.Error

namespace CportNode.Cli

inductive ExitCode
  | success
  | failure
  | operationFailed
  | linkFailed
  | configInvalid
  | permissionDenied
  | dataInvalid
  | usage
  | timeout
  | internal
  deriving DecidableEq

def ExitCode.toNat : ExitCode → Nat
  | success => 0
  | failure => 1
  | operationFailed => 2
  | linkFailed => 3
  | configInvalid => 40
  | permissionDenied => 50
  | dataInvalid => 60
  | usage => 64
  | timeout => 124
  | internal => 125

structure Failure where
  code : ExitCode
  message : String
  deriving DecidableEq

namespace Failure

def because (code : ExitCode) (context reason : String) : Failure :=
  ⟨code, context ++ ": " ++ reason⟩

def ofIo (context : String) (e : IoError) : Failure :=
  let code := match e.kind with
    | .permissionDenied => .permissionDenied
    | .timedOut => .timeout
    | .wouldBlock => .timeout
    | .connectionRefused => .failure
    | .notFound => .failure
    | _ => .internal
  because code context e.text

def ofMessage (context : String) : MessageError → Failure
  | .io cause => ofIo context cause
  | .payloadTooLarge size max =>
    because .dataInvalid context (MessageError.payloadTooLarge size max).text
  | .invalidSize declared min =>
    because .dataInvalid context (MessageError.invalidSize declared min).text
  | .connectionClosed => because .failure context MessageError.connectionClosed.text
  | .outOfMemory size => because .internal context (MessageError.outOfMemory size).text

def ofLink (context : String) : LinkError → Failure
  | .bind _ cause => ofIo context cause
  | .connect _ cause => ofIo context cause
  | .accept cause => ofIo context cause
  | .io cause => ofIo context cause
  | .message cause => ofMessage context cause
  | .pathTooLong path length max =>
    because .usage context (LinkError.pathTooLong path length max).text
  | e => because .linkFailed context e.text

def ofNode (context : String) : NodeError → Failure
  | .link cause => ofLink context cause
  | .message cause => ofMessage context cause
  | .config reason => because .configInvalid context (NodeError.config reason).text
  | .worker cause => ofIo context cause
  | e => because .internal context e.text

end Failure

end CportNode.Cli
