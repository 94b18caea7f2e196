import CportNode.FileTree
import CportNode.Link.Error

namespace CportNode

inductive PathEntry
  /-- Nothing, but a socket can be made there. -/
  | absent
  /-- Nothing, nor can anything be made there. -/
  | unreachable (cause : IoError)
  | socket (number : Nat)
  | other
  deriving DecidableEq

/-- Where the path leads nowhere, a socket can be made if only the last name is missing.  The name
of a file is taken even if slashes follow it. -/
def PathEntry.find (t : FileTree) (path : String) : PathEntry :=
  if FileTree.hasNull path then
    .unreachable ⟨.invalidInput, "paths must not contain interior null bytes"⟩
  else
    match t.locate path with
    | .ok place =>
      match t.entry? place with
      | some (.socket number) => .socket number
      | _ => .other
    | .error cause =>
      match t.hasParent path, path.endsWith "/" with
      | true, false => if cause = .noSuchFile then .absent else .unreachable cause
      | true, true => .unreachable (if cause = .notADirectory then .addressInUse else cause)
      | false, _ => .unreachable cause

structure SocketFile where
  path : String
  number : Nat
  mode : Nat
  deriving DecidableEq

namespace SocketFile

def maxPath : Nat := 108

def defaultMode : Nat := 0o600

def bind (path : String) (mode number : Nat) (found : PathEntry) : Except LinkError SocketFile :=
  if maxPath ≤ path.utf8ByteSize then .error (.pathTooLong path path.utf8ByteSize maxPath)
  else
    match found with
    | .absent => .ok ⟨path, number, mode⟩
    | .socket _ => .ok ⟨path, number, mode⟩
    | .unreachable cause => .error (.bind path cause)
    | .other => .error (.bind path ⟨.alreadyExists, "existing path is not a unix socket"⟩)

def release (f : SocketFile) (found : PathEntry) : PathEntry :=
  if found = .socket f.number then .absent else found

def connect (path : String) (found : PathEntry) : Except LinkError Unit :=
  match found with
  | .socket _ => .ok ()
  | .other => .error (.connect path .refused)
  | .absent => .error (.connect path .noSuchFile)
  | .unreachable cause => .error (.connect path cause)

end SocketFile

end CportNode
