import CportNode.Bytes
import CportNode.IoError

namespace CportNode

abbrev Place := List String

inductive FileEntry
  | directory
  | file (data : Bytes)
  | socket (number : Nat)
  deriving DecidableEq

structure FileTree where
  /-- Where a path starts that does not start at the root. -/
  working : Place
  entry? : Place → Option FileEntry

namespace FileTree

def ofEntries (working : Place) (entries : List (Place × FileEntry)) : FileTree where
  working
  entry? place :=
    match entries.lookup place with
    | some entry => some entry
    | none =>
      if entries.any fun (below, _) => place.isPrefixOf below then some .directory else none

def maxPath : Nat := 4096

def maxName : Nat := 255

def hasNull (path : String) : Bool :=
  path.toList.contains '\x00'

def enter (t : FileTree) (place : Place) (name : String) : Except IoError Place :=
  if t.entry? place ≠ some .directory then .error .notADirectory
  else if name = "" ∨ name = "." then .ok place
  else if name = ".." then .ok place.dropLast
  else if maxName < name.utf8ByteSize then .error .nameTooLong
  else
    match t.entry? (place ++ [name]) with
    | some _ => .ok (place ++ [name])
    | none => .error .noSuchFile

def follow (t : FileTree) (path : String) (names : List String) : Except IoError Place :=
  names.foldlM t.enter (if path.startsWith "/" then [] else t.working)

def locate (t : FileTree) (path : String) : Except IoError Place :=
  if path = "" then .error .noSuchFile
  else if maxPath ≤ path.utf8ByteSize then .error .nameTooLong
  else t.follow path (path.splitOn "/")

def namesBefore (path : String) : List String :=
  ((path.splitOn "/").reverse.dropWhile (· = "")).tail.reverse

def hasParent (t : FileTree) (path : String) : Bool :=
  match t.follow path (namesBefore path) with
  | .ok place => path ≠ "" ∧ t.entry? place = some .directory
  | .error _ => false

def read (t : FileTree) (path : String) : Except IoError Bytes :=
  if hasNull path then .error ⟨.invalidInput, "file name contained an unexpected NUL byte"⟩
  else
    match t.locate path with
    | .error e => .error e
    | .ok place =>
      match t.entry? place with
      | some (.file data) => .ok data
      | some .directory => .error .directoryInTheWay
      | some (.socket _) => .error .noSuchDevice
      | none => .error .noSuchFile

end FileTree

end CportNode
