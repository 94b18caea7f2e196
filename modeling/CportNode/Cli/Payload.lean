import CportNode.Cli.Command
import CportNode.Cli.ExitStatus
import CportNode.Text.Lossy

namespace CportNode.Cli

abbrev Files := String → Except IoError Bytes

def isSeparator (b : UInt8) : Bool :=
  [0x20, 0x09, 0x0a, 0x0c, 0x0d, 0x3a].contains b

def charOf (b : UInt8) : Char :=
  Char.ofNat b.toNat

/-- The byte that a pair of digits writes.  A plus sign may take the place of the first. -/
def pairByte (a b : UInt8) : Except Failure UInt8 :=
  match Numeral.read? 16 256 [charOf a, charOf b] with
  | some n => .ok (UInt8.ofNat n)
  | none => .error ⟨.usage, "--hex has invalid digits: " ++ Lossy.text [a, b]⟩

def decodePairs : Bytes → Except Failure Bytes
  | [] => .ok []
  | [_] => .error ⟨.usage, "--hex needs an even number of digits"⟩
  | a :: b :: rest => do
    let byte ← pairByte a b
    let bytes ← decodePairs rest
    return byte :: bytes

/-- The number of digits is checked before the digits are. -/
def decodeHex (input : String) : Except Failure Bytes :=
  let digits := (Bytes.ofText input).filter fun b => !isSeparator b
  if digits.length % 2 = 0 then decodePairs digits
  else .error ⟨.usage, "--hex needs an even number of digits"⟩

def splitDuration (cs : List Char) : List Char × Bool :=
  match cs.reverse with
  | 's' :: 'm' :: number => (number.reverse, true)
  | 's' :: number => (number.reverse, false)
  | _ => (cs, false)

/-- A time in milliseconds, of at least one.  Without a unit it is in seconds. -/
def readDuration (input : String) : Except Failure Nat :=
  match trimBlanks input.toList with
  | [] => .error ⟨.usage, "duration must not be empty"⟩
  | trimmed =>
    let (number, milliseconds) := splitDuration trimmed
    match Numeral.read? 10 UInt64.size number with
    | none => .error ⟨.usage, "invalid duration value: " ++ String.ofList trimmed⟩
    | some 0 => .error ⟨.usage, "duration must be greater than zero"⟩
    | some n => .ok (if milliseconds then n else 1000 * n)

def PayloadSource.read (files : Files) : PayloadSource → Except Failure Bytes
  | nothing => .ok []
  | hex digits => decodeHex digits
  | data text => .ok (Bytes.ofText text)
  | file path =>
    match files path with
    | .ok bytes => .ok bytes
    | .error e => .error (.ofIo ("failed reading " ++ path) e)

end CportNode.Cli
