import CportNode.Bytes

namespace CportNode.Lossy

def replacement : Char := '\uFFFD'

def isContinuation (b : UInt8) : Bool :=
  0x80 ≤ b && b ≤ 0xbf

def secondOk (first second : UInt8) : Bool :=
  if first = 0xe0 then 0xa0 ≤ second && second ≤ 0xbf
  else if first = 0xed then 0x80 ≤ second && second ≤ 0x9f
  else if first = 0xf0 then 0x90 ≤ second && second ≤ 0xbf
  else if first = 0xf4 then 0x80 ≤ second && second ≤ 0x8f
  else isContinuation second

def width? (first : UInt8) : Option Nat :=
  if first < 0x80 then some 1
  else if 0xc2 ≤ first ∧ first ≤ 0xdf then some 2
  else if 0xe0 ≤ first ∧ first ≤ 0xef then some 3
  else if 0xf0 ≤ first ∧ first ≤ 0xf4 then some 4
  else none

def char2 (a b : UInt8) : Char :=
  Char.ofNat (a.toNat % 32 * 64 + b.toNat % 64)

def char3 (a b c : UInt8) : Char :=
  Char.ofNat ((a.toNat % 16 * 64 + b.toNat % 64) * 64 + c.toNat % 64)

def char4 (a b c d : UInt8) : Char :=
  Char.ofNat (((a.toNat % 8 * 64 + b.toNat % 64) * 64 + c.toNat % 64) * 64 + d.toNat % 64)

def first (a : UInt8) (rest : Bytes) : Char × Nat :=
  match width? a, rest with
  | some 1, _ => (Char.ofNat a.toNat, 1)
  | some 2, b :: _ => if isContinuation b then (char2 a b, 2) else (replacement, 1)
  | some 3, b :: c :: _ =>
    if !secondOk a b then (replacement, 1)
    else if !isContinuation c then (replacement, 2)
    else (char3 a b c, 3)
  | some 4, b :: c :: d :: _ =>
    if !secondOk a b then (replacement, 1)
    else if !isContinuation c then (replacement, 2)
    else if !isContinuation d then (replacement, 3)
    else (char4 a b c d, 4)
  | some 4, [b, c] =>
    if !secondOk a b then (replacement, 1)
    else if !isContinuation c then (replacement, 2)
    else (replacement, 3)
  | some _, [b] => if secondOk a b then (replacement, 2) else (replacement, 1)
  | _, _ => (replacement, 1)

def decode : Bytes → List Char
  | [] => []
  | a :: rest =>
    let (c, taken) := first a rest
    c :: decode (rest.drop (taken - 1))
termination_by bytes => bytes.length
decreasing_by
  simp only [List.length_drop, List.length_cons]
  omega

def text (bytes : Bytes) : String :=
  String.ofList (decode bytes)

end CportNode.Lossy
