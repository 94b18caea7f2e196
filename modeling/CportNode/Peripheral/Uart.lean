import CportNode.ByteQueue

namespace CportNode.Uart

inductive StopBits
  | one
  | oneAndHalf
  | two
  deriving DecidableEq

inductive Parity
  | none
  | odd
  | even
  | mark
  | space
  deriving DecidableEq

inductive FlowControl
  | none
  | rtsCts
  deriving DecidableEq

structure LineCoding where
  baudRate : UInt32
  stopBits : StopBits
  parity : Parity
  dataBits : UInt8
  flowControl : FlowControl
  deriving DecidableEq

def StopBits.name : StopBits → String
  | one => "one"
  | oneAndHalf => "one-and-half"
  | two => "two"

def Parity.name : Parity → String
  | none => "none"
  | odd => "odd"
  | even => "even"
  | mark => "mark"
  | space => "space"

def FlowControl.name : FlowControl → String
  | none => "none"
  | rtsCts => "rts-cts"

def StopBits.ofWire? (value : UInt8) : Option StopBits :=
  match value.toNat with
  | 0 => some one
  | 1 => some oneAndHalf
  | 2 => some two
  | _ => .none

def Parity.ofWire? (value : UInt8) : Option Parity :=
  match value.toNat with
  | 0 => some .none
  | 1 => some .odd
  | 2 => some .even
  | 3 => some .mark
  | 4 => some .space
  | _ => Option.none

def FlowControl.ofWire? (value : UInt8) : Option FlowControl :=
  match value.toNat with
  | 0 => some .none
  | 1 => some .rtsCts
  | _ => Option.none

def dataBits? (value : UInt8) : Option UInt8 :=
  if 5 ≤ value ∧ value ≤ 9 then some value else none

def LineCoding.ofWire? : Bytes → Option LineCoding
  | b₀ :: b₁ :: b₂ :: b₃ :: stop :: parity :: data :: flow :: _ => do
    let stop ← StopBits.ofWire? stop
    let parity ← Parity.ofWire? parity
    let data ← dataBits? data
    let flow ← FlowControl.ofWire? flow
    return ⟨Bytes.word32 (Bytes.word16 b₀ b₁) (Bytes.word16 b₂ b₃), stop, parity, data, flow⟩
  | _ => none

inductive Handler
  | forward (cport : UInt16)
  | note (most : Nat)
  deriving DecidableEq

def Handler.chunk : Handler → Nat
  | forward _ => 64
  | note most => most

structure SerialLine where
  transmitted : ByteQueue
  received : ByteQueue
  coding : Option LineCoding
  dtr : Bool
  rts : Bool
  breaks : Nat
  receiving : Bool
  handler : Option Handler
  deriving DecidableEq

namespace SerialLine

def fresh : SerialLine := ⟨.empty, .empty, none, false, false, 0, false, none⟩

def read (l : SerialLine) (most : Nat) : Bytes × SerialLine :=
  let (data, received) := l.received.read most
  (data, { l with received })

end SerialLine

end CportNode.Uart
