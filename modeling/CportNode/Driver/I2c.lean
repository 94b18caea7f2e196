import CportNode.Driver.Reaction

/-!
The I2C protocol.  A transfer is a list of operations, each on an address of its own.  Neighbouring
operations on one address are carried out as one transaction, and the first transaction that fails
ends the transfer; what came before it has happened.
-/

namespace CportNode.I2c

structure Descriptor where
  address : UInt16
  reads : Bool
  size : Nat
  deriving DecidableEq

structure Operation where
  address : UInt16
  leg : Leg
  deriving DecidableEq

inductive Request
  | functionality
  | transfer (operations : List Operation)
  deriving DecidableEq

def functionality : UInt32 := 0x0c7e0001

def readDescriptors : Nat → Bytes → Option (List Descriptor × Bytes)
  | 0, body => some ([], body)
  | count + 1, a₀ :: a₁ :: f₀ :: f₁ :: s₀ :: s₁ :: body => do
    let (descriptors, rest) ← readDescriptors count body
    let flags := Bytes.word16 f₀ f₁
    return (⟨Bytes.word16 a₀ a₁, flags &&& 1 != 0, (Bytes.word16 s₀ s₁).toNat⟩ :: descriptors, rest)
  | _ + 1, _ => none

def operations : List Descriptor → Bytes → List Operation
  | [], _ => []
  | d :: descriptors, data =>
    if d.reads then ⟨d.address, .read d.size⟩ :: operations descriptors data
    else ⟨d.address, .write (data.take d.size)⟩ :: operations descriptors (data.drop d.size)

def writeTotal (descriptors : List Descriptor) : Nat :=
  (descriptors.filter fun d => !d.reads).foldr (·.size + ·) 0

def readTotal (descriptors : List Descriptor) : Nat :=
  (descriptors.filter (·.reads)).foldr (·.size + ·) 0

def readTransfer (body : Bytes) : Except Status Request := do
  let (count, body) ← required (Bytes.takeWord16 body)
  let (descriptors, data) ← required (readDescriptors count.toNat body)
  if data.length < writeTotal descriptors then .error .invalid
  else if Message.maxPayload < readTotal descriptors then .error .overflow
  else .ok (.transfer (operations descriptors data))

def Request.decode (kind : UInt8) (body : Bytes) : Except Status Request :=
  match kind.toNat with
  | 0x02 => .ok functionality
  | 0x05 => readTransfer body
  | _ => .error .invalid

/-- The operations grouped into transactions: the longest runs on one address. -/
def transactions : List Operation → List (UInt16 × List Leg)
  | [] => []
  | op :: ops =>
    match transactions ops with
    | [] => [(op.address, [op.leg])]
    | (address, legs) :: rest =>
      if op.address = address then (address, op.leg :: legs) :: rest
      else (op.address, [op.leg]) :: (address, legs) :: rest

/-- Carries out transactions until one fails.  What all of them read, or the failure, and the board
as the last one left it. -/
def perform (b : Board) : List (UInt16 × List Leg) → Except DriverError Bytes × Board
  | [] => (.ok [], b)
  | (address, legs) :: rest =>
    match b.i2cTransfer address legs with
    | .error e => (.error e, b)
    | .ok (buffers, b) =>
      let (data, b) := perform b rest
      (data.map (buffers.flatten ++ ·), b)

def Request.execute (r : Request) (b : Board) : Reaction × Board :=
  match r with
  | functionality => (.done (Bytes.ofWord32 I2c.functionality), b)
  | transfer ops =>
    let (data, b) := perform b (transactions ops)
    (.ofQuery id data, b)

end CportNode.I2c
