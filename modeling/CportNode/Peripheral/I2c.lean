import CportNode.ByteQueue
import CportNode.Driver.Error

namespace CportNode.I2c

inductive Leg
  | read (length : Nat)
  | write (data : Bytes)
  deriving DecidableEq

structure Bus where
  store : UInt16 → ByteQueue
  absent : UInt16 → Bool
  /-- The address of every transaction so far. -/
  transactions : List UInt16

namespace Bus

def fresh : Bus := ⟨fun _ => .empty, fun _ => false, []⟩

def contents (b : Bus) (address : UInt16) : Bytes :=
  (b.store address).toBytes

def setStore (b : Bus) (address : UInt16) (store : ByteQueue) : Bus :=
  { b with store := fun a => if a = address then store else b.store a }

def load (b : Bus) (address : UInt16) (data : Bytes) : Bus :=
  b.setStore address (.ofBytes data)

def remove (b : Bus) (address : UInt16) : Bus :=
  { b with absent := fun a => a = address || b.absent a }

/-- What the legs of a transaction read from a store, one buffer a read, and the store after
them. -/
def runLegs : List Leg → ByteQueue → List Bytes × ByteQueue
  | [], store => ([], store)
  | .write data :: legs, store => runLegs legs (store.append data)
  | .read length :: legs, store =>
    let store := store.reaching length
    let (buffers, final) := runLegs legs store
    (Bytes.padTo length store.front :: buffers, final)

def transfer (b : Bus) (address : UInt16) (legs : List Leg) :
    Except DriverError (List Bytes × Bus) :=
  if b.absent address then .error .noDevice
  else
    let (buffers, store) := runLegs legs (b.store address)
    .ok (buffers, { b.setStore address store with transactions := b.transactions ++ [address] })

end Bus

end CportNode.I2c
