import CportNode.Config.Basic
import CportNode.Driver.Basic
import CportNode.Node.Error

/-!
The table of cports: one slot for each row of the configuration, in its order.  Rows never change;
what changes is the driver bound to a slot, and whether requests already queued for it are to be
discarded.  A slot is draining from the time its driver is being unbound until another is bound.
-/

namespace CportNode

structure Slot where
  row : Row
  driver : Option Driver
  draining : Bool

structure Registry where
  slots : Array Slot

structure CportInfo where
  cport : UInt16
  bundle : UInt8
  protocol : Protocol
  driver : Option String
  draining : Bool
  deriving DecidableEq

inductive Route
  | driver (d : Driver)
  | draining
  | unbound

namespace Slot

def fresh (row : Row) : Slot := ⟨row, none, false⟩

def info (s : Slot) (cport : UInt16) : CportInfo :=
  ⟨cport, s.row.bundle, s.row.protocol, s.driver.map (·.name), s.draining⟩

def bind (d : Driver) (s : Slot) : Slot :=
  { s with driver := some d, draining := false }

def beginTeardown (s : Slot) : Slot :=
  { s with draining := true }

def unbind (s : Slot) : Slot :=
  { s with driver := none }

def update (d : Driver) (s : Slot) : Slot :=
  { s with driver := s.driver.map fun _ => d }

def route (s : Slot) : Route :=
  if s.draining then .draining
  else match s.driver with
    | some d => .driver d
    | none => .unbound

end Slot

namespace Registry

def ofRows (rows : List Row) : Registry :=
  ⟨(rows.map Slot.fresh).toArray⟩

def size (r : Registry) : Nat :=
  r.slots.size

def slot? (r : Registry) (cport : UInt16) : Option Slot :=
  r.slots[cport.toNat]?

def driver? (r : Registry) (cport : UInt16) : Option Driver :=
  (r.slot? cport).bind (·.driver)

def isBound (r : Registry) (cport : UInt16) : Bool :=
  (r.driver? cport).isSome

def info? (r : Registry) (cport : UInt16) : Option CportInfo :=
  (r.slot? cport).map (·.info cport)

def snapshot (r : Registry) : List CportInfo :=
  (r.slots.mapIdx fun i s => s.info (UInt16.ofNat i)).toList

def find? (r : Registry) (bundle : UInt8) (protocol : Protocol) : Option UInt16 :=
  (r.slots.findIdx? fun s => s.row = ⟨bundle, protocol⟩).map UInt16.ofNat

def boundCports (r : Registry) : List UInt16 :=
  let bound (i : Nat) (s : Slot) : Option UInt16 := s.driver.map fun _ => UInt16.ofNat i
  (r.slots.mapIdx bound).toList.filterMap id

def route (r : Registry) (cport : UInt16) : Route :=
  match r.slot? cport with
  | some s => s.route
  | none => .unbound

def modify (r : Registry) (cport : UInt16) (change : Slot → Slot) : Registry :=
  ⟨r.slots.modify cport.toNat change⟩

def admits (r : Registry) (cport : UInt16) (bundle : UInt8) : Except NodeError Unit :=
  match r.slot? cport with
  | none => .error (.invalidCport cport)
  | some s =>
    if s.row.bundle ≠ bundle then .error (.foreignBundle cport s.row.bundle bundle)
    else match s.driver with
      | some d => .error (.alreadyBound cport d.name)
      | none => .ok ()

def requireBound (r : Registry) (cport : UInt16) : Except NodeError Driver :=
  match r.slot? cport with
  | none => .error (.invalidCport cport)
  | some s =>
    match s.driver with
    | some d => .ok d
    | none => .error (.notBound cport)

def requireRange (r : Registry) (cport : UInt16) : Except NodeError Unit :=
  if cport.toNat < r.size then .ok () else .error (.invalidCport cport)

end Registry

end CportNode
