namespace CportNode

structure OperationIds where
  upcoming : UInt16
  deriving DecidableEq

namespace OperationIds

def start : OperationIds := ⟨1⟩

def startingAt (id : UInt16) : OperationIds :=
  ⟨if id = 0 then 1 else id⟩

def draw (ids : OperationIds) : UInt16 × OperationIds :=
  (ids.upcoming, ⟨if ids.upcoming = 65535 then 1 else ids.upcoming + 1⟩)

def advance : Nat → OperationIds → OperationIds
  | 0, ids => ids
  | count + 1, ids => advance count ids.draw.2

end OperationIds

end CportNode
