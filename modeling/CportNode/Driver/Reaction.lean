import CportNode.Message.Basic
import CportNode.Peripheral.Board

/-!
How drivers treat requests.  A driver first decodes a request, without touching anything; a request
that does not decode is refused with a status.  What does decode is carried out on the board, and
comes to a reaction.  Whether the host hears of it is not the driver's business: a one-shot request
is carried out like any other.
-/

namespace CportNode

inductive Reaction
  | done (payload : Bytes)
  | refused (status : Status)
  | quiet
  deriving DecidableEq

def Reaction.ofQuery {α : Type} (payload : α → Bytes) : Except DriverError α → Reaction
  | .ok a => done (payload a)
  | .error e => refused e.status

def Board.reactTo (b : Board) : Except DriverError Board → Reaction × Board
  | .ok b' => (.done [], b')
  | .error e => (.refused e.status, b)

def required {α : Type} : Option α → Except Status α
  | some a => .ok a
  | none => .error .invalid

end CportNode
