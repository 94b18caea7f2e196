import CportNode.Config.Basic

namespace CportNode

/-- Starts the worker as it is configured, or says why the system cannot. -/
abbrev Spawn := Config → Except IoError Unit

namespace Spawn

def invalidName : IoError :=
  ⟨.invalidInput, "thread name may not contain interior null bytes"⟩

/-- Past this the guard page next to the stack does not fit into an address. -/
def addressable : Nat := UInt64.size - 4096

def withMemory (memory : Nat) : Spawn := fun config =>
  if config.workerName.toList.contains '\x00' then .error invalidName
  else match config.workerStackSize with
    | none => .ok ()
    | some size =>
      if addressable ≤ size then .error .invalidArgument
      else if memory ≤ size then .error .resourceUnavailable
      else .ok ()

def usual : Spawn := withMemory (8 * UInt32.size)

end Spawn

end CportNode
