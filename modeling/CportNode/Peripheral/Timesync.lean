namespace CportNode.Timesync

inductive Call
  | enable (count : UInt8) (frameTime : UInt64) (strobeDelay refclk : UInt32)
  | disable
  | authoritative (t₀ t₁ t₂ t₃ : UInt64)
  deriving DecidableEq

structure Source where
  lastEvent : UInt64
  calls : List Call
  deriving DecidableEq

def Source.record (s : Source) (c : Call) : Source :=
  { s with calls := s.calls ++ [c] }

end CportNode.Timesync
