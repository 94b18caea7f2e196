import CportNode.Message.Frame

/-!
Writing packets to a byte stream that may take only part of what it is offered, ask to be called
again, or fail.

A `Sink` is what a stream is going to do with the coming calls, and what it has taken so far; calls
that nothing is said about succeed.  A write sends one frame and flushes.  A frame that was cut
short by a failure is not finished later: the next frame is appended to its stump.
-/

namespace CportNode

inductive WriteOutcome
  | accept (most : Nat)
  | fault (cause : IoError)
  deriving DecidableEq

structure Sink where
  writes : List (Option WriteOutcome)
  flushes : List (Option IoError)
  taken : Bytes
  writeCalls : Nat
  flushCalls : Nat
  deriving DecidableEq

namespace Sink

def fresh (writes : List (Option WriteOutcome)) (flushes : List (Option IoError)) : Sink :=
  ⟨writes, flushes, [], 0, 0⟩

def writeAll : List (Option WriteOutcome) → Sink → Bytes → Except MessageError Unit × Sink
  | writes, sink, [] => (.ok (), { sink with writes })
  | [], sink, b :: bytes =>
    (.ok (), { sink with
      writes := [], taken := sink.taken ++ b :: bytes, writeCalls := sink.writeCalls + 1 })
  | none :: writes, sink, b :: bytes =>
    (.ok (), { sink with
      writes, taken := sink.taken ++ b :: bytes, writeCalls := sink.writeCalls + 1 })
  | some (.accept 0) :: writes, sink, _ :: _ =>
    (.error .connectionClosed, { sink with writes, writeCalls := sink.writeCalls + 1 })
  | some (.accept (most + 1)) :: writes, sink, b :: bytes =>
    writeAll writes
      { sink with taken := sink.taken ++ b :: bytes.take most, writeCalls := sink.writeCalls + 1 }
      (bytes.drop most)
  | some (.fault cause) :: writes, sink, b :: bytes =>
    let sink := { sink with writeCalls := sink.writeCalls + 1 }
    if cause.passing then writeAll writes sink (b :: bytes)
    else (.error (.io cause), { sink with writes })

def flushAll : List (Option IoError) → Sink → Except MessageError Unit × Sink
  | [], sink => (.ok (), { sink with flushes := [], flushCalls := sink.flushCalls + 1 })
  | none :: flushes, sink => (.ok (), { sink with flushes, flushCalls := sink.flushCalls + 1 })
  | some cause :: flushes, sink =>
    let sink := { sink with flushCalls := sink.flushCalls + 1 }
    if cause.passing then flushAll flushes sink else (.error (.io cause), { sink with flushes })

def flush (sink : Sink) : Except MessageError Unit × Sink :=
  flushAll sink.flushes sink

def send (sink : Sink) (p : Packet) : Except MessageError Unit × Sink :=
  match writeAll sink.writes sink p.encode with
  | (.ok (), sink) => sink.flush
  | (.error e, sink) => (.error e, sink)

end Sink

end CportNode
