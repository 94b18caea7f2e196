import CportNode.Message.Frame

/-!
Reading packets from a byte stream that delivers its bytes in pieces and may fail between them.

A `Source` is what a stream is going to do: hand out pieces of data, at most `chunkSize` bytes to a
call, or fail a call.  An empty piece reads as the end of the stream for that call, and so does the
end of the source.  The reader keeps what it has received across failures.
-/

namespace CportNode

inductive SourceItem
  | data (bytes : Bytes)
  | fault (cause : IoError)
  deriving DecidableEq

abbrev Source := List SourceItem

namespace Source

def chunkSize : Nat := 8192

def read : Source → Except IoError Bytes × Source
  | [] => (.ok [], [])
  | .fault cause :: rest => (.error cause, rest)
  | .data bytes :: rest =>
    if bytes.length ≤ chunkSize then (.ok bytes, rest)
    else (.ok (bytes.take chunkSize), .data (bytes.drop chunkSize) :: rest)

def weight : Source → Nat
  | [] => 0
  | .fault _ :: rest => weight rest + 1
  | .data bytes :: rest => bytes.length + weight rest + 1

theorem weight_read (s : Source) (h : s ≠ []) : weight (read s).2 < weight s := by
  match s with
  | .fault _ :: rest => simp only [read, weight]; omega
  | .data bytes :: rest =>
    simp only [read]
    split
    · simp only [weight]; omega
    · rename_i large
      simp only [weight, List.length_drop, chunkSize] at *
      omega

theorem length_add_weight_read {s s' : Source} {bytes : Bytes} (h : read s = (.ok bytes, s')) :
    bytes.length + weight s' ≤ weight s := by
  match s with
  | [] =>
    simp only [read, Prod.mk.injEq, Except.ok.injEq] at h
    obtain ⟨rfl, rfl⟩ := h
    simp
  | .fault _ :: rest => simp only [read, Prod.mk.injEq, reduceCtorEq, false_and] at h
  | .data piece :: rest =>
    simp only [read] at h
    split at h
    · simp only [Prod.mk.injEq, Except.ok.injEq] at h
      obtain ⟨rfl, rfl⟩ := h
      simp only [weight]
      omega
    · rename_i large
      simp only [Prod.mk.injEq, Except.ok.injEq] at h
      obtain ⟨rfl, rfl⟩ := h
      simp only [weight, List.length_take, List.length_drop, chunkSize] at *
      omega

end Source

structure Reader where
  limit : Nat
  buffer : Bytes
  deriving DecidableEq

namespace Reader

def fresh (limit : Nat) : Reader := ⟨limit, []⟩

/-- The next packet, with the reader and the source after it.  A call that was interrupted is
repeated; any other failure, and the end of the stream, end this call only. -/
def next (r : Reader) (source : Source) : Except MessageError Packet × Reader × Source :=
  match Packet.decode r.limit r.buffer with
  | .error e => (.error e, r, source)
  | .ok (some (p, rest)) => (.ok p, { r with buffer := rest }, source)
  | .ok none =>
    match _call : source.read with
    | (.error cause, source') =>
      if cause.interruptedBySignal then next r source'
      else (.error (.io cause), r, source')
    | (.ok [], source') => (.error .connectionClosed, r, source')
    | (.ok (b :: bytes), source') => next { r with buffer := r.buffer ++ b :: bytes } source'
termination_by Source.weight source
decreasing_by
  all_goals
    have hne : source ≠ [] := by
      rintro rfl
      simp [Source.read] at _call
    have := Source.weight_read source hne
    rw [_call] at this
    exact this

theorem length_lt_of_next {r r' : Reader} {source source' : Source} {p : Packet}
    (h : next r source = (.ok p, r', source')) :
    r'.buffer.length + source'.weight < r.buffer.length + source.weight := by
  fun_induction next r source with
  | case1 => simp only [Prod.mk.injEq, reduceCtorEq, false_and] at h
  | case2 r source p rest decoded =>
    simp only [Prod.mk.injEq, Except.ok.injEq] at h
    obtain ⟨-, rfl, rfl⟩ := h
    have := Packet.length_lt_of_decode decoded
    simp only
    omega
  | case3 r source _ cause rest call _ ih =>
    have nonempty : source ≠ [] := by
      rintro rfl
      simp [Source.read] at call
    have shorter := Source.weight_read source nonempty
    simp only [call] at shorter
    have := ih h
    omega
  | case4 => simp only [Prod.mk.injEq, reduceCtorEq, false_and] at h
  | case5 => simp only [Prod.mk.injEq, reduceCtorEq, false_and] at h
  | case6 r source _ b bytes rest call ih =>
    have kept := Source.length_add_weight_read call
    have := ih h
    simp only [List.length_append, List.length_cons] at *
    omega

def nextMany : Nat → Reader → Source → List (Except MessageError Packet) × Reader × Source
  | 0, r, source => ([], r, source)
  | count + 1, r, source =>
    let (answer, r, source) := next r source
    let (answers, r, source) := nextMany count r source
    (answer :: answers, r, source)

end Reader

end CportNode
