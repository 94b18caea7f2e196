import CportNode.Proofs.Frame
import CportNode.Stream.Reader

namespace CportNode

/-- What successive calls answer: first these answers, and then one error for ever. -/
structure Answers where
  early : List (Except MessageError Packet)
  ever : MessageError

namespace Answers

def first : Nat → Answers → List (Except MessageError Packet)
  | 0, _ => []
  | count + 1, ⟨[], e⟩ => .error e :: first count ⟨[], e⟩
  | count + 1, ⟨answer :: early, e⟩ => answer :: first count ⟨early, e⟩

def after (before : List (Except MessageError Packet)) (a : Answers) : Answers :=
  ⟨before ++ a.early, a.ever⟩

def behind (packets : List Packet) : Packet.Stop → Answers → Answers
  | .refused e, _ => ⟨packets.map .ok, e⟩
  | .incomplete, later => later.after (packets.map .ok)

def packets (a : Answers) : List Packet :=
  a.early.filterMap Except.toOption

end Answers

def Packet.Stop.error : Packet.Stop → MessageError
  | .incomplete => .connectionClosed
  | .refused e => e

def Packet.completed (limit : Nat) (before piece : Bytes) : List Packet :=
  (decodeAll limit (before ++ piece)).1.drop (decodeAll limit before).1.length

namespace Source

def bytes : Source → Bytes
  | [] => []
  | .fault _ :: rest => bytes rest
  | .data piece :: rest => piece ++ bytes rest

/-- The answers along a stream, `before` being all the data that has come already. -/
def answers (limit : Nat) (before : Bytes) : Source → Answers
  | [] => ⟨[], .connectionClosed⟩
  | .fault cause :: rest =>
    if cause.interruptedBySignal then answers limit before rest
    else (answers limit before rest).after [.error (.io cause)]
  | .data [] :: rest => (answers limit before rest).after [.error .connectionClosed]
  | .data (b :: piece) :: rest =>
    .behind (Packet.completed limit before (b :: piece))
      (Packet.decodeAll limit (before ++ b :: piece)).2.1 (answers limit (before ++ b :: piece) rest)

end Source

namespace Answers

@[simp] theorem behind_nil (later : Answers) : behind [] .incomplete later = later := rfl

@[simp] theorem behind_behind (packets packets' : List Packet) (stop : Packet.Stop)
    (later : Answers) : behind packets .incomplete (behind packets' stop later) =
      behind (packets ++ packets') stop later := by
  cases stop with
  | incomplete =>
    simp [behind, after]
  | refused e => simp [behind, after]

theorem behind_cons (p : Packet) (packets : List Packet) (stop : Packet.Stop) (later : Answers) :
    behind (p :: packets) stop later = (behind packets stop later).after [.ok p] := by
  cases stop <;> rfl

theorem filterMap_ok (packets : List Packet) :
    (packets.map (Except.ok : Packet → Except MessageError Packet)).filterMap Except.toOption =
      packets := by
  induction packets with
  | nil => rfl
  | cons p packets ih => exact congrArg (p :: ·) ih

@[simp] theorem packets_behind (packets : List Packet) (later : Answers) :
    (behind packets .incomplete later).packets = packets ++ later.packets := by
  rw [behind, after, Answers.packets, List.filterMap_append, filterMap_ok]
  rfl

@[simp] theorem packets_after (errors : List MessageError) (a : Answers) :
    (a.after (errors.map .error)).packets = a.packets := by
  induction errors with
  | nil => rfl
  | cons e errors ih => exact ih

end Answers

namespace Source

theorem read_error {source source' : Source} {cause : IoError}
    (h : source.read = (.error cause, source')) : source = .fault cause :: source' := by
  unfold read at h
  split at h
  · cases h
  · cases h
    rfl
  · split at h <;> cases h

theorem read_nil {source source' : Source} (h : source.read = (.ok [], source')) :
    source = [] ∧ source' = [] ∨ source = .data [] :: source' := by
  unfold read at h
  split at h
  · cases h
    exact .inl ⟨rfl, rfl⟩
  · cases h
  · rename_i piece rest
    split at h
    · cases h
      exact .inr rfl
    · rename_i large
      simp only [Prod.mk.injEq, Except.ok.injEq, List.take_eq_nil_iff] at h
      rcases h.1 with none | rfl
      · cases none
      · exact absurd (Nat.zero_le _) large

end Source

theorem Packet.completed_eq (limit : Nat) (before piece : Bytes) :
    completed limit before piece = (decodeAll limit ((decodeAll limit before).2.2 ++ piece)).1 := by
  rw [completed, decodeAll_append, List.drop_left]

theorem Packet.decodeAll_append_fst (limit : Nat) (before piece : Bytes) :
    (decodeAll limit (before ++ piece)).1 =
      (decodeAll limit before).1 ++ completed limit before piece := by
  rw [completed_eq, decodeAll_append]

theorem Source.answers_left (limit : Nat) (before : Bytes) (source : Source) :
    source.answers limit before = source.answers limit (Packet.decodeAll limit before).2.2 := by
  induction source generalizing before with
  | nil => rfl
  | cons item rest ih =>
    match item with
    | .fault cause => simp only [answers, ← ih before]
    | .data [] => simp only [answers, ← ih before]
    | .data (b :: piece) =>
      have left := congrArg (fun d => d.2.2) (Packet.decodeAll_left limit before)
      simp only at left
      simp only [answers, Packet.completed_eq, left]
      rw [ih (before ++ b :: piece), ih ((Packet.decodeAll limit before).2.2 ++ b :: piece),
        Packet.decodeAll_append limit before]

namespace Reader

def outlook (r : Reader) (source : Source) : Answers :=
  .behind (Packet.decodeAll r.limit r.buffer).1 (Packet.decodeAll r.limit r.buffer).2.1
    (source.answers r.limit r.buffer)

theorem outlook_error {r : Reader} {e : MessageError} (h : Packet.decode r.limit r.buffer = .error e)
    (source : Source) : r.outlook source = ⟨[], e⟩ := by
  rw [outlook, Packet.decodeAll_of_error h]
  rfl

theorem outlook_none {r : Reader} (h : Packet.decode r.limit r.buffer = .ok none)
    (source : Source) : r.outlook source = source.answers r.limit r.buffer := by
  simp [outlook, Packet.decodeAll_of_none h]

theorem outlook_some {r : Reader} {p : Packet} {rest : Bytes}
    (h : Packet.decode r.limit r.buffer = .ok (some (p, rest))) (source : Source) :
    r.outlook source = (outlook { r with buffer := rest } source).after [.ok p] := by
  rw [outlook, outlook, source.answers_left, source.answers_left r.limit rest,
    Packet.decodeAll_of_some h, Answers.behind_cons]

theorem outlook_data (r : Reader) (b : UInt8) (piece : Bytes) (rest : Source) :
    r.outlook (.data (b :: piece) :: rest) =
      outlook { r with buffer := r.buffer ++ b :: piece } rest := by
  simp only [outlook, Source.answers]
  cases stop : (Packet.decodeAll r.limit r.buffer).2.1 with
  | refused e =>
    rw [Packet.decodeAll_append_of_refused stop]
    rfl
  | incomplete =>
    simp [Packet.decodeAll_append_fst]

theorem outlook_read {r : Reader} {source source' : Source} {b : UInt8} {bytes : Bytes}
    (h : source.read = (.ok (b :: bytes), source')) :
    r.outlook source = outlook { r with buffer := r.buffer ++ b :: bytes } source' := by
  match source with
  | [] => simp [Source.read] at h
  | .fault cause :: rest => simp [Source.read] at h
  | .data piece :: rest =>
    simp only [Source.read] at h
    split at h
    · simp only [Prod.mk.injEq, Except.ok.injEq] at h
      obtain ⟨rfl, rfl⟩ := h
      exact outlook_data r b bytes rest
    · rename_i large
      simp only [Prod.mk.injEq, Except.ok.injEq] at h
      obtain ⟨taken, rfl⟩ := h
      have whole : piece = (b :: bytes) ++ piece.drop Source.chunkSize := by
        rw [← taken, List.take_append_drop]
      cases more : piece.drop Source.chunkSize with
      | nil =>
        have short := List.drop_eq_nil_iff.mp more
        omega
      | cons c later =>
        rw [whole, more, List.cons_append, outlook_data, outlook_data, List.append_assoc]
        rfl

theorem first_outlook {r r' : Reader} {source source' : Source} {answer : Except MessageError Packet}
    (h : r.next source = (answer, r', source')) (count : Nat) :
    (r.outlook source).first (count + 1) = answer :: (r'.outlook source').first count := by
  fun_induction next r source with
  | case1 r source e refused =>
    cases h
    rw [outlook_error refused]
    rfl
  | case2 r source p rest decoded =>
    cases h
    rw [outlook_some decoded]
    rfl
  | case3 r source waiting cause rest call interrupted ih =>
    rw [← ih h, outlook_none waiting, outlook_none waiting, Source.read_error call, Source.answers,
      if_pos interrupted]
  | case4 r source waiting cause rest call failed =>
    cases h
    rw [outlook_none waiting, outlook_none waiting, Source.read_error call, Source.answers,
      if_neg failed]
    rfl
  | case5 r source waiting rest call =>
    cases h
    rw [outlook_none waiting, outlook_none waiting]
    rcases Source.read_nil call with ⟨rfl, rfl⟩ | rfl <;> rfl
  | case6 r source waiting b bytes rest call ih => rw [outlook_read call, ih h]

theorem first_nextMany (count : Nat) (r : Reader) (source : Source) :
    (nextMany count r source).1 = (r.outlook source).first count := by
  induction count generalizing r source with
  | zero => rfl
  | succ count ih =>
    rw [first_outlook rfl, ← ih]
    rfl

@[simp] theorem outlook_fresh (limit : Nat) (source : Source) :
    (fresh limit).outlook source = source.answers limit [] :=
  outlook_none rfl source

theorem outlook_of_after {r : Reader} {source rest : Source} (errors : List MessageError)
    (h : source.answers r.limit r.buffer =
      (rest.answers r.limit r.buffer).after (errors.map .error)) :
    (r.outlook source).packets = (r.outlook rest).packets ∧
      (r.outlook source).ever = (r.outlook rest).ever := by
  rw [outlook, outlook, h]
  cases (Packet.decodeAll r.limit r.buffer).2.1 with
  | refused e => exact ⟨rfl, rfl⟩
  | incomplete =>
    refine ⟨?_, rfl⟩
    simp

theorem packets_outlook (r : Reader) (source : Source) :
    (r.outlook source).packets = (Packet.decodeAll r.limit (r.buffer ++ source.bytes)).1 ∧
      (r.outlook source).ever = (Packet.decodeAll r.limit (r.buffer ++ source.bytes)).2.1.error := by
  induction source generalizing r with
  | nil =>
    rw [outlook, Source.bytes, List.append_nil]
    cases (Packet.decodeAll r.limit r.buffer).2.1 with
    | refused e => exact ⟨Answers.filterMap_ok _, rfl⟩
    | incomplete =>
      refine ⟨?_, rfl⟩
      rw [Answers.packets_behind]
      exact List.append_nil _
  | cons item rest ih =>
    match item with
    | .fault cause =>
      have errors : Source.answers r.limit r.buffer (.fault cause :: rest) =
          (Source.answers r.limit r.buffer rest).after
            ((if cause.interruptedBySignal then [] else [.io cause]).map .error) := by
        rw [Source.answers]
        split <;> rfl
      obtain ⟨packets, ever⟩ := outlook_of_after _ errors
      rw [packets, ever]
      exact ih r
    | .data [] =>
      have errors : Source.answers r.limit r.buffer (.data [] :: rest) =
          (Source.answers r.limit r.buffer rest).after ([.connectionClosed].map .error) := rfl
      obtain ⟨packets, ever⟩ := outlook_of_after _ errors
      rw [packets, ever]
      exact ih r
    | .data (b :: piece) =>
      rw [outlook_data, Source.bytes, ← List.append_assoc]
      exact ih { r with buffer := r.buffer ++ b :: piece }

/-- Successive calls on a fresh reader answer what the stream's data, failures and empty reads say,
one after the other: nothing that has come is lost by a failure or an empty read.  The packets among
the answers are those of all the data in one piece, and if a header is refused among them, it is
refused for ever. -/
theorem nextMany_fresh (limit : Nat) (source : Source) (count : Nat) :
    (nextMany count (fresh limit) source).1 = (source.answers limit []).first count ∧
      (source.answers limit []).packets = (Packet.decodeAll limit source.bytes).1 ∧
      (source.answers limit []).ever = (Packet.decodeAll limit source.bytes).2.1.error := by
  have ⟨packets, ever⟩ := packets_outlook (fresh limit) source
  rw [outlook_fresh] at packets ever
  exact ⟨by simp [first_nextMany], packets, ever⟩

end Reader

end CportNode
