import Mathlib.Data.Stream.Init
import CportNode.Proofs.Chunking
import CportNode.Proofs.Grammar

namespace CportNode

namespace Packet

/-- The most bytes that a frame can have under a limit.  A header is awaited under any limit. -/
def largest (limit : Nat) : Nat :=
  max Message.headerSize (min limit Message.maxSize)

theorem declared_le (buffer : Bytes) : declared buffer ≤ Message.maxSize := by
  unfold declared
  split
  · rename_i lo hi _
    have := lo.toNat_lt
    have := hi.toNat_lt
    simp only [Message.maxSize]
    omega
  · exact Nat.zero_le _

theorem length_lt_of_decode_none {limit : Nat} {buffer : Bytes}
    (h : decode limit buffer = .ok none) : buffer.length < largest limit := by
  have declared := declared_le buffer
  rw [(grammar limit buffer).incomplete_iff] at h
  unfold largest
  omega

end Packet

def MessageError.IsRefusal : MessageError → Prop
  | payloadTooLarge _ _ => True
  | invalidSize _ _ => True
  | _ => False

def SourceItem.interrupts : SourceItem → Bool
  | .fault cause => cause.interruptedBySignal
  | .data _ => false

namespace Source

theorem length_le_of_read {source source' : Source} {bytes : Bytes}
    (h : source.read = (.ok bytes, source')) : bytes.length ≤ chunkSize := by
  match source with
  | [] =>
    cases h
    exact Nat.zero_le _
  | .fault _ :: _ => cases h
  | .data piece :: _ =>
    simp only [read] at h
    split at h
    · rename_i short
      cases h
      exact short
    · cases h
      exact List.length_take_le _ _

/-- A stream that never ends: each call gives what one call can take, and there is no end of calls
that are not interrupted. -/
structure Unending (stream : Stream' SourceItem) : Prop where
  pieces : ∀ i bytes, stream.get i = .data bytes → bytes.length ≤ chunkSize
  calm : ∀ i, ∃ j, i ≤ j ∧ (stream.get j).interrupts = false

theorem Unending.drop {stream : Stream' SourceItem} (h : Unending stream) (k : Nat) :
    Unending (stream.drop k) where
  pieces i bytes := h.pieces (i + k) bytes
  calm i := by
    obtain ⟨j, later, calm⟩ := h.calm (i + k)
    refine ⟨j - k, by omega, ?_⟩
    have same : j - k + k = j := by omega
    rwa [Stream'.get_drop, Nat.add_comm, same]

end Source

namespace Reader

def turn (r : Reader) (source : Source) : Option (Except MessageError Packet) × Reader × Source :=
  match Packet.decode r.limit r.buffer with
  | .error e => (some (.error e), r, source)
  | .ok (some (p, rest)) => (some (.ok p), { r with buffer := rest }, source)
  | .ok none =>
    match source.read with
    | (.error cause, source') =>
      if cause.interruptedBySignal then (none, r, source')
      else (some (.error (.io cause)), r, source')
    | (.ok [], source') => (some (.error .connectionClosed), r, source')
    | (.ok (b :: bytes), source') => (none, { r with buffer := r.buffer ++ b :: bytes }, source')

theorem next_eq_turn (r : Reader) (source : Source) :
    r.next source =
      match r.turn source with
      | (some answer, r', source') => (answer, r', source')
      | (none, r', source') => r'.next source' := by
  rw [turn]
  fun_cases next r source with
  | case1 e refused => simp only [refused]
  | case2 p rest decoded => simp only [decoded]
  | case3 waiting cause rest call interrupted => simp only [waiting, call, if_pos interrupted]
  | case4 waiting cause rest call failed => simp only [waiting, call, if_neg failed]
  | case5 waiting rest call => simp only [waiting, call]
  | case6 waiting b bytes rest call => simp only [waiting, call]

/-- The reader and the source after as many turns, call after call. -/
def turns : Nat → Reader → Source → Reader × Source
  | 0, r, source => (r, source)
  | count + 1, r, source => turns count (r.turn source).2.1 (r.turn source).2.2

theorem turns_add (count count' : Nat) (r : Reader) (source : Source) :
    turns (count + count') r source =
      turns count' (turns count r source).1 (turns count r source).2 := by
  induction count generalizing r source with
  | zero => rw [Nat.zero_add, turns]
  | succ count ih => rw [Nat.succ_add, turns, ih, turns]

theorem exists_turns_next (r : Reader) (source : Source) :
    ∃ count, turns count r source = (r.next source).2 := by
  fun_induction next r source with
  | case1 r source e refused => exact ⟨1, by simp only [turns, turn, refused]⟩
  | case2 r source p rest decoded => exact ⟨1, by simp only [turns, turn, decoded]⟩
  | case3 r source waiting cause rest call interrupted ih =>
    obtain ⟨count, same⟩ := ih
    exact ⟨count + 1, by simp [turns, turn, waiting, call, interrupted, same]⟩
  | case4 r source waiting cause rest call failed =>
    exact ⟨1, by simp only [turns, turn, waiting, call, if_neg failed]⟩
  | case5 r source waiting rest call =>
    exact ⟨1, by simp only [turns, turn, waiting, call]⟩
  | case6 r source waiting b bytes rest call ih =>
    obtain ⟨count, same⟩ := ih
    exact ⟨count + 1, by simp only [turns, turn, waiting, call, same]⟩

theorem exists_turns_nextMany (count : Nat) (r : Reader) (source : Source) :
    ∃ taken, turns taken r source = (nextMany count r source).2 := by
  induction count generalizing r source with
  | zero => exact ⟨0, rfl⟩
  | succ count ih =>
    obtain ⟨taken, first⟩ := exists_turns_next r source
    obtain ⟨taken', others⟩ := ih (r.next source).2.1 (r.next source).2.2
    exact ⟨taken + taken', by rw [turns_add, first, others, nextMany]⟩

/-- What one call takes is not added before the buffer has been found to lack it. -/
def Confined (r : Reader) : Prop :=
  r.buffer.length ≤ Packet.largest r.limit - 1 + Source.chunkSize

theorem Confined.turn {r : Reader} (h : r.Confined) (source : Source) :
    (r.turn source).2.1.Confined ∧ (r.turn source).2.1.limit = r.limit := by
  unfold Reader.turn
  split
  · exact ⟨h, rfl⟩
  · rename_i decoded
    have shorter := Packet.length_lt_of_decode decoded
    exact ⟨Nat.le_trans (Nat.le_of_lt shorter) h, rfl⟩
  · rename_i waiting
    split
    · split <;> exact ⟨h, rfl⟩
    · exact ⟨h, rfl⟩
    · rename_i call
      have before := Packet.length_lt_of_decode_none waiting
      have piece := Source.length_le_of_read call
      refine ⟨?_, rfl⟩
      simp only [Confined, List.length_append]
      omega

theorem Confined.turns {r : Reader} (h : r.Confined) (count : Nat) (source : Source) :
    (Reader.turns count r source).1.Confined ∧
      (Reader.turns count r source).1.limit = r.limit := by
  induction count generalizing r source with
  | zero => exact ⟨h, rfl⟩
  | succ count ih =>
    obtain ⟨confined, same⟩ := h.turn source
    obtain ⟨later, limit⟩ := ih confined (r.turn source).2.2
    exact ⟨later, limit.trans same⟩

theorem turn_of_decode {r : Reader} (ready : Packet.decode r.limit r.buffer ≠ .ok none) :
    ∃ answer r', ∀ source, r.turn source = (some answer, r', source) := by
  cases decoded : Packet.decode r.limit r.buffer with
  | error e => exact ⟨.error e, r, fun source => by rw [turn, decoded]⟩
  | ok found =>
    cases found with
    | some pair =>
      exact ⟨.ok pair.1, { r with buffer := pair.2 }, fun source => by rw [turn, decoded]⟩
    | none => exact absurd decoded ready

theorem turn_cons {r : Reader} (waiting : Packet.decode r.limit r.buffer = .ok none)
    {item : SourceItem} (short : ∀ bytes, item = .data bytes → bytes.length ≤ Source.chunkSize) :
    (∃ answer, ∀ more, r.turn (item :: more) = (some answer, r, more)) ∨
      (item.interrupts = true ∧ ∀ more, r.turn (item :: more) = (none, r, more)) ∨
      ∃ b bytes, ∀ more,
        r.turn (item :: more) = (none, { r with buffer := r.buffer ++ b :: bytes }, more) := by
  cases item with
  | fault cause =>
    cases interrupted : cause.interruptedBySignal with
    | false =>
      refine .inl ⟨.error (.io cause), fun more => ?_⟩
      simp [turn, waiting, Source.read, interrupted]
    | true =>
      refine .inr (.inl ⟨interrupted, fun more => ?_⟩)
      simp [turn, waiting, Source.read, interrupted]
  | data piece =>
    cases piece with
    | nil => exact .inl ⟨.error .connectionClosed, fun more => by rw [turn, waiting]; rfl⟩
    | cons b bytes =>
      refine .inr (.inr ⟨b, bytes, fun more => ?_⟩)
      simp only [turn, waiting, Source.read, if_pos (short _ rfl)]

theorem exists_next_of_calm (r : Reader) {stream : Stream' SourceItem}
    (h : Source.Unending stream) (j : Nat) (calm : (stream.get j).interrupts = false) :
    ∃ k answer r', ∀ more, r.next (stream.take k ++ more) = (answer, r', more) := by
  have taken (k : Nat) (more : Source) :
      stream.take (k + 1) ++ more = stream.get 0 :: ((stream.drop 1).take k ++ more) := rfl
  by_cases waiting : Packet.decode r.limit r.buffer = .ok none
  · rcases turn_cons waiting (h.pieces 0) with ⟨answer, turned⟩ | ⟨interrupted, turned⟩ |
      ⟨b, bytes, turned⟩
    · exact ⟨1, answer, r, fun more => by rw [taken, next_eq_turn, turned]; rfl⟩
    · have later : 0 < j := Nat.pos_of_ne_zero fun now => by
        rw [now, interrupted] at calm
        cases calm
      have calm' : ((stream.drop 1).get (j - 1)).interrupts = false := by
        rwa [Stream'.get_drop, Nat.add_sub_cancel' later]
      obtain ⟨k, answer, r', returns⟩ := exists_next_of_calm r (h.drop 1) (j - 1) calm'
      exact ⟨k + 1, answer, r', fun more => by rw [taken, next_eq_turn, turned]; exact returns more⟩
    · have lacking := Packet.length_lt_of_decode_none waiting
      have grown : (r.buffer ++ b :: bytes).length = r.buffer.length + (bytes.length + 1) := by
        rw [List.length_append, List.length_cons]
      obtain ⟨j', -, calm'⟩ := (h.drop 1).calm 0
      obtain ⟨k, answer, r', returns⟩ :=
        exists_next_of_calm { r with buffer := r.buffer ++ b :: bytes } (h.drop 1) j' calm'
      exact ⟨k + 1, answer, r', fun more => by rw [taken, next_eq_turn, turned]; exact returns more⟩
  · obtain ⟨answer, r', turned⟩ := turn_of_decode waiting
    exact ⟨0, answer, r', fun more => by rw [next_eq_turn, turned]; rfl⟩
termination_by (Packet.largest r.limit - r.buffer.length, j)
decreasing_by
  · exact .right _ (by omega)
  · exact .left _ _ (by omega)

theorem exists_next (r : Reader) {stream : Stream' SourceItem} (h : Source.Unending stream) :
    ∃ k answer r', ∀ more, r.next (stream.take k ++ more) = (answer, r', more) := by
  obtain ⟨j, -, calm⟩ := h.calm 0
  exact r.exists_next_of_calm h j calm

theorem nextMany_succ (count : Nat) (r : Reader) (source : Source) :
    nextMany (count + 1) r source =
      let before := nextMany count r source
      let last := before.2.1.next before.2.2
      (before.1 ++ [last.1], last.2) := by
  induction count generalizing r source with
  | zero => rfl
  | succ count ih =>
    let first := r.next source
    calc nextMany (count + 2) r source
        = (first.1 :: (nextMany (count + 1) first.2.1 first.2.2).1,
            (nextMany (count + 1) first.2.1 first.2.2).2) := rfl
      _ = _ := by
        rw [ih]
        rfl

theorem exists_nextMany (count : Nat) (r : Reader) {stream : Stream' SourceItem}
    (h : Source.Unending stream) :
    ∃ k answers r', ∀ more, nextMany count r (stream.take k ++ more) = (answers, r', more) := by
  induction count with
  | zero => exact ⟨0, [], r, fun more => rfl⟩
  | succ count ih =>
    obtain ⟨k, answers, r₁, earlier⟩ := ih
    obtain ⟨k', answer, r', last⟩ := r₁.exists_next (h.drop k)
    refine ⟨k + k', answers ++ [answer], r', fun more => ?_⟩
    simp [nextMany_succ, Stream'.take_add, earlier, last]

theorem next_of_refused {r r' : Reader} {source source' : Source} {e : MessageError}
    (h : r.next source = (.error e, r', source')) (refusal : e.IsRefusal) (later : Source) :
    r'.next later = (.error e, r', later) := by
  fun_induction next r source with
  | case1 r source e refused =>
    cases h
    rw [next_eq_turn, turn, refused]
  | case2 => cases h
  | case3 r source waiting cause rest call interrupted ih => exact ih h
  | case4 =>
    cases h
    cases refusal
  | case5 =>
    cases h
    cases refusal
  | case6 r source waiting b bytes rest call ih => exact ih h

theorem nextMany_of_refused {r r' : Reader} {source source' : Source} {e : MessageError}
    (h : r.next source = (.error e, r', source')) (refusal : e.IsRefusal) (count : Nat)
    (later : Source) : nextMany count r' later = (List.replicate count (.error e), r', later) := by
  induction count with
  | zero => rfl
  | succ count ih =>
    rw [nextMany, next_of_refused h refusal later]
    simp only [ih, List.replicate_succ]

theorem next_of_getLast? {count : Nat} {r r' : Reader} {source source' : Source}
    {answers : List (Except MessageError Packet)} {answer : Except MessageError Packet}
    (h : nextMany count r source = (answers, r', source')) (last : answers.getLast? = some answer) :
    ∃ r₁ source₁, next r₁ source₁ = (answer, r', source') := by
  cases count with
  | zero =>
    cases h
    cases last
  | succ count =>
    rw [nextMany_succ] at h
    obtain ⟨grown, after⟩ := Prod.mk.inj h
    rw [← grown, List.getLast?_concat, Option.some.injEq] at last
    exact ⟨_, _, Prod.ext last after⟩

/-- A stream hands out whatever it wants, without end.  Each call on a fresh reader returns, and has
then taken only a part of the stream off it; all calls together are turns of one loop, and before
and after each of these turns the buffer holds less than the largest frame and one piece.  Once a
header has been refused, all later calls answer so and leave the stream alone. -/
theorem withstands_unending (limit : Nat) {stream : Stream' SourceItem}
    (h : Source.Unending stream) :
    (∀ count, ∃ k answers r',
      (∀ more, nextMany count (fresh limit) (stream.take k ++ more) = (answers, r', more)) ∧
      ∀ e, answers.getLast? = some (.error e) → e.IsRefusal → ∀ later more,
        nextMany later r' more = (List.replicate later (.error e), r', more)) ∧
    (∀ count source, ∃ taken,
      turns taken (fresh limit) source = (nextMany count (fresh limit) source).2) ∧
    ∀ taken source, (turns taken (fresh limit) source).1.buffer.length ≤
      max 8 (min limit 65535) - 1 + 8192 := by
  refine ⟨fun count => ?_, fun count source => ?_, fun taken source => ?_⟩
  · obtain ⟨k, answers, r', returns⟩ := exists_nextMany count (fresh limit) h
    refine ⟨k, answers, r', returns, fun e last refusal later more => ?_⟩
    obtain ⟨r₁, source₁, refused⟩ := next_of_getLast? (returns []) last
    exact nextMany_of_refused refused refusal later more
  · exact exists_turns_nextMany count (fresh limit) source
  · have empty : (fresh limit).Confined := Nat.zero_le _
    obtain ⟨confined, same⟩ := empty.turns taken source
    rwa [Confined, same] at confined

def stutter : Stream' SourceItem := fun i =>
  if i % 2 = 0 then .fault (.ofKind .interrupted) else .data (List.replicate 8 0)

theorem unending_stutter : Source.Unending stutter where
  pieces i bytes item := by
    change (if i % 2 = 0 then _ else _) = _ at item
    split at item
    · cases item
    · cases item
      decide
  calm i := by
    refine ⟨2 * i + 1, by omega, ?_⟩
    have odd : ¬(2 * i + 1) % 2 = 0 := by omega
    change SourceItem.interrupts (if _ then _ else _) = false
    rw [if_neg odd]
    rfl

theorem withstands_stutter : ∃ k r',
    (∀ more, nextMany 1 (fresh 64) (stutter.take k ++ more) =
      ([.error (.invalidSize 0 8)], r', more)) ∧
    ∀ later more, nextMany later r' more =
      (List.replicate later (.error (.invalidSize 0 8)), r', more) := by
  obtain ⟨k, answers, r', returns, final⟩ := (withstands_unending 64 unending_stutter).1 1
  have refused (more : Source) : (nextMany 1 (fresh 64) (stutter.take 2 ++ more)).1 =
      [.error (.invalidSize 0 8)] := by
    show [((fresh 64).next _).1] = _
    rw [next_eq_turn]
    show [((fresh 64).next _).1] = _
    rw [next_eq_turn]
    show [(Reader.next ⟨64, List.replicate 8 0⟩ _).1] = _
    rw [next_eq_turn]
    rfl
  have same : answers = [.error (.invalidSize 0 8)] := by
    have both := congrArg Prod.fst (returns ((stutter.drop k).take 2))
    rwa [← Stream'.take_add, Nat.add_comm, Stream'.take_add, refused, eq_comm] at both
  subst same
  exact ⟨k, r', returns, final _ rfl trivial⟩

end Reader

end CportNode
