import CportNode.Proofs.Frame
import CportNode.Stream.Writer

/-!
What a stream holds after packets have been written to it, whatever it did with the calls.  Of each
frame it has the bytes up to some point, all of them unless the write failed.  Nothing is taken back
and nothing is finished later: these are frames, and a stump at the very end, as long as a stump is
not followed by bytes of another frame.  The writer does not see to that.
-/

namespace CportNode

/-- Frames of some of the packets, in their order, and at most the beginning of a later packet's
frame behind them. -/
inductive Framed : List Packet → Bytes → Prop
  | nothing : Framed [] []
  | skipped {p : Packet} {packets : List Packet} {bytes : Bytes} :
      Framed packets bytes → Framed (p :: packets) bytes
  | whole {p : Packet} {packets : List Packet} {bytes : Bytes} :
      Framed packets bytes → Framed (p :: packets) (p.encode ++ bytes)
  | stump {p : Packet} {packets : List Packet} {n : Nat} :
      n < p.encode.length → Framed (p :: packets) (p.encode.take n)

namespace Framed

variable {packets : List Packet} {p : Packet} {bytes : Bytes}

theorem take (h : Framed packets bytes) (k : Nat) : Framed packets (bytes.take k) := by
  induction h generalizing k with
  | nothing =>
    rw [List.take_nil]
    exact .nothing
  | skipped _ ih => exact .skipped (ih k)
  | @whole p packets bytes _ ih =>
    by_cases short : k < p.encode.length
    · rw [List.take_append_of_le_length (Nat.le_of_lt short)]
      exact .stump short
    · rw [List.take_append, List.take_of_length_le (Nat.le_of_not_lt short)]
      exact .whole (ih _)
  | @stump p packets n short =>
    rw [List.take_take]
    exact .stump (Nat.lt_of_le_of_lt (Nat.min_le_right k n) short)

theorem cons_iff :
    Framed (p :: packets) bytes ↔ Framed packets bytes ∨
      (p.encode <+: bytes ∧ Framed packets (bytes.drop p.encode.length)) ∨
        (bytes.length < p.encode.length ∧ bytes <+: p.encode) := by
  constructor
  · intro h
    cases h with
    | skipped framed => exact .inl framed
    | whole framed =>
      rw [List.drop_left]
      exact .inr (.inl ⟨List.prefix_append _ _, framed⟩)
    | stump short =>
      rw [List.length_take, Nat.min_eq_left (Nat.le_of_lt short)]
      exact .inr (.inr ⟨short, List.take_prefix _ _⟩)
  · rintro (framed | ⟨⟨rest, rfl⟩, framed⟩ | ⟨short, front⟩)
    · exact .skipped framed
    · rw [List.drop_left] at framed
      exact .whole framed
    · rw [List.prefix_iff_eq_take.mp front]
      exact .stump short

instance decidable : ∀ packets bytes, Decidable (Framed packets bytes)
  | [], bytes => decidable_of_iff (bytes = [])
      ⟨fun h => h ▸ .nothing, fun h => by cases h; rfl⟩
  | _ :: packets, bytes =>
    have := decidable packets
    decidable_of_iff _ cons_iff.symm

end Framed

namespace Packet

variable {limit : Nat}

@[simp] theorem length_header (h : Header) : h.encode.length = Message.headerSize := rfl

theorem read_take_encode {p : Packet} {n : Nat} (h : Message.headerSize ≤ n) (rest : Bytes) :
    Header.read (p.encode.take n ++ rest) =
      some (p.header, p.message.payload.take (n - Message.headerSize) ++ rest) := by
  rw [encode, List.take_append, length_header,
    List.take_of_length_le (by rwa [length_header]), List.append_assoc, Header.read_encode]

theorem decode_stump {p : Packet} {n : Nat} (h : p.message.size ≤ Message.maxSize)
    (fits : p.message.size ≤ limit) (short : n < p.encode.length) :
    decode limit (p.encode.take n) = .ok none := by
  have cut : (p.encode.take n).length = n := by
    rw [List.length_take, Nat.min_eq_left (Nat.le_of_lt short)]
  rw [length_encode] at short
  by_cases headed : Message.headerSize ≤ n
  · have read := read_take_encode (p := p) headed []
    rw [List.append_nil, List.append_nil] at read
    have size : p.header.size.toNat = p.message.size := size_header h
    refine (Decoded.short read ?_ ?_ ?_).decode_eq
    · rw [size]
      exact Nat.le_add_right _ _
    · rwa [size]
    · rw [payloadSize_header h, List.length_take]
      unfold Message.size at short
      omega
  · refine (Decoded.headless ?_).decode_eq
    cases read : Header.read (p.encode.take n) with
    | none => rfl
    | some pair =>
      have enough := length_of_read read
      rw [cut] at enough
      exact absurd (Nat.le.intro (enough.trans (Nat.add_comm _ _)).symm) headed

theorem decodeAll_framed {packets : List Packet} {bytes : Bytes}
    (sizes : ∀ p ∈ packets, p.message.size ≤ Message.maxSize ∧ p.message.size ≤ limit)
    (h : Framed packets bytes) :
    (decodeAll limit bytes).1.Sublist packets ∧ (decodeAll limit bytes).2.1 = .incomplete := by
  induction h with
  | nothing =>
    rw [decodeAll_of_none rfl]
    exact ⟨List.Sublist.refl _, rfl⟩
  | skipped _ ih =>
    obtain ⟨found, stop⟩ := ih fun q mem => sizes q (List.mem_cons_of_mem _ mem)
    exact ⟨found.cons _, stop⟩
  | whole _ ih =>
    obtain ⟨small, fits⟩ := sizes _ List.mem_cons_self
    obtain ⟨found, stop⟩ := ih fun q mem => sizes q (List.mem_cons_of_mem _ mem)
    rw [decodeAll_of_some (decode_encode small fits _)]
    exact ⟨found.cons_cons _, stop⟩
  | stump short =>
    obtain ⟨small, fits⟩ := sizes _ List.mem_cons_self
    rw [decodeAll_of_none (decode_stump small fits short)]
    exact ⟨List.nil_sublist _, rfl⟩

theorem decode_stump_append {p : Packet} {n : Nat} {more : Bytes}
    (h : p.message.size ≤ Message.maxSize) (fits : p.message.size ≤ limit)
    (headed : Message.headerSize ≤ n) (short : n < p.encode.length)
    (enough : p.encode.length - n ≤ more.length) :
    decode limit (p.encode.take n ++ more) = .ok (some
      ({ p with message.payload := p.message.payload.take (n - Message.headerSize) ++
          more.take (p.encode.length - n) },
        more.drop (p.encode.length - n))) := by
  have size : p.header.size.toNat = p.message.size := size_header h
  have payload := payloadSize_header h
  rw [length_encode] at short enough
  unfold Message.size at short enough
  have kept : (p.message.payload.take (n - Message.headerSize)).length = n - Message.headerSize := by
    rw [List.length_take]
    omega
  have lacking : p.message.payload.length - (n - Message.headerSize) = p.encode.length - n := by
    rw [length_encode, Message.size]
    omega
  have large : Message.headerSize ≤ p.header.size.toNat := by
    rw [size]
    exact Nat.le_add_right _ _
  have full : p.header.payloadSize ≤
      (p.message.payload.take (n - Message.headerSize) ++ more).length := by
    rw [payload, List.length_append, kept]
    omega
  rw [(Decoded.whole (read_take_encode headed more) large (by rwa [size]) full).decode_eq, payload,
    List.take_append, List.drop_append, kept, lacking, List.take_of_length_le (by rw [kept]; omega),
    List.drop_eq_nil_of_le (by rw [kept]; omega), List.nil_append]
  rfl

end Packet

namespace Sink

inductive Failure : MessageError → Prop
  | closed : Failure .connectionClosed
  | fault {cause : IoError} : cause.passing = false → Failure (.io cause)

inductive Wrote (s : Sink) (bytes : Bytes) : Except MessageError Unit × Sink → Prop
  | all {s' : Sink} : s'.taken = s.taken ++ bytes → Wrote s bytes (.ok (), s')
  | cut {s' : Sink} {e : MessageError} {n : Nat} : n < bytes.length →
      s'.taken = s.taken ++ bytes.take n → Failure e → Wrote s bytes (.error e, s')

theorem wrote_writeAll (writes : List (Option WriteOutcome)) (s : Sink) (bytes : Bytes) :
    Wrote s bytes (writeAll writes s bytes) := by
  fun_induction writeAll writes s bytes with
  | case1 => exact .all (List.append_nil _).symm
  | case2 => exact .all rfl
  | case3 => exact .all rfl
  | case4 writes s b bytes => exact .cut (n := 0) (Nat.succ_pos _) (List.append_nil _).symm .closed
  | case5 most writes s b bytes ih =>
    generalize writeAll writes _ _ = result at ih
    have split : b :: bytes = (b :: bytes.take most) ++ bytes.drop most := by
      rw [List.cons_append, List.take_append_drop]
    cases ih with
    | all taken =>
      rw [List.append_assoc, ← split] at taken
      exact .all taken
    | @cut s' e n short taken failed =>
      refine .cut (n := (b :: bytes.take most).length + n) ?_ ?_ failed
      · rw [split, List.length_append]
        omega
      · rw [taken, List.append_assoc, split, List.take_length_add_append]
  | case6 cause writes s b bytes s' passing ih =>
    generalize writeAll writes _ _ = result at ih
    cases ih with
    | all taken => exact .all taken
    | cut short taken failed => exact .cut short taken failed
  | case7 cause writes s b bytes s' lasting =>
    exact .cut (n := 0) (Nat.succ_pos _) (List.append_nil _).symm
      (.fault (Bool.eq_false_iff.mpr lasting))

theorem flushAll_taken (flushes : List (Option IoError)) (s : Sink) :
    (flushAll flushes s).2.taken = s.taken ∧
      ∀ e, (flushAll flushes s).1 = .error e → Failure e := by
  fun_induction flushAll flushes s with
  | case1 => exact ⟨rfl, fun e h => (nomatch h)⟩
  | case2 => exact ⟨rfl, fun e h => (nomatch h)⟩
  | case3 cause flushes s s' passing ih => exact ih
  | case4 cause flushes s s' lasting =>
    refine ⟨rfl, fun e h => ?_⟩
    cases h
    exact .fault (Bool.eq_false_iff.mpr lasting)

inductive Sent (s : Sink) (p : Packet) : Except MessageError Unit × Sink → Prop
  | flushed {s' : Sink} : s'.taken = s.taken ++ p.encode → Sent s p (.ok (), s')
  | unflushed {s' : Sink} {e : MessageError} : s'.taken = s.taken ++ p.encode → Failure e →
      Sent s p (.error e, s')
  | cut {s' : Sink} {e : MessageError} {n : Nat} : n < p.encode.length →
      s'.taken = s.taken ++ p.encode.take n → Failure e → Sent s p (.error e, s')

theorem sent_send (s : Sink) (p : Packet) : Sent s p (s.send p) := by
  have wrote := wrote_writeAll s.writes s p.encode
  unfold send
  generalize writeAll s.writes s p.encode = result at wrote
  cases wrote with
  | @all s' taken =>
    obtain ⟨kept, failure⟩ := flushAll_taken s'.flushes s'
    simp only [flush]
    generalize flushAll s'.flushes s' = flushed at kept failure
    obtain ⟨answer, s''⟩ := flushed
    cases answer with
    | ok => exact .flushed (kept.trans taken)
    | error e => exact .unflushed (kept.trans taken) (failure e rfl)
  | cut short taken failed => exact .cut short taken failed

structure Attempt where
  packet : Packet
  answer : Except MessageError Unit
  bytes : Bytes

def sendEach : Sink → List Packet → List Attempt × Sink
  | s, [] => ([], s)
  | s, p :: packets =>
    let (answer, s') := s.send p
    let (attempts, last) := s'.sendEach packets
    (⟨p, answer, s'.taken.drop s.taken.length⟩ :: attempts, last)

namespace Attempt

def Torn (a : Attempt) : Prop :=
  a.bytes ≠ [] ∧ a.bytes.length < a.packet.encode.length

/-- The answer tells whether the frame is on its way; of one that is not, the beginning may be. -/
structure Sound (a : Attempt) : Prop where
  front : a.bytes <+: a.packet.encode
  whole : a.answer = .ok () → a.bytes = a.packet.encode
  failure : ∀ e, a.answer = .error e → Failure e

theorem Sound.whole_or_torn {a : Attempt} (h : a.Sound) :
    a.bytes = a.packet.encode ∨ a.bytes = [] ∨ a.Torn := by
  by_cases empty : a.bytes = []
  · exact .inr (.inl empty)
  · rcases Nat.lt_or_eq_of_le h.front.length_le with short | full
    · exact .inr (.inr ⟨empty, short⟩)
    · exact .inl (h.front.eq_of_length full)

end Attempt

/-- Somewhere a stump is followed by bytes of a later frame, with nothing between them. -/
def Spliced (attempts : List Attempt) : Prop :=
  ∃ earlier a silent b later, attempts = earlier ++ a :: silent ++ b :: later ∧
    a.Torn ∧ (∀ c ∈ silent, c.bytes = []) ∧ b.bytes ≠ []

theorem Spliced.cons {attempts : List Attempt} (a : Attempt) (h : Spliced attempts) :
    Spliced (a :: attempts) := by
  obtain ⟨earlier, b, silent, c, later, rfl, rest⟩ := h
  exact ⟨a :: earlier, b, silent, c, later, rfl, rest⟩

theorem Spliced.of_torn {attempts : List Attempt} {a : Attempt} (torn : a.Torn)
    (h : attempts.flatMap Attempt.bytes ≠ []) : Spliced (a :: attempts) := by
  have more : ∃ b ∈ attempts, b.bytes ≠ [] := by
    obtain ⟨x, mem⟩ := List.exists_mem_of_ne_nil _ h
    obtain ⟨b, attempted, mem⟩ := List.mem_flatMap.mp mem
    exact ⟨b, attempted, List.ne_nil_of_mem mem⟩
  have found : (attempts.find? fun b => !b.bytes.isEmpty).isSome := by
    simpa [List.find?_isSome] using more
  obtain ⟨b, next⟩ := Option.isSome_iff_exists.mp found
  obtain ⟨some, silent, later, rfl, none⟩ := List.find?_eq_some_iff_append.mp next
  exact ⟨[], a, silent, b, later, rfl, torn, by simpa using none, by simpa using some⟩

theorem not_spliced_of_ok {attempts : List Attempt} {last : Attempt}
    (sound : ∀ a ∈ attempts, a.Sound) (h : ∀ a ∈ attempts, a.answer = .ok ()) :
    ¬Spliced (attempts ++ [last]) := by
  rintro ⟨earlier, a, silent, b, later, all, ⟨-, short⟩, -, -⟩
  have before : attempts = (earlier ++ a :: silent) ++ (b :: later).dropLast := by
    rw [← List.dropLast_append_of_ne_nil (List.cons_ne_nil b later), ← all, List.dropLast_concat]
  have mem : a ∈ attempts := by
    rw [before]
    exact List.mem_append_left _ (List.mem_append_right _ List.mem_cons_self)
  rw [(sound a mem).whole (h a mem)] at short
  exact Nat.lt_irrefl _ short

theorem framed_of_not_spliced {attempts : List Attempt} (sound : ∀ a ∈ attempts, a.Sound)
    (h : ¬Spliced attempts) :
    Framed (attempts.map Attempt.packet) (attempts.flatMap Attempt.bytes) := by
  induction attempts with
  | nil => exact .nothing
  | cons a attempts ih =>
    have framed := ih (fun b mem => sound b (List.mem_cons_of_mem _ mem)) fun s => h (s.cons a)
    rw [List.flatMap_cons, List.map_cons]
    rcases (sound a List.mem_cons_self).whole_or_torn with whole | empty | torn
    · rw [whole]
      exact .whole framed
    · rw [empty]
      exact .skipped framed
    · -- Nothing was taken behind the stump, or it would be spliced.
      have last : attempts.flatMap Attempt.bytes = [] :=
        Decidable.byContradiction fun more => h (.of_torn torn more)
      have front := List.prefix_iff_eq_take.mp (sound a List.mem_cons_self).front
      rw [last, List.append_nil, front]
      exact .stump torn.2

theorem sound_send (s : Sink) (p : Packet) :
    (s.send p).2.taken = s.taken ++ (s.send p).2.taken.drop s.taken.length ∧
      Attempt.Sound ⟨p, (s.send p).1, (s.send p).2.taken.drop s.taken.length⟩ := by
  have sent := sent_send s p
  generalize s.send p = result at sent
  cases sent with
  | flushed taken =>
    rw [taken, List.drop_left]
    exact ⟨rfl, ⟨List.prefix_refl _, fun _ => rfl, fun e h => (nomatch h)⟩⟩
  | unflushed taken failed =>
    rw [taken, List.drop_left]
    exact ⟨rfl, ⟨List.prefix_refl _, fun h => (nomatch h), fun e h => by cases h; exact failed⟩⟩
  | cut short taken failed =>
    rw [taken, List.drop_left]
    exact ⟨rfl, ⟨List.take_prefix _ _, fun h => (nomatch h), fun e h => by cases h; exact failed⟩⟩

theorem sendEach_sound (s : Sink) (packets : List Packet) :
    (s.sendEach packets).1.map Attempt.packet = packets ∧
      (∀ a ∈ (s.sendEach packets).1, a.Sound) ∧
      (s.sendEach packets).2.taken =
        s.taken ++ (s.sendEach packets).1.flatMap Attempt.bytes := by
  induction packets generalizing s with
  | nil => exact ⟨rfl, fun a mem => (nomatch mem), (List.append_nil _).symm⟩
  | cons p packets ih =>
    obtain ⟨same, sound, taken⟩ := ih (s.send p).2
    obtain ⟨appended, first⟩ := sound_send s p
    refine ⟨congrArg (p :: ·) same, List.forall_mem_cons.mpr ⟨first, sound⟩, ?_⟩
    calc ((s.send p).2.sendEach packets).2.taken
        = (s.send p).2.taken ++ ((s.send p).2.sendEach packets).1.flatMap Attempt.bytes := taken
      _ = s.taken ++ ((s.send p).2.taken.drop s.taken.length ++
            ((s.send p).2.sendEach packets).1.flatMap Attempt.bytes) := by
          rw [← List.append_assoc, ← appended]

/-- Whatever packets are sent, and whatever the stream does with the calls: it only ever gains the
beginning of each frame, all of it where the sender was told so.  At all times these bytes are
framed, unless something was taken behind a stump. -/
theorem sendEach_framed_or_spliced (s : Sink) (packets : List Packet) :
    (s.sendEach packets).1.map Attempt.packet = packets ∧
      (∀ a ∈ (s.sendEach packets).1, a.Sound) ∧
      (s.sendEach packets).2.taken = s.taken ++ (s.sendEach packets).1.flatMap Attempt.bytes ∧
      (Spliced (s.sendEach packets).1 ∨
        ∀ k, Framed packets (((s.sendEach packets).1.flatMap Attempt.bytes).take k)) := by
  obtain ⟨same, sound, taken⟩ := sendEach_sound s packets
  refine ⟨same, sound, taken, ?_⟩
  by_cases spliced : Spliced (s.sendEach packets).1
  · exact .inl spliced
  · have framed := framed_of_not_spliced sound spliced
    rw [same] at framed
    exact .inr framed.take

theorem sendEach_spliced_after_fault :
    Spliced ((fresh [some (.accept 3), some (.fault ⟨.timedOut, "timed out"⟩)] []).sendEach
      [⟨1, ⟨1, 0x81, 0, [0, 1]⟩⟩, ⟨1, ⟨2, 0x82, 0, [7]⟩⟩]).1 :=
  (sendEach_framed_or_spliced _ _).2.2.2.resolve_right fun framed =>
    absurd (framed 12) (by decide +kernel)

end Sink

end CportNode
