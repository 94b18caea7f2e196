import CportNode.Proofs.Framing

namespace CportNode

namespace Sink

/-- The first `count` calls of a script: what it says of them, and success where it says nothing. -/
def made {α : Type} : Nat → List (Option α) → List (Option α)
  | 0, _ => []
  | count + 1, script => script.head?.join :: made count script.tail

def taking (left : Nat) : Option WriteOutcome → Nat
  | none => left
  | some (.accept most) => min most left
  | some (.fault _) => 0

def takings (length : Nat) : List (Option WriteOutcome) → Nat
  | [] => 0
  | call :: calls => taking length call + takings (length - taking length call) calls

def writeFailure? : Option WriteOutcome → Option MessageError
  | none => none
  | some (.accept most) => if most = 0 then some .connectionClosed else none
  | some (.fault cause) => if cause.passing then none else some (.io cause)

def wrote (s : Sink) (writes : List (Option WriteOutcome)) (bytes : Bytes)
    (calls : List (Option WriteOutcome)) : Sink :=
  { s with
    writes := writes.drop calls.length
    taken := s.taken ++ bytes.take (takings bytes.length calls)
    writeCalls := s.writeCalls + calls.length }

/-- How writing comes to an end: everything is taken, or the last call is what the sender gives up
for.  All others went on. -/
inductive Written (length : Nat) : List (Option WriteOutcome) → Except MessageError Unit → Prop
  | whole {calls : List (Option WriteOutcome)} : (∀ call ∈ calls, writeFailure? call = none) →
      takings length calls = length → Written length calls (.ok ())
  | cut (calls : List (Option WriteOutcome)) {last : Option WriteOutcome} {e : MessageError} :
      (∀ call ∈ calls, writeFailure? call = none) → writeFailure? last = some e →
      takings length (calls ++ [last]) < length → Written length (calls ++ [last]) (.error e)

variable {writes calls : List (Option WriteOutcome)} {call : Option WriteOutcome}

theorem taking_le (left : Nat) (call : Option WriteOutcome) : taking left call ≤ left := by
  match call with
  | none => exact Nat.le_refl left
  | some (.accept most) => exact Nat.min_le_right most left
  | some (.fault _) => exact Nat.zero_le left

theorem Written.cons {length : Nat} {answer : Except MessageError Unit}
    (goesOn : writeFailure? call = none) (h : Written (length - taking length call) calls answer) :
    Written length (call :: calls) answer := by
  have most := taking_le length call
  cases h with
  | whole others all =>
    refine .whole (List.forall_mem_cons.mpr ⟨goesOn, others⟩) ?_
    rw [takings, all]
    omega
  | cut calls others failed short =>
    refine .cut (call :: calls) (List.forall_mem_cons.mpr ⟨goesOn, others⟩) failed ?_
    rw [List.cons_append, takings]
    omega

theorem wrote_cons (s : Sink) (writes : List (Option WriteOutcome)) (bytes : Bytes)
    (call : Option WriteOutcome) (calls : List (Option WriteOutcome)) :
    s.wrote writes bytes (call :: calls) =
      wrote { s with
        taken := s.taken ++ bytes.take (taking bytes.length call)
        writeCalls := s.writeCalls + 1 }
        writes.tail (bytes.drop (taking bytes.length call)) calls := by
  simp [wrote, takings, List.take_add, Nat.add_assoc, Nat.add_comm 1]

def Offered (s : Sink) (writes : List (Option WriteOutcome)) (bytes : Bytes)
    (outcome : Except MessageError Unit × Sink) : Prop :=
  ∃ calls, calls = made calls.length writes ∧ outcome.2 = s.wrote writes bytes calls ∧
    Written bytes.length calls outcome.1

section Offered

variable {s : Sink} {bytes : Bytes}

theorem offered_nothing (writes : List (Option WriteOutcome)) (s : Sink) :
    Offered s writes [] (.ok (), { s with writes }) := by
  refine ⟨[], rfl, ?_, .whole (List.forall_mem_nil _) rfl⟩
  simp [wrote]

theorem Offered.cons {outcome : Except MessageError Unit × Sink} (took left : Bytes)
    (split : bytes = took ++ left) (goesOn : writeFailure? writes.head?.join = none)
    (takes : taking bytes.length writes.head?.join = took.length)
    (h : Offered { s with taken := s.taken ++ took, writeCalls := s.writeCalls + 1 } writes.tail
      left outcome) : Offered s writes bytes outcome := by
  obtain ⟨calls, script, after, written⟩ := h
  have front : bytes.take (taking bytes.length writes.head?.join) = took := by
    rw [takes, split, List.take_left]
  have rest : bytes.drop (taking bytes.length writes.head?.join) = left := by
    rw [takes, split, List.drop_left]
  rw [← rest, List.length_drop] at written
  exact ⟨writes.head?.join :: calls, congrArg (writes.head?.join :: ·) script,
    by rw [after, wrote_cons, front, rest], written.cons goesOn⟩

theorem offered_failing {e : MessageError} (failed : writeFailure? call = some e)
    (some : bytes ≠ []) (nothing : taking bytes.length call = 0) :
    Offered s (call :: writes) bytes
      (.error e, { s with writes, writeCalls := s.writeCalls + 1 }) := by
  have took : takings bytes.length [call] = 0 := by rw [takings, takings, nothing]
  refine ⟨[call], rfl, ?_, .cut [] (List.forall_mem_nil _) failed ?_⟩
  · simp [wrote, took]
  · rw [List.nil_append, took]
    exact List.length_pos_iff.mpr some

end Offered

theorem offered_writeAll (writes : List (Option WriteOutcome)) (s : Sink) (bytes : Bytes) :
    Offered s writes bytes (writeAll writes s bytes) := by
  fun_induction writeAll writes s bytes with
  | case1 writes s => exact offered_nothing writes s
  | case2 s b bytes =>
    exact .cons (b :: bytes) [] (List.append_nil _).symm rfl rfl (offered_nothing [] _)
  | case3 writes s b bytes =>
    exact .cons (b :: bytes) [] (List.append_nil _).symm rfl rfl (offered_nothing writes _)
  | case4 writes s b bytes =>
    exact offered_failing rfl (List.cons_ne_nil b bytes) (Nat.zero_min _)
  | case5 most writes s b bytes ih =>
    refine .cons (b :: bytes.take most) (bytes.drop most) ?_ rfl ?_ ih
    · rw [List.cons_append, List.take_append_drop]
    · rw [List.length_cons, List.length_cons, List.length_take]
      exact Nat.succ_min_succ most bytes.length
  | case6 cause writes s b bytes s' passing ih =>
    refine .cons [] (b :: bytes) rfl (if_pos passing) rfl ?_
    rw [List.append_nil]
    exact ih
  | case7 cause writes s b bytes s' lasting =>
    exact offered_failing (if_neg lasting) (List.cons_ne_nil b bytes) rfl

theorem Written.of_failure {length : Nat} {answer : Except MessageError Unit} {e : MessageError}
    (h : Written length calls answer) (made : call ∈ calls) (failed : writeFailure? call = some e) :
    answer = .error e ∧ takings length calls < length := by
  cases h with
  | whole others _ =>
    rw [others call made] at failed
    cases failed
  | cut _ others last short =>
    rcases List.mem_append.mp made with earlier | now
    · rw [others call earlier] at failed
      cases failed
    · cases List.mem_singleton.mp now
      cases last.symm.trans failed
      exact ⟨rfl, short⟩

theorem Written.of_error {length : Nat} {e : MessageError} (h : Written length calls (.error e)) :
    takings length calls < length ∧ ∃ call ∈ calls, writeFailure? call = some e := by
  cases h with
  | cut _ _ last short =>
    exact ⟨short, _, List.mem_append_right _ (List.mem_singleton.mpr rfl), last⟩

theorem Written.of_ok {length : Nat} (h : Written length calls (.ok ())) :
    takings length calls = length ∧ ∀ call ∈ calls, writeFailure? call = none := by
  cases h with
  | whole others all => exact ⟨all, others⟩

theorem cause_of_writeFailure? {e : MessageError} (h : writeFailure? call = some e) :
    (call = some (.accept 0) ∧ e = .connectionClosed) ∨
      ∃ cause, call = some (.fault cause) ∧ cause.passing = false ∧ e = .io cause := by
  match call with
  | none => cases h
  | some (.accept most) =>
    obtain ⟨rfl, same⟩ := Option.ite_none_right_eq_some.mp h
    cases same
    exact .inl ⟨rfl, rfl⟩
  | some (.fault cause) =>
    obtain ⟨lasting, same⟩ := Option.ite_none_left_eq_some.mp h
    cases same
    exact .inr ⟨cause, rfl, Bool.eq_false_iff.mpr lasting, rfl⟩

/-- How flushing comes to an end: at the last call, with success or with what the sender gives up
for.  All others asked to be made again. -/
inductive Flushed : List (Option IoError) → Except MessageError Unit → Prop
  | flushed (calls : List (Option IoError)) :
      (∀ call ∈ calls, ∃ cause, call = some cause ∧ cause.passing = true) →
      Flushed (calls ++ [none]) (.ok ())
  | failed (calls : List (Option IoError)) {cause : IoError} :
      (∀ call ∈ calls, ∃ cause, call = some cause ∧ cause.passing = true) →
      cause.passing = false → Flushed (calls ++ [some cause]) (.error (.io cause))

theorem Flushed.cons {calls : List (Option IoError)} {answer : Except MessageError Unit}
    {cause : IoError} (passing : cause.passing = true) (h : Flushed calls answer) :
    Flushed (some cause :: calls) answer := by
  have first : ∃ cause', some cause = some cause' ∧ cause'.passing = true := ⟨cause, rfl, passing⟩
  cases h with
  | flushed calls others =>
    exact .flushed (some cause :: calls) (List.forall_mem_cons.mpr ⟨first, others⟩)
  | failed calls others lasting =>
    exact .failed (some cause :: calls) (List.forall_mem_cons.mpr ⟨first, others⟩) lasting

theorem flushed_flushAll (flushes : List (Option IoError)) (s : Sink) :
    ∃ calls, calls = made calls.length flushes ∧
      (flushAll flushes s).2 = { s with
        flushes := flushes.drop calls.length
        flushCalls := s.flushCalls + calls.length } ∧
      Flushed calls (flushAll flushes s).1 := by
  fun_induction flushAll flushes s with
  | case1 s => exact ⟨[none], rfl, rfl, .flushed [] (List.forall_mem_nil _)⟩
  | case2 s flushes => exact ⟨[none], rfl, rfl, .flushed [] (List.forall_mem_nil _)⟩
  | case3 cause flushes s s' passing ih =>
    obtain ⟨calls, script, after, flushed⟩ := ih
    refine ⟨some cause :: calls, congrArg (some cause :: ·) script, ?_, flushed.cons passing⟩
    rw [after]
    simp [s', Nat.add_assoc, Nat.add_comm 1]
  | case4 cause flushes s s' lasting =>
    exact ⟨[some cause], rfl, rfl,
      .failed [] (List.forall_mem_nil _) (Bool.eq_false_iff.mpr lasting)⟩

theorem Flushed.of_failure {calls : List (Option IoError)} {answer : Except MessageError Unit}
    {cause : IoError} (h : Flushed calls answer) (made : some cause ∈ calls)
    (lasting : cause.passing = false) : answer = .error (.io cause) := by
  have last {calls : List (Option IoError)} {last : Option IoError}
      (others : ∀ call ∈ calls, ∃ cause, call = some cause ∧ cause.passing = true)
      (made : some cause ∈ calls ++ [last]) : last = some cause := by
    rcases List.mem_append.mp made with earlier | now
    · obtain ⟨_, same, passing⟩ := others _ earlier
      cases same
      cases lasting.symm.trans passing
    · exact (List.mem_singleton.mp now).symm
  cases h with
  | flushed _ others => cases last others made
  | failed _ others _ =>
    cases last others made
    rfl

inductive Conduct (length : Nat) :
    List (Option WriteOutcome) → List (Option IoError) → Except MessageError Unit → Prop
  | cut {writes : List (Option WriteOutcome)} {e : MessageError} :
      Written length writes (.error e) → Conduct length writes [] (.error e)
  | written {writes : List (Option WriteOutcome)} {flushes : List (Option IoError)}
      {answer : Except MessageError Unit} : Written length writes (.ok ()) →
      Flushed flushes answer → Conduct length writes flushes answer

def sent (s : Sink) (p : Packet) (writes : List (Option WriteOutcome))
    (flushes : List (Option IoError)) : Sink :=
  { s.wrote s.writes p.encode writes with
    flushes := s.flushes.drop flushes.length
    flushCalls := s.flushCalls + flushes.length }

theorem conduct_send (s : Sink) (p : Packet) :
    ∃ writes flushes, writes = made writes.length s.writes ∧
      flushes = made flushes.length s.flushes ∧ (s.send p).2 = s.sent p writes flushes ∧
      Conduct p.encode.length writes flushes (s.send p).1 := by
  obtain ⟨writes, script, after, written⟩ := offered_writeAll s.writes s p.encode
  unfold send
  generalize writeAll s.writes s p.encode = outcome at *
  obtain ⟨answer, s₁⟩ := outcome
  cases after
  cases answer with
  | error e => exact ⟨writes, [], script, rfl, rfl, .cut written⟩
  | ok =>
    obtain ⟨flushes, script', after, flushed⟩ :=
      flushed_flushAll s.flushes (s.wrote s.writes p.encode writes)
    exact ⟨writes, flushes, script, script', after, .written written flushed⟩

/-- What the sender of a packet is told, by the calls that were made for it. -/
structure Told (s : Sink) (p : Packet) (writes : List (Option WriteOutcome))
    (flushes : List (Option IoError)) (answer : Except MessageError Unit) (s' : Sink) : Prop where
  taken : s'.taken = s.taken ++ p.encode.take (takings p.encode.length writes)
  ok : answer = .ok () → s'.taken = s.taken ++ p.encode ∧ none ∈ flushes
  closed : some (.accept 0) ∈ writes → answer = .error .connectionClosed ∧
    ∃ n < p.encode.length, s'.taken = s.taken ++ p.encode.take n
  failed : ∀ cause, some (.fault cause) ∈ writes → cause.passing = false →
    answer = .error (.io cause) ∧ ∃ n < p.encode.length, s'.taken = s.taken ++ p.encode.take n
  unflushed : ∀ cause, some cause ∈ flushes → cause.passing = false →
    answer = .error (.io cause) ∧ s'.taken = s.taken ++ p.encode
  error : ∀ e, answer = .error e →
    (some (.accept 0) ∈ writes ∧ e = .connectionClosed) ∨
      ∃ cause, (some (.fault cause) ∈ writes ∨ some cause ∈ flushes) ∧ cause.passing = false ∧
        e = .io cause

theorem told_of_cut {s : Sink} {p : Packet} {e : MessageError}
    (h : Written p.encode.length calls (.error e)) :
    Told s p calls [] (.error e) (s.sent p calls []) := by
  have short : ∃ n < p.encode.length, (s.sent p calls []).taken = s.taken ++ p.encode.take n :=
    ⟨_, h.of_error.1, rfl⟩
  refine ⟨rfl, fun ok => (nomatch ok), fun made => ?closed, fun cause made lasting => ?failed,
    fun cause made => (nomatch made), fun e' same => ?error⟩
  case closed => exact ⟨(h.of_failure made rfl).1, short⟩
  case failed => exact ⟨(h.of_failure made (if_neg (Bool.eq_false_iff.mp lasting))).1, short⟩
  case error =>
    cases same
    obtain ⟨-, call, made, failed⟩ := h.of_error
    rcases cause_of_writeFailure? failed with ⟨rfl, same⟩ | ⟨cause, rfl, lasting, same⟩
    · exact .inl ⟨made, same⟩
    · exact .inr ⟨cause, .inl made, lasting, same⟩

theorem told_of_written {s : Sink} {p : Packet} {flushes : List (Option IoError)}
    {answer : Except MessageError Unit} (h : Written p.encode.length calls (.ok ()))
    (flushed : Flushed flushes answer) :
    Told s p calls flushes answer (s.sent p calls flushes) := by
  obtain ⟨all, goOn⟩ := h.of_ok
  have whole : (s.sent p calls flushes).taken = s.taken ++ p.encode := by
    rw [sent, wrote, all, List.take_length]
  refine ⟨rfl, fun ok => ⟨whole, ?ok⟩, fun made => (nomatch goOn _ made),
    fun cause made lasting => ?failed,
    fun cause made lasting => ⟨flushed.of_failure made lasting, whole⟩, fun e same => ?error⟩
  case ok =>
    cases flushed with
    | flushed => exact List.mem_append_right _ (List.mem_singleton.mpr rfl)
    | failed => cases ok
  case failed =>
    have goesOn := goOn _ made
    rw [writeFailure?, if_neg (Bool.eq_false_iff.mp lasting)] at goesOn
    cases goesOn
  case error =>
    cases flushed with
    | flushed => cases same
    | failed _ _ lasting =>
      cases same
      exact .inr ⟨_, .inr (List.mem_append_right _ (List.mem_singleton.mpr rfl)), lasting, rfl⟩

/-- One packet, whatever the stream does with the calls made for it, which are all that count.  The
stream gains the beginning of the frame, byte after byte and as much as the writes took.  Success
means that it was all of it, and that the stream was flushed behind it.  A write that takes nothing,
and one that fails for good, cut the frame short; a flush that fails for good comes behind the whole
frame.  The sender is told just this; what passes is not told, and nothing is lost or repeated by
it. -/
theorem send_told (s : Sink) (p : Packet) :
    Told s p (made ((s.send p).2.writeCalls - s.writeCalls) s.writes)
      (made ((s.send p).2.flushCalls - s.flushCalls) s.flushes) (s.send p).1 (s.send p).2 := by
  obtain ⟨writes, flushes, script, script', after, conduct⟩ := conduct_send s p
  have first : made ((s.send p).2.writeCalls - s.writeCalls) s.writes = writes := by
    rw [after, sent, wrote, Nat.add_sub_cancel_left, ← script]
  have second : made ((s.send p).2.flushCalls - s.flushCalls) s.flushes = flushes := by
    rw [after, sent, Nat.add_sub_cancel_left, ← script']
  rw [first, second, after]
  generalize (s.send p).1 = answer at conduct
  cases conduct with
  | cut written => exact told_of_cut written
  | written written flushed => exact told_of_written written flushed

end Sink

end CportNode
