import CportNode.Proofs.Interrupts

namespace CportNode

namespace Gpio

def Line.disarmed (x : Line) : Line :=
  { x with trigger := .disabled }

namespace Request

def register? : Request → Option UInt8
  | direction line => some line
  | setInput line => some line
  | setOutput line _ => some line
  | level line => some line
  | setLevel line _ => some line
  | setDebounce line _ => some line
  | _ => none

def reads (x : Line) : Request → Bytes
  | direction _ => [x.direction.toWire]
  | level _ => [x.high.toUInt8]
  | _ => []

def writes (x : Line) : Request → Line
  | setInput _ => { x with direction := .input }
  | setOutput _ high => { x with direction := .output, high }
  | setLevel _ high => { x with high }
  | setDebounce _ microseconds => { x with debounce := microseconds }
  | _ => x

/-- The registers after a request.  No line changes but the one that is named. -/
def onto (lines : List Line) (r : Request) : List Line :=
  match r.register? with
  | some line => lines.modify line.toNat r.writes
  | none => lines

def passes : Request → Bool
  | setDebounce _ microseconds => microseconds != 0
  | _ => true

/-- A debounce time of zero that would have made a difference, or should have been refused. -/
def Neglected (b : Bank) : Request → Prop
  | setDebounce line microseconds =>
    microseconds = 0 ∧ ∀ x, b.line? line = some x → x.debounce ≠ 0
  | _ => False

/-- The law of the register file, for one request to a line. -/
structure Obeyed (r : Request) (line : UInt8) (b b' : Bank) (status : Status) (payload : Bytes) :
    Prop where
  present : ∀ x, b.line? line = some x → status = .success ∧ payload = r.reads x
  missing : b.lines.length ≤ line.toNat → status = .invalid ∧ payload = []
  lines : b' = { b with lines := b.lines.modify line.toNat r.writes }

theorem not_neglected_of_passes {r : Request} (passes : r.passes = true) (b : Bank) :
    ¬ r.Neglected b := by
  cases r with
  | setDebounce line microseconds =>
    rintro ⟨rfl, -⟩
    cases passes
  | _ => exact id

theorem eq_zero_of_not_passes {line : UInt8} {microseconds : UInt16}
    (kept : ¬ (setDebounce line microseconds).passes = true) : microseconds = 0 :=
  Decidable.not_not.mp (mt bne_iff_ne.mpr kept)

@[simp] theorem writes_disarmed (r : Request) (x : Line) :
    r.writes x.disarmed = (r.writes x).disarmed := by
  cases r <;> rfl

end Request

@[simp] theorem Bank.line?_eq_none_iff {b : Bank} {line : UInt8} :
    b.line? line = none ↔ b.lines.length ≤ line.toNat :=
  List.getElem?_eq_none_iff

theorem Bank.modify_eq (b : Bank) (line : UInt8) (change : Line → Line) :
    b.modify line change =
      if b.lines.length ≤ line.toNat then .error (b.outOfRange line)
      else .ok { b with lines := b.lines.modify line.toNat change } := by
  rw [modify]
  cases found : b.line? line with
  | none => rw [if_pos (line?_eq_none_iff.mp found)]
  | some x =>
    have present : b.lines[line.toNat]? = some x := found
    have inRange : ¬ b.lines.length ≤ line.toNat := by
      rw [← line?_eq_none_iff, found]
      exact Option.some_ne_none x
    rw [if_neg inRange, @List.modify_eq_set _ ⟨x⟩, present]
    rfl

theorem map_modify {lines : List Line} {i : Nat} {f g h : Line → Line}
    (comm : ∀ x, h (f x) = g (h x)) : (lines.modify i f).map h = (lines.map h).modify i g := by
  apply List.ext_getElem?
  intro j
  simp only [List.getElem?_map, List.getElem?_modify]
  cases lines[j]? with
  | none => rfl
  | some x =>
    show some (h (if i = j then f x else x)) = some (if i = j then g (h x) else h x)
    rw [apply_ite h, comm]

section Obeyed

variable {r : Request} {line : UInt8} {b : Board} {capability : Capability} {status : Status}
  {payload : Bytes}

theorem obeyed_modify (free : b.obstacle? capability = none) (reads : ∀ x, r.reads x = [])
    (tells : Node.Tells
      (b.reactTo (b.guarded capability (b.withGpio (b.gpio.modify line r.writes)))).1
      status payload) :
    r.Obeyed line b.gpio
      (b.reactTo (b.guarded capability (b.withGpio (b.gpio.modify line r.writes)))).2.gpio
      status payload := by
  rw [Board.guarded_of_free free, Bank.modify_eq] at tells ⊢
  by_cases beyond : b.gpio.lines.length ≤ line.toNat
  · rw [if_pos beyond] at tells ⊢
    cases tells
    refine ⟨fun x found => ?_, fun _ => ⟨rfl, rfl⟩, by rw [List.modify_eq_self beyond]; rfl⟩
    rw [Bank.line?_eq_none_iff.mpr beyond] at found
    cases found
  · rw [if_neg beyond] at tells ⊢
    cases tells
    exact ⟨fun x _ => ⟨rfl, (reads x).symm⟩, fun beyond' => absurd beyond' beyond, rfl⟩

theorem obeyed_read {α : Type} {field : Line → α} {encode : α → Bytes}
    (free : b.obstacle? capability = none) (reads : ∀ x, r.reads x = encode (field x))
    (writes : r.writes = id)
    (tells : Node.Tells (.ofQuery encode (b.guarded capability (b.gpio.read line field)))
      status payload) :
    r.Obeyed line b.gpio b.gpio status payload := by
  have kept : b.gpio = { b.gpio with lines := b.gpio.lines.modify line.toNat r.writes } := by
    rw [writes, List.modify_id]
  rw [Board.guarded_of_free free, Bank.read] at tells
  cases found : b.gpio.line? line with
  | none =>
    rw [found] at tells
    cases tells
    refine ⟨fun x found' => ?_, fun _ => ⟨rfl, rfl⟩, kept⟩
    cases found.symm.trans found'
  | some x =>
    rw [found] at tells
    cases tells
    refine ⟨fun x' found' => ?_, fun beyond => ?_, kept⟩
    · cases found.symm.trans found'
      exact ⟨rfl, (reads x).symm⟩
    · cases found.symm.trans (Bank.line?_eq_none_iff.mpr beyond)

end Obeyed

end Gpio

/-- No call on a line is set to fail. -/
def Board.Unobstructed (b : Board) : Prop :=
  ∀ capability ∈ [Capability.gpioDirection, .gpioSetInput, .gpioSetOutput, .gpioGetValue,
    .gpioSetValue, .gpioSetDebounce, .gpioConfigureInterrupt], b.obstacle? capability = none

namespace Gpio

section Execute

variable {r : Request} {line : UInt8} {t : Triggers} {b : Board} {status : Status}
  {payload : Bytes}

theorem obeyed_execute (free : b.Unobstructed) (register : r.register? = some line)
    (passes : r.passes = true) (tells : Node.Tells (r.execute t b).1 status payload) :
    r.Obeyed line b.gpio (r.execute t b).2.gpio status payload := by
  cases r with
  | direction l =>
    cases register
    exact obeyed_read (free _ (by decide)) (fun _ => rfl) rfl tells
  | setInput l =>
    cases register
    exact obeyed_modify (free _ (by decide)) (fun _ => rfl) tells
  | setOutput l high =>
    cases register
    exact obeyed_modify (free _ (by decide)) (fun _ => rfl) tells
  | level l =>
    cases register
    exact obeyed_read (free _ (by decide)) (fun _ => rfl) rfl tells
  | setLevel l high =>
    cases register
    exact obeyed_modify (free _ (by decide)) (fun _ => rfl) tells
  | setDebounce l microseconds =>
    cases register
    have nonzero : ¬ microseconds = 0 := bne_iff_ne.mp passes
    simp only [Request.execute, if_neg nonzero] at tells ⊢
    exact obeyed_modify (free _ (by decide)) (fun _ => rfl) tells
  | _ => cases register

theorem obeyed_zero_iff {bank : Bank} :
    (Request.setDebounce line 0).Obeyed line bank bank .success [] ↔
      ¬ (Request.setDebounce line 0).Neglected bank := by
  constructor
  · rintro obeyed ⟨-, neglected⟩
    cases found : bank.line? line with
    | none =>
      cases (obeyed.missing (Bank.line?_eq_none_iff.mp found)).1
    | some x =>
      have present : bank.lines[line.toNat]? = some x := found
      have written := congrArg (fun b : Bank => b.lines[line.toNat]?) obeyed.lines
      simp only [List.getElem?_modify, present, if_true] at written
      exact neglected x found (congrArg Line.debounce (Option.some.inj written))
  · intro heeded
    cases found : bank.line? line with
    | none =>
      refine absurd ⟨rfl, fun x found' => ?_⟩ heeded
      cases found.symm.trans found'
    | some x =>
      have present : bank.lines[line.toNat]? = some x := found
      have zero : x.debounce = 0 := Decidable.not_not.mp fun nonzero =>
        heeded ⟨rfl, fun x' found' => Option.some.inj (found.symm.trans found') ▸ nonzero⟩
      have same : (Request.setDebounce line 0).writes x = x := by
        rw [Request.writes, ← zero]
      refine ⟨fun _ _ => ⟨rfl, rfl⟩, fun beyond => ?_, ?_⟩
      · cases found.symm.trans (Bank.line?_eq_none_iff.mpr beyond)
      · obtain ⟨inRange, read⟩ := List.getElem?_eq_some_iff.mp present
        rw [@List.modify_eq_set _ ⟨x⟩, present, Option.getD_some, same, ← read,
          List.set_getElem_self inRange]

theorem execute_of_refused (refused : (r.execute t b).1 = .refused status) :
    (r.execute t b).2 = b := by
  have untouched {outcome : Except DriverError Board}
      (refused : (b.reactTo outcome).1 = .refused status) : (b.reactTo outcome).2 = b := by
    cases outcome with
    | error e => rfl
    | ok b' => cases refused
  cases r with
  | setInput l => exact untouched refused
  | setOutput l high => exact untouched refused
  | setLevel l high => exact untouched refused
  | setDebounce l microseconds =>
    simp only [Request.execute] at refused ⊢
    split
    · rfl
    · rename_i nonzero
      rw [if_neg nonzero] at refused
      exact untouched refused
  | irqType l trigger => exact untouched refused
  | irqMask l => exact untouched refused
  | irqUnmask l => exact untouched refused
  | _ => rfl

@[simp] theorem disarmed_configure (line : UInt8) (trigger : Trigger) :
    (b.reactTo (b.configureInterrupt line trigger)).2.gpio.lines.map Line.disarmed =
      b.gpio.lines.map Line.disarmed := by
  cases outcome : b.configureInterrupt line trigger with
  | error e => rfl
  | ok b' =>
    have reached := Board.ok_of_guarded outcome
    rw [Bank.setTrigger, Bank.modify_eq] at reached
    split at reached
    · cases reached
    · cases reached
      have kept (x : Line) : { x with trigger }.disarmed = id x.disarmed := rfl
      exact (map_modify kept).trans (List.modify_id _ _)

theorem disarmed_execute (free : b.Unobstructed) (r : Request) (t : Triggers) :
    (r.execute t b).2.gpio.lines.map Line.disarmed =
      if r.passes then r.onto (b.gpio.lines.map Line.disarmed)
      else b.gpio.lines.map Line.disarmed := by
  cases register : r.register? with
  | some line =>
    by_cases passes : r.passes = true
    · obtain ⟨status, payload, tells, -⟩ := (executes_execute (free _ (by decide)) r t).tells
      have lines := (obeyed_execute free register passes tells).lines
      rw [if_pos passes, lines, Request.onto, register]
      exact map_modify fun x => (r.writes_disarmed x).symm
    · rw [if_neg passes]
      cases r with
      | setDebounce l microseconds =>
        rw [Request.execute, if_pos (Request.eq_zero_of_not_passes passes)]
      | _ => exact absurd rfl passes
  | none =>
    have kept : r.onto (b.gpio.lines.map Line.disarmed) = b.gpio.lines.map Line.disarmed := by
      rw [Request.onto, register]
    rw [kept, ite_self]
    cases r with
    | irqType l trigger => exact disarmed_configure l trigger
    | irqMask l => exact disarmed_configure l .disabled
    | irqUnmask l => exact disarmed_configure l (t l)
    | version => rfl
    | lineCount => rfl
    | activate l => rfl
    | _ => cases register

end Execute

def passed (p : Packet) : List Request :=
  ((Request.decode p.message.kind p.message.payload).toOption.filter (·.passes)).toList

end Gpio

namespace Node

open Gpio

def Drives (n : Node) (c : UInt16) : Prop :=
  ∃ triggers, n.registry.route c = .driver (.gpio triggers)

/-- A request is answered as a register file would answer it, and changes the lines as it says.  A
debounce time of zero is taken for granted, which is wrong exactly where it is neglected. -/
def Registers (n : Node) (p : Packet) (n' : Node) : Prop :=
  ∃ status payload, n.link.Sends (answers p status payload) n'.link ∧
    (status ≠ .success → n'.board.gpio = n.board.gpio) ∧
    ∀ r line, Request.decode p.message.kind p.message.payload = .ok r → r.register? = some line →
      (r.Obeyed line n.board.gpio n'.board.gpio status payload ↔ ¬ r.Neglected n.board.gpio) ∧
      (r.Neglected n.board.gpio →
        status = .success ∧ payload = [] ∧ n'.board.gpio = n.board.gpio)

/-- What some requests, on any cports that drive the lines, make of a node. -/
structure Wrote (requests : List Request) (n n' : Node) : Prop where
  drives : ∀ c, n.Drives c → n'.Drives c
  free : n'.board.Unobstructed
  lines : n'.board.gpio.lines.map Line.disarmed =
    requests.foldl Request.onto (n.board.gpio.lines.map Line.disarmed)

theorem Wrote.refl {n : Node} (free : n.board.Unobstructed) : Wrote [] n n :=
  ⟨fun _ => id, free, rfl⟩

theorem Wrote.trans {requests requests' : List Request} {n n' n'' : Node}
    (h : Wrote requests n n') (h' : Wrote requests' n' n'') :
    Wrote (requests ++ requests') n n'' where
  drives c := h'.drives c ∘ h.drives c
  free := h'.free
  lines := by
    rw [h'.lines, h.lines, List.foldl_append]

section Attended

variable {n n' : Node} {t : Triggers} {p : Packet} {status : Status} {payload : Bytes}

theorem Attended.registers (attended : Attended t p.cport p.message n status payload n')
    (free : n.board.Unobstructed) (sent : n.link.Sends (answers p status payload) n'.link) :
    Registers n p n' := by
  refine ⟨status, payload, sent, ?_⟩
  cases attended with
  | unheard decoded _ =>
    refine ⟨fun _ => rfl, fun r line decoded' => ?_⟩
    cases decoded.symm.trans decoded'
  | @executed r _ _ _ _ _ decoded tells _ =>
    refine ⟨fun failed => ?_, fun r' line decoded' register => ?_⟩
    · generalize reaction : (r.execute t n.board).1 = told at tells
      cases tells with
      | done => exact absurd rfl failed
      | refused => rw [execute_of_refused reaction]
    · cases decoded.symm.trans decoded'
      by_cases passes : r.passes = true
      · have heeded := Request.not_neglected_of_passes passes n.board.gpio
        exact ⟨iff_of_true (obeyed_execute free register passes tells) heeded,
          fun neglected => absurd neglected heeded⟩
      · cases r with
        | setDebounce l microseconds =>
          cases register
          cases Request.eq_zero_of_not_passes passes
          rw [Request.execute, if_pos rfl] at tells ⊢
          cases tells
          exact ⟨obeyed_zero_iff, fun _ => ⟨rfl, rfl, rfl⟩⟩
        | _ => exact absurd rfl passes

theorem Attended.drives (attended : Attended t p.cport p.message n status payload n')
    (bound : n.registry.route p.cport = .driver (.gpio t)) {c : UInt16} (drives : n.Drives c) :
    n'.Drives c := by
  cases attended with
  | unheard => exact drives
  | @executed r _ _ _ _ _ _ _ _ =>
    by_cases same : c = p.cport
    · rw [same]
      exact ⟨_, Registry.route_update bound _⟩
    · obtain ⟨t', bound'⟩ := drives
      exact ⟨t', (Registry.route_modify_of_ne _ _ same).trans bound'⟩

theorem Attended.wrote (attended : Attended t p.cport p.message n status payload n')
    (bound : n.registry.route p.cport = .driver (.gpio t)) (free : n.board.Unobstructed) :
    Wrote (passed p) n n' := by
  have drives : ∀ c, n.Drives c → n'.Drives c := fun _ => attended.drives bound
  cases attended with
  | unheard decoded _ =>
    have nothing : passed p = [] := by rw [passed, decoded]; rfl
    rw [nothing]
    exact ⟨drives, free, rfl⟩
  | @executed r _ _ _ _ _ decoded _ _ =>
    obtain ⟨bank, changed, -⟩ := (executes_execute (free _ (by decide)) r t).bank
    refine ⟨drives, ?_, (disarmed_execute free r t).trans ?_⟩
    · show (r.execute t n.board).2.Unobstructed
      rw [changed]
      exact free
    · rw [passed, decoded]
      cases passes : r.passes <;> simp [Except.toOption, Option.filter, passes]

end Attended

theorem dispatch_lines {n : Node} {p : Packet} (drives : n.Drives p.cport)
    (free : n.board.Unobstructed) (ready : n.link.Open) :
    Registers n p (n.dispatch p) ∧ Wrote (passed p) n (n.dispatch p) ∧
      (n.dispatch p).link.Open := by
  obtain ⟨t, bound⟩ := drives
  obtain ⟨status, payload, attended, sent⟩ :=
    attended_dispatch bound (free _ (by decide)) ready p.message
  exact ⟨attended.registers free sent, attended.wrote bound free, sent.open ready⟩

theorem wrote_run {packets : List Packet} {n : Node}
    (bound : ∀ p ∈ packets, n.Drives p.cport) (free : n.board.Unobstructed)
    (ready : n.link.Open) :
    Wrote (packets.flatMap passed) n (packets.foldl dispatch n) ∧
      (packets.foldl dispatch n).link.Open := by
  induction packets generalizing n with
  | nil => exact ⟨.refl free, ready⟩
  | cons p packets ih =>
    obtain ⟨bound, rest⟩ := List.forall_mem_cons.mp bound
    obtain ⟨-, wrote, ready⟩ := dispatch_lines bound free ready
    obtain ⟨wrote', ready⟩ := ih (fun q mem => wrote.drives _ (rest q mem)) wrote.free ready
    exact ⟨wrote.trans wrote', ready⟩

/-- The lines under any requests on cports that drive them.  What they hold besides their interrupts
is what the requests have written, one after the other, except for debounce times of zero; and the
next request is answered accordingly. -/
theorem lines_are_registers {n : Node} {packets : List Packet}
    (bound : ∀ p ∈ packets, n.Drives p.cport) (free : n.board.Unobstructed)
    (accepts : n.link.Open) :
    let n' := packets.foldl dispatch n
    n'.board.gpio.lines.map Line.disarmed =
        (packets.flatMap passed).foldl Request.onto (n.board.gpio.lines.map Line.disarmed) ∧
      ∀ p, n.Drives p.cport → Registers n' p (n'.dispatch p) := by
  intro n'
  obtain ⟨wrote, ready⟩ := wrote_run bound free accepts
  exact ⟨wrote.lines, fun p drives => (dispatch_lines (wrote.drives _ drives) wrote.free ready).1⟩

theorem watching_keeps_debounce_time :
    let start := (watching.register 1 1 (.gpio .fresh)).2
    let sets : Packet := ⟨1, ⟨1, 0x0a, 0, [2, 0xe8, 3]⟩⟩
    let n := start.dispatch sets
    let clears (line : UInt8) : Packet := ⟨1, ⟨2, 0x0a, 0, [line, 0, 0]⟩⟩
    (n.board.gpio.line? 2).map (·.debounce) = some 1000 ∧
      n.link.Sends (answers (clears 2) .success []) (n.dispatch (clears 2)).link ∧
      (n.dispatch (clears 2)).board.gpio = n.board.gpio ∧
      n.board.gpio.lines.length ≤ 200 ∧
      n.link.Sends (answers (clears 200) .success []) (n.dispatch (clears 200)).link := by
  intro start sets n clears
  have drives : start.Drives 1 := ⟨.fresh, rfl⟩
  have bound : ∀ p ∈ [sets], start.Drives p.cport :=
    List.forall_mem_cons.mpr ⟨drives, List.forall_mem_nil _⟩
  have free : start.board.Unobstructed := fun _ _ => rfl
  have accepts : start.link.Open := fun p => ⟨_, rfl⟩
  have registers := (lines_are_registers bound free accepts).2
  have succeeds (line : UInt8) (neglected : (Request.setDebounce line 0).Neglected n.board.gpio) :
      n.link.Sends (answers (clears line) .success []) (n.dispatch (clears line)).link ∧
        (n.dispatch (clears line)).board.gpio = n.board.gpio := by
    obtain ⟨status, payload, sent, -, law⟩ := registers (clears line) drives
    obtain ⟨rfl, rfl, kept⟩ := (law (.setDebounce line 0) line rfl rfl).2 neglected
    exact ⟨sent, kept⟩
  have two : (Request.setDebounce 2 0).Neglected n.board.gpio :=
    ⟨rfl, fun x found => by cases found; decide⟩
  have none : (Request.setDebounce 200 0).Neglected n.board.gpio :=
    ⟨rfl, fun x found => by cases found⟩
  exact ⟨rfl, (succeeds 2 two).1, (succeeds 2 two).2, by decide, (succeeds 200 none).1⟩

end Node

end CportNode
