import CportNode.Proofs.Answer
import CportNode.Proofs.Sharing

namespace CportNode

namespace Gpio

def Bank.trigger? (b : Bank) (line : UInt8) : Option Trigger :=
  (b.line? line).map (·.trigger)

def Bank.Armed (b : Bank) (line : UInt8) : Prop :=
  ∃ trigger, b.trigger? line = some trigger ∧ trigger ≠ .disabled

theorem Bank.eq_disabled {b : Bank} {line : UInt8} {trigger : Trigger} (disarmed : ¬ b.Armed line)
    (present : b.trigger? line = some trigger) : trigger = .disabled :=
  Decidable.not_not.mp fun on => disarmed ⟨trigger, present, on⟩

namespace Request

def line? : Request → Option UInt8
  | version => none
  | lineCount => none
  | activate line => some line
  | direction line => some line
  | setInput line => some line
  | setOutput line _ => some line
  | level line => some line
  | setLevel line _ => some line
  | setDebounce line _ => some line
  | irqType line _ => some line
  | irqMask line => some line
  | irqUnmask line => some line

/-- The trigger that a request gives a line, if it succeeds and gives it one. -/
def gives (t : Triggers) (line : UInt8) : Request → Option Trigger
  | irqType l trigger => if l = line then some trigger else none
  | irqMask l => if l = line then some .disabled else none
  | irqUnmask l => if l = line then some (t line) else none
  | _ => none

/-- What unmasking arms a line with once a request has succeeded, if the request changes that. -/
def configures (line : UInt8) : Request → Option Trigger
  | irqType l trigger =>
    if l = line then some (if trigger = .disabled then .edgeRising else trigger) else none
  | _ => none

theorem gives_of_line? {r : Request} {line : UInt8} (other : r.line? ≠ some line) (t : Triggers) :
    r.gives t line = none := by
  cases r <;> simp_all [line?, gives]

theorem configures_of_gives {r : Request} {t : Triggers} {line : UInt8}
    (h : r.gives t line = none) : r.configures line = none := by
  cases r <;> simp_all [gives, configures]

theorem gives_some {r : Request} {t : Triggers} {line : UInt8} {trigger : Trigger}
    (h : r.gives t line = some trigger) :
    trigger = .disabled ∨ trigger = (r.configures line).getD (t line) := by
  cases r with
  | irqType l τ =>
    simp only [gives, Option.ite_none_right_eq_some, Option.some.injEq] at h
    obtain ⟨rfl, rfl⟩ := h
    by_cases off : τ = .disabled
    · exact .inl off
    · simp [configures, off]
  | irqMask l =>
    simp only [gives, Option.ite_none_right_eq_some, Option.some.injEq] at h
    exact .inl h.2.symm
  | irqUnmask l =>
    simp only [gives, Option.ite_none_right_eq_some, Option.some.injEq] at h
    exact .inr h.2.symm
  | _ => cases h

end Request

theorem Request.decode_error {kind : UInt8} {body : Bytes} {status : Status}
    (h : decode kind body = .error status) : status = .invalid := by
  have missing {α : Type} {field : Option α} {f : α → Request}
      (h : (required field).map f = .error status) : status = .invalid := by
    cases field <;> cases h
    rfl
  unfold decode at h
  split at h
  case h_11 => exact missing h
  all_goals cases h
  rfl

def configured (done : List Request) (line : UInt8) : Trigger :=
  (done.reverse.findSome? (·.configures line)).getD .edgeRising

@[simp] theorem configured_concat (done : List Request) (r : Request) (line : UInt8) :
    configured (done ++ [r]) line = (r.configures line).getD (configured done line) := by
  rw [configured, List.reverse_concat, List.findSome?_cons]
  cases r.configures line <;> rfl

def Request.achieved (r : Request) : Reaction → List Request
  | .done _ => [r]
  | .refused _ => []
  | .quiet => []

@[simp] theorem after_configured (done : List Request) (r : Request) (reaction : Reaction) :
    Triggers.after (configured done) r reaction = configured (done ++ r.achieved reaction) := by
  cases reaction with
  | done payload =>
    funext line
    rw [Request.achieved, configured_concat]
    cases r with
    | irqType l trigger =>
      cases trigger <;>
        simp only [Triggers.after, Triggers.remember, Triggers.set, Request.configures, eq_comm,
          reduceCtorEq, if_true, if_false] <;>
        split <;> rfl
    | _ => rfl
  | _ =>
    rw [Request.achieved, List.append_nil]
    cases r <;> rfl

theorem configured_achieved {done : List Request} {r : Request} {line : UInt8}
    (configures : r.configures line = none) (reaction : Reaction) :
    configured (done ++ r.achieved reaction) line = configured done line := by
  cases reaction with
  | done payload => rw [Request.achieved, configured_concat, configures]; rfl
  | _ => rw [Request.achieved, List.append_nil]

theorem Bank.line?_modify {b b' : Bank} {line : UInt8} {change : Line → Line}
    (h : b.modify line change = .ok b') (l : UInt8) :
    b'.line? l = if line = l then (b.line? l).map change else b.line? l := by
  unfold modify at h
  split at h
  · rename_i found
    cases h
    simp only [line?, List.getElem?_set, UInt8.toNat_inj]
    split
    · rename_i same
      subst same
      have found : b.lines[line.toNat]? = some _ := found
      rw [found, if_pos (List.getElem?_eq_some_iff.mp found).1]
      rfl
    · rfl
  · cases h

theorem Bank.handler_modify {b b' : Bank} {line : UInt8} {change : Line → Line}
    (h : b.modify line change = .ok b') : b'.handler = b.handler := by
  unfold modify at h
  split at h <;> cases h
  rfl

theorem Bank.trigger?_modify {b b' : Bank} {line : UInt8} {change : Line → Line}
    (h : b.modify line change = .ok b') (kept : ∀ x, (change x).trigger = x.trigger) (l : UInt8) :
    b'.trigger? l = b.trigger? l := by
  rw [trigger?, trigger?, line?_modify h]
  split
  · rw [Option.map_map]
    exact congrArg (Option.map · _) (funext kept)
  · rfl

theorem Bank.setTrigger_of_some {b : Bank} {line : UInt8} {x : Line} (h : b.line? line = some x)
    (trigger : Trigger) : ∃ b', b.setTrigger line trigger = .ok b' := by
  simp only [setTrigger, modify, h]
  exact ⟨_, rfl⟩

theorem Bank.trigger?_setTrigger {b b' : Bank} {line : UInt8} {trigger : Trigger}
    (h : b.setTrigger line trigger = .ok b') (l : UInt8) :
    b'.trigger? l =
      (b.trigger? l).map fun before => (if line = l then some trigger else none).getD before := by
  rw [trigger?, trigger?, line?_modify h]
  split
  · rw [Option.map_map, Option.map_map]
    rfl
  · simp only [Option.getD_none, Option.map_id']

structure Executes (r : Request) (t : Triggers) (b : Board) (outcome : Reaction × Board) :
    Prop where
  tells : ∃ status payload, Node.Tells outcome.1 status payload ∧ payload.length ≤ 2 ∧
    (status = .success ↔ r.achieved outcome.1 ≠ [])
  bank : ∃ bank, outcome.2 = { b with gpio := bank } ∧ bank.handler = b.gpio.handler ∧
    ∀ l, bank.trigger? l = (b.gpio.trigger? l).map fun before => (r.gives t l).getD before
  succeeds : ∀ l trigger, r.gives t l = some trigger → b.gpio.trigger? l ≠ none →
    outcome.1 = .done []

section Executes

variable {r : Request} {t : Triggers} {b : Board}

theorem tells_done {payload : Bytes} (short : payload.length ≤ 2) :
    ∃ status payload', Node.Tells (.done payload) status payload' ∧ payload'.length ≤ 2 ∧
      (status = .success ↔ r.achieved (.done payload) ≠ []) :=
  ⟨.success, payload, .done, short, iff_of_true rfl (List.cons_ne_nil r [])⟩

theorem tells_refused {status : Status} (failed : status ≠ .success) :
    ∃ status' payload, Node.Tells (.refused status) status' payload ∧ payload.length ≤ 2 ∧
      (status' = .success ↔ r.achieved (.refused status) ≠ []) :=
  ⟨status, [], .refused, Nat.zero_le _, iff_of_false failed fun some => some rfl⟩

theorem executes_query {reaction : Reaction}
    (tells : ∃ status payload, Node.Tells reaction status payload ∧ payload.length ≤ 2 ∧
      (status = .success ↔ r.achieved reaction ≠ []))
    (gives : ∀ l, r.gives t l = none) : Executes r t b (reaction, b) where
  tells := tells
  bank := ⟨b.gpio, rfl, rfl, fun l => by simp [gives]⟩
  succeeds l _ given := by simp only [gives, reduceCtorEq] at given

theorem executes_ofQuery {α : Type} (payload : α → UInt8) (outcome : Except DriverError α)
    (gives : ∀ l, r.gives t l = none) :
    Executes r t b (.ofQuery (fun a => [payload a]) outcome, b) := by
  cases outcome with
  | ok a => exact executes_query (tells_done (by simp)) gives
  | error e => exact executes_query (tells_refused e.status_ne_success) gives

theorem executes_modify (capability : Capability) (line : UInt8) {change : Line → Line}
    (kept : ∀ x, (change x).trigger = x.trigger) (gives : ∀ l, r.gives t l = none) :
    Executes r t b
      (b.reactTo (b.guarded capability (b.withGpio (b.gpio.modify line change)))) := by
  cases outcome : b.guarded capability (b.withGpio (b.gpio.modify line change)) with
  | error e => exact executes_query (tells_refused e.status_ne_success) gives
  | ok b' =>
    have reached := Board.ok_of_guarded outcome
    cases modified : b.gpio.modify line change with
    | error e =>
      rw [modified] at reached
      cases reached
    | ok bank =>
      rw [modified] at reached
      cases reached
      refine ⟨tells_done (Nat.zero_le _), ⟨bank, rfl, Bank.handler_modify modified,
        fun l => ?_⟩, fun _ _ _ _ => rfl⟩
      simp [gives, Bank.trigger?_modify modified kept]

theorem executes_configure (free : b.obstacle? .gpioConfigureInterrupt = none) {line : UInt8}
    {trigger : Trigger} (gives : ∀ l, r.gives t l = if line = l then some trigger else none) :
    Executes r t b (b.reactTo (b.configureInterrupt line trigger)) := by
  rw [Board.configureInterrupt, Board.guarded_of_free free]
  cases configured : b.gpio.setTrigger line trigger with
  | error e =>
    have missing : b.gpio.line? line = none := by
      cases found : b.gpio.line? line with
      | none => rfl
      | some x =>
        obtain ⟨_, set⟩ := Bank.setTrigger_of_some found trigger
        rw [set] at configured
        cases configured
    refine ⟨tells_refused e.status_ne_success, ⟨b.gpio, rfl, rfl, fun l => ?_⟩,
      fun l _ given => ?_⟩
    · rw [gives]
      split
      · rename_i same
        rw [Bank.trigger?, ← same, missing]
        rfl
      · simp
    · rw [gives, Option.ite_none_right_eq_some] at given
      intro known
      rw [Bank.trigger?, ← given.1, missing] at known
      exact absurd rfl known
  | ok bank =>
    refine ⟨tells_done (Nat.zero_le _), ⟨bank, rfl, Bank.handler_modify configured,
      fun l => ?_⟩, fun _ _ _ _ => rfl⟩
    rw [Bank.trigger?_setTrigger configured, gives]

end Executes

theorem executes_execute {b : Board} (free : b.obstacle? .gpioConfigureInterrupt = none)
    (r : Request) (t : Triggers) : Executes r t b (r.execute t b) := by
  cases r with
  | version => exact executes_query (tells_done (by simp)) fun _ => rfl
  | lineCount =>
    simp only [Request.execute]
    split
    · exact executes_query (tells_refused (by decide)) fun _ => rfl
    · exact executes_query (tells_done (by simp)) fun _ => rfl
  | activate line => exact executes_query (tells_done (by simp)) fun _ => rfl
  | direction line => exact executes_ofQuery _ _ fun _ => rfl
  | setInput line => exact executes_modify _ line (fun _ => rfl) fun _ => rfl
  | setOutput line high => exact executes_modify _ line (fun _ => rfl) fun _ => rfl
  | level line => exact executes_ofQuery _ _ fun _ => rfl
  | setLevel line high => exact executes_modify _ line (fun _ => rfl) fun _ => rfl
  | setDebounce line microseconds =>
    simp only [Request.execute]
    split
    · exact executes_query (tells_done (by simp)) fun _ => rfl
    · exact executes_modify _ line (fun _ => rfl) fun _ => rfl
  | irqType line trigger => exact executes_configure free fun _ => rfl
  | irqMask line => exact executes_configure free fun _ => rfl
  | irqUnmask line =>
    refine executes_configure free fun l => ?_
    simp only [Request.gives]
    split
    · rename_i same
      rw [same]
    · rfl

theorem Executes.kept {done : List Request} {r : Request} {b : Board}
    {outcome : Reaction × Board} (h : Executes r (configured done) b outcome)
    (before : ∀ line trigger, b.gpio.trigger? line = some trigger →
      trigger = .disabled ∨ trigger = configured done line) (line : UInt8) (trigger : Trigger)
    (after : outcome.2.gpio.trigger? line = some trigger) :
    trigger = .disabled ∨ trigger = configured (done ++ r.achieved outcome.1) line := by
  obtain ⟨bank, changed, -, triggers⟩ := h.bank
  rw [changed, triggers, Option.map_eq_some_iff] at after
  obtain ⟨was, present, rfl⟩ := after
  cases gives : r.gives (configured done) line with
  | none =>
    rw [configured_achieved (Request.configures_of_gives gives)]
    exact before line was present
  | some given =>
    rw [h.succeeds line given gives (by rw [present]; exact Option.some_ne_none was),
      Request.achieved, configured_concat]
    exact Request.gives_some gives

inductive Deed
  | asks (m : Message)
  | fires (line : UInt8)

namespace Deed

def apply (c : UInt16) : Deed → Node → Node
  | asks m, n => n.dispatch ⟨c, m⟩
  | fires line, n => (Stimulus.fires line).apply n

def request? : Deed → Option Request
  | asks m => (Request.decode m.kind m.payload).toOption
  | fires _ => none

def line? : Deed → Option UInt8
  | fires line => some line
  | d => d.request?.bind Request.line?

/-- The trigger that a line is left with, if it is not the one it had. -/
def gives (t : Triggers) (line : UInt8) : Deed → Option Trigger
  | fires l => if l = line then some .disabled else none
  | d => d.request?.bind (Request.gives t line)

theorem gives_of_line? {d : Deed} {line : UInt8} (other : d.line? ≠ some line) (t : Triggers) :
    d.gives t line = none := by
  cases d with
  | fires l => exact if_neg fun same => other (congrArg some same)
  | asks m =>
    simp only [line?, gives] at other ⊢
    cases decoded : (asks m).request? with
    | none => rfl
    | some r =>
      rw [decoded] at other
      exact Request.gives_of_line? other t

end Deed

end Gpio

namespace Node

open Gpio

def does (n : Node) (c : UInt16) (deeds : List Deed) : Node :=
  deeds.foldl (fun n d => d.apply c n) n

def fulfils (n : Node) (c : UInt16) : Deed → List Request
  | .asks m =>
    match n.registry.route c, Request.decode m.kind m.payload with
    | .driver d, .ok r => r.achieved (n.carryOut c d m.kind m.payload).1
    | _, _ => []
  | .fires _ => []

def fulfilled (c : UInt16) : Node → List Deed → List Request
  | _, [] => []
  | n, d :: deeds => n.fulfils c d ++ (d.apply c n).fulfilled c deeds

structure Manned (c : UInt16) (done : List Request) (n : Node) : Prop where
  bound : n.registry.route c = .driver (.gpio (configured done))
  handler : n.board.gpio.handler = some (.report c)
  free : n.board.obstacle? .gpioConfigureInterrupt = none
  ready : n.link.Open
  triggers : ∀ line trigger, n.board.gpio.trigger? line = some trigger →
    trigger = .disabled ∨ trigger = configured done line

theorem manned_register {n n' : Node} {c : UInt16} {bundle : UInt8}
    (registered : n.register c bundle (.gpio .fresh) = (.ok (), n'))
    (disarmed : ∀ line, ¬ n.board.gpio.Armed line)
    (free : n.board.obstacle? .gpioConfigureInterrupt = none) (ready : n.link.Open) :
    Manned c [] n' := by
  unfold register at registered
  split at registered
  · cases registered
  · rename_i admitted
    obtain ⟨s, hs, -⟩ := Registry.vacant_of_admits admitted
    simp only [initDriver] at registered
    cases installed : (n.called .init c).board.setIrqHandler (some (.report c)) with
    | error e =>
      rw [installed] at registered
      cases registered
    | ok board =>
      rw [installed] at registered
      cases Board.ok_of_guarded installed
      simp only [adopt, called, Registry.driver?_of_admits admitted] at registered
      cases registered
      exact
        { bound := Registry.route_modify_self _ _ _ hs
          handler := rfl
          free := free
          ready := ready
          triggers := fun line _ present => .inl (Bank.eq_disabled (disarmed line) present) }

theorem fulfils_of_error {n : Node} {c : UInt16} {m : Message} {status : Status}
    (decoded : Request.decode m.kind m.payload = .error status) : n.fulfils c (.asks m) = [] := by
  simp only [fulfils, decoded]
  split
  · rename_i impossible
    cases impossible
  · rfl

theorem Manned.fulfils {n : Node} {c : UInt16} {done : List Request} (h : Manned c done n)
    {m : Message} {r : Request} (decoded : Request.decode m.kind m.payload = .ok r) :
    n.fulfils c (.asks m) = r.achieved (r.execute (configured done) n.board).1 := by
  simp only [Node.fulfils, h.bound, decoded, carryOut, carryOutGpio]

structure Done (c : UInt16) (done : List Request) (n : Node) (d : Deed) (n' : Node) : Prop where
  manned : Manned c (done ++ n.fulfils c d) n'
  triggers : ∀ line, n'.board.gpio.trigger? line =
    (n.board.gpio.trigger? line).map fun before => (d.gives (configured done) line).getD before
  succeeds : ∀ r line trigger, d.request? = some r →
    r.gives (configured done) line = some trigger → n.board.gpio.trigger? line ≠ none →
    n.fulfils c d = [r]

def Answered (c : UInt16) (n : Node) (m : Message) (n' : Node) : Prop :=
  ∃ status payload, n.link.Sends (answers ⟨c, m⟩ status payload) n'.link ∧
    (status = .success ↔ m.kind = Message.pingKind ∨ n.fulfils c (.asks m) ≠ [])

theorem Manned.of_error {n : Node} {c : UInt16} {done : List Request} (h : Manned c done n)
    {m : Message} {status : Status} (decoded : Request.decode m.kind m.payload = .error status)
    {counters : Counters} {calls : List Call} {link : Link} (ready : link.Open) :
    Done c done n (.asks m) { n with counters, calls, link } where
  manned := by
    rw [fulfils_of_error decoded, List.append_nil]
    exact ⟨h.bound, h.handler, h.free, ready, h.triggers⟩
  triggers line := by
    simp [Deed.gives, Deed.request?, decoded, Except.toOption]
  succeeds r line trigger asked := by
    simp only [Deed.request?, decoded, Except.toOption, reduceCtorEq] at asked

/-- What a host is told that asks a driver of GPIO lines for something, and the node afterwards.  A
ping is answered too, but is none of the driver's business. -/
inductive Attended (t : Triggers) (c : UInt16) (m : Message) (n : Node) :
    Status → Bytes → Node → Prop
  | unheard {status : Status} {counters : Counters} {calls : List Call} {link : Link}
      (decoded : Request.decode m.kind m.payload = .error .invalid)
      (success : status = .success ↔ m.kind = Message.pingKind) :
      Attended t c m n status [] { n with counters, calls, link }
  | executed {r : Request} {status : Status} {payload : Bytes} {counters : Counters}
      {calls : List Call} {link : Link} (decoded : Request.decode m.kind m.payload = .ok r)
      (tells : Tells (r.execute t n.board).1 status payload)
      (success : status = .success ↔ r.achieved (r.execute t n.board).1 ≠ []) :
      Attended t c m n status payload
        { n with
          registry :=
            n.registry.modify c (.update (.gpio (t.after r (r.execute t n.board).1)))
          board := (r.execute t n.board).2
          counters, calls, link }

theorem attended_dispatch {n : Node} {c : UInt16} {t : Triggers}
    (bound : n.registry.route c = .driver (.gpio t))
    (free : n.board.obstacle? .gpioConfigureInterrupt = none) (ready : n.link.Open) (m : Message) :
    ∃ status payload, Attended t c m n status payload (n.dispatch ⟨c, m⟩) ∧
      n.link.Sends (answers ⟨c, m⟩ status payload) (n.dispatch ⟨c, m⟩).link := by
  obtain ⟨s, hs, -⟩ := Registry.slot?_of_route bound
  by_cases ping : m.kind = Message.pingKind
  · have decoded : Request.decode m.kind m.payload = .error .invalid := by
      rw [ping]
      rfl
    obtain ⟨link, responded, sent⟩ := respond_of_open (p := ⟨c, m⟩)
      (n := n.count fun c => { c with pinged := c.pinged + 1 })
      (Registry.requireRange_eq hs) ready .success [] (Nat.zero_le _)
    have dispatched : n.dispatch ⟨c, m⟩ =
        { n.count fun c => { c with pinged := c.pinged + 1 } with link } := by
      simp only [dispatch, bound, if_pos ping, answer, responded]
    rw [dispatched]
    exact ⟨.success, [], .unheard decoded (iff_of_true rfl ping), sent⟩
  · let n₀ := (n.count fun c => { c with dispatched := c.dispatched + 1 }).called (.handle m) c
    rw [dispatch_of_route bound ping]
    cases decoded : Request.decode m.kind m.payload with
    | error status =>
      cases Request.decode_error decoded
      have carried : n₀.carryOut c (.gpio t) m.kind m.payload = (.refused .invalid, n₀) := by
        simp only [carryOut, carryOutGpio, decoded]
      obtain ⟨link, handled, sent⟩ := handle_tells (p := ⟨c, m⟩) rfl carried .refused
        (Nat.zero_le _) (Registry.requireRange_eq hs) ready
      rw [handled]
      exact ⟨.invalid, [], .unheard decoded (iff_of_false (by decide) ping), sent⟩
    | ok r =>
      obtain ⟨status, payload, tells, short, success⟩ := (executes_execute free r t).tells
      let remembers := Slot.update (.gpio (t.after r (r.execute t n.board).1))
      have carried : n₀.carryOut c (.gpio t) m.kind m.payload =
          ((r.execute t n.board).1,
            { n₀ with board := (r.execute t n.board).2 }.modifySlot c remembers) := by
        simp only [carryOut, carryOutGpio, decoded]
        rfl
      have updated : (n.registry.modify c remembers).slot? c = some (remembers s) := by
        simp [hs]
      obtain ⟨link, handled, sent⟩ := handle_tells (p := ⟨c, m⟩) rfl carried tells
        (Nat.le_trans short (by decide)) (Registry.requireRange_eq updated) ready
      rw [handled]
      exact ⟨status, payload, .executed decoded tells success, sent⟩

theorem Manned.attended {n n' : Node} {c : UInt16} {done : List Request} (h : Manned c done n)
    {m : Message} {status : Status} {payload : Bytes}
    (attended : Attended (configured done) c m n status payload n') (ready : n'.link.Open) :
    Done c done n (.asks m) n' ∧
      (status = .success ↔ m.kind = Message.pingKind ∨ n.fulfils c (.asks m) ≠ []) := by
  cases attended with
  | unheard decoded success =>
    refine ⟨h.of_error decoded ready, success.trans ?_⟩
    simp [fulfils_of_error decoded]
  | @executed r _ _ _ _ _ decoded _ success =>
    have executes := executes_execute h.free r (configured done)
    have fulfils := h.fulfils decoded
    obtain ⟨bank, changed, handler, triggers⟩ := executes.bank
    have kept := executes.kept h.triggers
    have asked : (Deed.asks m).request? = some r := by
      simp only [Deed.request?, decoded, Except.toOption]
    have kind : m.kind ≠ Message.pingKind := by
      intro ping
      rw [ping] at decoded
      cases decoded
    rw [after_configured]
    rw [← fulfils] at success kept ⊢
    rw [changed] at kept ⊢
    refine ⟨⟨⟨Registry.route_update h.bound _, handler.trans h.handler, h.free, ready, kept⟩,
      fun line => ?_, fun r' line trigger asked' gives present => ?_⟩, ?_⟩
    · simp only [Deed.gives, asked, Option.bind_some]
      exact triggers line
    · cases asked.symm.trans asked'
      rw [fulfils, executes.succeeds line trigger gives present, Request.achieved]
    · simp [success, kind]

theorem Manned.dispatch {n : Node} {c : UInt16} {done : List Request} (h : Manned c done n)
    (m : Message) : Done c done n (.asks m) (n.dispatch ⟨c, m⟩) ∧
      Answered c n m (n.dispatch ⟨c, m⟩) := by
  obtain ⟨status, payload, attended, sent⟩ := attended_dispatch h.bound h.free h.ready m
  obtain ⟨did, success⟩ := h.attended attended (sent.open h.ready)
  exact ⟨did, status, payload, sent, success⟩

theorem fires_of_disarmed {n : Node} {line : UInt8} (disarmed : ¬ n.board.gpio.Armed line) :
    (Stimulus.fires line).apply n = n := by
  have idle : n.board.gpio.armedHandler line = none := by
    unfold Bank.armedHandler
    split
    · rename_i x found
      rw [if_pos (Bank.eq_disabled disarmed (congrArg (Option.map _) found))]
    · rfl
  simp only [Stimulus.apply, fire, Board.trigger, idle]

def irqEvent (c : UInt16) (line : UInt8) : Packet :=
  ⟨c, ⟨0, irqEventKind, Status.success.code, [line]⟩⟩

theorem Manned.fires_of_armed {n : Node} {c : UInt16} {done : List Request} (h : Manned c done n)
    {line : UInt8} (armed : n.board.gpio.Armed line) :
    ∃ bank link, n.board.gpio.setTrigger line .disabled = .ok bank ∧
      n.link.Sends [irqEvent c line] link ∧
      (Stimulus.fires line).apply n = { n with board := { n.board with gpio := bank }, link } := by
  obtain ⟨_, armed, on⟩ := armed
  obtain ⟨x, found, rfl⟩ := Option.map_eq_some_iff.mp armed
  obtain ⟨bank, disarmed⟩ := Bank.setTrigger_of_some found .disabled
  obtain ⟨s, hs, -⟩ := Registry.slot?_of_route h.bound
  obtain ⟨link, sent⟩ := h.ready (irqEvent c line)
  have reports : n.board.gpio.armedHandler line = some (.report c) := by
    rw [Bank.armedHandler, found]
    exact (if_neg on).trans h.handler
  have configured : n.board.configureInterrupt line .disabled =
      .ok { n.board with gpio := bank } := by
    rw [Board.configureInterrupt, Board.guarded_of_free h.free, disarmed]
    rfl
  have offered : Link.offer n.registry.size n.link (irqEvent c line) = link := by
    rw [Link.offer, sent]
    exact if_pos (Registry.toNat_lt_size hs)
  refine ⟨bank, link, disarmed, .of_send sent, ?_⟩
  simp only [Stimulus.apply, fire, Board.trigger, reports, configured, request_report]
  exact congrArg (fun link => { n with board := { n.board with gpio := bank }, link }) offered

theorem Manned.fires {n : Node} {c : UInt16} {done : List Request} (h : Manned c done n)
    (line : UInt8) : Done c done n (.fires line) ((Stimulus.fires line).apply n) := by
  have unfired : done ++ n.fulfils c (.fires line) = done := List.append_nil done
  by_cases armed : n.board.gpio.Armed line
  · obtain ⟨bank, link, disarmed, sent, fired⟩ := h.fires_of_armed armed
    have triggers := Bank.trigger?_setTrigger disarmed
    rw [fired]
    refine ⟨?_, triggers, nofun⟩
    rw [unfired]
    refine ⟨h.bound, (Bank.handler_modify disarmed).trans h.handler, h.free, sent.open h.ready,
      fun l τ present => ?_⟩
    have present : bank.trigger? l = some τ := present
    rw [triggers, Option.map_eq_some_iff] at present
    obtain ⟨before, was, rfl⟩ := present
    split
    · exact .inl rfl
    · exact h.triggers l before was
  · rw [fires_of_disarmed armed]
    refine ⟨unfired.symm ▸ h, fun l => ?_, nofun⟩
    simp only [Deed.gives]
    split
    · rename_i same
      subst same
      cases present : n.board.gpio.trigger? line with
      | none => rfl
      | some trigger => rw [Bank.eq_disabled armed present]; rfl
    · simp

theorem Manned.deed {n : Node} {c : UInt16} {done : List Request} (h : Manned c done n)
    (d : Deed) : Done c done n d (d.apply c n) := by
  cases d with
  | asks m => exact (h.dispatch m).1
  | fires line => exact h.fires line

theorem Manned.does {n : Node} {c : UInt16} {done : List Request} (h : Manned c done n)
    (deeds : List Deed) : Manned c (done ++ n.fulfilled c deeds) (n.does c deeds) := by
  induction deeds generalizing n done with
  | nil => rwa [fulfilled, List.append_nil]
  | cons d deeds ih =>
    rw [fulfilled, ← List.append_assoc]
    exact ih (h.deed d).manned

theorem rearms_of_gives {r : Request} {t : Triggers} {line : UInt8} {trigger : Trigger}
    (gives : r.gives t line = some trigger) (on : trigger ≠ .disabled) :
    r = .irqUnmask line ∨ ∃ τ, τ ≠ .disabled ∧ r = .irqType line τ := by
  cases r with
  | irqType l τ =>
    simp only [Request.gives, Option.ite_none_right_eq_some, Option.some.injEq] at gives
    obtain ⟨rfl, rfl⟩ := gives
    exact .inr ⟨τ, on, rfl⟩
  | irqMask l =>
    simp only [Request.gives, Option.ite_none_right_eq_some, Option.some.injEq] at gives
    exact absurd gives.2.symm on
  | irqUnmask l =>
    simp only [Request.gives, Option.ite_none_right_eq_some] at gives
    exact .inl (by rw [gives.1])
  | _ => cases gives

theorem Done.rearms {n n' : Node} {c : UInt16} {done : List Request} {d : Deed} {line : UInt8}
    (did : Done c done n d n') (disarmed : ¬ n.board.gpio.Armed line)
    (armed : n'.board.gpio.Armed line) :
    ∃ r, n.fulfils c d = [r] ∧
      (r = .irqUnmask line ∨ ∃ τ, τ ≠ .disabled ∧ r = .irqType line τ) := by
  obtain ⟨_, armed, on⟩ := armed
  rw [did.triggers, Option.map_eq_some_iff] at armed
  obtain ⟨before, present, rfl⟩ := armed
  rw [Bank.eq_disabled disarmed present] at on
  cases gives : d.gives (configured done) line with
  | none =>
    rw [gives] at on
    exact absurd rfl on
  | some given =>
    rw [gives, Option.getD_some] at on
    cases d with
    | fires l =>
      simp only [Deed.gives, Option.ite_none_right_eq_some, Option.some.injEq] at gives
      exact absurd gives.2.symm on
    | asks m =>
      obtain ⟨r, asked, gives⟩ := Option.bind_eq_some_iff.mp gives
      have known : n.board.gpio.trigger? line ≠ none := by
        rw [present]
        exact Option.some_ne_none before
      exact ⟨r, did.succeeds r line given asked gives known, rearms_of_gives gives on⟩

theorem Manned.rearmed {n : Node} {c : UInt16} {done : List Request} (h : Manned c done n)
    {line : UInt8} {deeds : List Deed} (disarmed : ¬ n.board.gpio.Armed line)
    (armed : (n.does c deeds).board.gpio.Armed line) :
    ∃ r ∈ n.fulfilled c deeds, r = .irqUnmask line ∨ ∃ τ, τ ≠ .disabled ∧ r = .irqType line τ := by
  induction deeds generalizing n done with
  | nil => exact absurd armed disarmed
  | cons d deeds ih =>
    have did := h.deed d
    by_cases now : (d.apply c n).board.gpio.Armed line
    · obtain ⟨r, fulfils, rearms⟩ := did.rearms disarmed now
      refine ⟨r, ?_, rearms⟩
      rw [fulfilled, fulfils]
      exact List.mem_cons_self
    · obtain ⟨r, later, rearms⟩ := ih did.manned now armed
      exact ⟨r, List.mem_append_right _ later, rearms⟩

/-- How the lines stand with the requests that have succeeded so far. -/
structure OneShot (c : UInt16) (done : List Request) (n : Node) : Prop where
  triggers : ∀ line trigger, n.board.gpio.trigger? line = some trigger →
    trigger = .disabled ∨ trigger = configured done line
  answered : ∀ m, Answered c n m (n.dispatch ⟨c, m⟩)
  armed : ∀ line, n.board.gpio.Armed line →
    n.Reports (.fires line) [irqEvent c line] ∧
      ((Stimulus.fires line).apply n).board.gpio.trigger? line = some .disabled
  disarmed : ∀ line, ¬ n.board.gpio.Armed line → (Stimulus.fires line).apply n = n
  others : ∀ (d : Deed) line, d.line? ≠ some line →
    (d.apply c n).board.gpio.trigger? line = n.board.gpio.trigger? line
  restored : ∀ m m' line, Request.decode m.kind m.payload = .ok (.irqMask line) →
    Request.decode m'.kind m'.payload = .ok (.irqUnmask line) →
    (n.does c [.asks m, .asks m']).board.gpio.trigger? line =
      (n.board.gpio.trigger? line).map fun _ => configured done line

theorem Manned.oneShot {n : Node} {c : UInt16} {done : List Request} (h : Manned c done n) :
    OneShot c done n where
  triggers := h.triggers
  answered m := (h.dispatch m).2
  armed line armed := by
    obtain ⟨bank, link, disarmed, sent, fired⟩ := h.fires_of_armed armed
    obtain ⟨trigger, present, -⟩ := armed
    rw [Reports, fired]
    refine ⟨sent, ?_⟩
    rw [Bank.trigger?_setTrigger disarmed, present, if_pos rfl]
    rfl
  disarmed line := fires_of_disarmed
  others d line other := by
    rw [(h.deed d).triggers, Deed.gives_of_line? other]
    simp
  restored m m' line masks unmasks := by
    have masked := h.deed (.asks m)
    have unmasked := masked.manned.deed (.asks m')
    have first : (Deed.asks m).request? = some (.irqMask line) := by
      simp only [Deed.request?, masks, Except.toOption]
    have second : (Deed.asks m').request? = some (.irqUnmask line) := by
      simp only [Deed.request?, unmasks, Except.toOption]
    have same : configured (done ++ n.fulfils c (.asks m)) line = configured done line := by
      rw [h.fulfils masks, configured_achieved rfl]
    show (Deed.apply c (.asks m') (Deed.apply c (.asks m) n)).board.gpio.trigger? line = _
    rw [unmasked.triggers, masked.triggers]
    simp only [Deed.gives, second, Option.bind_some, Request.gives, if_true, Option.getD_some, same,
      Option.map_map]
    rfl

/-- The driver keeps to this from the time it is bound to disarmed lines.  A line that fires, and
then fires again with an interrupt to report, has been armed by a successful request in between. -/
theorem interrupts_one_shot {n start : Node} {c : UInt16} {bundle : UInt8}
    (registered : n.register c bundle (.gpio .fresh) = (.ok (), start))
    (disarmed : ∀ line, ¬ n.board.gpio.Armed line)
    (free : n.board.obstacle? .gpioConfigureInterrupt = none) (accepts : n.link.Open)
    (deeds : List Deed) :
    OneShot c (start.fulfilled c deeds) (start.does c deeds) ∧
      ∀ line later, (start.does c (deeds ++ .fires line :: later)).Reports (.fires line)
          [irqEvent c line] →
        ∃ r ∈ (start.does c (deeds ++ [.fires line])).fulfilled c later,
          r = .irqUnmask line ∨ ∃ trigger, trigger ≠ .disabled ∧ r = .irqType line trigger := by
  have manned := (manned_register registered disarmed free accepts).does deeds
  have oneShot := manned.oneShot
  refine ⟨oneShot, fun line later reported => ?_⟩
  have fired : start.does c (deeds ++ [.fires line]) =
      (Stimulus.fires line).apply (start.does c deeds) := List.foldl_append
  have spent : ¬ (start.does c (deeds ++ [.fires line])).board.gpio.Armed line := by
    rw [fired]
    by_cases armed : (start.does c deeds).board.gpio.Armed line
    · rintro ⟨trigger, present, on⟩
      cases (oneShot.armed line armed).2.symm.trans present
      exact on rfl
    · rwa [oneShot.disarmed line armed]
  have split : start.does c (deeds ++ .fires line :: later) =
      (start.does c (deeds ++ [.fires line])).does c later := by
    simp [does]
  rw [split] at reported
  have after : Manned c _ (start.does c (deeds ++ [.fires line])) :=
    fired ▸ (manned.fires line).manned
  refine after.rearmed spent (Classical.byContradiction fun silent => ?_)
  rw [Reports, fires_of_disarmed silent] at reported
  exact absurd reported.eq_nil (List.cons_ne_nil _ _)

def watching : Node :=
  ofParts { Config.empty with cports := [⟨0, .control⟩, ⟨1, .gpio⟩] } .fresh (.memory .fresh)

theorem watching_reports_once :
    let start := (watching.register 1 1 (.gpio .fresh)).2
    let rising := Deed.asks ⟨7, 0x0b, 0, [3, 1]⟩
    start.fulfilled 1 [rising] = [.irqType 3 .edgeRising] ∧
      (start.does 1 [rising]).Reports (.fires 3) [⟨1, ⟨0, 0x0e, 0, [3]⟩⟩] ∧
      (Stimulus.fires 3).apply (start.does 1 [rising, .fires 3]) =
        start.does 1 [rising, .fires 3] := by
  intro start rising
  have registered : watching.register 1 1 (.gpio .fresh) = (.ok (), start) := rfl
  have disarmed (line : UInt8) : ¬ watching.board.gpio.Armed line := by
    rintro ⟨trigger, present, on⟩
    obtain ⟨x, found, rfl⟩ := Option.map_eq_some_iff.mp present
    exact on (congrArg Line.trigger (List.eq_of_mem_replicate (List.mem_of_getElem? found)))
  have oneShot (deeds : List Deed) :=
    (interrupts_one_shot registered disarmed rfl (fun p => ⟨_, rfl⟩) deeds).1
  have armed : (start.does 1 [rising]).board.gpio.Armed 3 := ⟨.edgeRising, rfl, by decide⟩
  have spent : ¬ (start.does 1 [rising, .fires 3]).board.gpio.Armed 3 := by
    rintro ⟨trigger, present, on⟩
    cases present
    exact on rfl
  exact ⟨rfl, ((oneShot [rising]).armed 3 armed).1, (oneShot [rising, .fires 3]).disarmed 3 spent⟩

end Node

end CportNode
