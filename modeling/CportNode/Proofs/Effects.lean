import CportNode.Proofs.Indifference
import CportNode.Proofs.Peripherals

namespace CportNode

namespace Concur

variable {ε α : Type} {R : α → α → Prop} {a : α} {e : ε} {x : Except ε α}

theorem of_error (h : Concur R (.error e) x) : x = .error e := by
  cases h
  rfl

theorem of_ok (h : Concur R (.ok a) x) : ∃ b, x = .ok b ∧ R a b := by
  cases h with
  | ok related => exact ⟨_, rfl, related⟩

end Concur

namespace Link

variable {l l' : Link} {packets : List Packet}

@[simp] theorem open_withListening_iff {set : CportSet} : (l.withListening set).Open ↔ l.Open := by
  refine ⟨fun ready => ?_, fun ready => ready.withListening set⟩
  rw [← l.withListening_listening, ← l.withListening_withListening set]
  exact ready.withListening _

theorem Sends.open_of_ne_nil (h : l.Sends packets l') (some : packets ≠ []) : l.Open := by
  obtain ⟨set, sent⟩ := h
  cases packets with
  | nil => exact absurd rfl some
  | cons p packets =>
    rw [List.foldlM_cons] at sent
    cases first : (l.withListening set).send p with
    | error e =>
      rw [first] at sent
      cases sent
    | ok next => exact open_withListening_iff.mp (.of_send first)

theorem Sends.open_iff (h : l.Sends packets l') : l'.Open ↔ l.Open := by
  refine ⟨fun ready => ?_, h.open⟩
  by_cases some : packets = []
  · obtain ⟨set, sent⟩ := h
    subst some
    cases sent
    exact open_withListening_iff.mp ready
  · exact h.open_of_ne_nil some

theorem Sends.alike (h : l.Sends packets l') (same : l'.listening = l.listening) :
    l.Alike l' := by
  obtain ⟨set, sent⟩ := h
  have alike := rel_of_foldlM Alike.refl Alike.trans Alike.of_send sent
  have listening : l'.listening = (l.withListening set).listening :=
    rel_of_foldlM (R := fun l l' => l'.listening = l.listening) (fun _ => rfl)
      (fun h h' => h'.trans h) listening_send sent
  rw [same, listening_withListening] at listening
  rwa [← listening, withListening_listening] at alike

end Link

namespace Counters

instance : Add Counters where
  add a b := ⟨a.received + b.received, a.dispatched + b.dispatched, a.pinged + b.pinged,
    a.droppedUnbound + b.droppedUnbound, a.drained + b.drained, a.handlerErrors + b.handlerErrors⟩

end Counters

namespace Registry

def restate (r : Registry) (c : UInt16) : Option Gpio.Triggers → Registry
  | none => r
  | some triggers => r.modify c (.update (.gpio triggers))

@[simp] theorem slot?_restate_of_ne (r : Registry) {c c' : UInt16} (triggers : Option Gpio.Triggers)
    (h : c' ≠ c) : (r.restate c triggers).slot? c' = r.slot? c' := by
  cases triggers with
  | none => rfl
  | some triggers => exact r.slot?_modify_of_ne _ h

@[simp] theorem size_restate (r : Registry) (c : UInt16) (triggers : Option Gpio.Triggers) :
    (r.restate c triggers).size = r.size := by
  cases triggers with
  | none => rfl
  | some triggers => exact r.size_modify c _

def Concurs (r r' : Registry) : Prop :=
  ∀ c, Concur (fun d d' : Driver => ∀ event : Event, event.fault d' = event.fault d)
    (r.requireBound c) (r'.requireBound c)

theorem Concurs.refl (r : Registry) : r.Concurs r := by
  intro c
  cases r.requireBound c with
  | error e => exact .error e
  | ok d => exact .ok fun _ => rfl

theorem concurs_restate {r : Registry} {c : UInt16} {triggers : Option Gpio.Triggers}
    (own : ∀ t, triggers = some t → ∃ before, r.driver? c = some (.gpio before)) :
    r.Concurs (r.restate c triggers) := by
  intro c'
  cases triggers with
  | none => exact Concurs.refl r c'
  | some t =>
    by_cases same : c' = c
    · obtain ⟨before, bound⟩ := own t rfl
      obtain ⟨s, hs, driver⟩ := slot?_of_driver? bound
      subst same
      simp only [requireBound, restate, slot?_modify_self, hs, driver, Option.map_some, Slot.update]
      exact .ok fun event => rfl
    · have kept := Concurs.refl r c'
      simp only [requireBound, slot?_restate_of_ne r (some t) same] at kept ⊢
      exact kept

end Registry

/-- What carrying out a request does, apart from what it says. -/
structure Work where
  /-- Holds the driver's peripheral as it is left. -/
  board : Board
  triggers : Option Gpio.Triggers
  listening : CportSet → CportSet
  calls : List Call

def Work.calledFor (w : Work) (p : Packet) : Work :=
  { w with calls := w.calls ++ [⟨.handle p.message, p.cport⟩] }

structure Work.Befits (w : Work) (d : Driver) : Prop where
  triggers : ∀ triggers, w.triggers = some triggers → ∃ before, d = .gpio before
  listening : d ≠ .control → w.listening = id

structure Effect extends Work where
  counted : Counters
  sent : List Packet

structure Effect.Befits (effect : Effect) (d : Driver) (c : UInt16) : Prop extends
    effect.toWork.Befits d where
  sent : ∀ p ∈ effect.sent, p.cport = c

theorem Work.Befits.of_none {w : Work} {d : Driver} (stateless : w.triggers = none)
    (listening : d ≠ .control → w.listening = id) : w.Befits d where
  triggers _ stated := by cases stateless.symm.trans stated
  listening := listening

theorem Work.Befits.silent {w : Work} {d : Driver} (h : w.Befits d) (counted : Counters)
    (c : UInt16) : Effect.Befits ⟨w, counted, []⟩ d c :=
  ⟨h, fun _ among => absurd among List.not_mem_nil⟩

namespace Node

variable {n n' : Node} {d e : Driver} {c t : UInt16}

def worked (n : Node) (d : Driver) (c : UInt16) (w : Work) : Node :=
  { n with
    board := n.board.fit w.board d.peripheral?
    registry := n.registry.restate c w.triggers
    link := n.link.withListening (w.listening n.link.listening)
    calls := w.calls ++ n.calls }

structure Untouched (d : Driver) (c : UInt16) (n n' : Node) : Prop where
  board : n.board.Agrees d.peripheral? n'.board
  here : n'.registry.slot? c = n.registry.slot? c
  bound : n.registry.Concurs n'.registry
  sends : ∃ packets, n.link.Sends packets n'.link
  listening : d = .control → n'.link.listening = n.link.listening

def idle (n : Node) : Work :=
  ⟨n.board, none, id, []⟩

theorem Untouched.worked_idle (h : Untouched d c n n') : n'.worked d c n.idle = n' := by
  simp [worked, idle, h.board.fit_eq, Registry.restate]

theorem befits_idle (n : Node) (d : Driver) : n.idle.Befits d :=
  .of_none rfl fun _ => rfl

def Settled (n : Node) (d : Driver) (c : UInt16) (act : Node → Reaction × Node) : Prop :=
  ∃ reaction, ∃ w : Work, w.Befits d ∧
    ∀ n', Untouched d c n n' → act n' = (reaction, n'.worked d c w)

theorem settled_idle {act : Node → Reaction × Node} (reaction : Reaction)
    (idle : ∀ n', Untouched d c n n' → act n' = (reaction, n')) : Settled n d c act :=
  ⟨reaction, n.idle, n.befits_idle d, fun n' untouched => by
    rw [idle n' untouched, untouched.worked_idle]⟩

theorem settled_onBoard (d : Driver) {α : Type} (decoded : Except Status α)
    {execute : α → Board → Reaction × Board}
    (confined : ∀ r, Board.Local d.peripheral? (execute r)) :
    Settled n d c (·.onBoard decoded execute) := by
  cases decoded with
  | error status => exact settled_idle _ fun _ _ => rfl
  | ok r =>
    refine ⟨(execute r n.board).1, ⟨(execute r n.board).2, none, id, []⟩,
      .of_none rfl fun _ => rfl, fun n' untouched => ?_⟩
    simp [onBoard, confined r untouched.board, worked, Registry.restate]

theorem settled_carryOutGpio (triggers : Gpio.Triggers) (decoded : Except Status Gpio.Request) :
    Settled n (.gpio triggers) c (·.carryOutGpio c triggers decoded) := by
  cases decoded with
  | error status => exact settled_idle _ fun _ _ => rfl
  | ok r =>
    let executed := r.execute triggers n.board
    refine ⟨executed.1, ⟨executed.2, some (triggers.after r executed.1), id, []⟩,
      ⟨fun _ _ => ⟨triggers, rfl⟩, fun _ => rfl⟩, fun n' untouched => ?_⟩
    have confined := r.local_execute triggers untouched.board
    simp only [carryOutGpio, confined, worked, id, Link.withListening_listening,
      List.nil_append]
    rfl

theorem Untouched.alike (h : Untouched .control c n n') : n.link.Alike n'.link := by
  obtain ⟨packets, sent⟩ := h.sends
  exact sent.alike (h.listening rfl)

theorem settled_listening {act : Node → Reaction × Node} (reaction : Reaction)
    (listening : CportSet → CportSet) (calls : List Call)
    (acts : ∀ n', Untouched .control c n n' → act n' = (reaction, { n' with
      link := n'.link.withListening (listening n'.link.listening), calls := calls ++ n'.calls })) :
    Settled n .control c act := by
  refine ⟨reaction, ⟨n.board, none, listening, calls⟩,
    .of_none rfl fun other => absurd rfl other, fun n' untouched => ?_⟩
  simp only [acts n' untouched, worked, untouched.board.fit_eq, Registry.restate]

theorem connect_of_listen {d : Driver} {link : Link} (bound : n.registry.requireBound t = .ok d)
    (listened : n.link.listen t = .ok link) :
    n.connect t = match Event.connected.fault d, link.stopListening t with
      | none, _ => (.done [], { n with link, calls := ⟨.connected, t⟩ :: n.calls })
      | some e, .ok link =>
        (.refused e.status, { n with link, calls := ⟨.connected, t⟩ :: n.calls })
      | some e, .error _ =>
        (.refused e.status, { n with link, calls := ⟨.connected, t⟩ :: n.calls }) := by
  simp only [connect, listen, bound, listened]
  simp only [notify_of_bound (n := { n with link }) bound]
  cases Event.connected.fault d with
  | none => rfl
  | some e =>
    simp only [stopListening, called, bound]
    cases link.stopListening t <;> rfl

theorem settled_connect (n : Node) (c t : UInt16) : Settled n .control c (·.connect t) := by
  cases bound : n.registry.requireBound t with
  | error e =>
    refine settled_idle (.refused .invalid) fun n' untouched => ?_
    have bound' := (bound ▸ untouched.bound t).of_error
    simp only [connect, listen, bound']
  | ok d =>
    cases listened : n.link.listen t with
    | error e =>
      refine settled_idle (.refused .invalid) fun n' untouched => ?_
      obtain ⟨d', bound', -⟩ := (bound ▸ untouched.bound t).of_ok
      have listened' := (listened ▸ untouched.alike.listen t).of_error
      simp only [connect, listen, bound', listened']
    | ok link =>
      have connects (n' : Node) (untouched : Untouched .control c n n') :
          ∃ d' link', n'.registry.requireBound t = .ok d' ∧ n'.link.listen t = .ok link' ∧
            Event.connected.fault d' = Event.connected.fault d ∧
            Concur Link.Alike (link.stopListening t) (link'.stopListening t) := by
        obtain ⟨d', bound', same⟩ := (bound ▸ untouched.bound t).of_ok
        obtain ⟨link', listened', alike⟩ := (listened ▸ untouched.alike.listen t).of_ok
        exact ⟨d', link', bound', listened', same .connected, alike.stopListening t⟩
      cases fault : Event.connected.fault d with
      | none =>
        refine settled_listening (.done []) (·.insert t) [⟨.connected, t⟩] fun n' untouched => ?_
        obtain ⟨d', link', bound', listened', same, -⟩ := connects n' untouched
        rw [connect_of_listen bound' listened', same, fault, Link.listen_eq listened']
        rfl
      | some e =>
        cases stopped : link.stopListening t with
        | error e' =>
          refine settled_listening (.refused e.status) (·.insert t) [⟨.connected, t⟩]
            fun n' untouched => ?_
          obtain ⟨d', link', bound', listened', same, stops⟩ := connects n' untouched
          have stopped' := (stopped ▸ stops).of_error
          rw [connect_of_listen bound' listened', same, fault, stopped', Link.listen_eq listened']
          rfl
        | ok link₂ =>
          refine settled_listening (.refused e.status) (fun set => (set.insert t).erase t)
            [⟨.connected, t⟩] fun n' untouched => ?_
          obtain ⟨d', link', bound', listened', same, stops⟩ := connects n' untouched
          obtain ⟨link₂', stopped', -⟩ := (stopped ▸ stops).of_ok
          rw [connect_of_listen bound' listened', same, fault, stopped']
          have erased := Link.stopListening_eq stopped'
          rw [Link.listen_eq listened', Link.listening_withListening,
            Link.withListening_withListening] at erased
          rw [erased]
          rfl

theorem notify_of_unbound {e : NodeError} (unbound : n.registry.requireBound t = .error e)
    (event : Event) : (n.notify t event).2 = n := by
  unfold Registry.requireBound at unbound
  unfold notify
  cases hs : n.registry.slot? t with
  | none => rfl
  | some s =>
    cases driver : s.driver with
    | none => simp only [driver]
    | some d => simp only [hs, driver, reduceCtorEq] at unbound

theorem settled_disconnect (n : Node) (c t : UInt16) :
    Settled n .control c (·.disconnect t) := by
  cases bound : n.registry.requireBound t with
  | error e =>
    refine settled_idle (.refused e.status) fun n' untouched => ?_
    have bound' := (bound ▸ untouched.bound t).of_error
    simp only [disconnect, notify_of_unbound bound', stopListening, bound']
  | ok d =>
    cases stopped : n.link.stopListening t with
    | error e =>
      refine settled_listening (.refused (NodeError.link e).status) id [⟨.disconnected, t⟩]
        fun n' untouched => ?_
      obtain ⟨d', bound', -⟩ := (bound ▸ untouched.bound t).of_ok
      have stopped' := (stopped ▸ untouched.alike.stopListening t).of_error
      simp only [disconnect, notify_of_bound bound', stopListening, called, bound', stopped',
        id, Link.withListening_listening]
      rfl
    | ok link =>
      refine settled_listening (.done []) (·.erase t) [⟨.disconnected, t⟩] fun n' untouched => ?_
      obtain ⟨d', bound', -⟩ := (bound ▸ untouched.bound t).of_ok
      obtain ⟨link', stopped', -⟩ := (stopped ▸ untouched.alike.stopListening t).of_ok
      simp only [disconnect, notify_of_bound bound', stopListening, called, bound', stopped']
      rw [Link.stopListening_eq stopped']
      rfl

theorem settled_carryOut (n : Node) (c : UInt16) {d : Driver} (builtIn : d.builtIn = true)
    (kind : UInt8) (body : Bytes) : Settled n d c (·.carryOut c d kind body) := by
  cases d with
  | control =>
    simp only [carryOut]
    cases Control.Request.decode kind body with
    | error status => exact settled_idle _ fun _ _ => rfl
    | ok r =>
      cases r with
      | connect t => exact settled_connect n c t
      | disconnect t => exact settled_disconnect n c t
      | query q => exact settled_onBoard .control (.ok q) fun q => q.local_execute
  | gpio triggers => exact settled_carryOutGpio triggers _
  | i2c =>
    exact settled_onBoard .i2c (I2c.Request.decode kind body) I2c.Request.local_execute
  | spi =>
    exact settled_onBoard .spi (Spi.Request.decode kind body) Spi.Request.local_execute
  | uart =>
    exact settled_onBoard .uart (Uart.Request.decode kind body) Uart.Request.local_execute
  | firmwareManagement =>
    refine settled_idle (reactionOf (Firmware.Request.decode kind) (·.execute n.board))
      fun n' untouched => ?_
    cases decoded : Firmware.Request.decode kind with
    | error status => simp only [carryOut, decoded, reactionOf]
    | ok r =>
      have same := congrArg Prod.fst (r.local_execute untouched.board)
      simp only [carryOut, decoded, reactionOf]
      exact congrArg (·, n') same
  | loopback => exact settled_idle _ fun _ _ => rfl
  | log outlet => exact settled_idle _ fun _ _ => rfl
  | firmwareDownload => exact settled_idle _ fun _ _ => rfl
  | _ => cases builtIn

theorem cport_replies (p : Packet) (reply : Option (Status × Bytes)) :
    ∀ q ∈ replies p reply, q.cport = p.cport := by
  intro q among
  cases reply with
  | none => cases among
  | some told =>
    simp only [replies, answers] at among
    split at among
    · cases among
    · rw [List.mem_singleton.mp among]

theorem Delivered.outcome {packets : List Packet} {outcome : Except NodeError Node}
    (h : Delivered n packets outcome) :
    (n.link.Open ∨ packets = [] →
      ∃ link, outcome = .ok { n with link } ∧ n.link.Sends packets link) ∧
      (¬ (n.link.Open ∨ packets = []) → ∃ e, outcome = .error e) := by
  cases h with
  | @sent link sent =>
    refine ⟨fun _ => ⟨link, rfl, sent⟩, fun never => ?_⟩
    obtain ⟨shut, some⟩ := not_or.mp never
    exact absurd (sent.open_of_ne_nil some) shut
  | @refused e shut due _ =>
    exact ⟨fun can => absurd can (not_or.mpr ⟨shut, due⟩), fun _ => ⟨e, rfl⟩⟩

structure Undergoes (d : Driver) (c : UInt16) (effect : Effect) (n n' : Node) : Prop where
  same : n' = { n.worked d c effect.toWork with
    link := n'.link, counters := n.counters + effect.counted }
  sends : n.link.Sends effect.sent n'.link
  listening : n'.link.listening = effect.listening n.link.listening

theorem Untouched.undergoes_idle (h : Untouched d c n n') (counted : Counters)
    {sent : List Packet} {link : Link} (sends : n'.link.Sends sent link)
    (same : link.listening = n'.link.listening) :
    Undergoes d c ⟨n.idle, counted, sent⟩ n'
      { n' with link, counters := n'.counters + counted } := by
  refine ⟨?_, sends, same⟩
  rw [h.worked_idle]

theorem answer_of_can {p : Packet} {reaction : Reaction}
    (inRange : n.registry.requireRange p.cport = .ok ())
    (can : n.link.Open ∨ replies p (replyTo reaction) = []) :
    ∃ link, n.answer p reaction = .ok { n with link } ∧
      n.link.Sends (replies p (replyTo reaction)) link ∧
      link.listening = n.link.listening := by
  obtain ⟨link, answered, sent⟩ := (delivered_answer inRange reaction).outcome.1 can
  have listening := n.listening_conclude p reaction
  rw [answered] at listening
  exact ⟨link, answered, sent, listening⟩

theorem answer_of_cannot {p : Packet} {reaction : Reaction}
    (inRange : n.registry.requireRange p.cport = .ok ())
    (cannot : ¬ (n.link.Open ∨ replies p (replyTo reaction) = [])) :
    ∃ e, n.answer p reaction = .error e :=
  (delivered_answer inRange reaction).outcome.2 cannot

theorem Untouched.route (h : Untouched d c n n') : n'.registry.route c = n.registry.route c := by
  rw [Registry.route, h.here]
  rfl

theorem Untouched.open_iff (h : Untouched d c n n') : n'.link.Open ↔ n.link.Open := by
  obtain ⟨packets, sent⟩ := h.sends
  exact sent.open_iff

def Determined (n : Node) (d : Driver) (p : Packet) : Prop :=
  ∃ effect : Effect, effect.Befits d p.cport ∧
    ∀ n', Untouched d p.cport n n' → Undergoes d p.cport effect n' (n'.dispatch p)

theorem determined_ping {p : Packet} (bound : n.registry.route p.cport = .driver d)
    (ping : p.message.kind = Message.pingKind) : Determined n d p := by
  obtain ⟨s, hs, -⟩ := Registry.slot?_of_route bound
  have inRange (n' : Node) (untouched : Untouched d p.cport n n') :
      (n'.count fun c => { c with pinged := c.pinged + 1 }).registry.requireRange p.cport =
        .ok () := Registry.requireRange_eq (untouched.here.trans hs)
  have routed (n' : Node) (untouched : Untouched d p.cport n n') :
      n'.registry.route p.cport = .driver d := untouched.route.trans bound
  by_cases can : n.link.Open ∨ replies p (replyTo (.done [])) = []
  · refine ⟨⟨n.idle, ⟨0, 0, 1, 0, 0, 0⟩, replies p (replyTo (.done []))⟩,
      ⟨n.befits_idle d, cport_replies p (replyTo (.done []))⟩, fun n' untouched => ?_⟩
    obtain ⟨link, answered, sent, listening⟩ := answer_of_can (inRange n' untouched)
      (can.imp_left untouched.open_iff.mpr)
    simp only [dispatch, routed n' untouched, if_pos ping, answered]
    exact untouched.undergoes_idle _ sent listening
  · refine ⟨⟨n.idle, ⟨0, 0, 1, 0, 0, 0⟩, []⟩,
      (n.befits_idle d).silent _ _, fun n' untouched => ?_⟩
    obtain ⟨e, refused⟩ := answer_of_cannot (inRange n' untouched)
      (mt (Or.imp_left untouched.open_iff.mp) can)
    simp only [dispatch, routed n' untouched, if_pos ping, refused]
    exact untouched.undergoes_idle _ (.refl _) rfl

def begun (n : Node) (p : Packet) : Node :=
  (n.count fun c => { c with dispatched := c.dispatched + 1 }).called (.handle p.message) p.cport

theorem Untouched.begun {p : Packet} (h : Untouched d c n n') : Untouched d c n (n'.begun p) :=
  ⟨h.board, h.here, h.bound, h.sends, h.listening⟩

theorem requireRange_worked {s : Slot} (hs : n.registry.slot? c = some s) (d : Driver) (w : Work) :
    (n.worked d c w).registry.requireRange c = .ok () := by
  refine if_pos ?_
  show c.toNat < (n.registry.restate c w.triggers).size
  simpa using Registry.toNat_lt_size hs

theorem undergoes_calledFor {p : Packet} {w : Work} (counted : Counters) {sent : List Packet}
    {link : Link} (sends : ((n.begun p).worked d p.cport w).link.Sends sent link)
    (same : link.listening = ((n.begun p).worked d p.cport w).link.listening) :
    Undergoes d p.cport ⟨w.calledFor p, counted, sent⟩ n
      { (n.begun p).worked d p.cport w with link, counters := n.counters + counted } := by
  have calls : w.calls ++ [⟨.handle p.message, p.cport⟩] ++ n.calls =
      ((n.begun p).worked d p.cport w).calls := List.append_assoc _ _ _
  refine ⟨?_, (Link.Sends.listens _).trans sends, same.trans (Link.listening_withListening _ _)⟩
  simp only [worked, Work.calledFor, calls]
  rfl

theorem determined_handled {p : Packet} (bound : n.registry.route p.cport = .driver d)
    (builtIn : d.builtIn = true) (kind : p.message.kind ≠ Message.pingKind) :
    Determined n d p := by
  obtain ⟨s, hs, -⟩ := Registry.slot?_of_route bound
  obtain ⟨reaction, w, befits, settled⟩ :=
    settled_carryOut n p.cport builtIn p.message.kind p.message.payload
  have befits' : (w.calledFor p).Befits d := ⟨befits.triggers, befits.listening⟩
  let carried (n' : Node) : Node := (n'.begun p).worked d p.cport w
  have dispatched (n' : Node) (untouched : Untouched d p.cport n n') :
      n'.dispatch p = (carried n').conclude ((carried n').answer p reaction) := by
    have done : (n'.begun p).carryOut p.cport d p.message.kind p.message.payload =
        (reaction, carried n') := settled _ untouched.begun
    have handed : n'.dispatch p = (n'.begun p).handle d p :=
      dispatch_of_route (untouched.route.trans bound) kind
    rw [handed, handle_builtIn _ builtIn, done]
  have inRange (n' : Node) (untouched : Untouched d p.cport n n') :
      (carried n').registry.requireRange p.cport = .ok () :=
    requireRange_worked (n := n'.begun p) (untouched.here.trans hs) d w
  have ready (n' : Node) (untouched : Untouched d p.cport n n') :
      (carried n').link.Open ↔ n.link.Open :=
    Link.open_withListening_iff.trans untouched.open_iff
  by_cases can : n.link.Open ∨ replies p (replyTo reaction) = []
  · refine ⟨⟨w.calledFor p, ⟨0, 1, 0, 0, 0, 0⟩, replies p (replyTo reaction)⟩,
      ⟨befits', cport_replies p (replyTo reaction)⟩, fun n' untouched => ?_⟩
    obtain ⟨link, answered, sent, listening⟩ := answer_of_can (inRange n' untouched)
      (can.imp_left (ready n' untouched).mpr)
    rw [dispatched n' untouched, answered]
    exact undergoes_calledFor _ sent listening
  · refine ⟨⟨w.calledFor p, ⟨0, 1, 0, 0, 0, 1⟩, []⟩, befits'.silent _ _, fun n' untouched => ?_⟩
    obtain ⟨e, refused⟩ := answer_of_cannot (inRange n' untouched)
      (mt (Or.imp_left (ready n' untouched).mp) can)
    rw [dispatched n' untouched, refused]
    exact undergoes_calledFor _ (.refl _) rfl

theorem determined_draining {p : Packet} (draining : n.registry.route p.cport = .draining) :
    Determined n d p := by
  refine ⟨⟨n.idle, ⟨0, 0, 0, 0, 1, 0⟩, []⟩, (n.befits_idle d).silent _ _, fun n' untouched => ?_⟩
  simp only [dispatch, untouched.route.trans draining]
  exact untouched.undergoes_idle _ (.refl _) rfl

theorem determined {p : Packet} (bound : n.registry.driver? p.cport = some d)
    (builtIn : d.builtIn = true) : Determined n d p := by
  obtain ⟨s, hs, driver⟩ := Registry.slot?_of_driver? bound
  have route := Registry.route_eq hs
  cases draining : s.draining with
  | true => exact determined_draining (by rw [route, Slot.route, draining]; rfl)
  | false =>
    have route : n.registry.route p.cport = .driver d := by
      rw [route, Slot.route, draining, driver]
      rfl
    by_cases ping : p.message.kind = Message.pingKind
    · exact determined_ping route ping
    · exact determined_handled route builtIn ping

end Node

end CportNode
