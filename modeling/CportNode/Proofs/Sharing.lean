import CportNode.Proofs.Link
import CportNode.Proofs.Refusal

/-!
Cports that share a peripheral.  The board has one handler for all of its GPIO lines and one for its
serial line, whichever cport it reports on, and a driver whose peripheral it is removes it when it
is unbound.  Unbinding a driver therefore leaves the other cports as they were, but not what is
reported on them.
-/

namespace CportNode

inductive Stimulus
  | fires (line : UInt8)
  | arrives (data : Bytes)

def Stimulus.apply : Stimulus → Node → Node
  | fires line, n => (n.fire line).2
  | arrives data, n => n.arrive data

def Packet.report (c : UInt16) (kind : UInt8) (payload : Bytes) : List Packet :=
  match Message.carrying kind 0 .success payload with
  | .ok m => [⟨c, m⟩]
  | .error _ => []

def Link.offer (cports : Nat) (l : Link) (p : Packet) : Link :=
  if p.cport.toNat < cports then
    match l.send p with
    | .ok l => l
    | .error _ => l
  else l

namespace Board

def reports (b : Board) : Stimulus → List Packet
  | .fires line =>
    match b.gpio.armedHandler line with
    | some (.report c) => Packet.report c Gpio.irqEventKind [line]
    | _ => []
  | .arrives data =>
    (b.pushReceived data).1.flatMap fun (c, chunk) =>
      Packet.report c Uart.receiveDataKind (Uart.forwarded chunk)

end Board

namespace Node

/-- These packets, and no others, go over the link. -/
def Reports (n : Node) (s : Stimulus) (packets : List Packet) : Prop :=
  n.link.Sends packets (s.apply n).link

theorem request_report (n : Node) (c : UInt16) (kind : UInt8) (payload : Bytes) :
    (n.request c kind payload true).2 =
      { n with link := (Packet.report c kind payload).foldl (Link.offer n.registry.size) n.link } := by
  unfold request Packet.report
  simp only [Message.requestId, if_true]
  cases Message.carrying kind 0 .success payload with
  | error e => rfl
  | ok m =>
    simp only [send, Registry.requireRange, List.foldl_cons, List.foldl_nil, Link.offer]
    by_cases inRange : c.toNat < n.registry.size
    · simp only [inRange, if_true]
      cases n.link.send ⟨c, m⟩ <;> rfl
    · simp [inRange]

theorem foldl_request (chunks : List (UInt16 × Bytes)) (n : Node) :
    chunks.foldl (fun n (c, chunk) =>
      (n.request c Uart.receiveDataKind (Uart.forwarded chunk) true).2) n =
      { n with
        link := (chunks.flatMap fun (c, chunk) =>
          Packet.report c Uart.receiveDataKind (Uart.forwarded chunk)).foldl
            (Link.offer n.registry.size) n.link } := by
  induction chunks generalizing n with
  | nil => rfl
  | cons first chunks ih =>
    rw [List.foldl_cons, ih, List.flatMap_cons, List.foldl_append]
    simp only [request_report]

theorem link_apply (n : Node) (s : Stimulus) :
    (s.apply n).link = (n.board.reports s).foldl (Link.offer n.registry.size) n.link := by
  cases s with
  | fires line =>
    simp only [Stimulus.apply, fire, Board.trigger, Board.reports]
    cases n.board.gpio.armedHandler line with
    | none => rfl
    | some handler =>
      cases handler with
      | note => rfl
      | report c =>
        simp only
        cases n.board.configureInterrupt line .disabled <;>
          simp only [request_report]
  | arrives data => simp only [Stimulus.apply, arrive, foldl_request, Board.reports]

end Node

namespace Board

def attempt (b : Board) : Except DriverError Board → Board
  | .ok b' => b'
  | .error _ => b

def released (b : Board) : Driver → Board
  | .gpio _ => b.attempt (b.setIrqHandler none)
  | .uart =>
    let b := b.attempt b.disableRx
    b.attempt (b.setRxHandler none)
  | _ => b

/-- Letting go of the peripheral gets far enough to keep it from reporting. -/
def Silences (b : Board) (d : Driver) : Stimulus → Prop
  | .fires _ => (∃ triggers, d = .gpio triggers) ∧ b.obstacle? .gpioSetIrqHandler = none
  | .arrives _ =>
    d = .uart ∧ (b.obstacle? .uartDisableRx = none ∨ b.obstacle? .uartSetRxHandler = none)

theorem released_gpio (b : Board) (triggers : Gpio.Triggers) :
    b.released (.gpio triggers) =
      { b with gpio := { b.gpio with
          handler := if b.obstacle? .gpioSetIrqHandler = none then none else b.gpio.handler } } := by
  simp only [released, setIrqHandler, guarded]
  cases b.obstacle? .gpioSetIrqHandler <;> rfl

theorem released_uart (b : Board) :
    b.released .uart =
      { b with uart := { b.uart with
          receiving := if b.obstacle? .uartDisableRx = none then false else b.uart.receiving
          handler := if b.obstacle? .uartSetRxHandler = none then none else b.uart.handler } } := by
  have same (uart : Uart.SerialLine) (capability : Capability) :
      { b with uart }.obstacle? capability = b.obstacle? capability := rfl
  simp only [released, disableRx, setRxHandler, guarded]
  cases b.obstacle? .uartDisableRx with
  | none =>
    simp only [attempt, same]
    cases b.obstacle? .uartSetRxHandler <;> rfl
  | some cause =>
    simp only [attempt]
    cases b.obstacle? .uartSetRxHandler <;> rfl

theorem armedHandler_of_vacant {bank : Gpio.Bank} (vacant : bank.handler = none) (line : UInt8) :
    bank.armedHandler line = none := by
  unfold Gpio.Bank.armedHandler
  split
  · rw [vacant, ite_self]
  · rfl

theorem drainReceived_of_read {b b' : Board} {handler : Uart.Handler} {data : Bytes}
    (taken : b.handlerRead handler = (data, b'))
    (busy : ¬(b.uart.receiving = false ∨ b.uart.received.isEmpty)) :
    (b.drainReceived handler).1 =
      data :: if data = [] then [] else (b'.drainReceived handler).1 := by
  -- The match of the definition carries its equation, for termination, and cannot be rewritten.
  rw [drainReceived, if_neg busy]
  split
  · rename_i empty
    rw [taken] at empty
    cases empty
    rfl
  · rename_i some
    rw [taken] at some
    cases some
    rfl

theorem handlerRead_gpio {b b' : Board} {handler : Uart.Handler} {data : Bytes}
    (taken : b.handlerRead handler = (data, b')) (bank : Gpio.Bank) :
    { b with gpio := bank }.handlerRead handler = (data, { b' with gpio := bank }) := by
  cases handler with
  | note most =>
    cases taken
    rfl
  | forward c =>
    have same : { b with gpio := bank }.obstacle? .uartRead = b.obstacle? .uartRead := rfl
    simp only [handlerRead, uartRead] at taken ⊢
    rw [same]
    cases h : b.obstacle? .uartRead <;>
      (rw [h] at taken; cases taken; rfl)

theorem drainReceived_gpio (b : Board) (bank : Gpio.Bank) (handler : Uart.Handler) :
    ({ b with gpio := bank }.drainReceived handler).1 = (b.drainReceived handler).1 := by
  fun_induction b.drainReceived handler with
  | case1 b idle => rw [drainReceived, if_pos idle]
  | case2 b busy b' taken =>
    rw [drainReceived_of_read (handlerRead_gpio taken bank) busy]
    rfl
  | case3 b busy x data b' taken smaller chunks final rest ih =>
    rw [rest] at ih
    rw [drainReceived_of_read (handlerRead_gpio taken bank) busy, ih]
    rfl

theorem drainReceived_of_disabled {b : Board} (disabled : b.uart.receiving = false)
    (handler : Uart.Handler) : b.drainReceived handler = ([], b) := by
  rw [drainReceived, if_pos (.inl disabled)]

def withReceived (b : Board) (data : Bytes) : Board :=
  { b with uart := { b.uart with received := b.uart.received.append data } }

theorem pushReceived_fst (b : Board) (data : Bytes) :
    (b.pushReceived data).1 =
      match b.uart.handler with
      | some (.forward c) =>
        (((b.withReceived data).drainReceived (.forward c)).1.filter (· ≠ [])).map
          fun chunk => (c, chunk)
      | _ => [] := by
  have installed : b.uart.handler = (b.withReceived data).uart.handler := rfl
  rw [installed]
  unfold pushReceived
  extract_lets _ queued
  have same : b.withReceived data = queued := rfl
  rw [same]
  -- As long as it is known what `queued` is, splitting on its handler would take it apart.
  clear_value queued
  cases h : queued.uart.handler with
  | none => rfl
  | some handler => cases handler <;> rfl

theorem reports_of_deaf {b : Board} (data : Bytes)
    (deaf : b.uart.receiving = false ∨ b.uart.handler = none) : b.reports (.arrives data) = [] := by
  rw [reports, pushReceived_fst]
  split
  · rename_i c installed
    have disabled : (b.withReceived data).uart.receiving = false :=
      deaf.resolve_right (by simp [installed])
    rw [drainReceived_of_disabled disabled]
    rfl
  · rfl

theorem reports_gpio (b : Board) (bank : Gpio.Bank) (data : Bytes) :
    { b with gpio := bank }.reports (.arrives data) = b.reports (.arrives data) := by
  simp only [reports, pushReceived_fst]
  cases b.uart.handler with
  | none => rfl
  | some handler =>
    cases handler with
    | note most => rfl
    | forward c =>
      have same : (({ b with gpio := bank }.withReceived data).drainReceived (.forward c)).1 =
          ((b.withReceived data).drainReceived (.forward c)).1 :=
        drainReceived_gpio (b.withReceived data) bank (.forward c)
      simp only [same]

theorem reports_released_of_silences {b : Board} {d : Driver} {s : Stimulus}
    (silences : b.Silences d s) : (b.released d).reports s = [] := by
  cases s with
  | fires line =>
    obtain ⟨⟨triggers, rfl⟩, free⟩ := silences
    rw [released_gpio, if_pos free, reports, armedHandler_of_vacant rfl]
  | arrives data =>
    obtain ⟨rfl, free⟩ := silences
    rw [released_uart]
    apply reports_of_deaf
    rcases free with free | free
    · exact .inl (if_pos free)
    · exact .inr (if_pos free)

theorem reports_released_of_not_silences {b : Board} {d : Driver} {s : Stimulus}
    (kept : ¬ b.Silences d s) : (b.released d).reports s = b.reports s := by
  cases d with
  | gpio triggers =>
    rw [released_gpio]
    cases s with
    | fires line =>
      have obstacle : b.obstacle? .gpioSetIrqHandler ≠ none := fun free => kept ⟨⟨_, rfl⟩, free⟩
      rw [if_neg obstacle]
    | arrives data => exact reports_gpio b _ data
  | uart =>
    rw [released_uart]
    cases s with
    | fires line => rfl
    | arrives data =>
      have obstacle : b.obstacle? .uartDisableRx ≠ none := fun free => kept ⟨rfl, .inl free⟩
      have obstacle' : b.obstacle? .uartSetRxHandler ≠ none := fun free => kept ⟨rfl, .inr free⟩
      rw [if_neg obstacle, if_neg obstacle']
  | _ => rfl

end Board

/-- Its exit unbinds no other driver. -/
def Driver.exitsAlone : Driver → Bool
  | .scripted s => s.exitUnregisters.isNone
  | _ => true

@[simp] theorem Link.foldl_offer_withListening (cports : Nat) (packets : List Packet) (l : Link)
    (set : CportSet) :
    packets.foldl (Link.offer cports) (l.withListening set) =
      (packets.foldl (Link.offer cports) l).withListening set := by
  apply List.foldl_hom (Link.withListening set)
  intro l p
  simp only [Link.offer, Link.send_withListening]
  split
  · cases l.send p <;> rfl
  · rfl

namespace Node

@[simp] theorem board_adopt (n : Node) (outcome : Except DriverError Board) :
    (n.adopt outcome).2.board = n.board.attempt outcome := by
  cases outcome <;> rfl

theorem exitDriver_alone {d : Driver} (alone : d.exitsAlone = true)
    (unregister : Node → UInt16 → Node) (n : Node) (c : UInt16) :
    (exitDriver unregister n c d).registry = n.registry ∧
      (exitDriver unregister n c d).link = n.link ∧
      (exitDriver unregister n c d).board = n.board.released d := by
  cases d with
  | gpio triggers => exact ⟨registry_adopt _ _, link_adopt _ _, board_adopt _ _⟩
  | uart =>
    simp only [exitDriver, registry_adopt, link_adopt, board_adopt, Board.released]
    exact ⟨rfl, rfl, rfl⟩
  | log outlet => cases outlet <;> exact ⟨rfl, rfl, rfl⟩
  | scripted s =>
    have nobody : s.exitUnregisters = none := Option.isNone_iff_eq_none.mp alone
    simp only [exitDriver, nobody]
    exact ⟨rfl, rfl, rfl⟩
  | _ => exact ⟨rfl, rfl, rfl⟩

theorem mute_eq (n : Node) (c : UInt16) :
    ∃ set, n.mute c = { n with link := n.link.withListening set } ∧
      ∀ c', c' ≠ c → (c' ∈ set ↔ c' ∈ n.link.listening) := by
  unfold mute
  split
  · rename_i stopped
    refine ⟨_, by rw [Link.stopListening_eq stopped], fun c' other => ?_⟩
    simp [other]
  · exact ⟨n.link.listening, by simp, fun _ _ => .rfl⟩

structure Unbound (n : Node) (c : UInt16) (d : Driver) (n' : Node) : Prop where
  registry : n'.registry = (n.registry.modify c .beginTeardown).modify c .unbind
  link : ∃ set, n'.link = n.link.withListening set ∧
    ∀ c', c' ≠ c → (c' ∈ set ↔ c' ∈ n.link.listening)
  board : n'.board = n.board.released d

theorem unbound_unregister {n : Node} {c : UInt16} {d : Driver}
    (bound : n.registry.requireBound c = .ok d) (alone : d.exitsAlone = true) :
    (n.unregister c).1 = .ok () ∧ Unbound n c d (n.unregister c).2 := by
  obtain ⟨set, muted, others⟩ := n.mute_eq c
  rw [unregister_of_bound bound, muted]
  obtain ⟨registry, link, board⟩ := exitDriver_alone alone
    (fun n' c => (n'.unregisterWithin n.registry.size c).2)
    ({ n with link := n.link.withListening set }.modifySlot c .beginTeardown) c
  refine ⟨rfl, ?_, ⟨set, link, others⟩, board⟩
  simp [registry]

theorem Unbound.kept {n n' : Node} {c : UInt16} {d : Driver} (h : Unbound n c d n')
    {s : Stimulus} (kept : ¬ n.board.Silences d s) {packets : List Packet}
    (reported : n.Reports s packets) : n'.Reports s packets := by
  obtain ⟨set, link, -⟩ := h.link
  have same : (s.apply n').link = (s.apply n).link.withListening set := by
    simp [link_apply, h.board, Board.reports_released_of_not_silences kept, h.registry, link]
  rw [Reports, same, link]
  exact reported.relistened set set

theorem Unbound.silent {n n' : Node} {c : UInt16} {d : Driver} (h : Unbound n c d n')
    {s : Stimulus} (silences : n.board.Silences d s) : (s.apply n').link = n'.link := by
  rw [link_apply, h.board, Board.reports_released_of_silences silences]
  rfl

/-- Unbinding a driver leaves the other cports as they were.  But what is reported on them, by the
peripheral that the driver lets go of, is not reported any more. -/
theorem unregister_keeps_reports_iff {n : Node} {a : UInt16} {d : Driver}
    (bound : n.registry.requireBound a = .ok d) (alone : d.exitsAlone = true) :
    let n' := (n.unregister a).2
    (n.unregister a).1 = .ok () ∧
      (∀ b, b ≠ a → n'.registry.slot? b = n.registry.slot? b ∧
        (b ∈ n'.link.listening ↔ b ∈ n.link.listening)) ∧
      ∀ s packets, packets ≠ [] → n.Reports s packets →
        (n'.Reports s packets ↔ ¬ n.board.Silences d s) ∧
        (n.board.Silences d s → n'.Reports s []) := by
  intro n'
  obtain ⟨ok, unbound⟩ := unbound_unregister bound alone
  have unbound : Unbound n a d n' := unbound
  obtain ⟨set, link, others⟩ := unbound.link
  refine ⟨ok, fun b other => ⟨?_, ?_⟩, fun s packets nonempty reported => ?_⟩
  · simp [unbound.registry, other]
  · simpa [link] using others b other
  · refine ⟨⟨fun reported' silences => ?_, fun kept => unbound.kept kept reported⟩,
      fun silences => ?_⟩
    · rw [Reports, unbound.silent silences] at reported'
      exact nonempty reported'.eq_nil
    · rw [Reports, unbound.silent silences]
      exact .refl _

def twoGpios : Config :=
  { Config.empty with cports := [⟨0, .control⟩, ⟨1, .gpio⟩, ⟨1, .gpio⟩] }

def sharing : Node :=
  (ofParts twoGpios .fresh (.memory .fresh)).after
    [.register 1 1 (.gpio .fresh), .register 2 1 (.gpio .fresh),
      .outside (fun b => b.attempt (b.configureInterrupt 3 .edgeRising)) id id]

theorem unregister_silences_other :
    sharing.Reports (.fires 3) [⟨2, ⟨0, 0x0e, 0, [3]⟩⟩] ∧
      (sharing.unregister 1).2.registry.isBound 2 = true ∧
      ¬ (sharing.unregister 1).2.Reports (.fires 3) [⟨2, ⟨0, 0x0e, 0, [3]⟩⟩] ∧
      (sharing.unregister 1).2.Reports (.fires 3) [] := by
  have reported : sharing.Reports (.fires 3) [⟨2, ⟨0, 0x0e, 0, [3]⟩⟩] := ⟨.empty, rfl⟩
  have silences : sharing.board.Silences (.gpio .fresh) (.fires 3) := ⟨⟨_, rfl⟩, rfl⟩
  have bound : sharing.registry.requireBound 1 = .ok (.gpio .fresh) := rfl
  obtain ⟨-, others, reports⟩ := unregister_keeps_reports_iff bound rfl
  obtain ⟨kept, silent⟩ := reports _ _ (List.cons_ne_nil _ _) reported
  refine ⟨reported, ?_, fun still => kept.mp still silences, silent silences⟩
  rw [Registry.isBound, Registry.driver?, (others 2 (by decide)).1]
  rfl

end Node

end CportNode
