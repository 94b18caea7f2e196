import CportNode.Proofs.Sharing

namespace CportNode

namespace Board

def pending (b : Board) : Bytes :=
  b.uart.received.toBytes

/-- The turns of announcing bytes to a handler: until nothing is left, reception is disabled or a
call leaves as much as there was. -/
inductive Drains (handler : Uart.Handler) : Board → List Bytes → Board → Prop
  | disabled {b : Board} : b.uart.receiving = false → Drains handler b [] b
  | empty {b : Board} : b.pending = [] → Drains handler b [] b
  | stuck {b b' : Board} {data : Bytes} : b.uart.receiving = true → b.pending ≠ [] →
      b.handlerRead handler = (data, b') → b.pending.length ≤ b'.pending.length →
      Drains handler b [data] b'
  | again {b b' b'' : Board} {data : Bytes} {chunks : List Bytes} : b.uart.receiving = true →
      b.pending ≠ [] → b.handlerRead handler = (data, b') →
      b'.pending.length < b.pending.length → Drains handler b' chunks b'' →
      Drains handler b (data :: chunks) b''

structure Takes (b : Board) (data : Bytes) (b' : Board) : Prop where
  board : ∃ received, b' = { b with uart := { b.uart with received } }
  front : b.pending = data ++ b'.pending
  short : data.length ≤ 64
  free : b.obstacle? .uartRead = none → data = b.pending.take 64

theorem takes_handlerRead {b b' : Board} {c : UInt16} {data : Bytes}
    (h : b.handlerRead (.forward c) = (data, b')) : Takes b data b' := by
  simp only [handlerRead, uartRead, Uart.Handler.chunk] at h
  split at h
  · rename_i obstacle
    cases h
    refine ⟨⟨b.uart.received, rfl⟩, rfl, Nat.zero_le _, fun free => ?_⟩
    cases free.symm.trans obstacle
  · simp only [takeReceived, Uart.SerialLine.read, Prod.mk.injEq] at h
    obtain ⟨taken, rfl⟩ := h
    rw [ByteQueue.read_fst] at taken
    refine ⟨⟨_, rfl⟩, ?_, ?_, fun _ => taken.symm⟩
    · simp [pending, ← taken]
    · rw [← taken, List.length_take]
      exact Nat.min_le_left _ _

theorem drains_drainReceived (b : Board) (c : UInt16) :
    Drains (.forward c) b (b.drainReceived (.forward c)).1 (b.drainReceived (.forward c)).2 := by
  have busy {b : Board} (h : ¬(b.uart.receiving = false ∨ b.uart.received.isEmpty = true)) :
      b.uart.receiving = true ∧ b.pending ≠ [] := by
    rw [not_or, ByteQueue.isEmpty_iff, Bool.not_eq_false] at h
    exact h
  fun_induction b.drainReceived (.forward c) with
  | case1 b idle =>
    rcases idle with disabled | empty
    · exact .disabled disabled
    · exact .empty (ByteQueue.isEmpty_iff.mp empty)
  | case2 b some b' taken =>
    obtain ⟨receiving, some⟩ := busy some
    refine .stuck receiving some taken (Nat.le_of_eq ?_)
    rw [(takes_handlerRead taken).front]
    rfl
  | case3 b some x data b' taken smaller chunks final rest ih =>
    obtain ⟨receiving, some⟩ := busy some
    rw [rest] at ih
    exact .again receiving some taken smaller ih

theorem Drains.conserves {b b' : Board} {c : UInt16} {chunks : List Bytes}
    (h : Drains (.forward c) b chunks b') :
    (∃ received, b' = { b with uart := { b.uart with received } }) ∧
      b.pending = chunks.flatten ++ b'.pending ∧ ∀ chunk ∈ chunks, chunk.length ≤ 64 := by
  induction h with
  | disabled _ => exact ⟨⟨_, rfl⟩, rfl, nofun⟩
  | empty _ => exact ⟨⟨_, rfl⟩, rfl, nofun⟩
  | stuck _ _ taken _ =>
    have takes := takes_handlerRead taken
    refine ⟨takes.board, ?_, fun chunk only => ?_⟩
    · rw [takes.front, List.flatten_singleton]
    · rw [List.mem_singleton.mp only]
      exact takes.short
  | again _ _ taken _ _ ih =>
    have takes := takes_handlerRead taken
    obtain ⟨⟨received, rest⟩, front, short⟩ := ih
    obtain ⟨_, first⟩ := takes.board
    refine ⟨⟨received, ?_⟩, ?_, fun chunk member => ?_⟩
    · rw [rest, first]
    · rw [takes.front, front, List.flatten_cons, List.append_assoc]
    · rcases List.mem_cons.mp member with rfl | later
      · exact takes.short
      · exact short chunk later

theorem Drains.length_le {b b' : Board} {handler : Uart.Handler} {chunks : List Bytes}
    (h : Drains handler b chunks b') : chunks.length ≤ b.pending.length + 1 := by
  induction h with
  | again _ _ _ smaller _ ih =>
    rw [List.length_cons]
    omega
  | _ => simp

theorem Drains.emptied {b b' : Board} {c : UInt16} {chunks : List Bytes}
    (h : Drains (.forward c) b chunks b') (receiving : b.uart.receiving = true)
    (free : b.obstacle? .uartRead = none) : b'.pending = [] := by
  induction h with
  | disabled disabled => cases receiving.symm.trans disabled
  | empty empty => exact empty
  | stuck _ some taken stays =>
    -- A call that is not refused takes something.
    have takes := takes_handlerRead taken
    have front := congrArg List.length takes.front
    rw [List.length_append, takes.free free, List.length_take] at front
    have := List.length_pos_iff.mpr some
    omega
  | again _ _ taken _ _ ih =>
    obtain ⟨_, same⟩ := (takes_handlerRead taken).board
    subst same
    exact ih receiving free

theorem pushReceived_of_forward {b : Board} {c : UInt16}
    (installed : b.uart.handler = some (.forward c)) (data : Bytes) :
    let (chunks, b') := (b.withReceived data).drainReceived (.forward c)
    b.pushReceived data = ((chunks.filter (· ≠ [])).map fun chunk => (c, chunk), b') := by
  unfold pushReceived
  extract_lets _ queued
  have installed : queued.uart.handler = some (.forward c) := installed
  have same : b.withReceived data = queued := rfl
  rw [same]
  -- As long as it is known what `queued` is, its handler would be looked up in `b`.
  clear_value queued
  simp only [installed]

theorem pushReceived_of_none {b : Board} (vacant : b.uart.handler = none) (data : Bytes) :
    b.pushReceived data = ([], b.withReceived data) := by
  unfold pushReceived
  extract_lets _ queued
  have vacant : queued.uart.handler = none := vacant
  have same : b.withReceived data = queued := rfl
  rw [same]
  clear_value queued
  simp only [vacant]

@[simp] theorem pending_withReceived (b : Board) (data : Bytes) :
    (b.withReceived data).pending = b.pending ++ data :=
  ByteQueue.toBytes_append _ _

end Board

def Packet.received (c : UInt16) (chunk : Bytes) : Packet :=
  ⟨c, ⟨0, 0x03, 0, UInt8.ofNat chunk.length :: 0 :: 0 :: chunk⟩⟩

theorem Packet.report_received {chunk : Bytes} (short : chunk.length ≤ 64) (c : UInt16) :
    Packet.report c Uart.receiveDataKind (Uart.forwarded chunk) = [.received c chunk] := by
  have forwarded : Uart.forwarded chunk = UInt8.ofNat chunk.length :: 0 :: 0 :: chunk := by
    rw [Uart.forwarded, Bytes.ofWord16, UInt16.toNat_ofNat', Nat.mod_eq_of_lt (by omega),
      Nat.div_eq_of_lt (by omega)]
    rfl
  have fits : (Uart.forwarded chunk).length ≤ Message.maxPayload := by
    rw [forwarded, Message.maxPayload, Message.maxSize, Message.headerSize]
    simp only [List.length_cons]
    omega
  rw [report, Message.carrying, if_pos fits, forwarded]
  rfl

theorem Link.sends_foldl_offer {cports : Nat} {packets : List Packet}
    (inRange : ∀ p ∈ packets, p.cport.toNat < cports) {l : Link} (ready : l.Open) :
    l.Sends packets (packets.foldl (Link.offer cports) l) := by
  induction packets generalizing l with
  | nil => exact .refl l
  | cons p packets ih =>
    obtain ⟨next, sent⟩ := ready p
    have offered : l.offer cports p = next := by
      rw [offer, sent]
      exact if_pos (inRange p List.mem_cons_self)
    rw [List.foldl_cons, offered]
    exact (Sends.of_send sent).trans
      (ih (fun q later => inRange q (List.mem_cons_of_mem p later)) (open_of_send sent))

def Packet.receiveds (chunks : List (UInt16 × Bytes)) : List Packet :=
  chunks.map fun (c, chunk) => .received c chunk

theorem Packet.reports_receiveds {chunks : List (UInt16 × Bytes)}
    (short : ∀ x ∈ chunks, x.2.length ≤ 64) :
    chunks.flatMap (fun (c, chunk) =>
      Packet.report c Uart.receiveDataKind (Uart.forwarded chunk)) = receiveds chunks := by
  induction chunks with
  | nil => rfl
  | cons x chunks ih =>
    rw [List.flatMap_cons, ih fun y later => short y (List.mem_cons_of_mem x later)]
    simp only [report_received (short x List.mem_cons_self)]
    rfl

theorem Link.sends_receiveds {cports : Nat} {chunks : List (UInt16 × Bytes)}
    (inRange : ∀ x ∈ chunks, x.1.toNat < cports) {l : Link} (ready : l.Open) :
    l.Sends (Packet.receiveds chunks)
      ((Packet.receiveds chunks).foldl (offer cports) l) := by
  refine sends_foldl_offer (fun p member => ?_) ready
  obtain ⟨x, sent, rfl⟩ := List.mem_map.mp member
  exact inRange x sent

namespace Node

/-- Nothing but drivers, if anything, is told of bytes that arrive, and what they send gets
through. -/
structure Forwarding (n : Node) : Prop where
  handler : ∀ h, n.board.uart.handler = some h → ∃ c, h = .forward c ∧ c.toNat < n.registry.size
  ready : n.link.Open

structure Conveys (n : Node) (data : Bytes) (chunks : List (UInt16 × Bytes)) (n' : Node) :
    Prop where
  sent : n.link.Sends (Packet.receiveds chunks) n'.link
  sizes : ∀ x ∈ chunks, 1 ≤ x.2.length ∧ x.2.length ≤ 64
  bytes : n.board.pending ++ data = chunks.flatMap (·.2) ++ n'.board.pending
  forwarding : n'.Forwarding

theorem Conveys.trans {n₁ n₂ n₃ : Node} {data data' : Bytes}
    {chunks chunks' : List (UInt16 × Bytes)} (h : Conveys n₁ data chunks n₂)
    (h' : Conveys n₂ data' chunks' n₃) :
    Conveys n₁ (data ++ data') (chunks ++ chunks') n₃ where
  sent := by
    rw [Packet.receiveds, List.map_append]
    exact h.sent.trans h'.sent
  sizes x member := (List.mem_append.mp member).elim (h.sizes x) (h'.sizes x)
  bytes := by
    rw [← List.append_assoc, h.bytes, List.append_assoc, h'.bytes, List.flatMap_append,
      List.append_assoc]
  forwarding := h'.forwarding

theorem Forwarding.drains {n : Node} (h : n.Forwarding) {handler : Uart.Handler}
    (installed : n.board.uart.handler = some handler) (data : Bytes) :
    ∃ c pieces, handler = .forward c ∧
      Board.Drains handler (n.board.withReceived data) pieces (n.arrive data).board ∧
      n.link.Sends (Packet.receiveds ((pieces.filter (· ≠ [])).map fun chunk => (c, chunk)))
        (n.arrive data).link ∧
      (n.arrive data).registry = n.registry := by
  obtain ⟨c, rfl, inRange⟩ := h.handler handler installed
  have drains := (n.board.withReceived data).drains_drainReceived c
  have pushed := Board.pushReceived_of_forward installed data
  generalize (n.board.withReceived data).drainReceived (.forward c) = drained at *
  obtain ⟨pieces, board⟩ := drained
  have pushed : n.board.pushReceived data =
      ((pieces.filter (· ≠ [])).map fun chunk => (c, chunk), board) := pushed
  have taken (x : UInt16 × Bytes) (hx : x ∈ (pieces.filter (· ≠ [])).map fun chunk => (c, chunk)) :
      x.1 = c ∧ x.2 ∈ pieces := by
    obtain ⟨chunk, taken, rfl⟩ := List.mem_map.mp hx
    exact ⟨rfl, (List.mem_filter.mp taken).1⟩
  have sends := Link.sends_receiveds (fun x hx => (taken x hx).1 ▸ inRange) h.ready
  refine ⟨c, pieces, rfl, ?_, ?_, ?_⟩ <;> simp only [arrive, pushed, foldl_request]
  · exact drains
  · rw [Packet.reports_receiveds fun x hx => drains.conserves.2.2 _ (taken x hx).2]
    exact sends

theorem Forwarding.arrive {n : Node} (h : n.Forwarding) (data : Bytes) :
    ∃ chunks, Conveys n data chunks (n.arrive data) := by
  cases installed : n.board.uart.handler with
  | none =>
    rw [Node.arrive, Board.pushReceived_of_none installed]
    refine ⟨[], .refl _, fun _ member => absurd member List.not_mem_nil, ?_,
      fun h' installed' => h.handler h' installed', h.ready⟩
    exact (n.board.pending_withReceived data).symm
  | some handler =>
    obtain ⟨c, pieces, rfl, drains, sends, registry⟩ := h.drains installed data
    obtain ⟨⟨received, kept⟩, bytes, short⟩ := drains.conserves
    refine ⟨_, sends, fun x hx => ?_, ?_, fun h' installed' => ?_, sends.open h.ready⟩
    · obtain ⟨chunk, taken, rfl⟩ := List.mem_map.mp hx
      obtain ⟨taken, nonempty⟩ := List.mem_filter.mp taken
      exact ⟨List.length_pos_iff.mpr (of_decide_eq_true nonempty), short chunk taken⟩
    · rw [← Board.pending_withReceived, bytes, List.flatMap_map, List.flatMap_id',
        List.flatten_filter_ne_nil]
    · rw [kept] at installed'
      rw [registry]
      exact h.handler h' installed'

structure Undisturbed (n n' : Node) : Prop where
  sent : n.link.Sends [] n'.link
  pending : n'.board.pending = n.board.pending
  size : n'.registry.size = n.registry.size
  handler : ∀ h, n'.board.uart.handler = some h →
    n.board.uart.handler = some h ∨ ∃ c, h = .forward c ∧ c.toNat < n.registry.size

theorem Undisturbed.conveys {n n' : Node} (h : Undisturbed n n') (forwarding : n.Forwarding) :
    Conveys n [] [] n' where
  sent := h.sent
  sizes := nofun
  bytes := by rw [List.append_nil, h.pending]; rfl
  forwarding :=
    { handler := fun h' installed => by
        rw [h.size]
        exact (h.handler h' installed).elim (forwarding.handler h') id
      ready := h.sent.open forwarding.ready }

theorem Undisturbed.of_eq {n n' : Node} (link : n'.link = n.link)
    (received : n'.board.uart.received = n.board.uart.received)
    (handler : n'.board.uart.handler = n.board.uart.handler)
    (size : n'.registry.size = n.registry.size) : Undisturbed n n' where
  sent := link ▸ .refl _
  pending := congrArg ByteQueue.toBytes received
  size := size
  handler _ installed := .inl (handler ▸ installed)

theorem Undisturbed.refl (n : Node) : Undisturbed n n := .of_eq rfl rfl rfl rfl

theorem Undisturbed.trans {n₁ n₂ n₃ : Node} (h : Undisturbed n₁ n₂) (h' : Undisturbed n₂ n₃) :
    Undisturbed n₁ n₃ where
  sent := h.sent.trans h'.sent
  pending := h'.pending.trans h.pending
  size := h'.size.trans h.size
  handler x installed := by
    rcases h'.handler x installed with before | driver
    · exact h.handler x before
    · exact .inr (h.size ▸ driver)

theorem undisturbed_mute (n : Node) (c : UInt16) : Undisturbed n (n.mute c) := by
  obtain ⟨set, muted, -⟩ := n.mute_eq c
  rw [muted]
  exact { Undisturbed.refl n with sent := .listens set }

theorem undisturbed_keptByTurnover : KeptByTurnover Undisturbed where
  refl := .refl
  trans := .trans
  exit _ _ := .of_eq rfl rfl rfl rfl
  outlet _ _ := .of_eq rfl rfl rfl rfl
  board n board rearranged := by
    obtain ⟨⟨irq, rx, receiving, rfl⟩, driver⟩ := rearranged
    exact ⟨.refl _, rfl, rfl, driver⟩
  init _ _ := .of_eq rfl rfl rfl rfl
  mute := undisturbed_mute
  modifySlot _ _ _ := .of_eq rfl rfl rfl (Registry.size_modify _ _ _)

end Node

namespace Uart

inductive Deed
  | arrives (data : Bytes)
  | register (cport : UInt16) (bundle : UInt8) (d : Driver)
  | unregister (cport : UInt16)
  | fault (capability : Capability) (e : Option DriverError)

namespace Deed

def apply : Deed → Node → Node
  | arrives data, n => n.arrive data
  | register c bundle d, n => (n.register c bundle d).2
  | unregister c, n => (n.unregister c).2
  | fault capability e, n => { n with board := n.board.setFault capability e }

def data : Deed → Bytes
  | arrives data => data
  | _ => []

end Deed

end Uart

namespace Node

theorem Forwarding.deed {n : Node} (h : n.Forwarding) (d : Uart.Deed) :
    ∃ chunks, Conveys n d.data chunks (d.apply n) := by
  cases d with
  | arrives data => exact h.arrive data
  | register c bundle d => exact ⟨[], (undisturbed_keptByTurnover.register n c bundle d).conveys h⟩
  | unregister c => exact ⟨[], (undisturbed_keptByTurnover.unregister n c).conveys h⟩
  | fault capability e =>
    have same : Undisturbed n { n with board := n.board.setFault capability e } :=
      .of_eq rfl rfl rfl rfl
    exact ⟨[], same.conveys h⟩

theorem Forwarding.deeds {n : Node} (h : n.Forwarding) (deeds : List Uart.Deed) :
    ∃ chunks, Conveys n (deeds.flatMap (·.data)) chunks (deeds.foldl (fun n d => d.apply n) n) := by
  induction deeds generalizing n with
  | nil => exact ⟨[], (Undisturbed.refl n).conveys h⟩
  | cons d deeds ih =>
    obtain ⟨chunks, first⟩ := h.deed d
    obtain ⟨chunks', rest⟩ := ih first.forwarding
    exact ⟨chunks ++ chunks', first.trans rest⟩

/-- Whatever arrives while drivers come and go and calls fail, the bytes that were sent on are the
first ones that arrived, in their order, and the others are in the queue.  Bytes that arrive are
announced a bounded number of times, and once they are none are left if they can be read. -/
theorem reception_conserves {n : Node}
    (drivers : ∀ h, n.board.uart.handler = some h →
      ∃ c, h = .forward c ∧ c.toNat < n.registry.size)
    (accepts : n.link.Open) (deeds : List Uart.Deed) :
    let n' := deeds.foldl (fun n d => d.apply n) n
    (∃ chunks : List (UInt16 × Bytes), n.link.Sends (Packet.receiveds chunks) n'.link ∧
      (∀ x ∈ chunks, 1 ≤ x.2.length ∧ x.2.length ≤ 64) ∧
      n.board.pending ++ deeds.flatMap (·.data) = chunks.flatMap (·.2) ++ n'.board.pending) ∧
    ∀ h data, n'.board.uart.handler = some h →
      (∃ turns, Board.Drains h (n'.board.withReceived data) turns (n'.arrive data).board ∧
        turns.length ≤ n'.board.pending.length + data.length + 1) ∧
      (n'.board.uart.receiving = true → n'.board.obstacle? .uartRead = none →
        (n'.arrive data).board.pending = []) := by
  intro n'
  obtain ⟨chunks, conveys⟩ := Forwarding.deeds ⟨drivers, accepts⟩ deeds
  refine ⟨⟨chunks, conveys.sent, conveys.sizes, conveys.bytes⟩, fun h data installed => ?_⟩
  obtain ⟨c, turns, rfl, drains, -⟩ := conveys.forwarding.drains installed data
  refine ⟨⟨turns, drains, ?_⟩, drains.emptied⟩
  have few := drains.length_le
  rw [Board.pending_withReceived, List.length_append] at few
  exact few

def lineIn : Node :=
  ofParts { Config.empty with cports := [⟨0, .control⟩, ⟨1, .uart⟩] } .fresh (.memory .fresh)

theorem lineIn_conserves :
    let deeds : List Uart.Deed := [.arrives [1, 2], .register 1 1 .uart, .arrives [3]]
    ∃ chunks : List (UInt16 × Bytes),
      lineIn.link.Sends (Packet.receiveds chunks)
        (deeds.foldl (fun n d => d.apply n) lineIn).link ∧
      (∀ x ∈ chunks, 1 ≤ x.2.length ∧ x.2.length ≤ 64) ∧ chunks.flatMap (·.2) = [1, 2, 3] := by
  intro deeds
  have conserves := reception_conserves (n := lineIn) nofun fun p => ⟨_, rfl⟩
  have emptied := ((conserves [.arrives [1, 2], .register 1 1 .uart]).2 _ [3] rfl).2 rfl rfl
  obtain ⟨chunks, sent, sizes, bytes⟩ := (conserves deeds).1
  refine ⟨chunks, sent, sizes, ?_⟩
  have rest : (deeds.foldl (fun n d => d.apply n) lineIn).board.pending = [] := emptied
  rw [rest, List.append_nil] at bytes
  exact bytes.symm

end Node

end CportNode
