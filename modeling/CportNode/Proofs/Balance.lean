import CportNode.Proofs.History
import CportNode.Proofs.ShutDown

/-!
The counters of a node add up, because the cport of a request on the queue is always engaged: it has
a driver, or it is draining.
-/

namespace CportNode.Node

/-- The counters of a node, when `unclaimed` requests found no driver and the worker has `inHand`
requests that it took off the queue and has not dispatched. -/
structure Balanced (unclaimed inHand : Nat) (n : Node) : Prop where
  received : n.counters.received = n.counters.dispatched + n.counters.pinged + n.counters.drained +
    n.queue.length + inHand
  dropped : n.counters.droppedUnbound = unclaimed
  errors : n.counters.handlerErrors + n.held.toList.length ≤ n.counters.dispatched
  engaged : ∀ p ∈ n.queue ++ n.waiting, (n.standing p.cport).Engaged

namespace Balanced

variable {n n' : Node} {unclaimed inHand : Nat}

theorem start (config : Config) (board : Board) (link : Link) :
    (ofParts config board link).Balanced 0 0 :=
  ⟨rfl, rfl, Nat.le_refl 0, fun _ p => by cases p⟩

theorem sameIntake (balanced : n.Balanced unclaimed inHand) (same : SameIntake n n')
    (passage : ∀ c, Passage (n.standing c) (n'.standing c)) : n'.Balanced unclaimed inHand where
  received := by rw [same.counters, same.queue]; exact balanced.received
  dropped := by rw [same.counters]; exact balanced.dropped
  errors := by rw [same.counters, same.held]; exact balanced.errors
  engaged p mem := by
    rw [same.queue, same.waiting] at mem
    exact (passage p.cport).engaged (balanced.engaged p mem)

theorem letIn (balanced : n.Balanced unclaimed inHand) (place : Nat) :
    (n.letIn place).Balanced unclaimed inHand := by
  have entered := letIn_letIn n place
  generalize n.letIn place = n' at *
  cases entered with
  | stays idle => exact balanced
  | enters p waits room =>
    refine ⟨?_, balanced.dropped, balanced.errors, ?_⟩
    · have := balanced.received
      simp only [enqueue, count, List.length_append, List.length_singleton]
      omega
    · intro q mem
      apply balanced.engaged q
      simp only [enqueue, count, List.mem_append, List.mem_singleton] at mem ⊢
      rcases mem with (onQueue | rfl) | waiting
      · exact .inl onQueue
      · exact .inr (List.mem_of_getElem? waits)
      · exact .inr (List.mem_of_mem_eraseIdx waiting)

theorem elim (balanced : n.Balanced unclaimed inHand) (place : Option Nat) :
    (place.elim n n.letIn).Balanced unclaimed inHand := by
  cases place with
  | none => exact balanced
  | some place => exact balanced.letIn place

theorem take (balanced : n.Balanced unclaimed 0) {p : Packet} (taken : n.take = some (p, n')) :
    n'.Balanced unclaimed 1 ∧ n'.held = none ∧ (n'.standing p.cport).Engaged := by
  obtain ⟨free, queue, rest⟩ := take_some taken
  have received := balanced.received
  have engaged := balanced.engaged
  rw [queue] at received engaged
  generalize n'.queue = queue at *
  subst rest
  refine ⟨⟨?_, balanced.dropped, balanced.errors, ?_⟩, free, ?_⟩
  · simpa [Nat.add_assoc] using received
  · exact fun q mem => engaged q (List.mem_cons_of_mem p mem)
  · exact engaged p List.mem_cons_self

theorem handler {p : Packet} (balanced : n.Balanced unclaimed 1) (free : n.held = none)
    (h : Handler n p n') : n'.Balanced unclaimed 0 ∧ n'.held = none ∧
      n'.counters.handlerErrors < n'.counters.dispatched := by
  have held : n'.held = none := h.intake.held.trans free
  have received := balanced.received
  have errors := balanced.errors
  have counters := h.intake.counters
  simp only [called, count] at counters
  rw [free] at errors
  refine ⟨⟨?_, ?_, ?_, ?_⟩, held, ?_⟩
  · rw [counters, h.intake.queue]
    simp only [called, count]
    omega
  · rw [counters]
    exact balanced.dropped
  · rw [counters, held]
    exact Nat.le_succ_of_le errors
  · intro q mem
    rw [h.intake.queue, h.intake.waiting] at mem
    exact (h.passage q.cport).engaged (balanced.engaged q mem)
  · rw [counters]
    exact Nat.lt_succ_of_le errors

theorem dispatched {p : Packet} (balanced : n.Balanced unclaimed 1) (free : n.held = none)
    (engaged : n.registry.route p.cport ≠ .unbound) (h : Dispatched n p n') :
    n'.Balanced unclaimed 0 := by
  have received := balanced.received
  cases h with
  | drained route =>
    refine ⟨?_, balanced.dropped, balanced.errors, balanced.engaged⟩
    simp only [count]
    omega
  | dropped route => exact absurd route engaged
  | pinged d link route ping =>
    refine ⟨?_, balanced.dropped, balanced.errors, balanced.engaged⟩
    simp only [count]
    omega
  | handled h => exact (balanced.handler free h).1
  | failed h =>
    obtain ⟨after, held, fewer⟩ := balanced.handler free h
    refine ⟨after.received, after.dropped, ?_, after.engaged⟩
    rw [← Nat.succ_le_iff] at fewer
    simpa [count, held] using fewer
  | holding h =>
    obtain ⟨after, held, fewer⟩ := balanced.handler free h
    exact ⟨after.received, after.dropped, fewer, after.engaged⟩

theorem workFor (balanced : n.Balanced unclaimed 0) (place : Option Nat) :
    (n.workFor place).Balanced unclaimed 0 := by
  have worked := worked_workFor n place
  generalize n.workFor place = n' at *
  cases worked with
  | idle _ => exact balanced
  | @dispatched p n₁ n₂ n₃ taken entered dispatched =>
    -- From here on the request is in hand, and others may enter before it is dispatched.
    obtain ⟨after, free, engaged⟩ := balanced.take taken
    subst entered
    have ready := after.elim place
    obtain ⟨queue, waiting, counters, same⟩ := n₁.elim_letIn_eq place
    rw [same] at ready dispatched
    exact ready.dispatched free (engaged_iff.mp engaged) dispatched

theorem receive (balanced : n.Balanced unclaimed inHand) {p : Packet} {outcome : Receipt × Node}
    (received : n.Received p outcome) :
    outcome.2.Balanced (if outcome.1 = .dropped then unclaimed + 1 else unclaimed) inHand := by
  cases received with
  | invalid e noCport => exact balanced
  | refused d e bound closed => exact balanced
  | dropped hs vacant =>
    exact ⟨balanced.received, congrArg (· + 1) balanced.dropped, balanced.errors, balanced.engaged⟩
  | accepted d bound accepting room =>
    refine ⟨?_, balanced.dropped, balanced.errors, ?_⟩
    · have := balanced.received
      simp only [enqueue, count, List.length_append, List.length_singleton]
      omega
    · intro q mem
      simp only [enqueue, count, List.mem_append, List.mem_singleton] at mem
      rcases mem with (onQueue | rfl) | waiting
      · exact balanced.engaged q (List.mem_append_left _ onQueue)
      · exact engaged_iff.mpr (Registry.route_ne_unbound_of_requireBound bound)
      · exact balanced.engaged q (List.mem_append_right _ waiting)
  | waiting d bound accepting full =>
    refine ⟨balanced.received, balanced.dropped, balanced.errors, ?_⟩
    intro q mem
    rw [← List.append_assoc, List.mem_append, List.mem_singleton] at mem
    rcases mem with before | rfl
    · exact balanced.engaged q before
    · exact engaged_iff.mpr (Registry.route_ne_unbound_of_requireBound bound)

theorem openGate (balanced : n.Balanced unclaimed 0) : n.openGate.Balanced unclaimed 0 := by
  have opened := gateOpened_openGate n
  have errors := balanced.errors
  generalize n.openGate = n' at *
  cases opened with
  | free free => exact ⟨balanced.received, balanced.dropped, errors, balanced.engaged⟩
  | answered p link held =>
    refine ⟨balanced.received, balanced.dropped, ?_, balanced.engaged⟩
    exact Nat.le_trans (Nat.le_add_right _ _) errors
  | failed p held =>
    rw [held] at errors
    exact ⟨balanced.received, balanced.dropped, errors, balanced.engaged⟩

theorem step {h : History} (balanced : h.node.Balanced h.unclaimed 0) (m : Move) :
    (h.step m).node.Balanced (h.step m).unclaimed 0 := by
  rw [h.node_step]
  cases m with
  | receive p =>
    have received := received_receive h.node p
    show Node.Balanced (h.receive p).unclaimed 0 (h.node.receive p).2
    rw [h.unclaimed_receive, History.lacksDriver_eq received]
    simpa only [decide_eq_true_eq] using balanced.receive received
  | letIn place =>
    show Node.Balanced (h.letIn place).unclaimed 0 _
    rw [h.unclaimed_letIn]
    exact balanced.letIn place
  | work place =>
    show Node.Balanced (h.workFor place).unclaimed 0 _
    rw [h.unclaimed_workFor]
    exact balanced.workFor place
  | openGate => exact balanced.openGate
  | _ => exact balanced.sameIntake (sameIntake_apply rfl h.node) (moved_apply h.node _).passage

theorem history (config : Config) (board : Board) (link : Link) (moves : List Move) :
    ((ofParts config board link).history moves).node.Balanced
      ((ofParts config board link).history moves).unclaimed 0 :=
  history_invariant (P := fun h => h.node.Balanced h.unclaimed 0) (start config board link)
    (fun _ m balanced => balanced.step m) moves

end Balanced

/-- A node under any moves, taking it down being such a run too: what was received has been
dispatched, pinged or drained or is still on the queue; requests are dropped only as they come; no
more handlers fail than are called.  The cport of a request on the queue has a driver or is
draining, so the worker never finds that a request has nowhere to go. -/
theorem counters_balance (config : Config) (board : Board) (link : Link) (moves : List Move) :
    let h := (ofParts config board link).history moves
    let c := h.node.counters
    h.node = (ofParts config board link).after moves ∧
    h.node.after h.node.closing = h.node.shutDown ∧
    c.received = c.dispatched + c.pinged + c.drained + h.node.queue.length ∧
    c.droppedUnbound = h.unclaimed ∧
    c.handlerErrors ≤ c.dispatched ∧
    (∀ p ∈ h.node.queue, ∃ s, h.node.registry.slot? p.cport = some s ∧
      (s.driver.isSome = true ∨ s.draining = true)) ∧
    (∀ p n (place : Option Nat), h.node.take = some (p, n) →
      (place.elim n n.letIn).registry.route p.cport ≠ .unbound) := by
  intro h c
  have balanced : h.node.Balanced h.unclaimed 0 := .history config board link moves
  refine ⟨node_history _ moves, after_closing h.node, balanced.received, balanced.dropped,
    Nat.le_of_add_right_le balanced.errors, ?_, ?_⟩
  · intro p mem
    obtain ⟨s, hs, route⟩ := balanced.engaged p (List.mem_append_left _ mem)
    rw [ne_eq, Slot.route_eq_unbound_iff] at route
    refine ⟨s, hs, ?_⟩
    cases hd : s.driver with
    | some d => exact .inl rfl
    | none => simpa [hd] using route
  · intro p n place taken
    obtain ⟨-, -, engaged⟩ := balanced.take taken
    obtain ⟨queue, waiting, counters, same⟩ := n.elim_letIn_eq place
    rw [same]
    exact engaged_iff.mp engaged

def untimely : List Move :=
  [.receive ⟨0, ⟨6, 0x02, 0, []⟩⟩, .register 0 1 .loopback, .receive ⟨0, ⟨7, 0x02, 0, []⟩⟩,
    .unregister 0]

theorem counters_balance_untimely :
    ((ofParts .smallest .fresh (.memory .fresh)).history untimely).node.counters.droppedUnbound = 1 ∧
      ∃ s, ((ofParts .smallest .fresh (.memory .fresh)).history untimely).node.registry.slot? 0 =
        some s ∧ (s.driver.isSome = true ∨ s.draining = true) := by
  obtain ⟨-, -, -, dropped, -, engaged, -⟩ :=
    counters_balance .smallest .fresh (.memory .fresh) untimely
  exact ⟨dropped, engaged ⟨0, ⟨7, 0x02, 0, []⟩⟩ List.mem_cons_self⟩

end CportNode.Node
