import Mathlib.Data.List.InsertIdx
import Mathlib.Data.List.Perm.Basic
import CportNode.Proofs.History
import CportNode.Proofs.ShutDown

namespace CportNode

/-- The history of a node whose queue has a capacity: what came onto the queue was taken since, or
is still on it, and what was offered came onto it or waits. -/
structure InOrder (capacity : Nat) (h : History) : Prop where
  config : h.node.config.queueCapacity = capacity
  queue : h.accepted.map Prod.fst = h.taken.map Prod.fst ++ h.node.queue
  waiting : h.delayed.map Prod.fst = h.node.waiting
  bounded : h.node.queue.length ≤ capacity
  offered : h.offered.Perm (h.accepted ++ h.delayed)

namespace InOrder

variable {capacity : Nat} {h : History}

theorem start (config : Config) (board : Board) (link : Link) :
    InOrder config.queueCapacity (.ofNode (.ofParts config board link)) :=
  ⟨rfl, rfl, rfl, Nat.zero_le _, .refl _⟩

theorem sameQueue (inOrder : InOrder capacity h) {n : Node} (same : Node.SameQueue h.node n) :
    InOrder capacity { h with node := n } where
  config := by rw [same.config]; exact inOrder.config
  queue := by rw [same.queue]; exact inOrder.queue
  waiting := by rw [same.waiting]; exact inOrder.waiting
  bounded := by rw [same.queue]; exact inOrder.bounded
  offered := inOrder.offered

theorem receive (inOrder : InOrder capacity h) (p : Packet) : InOrder capacity (h.receive p) := by
  have received := Node.received_receive h.node p
  have offers := History.offers_eq received
  unfold History.receive
  generalize h.node.receive p = outcome at *
  cases received with
  | accepted d bound accepting room =>
    rw [offers]
    refine ⟨inOrder.config, ?_, inOrder.waiting, ?_, ?_⟩
    · simp [Node.enqueue, Node.count, inOrder.queue]
    · have := of_decide_eq_true room
      rw [inOrder.config] at this
      simpa [Node.enqueue, Node.count, Nat.succ_le_iff] using this
    · have swap : (h.delayed ++ [(p, h.time)]).Perm ([(p, h.time)] ++ h.delayed) :=
        List.perm_append_comm
      have later := swap.append_left h.accepted
      rw [← List.append_assoc, ← List.append_assoc] at later
      exact (inOrder.offered.append_right _).trans later
  | waiting d bound accepting full =>
    rw [offers]
    refine ⟨inOrder.config, inOrder.queue, ?_, inOrder.bounded, ?_⟩
    · simp [inOrder.waiting]
    · have later := inOrder.offered.append_right [(p, h.time)]
      rwa [List.append_assoc] at later
  | _ =>
    rw [offers]
    exact ⟨inOrder.config, inOrder.queue, inOrder.waiting, inOrder.bounded, inOrder.offered⟩

theorem letIn (inOrder : InOrder capacity h) (place : Nat) : InOrder capacity (h.letIn place) := by
  have entered := Node.letIn_letIn h.node place
  -- The line of the node and that of the history agree place by place.
  have waits : h.node.waiting[place]? = (h.delayed[place]?).map Prod.fst := by
    rw [← inOrder.waiting, List.getElem?_map]
  unfold History.letIn
  generalize h.node.letIn place = n at *
  cases delayed : h.delayed[place]? with
  | none =>
    rw [delayed] at waits
    cases entered with
    | stays idle => exact inOrder
    | enters p some room => simp [waits] at some
  | some entry =>
    rw [delayed] at waits
    cases entered with
    | stays idle =>
      have full : h.node.hasRoom = false := idle.resolve_left (by simp [waits])
      simp only [full]
      exact inOrder
    | enters p some room =>
      rw [waits] at some
      cases some
      obtain ⟨inLine, atPlace⟩ := List.getElem?_eq_some_iff.mp delayed
      simp only [room]
      refine ⟨inOrder.config, ?_, ?_, ?_, ?_⟩
      · simp [Node.enqueue, Node.count, inOrder.queue]
      · simp [Node.enqueue, Node.count, ← inOrder.waiting, List.eraseIdx_map]
      · have := of_decide_eq_true room
        rw [inOrder.config] at this
        simpa [Node.enqueue, Node.count, Nat.succ_le_iff] using this
      · have later := (List.getElem_cons_eraseIdx_perm inLine).symm.append_left h.accepted
        rw [atPlace] at later
        exact inOrder.offered.trans (later.trans (by simp))

theorem take (inOrder : InOrder capacity h) {p : Packet} {n : Node}
    (taken : h.node.take = some (p, n)) :
    InOrder capacity { h with node := n, taken := h.taken ++ [(p, h.time)] } := by
  obtain ⟨-, queue, rest⟩ := Node.take_some taken
  have bounded := inOrder.bounded
  rw [queue] at bounded
  refine ⟨?_, ?_, ?_, Nat.le_of_succ_le bounded, inOrder.offered⟩
  · rw [rest]
    exact inOrder.config
  · simp [inOrder.queue, queue]
  · rw [rest]
    exact inOrder.waiting

theorem workFor (inOrder : InOrder capacity h) (place : Option Nat) :
    InOrder capacity (h.workFor place) := by
  unfold History.workFor
  split
  · exact inOrder
  · rename_i p n taken
    have after := inOrder.take taken
    have entered : InOrder capacity (place.elim { h with node := n, taken := h.taken ++ [(p, h.time)] }
        (History.letIn { h with node := n, taken := h.taken ++ [(p, h.time)] })) := by
      cases place with
      | none => exact after
      | some place => exact after.letIn place
    exact entered.sameQueue (Node.dispatched_dispatch _ p).sameQueue

theorem step (inOrder : InOrder capacity h) (m : Move) : InOrder capacity (h.step m) := by
  have later {h : History} (inOrder : InOrder capacity h) (time : Nat) :
      InOrder capacity { h with time } :=
    ⟨inOrder.config, inOrder.queue, inOrder.waiting, inOrder.bounded, inOrder.offered⟩
  apply later
  cases m with
  | receive p => exact inOrder.receive p
  | letIn place => exact inOrder.letIn place
  | work place => exact inOrder.workFor place
  | openGate => exact inOrder.sameQueue (Node.gateOpened_openGate h.node).sameQueue
  | _ => exact inOrder.sameQueue (Node.sameIntake_apply rfl h.node).toSameQueue

theorem history (config : Config) (board : Board) (link : Link) (moves : List Move) :
    InOrder config.queueCapacity ((Node.ofParts config board link).history moves) :=
  Node.history_invariant (start config board link) (fun _ m inOrder => inOrder.step m) moves

end InOrder

namespace Node

theorem handed_sublist_taken (config : Config) (board : Board) (link : Link) (moves : List Move) :
    ((ofParts config board link).history moves).node.handed.Sublist
      (((ofParts config board link).history moves).taken.map Prod.fst) := by
  refine history_invariant (P := fun h => h.node.handed.Sublist (h.taken.map Prod.fst)) (.refl _)
    (fun h m sublist => ?_) moves
  cases h.took_step m with
  | nothing taken handed => rwa [taken, handed]
  | request p n take taken handed =>
    rw [taken, handed, List.map_append]
    apply sublist.append
    split
    · exact .refl _
    · exact List.nil_sublist _

theorem taken_eq_accepted_of_ended {config : Config} {board : Board} {link : Link}
    {moves : List Move} (ended : ((ofParts config board link).after moves).Ended)
    (later : List Move) :
    ((ofParts config board link).history (moves ++ later)).taken.map Prod.fst =
      ((ofParts config board link).history (moves ++ later)).accepted.map Prod.fst := by
  have inOrder := InOrder.history config board link (moves ++ later)
  have queue := (ended.after later).queue
  rw [← after_append, ← node_history] at queue
  rw [inOrder.queue, queue, List.append_nil]

/-- A node under any moves, as long as its queue can hold anything: requests are taken in the order
in which they came onto the queue, none lost and none doubled; the queue keeps to its capacity, and
a producer that finds it full waits; drivers are handed requests in that order too.  Taking the node
down is a run, after which everything that came onto the queue has been taken, for good; and so it
is in any other run in which the worker has ended. -/
theorem fifo (config : Config) (capacity : 0 < config.queueCapacity) (board : Board) (link : Link)
    (moves : List Move) :
    let start := ofParts config board link
    let h := start.history moves
    h.node = start.after moves ∧
    h.accepted.map Prod.fst = h.taken.map Prod.fst ++ h.node.queue ∧
    h.node.queue.length ≤ config.queueCapacity ∧
    (∀ p, h.offers p = true → (h.node.receive p).1 =
      if h.node.queue.length < config.queueCapacity then .accepted else .waiting) ∧
    h.offered.Perm (h.accepted ++ h.delayed) ∧
    h.delayed.map Prod.fst = h.node.waiting ∧
    h.node.handed.Sublist (h.accepted.map Prod.fst) ∧
    start.after (moves ++ h.node.closing) = h.node.shutDown ∧
    (h.node.running = true → ∀ later,
      let h' := start.history (moves ++ h.node.closing ++ later)
      h'.taken.map Prod.fst = h'.accepted.map Prod.fst) ∧
    (h.node.Ended → ∀ later,
      let h' := start.history (moves ++ later)
      h'.taken.map Prod.fst = h'.accepted.map Prod.fst) := by
  intro start h
  have inOrder : InOrder config.queueCapacity h := .history config board link moves
  have node : h.node = start.after moves := node_history start moves
  have closing : start.after (moves ++ h.node.closing) = h.node.shutDown := by
    simp [← node]
  refine ⟨node, inOrder.queue, inOrder.bounded, ?_, inOrder.offered, inOrder.waiting, ?_, closing,
    ?_, ?_⟩
  · intro p offers
    have received := received_receive h.node p
    rw [History.offers_eq received] at offers
    rw [← inOrder.config]
    generalize h.node.receive p = outcome at *
    cases received with
    | accepted d bound accepting room => exact (if_pos (of_decide_eq_true room)).symm
    | waiting d bound accepting full => exact (if_neg (of_decide_eq_false full)).symm
    | _ => simp at offers
  · rw [inOrder.queue]
    exact (handed_sublist_taken config board link moves).trans (List.sublist_append_left _ _)
  · intro running later
    apply taken_eq_accepted_of_ended
    rw [closing]
    exact ended_shutDown (inOrder.config ▸ capacity) running
  · intro ended later
    exact taken_eq_accepted_of_ended (node ▸ ended) later

def crowding : List Move :=
  [.register 0 1 .loopback, .receive ⟨0, ⟨7, 0x02, 0, []⟩⟩, .receive ⟨0, ⟨8, 0x02, 0, []⟩⟩,
    .work (some 0)]

theorem fifo_crowding :
    (((ofParts .smallest .fresh (.memory .fresh)).history crowding).accepted.map Prod.fst =
      ((ofParts .smallest .fresh (.memory .fresh)).history crowding).taken.map Prod.fst ++
        [⟨0, ⟨8, 0x02, 0, []⟩⟩]) ∧
      ((ofParts .smallest .fresh (.memory .fresh)).history crowding).node.queue.length ≤ 1 := by
  obtain ⟨-, queue, bounded, -⟩ := fifo .smallest (by decide) .fresh (.memory .fresh) crowding
  exact ⟨queue, bounded⟩

end Node

end CportNode
