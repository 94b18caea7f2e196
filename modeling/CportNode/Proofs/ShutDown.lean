import CportNode.Proofs.Moves

namespace CportNode.Node

/-- The worker will not get anything any more. -/
structure Ended (n : Node) : Prop where
  closed : n.accepting = false
  queue : n.queue = []
  waiting : n.waiting = []

theorem Moved.closed {n n' : Node} {m : Move} (h : Moved n m n') (closed : n.accepting = false) :
    n'.accepting = false := by
  cases h with
  | received received => cases received <;> exact closed
  | entered entered => cases entered <;> exact closed
  | worked worked =>
    cases worked with
    | idle _ => exact closed
    | @dispatched p n₁ n₂ n₃ taken entered dispatched =>
      obtain ⟨queue, waiting, counters, same⟩ := n₁.elim_letIn_eq _
      apply dispatched.sameQueue.closed
      rw [entered, same, (take_some taken).2.2]
      exact closed
  | opened opened => exact opened.sameQueue.closed closed
  | aside _ intake _ => exact intake.closed closed

theorem closed_after {n : Node} (closed : n.accepting = false) (moves : List Move) :
    (n.after moves).accepting = false :=
  after_invariant closed (fun n' m closed => (n'.moved_apply m).closed closed) moves

theorem Ended.moved {n n' : Node} {m : Move} (ended : n.Ended) (h : Moved n m n') : n'.Ended := by
  have of_sameQueue {n' : Node} (same : SameQueue n n') : n'.Ended :=
    ⟨same.closed ended.closed, same.queue.trans ended.queue, same.waiting.trans ended.waiting⟩
  cases h with
  | received received =>
    cases received with
    | dropped hs vacant => exact of_sameQueue ⟨rfl, rfl, rfl, id⟩
    | accepted d bound accepting room => simp [ended.closed] at accepting
    | waiting d bound accepting full => simp [ended.closed] at accepting
    | _ => exact ended
  | entered entered =>
    cases entered with
    | stays idle => exact ended
    | enters p waits room => simp [ended.waiting] at waits
  | worked worked =>
    cases worked with
    | idle _ => exact ended
    | dispatched p taken entered dispatched =>
      have queue := (take_some taken).2.1
      simp [ended.queue] at queue
  | opened opened => exact of_sameQueue opened.sameQueue
  | aside _ intake _ => exact of_sameQueue intake.toSameQueue

theorem Ended.after {n : Node} (ended : n.Ended) (moves : List Move) : (n.after moves).Ended :=
  after_invariant ended (fun n' m ended => ended.moved (n'.moved_apply m)) moves

def pending (n : Node) : Nat :=
  n.queue.length + n.waiting.length

theorem SameQueue.pending {n n' : Node} (h : SameQueue n n') : n'.pending = n.pending := by
  rw [Node.pending, h.queue, h.waiting]
  rfl

@[simp] theorem pending_letIn (n : Node) (place : Nat) : (n.letIn place).pending = n.pending := by
  have entered := letIn_letIn n place
  generalize n.letIn place = n' at *
  cases entered with
  | stays idle => rfl
  | enters p waits room =>
    have inLine := (List.getElem?_eq_some_iff.mp waits).1
    simp only [pending, enqueue, count, List.length_append, List.length_singleton,
      List.length_eraseIdx_of_lt inLine]
    omega

theorem queue_letIn {n : Node} (capacity : 0 < n.config.queueCapacity) (some : 0 < n.pending) :
    (n.letIn 0).queue ≠ [] := by
  have entered := letIn_letIn n 0
  generalize n.letIn 0 = n' at *
  cases entered with
  | stays idle =>
    intro empty
    rcases idle with nobody | full
    · rw [pending, empty, List.getElem?_eq_none_iff.mp nobody |> Nat.le_zero.mp] at some
      exact absurd some (Nat.lt_irrefl 0)
    · simp [hasRoom, empty, Nat.pos_iff_ne_zero.mp capacity] at full
  | enters p waits room => simp [enqueue, count]

structure Unhindered (n : Node) : Prop where
  capacity : 0 < n.config.queueCapacity
  free : n.held = none
  vacant : ∀ c, n.registry.driver? c = none

theorem Unhindered.hands {n n' : Node} {p : Packet} (h : n.Unhindered) : ¬ Handler n p n' := by
  intro handler
  obtain ⟨d, route⟩ := handler.bound
  cases (h.vacant p.cport).symm.trans (Registry.driver?_of_route route)

theorem Unhindered.dispatched {n n' : Node} {p : Packet} (h : n.Unhindered)
    (dispatched : Dispatched n p n') : n'.Unhindered := by
  cases dispatched with
  | handled handler => exact absurd handler h.hands
  | failed handler => exact absurd handler h.hands
  | holding handler => exact absurd handler h.hands
  | _ => exact ⟨h.capacity, h.free, h.vacant⟩

theorem Unhindered.letIn {n : Node} (h : n.Unhindered) (place : Nat) :
    (n.letIn place).Unhindered := by
  obtain ⟨queue, waiting, counters, same⟩ := n.letIn_eq place
  rw [same]
  exact ⟨h.capacity, h.free, h.vacant⟩

theorem Unhindered.take {n n' : Node} {p : Packet} (h : n.Unhindered)
    (taken : n.take = some (p, n')) : n'.Unhindered ∧ n'.pending + 1 = n.pending := by
  obtain ⟨-, queue, rest⟩ := take_some taken
  have pending : n'.pending + 1 = n.pending := by
    rw [rest]
    simp only [Node.pending, queue, List.length_cons]
    omega
  refine ⟨?_, pending⟩
  rw [rest]
  exact ⟨h.capacity, h.free, h.vacant⟩

theorem Unhindered.work {n : Node} (h : n.Unhindered) :
    (n.letIn 0).work.Unhindered ∧ (n.letIn 0).work.pending = n.pending - 1 := by
  have ready := h.letIn 0
  have worked := worked_workFor (n.letIn 0) (some 0)
  rw [Node.work]
  generalize (n.letIn 0).workFor (some 0) = n' at *
  cases worked with
  | idle idle =>
    have none : n.pending = 0 :=
      Nat.eq_zero_of_not_pos fun some => queue_letIn h.capacity some (take_none ready.free idle)
    exact ⟨ready, by simp [none]⟩
  | dispatched p taken entered dispatched =>
    obtain ⟨after, fewer⟩ := ready.take taken
    rw [pending_letIn] at fewer
    rw [Option.elim_some] at entered
    rw [dispatched.sameQueue.pending, entered, pending_letIn, ← fewer]
    rw [entered] at dispatched
    exact ⟨(after.letIn 0).dispatched dispatched, rfl⟩

theorem Unhindered.repeat {n : Node} (h : n.Unhindered) (k : Nat) :
    (Nat.repeat (fun n => (n.letIn 0).work) k n).Unhindered ∧
      (Nat.repeat (fun n => (n.letIn 0).work) k n).pending = n.pending - k := by
  -- Without drivers dispatching can only drain, so every round takes one request away.
  induction k with
  | zero => exact ⟨h, rfl⟩
  | succ k ih =>
    obtain ⟨unhindered, fewer⟩ := ih
    obtain ⟨unhindered', fewer'⟩ := unhindered.work
    exact ⟨unhindered', by rw [Nat.repeat, fewer', fewer, Nat.sub_sub]⟩

theorem Unhindered.settle {n : Node} (h : n.Unhindered) : n.settle.pending = 0 := by
  rw [Node.settle, (h.repeat _).2]
  exact Nat.sub_self _

def closing (n : Node) : List Move :=
  if n.running then
    .stop :: n.registry.boundCports.map .unregister ++ [.close] ++
      (if n.held.isSome then [.openGate] else []) ++
      (List.replicate n.pending [.letIn 0, .work (some 0)]).flatten ++
      [.outside id Link.detach id]
  else []

@[simp] theorem after_unregister (n : Node) (cports : List UInt16) :
    n.after (cports.map .unregister) = cports.foldl (fun n c => (n.unregister c).2) n :=
  List.foldl_map

theorem after_replicate (n : Node) (k : Nat) :
    n.after (List.replicate k [.letIn 0, .work (some 0)]).flatten =
      Nat.repeat (fun n => (n.letIn 0).work) k n := by
  induction k with
  | zero => rfl
  | succ k ih =>
    rw [List.replicate_succ', List.flatten_append, after_append, ih]
    rfl

def released (n : Node) : Node :=
  if n.held.isSome then n.halt.openGate else n.halt

theorem sameQueue_released (n : Node) : SameQueue n n.released := by
  have halted := (unbinds_halt n).toSameQueue
  unfold released
  split
  · exact halted.trans (gateOpened_openGate n.halt).sameQueue
  · exact halted

theorem unhindered_released {n : Node} (capacity : 0 < n.config.queueCapacity) :
    n.released.Unhindered := by
  have same : n.halt.config = n.config := (unbinds_halt n).config
  unfold released
  split
  · have opened := gateOpened_openGate n.halt
    generalize n.halt.openGate = n' at *
    cases opened with
    | free free => exact ⟨same ▸ capacity, free, driver?_halt n⟩
    | answered p link held => exact ⟨same ▸ capacity, rfl, driver?_halt n⟩
    | failed p held => exact ⟨same ▸ capacity, rfl, driver?_halt n⟩
  · rename_i free
    rw [Bool.not_eq_true, Option.isSome_eq_false_iff, Option.isNone_iff_eq_none] at free
    exact ⟨same ▸ capacity, (unbinds_halt n).held.trans free, driver?_halt n⟩

theorem shutDown_eq {n : Node} (running : n.running = true) :
    n.shutDown = { n.released.settle with link := n.released.settle.link.detach } := by
  rw [shutDown, if_pos running]
  simp only [(unbinds_halt n).held, released]

@[simp] theorem after_closing (n : Node) : n.after n.closing = n.shutDown := by
  by_cases running : n.running = true
  · have halted : n.after (.stop :: n.registry.boundCports.map .unregister ++ [.close]) = n.halt := by
      rw [after_concat]
      show Move.close.apply ((Move.stop.apply n).after _) = _
      rw [after_unregister]
      rfl
    have released : n.halt.after (if n.held.isSome then [.openGate] else []) = n.released := by
      rw [Node.released]
      split <;> rfl
    rw [closing, if_pos running, shutDown_eq running, after_concat, after_append, after_append,
      halted, released, after_replicate, ← (sameQueue_released n).pending]
    rfl
  · rw [closing, if_neg running, shutDown, if_neg running]
    rfl

theorem ended_shutDown {n : Node} (capacity : 0 < n.config.queueCapacity)
    (running : n.running = true) : n.shutDown.Ended := by
  have closed : n.released.accepting = false := by
    unfold released
    split
    · exact (gateOpened_openGate n.halt).sameQueue.closed rfl
    · rfl
  have none := (unhindered_released capacity).settle
  rw [shutDown_eq running]
  refine ⟨?_, ?_, ?_⟩
  · show n.released.settle.accepting = false
    rw [settle, ← after_replicate]
    exact closed_after closed _
  · exact List.eq_nil_of_length_eq_zero (Nat.eq_zero_of_add_eq_zero_right none)
  · exact List.eq_nil_of_length_eq_zero (Nat.eq_zero_of_add_eq_zero_left none)

end CportNode.Node
