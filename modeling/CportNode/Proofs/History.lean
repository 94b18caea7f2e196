import Mathlib.Data.List.Induction
import CportNode.Proofs.Moves

/-!
A run of a node and its history: what was brought to the node, what came onto the queue, and what
the worker took, with the times at which it did.  The time is the number of moves made before.
-/

namespace CportNode

structure History where
  node : Node
  time : Nat
  /-- What producers brought while it had a driver to go to and the queue was open. -/
  offered : List (Packet × Nat)
  /-- What came onto the queue, in order, each with the time at which it was brought. -/
  accepted : List (Packet × Nat)
  /-- What waits for room, likewise. -/
  delayed : List (Packet × Nat)
  taken : List (Packet × Nat)
  /-- How many requests were brought to a cport that had no driver. -/
  unclaimed : Nat

namespace History

def ofNode (n : Node) : History := ⟨n, 0, [], [], [], [], 0⟩

def offers (h : History) (p : Packet) : Bool :=
  h.node.registry.isBound p.cport && h.node.accepting

def lacksDriver (h : History) (p : Packet) : Bool :=
  (h.node.registry.slot? p.cport).isSome && !h.node.registry.isBound p.cport

def receive (h : History) (p : Packet) : History :=
  let brought := { h with
    offered := if h.offers p then h.offered ++ [(p, h.time)] else h.offered
    unclaimed := if h.lacksDriver p then h.unclaimed + 1 else h.unclaimed }
  match h.node.receive p with
  | (.accepted, n) => { brought with node := n, accepted := h.accepted ++ [(p, h.time)] }
  | (.waiting, n) => { brought with node := n, delayed := h.delayed ++ [(p, h.time)] }
  | (_, n) => { brought with node := n }

def letIn (h : History) (place : Nat) : History :=
  let h' := { h with node := h.node.letIn place }
  match h.delayed[place]? with
  | none => h'
  | some entry =>
    if h.node.hasRoom then
      { h' with accepted := h.accepted ++ [entry], delayed := h.delayed.eraseIdx place }
    else h'

def workFor (h : History) (place : Option Nat) : History :=
  match h.node.take with
  | none => h
  | some (p, n) =>
    let h := { h with node := n, taken := h.taken ++ [(p, h.time)] }
    let h := place.elim h h.letIn
    { h with node := h.node.dispatch p }

def step (h : History) (m : Move) : History :=
  let h' := match m with
    | .receive p => h.receive p
    | .letIn place => h.letIn place
    | .work place => h.workFor place
    | m => { h with node := m.apply h.node }
  { h' with time := h.time + 1 }

theorem offers_eq {h : History} {p : Packet} {outcome : Receipt × Node}
    (received : h.node.Received p outcome) :
    h.offers p = decide (outcome.1 = .accepted ∨ outcome.1 = .waiting) := by
  cases received with
  | invalid e noCport => simp [offers, Registry.isBound, Registry.driver?, noCport]
  | refused d e bound closed => simp [offers, closed]
  | dropped hs vacant => simp [offers, Registry.isBound, Registry.driver?_eq hs, vacant]
  | accepted d bound accepting room =>
    simp [offers, Registry.isBound_of_requireBound bound, accepting]
  | waiting d bound accepting full =>
    simp [offers, Registry.isBound_of_requireBound bound, accepting]

theorem lacksDriver_eq {h : History} {p : Packet} {outcome : Receipt × Node}
    (received : h.node.Received p outcome) :
    h.lacksDriver p = decide (outcome.1 = .dropped) := by
  cases received with
  | invalid e noCport => simp [lacksDriver, noCport]
  | refused d e bound closed => simp [lacksDriver, Registry.isBound_of_requireBound bound]
  | dropped hs vacant =>
    simp [lacksDriver, Registry.isBound, Registry.driver?_eq hs, hs, vacant]
  | accepted d bound accepting room =>
    simp [lacksDriver, Registry.isBound_of_requireBound bound]
  | waiting d bound accepting full =>
    simp [lacksDriver, Registry.isBound_of_requireBound bound]

@[simp] theorem node_receive (h : History) (p : Packet) :
    (h.receive p).node = (h.node.receive p).2 := by
  unfold receive
  simp only
  split <;> simp_all

@[simp] theorem node_letIn (h : History) (place : Nat) :
    (h.letIn place).node = h.node.letIn place := by
  unfold letIn
  simp only
  split
  · rfl
  · split <;> rfl

@[simp] theorem node_elim (h : History) (place : Option Nat) :
    (place.elim h h.letIn).node = place.elim h.node h.node.letIn := by
  cases place with
  | none => rfl
  | some place => exact h.node_letIn place

@[simp] theorem node_workFor (h : History) (place : Option Nat) :
    (h.workFor place).node = h.node.workFor place := by
  unfold workFor Node.workFor
  cases h.node.take with
  | none => rfl
  | some taken => simp

theorem unclaimed_receive (h : History) (p : Packet) :
    (h.receive p).unclaimed = if h.lacksDriver p then h.unclaimed + 1 else h.unclaimed := by
  unfold receive
  simp only
  split <;> rfl

@[simp] theorem unclaimed_letIn (h : History) (place : Nat) :
    (h.letIn place).unclaimed = h.unclaimed := by
  unfold letIn
  simp only
  split
  · rfl
  · split <;> rfl

@[simp] theorem unclaimed_workFor (h : History) (place : Option Nat) :
    (h.workFor place).unclaimed = h.unclaimed := by
  unfold workFor
  split
  · rfl
  · cases place with
    | none => rfl
    | some place => exact unclaimed_letIn _ place

@[simp] theorem node_step (h : History) (m : Move) : (h.step m).node = m.apply h.node := by
  cases m with
  | receive p => exact h.node_receive p
  | letIn place => exact h.node_letIn place
  | work place => exact h.node_workFor place
  | _ => rfl

inductive Took (h h' : History) : Prop
  | nothing : h'.taken = h.taken → h'.node.handed = h.node.handed → Took h h'
  | request (p : Packet) (n : Node) : h.node.take = some (p, n) →
      h'.taken = h.taken ++ [(p, h.time)] →
      h'.node.handed = h.node.handed ++ (if h.node.hands p then [p] else []) → Took h h'

@[simp] theorem taken_letIn (h : History) (place : Nat) : (h.letIn place).taken = h.taken := by
  unfold letIn
  simp only
  split
  · rfl
  · split <;> rfl

theorem took_receive (h : History) (p : Packet) : Took h (h.receive p) := by
  have received := Node.received_receive h.node p
  unfold receive
  generalize h.node.receive p = outcome at *
  cases received <;> exact .nothing rfl rfl

theorem took_workFor (h : History) (place : Option Nat) : Took h (h.workFor place) := by
  unfold workFor
  split
  · exact .nothing rfl rfl
  · rename_i p n taken
    obtain ⟨-, -, rest⟩ := Node.take_some taken
    have dispatched := Node.dispatched_dispatch (place.elim n n.letIn) p
    have hands : (place.elim n n.letIn).hands p = h.node.hands p := by
      rw [Node.hands_elim, rest]
      rfl
    have handed : (place.elim n n.letIn).handed = h.node.handed := by
      rw [Node.handed_elim, rest]
      rfl
    refine .request p n taken ?_ ?_
    · cases place with
      | none => rfl
      | some place => exact taken_letIn _ place
    · rw [← hands, ← handed, ← dispatched.handed]
      simp

theorem took_step (h : History) (m : Move) : Took h (h.step m) := by
  have later {h' : History} (took : Took h h') (time : Nat) : Took h { h' with time } := by
    cases took with
    | nothing taken handed => exact .nothing taken handed
    | request p n take taken handed => exact .request p n take taken handed
  apply later
  cases m with
  | receive p => exact h.took_receive p
  | letIn place => exact .nothing (h.taken_letIn place) (by simp)
  | work place => exact h.took_workFor place
  | openGate => exact .nothing rfl (Node.gateOpened_openGate h.node).handed
  | _ => exact .nothing rfl (Node.sameIntake_apply rfl h.node).handed

structure Grew (h h' : History) : Prop where
  accepted : h.accepted <+: h'.accepted
  brought : ∀ x ∈ h'.accepted ++ h'.delayed, x ∈ h.accepted ++ h.delayed ∨
    x.2 = h.time ∧ h.node.registry.isBound x.1.cport = true

theorem Grew.of_same {h h' : History} (accepted : h'.accepted = h.accepted)
    (delayed : h'.delayed = h.delayed) : Grew h h' := by
  refine ⟨accepted ▸ List.prefix_refl _, fun x mem => .inl ?_⟩
  rwa [accepted, delayed] at mem

theorem grew_receive (h : History) (p : Packet) : Grew h (h.receive p) := by
  have received := Node.received_receive h.node p
  unfold receive
  generalize h.node.receive p = outcome at *
  cases received with
  | accepted d bound accepting room =>
    refine ⟨List.prefix_append _ _, fun x mem => ?_⟩
    simp only [List.mem_append, List.mem_singleton] at mem ⊢
    rcases mem with (before | rfl) | delayed
    · exact .inl (.inl before)
    · exact .inr ⟨rfl, Registry.isBound_of_requireBound bound⟩
    · exact .inl (.inr delayed)
  | waiting d bound accepting full =>
    refine ⟨List.prefix_refl _, fun x mem => ?_⟩
    simp only [List.mem_append, List.mem_singleton] at mem ⊢
    rcases mem with before | delayed | rfl
    · exact .inl (.inl before)
    · exact .inl (.inr delayed)
    · exact .inr ⟨rfl, Registry.isBound_of_requireBound bound⟩
  | _ => exact .of_same rfl rfl

theorem grew_letIn (h : History) (place : Nat) : Grew h (h.letIn place) := by
  unfold letIn
  simp only
  split
  · exact .of_same rfl rfl
  · rename_i entry waits
    split
    · refine ⟨List.prefix_append _ _, fun x mem => .inl ?_⟩
      simp only [List.mem_append, List.mem_singleton] at mem ⊢
      rcases mem with (before | rfl) | delayed
      · exact .inl before
      · exact .inr (List.mem_of_getElem? waits)
      · exact .inr (List.mem_of_mem_eraseIdx delayed)
    · exact .of_same rfl rfl

theorem grew_workFor (h : History) (place : Option Nat) : Grew h (h.workFor place) := by
  unfold workFor
  split
  · exact .of_same rfl rfl
  · rename_i p n taken
    have registry : n.registry = h.node.registry := by rw [(Node.take_some taken).2.2]
    cases place with
    | none => exact .of_same rfl rfl
    | some place =>
      obtain ⟨accepted, brought⟩ :=
        grew_letIn { h with node := n, taken := h.taken ++ [(p, h.time)] } place
      rw [registry] at brought
      exact ⟨accepted, brought⟩

theorem grew_step (h : History) (m : Move) : Grew h (h.step m) := by
  have later {h' : History} (grew : Grew h h') (time : Nat) : Grew h { h' with time } :=
    ⟨grew.accepted, grew.brought⟩
  apply later
  cases m with
  | receive p => exact h.grew_receive p
  | letIn place => exact h.grew_letIn place
  | work place => exact h.grew_workFor place
  | _ => exact .of_same rfl rfl

end History

namespace Node

def history (n : Node) (moves : List Move) : History :=
  moves.foldl History.step (.ofNode n)

@[simp] theorem history_concat (n : Node) (moves : List Move) (m : Move) :
    n.history (moves ++ [m]) = (n.history moves).step m :=
  List.foldl_append

@[simp] theorem node_history (n : Node) (moves : List Move) :
    (n.history moves).node = n.after moves := by
  induction moves using List.reverseRecOn with
  | nil => rfl
  | append_singleton moves m ih =>
    rw [history_concat, after_concat, History.node_step, ih]

@[simp] theorem time_history (n : Node) (moves : List Move) :
    (n.history moves).time = moves.length := by
  induction moves using List.reverseRecOn with
  | nil => rfl
  | append_singleton moves m ih =>
    rw [history_concat, List.length_append, ← ih]
    rfl

theorem history_invariant {n : Node} {P : History → Prop} (first : P (.ofNode n))
    (step : ∀ h m, P h → P (h.step m)) (moves : List Move) : P (n.history moves) := by
  induction moves using List.reverseRecOn with
  | nil => exact first
  | append_singleton moves m ih =>
    simpa using step _ m ih

end Node

def Config.smallest : Config := ⟨[⟨1, .loopback⟩], 1, "worker", none, none⟩

end CportNode
