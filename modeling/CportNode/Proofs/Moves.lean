import CportNode.Node.Lifecycle
import CportNode.Proofs.Dispatch

namespace CportNode

inductive Move
  | receive (p : Packet)
  | letIn (place : Nat)
  | work (place : Option Nat)
  | register (cport : UInt16) (bundle : UInt8) (d : Driver)
  | unregister (cport : UInt16)
  | listen (cport : UInt16)
  | stopListening (cport : UInt16)
  | notify (cport : UInt16) (event : Event)
  | openGate
  | closeGate
  | stop
  | close
  | outside (board : Board → Board) (link : Link → Link) (ids : OperationIds → OperationIds)

namespace Move

def apply : Move → Node → Node
  | receive p, n => (n.receive p).2
  | letIn place, n => n.letIn place
  | work place, n => n.workFor place
  | register c bundle d, n => (n.register c bundle d).2
  | unregister c, n => (n.unregister c).2
  | listen c, n =>
    match n.listen c with
    | .ok n => n
    | .error _ => n
  | stopListening c, n =>
    match n.stopListening c with
    | .ok n => n
    | .error _ => n
  | notify c event, n => (n.notify c event).2
  | openGate, n => n.openGate
  | closeGate, n => n.closeGate
  | stop, n => { n with running := false }
  | close, n => { n with accepting := false }
  | outside board link ids, n =>
    { n with board := board n.board, link := link n.link, ids := ids n.ids }

def aside : Move → Bool
  | receive _ => false
  | letIn _ => false
  | work _ => false
  | openGate => false
  | _ => true

end Move

namespace Node

def after (n : Node) (moves : List Move) : Node :=
  moves.foldl (fun n m => m.apply n) n

@[simp] theorem after_append (n : Node) (moves moves' : List Move) :
    n.after (moves ++ moves') = (n.after moves).after moves' :=
  List.foldl_append

theorem after_concat (n : Node) (moves : List Move) (m : Move) :
    n.after (moves ++ [m]) = m.apply (n.after moves) :=
  n.after_append moves [m]

theorem after_invariant {n : Node} {P : Node → Prop} (first : P n)
    (step : ∀ n m, P n → P (Move.apply m n)) (moves : List Move) : P (n.after moves) := by
  induction moves generalizing n with
  | nil => exact first
  | cons m moves ih => exact ih (step n m first)

inductive Received (n : Node) (p : Packet) : Receipt × Node → Prop
  | invalid (e : NodeError) : n.registry.slot? p.cport = none → Received n p (.refused e, n)
  | refused (d : Driver) (e : NodeError) : n.registry.requireBound p.cport = .ok d →
      n.accepting = false → Received n p (.refused e, n)
  | dropped {s : Slot} : n.registry.slot? p.cport = some s → s.driver = none →
      Received n p
        (.dropped, n.count fun c => { c with droppedUnbound := c.droppedUnbound + 1 })
  | accepted (d : Driver) : n.registry.requireBound p.cport = .ok d → n.accepting = true →
      n.hasRoom = true → Received n p (.accepted, n.enqueue p)
  | waiting (d : Driver) : n.registry.requireBound p.cport = .ok d → n.accepting = true →
      n.hasRoom = false → Received n p (.waiting, { n with waiting := n.waiting ++ [p] })

theorem received_receive (n : Node) (p : Packet) : Received n p (n.receive p) := by
  unfold receive
  cases required : n.registry.requireBound p.cport with
  | error e =>
    cases hs : n.registry.slot? p.cport with
    | none =>
      simp only [Registry.requireBound, hs] at required
      cases required
      exact .invalid _ hs
    | some s =>
      cases hd : s.driver with
      | some d => simp [Registry.requireBound, hs, hd] at required
      | none =>
        simp only [Registry.requireBound, hs, hd] at required
        cases required
        exact .dropped hs hd
  | ok d =>
    simp only
    split
    · rename_i closed
      rw [Bool.not_eq_true'] at closed
      exact .refused d _ required closed
    · rename_i accepting
      rw [Bool.not_eq_true, Bool.not_eq_false'] at accepting
      split
      · rename_i room
        exact .accepted d required accepting room
      · rename_i full
        exact .waiting d required accepting (Bool.eq_false_iff.mpr full)

inductive LetIn (n : Node) (place : Nat) : Node → Prop
  | stays : n.waiting[place]? = none ∨ n.hasRoom = false → LetIn n place n
  | enters (p : Packet) : n.waiting[place]? = some p → n.hasRoom = true →
      LetIn n place ({ n with waiting := n.waiting.eraseIdx place }.enqueue p)

theorem letIn_letIn (n : Node) (place : Nat) : LetIn n place (n.letIn place) := by
  unfold letIn
  cases h : n.waiting[place]? with
  | none => exact .stays (.inl h)
  | some p =>
    cases room : n.hasRoom with
    | true => exact .enters p h room
    | false => exact .stays (.inr room)

theorem take_some {n n' : Node} {p : Packet} (h : n.take = some (p, n')) :
    n.held = none ∧ n.queue = p :: n'.queue ∧ n' = { n with queue := n'.queue } := by
  unfold take at h
  split at h
  · rename_i free queue
    cases h
    exact ⟨free, queue, rfl⟩
  · cases h

theorem take_none {n : Node} (free : n.held = none) (h : n.take = none) : n.queue = [] := by
  unfold take at h
  split at h
  · cases h
  · rename_i idle
    cases queue : n.queue with
    | nil => rfl
    | cons p rest => exact absurd queue (idle p rest free)

inductive Worked (n : Node) (place : Option Nat) : Node → Prop
  | idle : n.take = none → Worked n place n
  | dispatched (p : Packet) {n₁ n₂ n₃ : Node} : n.take = some (p, n₁) →
      n₂ = place.elim n₁ n₁.letIn → Dispatched n₂ p n₃ → Worked n place n₃

theorem worked_workFor (n : Node) (place : Option Nat) : Worked n place (n.workFor place) := by
  unfold workFor
  split
  · rename_i p n₁ taken
    exact .dispatched p taken rfl (dispatched_dispatch _ p)
  · rename_i idle
    exact .idle idle

inductive GateOpened (n : Node) : Node → Prop
  | free : n.held = none → GateOpened n { n with gateOpen := true }
  | answered (p : Packet) (link : Link) : n.held = some p →
      GateOpened n { n with gateOpen := true, held := none, link }
  | failed (p : Packet) : n.held = some p →
      GateOpened n ({ n with gateOpen := true, held := none }.count fun c =>
        { c with handlerErrors := c.handlerErrors + 1 })

theorem gateOpened_openGate (n : Node) : GateOpened n n.openGate := by
  unfold openGate
  simp only
  split
  · rename_i free
    exact .free free
  · rename_i p held
    rcases conclude_answer { n with gateOpen := true, held := none } p (.done p.message.payload)
      with ⟨link, same⟩ | failed
    · rw [same]
      exact .answered p link held
    · rw [failed]
      exact .failed p held

theorem GateOpened.sameQueue {n n' : Node} (h : GateOpened n n') : SameQueue n n' := by
  cases h <;> exact ⟨rfl, rfl, rfl, id⟩

theorem GateOpened.handed {n n' : Node} (h : GateOpened n n') : n'.handed = n.handed := by
  cases h <;> rfl

theorem letIn_eq (n : Node) (place : Nat) :
    ∃ queue waiting counters, n.letIn place = { n with queue, waiting, counters } := by
  have entered := letIn_letIn n place
  generalize n.letIn place = n' at *
  cases entered with
  | stays idle => exact ⟨n.queue, n.waiting, n.counters, rfl⟩
  | enters p waits room => exact ⟨_, _, _, rfl⟩

theorem elim_letIn_eq (n : Node) (place : Option Nat) :
    ∃ queue waiting counters, place.elim n n.letIn = { n with queue, waiting, counters } := by
  cases place with
  | none => exact ⟨n.queue, n.waiting, n.counters, rfl⟩
  | some place => exact n.letIn_eq place

@[simp] theorem standing_elim (n : Node) (place : Option Nat) (c : UInt16) :
    (place.elim n n.letIn).standing c = n.standing c := by
  obtain ⟨queue, waiting, counters, same⟩ := n.elim_letIn_eq place
  rw [same]
  rfl

@[simp] theorem hands_elim (n : Node) (place : Option Nat) (p : Packet) :
    (place.elim n n.letIn).hands p = n.hands p := by
  obtain ⟨queue, waiting, counters, same⟩ := n.elim_letIn_eq place
  rw [same]
  rfl

@[simp] theorem handed_letIn (n : Node) (place : Nat) : (n.letIn place).handed = n.handed := by
  obtain ⟨queue, waiting, counters, same⟩ := n.letIn_eq place
  rw [same]
  rfl

@[simp] theorem handed_elim (n : Node) (place : Option Nat) :
    (place.elim n n.letIn).handed = n.handed := by
  obtain ⟨queue, waiting, counters, same⟩ := n.elim_letIn_eq place
  rw [same]
  rfl

theorem standing_take {n n' : Node} {p : Packet} (h : n.take = some (p, n')) (c : UInt16) :
    n'.standing c = n.standing c := by
  rw [(take_some h).2.2]
  rfl

theorem Worked.passage {n n' : Node} {place : Option Nat} (h : Worked n place n') (c : UInt16) :
    Passage (n.standing c) (n'.standing c) := by
  cases h with
  | idle _ => exact .kept
  | dispatched p taken entered dispatched =>
    have passage := dispatched.passage c
    rw [entered, standing_elim, standing_take taken] at passage
    exact passage

inductive Moved (n : Node) : Move → Node → Prop
  | received {p : Packet} {outcome : Receipt × Node} :
      Received n p outcome → Moved n (.receive p) outcome.2
  | entered {place : Nat} {n' : Node} : LetIn n place n' → Moved n (.letIn place) n'
  | worked {place : Option Nat} {n' : Node} : Worked n place n' → Moved n (.work place) n'
  | opened {n' : Node} : GateOpened n n' → Moved n .openGate n'
  | aside {m : Move} {n' : Node} : m.aside = true → SameIntake n n' →
      (∀ c, Passage (n.standing c) (n'.standing c)) → Moved n m n'

theorem moved_apply (n : Node) (m : Move) : Moved n m (m.apply n) := by
  have of_unbinds {m : Move} {n' : Node} (aside : m.aside = true) (h : Unbinds n n') :
      Moved n m n' := .aside aside h.toSameIntake h.passage
  cases m with
  | receive p => exact .received (received_receive n p)
  | letIn place => exact .entered (letIn_letIn n place)
  | work place => exact .worked (worked_workFor n place)
  | openGate => exact .opened (gateOpened_openGate n)
  | register c bundle d =>
    exact .aside rfl (sameIntake_register n c bundle d) (passage_register n c bundle d)
  | unregister c => exact of_unbinds rfl (unbinds_unregister n c)
  | listen c =>
    simp only [Move.apply]
    split
    · rename_i listened
      exact of_unbinds rfl (unbinds_listen listened)
    · exact of_unbinds rfl (.refl n)
  | stopListening c =>
    simp only [Move.apply]
    split
    · rename_i stopped
      exact of_unbinds rfl (unbinds_stopListening stopped)
    · exact of_unbinds rfl (.refl n)
  | notify c event => exact of_unbinds rfl (unbinds_notify n c event)
  | close => exact of_unbinds rfl (unbinds_close n)
  | _ => exact .aside rfl ⟨⟨rfl, rfl, rfl, id⟩, rfl, rfl, rfl⟩ fun _ => .kept

theorem Moved.passage {n n' : Node} {m : Move} (h : Moved n m n') (c : UInt16) :
    Passage (n.standing c) (n'.standing c) := by
  cases h with
  | received received => cases received <;> exact .kept
  | entered entered => cases entered <;> exact .kept
  | worked worked => exact worked.passage c
  | opened opened => cases opened <;> exact .kept
  | aside _ _ passage => exact passage c

theorem sameIntake_apply {m : Move} (aside : m.aside = true) (n : Node) :
    SameIntake n (m.apply n) := by
  have moved := n.moved_apply m
  generalize m.apply n = n' at *
  cases moved with
  | aside _ intake _ => exact intake
  | _ => cases aside

end Node

end CportNode
