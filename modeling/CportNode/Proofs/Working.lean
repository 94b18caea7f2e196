import CportNode.Proofs.Connecting

namespace CportNode

def Move.outer : Move → Bool
  | stop => true
  | close => true
  | outside _ _ _ => true
  | _ => false

namespace Node

variable {R : Node → Node → Prop}

structure KeptByMoves (R : Node → Node → Prop) : Prop extends KeptByTurnover R where
  called (n : Node) (callback : Callback) (c : UInt16) : R n (n.called callback c)
  queues (n : Node) (queue waiting : List Packet) (held : Option Packet) (gateOpen : Bool)
    (counters : Counters) : R n { n with queue, waiting, held, gateOpen, counters }
  listen {n n' : Node} {c : UInt16} : n.listen c = .ok n' → R n n'
  stopListening {n n' : Node} {c : UInt16} : n.stopListening c = .ok n' → R n n'
  carryOut (n : Node) (c : UInt16) (d : Driver) (kind : UInt8) (body : Bytes) :
    R n (n.carryOut c d kind body).2
  answer {n n' : Node} {p : Packet} {reaction : Reaction} : n.answer p reaction = .ok n' → R n n'
  shutDownWithin (n : Node) : R n n.shutDownWithin

theorem KeptByTurnover.keptByMoves (kept : KeptByTurnover R)
    (same : ∀ {n n' : Node}, n'.registry = n.registry → n'.ids = n.ids → R n n') :
    KeptByMoves R where
  toKeptByTurnover := kept
  called _ _ _ := same rfl rfl
  queues _ _ _ _ _ _ := same rfl rfl
  listen listened := by
    obtain ⟨link, rfl⟩ := listen_ok listened
    exact same rfl rfl
  stopListening stopped := by
    obtain ⟨link, rfl⟩ := stopListening_ok stopped
    exact same rfl rfl
  carryOut n c d kind body := by
    obtain ⟨registry, board, link, calls, carried, restates⟩ := n.carryOut_eq c d kind body
    rw [carried]
    cases restates with
    | kept => exact same rfl rfl
    | gpio triggers triggers' =>
      exact kept.trans (kept.modifySlot n c (.update (.gpio triggers'))) (same rfl rfl)
  answer answered := by
    obtain ⟨link, rfl⟩ := answer_ok answered
    exact same rfl rfl
  shutDownWithin n := by
    unfold Node.shutDownWithin
    split
    · have down : R n { n with running := false } := same rfl rfl
      have unbound := kept.foldl kept.unregister n.registry.boundCports { n with running := false }
      exact kept.trans (kept.trans down unbound) (same rfl rfl)
    · exact kept.refl n

namespace KeptByMoves

theorem count (kept : KeptByMoves R) (n : Node) (change : Counters → Counters) :
    R n (n.count change) :=
  kept.queues n n.queue n.waiting n.held n.gateOpen (change n.counters)

theorem conclude (kept : KeptByMoves R) (n : Node) (p : Packet) (reaction : Reaction) :
    R n (n.conclude (n.answer p reaction)) := by
  cases answered : n.answer p reaction with
  | ok n' => exact kept.answer answered
  | error e => exact kept.count n fun c => { c with handlerErrors := c.handlerErrors + 1 }

theorem handleScripted (kept : KeptByMoves R) (n : Node) (s : Script) (p : Packet) :
    R n (n.handleScripted s p) := by
  unfold Node.handleScripted
  split
  · exact kept.count n fun c => { c with handlerErrors := c.handlerErrors + 1 }
  · have down (n' : Node) : R n' (if s.handleShutsDown then n'.shutDownWithin else n') := by
      split
      · exact kept.shutDownWithin n'
      · exact kept.refl n'
    cases s.handleUnregisters with
    | none => exact kept.trans (down n) (kept.conclude _ p _)
    | some c =>
      exact kept.trans (kept.trans (kept.unregister n c) (down _)) (kept.conclude _ p _)

theorem handle (kept : KeptByMoves R) (n : Node) (d : Driver) (p : Packet) :
    R n (n.handle d p) := by
  cases d with
  | gate =>
    simp only [Node.handle, handleGate]
    split
    · exact kept.conclude n p _
    · exact kept.queues n n.queue n.waiting (some p) n.gateOpen n.counters
  | scripted s => exact kept.handleScripted n s p
  | _ =>
    simp only [Node.handle]
    exact kept.trans (kept.carryOut n p.cport _ p.message.kind p.message.payload)
      (kept.conclude _ p _)

theorem dispatch (kept : KeptByMoves R) (n : Node) (p : Packet) : R n (n.dispatch p) := by
  unfold Node.dispatch
  split
  · exact kept.count n _
  · exact kept.count n _
  · split
    · have pinged := kept.count n fun c => { c with pinged := c.pinged + 1 }
      simp only
      split
      · rename_i answered
        exact kept.trans pinged (kept.answer answered)
      · exact pinged
    · have dispatched := kept.count n fun c => { c with dispatched := c.dispatched + 1 }
      exact kept.trans (kept.trans dispatched (kept.called _ _ _)) (kept.handle _ _ p)

theorem workFor (kept : KeptByMoves R) (n : Node) (place : Option Nat) :
    R n (n.workFor place) := by
  unfold Node.workFor
  cases taken : n.take with
  | none => exact kept.refl n
  | some taken' =>
    obtain ⟨p, n'⟩ := taken'
    obtain ⟨queue, waiting, counters, entered⟩ := n'.elim_letIn_eq place
    have before : R n (place.elim n' n'.letIn) := by
      rw [entered, (take_some taken).2.2]
      exact kept.queues n queue waiting n.held n.gateOpen counters
    exact kept.trans before (kept.dispatch _ p)

theorem openGate (kept : KeptByMoves R) (n : Node) : R n n.openGate := by
  unfold Node.openGate
  simp only
  split
  · exact kept.queues n n.queue n.waiting n.held true n.counters
  · rename_i p _
    have opened := kept.queues n n.queue n.waiting none true n.counters
    exact kept.trans opened (kept.conclude _ p _)

theorem receive (kept : KeptByMoves R) (n : Node) (p : Packet) : R n (n.receive p).2 := by
  have received := n.received_receive p
  generalize n.receive p = outcome at *
  cases received with
  | dropped _ _ => exact kept.count n fun c => { c with droppedUnbound := c.droppedUnbound + 1 }
  | accepted d _ _ _ => exact kept.queues n _ n.waiting n.held n.gateOpen _
  | waiting d _ _ _ => exact kept.queues n n.queue _ n.held n.gateOpen n.counters
  | _ => exact kept.refl n

theorem notify (kept : KeptByMoves R) (n : Node) (c : UInt16) (event : Event) :
    R n (n.notify c event).2 := by
  unfold Node.notify
  split
  · exact kept.refl n
  · split
    · exact kept.refl n
    · simp only
      split <;> exact kept.called n _ c

theorem apply (kept : KeptByMoves R) (n : Node) {m : Move}
    (outer : m.outer = true → R n (m.apply n)) : R n (m.apply n) := by
  cases m with
  | receive p => exact kept.receive n p
  | letIn place =>
    obtain ⟨queue, waiting, counters, same⟩ := n.letIn_eq place
    rw [Move.apply, same]
    exact kept.queues n queue waiting n.held n.gateOpen counters
  | work place => exact kept.workFor n place
  | register c bundle d => exact kept.register n c bundle d
  | unregister c => exact kept.unregister n c
  | listen c =>
    simp only [Move.apply]
    split
    · rename_i listened
      exact kept.listen listened
    · exact kept.refl n
  | stopListening c =>
    simp only [Move.apply]
    split
    · rename_i stopped
      exact kept.stopListening stopped
    · exact kept.refl n
  | notify c event => exact kept.notify n c event
  | openGate => exact kept.openGate n
  | closeGate => exact kept.queues n n.queue n.waiting n.held false n.counters
  | stop => exact outer rfl
  | close => exact outer rfl
  | outside _ _ _ => exact outer rfl

end KeptByMoves

end Node

end CportNode
