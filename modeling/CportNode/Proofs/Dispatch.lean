import CportNode.Proofs.Binding

namespace CportNode.Node

theorem unbinds_connect (n : Node) (target : UInt16) : Unbinds n (n.connect target).2 := by
  unfold connect
  split
  · exact .refl n
  · rename_i n₁ listens
    have listened := unbinds_listen listens
    have notified := unbinds_notify n₁ target .connected
    split
    · rename_i n₂ h
      rw [h] at notified
      exact listened.trans notified
    · rename_i e n₂ h
      rw [h] at notified
      have rejected := listened.trans notified
      simp only
      split
      · rename_i n₃ stopped
        exact rejected.trans (unbinds_stopListening stopped)
      · exact rejected

theorem unbinds_disconnect (n : Node) (target : UInt16) : Unbinds n (n.disconnect target).2 := by
  have notified := unbinds_notify n target .disconnected
  unfold disconnect
  simp only
  split
  · rename_i stopped
    exact notified.trans (unbinds_stopListening stopped)
  · exact notified

theorem unbinds_onBoard {α : Type} (n : Node) (decoded : Except Status α)
    (execute : α → Board → Reaction × Board) : Unbinds n (n.onBoard decoded execute).2 := by
  cases decoded with
  | error status => exact .refl n
  | ok r => exact unbinds_outside n _ n.link n.outlet n.running

theorem passage_update (n : Node) (c : UInt16) (d : Driver) (c' : UInt16) :
    Passage (n.standing c') ((n.modifySlot c (.update d)).standing c') := by
  by_cases same : c' = c
  · subst same
    simpa [standing] using .updated d
  · simpa [standing, same] using .kept

theorem carryOut_effect (n : Node) (c : UInt16) (d : Driver) (kind : UInt8) (body : Bytes) :
    SameIntake n (n.carryOut c d kind body).2 ∧
      ∀ c', Passage (n.standing c') ((n.carryOut c d kind body).2.standing c') := by
  have of_unbinds {n' : Node} (h : Unbinds n n') :
      SameIntake n n' ∧ ∀ c', Passage (n.standing c') (n'.standing c') :=
    ⟨h.toSameIntake, h.passage⟩
  cases d with
  | control =>
    simp only [carryOut]
    split
    · exact of_unbinds (.refl n)
    · exact of_unbinds (unbinds_connect n _)
    · exact of_unbinds (unbinds_disconnect n _)
    · exact of_unbinds (unbinds_onBoard n _ _)
  | gpio triggers =>
    simp only [carryOut, carryOutGpio]
    split
    · exact of_unbinds (.refl n)
    · rename_i r _
      exact ⟨⟨⟨rfl, rfl, rfl, id⟩, rfl, rfl, rfl⟩,
        passage_update { n with board := (r.execute triggers n.board).2 } c _⟩
  | i2c => exact of_unbinds (unbinds_onBoard n _ _)
  | spi => exact of_unbinds (unbinds_onBoard n _ _)
  | uart => exact of_unbinds (unbinds_onBoard n _ _)
  | _ => exact of_unbinds (.refl n)

theorem send_ok {n n' : Node} {p : Packet} (h : n.send p = .ok n') :
    ∃ link, n' = { n with link } := by
  unfold send at h
  split at h
  · cases h
  · split at h
    · cases h
      exact ⟨_, rfl⟩
    · cases h

theorem respond_ok {n n' : Node} {c : UInt16} {request : Message} {status : Status}
    {payload : Bytes} (h : n.respond c request status payload = .ok n') :
    ∃ link, n' = { n with link } := by
  unfold respond at h
  split at h
  · cases h
    exact ⟨n.link, rfl⟩
  · split at h
    · cases h
    · exact send_ok h

theorem answer_ok {n n' : Node} {p : Packet} {reaction : Reaction}
    (h : n.answer p reaction = .ok n') : ∃ link, n' = { n with link } := by
  cases reaction with
  | quiet =>
    cases h
    exact ⟨n.link, rfl⟩
  | refused status =>
    simp only [answer] at h
    exact respond_ok h
  | done payload =>
    simp only [answer] at h
    split at h
    · exact respond_ok h
    · exact respond_ok h

theorem conclude_answer (n : Node) (p : Packet) (reaction : Reaction) :
    (∃ link, n.conclude (n.answer p reaction) = { n with link }) ∨
      n.conclude (n.answer p reaction) =
        n.count fun c => { c with handlerErrors := c.handlerErrors + 1 } := by
  cases answered : n.answer p reaction with
  | ok n' => exact .inl (answer_ok answered)
  | error e => exact .inr rfl

structure Handler (n : Node) (p : Packet) (n' : Node) : Prop where
  bound : ∃ d, n.registry.route p.cport = .driver d
  kind : p.message.kind ≠ Message.pingKind
  intake : SameIntake
    ((n.count fun c => { c with dispatched := c.dispatched + 1 }).called (.handle p.message) p.cport)
    n'
  passage : ∀ c, Passage (n.standing c) (n'.standing c)

inductive Dispatched (n : Node) (p : Packet) : Node → Prop
  | drained : n.registry.route p.cport = .draining →
      Dispatched n p (n.count fun c => { c with drained := c.drained + 1 })
  | dropped : n.registry.route p.cport = .unbound →
      Dispatched n p (n.count fun c => { c with droppedUnbound := c.droppedUnbound + 1 })
  | pinged (d : Driver) (link : Link) : n.registry.route p.cport = .driver d →
      p.message.kind = Message.pingKind →
      Dispatched n p { n.count fun c => { c with pinged := c.pinged + 1 } with link }
  | handled {n' : Node} : Handler n p n' → Dispatched n p n'
  | failed {n' : Node} : Handler n p n' →
      Dispatched n p (n'.count fun c => { c with handlerErrors := c.handlerErrors + 1 })
  | holding {n' : Node} : Handler n p n' → Dispatched n p { n' with held := some p }

theorem Dispatched.passage {n n' : Node} {p : Packet} (h : Dispatched n p n') (c : UInt16) :
    Passage (n.standing c) (n'.standing c) := by
  cases h with
  | handled h => exact h.passage c
  | failed h => exact h.passage c
  | holding h => exact h.passage c
  | _ => exact .kept

theorem Handler.sameQueue {n n' : Node} {p : Packet} (h : Handler n p n') : SameQueue n n' :=
  ⟨h.intake.config, h.intake.queue, h.intake.waiting, h.intake.closed⟩

theorem Dispatched.sameQueue {n n' : Node} {p : Packet} (h : Dispatched n p n') :
    SameQueue n n' := by
  cases h with
  | handled h => exact h.sameQueue
  | failed h => exact h.sameQueue.trans ⟨rfl, rfl, rfl, id⟩
  | holding h => exact h.sameQueue.trans ⟨rfl, rfl, rfl, id⟩
  | _ => exact ⟨rfl, rfl, rfl, id⟩

def hands (n : Node) (p : Packet) : Bool :=
  match n.registry.route p.cport with
  | .driver _ => p.message.kind != Message.pingKind
  | _ => false

theorem Handler.hands {n n' : Node} {p : Packet} (h : Handler n p n') : n.hands p = true := by
  obtain ⟨d, route⟩ := h.bound
  rw [Node.hands, route]
  exact bne_iff_ne.mpr h.kind

theorem Handler.handed {n n' : Node} {p : Packet} (h : Handler n p n') :
    n'.handed = n.handed ++ if n.hands p then [p] else [] := by
  rw [h.intake.handed, handed_called, h.hands]
  rfl

theorem Dispatched.handed {n n' : Node} {p : Packet} (h : Dispatched n p n') :
    n'.handed = n.handed ++ if n.hands p then [p] else [] := by
  cases h with
  | drained route => simp [hands, route, Node.handed, count]
  | dropped route => simp [hands, route, Node.handed, count]
  | pinged d link route ping => simp [hands, route, ping, Node.handed, count]
  | handled h => exact h.handed
  | failed h => exact h.handed
  | holding h => exact h.handed

theorem Handler.then {n n₁ n₂ : Node} {p : Packet} (h : Handler n p n₁) (h' : Unbinds n₁ n₂)
    (first : ∀ c, n₁.standing c = n.standing c) : Handler n p n₂ where
  bound := h.bound
  kind := h.kind
  intake := h.intake.trans h'.toSameIntake
  passage c := by
    rw [← first c]
    exact h'.passage c

theorem Handler.answered {n n' : Node} {p : Packet} (h : Handler n p n') (link : Link) :
    Handler n p { n' with link } :=
  ⟨h.bound, h.kind, h.intake.trans ⟨⟨rfl, rfl, rfl, id⟩, rfl, rfl, rfl⟩, h.passage⟩

theorem Handler.conclude {n n' : Node} {p : Packet} (h : Handler n p n') (reaction : Reaction) :
    Dispatched n p (n'.conclude (n'.answer p reaction)) := by
  rcases n'.conclude_answer p reaction with ⟨link, answered⟩ | failed
  · rw [answered]
    exact .handled (h.answered link)
  · rw [failed]
    exact .failed h

theorem dispatched_handleScripted {n n₁ : Node} {p : Packet} (h : Handler n p n₁)
    (first : ∀ c, n₁.standing c = n.standing c) (s : Script) :
    Dispatched n p (n₁.handleScripted s p) := by
  unfold handleScripted
  split
  · exact .failed h
  · have answered {n₂ : Node} (unbound : Unbinds n₁ n₂) (reaction : Reaction) :
        Dispatched n p ((if s.handleShutsDown then n₂.shutDownWithin else n₂).conclude
          ((if s.handleShutsDown then n₂.shutDownWithin else n₂).answer p reaction)) := by
      split
      · exact (h.then (unbound.trans (unbinds_shutDownWithin n₂)) first).conclude reaction
      · exact (h.then unbound first).conclude reaction
    cases s.handleUnregisters with
    | none => exact answered (.refl n₁) _
    | some c => exact answered (unbinds_unregister n₁ c) _

theorem dispatched_handle {n n₁ : Node} {p : Packet} (h : Handler n p n₁)
    (first : ∀ c, n₁.standing c = n.standing c) (d : Driver) :
    Dispatched n p (n₁.handle d p) := by
  have carried (d : Driver) :
      Handler n p (n₁.carryOut p.cport d p.message.kind p.message.payload).2 := by
    obtain ⟨intake, passage⟩ := carryOut_effect n₁ p.cport d p.message.kind p.message.payload
    refine ⟨h.bound, h.kind, h.intake.trans intake, fun c => ?_⟩
    rw [← first c]
    exact passage c
  cases d with
  | gate =>
    simp only [handle, handleGate]
    split
    · exact h.conclude _
    · exact .holding h
  | scripted s => exact dispatched_handleScripted h first s
  | _ =>
    simp only [handle]
    exact (carried _).conclude _

theorem dispatched_dispatch (n : Node) (p : Packet) : Dispatched n p (n.dispatch p) := by
  unfold dispatch
  split
  · rename_i route
    exact .drained route
  · rename_i route
    exact .dropped route
  · rename_i d route
    split
    · rename_i ping
      simp only
      split
      · rename_i n' answered
        obtain ⟨link, rfl⟩ := answer_ok answered
        exact .pinged d link route ping
      · exact .pinged d n.link route ping
    · rename_i kind
      have standing (c : UInt16) : ((n.count fun c => { c with
          dispatched := c.dispatched + 1 }).called (.handle p.message) p.cport).standing c =
          n.standing c := by
        rw [Node.standing, registration_called _ _ _ (by simp)]
        rfl
      refine dispatched_handle ⟨⟨d, route⟩, kind, .refl _, fun c => ?_⟩ standing d
      rw [standing c]
      exact .kept

end CportNode.Node
