import CportNode.Proofs.Turnover

namespace CportNode

def Call.handed? : Call → Option Packet
  | ⟨.handle request, cport⟩ => some ⟨cport, request⟩
  | _ => none

namespace Node

/-- The requests that were handed to drivers, the oldest first. -/
def handed (n : Node) : List Packet :=
  n.calls.reverse.filterMap Call.handed?

/-- How often a driver has been initialised on a cport.  As none is while the cport is bound, this
tells the registrations of a cport apart. -/
def registration (n : Node) (c : UInt16) : Nat :=
  n.calls.count ⟨.init, c⟩

structure SameQueue (n n' : Node) : Prop where
  config : n'.config = n.config
  queue : n'.queue = n.queue
  waiting : n'.waiting = n.waiting
  closed : n.accepting = false → n'.accepting = false

structure SameIntake (n n' : Node) : Prop extends SameQueue n n' where
  held : n'.held = n.held
  counters : n'.counters = n.counters
  handed : n'.handed = n.handed

theorem SameQueue.refl (n : Node) : SameQueue n n := ⟨rfl, rfl, rfl, id⟩

theorem SameQueue.trans {n₁ n₂ n₃ : Node} (h : SameQueue n₁ n₂) (h' : SameQueue n₂ n₃) :
    SameQueue n₁ n₃ where
  config := h'.config.trans h.config
  queue := h'.queue.trans h.queue
  waiting := h'.waiting.trans h.waiting
  closed := h'.closed ∘ h.closed

theorem SameIntake.refl (n : Node) : SameIntake n n := ⟨.refl n, rfl, rfl, rfl⟩

theorem SameIntake.trans {n₁ n₂ n₃ : Node} (h : SameIntake n₁ n₂) (h' : SameIntake n₂ n₃) :
    SameIntake n₁ n₃ where
  toSameQueue := h.toSameQueue.trans h'.toSameQueue
  held := h'.held.trans h.held
  counters := h'.counters.trans h.counters
  handed := h'.handed.trans h.handed

theorem sameIntake_modifySlot (n : Node) (c : UInt16) (change : Slot → Slot) :
    SameIntake n (n.modifySlot c change) := ⟨⟨rfl, rfl, rfl, id⟩, rfl, rfl, rfl⟩

@[simp] theorem handed_called (n : Node) (callback : Callback) (c : UInt16) :
    (n.called callback c).handed = n.handed ++ (Call.handed? ⟨callback, c⟩).toList := by
  cases callback <;> simp [handed, called, Call.handed?, List.filterMap_append]

theorem sameIntake_called (n : Node) {callback : Callback} {c : UInt16}
    (h : Call.handed? ⟨callback, c⟩ = none) : SameIntake n (n.called callback c) where
  config := rfl
  queue := rfl
  waiting := rfl
  closed := id
  held := rfl
  counters := rfl
  handed := by simp [h]

@[simp] theorem registration_modifySlot (n : Node) (c : UInt16) (change : Slot → Slot)
    (c' : UInt16) : (n.modifySlot c change).registration c' = n.registration c' := rfl

@[simp] theorem registration_called (n : Node) {callback : Callback} (c c' : UInt16)
    (h : callback ≠ .init) : (n.called callback c).registration c' = n.registration c' := by
  apply List.count_cons_of_ne
  intro same
  exact h (Call.mk.inj same).1

/-- A driver may have been unbound from any cport, and that is all that happened to the cports. -/
structure Unbinds (n n' : Node) : Prop extends SameIntake n n' where
  slots : ∀ c, n'.registry.slot? c = n.registry.slot? c ∨
    n'.registry.slot? c = (n.registry.slot? c).map Slot.tornDown
  registration : ∀ c, n'.registration c = n.registration c

theorem Unbinds.of_registry {n n' : Node} (h : SameIntake n n') (registry : n'.registry = n.registry)
    (registration : ∀ c, n'.registration c = n.registration c) : Unbinds n n' :=
  ⟨h, fun _ => .inl (by rw [registry]), registration⟩

theorem Unbinds.refl (n : Node) : Unbinds n n :=
  .of_registry (.refl n) rfl fun _ => rfl

theorem Unbinds.trans {n₁ n₂ n₃ : Node} (h : Unbinds n₁ n₂) (h' : Unbinds n₂ n₃) :
    Unbinds n₁ n₃ where
  toSameIntake := h.toSameIntake.trans h'.toSameIntake
  slots c := by
    rcases h.slots c with same | torn <;> rcases h'.slots c with same' | torn'
    · exact .inl (same'.trans same)
    · exact .inr (by rw [torn', same])
    · exact .inr (same'.trans torn)
    · refine .inr ?_
      rw [torn', torn, Option.map_map]
      rfl
  registration c := (h'.registration c).trans (h.registration c)

theorem unbinds_outside (n : Node) (board : Board) (link : Link) (outlet : Option UInt16)
    (running : Bool) : Unbinds n { n with board, link, outlet, running } :=
  .of_registry ⟨⟨rfl, rfl, rfl, id⟩, rfl, rfl, rfl⟩ rfl fun _ => rfl

theorem unbinds_close (n : Node) : Unbinds n { n with accepting := false } :=
  .of_registry ⟨⟨rfl, rfl, rfl, fun _ => rfl⟩, rfl, rfl, rfl⟩ rfl fun _ => rfl

theorem unbinds_called (n : Node) {callback : Callback} {c : UInt16}
    (h : Call.handed? ⟨callback, c⟩ = none) (h' : callback ≠ .init) :
    Unbinds n (n.called callback c) :=
  .of_registry (sameIntake_called n h) rfl fun c' => registration_called n c c' h'

theorem unbinds_mute (n : Node) (c : UInt16) : Unbinds n (n.mute c) := by
  unfold mute
  split
  · exact unbinds_outside n n.board _ n.outlet n.running
  · exact .refl n

theorem unbinds_keptByExit : KeptByExit Unbinds where
  refl := .refl
  trans := .trans
  exit n c := unbinds_called n rfl (by simp)
  outlet n outlet := unbinds_outside n n.board n.link outlet n.running
  board n board _ := unbinds_outside n board n.link n.outlet n.running

theorem unbinds_teardown {n n' : Node} {c : UInt16}
    (h : Unbinds (n.modifySlot c .beginTeardown) n') : Unbinds n (n'.modifySlot c .unbind) where
  toSameIntake := (sameIntake_modifySlot n c _).trans
    (h.toSameIntake.trans (sameIntake_modifySlot n' c _))
  slots c' := by
    by_cases same : c' = c
    · subst same
      refine .inr ?_
      rcases h.slots c' with kept | torn
      · simp [kept, Function.comp_def]
      · simp [torn, Function.comp_def]
    · simpa [same] using h.slots c'
  registration c' := h.registration c'

theorem unbinds_unregister (n : Node) (c : UInt16) : Unbinds n (n.unregister c).2 :=
  unbinds_keptByExit.unregister (fun left => (unbinds_mute _ _).trans (unbinds_teardown left)) n c

theorem Unbinds.driver? {n n' : Node} (h : Unbinds n n') {c : UInt16}
    (vacant : n.registry.driver? c = none) : n'.registry.driver? c = none := by
  rcases h.slots c with same | torn
  · rwa [Registry.driver?, same]
  · rw [Registry.driver?, torn]
    cases n.registry.slot? c <;> rfl

@[simp] theorem driver?_unregister (n : Node) (c : UInt16) :
    (n.unregister c).2.registry.driver? c = none := by
  cases bound : n.registry.requireBound c with
  | error e =>
    rw [unregister_of_unbound bound]
    exact Registry.driver?_of_requireBound_error bound
  | ok d =>
    rw [unregister_of_bound bound]
    simp

theorem unbinds_foldl (cports : List UInt16) (n : Node) :
    Unbinds n (cports.foldl (fun n c => (n.unregister c).2) n) :=
  unbinds_keptByExit.foldl unbinds_unregister cports n

theorem driver?_foldl {cports : List UInt16} {c : UInt16} (h : c ∈ cports) (n : Node) :
    (cports.foldl (fun n c => (n.unregister c).2) n).registry.driver? c = none := by
  induction cports generalizing n with
  | nil => cases h
  | cons first cports ih =>
    rcases List.mem_cons.mp h with rfl | later
    · exact (unbinds_foldl cports _).driver? (driver?_unregister n c)
    · exact ih later _

theorem unbinds_unregisterAll (n : Node) : Unbinds n n.unregisterAll :=
  unbinds_foldl _ n

@[simp] theorem driver?_unregisterAll (n : Node) (c : UInt16) :
    n.unregisterAll.registry.driver? c = none := by
  cases h : n.registry.driver? c with
  | none => exact (unbinds_unregisterAll n).driver? h
  | some d => exact driver?_foldl (Registry.mem_boundCports h) n

theorem unbinds_halt (n : Node) : Unbinds n n.halt :=
  (unbinds_outside n n.board n.link n.outlet false).trans
    ((unbinds_unregisterAll _).trans (unbinds_close _))

@[simp] theorem driver?_halt (n : Node) (c : UInt16) : n.halt.registry.driver? c = none :=
  driver?_unregisterAll { n with running := false } c

theorem unbinds_shutDownWithin (n : Node) : Unbinds n n.shutDownWithin := by
  unfold shutDownWithin
  split
  · exact (unbinds_halt n).trans (unbinds_outside _ _ _ _ _)
  · exact .refl n

end Node

end CportNode
