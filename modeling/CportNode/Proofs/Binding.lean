import CportNode.Proofs.Unbinding

namespace CportNode

structure Standing where
  slot : Option Slot
  registration : Nat

namespace Node

def standing (n : Node) (c : UInt16) : Standing :=
  ⟨n.registry.slot? c, n.registration c⟩

end Node

inductive Passage : Standing → Standing → Prop
  | kept {x : Standing} : Passage x x
  | tornDown {s : Option Slot} {k : Nat} : Passage ⟨s, k⟩ ⟨s.map Slot.tornDown, k⟩
  | updated {s : Option Slot} {k : Nat} (d : Driver) : Passage ⟨s, k⟩ ⟨s.map (Slot.update d), k⟩
  | refused {s : Slot} {k k' : Nat} :
      s.driver = none → k < k' → Passage ⟨some s, k⟩ ⟨some s, k'⟩
  | bound {s : Slot} {k k' : Nat} (d : Driver) :
      s.driver = none → k < k' → Passage ⟨some s, k⟩ ⟨some (s.bind d), k'⟩
  | passing {s : Slot} {k k' : Nat} :
      s.driver = none → k < k' → Passage ⟨some s, k⟩ ⟨some s.tornDown, k'⟩

theorem Passage.remains {x y : Standing} (h : Passage x y) {s : Slot} (hs : x.slot = some s) :
    ∃ s', y.slot = some s' := by
  cases h with
  | kept => exact ⟨s, hs⟩
  | tornDown => exact ⟨s.tornDown, congrArg (Option.map Slot.tornDown) hs⟩
  | updated d => exact ⟨s.update d, congrArg (Option.map (Slot.update d)) hs⟩
  | _ => exact ⟨_, rfl⟩

theorem Passage.row {x y : Standing} (h : Passage x y) :
    y.slot.map (·.row) = x.slot.map (·.row) := by
  cases h with
  | tornDown => rw [Option.map_map]; rfl
  | updated d => rw [Option.map_map]; rfl
  | _ => rfl

def Standing.Engaged (x : Standing) : Prop :=
  ∃ s, x.slot = some s ∧ s.route ≠ .unbound

theorem Passage.engaged {x y : Standing} (h : Passage x y) (engaged : x.Engaged) : y.Engaged := by
  obtain ⟨s, hs, route⟩ := engaged
  cases h with
  | kept => exact ⟨s, hs, route⟩
  | tornDown => exact ⟨s.tornDown, congrArg (Option.map Slot.tornDown) hs, by simp [s.route_tornDown]⟩
  | updated d => exact ⟨s.update d, congrArg (Option.map (Slot.update d)) hs, s.route_update d route⟩
  | refused vacant _ => exact ⟨s, hs, route⟩
  | @bound s' _ _ d vacant _ => exact ⟨s'.bind d, rfl, by simp [s'.route_bind]⟩
  | @passing s' _ _ vacant _ => exact ⟨s'.tornDown, rfl, by simp [s'.route_tornDown]⟩

namespace Node

theorem engaged_iff {n : Node} {c : UInt16} :
    (n.standing c).Engaged ↔ n.registry.route c ≠ .unbound := by
  unfold Standing.Engaged standing Registry.route
  cases n.registry.slot? c <;> simp

theorem Unbinds.passage {n n' : Node} (h : Unbinds n n') (c : UInt16) :
    Passage (n.standing c) (n'.standing c) := by
  rw [standing, standing, h.registration c]
  rcases h.slots c with same | torn
  · rw [same]
    exact .kept
  · rw [torn]
    exact .tornDown

@[simp] theorem registration_init (n : Node) (c : UInt16) :
    (n.called .init c).registration c = n.registration c + 1 :=
  List.count_cons_self

@[simp] theorem registration_init_of_ne (n : Node) {c c' : UInt16} (h : c' ≠ c) :
    (n.called .init c).registration c' = n.registration c' := by
  apply List.count_cons_of_ne
  intro same
  exact h (Call.mk.inj same).2.symm

structure Inits (c : UInt16) (n n' : Node) : Prop extends SameIntake n n' where
  elsewhere : ∀ c', c' ≠ c → n'.standing c' = n.standing c'
  registration : n.registration c < n'.registration c
  slot : n'.registry.slot? c = n.registry.slot? c ∨
    n'.registry.slot? c = (n.registry.slot? c).map (Slot.bind .bare)

theorem inits_called (n : Node) (c : UInt16) : Inits c n (n.called .init c) where
  toSameIntake := sameIntake_called n rfl
  elsewhere c' h := by rw [standing, registration_init_of_ne n h]; rfl
  registration := by rw [registration_init]; exact Nat.lt_succ_self _
  slot := .inl rfl

theorem Inits.outside {c : UInt16} {n n' : Node} (h : Inits c n n') (board : Board)
    (outlet : Option UInt16) : Inits c n { n' with board, outlet } :=
  ⟨h.toSameIntake.trans ⟨⟨rfl, rfl, rfl, id⟩, rfl, rfl, rfl⟩, h.elsewhere, h.registration, h.slot⟩

theorem Inits.adopt {c : UInt16} {n n' : Node} (h : Inits c n n')
    (outcome : Except DriverError Board) : Inits c n (n'.adopt outcome).2 := by
  cases outcome with
  | ok board => exact h.outside board n'.outlet
  | error e => exact h

theorem inits_registerBare (n : Node) (c : UInt16) (bundle : UInt8) :
    Inits c n ((n.called .init c).registerBare c bundle) := by
  unfold registerBare
  split
  · exact inits_called n c
  · have first := inits_called n c
    have second := inits_called (n.called .init c) c
    have same := second.toSameIntake.trans (sameIntake_modifySlot _ c (Slot.bind .bare))
    refine ⟨first.toSameIntake.trans same, fun c' h => ?_, ?_, .inr ?_⟩
    · rw [← first.elsewhere c' h, ← second.elsewhere c' h]
      simp [standing, h]
    · exact Nat.lt_trans first.registration second.registration
    · simp

theorem inits_initDriver (n : Node) (c : UInt16) (d : Driver) : Inits c n (n.initDriver c d).2 := by
  have called := inits_called n c
  cases d with
  | gpio triggers => exact called.adopt _
  | uart =>
    simp only [initDriver]
    have installed := called.adopt ((n.called .init c).board.setRxHandler (some (.forward c)))
    split
    · rename_i n' h
      rw [h] at installed
      exact installed.adopt _
    · exact installed
  | log outlet =>
    cases outlet with
    | true => exact called.outside _ _
    | false => exact called
  | scripted s =>
    simp only [initDriver]
    cases s.initRegisters with
    | none => split <;> exact called
    | some bundle => split <;> exact inits_registerBare n c bundle
  | _ => exact called

theorem Inits.passage {c : UInt16} {n n' : Node} (h : Inits c n n') {s : Slot}
    (hs : n.registry.slot? c = some s) (vacant : s.driver = none) (c' : UInt16) :
    Passage (n.standing c') (n'.standing c') := by
  by_cases same : c' = c
  · subst same
    rw [standing, standing, hs]
    rcases h.slot with kept | bare
    · rw [kept, hs]
      exact .refused vacant h.registration
    · rw [bare, hs]
      exact .bound _ vacant h.registration
  · rw [h.elsewhere c' same]
    exact .kept

theorem Inits.passage_unbinds {c : UInt16} {n n₁ n₂ : Node} (h : Inits c n n₁)
    (h' : Unbinds n₁ n₂) {s : Slot} (hs : n.registry.slot? c = some s) (vacant : s.driver = none)
    (occupied : n₁.registry.driver? c ≠ none) (c' : UInt16) :
    Passage (n.standing c') (n₂.standing c') := by
  by_cases same : c' = c
  · subst same
    rw [standing, standing, h'.registration, hs]
    rcases h.slot with kept | bare
    · rw [Registry.driver?, kept, hs] at occupied
      exact absurd vacant occupied
    · rcases h'.slots c' with still | torn
      · rw [still, bare, hs]
        exact .bound _ vacant h.registration
      · rw [torn, bare, hs]
        exact .passing vacant h.registration
  · rw [← h.elsewhere c' same]
    exact h'.passage c'

theorem passage_bind {c : UInt16} {n n' : Node} (h : Inits c n n') {s : Slot}
    (hs : n.registry.slot? c = some s) (vacant : s.driver = none)
    (unoccupied : n'.registry.driver? c = none) (d : Driver) (c' : UInt16) :
    Passage (n.standing c') ((n'.modifySlot c (.bind d)).standing c') := by
  by_cases same : c' = c
  · subst same
    have kept : n'.registry.slot? c' = some s := by
      rcases h.slot with kept | bare
      · rw [kept, hs]
      · rw [Registry.driver?, bare, hs] at unoccupied
        cases unoccupied
    simpa [standing, hs, kept] using .bound d vacant h.registration
  · rw [← h.elsewhere c' same]
    simpa [standing, same] using .kept

theorem sameIntake_keptByTurnover : KeptByTurnover SameIntake where
  refl := .refl
  trans := .trans
  exit n _ := sameIntake_called n rfl
  outlet n outlet := (unbinds_outside n n.board n.link outlet n.running).toSameIntake
  board n board _ := (unbinds_outside n board n.link n.outlet n.running).toSameIntake
  init n _ := sameIntake_called n rfl
  mute n c := (unbinds_mute n c).toSameIntake
  modifySlot := sameIntake_modifySlot

theorem sameIntake_register (n : Node) (c : UInt16) (bundle : UInt8) (d : Driver) :
    SameIntake n (n.register c bundle d).2 :=
  sameIntake_keptByTurnover.register n c bundle d

theorem passage_register (n : Node) (c : UInt16) (bundle : UInt8) (d : Driver) (c' : UInt16) :
    Passage (n.standing c') ((n.register c bundle d).2.standing c') := by
  have init := inits_initDriver n c d
  unfold register
  split
  · exact .kept
  · rename_i admits
    obtain ⟨s, hs, vacant⟩ := Registry.vacant_of_admits admits
    split
    · rename_i h
      rw [h] at init
      exact init.passage hs vacant c'
    · rename_i n' h
      rw [h] at init
      split
      · rename_i other occupied
        exact init.passage_unbinds (unbinds_keptByExit.exitDriver unbinds_unregister _ _ _) hs vacant
          (by rw [occupied]; exact Option.some_ne_none other) c'
      · rename_i unoccupied
        exact passage_bind init hs vacant unoccupied d c'

theorem listen_ok {n n' : Node} {c : UInt16} (h : n.listen c = .ok n') :
    ∃ link, n' = { n with link } := by
  unfold listen at h
  split at h
  · cases h
  · split at h
    · cases h
      exact ⟨_, rfl⟩
    · cases h

theorem stopListening_ok {n n' : Node} {c : UInt16} (h : n.stopListening c = .ok n') :
    ∃ link, n' = { n with link } := by
  unfold stopListening at h
  split at h
  · cases h
  · split at h
    · cases h
      exact ⟨_, rfl⟩
    · cases h

theorem unbinds_listen {n n' : Node} {c : UInt16} (h : n.listen c = .ok n') : Unbinds n n' := by
  obtain ⟨link, rfl⟩ := listen_ok h
  exact unbinds_outside n n.board link n.outlet n.running

theorem unbinds_stopListening {n n' : Node} {c : UInt16} (h : n.stopListening c = .ok n') :
    Unbinds n n' := by
  obtain ⟨link, rfl⟩ := stopListening_ok h
  exact unbinds_outside n n.board link n.outlet n.running

theorem unbinds_notify (n : Node) (c : UInt16) (event : Event) : Unbinds n (n.notify c event).2 := by
  unfold notify
  split
  · exact .refl n
  · split
    · exact .refl n
    · have called : Unbinds n (n.called event.callback c) := by
        cases event <;> exact unbinds_called n rfl (by simp [Event.callback])
      split <;> exact called

end Node

end CportNode
