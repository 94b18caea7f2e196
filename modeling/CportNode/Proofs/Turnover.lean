import CportNode.Node.Dispatch
import CportNode.Proofs.Registry

/-!
Drivers come and go in small steps: a callback, a change to the board, to what is listened on or to a
slot.  A relation between the node before and after that each of these keeps to, and that holds from
end to end if it holds over each part, is kept to when drivers are registered and unregistered.
-/

namespace CportNode

namespace Board

theorem guarded_of_free {b : Board} {capability : Capability} {α : Type}
    (free : b.obstacle? capability = none) (call : Except DriverError α) :
    b.guarded capability call = call := by
  rw [guarded, free]

theorem guarded_of_obstacle {b : Board} {capability : Capability} {e : DriverError} {α : Type}
    (obstacle : b.obstacle? capability = some e) (call : Except DriverError α) :
    b.guarded capability call = .error e := by
  rw [guarded, obstacle]

theorem ok_of_guarded {b : Board} {capability : Capability} {α : Type}
    {call : Except DriverError α} {a : α} (h : b.guarded capability call = .ok a) :
    call = .ok a := by
  unfold guarded at h
  split at h
  · cases h
  · exact h

/-- It was changed who is told of what the board has to report, and whether bytes are received.  The
serial line tells nobody new but a driver of one of the cports. -/
structure Rearranged (cports : Nat) (b b' : Board) : Prop where
  rest : ∃ irq rx receiving, b' =
    { b with
      gpio := { b.gpio with handler := irq }
      uart := { b.uart with handler := rx, receiving } }
  rx : ∀ h, b'.uart.handler = some h →
    b.uart.handler = some h ∨ ∃ c, h = .forward c ∧ c.toNat < cports

section Rearranged

variable (cports : Nat) (b : Board)

theorem rearranged_irq (handler : Option Gpio.Handler) :
    Rearranged cports b { b with gpio := { b.gpio with handler } } :=
  ⟨⟨handler, b.uart.handler, b.uart.receiving, rfl⟩, fun _ => .inl⟩

theorem rearranged_receiving (receiving : Bool) :
    Rearranged cports b { b with uart := { b.uart with receiving } } :=
  ⟨⟨b.gpio.handler, b.uart.handler, receiving, rfl⟩, fun _ => .inl⟩

theorem rearranged_vacated :
    Rearranged cports b { b with uart := { b.uart with handler := none } } :=
  ⟨⟨b.gpio.handler, none, b.uart.receiving, rfl⟩, fun _ impossible => by cases impossible⟩

theorem rearranged_rx {c : UInt16} (inRange : c.toNat < cports) :
    Rearranged cports b { b with uart := { b.uart with handler := some (.forward c) } } :=
  ⟨⟨b.gpio.handler, some (.forward c), b.uart.receiving, rfl⟩,
    fun _ same => .inr ⟨c, (Option.some.inj same).symm, inRange⟩⟩

end Rearranged

end Board

namespace Node

variable {R : Node → Node → Prop}

structure KeptByExit (R : Node → Node → Prop) : Prop where
  refl (n : Node) : R n n
  trans {n₁ n₂ n₃ : Node} : R n₁ n₂ → R n₂ n₃ → R n₁ n₃
  exit (n : Node) (c : UInt16) : R n (n.called .exit c)
  outlet (n : Node) (outlet : Option UInt16) : R n { n with outlet }
  board (n : Node) {board : Board} : n.board.Rearranged n.registry.size board →
    R n { n with board }

structure KeptByTurnover (R : Node → Node → Prop) : Prop extends KeptByExit R where
  init (n : Node) (c : UInt16) : R n (n.called .init c)
  mute (n : Node) (c : UInt16) : R n (n.mute c)
  modifySlot (n : Node) (c : UInt16) (change : Slot → Slot) : R n (n.modifySlot c change)

theorem KeptByExit.guarded (kept : KeptByExit R) (n : Node) (capability : Capability)
    {board : Board} (h : n.board.Rearranged n.registry.size board) :
    R n (n.adopt (n.board.guarded capability (.ok board))).2 := by
  cases called : n.board.guarded capability (.ok board) with
  | error e => exact kept.refl n
  | ok b =>
    cases Board.ok_of_guarded called
    exact kept.board n h

theorem KeptByExit.exitDriver (kept : KeptByExit R) {unregister : Node → UInt16 → Node}
    (h : ∀ n c, R n (unregister n c)) (n : Node) (c : UInt16) (d : Driver) :
    R n (Node.exitDriver unregister n c d) := by
  apply kept.trans (kept.exit n c)
  cases d with
  | gpio triggers => exact kept.guarded _ _ (Board.rearranged_irq _ _ none)
  | uart =>
    exact kept.trans (kept.guarded _ _ (Board.rearranged_receiving _ _ false))
      (kept.guarded _ _ (Board.rearranged_vacated _ _))
  | log outlet =>
    cases outlet with
    | true => exact kept.outlet _ none
    | false => exact kept.refl _
  | scripted s =>
    simp only [Node.exitDriver]
    split
    · exact h _ _
    · exact kept.refl _
  | _ => exact kept.refl _

theorem KeptByExit.foldl (kept : KeptByExit R) (h : ∀ n c, R n (unregister n c).2)
    (cports : List UInt16) (n : Node) :
    R n (cports.foldl (fun n c => (n.unregister c).2) n) := by
  induction cports generalizing n with
  | nil => exact kept.refl n
  | cons c cports ih => exact kept.trans (h n c) (ih _)

theorem unregister_of_unbound {n : Node} {c : UInt16} {e : NodeError}
    (unbound : n.registry.requireBound c = .error e) : n.unregister c = (.error e, n) := by
  simp [Node.unregister, unregisterWithin, unbound]

theorem unregister_of_bound {n : Node} {c : UInt16} {d : Driver}
    (bound : n.registry.requireBound c = .ok d) :
    n.unregister c = (.ok (),
      (Node.exitDriver (fun n' c => (n'.unregisterWithin n.registry.size c).2)
        ((n.mute c).modifySlot c .beginTeardown) c d).modifySlot c .unbind) := by
  simp [Node.unregister, unregisterWithin, bound]

theorem KeptByExit.unregister (kept : KeptByExit R)
    (teardown : ∀ {n n' : Node} {c : UInt16},
      R ((n.mute c).modifySlot c .beginTeardown) n' → R n (n'.modifySlot c .unbind))
    (n : Node) (c : UInt16) : R n (n.unregister c).2 := by
  rw [Node.unregister]
  generalize n.registry.size + 1 = depth
  -- An exiting driver unbinds others one level down, where the induction hypothesis speaks of them.
  induction depth generalizing n c with
  | zero => exact kept.refl n
  | succ depth ih =>
    unfold Node.unregisterWithin
    split
    · exact kept.refl n
    · exact teardown (kept.exitDriver ih _ _ _)

theorem KeptByTurnover.unregister (kept : KeptByTurnover R) (n : Node) (c : UInt16) :
    R n (n.unregister c).2 := by
  refine kept.toKeptByExit.unregister (fun {n n' c} left => ?_) n c
  apply kept.trans (kept.mute n c)
  apply kept.trans (kept.modifySlot _ c .beginTeardown)
  exact kept.trans left (kept.modifySlot n' c .unbind)

theorem KeptByTurnover.registerBare (kept : KeptByTurnover R) (n : Node) (c : UInt16)
    (bundle : UInt8) : R n (n.registerBare c bundle) := by
  unfold Node.registerBare
  split
  · exact kept.refl n
  · exact kept.trans (kept.init n c) (kept.modifySlot _ c _)

theorem KeptByTurnover.initDriver (kept : KeptByTurnover R) {n : Node} {c : UInt16}
    (inRange : c.toNat < n.registry.size) (d : Driver) : R n (n.initDriver c d).2 := by
  apply kept.trans (kept.init n c)
  cases d with
  | gpio triggers => exact kept.guarded _ _ (Board.rearranged_irq _ _ _)
  | uart =>
    have installed := kept.guarded (n.called .init c) .uartSetRxHandler
      (Board.rearranged_rx _ _ inRange)
    simp only [Node.initDriver, Board.setRxHandler]
    split
    · rename_i n' set
      rw [set] at installed
      exact kept.trans installed (kept.guarded n' _ (Board.rearranged_receiving _ _ true))
    · exact installed
  | log outlet =>
    cases outlet with
    | true => exact kept.outlet _ _
    | false => exact kept.refl _
  | scripted s =>
    simp only [Node.initDriver]
    cases s.initRegisters with
    | none => cases s.initFault <;> exact kept.refl _
    | some bundle => cases s.initFault <;> exact kept.registerBare _ c bundle
  | _ => exact kept.refl _

theorem KeptByExit.register (kept : KeptByExit R) (unregister : ∀ n c, R n (n.unregister c).2)
    {n : Node} {c : UInt16} {d : Driver}
    (init : ∀ s, n.registry.slot? c = some s → R n (n.initDriver c d).2)
    (bind : ∀ n', R n' (n'.modifySlot c (.bind d))) (bundle : UInt8) :
    R n (n.register c bundle d).2 := by
  unfold Node.register
  split
  · exact kept.refl n
  · rename_i admitted
    obtain ⟨s, hs, -⟩ := Registry.vacant_of_admits admitted
    have initialised := init s hs
    split
    · rename_i failed
      rw [failed] at initialised
      exact initialised
    · rename_i n' succeeded
      rw [succeeded] at initialised
      split
      · exact kept.trans initialised (kept.exitDriver unregister n' c d)
      · exact kept.trans initialised (bind n')

theorem KeptByTurnover.register (kept : KeptByTurnover R) (n : Node) (c : UInt16) (bundle : UInt8)
    (d : Driver) : R n (n.register c bundle d).2 :=
  kept.toKeptByExit.register kept.unregister
    (fun _ hs => kept.initDriver (Registry.toNat_lt_size hs) d) (fun n' => kept.modifySlot n' c _)
    bundle

end Node

end CportNode
