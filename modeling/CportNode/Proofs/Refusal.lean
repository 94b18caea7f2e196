import CportNode.Proofs.Moves

namespace CportNode

namespace Board

def forwarding (b : Board) (c : UInt16) : Board :=
  { b with uart := { b.uart with handler := some (.forward c) } }

@[simp] theorem forwarding_eq_self_iff {b : Board} {c : UInt16} :
    b.forwarding c = b ↔ b.uart.handler = some (.forward c) := by
  constructor
  · intro same
    rw [← same]
    rfl
  · intro installed
    rw [forwarding, ← installed]

end Board

namespace Node

@[simp] theorem registry_adopt (n : Node) (outcome : Except DriverError Board) :
    (n.adopt outcome).2.registry = n.registry := by
  cases outcome <;> rfl

@[simp] theorem link_adopt (n : Node) (outcome : Except DriverError Board) :
    (n.adopt outcome).2.link = n.link := by
  cases outcome <;> rfl

theorem registry_initDriver (n : Node) (c : UInt16) {d : Driver} (builtIn : d.builtIn = true) :
    (n.initDriver c d).2.registry = n.registry := by
  cases d with
  | gpio triggers => exact registry_adopt _ _
  | uart =>
    simp only [initDriver]
    have installed := registry_adopt (n.called .init c)
      ((n.called .init c).board.setRxHandler (some (.forward c)))
    split
    · rename_i n' h
      rw [h] at installed
      exact (registry_adopt _ _).trans installed
    · exact installed
  | log outlet => cases outlet <;> rfl
  | bare => cases builtIn
  | gate => cases builtIn
  | scripted s => cases builtIn
  | _ => rfl

/-- How the init of a driver that comes with the node can fail: at its first call on the board, or
at the second one that the driver of the serial line makes. -/
inductive InitFailed (n : Node) (c : UInt16) : Driver → Node → Prop
  | atOnce {d : Driver} : ¬ (d = .uart ∧ n.board.obstacle? .uartSetRxHandler = none) →
      InitFailed n c d (n.called .init c)
  | halfway : n.board.obstacle? .uartSetRxHandler = none →
      InitFailed n c .uart { n.called .init c with board := n.board.forwarding c }

theorem initFailed_initDriver {n n' : Node} {c : UInt16} {d : Driver} {e : DriverError}
    (builtIn : d.builtIn = true) (failed : n.initDriver c d = (.error e, n')) :
    InitFailed n c d n' := by
  cases d with
  | gpio triggers =>
    simp only [initDriver] at failed
    cases h : n.board.obstacle? .gpioSetIrqHandler with
    | none =>
      have installed : (n.called .init c).board.setIrqHandler (some (.report c)) = .ok _ :=
        Board.guarded_of_free h _
      rw [installed] at failed
      cases failed
    | some cause =>
      have refused : (n.called .init c).board.setIrqHandler (some (.report c)) = .error cause :=
        Board.guarded_of_obstacle h _
      rw [refused] at failed
      cases failed
      exact .atOnce (by simp)
  | uart =>
    simp only [initDriver] at failed
    cases h : n.board.obstacle? .uartSetRxHandler with
    | some cause =>
      have refused : (n.called .init c).board.setRxHandler (some (.forward c)) = .error cause :=
        Board.guarded_of_obstacle h _
      rw [refused] at failed
      cases failed
      exact .atOnce (by simp [h])
    | none =>
      -- The handler is on the line before reception is enabled, and nothing takes it back.
      have installed : (n.called .init c).board.setRxHandler (some (.forward c)) =
          .ok (n.board.forwarding c) := Board.guarded_of_free h _
      simp only [installed, adopt] at failed
      cases h' : n.board.obstacle? .uartEnableRx with
      | none =>
        have enabled : (n.board.forwarding c).enableRx = .ok _ := Board.guarded_of_free h' _
        rw [enabled] at failed
        cases failed
      | some cause =>
        have refused : (n.board.forwarding c).enableRx = .error cause :=
          Board.guarded_of_obstacle h' _
        rw [refused] at failed
        cases failed
        exact .halfway h
  | log outlet => cases outlet <;> cases failed
  | bare => cases builtIn
  | gate => cases builtIn
  | scripted s => cases builtIn
  | _ => cases failed

/-- Registering `d` would go as far as to put another handler onto the serial line. -/
structure Displaces (n : Node) (c : UInt16) (bundle : UInt8) (d : Driver) : Prop where
  driver : d = .uart
  admitted : n.registry.admits c bundle = .ok ()
  free : n.board.obstacle? .uartSetRxHandler = none
  other : n.board.uart.handler ≠ some (.forward c)

theorem initFailed_register {n : Node} {c : UInt16} {bundle : UInt8} {d : Driver} {e : NodeError}
    (builtIn : d.builtIn = true) (refused : (n.register c bundle d).1 = .error e) :
    (n.registry.admits c bundle ≠ .ok () ∧ (n.register c bundle d).2 = n) ∨
      (n.registry.admits c bundle = .ok () ∧ InitFailed n c d (n.register c bundle d).2) := by
  cases admitted : n.registry.admits c bundle with
  | error cause => exact .inl ⟨by simp, by rw [register, admitted]⟩
  | ok =>
    refine .inr ⟨rfl, ?_⟩
    have kept := n.registry_initDriver c builtIn
    simp only [register, admitted] at refused ⊢
    split at refused
    · rename_i failed
      exact initFailed_initDriver builtIn failed
    · rename_i n' initialised
      -- Such a driver binds none on its way, so the cport is still vacant.
      have unoccupied : n'.registry.driver? c = none := by
        rw [initialised] at kept
        rw [kept, Registry.driver?_of_admits admitted]
      rw [unoccupied] at refused
      cases refused

/-- A refused registration leaves all as it was, unless it displaces a handler. -/
theorem register_leaves_nothing_iff {n : Node} {c : UInt16} {bundle : UInt8} {d : Driver}
    {e : NodeError} (builtIn : d.builtIn = true)
    (refused : (n.register c bundle d).1 = .error e) :
    let n' := (n.register c bundle d).2
    n'.registry = n.registry ∧ n'.link = n.link ∧
      (n'.board = n.board ↔ ¬ n.Displaces c bundle d) ∧
      (n.Displaces c bundle d → n'.board = n.board.forwarding c) := by
  intro n'
  rcases initFailed_register builtIn refused with ⟨notAdmitted, same⟩ | ⟨admitted, failed⟩
  · have never : ¬ n.Displaces c bundle d := fun displaces => notAdmitted displaces.admitted
    have same : n' = n := same
    simp [same, never]
  · have failed : InitFailed n c d n' := failed
    generalize n' = n' at failed
    cases failed with
    | atOnce early =>
      have never : ¬ n.Displaces c bundle d := fun displaces =>
        early ⟨displaces.driver, displaces.free⟩
      simp [called, never]
    | halfway free =>
      refine ⟨rfl, rfl, ?_, fun _ => rfl⟩
      rw [Board.forwarding_eq_self_iff]
      constructor
      · intro installed displaces
        exact displaces.other installed
      · intro never
        exact Decidable.byContradiction fun other => never ⟨rfl, admitted, free, other⟩

def twoSerials : Config :=
  { Config.empty with cports := [⟨0, .control⟩, ⟨1, .uart⟩, ⟨1, .uart⟩] }

def forwardingOnce : Node :=
  (ofParts twoSerials .fresh (.memory .fresh)).after
    [.register 1 1 .uart, .outside (·.setFault .uartEnableRx (some .timeout)) id id]

theorem register_displaces_other :
    (forwardingOnce.register 2 1 .uart).1 = .error (.driver .timeout) ∧
      forwardingOnce.board.uart.handler = some (.forward 1) ∧
      (forwardingOnce.register 2 1 .uart).2.board.uart.handler = some (.forward 2) := by
  have displaces : forwardingOnce.Displaces 2 1 .uart := ⟨rfl, rfl, rfl, by decide⟩
  have refused : (forwardingOnce.register 2 1 .uart).1 = .error (.driver .timeout) := rfl
  obtain ⟨-, -, -, left⟩ := register_leaves_nothing_iff rfl refused
  exact ⟨refused, rfl, by rw [left displaces]; rfl⟩

end Node

end CportNode
