import CportNode.Proofs.Balance
import CportNode.Proofs.Fifo
import CportNode.Proofs.Registration

/-!
What becomes of a request if its cport is unbound while it is on the queue.  It is discarded as long
as the cport drains, but the queue does not know for which registration it was meant, and binding
the cport again ends the draining.
-/

namespace CportNode.Node

/-- What the times of a history tell: a cport was bound when a request for it was brought, the
worker did take what it took, later than it was brought, and drivers were handed just what they had
to be. -/
structure Timed (start : Node) (moves : List Move) : Prop where
  brought : ∀ x ∈ (start.history moves).accepted ++ (start.history moves).delayed,
    x.2 < moves.length ∧ (start.after (moves.take x.2)).registry.isBound x.1.cport = true
  taken : ∀ y ∈ (start.history moves).taken,
    y.2 < moves.length ∧ ∃ rest, (start.after (moves.take y.2)).take = some (y.1, rest)
  order : ∀ (k : Nat) (x y : Packet × Nat), (start.history moves).accepted[k]? = some x →
    (start.history moves).taken[k]? = some y → x.2 < y.2
  handed : (start.after moves).handed =
    ((start.history moves).taken.filter fun y => (start.after (moves.take y.2)).hands y.1).map
      Prod.fst

theorem after_take_concat (n : Node) {moves : List Move} (m : Move) {t : Nat}
    (h : t ≤ moves.length) : n.after ((moves ++ [m]).take t) = n.after (moves.take t) := by
  rw [List.take_append_of_le_length h]

theorem after_take_length (n : Node) (moves : List Move) (m : Move) :
    n.after ((moves ++ [m]).take moves.length) = (n.history moves).node := by
  simp

namespace Timed

variable {start : Node} {moves : List Move}

theorem brought_concat (timed : Timed start moves) (m : Move) {x : Packet × Nat}
    (mem : x ∈ (start.history (moves ++ [m])).accepted ++ (start.history (moves ++ [m])).delayed) :
    x.2 < (moves ++ [m]).length ∧
      (start.after ((moves ++ [m]).take x.2)).registry.isBound x.1.cport = true := by
  rw [List.length_append, List.length_singleton]
  rw [history_concat] at mem
  rcases ((start.history moves).grew_step m).brought x mem with before | ⟨now, bound⟩
  · obtain ⟨early, bound⟩ := timed.brought x before
    rw [start.after_take_concat m (Nat.le_of_lt early)]
    exact ⟨Nat.lt_succ_of_lt early, bound⟩
  · rw [time_history] at now
    rw [now, after_take_length]
    exact ⟨Nat.lt_succ_self _, bound⟩

theorem taken_concat (timed : Timed start moves) (m : Move) {y : Packet × Nat}
    (mem : y ∈ (start.history (moves ++ [m])).taken) :
    y.2 < (moves ++ [m]).length ∧
      ∃ rest, (start.after ((moves ++ [m]).take y.2)).take = some (y.1, rest) := by
  have before (mem : y ∈ (start.history moves).taken) : y.2 < moves.length + 1 ∧
      ∃ rest, (start.after ((moves ++ [m]).take y.2)).take = some (y.1, rest) := by
    obtain ⟨early, took⟩ := timed.taken y mem
    rw [start.after_take_concat m (Nat.le_of_lt early)]
    exact ⟨Nat.lt_succ_of_lt early, took⟩
  rw [List.length_append, List.length_singleton]
  rw [history_concat] at mem
  cases (start.history moves).took_step m with
  | nothing taken handed =>
    rw [taken] at mem
    exact before mem
  | request p rest take taken handed =>
    rw [taken, List.mem_append, List.mem_singleton] at mem
    rcases mem with earlier | rfl
    · exact before earlier
    · rw [time_history, after_take_length]
      exact ⟨Nat.lt_succ_self _, rest, take⟩

theorem order_concat {capacity : Nat} (timed : Timed start moves)
    (inOrder : InOrder capacity (start.history moves)) (m : Move) {k : Nat} {x y : Packet × Nat}
    (accepted : (start.history (moves ++ [m])).accepted[k]? = some x)
    (taken : (start.history (moves ++ [m])).taken[k]? = some y) : x.2 < y.2 := by
  have lengths := congrArg List.length inOrder.queue
  simp only [List.length_map, List.length_append] at lengths
  rw [history_concat] at accepted taken
  -- What is accepted in the same move as another request is taken stands behind that request.
  have before (early : k < (start.history moves).accepted.length) :
      (start.history moves).accepted[k]? = some x := by
    obtain ⟨rest, grown⟩ := ((start.history moves).grew_step m).accepted
    rwa [← grown, List.getElem?_append_left early] at accepted
  cases (start.history moves).took_step m with
  | nothing same handed =>
    rw [same] at taken
    have := (List.getElem?_eq_some_iff.mp taken).1
    exact timed.order k x y (before (by omega)) taken
  | request p rest take grown handed =>
    have queue := congrArg List.length (take_some take).2.1
    rw [List.length_cons] at queue
    rw [grown] at taken
    rcases Nat.lt_or_ge k (start.history moves).taken.length with early | late
    · rw [List.getElem?_append_left early] at taken
      exact timed.order k x y (before (by omega)) taken
    · have bounded := (List.getElem?_eq_some_iff.mp taken).1
      rw [List.length_append, List.length_singleton] at bounded
      have last : k = (start.history moves).taken.length := by omega
      rw [last, List.getElem?_concat_length] at taken
      cases taken
      have mem := List.mem_of_getElem? (before (by omega))
      have early := (timed.brought x (List.mem_append_left _ mem)).1
      rwa [time_history]

theorem handed_concat (timed : Timed start moves) (m : Move) :
    (start.after (moves ++ [m])).handed =
      ((start.history (moves ++ [m])).taken.filter fun y =>
        (start.after ((moves ++ [m]).take y.2)).hands y.1).map Prod.fst := by
  have before : ((start.history moves).taken.filter fun y =>
      (start.after ((moves ++ [m]).take y.2)).hands y.1) =
        (start.history moves).taken.filter fun y => (start.after (moves.take y.2)).hands y.1 := by
    apply List.filter_congr
    intro y mem
    rw [start.after_take_concat m (Nat.le_of_lt (timed.taken y mem).1)]
  have handed := timed.handed
  rw [← node_history] at handed
  rw [← node_history, history_concat]
  cases (start.history moves).took_step m with
  | nothing taken same => rw [same, taken, before, handed]
  | request p rest take taken grown =>
    rw [grown, taken, List.filter_append, List.map_append, before, handed]
    congr 1
    rw [List.filter_singleton, time_history, after_take_length]
    cases (start.history moves).node.hands p <;> rfl

theorem run (config : Config) (board : Board) (link : Link) (moves : List Move) :
    Timed (ofParts config board link) moves := by
  induction moves using List.reverseRecOn with
  | nil =>
    refine ⟨?_, ?_, ?_, rfl⟩
    · intro x mem
      cases mem
    · intro y mem
      cases mem
    · intro k x y accepted
      cases accepted
  | append_singleton moves m timed =>
    exact ⟨fun _ => timed.brought_concat m, fun _ => timed.taken_concat m,
      fun _ _ _ => timed.order_concat (.history config board link moves) m, timed.handed_concat m⟩

end Timed

theorem after_take_add (n : Node) (moves : List Move) (i k : Nat) :
    n.after (moves.take (i + k)) = (n.after (moves.take i)).after ((moves.drop i).take k) := by
  simp [List.take_add]

theorem registration_le_of_le (n : Node) (moves : List Move) (c : UInt16) {i j : Nat} (h : i ≤ j) :
    (n.after (moves.take i)).registration c ≤ (n.after (moves.take j)).registration c := by
  rw [← Nat.add_sub_of_le h, after_take_add]
  exact registration_le_after _ _ c

theorem registration_lt_of_rebound {n : Node} {moves : List Move} {c : UInt16} {t j : Nat}
    (h : t ≤ j) (vacant : (n.after (moves.take t)).registry.isBound c = false)
    (bound : (n.after (moves.take j)).registry.isBound c = true) :
    (n.after (moves.take t)).registration c < (n.after (moves.take j)).registration c := by
  rw [← bound_iff] at bound
  rw [← Bool.not_eq_true, ← bound_iff] at vacant
  rw [← Nat.add_sub_of_le h, after_take_add] at bound ⊢
  exact registration_lt_after vacant bound

theorem registration_eq_of_bound {n : Node} {moves : List Move} {c : UInt16} {i j : Nat}
    (h : i ≤ j) (bound : (n.after (moves.take i)).registry.isBound c = true)
    (throughout : ∀ t, i < t → t < j → (n.after (moves.take t)).registry.isBound c = true) :
    (n.after (moves.take j)).registration c = (n.after (moves.take i)).registration c := by
  rw [← Nat.add_sub_of_le h, after_take_add]
  apply registration_eq_after (bound_iff.mpr bound)
  intro t positive fewer
  rw [List.length_take] at fewer
  rw [List.take_take, Nat.min_eq_left (by omega), ← after_take_add, bound_iff]
  exact throughout (i + t) (by omega) (by omega)

theorem isBound_of_route {r : Registry} {c : UInt16} {d : Driver} (h : r.route c = .driver d) :
    r.isBound c = true := by
  obtain ⟨s, hs, hd, -⟩ := Registry.slot?_of_route h
  exact Registry.isBound_iff.mpr ⟨s, hs, by rw [hd]; rfl⟩

theorem hands_iff {n : Node} {p : Packet} :
    n.hands p = true ↔
      p.message.kind ≠ Message.pingKind ∧ ∃ d, n.registry.route p.cport = .driver d := by
  unfold hands
  cases n.registry.route p.cport <;> simp

/-- The fate of the requests that came onto the queue, under any moves.  Drivers are handed what was
taken while its cport had a driver and was not draining, pings apart.  The worker takes a request
that came onto the queue after it was brought, which was while its cport was bound; then the cport
is draining, and the request is discarded, or has a driver.  That driver is of a later registration
than the one for which the request was brought exactly if the cport was unbound in between. -/
theorem handed_to_later_iff (config : Config) (board : Board) (link : Link) (moves : List Move) :
    let start := ofParts config board link
    let h := start.history moves
    let state (t : Nat) := start.after (moves.take t)
    h.node.handed = (h.taken.filter fun y => (state y.2).hands y.1).map Prod.fst ∧
    ∀ (k : Nat) (p q : Packet) (i j : Nat),
      h.accepted[k]? = some (p, i) → h.taken[k]? = some (q, j) →
      q = p ∧ i < j ∧ (state i).registry.isBound p.cport = true ∧
      (state j).registry.route p.cport ≠ .unbound ∧
      ((∀ t, i < t → t < j → (state t).registry.isBound p.cport = true) →
        (state j).registration p.cport = (state i).registration p.cport) ∧
      ((state j).hands p = true ∧
          (state i).registration p.cport < (state j).registration p.cport ↔
        p.message.kind ≠ Message.pingKind ∧ (∃ d, (state j).registry.route p.cport = .driver d) ∧
          ∃ t, i < t ∧ t < j ∧ (state t).registry.isBound p.cport = false) := by
  intro start h state
  have timed : Timed start moves := .run config board link moves
  refine ⟨(node_history start moves).symm ▸ timed.handed, ?_⟩
  intro k p q i j accepted taken
  have early : i < j := timed.order k _ _ accepted taken
  have bound := (timed.brought _ (List.mem_append_left _ (List.mem_of_getElem? accepted))).2
  obtain ⟨-, rest, take⟩ := timed.taken _ (List.mem_of_getElem? taken)
  have same : q = p := by
    have queue : h.accepted.map Prod.fst = h.taken.map Prod.fst ++ h.node.queue :=
      (InOrder.history config board link moves).queue
    have brought : (h.accepted.map Prod.fst)[k]? = some p := by
      rw [List.getElem?_map, accepted]
      rfl
    have took : (h.taken.map Prod.fst)[k]? = some q := by
      rw [List.getElem?_map, taken]
      rfl
    rw [queue, List.getElem?_append_left (List.getElem?_eq_some_iff.mp took).1, took] at brought
    exact Option.some.inj brought
  subst same
  have engaged : (state j).registry.route q.cport ≠ .unbound := by
    have balanced := Balanced.history config board link (moves.take j)
    rw [node_history] at balanced
    obtain ⟨-, -, engaged⟩ := balanced.take take
    rw [engaged_iff, (take_some take).2.2] at engaged
    exact engaged
  have kept := registration_eq_of_bound (Nat.le_of_lt early) bound
  refine ⟨rfl, early, bound, engaged, kept, ?_⟩
  rw [hands_iff, and_assoc]
  constructor
  · rintro ⟨kind, driver, later⟩
    refine ⟨kind, driver, ?_⟩
    by_contra never
    have throughout (t : Nat) (after : i < t) (before : t < j) :
        (state t).registry.isBound q.cport = true := by
      rw [← Bool.not_eq_false]
      intro vacant
      exact never ⟨t, after, before, vacant⟩
    rw [kept throughout] at later
    exact Nat.lt_irrefl _ later
  · rintro ⟨kind, ⟨d, route⟩, t, after, before, vacant⟩
    refine ⟨kind, ⟨d, route⟩, ?_⟩
    apply Nat.lt_of_le_of_lt (registration_le_of_le start moves q.cport (Nat.le_of_lt after))
    exact registration_lt_of_rebound (Nat.le_of_lt before) vacant (isBound_of_route route)

def threeCports : Config :=
  { Config.empty with cports := [⟨0, .control⟩, ⟨1, .gpio⟩, ⟨1, .i2c⟩] }

def rebinding : List Move :=
  [.register 1 1 .gate, .receive ⟨1, ⟨1, 0x02, 0, []⟩⟩, .work none,
    .receive ⟨1, ⟨2, 0x02, 0, []⟩⟩, .unregister 1,
    .register 1 1 (.scripted ⟨none, none, none, none, none, none, none, false⟩),
    .receive ⟨1, ⟨3, 0x02, 0, []⟩⟩, .openGate, .work none, .work none]

theorem rebinding_hands_to_later :
    ((ofParts threeCports .fresh (.memory .fresh)).after rebinding).handed =
        [⟨1, ⟨1, 0x02, 0, []⟩⟩, ⟨1, ⟨2, 0x02, 0, []⟩⟩, ⟨1, ⟨3, 0x02, 0, []⟩⟩] ∧
      ((ofParts threeCports .fresh (.memory .fresh)).after (rebinding.take 3)).registration 1 <
        ((ofParts threeCports .fresh (.memory .fresh)).after (rebinding.take 8)).registration 1 := by
  obtain ⟨-, fates⟩ := handed_to_later_iff threeCports .fresh (.memory .fresh) rebinding
  obtain ⟨-, -, -, -, -, later⟩ := fates 1 ⟨1, ⟨2, 0x02, 0, []⟩⟩ ⟨1, ⟨2, 0x02, 0, []⟩⟩ 3 8 rfl rfl
  have rebound := later.mpr ⟨by decide, ⟨_, rfl⟩, 5, by decide, by decide, rfl⟩
  exact ⟨rfl, rebound.2⟩

end CportNode.Node
