import CportNode.Proofs.Moves

namespace CportNode

def Standing.Bound (x : Standing) : Prop :=
  ∃ s, x.slot = some s ∧ s.driver.isSome = true

namespace Passage

variable {x y : Standing}

theorem registration_le (h : Passage x y) : x.registration ≤ y.registration := by
  cases h with
  | refused vacant later => exact Nat.le_of_lt later
  | bound d vacant later => exact Nat.le_of_lt later
  | passing vacant later => exact Nat.le_of_lt later
  | _ => exact Nat.le_refl _

theorem registration_eq (h : Passage x y) (bound : x.Bound) : y.registration = x.registration := by
  obtain ⟨s, hs, occupied⟩ := bound
  have contradicts {s' : Slot} (hs : some s' = some s) (vacant : s'.driver = none) : False := by
    cases hs
    simp [vacant] at occupied
  cases h with
  | refused vacant _ => exact (contradicts hs vacant).elim
  | bound d vacant _ => exact (contradicts hs vacant).elim
  | passing vacant _ => exact (contradicts hs vacant).elim
  | _ => rfl

theorem registration_lt (h : Passage x y) (vacant : ¬ x.Bound) (bound : y.Bound) :
    x.registration < y.registration := by
  cases h with
  | kept => exact absurd bound vacant
  | @tornDown s k =>
    obtain ⟨s', hs', occupied⟩ := bound
    obtain ⟨s'', -, rfl⟩ := Option.map_eq_some_iff.mp hs'
    simp [Slot.tornDown] at occupied
  | @updated s k d =>
    obtain ⟨s', hs', occupied⟩ := bound
    obtain ⟨s'', hs'', rfl⟩ := Option.map_eq_some_iff.mp hs'
    exact absurd ⟨s'', hs'', by simpa [Slot.update] using occupied⟩ vacant
  | refused _ later => exact later
  | bound _ _ later => exact later
  | passing _ later => exact later

end Passage

namespace Node

theorem bound_iff {n : Node} {c : UInt16} :
    (n.standing c).Bound ↔ n.registry.isBound c = true :=
  Registry.isBound_iff.symm

theorem registration_le_after (n : Node) (moves : List Move) (c : UInt16) :
    n.registration c ≤ (n.after moves).registration c :=
  after_invariant (P := fun n' => n.registration c ≤ n'.registration c) (Nat.le_refl _)
    (fun n' m le => Nat.le_trans le ((n'.moved_apply m).passage c).registration_le) moves

theorem registration_lt_after {n : Node} {moves : List Move} {c : UInt16}
    (vacant : ¬ (n.standing c).Bound) (bound : ((n.after moves).standing c).Bound) :
    n.registration c < (n.after moves).registration c := by
  induction moves generalizing n with
  | nil => exact absurd bound vacant
  | cons m moves ih =>
    by_cases now : ((m.apply n).standing c).Bound
    · exact Nat.lt_of_lt_of_le (((n.moved_apply m).passage c).registration_lt vacant now)
        (registration_le_after (m.apply n) moves c)
    · exact Nat.lt_of_le_of_lt ((n.moved_apply m).passage c).registration_le (ih now bound)

theorem registration_eq_after {n : Node} {moves : List Move} {c : UInt16}
    (bound : (n.standing c).Bound)
    (throughout : ∀ t, 0 < t → t < moves.length → ((n.after (moves.take t)).standing c).Bound) :
    (n.after moves).registration c = n.registration c := by
  -- The cport may be unbound at the end, but not earlier, so the last move needs no hypothesis.
  induction moves generalizing n with
  | nil => rfl
  | cons m moves ih =>
    have same := ((n.moved_apply m).passage c).registration_eq bound
    rcases moves.eq_nil_or_concat with none | ⟨_, _, some⟩
    · rw [none]
      exact same
    · have positive : 0 < moves.length := by simp [some]
      refine (ih ?_ ?_).trans same
      · exact throughout 1 Nat.one_pos (Nat.succ_lt_succ positive)
      · intro t _ fewer
        exact throughout (t + 1) (Nat.succ_pos t) (Nat.succ_lt_succ fewer)

end Node

end CportNode
