import CportNode.Node.Registry

namespace CportNode

namespace Slot

def tornDown (s : Slot) : Slot :=
  { s with driver := none, draining := true }

@[simp] theorem driver_bind (s : Slot) (d : Driver) : (s.bind d).driver = some d := rfl

@[simp] theorem driver_unbind (s : Slot) : s.unbind.driver = none := rfl

@[simp] theorem unbind_beginTeardown (s : Slot) : s.beginTeardown.unbind = s.tornDown := rfl

@[simp] theorem tornDown_beginTeardown (s : Slot) : s.beginTeardown.tornDown = s.tornDown := rfl

@[simp] theorem unbind_tornDown (s : Slot) : s.tornDown.unbind = s.tornDown := rfl

@[simp] theorem route_tornDown (s : Slot) : s.tornDown.route = .draining := rfl

@[simp] theorem route_bind (s : Slot) (d : Driver) : (s.bind d).route = .driver d := rfl

@[simp] theorem route_eq_unbound_iff (s : Slot) :
    s.route = .unbound ↔ s.driver = none ∧ s.draining = false := by
  cases s with
  | mk row driver draining => cases driver <;> cases draining <;> simp [route]

theorem route_update (s : Slot) (d : Driver) (h : s.route ≠ .unbound) :
    (s.update d).route ≠ .unbound := by
  simp only [ne_eq, route_eq_unbound_iff, update, Option.map_eq_none_iff] at *
  exact h

end Slot

namespace Registry

@[simp] theorem size_modify (r : Registry) (c : UInt16) (change : Slot → Slot) :
    (r.modify c change).size = r.size :=
  Array.size_modify

@[simp] theorem slot?_modify_self (r : Registry) (c : UInt16) (change : Slot → Slot) :
    (r.modify c change).slot? c = (r.slot? c).map change := by
  simp [slot?, modify, Array.getElem?_modify]

@[simp] theorem slot?_modify_of_ne (r : Registry) {c c' : UInt16} (change : Slot → Slot)
    (h : c' ≠ c) : (r.modify c change).slot? c' = r.slot? c' := by
  have : c.toNat ≠ c'.toNat := fun same => h (UInt16.toNat_inj.mp same.symm)
  simp [slot?, modify, Array.getElem?_modify, this]

theorem toNat_lt_size {r : Registry} {c : UInt16} {s : Slot} (h : r.slot? c = some s) :
    c.toNat < r.size := by
  have := (Array.getElem?_eq_some_iff.mp h).1
  exact this

theorem requireRange_eq {r : Registry} {c : UInt16} {s : Slot} (h : r.slot? c = some s) :
    r.requireRange c = .ok () :=
  if_pos (toNat_lt_size h)

theorem slot?_of_driver? {r : Registry} {c : UInt16} {d : Driver} (h : r.driver? c = some d) :
    ∃ s, r.slot? c = some s ∧ s.driver = some d :=
  Option.bind_eq_some_iff.mp h

theorem driver?_eq {r : Registry} {c : UInt16} {s : Slot} (h : r.slot? c = some s) :
    r.driver? c = s.driver := by
  rw [driver?, h, Option.bind_some]

@[simp] theorem driver?_modify_self (r : Registry) (c : UInt16) (change : Slot → Slot) :
    (r.modify c change).driver? c = (r.slot? c).bind fun s => (change s).driver := by
  rw [driver?, slot?_modify_self]
  cases r.slot? c <;> rfl

@[simp] theorem driver?_modify_of_ne (r : Registry) {c c' : UInt16} (change : Slot → Slot)
    (h : c' ≠ c) : (r.modify c change).driver? c' = r.driver? c' := by
  simp [driver?, h]

theorem isBound_iff {r : Registry} {c : UInt16} :
    r.isBound c = true ↔ ∃ s, r.slot? c = some s ∧ s.driver.isSome := by
  rw [isBound, driver?]
  cases r.slot? c <;> simp

theorem mem_boundCports {r : Registry} {c : UInt16} {d : Driver} (h : r.driver? c = some d) :
    c ∈ r.boundCports := by
  obtain ⟨s, hs, hd⟩ := slot?_of_driver? h
  obtain ⟨inRange, at_c⟩ := Array.getElem?_eq_some_iff.mp hs
  simp only [boundCports, List.mem_filterMap, id, Array.mem_toList_iff, Array.mem_mapIdx]
  refine ⟨some c, ⟨c.toNat, inRange, ?_⟩, rfl⟩
  rw [at_c, hd]
  simp

theorem route_eq {r : Registry} {c : UInt16} {s : Slot} (h : r.slot? c = some s) :
    r.route c = s.route := by
  rw [route, h]

theorem route_modify_self (r : Registry) (c : UInt16) (change : Slot → Slot) {s : Slot}
    (h : r.slot? c = some s) : (r.modify c change).route c = (change s).route := by
  simp [route, h]

theorem slot?_of_route {r : Registry} {c : UInt16} {d : Driver} (h : r.route c = .driver d) :
    ∃ s, r.slot? c = some s ∧ s.driver = some d ∧ s.draining = false := by
  cases hs : r.slot? c with
  | none => simp [route, hs] at h
  | some s =>
    rw [route_eq hs] at h
    refine ⟨s, rfl, ?_⟩
    cases s with
    | mk row driver draining => cases driver <;> cases draining <;> simp_all [Slot.route]

@[simp] theorem route_modify_of_ne (r : Registry) {c c' : UInt16} (change : Slot → Slot)
    (h : c' ≠ c) : (r.modify c change).route c' = r.route c' := by
  simp [route, h]

theorem route_update {r : Registry} {c : UInt16} {d : Driver} (h : r.route c = .driver d)
    (d' : Driver) : (r.modify c (.update d')).route c = .driver d' := by
  obtain ⟨s, hs, hd, live⟩ := slot?_of_route h
  rw [route_modify_self _ _ _ hs]
  simp [Slot.update, Slot.route, hd, live]

theorem slot?_of_requireBound {r : Registry} {c : UInt16} {d : Driver}
    (h : r.requireBound c = .ok d) : ∃ s, r.slot? c = some s ∧ s.driver = some d := by
  cases hs : r.slot? c with
  | none => simp [requireBound, hs] at h
  | some s => cases hd : s.driver <;> simp_all [requireBound]

theorem driver?_of_route {r : Registry} {c : UInt16} {d : Driver} (h : r.route c = .driver d) :
    r.driver? c = some d := by
  obtain ⟨s, hs, hd, -⟩ := slot?_of_route h
  rw [driver?_eq hs, hd]

theorem driver?_of_requireBound {r : Registry} {c : UInt16} {d : Driver}
    (h : r.requireBound c = .ok d) : r.driver? c = some d := by
  obtain ⟨s, hs, hd⟩ := slot?_of_requireBound h
  rw [driver?_eq hs, hd]

theorem isBound_of_requireBound {r : Registry} {c : UInt16} {d : Driver}
    (h : r.requireBound c = .ok d) : r.isBound c = true := by
  obtain ⟨s, hs, hd⟩ := slot?_of_requireBound h
  exact isBound_iff.mpr ⟨s, hs, by rw [hd]; rfl⟩

theorem requireBound_of_isBound {r : Registry} {c : UInt16} (h : r.isBound c = true) :
    ∃ d, r.requireBound c = .ok d := by
  obtain ⟨s, hs, hd⟩ := isBound_iff.mp h
  obtain ⟨d, hd⟩ := Option.isSome_iff_exists.mp hd
  exact ⟨d, by simp only [requireBound, hs, hd]⟩

theorem driver?_of_requireBound_error {r : Registry} {c : UInt16} {e : NodeError}
    (h : r.requireBound c = .error e) : r.driver? c = none := by
  cases hs : r.slot? c with
  | none => rw [driver?, hs, Option.bind_none]
  | some s =>
    rw [driver?_eq hs]
    cases hd : s.driver with
    | none => rfl
    | some d => simp only [requireBound, hs, hd, reduceCtorEq] at h

theorem route_ne_unbound_of_requireBound {r : Registry} {c : UInt16} {d : Driver}
    (h : r.requireBound c = .ok d) : r.route c ≠ .unbound := by
  obtain ⟨s, hs, hd⟩ := slot?_of_requireBound h
  simp [route_eq hs, Slot.route_eq_unbound_iff, hd]

theorem admits_ok_iff {r : Registry} {c : UInt16} {bundle : UInt8} :
    r.admits c bundle = .ok () ↔
      ∃ s, r.slot? c = some s ∧ s.row.bundle = bundle ∧ s.driver = none := by
  unfold admits
  cases r.slot? c with
  | none => simp only [reduceCtorEq, false_and, exists_false]
  | some s =>
    simp only [Option.some.injEq, exists_eq_left', ne_eq, ite_not]
    split
    · rename_i same
      cases s.driver <;> simp [same]
    · rename_i foreign
      simp [foreign]

theorem vacant_of_admits {r : Registry} {c : UInt16} {bundle : UInt8}
    (h : r.admits c bundle = .ok ()) : ∃ s, r.slot? c = some s ∧ s.driver = none := by
  obtain ⟨s, hs, -, vacant⟩ := admits_ok_iff.mp h
  exact ⟨s, hs, vacant⟩

theorem driver?_of_admits {r : Registry} {c : UInt16} {bundle : UInt8}
    (h : r.admits c bundle = .ok ()) : r.driver? c = none := by
  obtain ⟨s, hs, vacant⟩ := vacant_of_admits h
  rw [driver?_eq hs, vacant]

end Registry

end CportNode
