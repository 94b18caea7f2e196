import CportNode.Proofs.BringUp
import CportNode.Proofs.Working

namespace CportNode

def CportInfo.taken? (info : CportInfo) : Option UInt16 :=
  info.driver.map fun _ => info.cport

namespace Registry

def rows (r : Registry) : List Row :=
  r.slots.toList.map (·.row)

/-- What the table answers, cport by cport, is what some rows say place by place. -/
structure Tells (r : Registry) (rows : List Row) : Prop where
  length : r.snapshot.length = rows.length
  entry {i : Nat} {info : CportInfo} : r.snapshot[i]? = some info →
    info.cport.toNat = i ∧ rows[i]? = some ⟨info.bundle, info.protocol⟩
  occupied {i : Nat} {info : CportInfo} : r.snapshot[i]? = some info →
    info.driver = (r.driver? info.cport).map (·.name)
  info? (c : UInt16) : r.info? c = r.snapshot[c.toNat]?
  isSome_info? (c : UInt16) : (r.info? c).isSome ↔ c.toNat < rows.length
  requireRange (c : UInt16) : r.requireRange c = .ok () ↔ c.toNat < rows.length
  find? {bundle : UInt8} {protocol : Protocol} {c : UInt16} :
    r.find? bundle protocol = some c ↔
      rows[c.toNat]? = some ⟨bundle, protocol⟩ ∧
        ∀ i < c.toNat, rows[i]? ≠ some ⟨bundle, protocol⟩
  find?_none {bundle : UInt8} {protocol : Protocol} :
    r.find? bundle protocol = none ↔ ⟨bundle, protocol⟩ ∉ rows
  boundCports : r.boundCports = (r.snapshot.filter (·.driver.isSome)).map (·.cport)
  ascending : r.boundCports.Pairwise (· < ·)

@[simp] theorem length_rows (r : Registry) : r.rows.length = r.size := by
  rw [rows, List.length_map, Array.length_toList, size]

@[simp] theorem getElem?_rows (r : Registry) (i : Nat) :
    r.rows[i]? = (r.slots[i]?).map (·.row) := by
  rw [rows, List.getElem?_map, Array.getElem?_toList]

@[simp] theorem getElem?_snapshot (r : Registry) (i : Nat) :
    r.snapshot[i]? = (r.slots[i]?).map (·.info (.ofNat i)) := by
  rw [snapshot, Array.getElem?_toList, Array.getElem?_mapIdx]

@[simp] theorem length_snapshot (r : Registry) : r.snapshot.length = r.size := by
  rw [snapshot, Array.length_toList, Array.size_mapIdx, size]

theorem info?_eq (r : Registry) (c : UInt16) : r.info? c = r.snapshot[c.toNat]? := by
  simp [info?, slot?]

@[simp] theorem isSome_info?_iff (r : Registry) (c : UInt16) :
    (r.info? c).isSome ↔ c.toNat < r.size := by
  rw [info?_eq, isSome_getElem?, length_snapshot]

@[simp] theorem requireRange_iff (r : Registry) (c : UInt16) :
    r.requireRange c = .ok () ↔ c.toNat < r.size := by
  unfold requireRange
  split
  · rename_i inside
    exact iff_of_true rfl inside
  · rename_i outside
    exact iff_of_false (fun ok => by cases ok) outside

theorem toNat_ofNat_of_few {r : Registry} (few : r.size ≤ UInt16.size) {i : Nat} (h : i < r.size) :
    (UInt16.ofNat i).toNat = i :=
  UInt16.toNat_ofNat_of_lt' (Nat.lt_of_lt_of_le h few)

theorem entry_snapshot {r : Registry} (few : r.size ≤ UInt16.size) {i : Nat} {info : CportInfo}
    (h : r.snapshot[i]? = some info) : ∃ s, r.slot? info.cport = some s ∧
      info = s.info info.cport ∧ info.cport.toNat = i := by
  rw [getElem?_snapshot] at h
  obtain ⟨s, at_i, rfl⟩ := Option.map_eq_some_iff.mp h
  have exact_i := toNat_ofNat_of_few few (Array.getElem?_eq_some_iff.mp at_i).1
  refine ⟨s, ?_, rfl, exact_i⟩
  rwa [slot?, Slot.info, exact_i]

theorem findIdx?_eq_some_iff (r : Registry) (row : Row) (i : Nat) :
    r.slots.findIdx? (·.row = row) = some i ↔
      r.rows[i]? = some row ∧ ∀ j < i, r.rows[j]? ≠ some row := by
  rw [Array.findIdx?_eq_some_iff_getElem, getElem?_rows]
  constructor
  · rintro ⟨inside, here, earlier⟩
    refine ⟨?_, fun j before => ?_⟩
    · rw [Array.getElem?_eq_getElem inside, Option.map_some, of_decide_eq_true here]
    · rw [getElem?_rows, Array.getElem?_eq_getElem (Nat.lt_trans before inside), Option.map_some]
      exact fun same => earlier j before (decide_eq_true (Option.some.inj same))
  · rintro ⟨here, earlier⟩
    obtain ⟨s, at_i, rfl⟩ := Option.map_eq_some_iff.mp here
    obtain ⟨inside, rfl⟩ := Array.getElem?_eq_some_iff.mp at_i
    refine ⟨inside, decide_eq_true rfl, fun j before same => earlier j before ?_⟩
    rw [getElem?_rows, Array.getElem?_eq_getElem (Nat.lt_trans before inside), Option.map_some,
      of_decide_eq_true same]

theorem find?_eq_some_iff {r : Registry} (few : r.size ≤ UInt16.size) {bundle : UInt8}
    {protocol : Protocol} {c : UInt16} :
    r.find? bundle protocol = some c ↔
      r.rows[c.toNat]? = some ⟨bundle, protocol⟩ ∧
        ∀ i < c.toNat, r.rows[i]? ≠ some ⟨bundle, protocol⟩ := by
  rw [find?, Option.map_eq_some_iff, ← findIdx?_eq_some_iff]
  constructor
  · rintro ⟨i, found, rfl⟩
    have inside : i < r.size := (Array.findIdx?_eq_some_iff_getElem.mp found).1
    rwa [toNat_ofNat_of_few few inside]
  · exact fun found => ⟨c.toNat, found, UInt16.ofNat_toNat⟩

theorem find?_eq_none_iff {r : Registry} {bundle : UInt8} {protocol : Protocol} :
    r.find? bundle protocol = none ↔ ⟨bundle, protocol⟩ ∉ r.rows := by
  rw [find?, Option.map_eq_none_iff, Array.findIdx?_eq_none_iff, rows]
  simp

theorem boundCports_eq_filterMap (r : Registry) :
    r.boundCports = r.snapshot.filterMap CportInfo.taken? := by
  have told : (r.slots.mapIdx fun i s => s.driver.map fun _ => UInt16.ofNat i).toList =
      r.snapshot.map CportInfo.taken? := by
    refine List.ext_getElem? fun i => ?_
    rw [Array.getElem?_toList, Array.getElem?_mapIdx, List.getElem?_map, getElem?_snapshot,
      Option.map_map]
    refine congrArg (Option.map · _) (funext fun s => ?_)
    rw [Function.comp_apply, CportInfo.taken?, Slot.info, Option.map_map]
    rfl
  calc r.boundCports
      = (r.snapshot.map CportInfo.taken?).filterMap id := congrArg (List.filterMap id) told
    _ = r.snapshot.filterMap CportInfo.taken? := List.filterMap_map

theorem boundCports_eq (r : Registry) :
    r.boundCports = (r.snapshot.filter (·.driver.isSome)).map (·.cport) := by
  have taken (info : CportInfo) :
      info.taken? = if info.driver.isSome then some info.cport else none := by
    rw [CportInfo.taken?]
    cases info.driver <;> rfl
  calc r.boundCports
      = r.snapshot.filterMap CportInfo.taken? := r.boundCports_eq_filterMap
    _ = r.snapshot.filterMap fun info => if info.driver.isSome then some info.cport else none :=
      congrArg (List.filterMap · _) (funext taken)
    _ = (r.snapshot.filter (·.driver.isSome)).filterMap (some ∘ (·.cport)) :=
      List.filterMap_filter.symm
    _ = (r.snapshot.filter (·.driver.isSome)).map (·.cport) := congrFun List.filterMap_eq_map _

theorem ascending_boundCports {r : Registry} (few : r.size ≤ UInt16.size) :
    r.boundCports.Pairwise (· < ·) := by
  rw [boundCports_eq, List.pairwise_map]
  refine List.Pairwise.filter _ (List.pairwise_iff_getElem.mpr fun i j hi hj before => ?_)
  have place {i : Nat} (h : i < r.snapshot.length) : r.snapshot[i].cport.toNat = i := by
    obtain ⟨-, -, -, same⟩ := entry_snapshot few (List.getElem?_eq_getElem h)
    exact same
  rw [UInt16.lt_iff_toNat_lt, place hi, place hj]
  exact before

theorem tells_rows {r : Registry} (few : r.size ≤ UInt16.size) : r.Tells r.rows where
  length := by rw [length_snapshot, length_rows]
  entry h := by
    obtain ⟨s, at_cport, same, place⟩ := entry_snapshot few h
    rw [slot?, place] at at_cport
    rw [getElem?_rows, at_cport, same]
    exact ⟨place, rfl⟩
  occupied h := by
    obtain ⟨s, at_cport, same, -⟩ := entry_snapshot few h
    rw [driver?_eq at_cport, same]
    rfl
  info? := r.info?_eq
  isSome_info? c := by rw [length_rows, isSome_info?_iff]
  requireRange c := by rw [length_rows, requireRange_iff]
  find? := find?_eq_some_iff few
  find?_none := find?_eq_none_iff
  boundCports := r.boundCports_eq
  ascending := ascending_boundCports few

theorem Tells.last_of_longest {r : Registry} {row last : Row} (differ : row ≠ last)
    (h : r.Tells (List.replicate 65535 row ++ [last])) :
    r.snapshot.length = 65536 ∧ (r.info? 65535).isSome ∧
      r.find? last.bundle last.protocol = some 65535 := by
  have length : (List.replicate 65535 row ++ [last]).length = 65536 := by
    rw [List.length_append, List.length_replicate, List.length_singleton]
  have widest : (65535 : UInt16).toNat = 65535 := by decide
  refine ⟨h.length.trans length, ?_, ?_⟩
  · rw [h.isSome_info?, length, widest]
    exact Nat.lt_succ_self 65535
  · rw [h.find?, widest]
    constructor
    · rw [List.getElem?_append_right, List.length_replicate, Nat.sub_self]
      · exact List.getElem?_cons_zero
      · exact Nat.le_of_eq List.length_replicate
    · intro i before same
      rw [List.getElem?_append_left, List.getElem?_replicate_of_lt before] at same
      · exact differ (Option.some.inj same)
      · rwa [List.length_replicate]

end Registry

namespace Node

theorem size_keptByTurnover : KeptByTurnover fun n n' => n'.registry.size = n.registry.size where
  refl _ := rfl
  trans same same' := same'.trans same
  exit _ _ := rfl
  outlet _ _ := rfl
  board _ _ _ := rfl
  init _ _ := rfl
  mute n c := by
    unfold mute
    split <;> rfl
  modifySlot n c change := n.registry.size_modify c change

theorem size_keptByMoves : KeptByMoves fun n n' => n'.registry.size = n.registry.size :=
  size_keptByTurnover.keptByMoves fun same _ => congrArg Registry.size same

@[simp] theorem size_apply (n : Node) (m : Move) : (m.apply n).registry.size = n.registry.size :=
  size_keptByMoves.apply n fun outer => by
    cases m with
    | stop => rfl
    | close => rfl
    | outside _ _ _ => rfl
    | _ => cases outer

@[simp] theorem size_pass (n : Node) (stages : List Stage) :
    (n.pass stages).registry.size = n.registry.size :=
  pass_invariant (P := fun n' => n'.registry.size = n.registry.size) rfl
    (fun n' m same => (n'.size_apply m).trans same) stages

theorem rows_pass {n : Node} (few : n.registry.size ≤ UInt16.size) (stages : List Stage) :
    (n.pass stages).registry.rows = n.registry.rows := by
  refine List.ext_getElem? fun i => ?_
  by_cases inside : i < n.registry.size
  · have row := n.row_pass stages (.ofNat i)
    simp only [Registry.slot?, Registry.toNat_ofNat_of_few few inside] at row
    simp [row]
  · have beyond := Nat.le_of_not_lt inside
    rw [List.getElem?_eq_none, List.getElem?_eq_none]
    · rwa [Registry.length_rows]
    · rwa [Registry.length_rows, size_pass]

@[simp] theorem rows_ofParts (config : Config) (board : Board) (link : Link) :
    (ofParts config board link).registry.rows = config.cports := by
  simp only [ofParts, Registry.ofRows, Registry.rows, List.map_map]
  exact List.map_id' config.cports

/-- Whatever a node has gone through, its table has the rows of the configuration in their places,
and is looked up by them.  No two rows share a cport, not even where the table is as long as one can
be. -/
theorem table_tells_rows {config : Config} (checked : config.check = .ok ()) (board : Board)
    (link : Link) (stages : List Stage) :
    (1 ≤ config.cports.length ∧ config.cports.length ≤ 65536) ∧
      ((ofParts config board link).pass stages).registry.Tells config.cports := by
  have few := Config.length_le_of_check checked
  have rows := rows_ofParts config board link
  have size : (ofParts config board link).registry.size ≤ UInt16.size := by
    rwa [← Registry.length_rows, rows]
  refine ⟨⟨Config.length_pos_of_check checked, few⟩, ?_⟩
  rw [← rows, ← rows_pass size stages]
  refine Registry.tells_rows ?_
  rwa [size_pass]

def longest : Config :=
  { Config.empty with cports := List.replicate 65535 ⟨0, .control⟩ ++ [⟨1, .vendor⟩] }

@[simp] theorem check_longest : longest.check = .ok () := by
  have length : longest.cports.length = 65536 := by
    rw [longest, List.length_append, List.length_replicate, List.length_singleton]
  have rows : longest.cports ≠ [] := List.length_pos_iff.mp (length ▸ Nat.succ_pos 65535)
  have fits : ¬ Config.maxCports < longest.cports.length := length ▸ Nat.lt_irrefl 65536
  rw [Config.check, if_neg (mt List.isEmpty_iff.mp rows), if_neg fits]
  rfl

def succeeding : List Stage :=
  [.move (.register 65535 1 .bare), .shutDown, .move (.register 65535 1 .loopback)]

theorem longest_table_tells_rows :
    longest.check = .ok () ∧
      let r := ((ofParts longest .fresh (.memory .fresh)).pass succeeding).registry
      r.snapshot.length = 65536 ∧ (r.info? 65535).isSome ∧ r.find? 1 .vendor = some 65535 :=
  ⟨check_longest, Registry.Tells.last_of_longest (by decide)
    (table_tells_rows check_longest .fresh (.memory .fresh) succeeding).2⟩

end Node

end CportNode
