import CportNode.Proofs.Layout
import CportNode.Proofs.Settings
import Mathlib.Data.List.Perm.Subperm

namespace CportNode

namespace Protocol

/-- A letter of a name may be a capital, and a hyphen an underscore. -/
def Variant (wanted c : Char) : Prop :=
  c = wanted ∨ c = wanted.toUpper ∨ (wanted = '-' ∧ c = '_')

inductive Writes (p : Protocol) : Json → Prop
  | id : Writes p (.natural p.id.toNat)
  | name {before name after : List Char} :
      p ∈ named → (∀ c ∈ before, isBlank c = true) → List.Forall₂ Variant p.name.toList name →
      (∀ c ∈ after, isBlank c = true) → Writes p (.text (String.ofList (before ++ name ++ after)))

def plain (c : Char) : Char :=
  if c = '_' then '-' else c.toLower

theorem plain_of_variant {p : Protocol} (known : p ∈ named) {wanted c : Char}
    (among : wanted ∈ p.name.toList) (variant : Variant wanted c) :
    plain c = wanted ∧ isBlank c = false := by
  have lower : ∀ p ∈ named, p.name.toList.all (fun wanted => plain wanted = wanted ∧
      isBlank wanted = false ∧ plain wanted.toUpper = wanted ∧ isBlank wanted.toUpper = false) := by
    decide
  obtain ⟨same, dark, capital, darkCapital⟩ :=
    of_decide_eq_true (List.all_eq_true.mp (lower p known) wanted among)
  rcases variant with rfl | rfl | ⟨rfl, rfl⟩
  · exact ⟨same, dark⟩
  · exact ⟨capital, darkCapital⟩
  · exact ⟨rfl, rfl⟩

theorem map_plain {p : Protocol} (known : p ∈ named) {wanted name : List Char}
    (among : ∀ c ∈ wanted, c ∈ p.name.toList) (h : List.Forall₂ Variant wanted name) :
    name.map plain = wanted ∧ ∀ c ∈ name, isBlank c = false := by
  induction h with
  | nil => exact ⟨rfl, fun _ among => by cases among⟩
  | @cons c d wanted name variant _ ih =>
    obtain ⟨same, dark⟩ := plain_of_variant known (among c List.mem_cons_self) variant
    obtain ⟨later, darkLater⟩ := ih fun c h => among c (List.mem_cons_of_mem _ h)
    exact ⟨by rw [List.map_cons, same, later], List.forall_mem_cons.mpr ⟨dark, darkLater⟩⟩

end Protocol

theorem dropWhile_isBlank {blanks : List Char} (h : ∀ c ∈ blanks, isBlank c = true)
    {cs : List Char} (front : ∀ c ∈ cs.head?, isBlank c = false) :
    (blanks ++ cs).dropWhile isBlank = cs := by
  rw [List.dropWhile_append_of_pos h]
  cases cs with
  | nil => rfl
  | cons c cs =>
    refine List.dropWhile_cons_of_neg ?_
    rw [front c rfl]
    exact Bool.false_ne_true

theorem trimBlanks_around {before name after : List Char} (h : ∀ c ∈ before, isBlank c = true)
    (some : name ≠ []) (dark : ∀ c ∈ name, isBlank c = false) (h' : ∀ c ∈ after, isBlank c = true) :
    trimBlanks (before ++ name ++ after) = name := by
  have front : ∀ c ∈ (name ++ after).head?, isBlank c = false := by
    rw [List.head?_append_of_ne_nil _ some]
    exact fun c first => dark c (List.mem_of_mem_head? first)
  have back : ∀ c ∈ name.reverse.head?, isBlank c = false :=
    fun c last => dark c (List.mem_reverse.mp (List.mem_of_mem_head? last))
  rw [trimBlanks, List.append_assoc, dropWhile_isBlank h front, List.reverse_append,
    dropWhile_isBlank (fun c among => h' c (List.mem_reverse.mp among)) back, List.reverse_reverse]

namespace Protocol

theorem ofName?_variant {p : Protocol} (known : p ∈ named) {before name after : List Char}
    (h : ∀ c ∈ before, isBlank c = true) (spelled : List.Forall₂ Variant p.name.toList name)
    (h' : ∀ c ∈ after, isBlank c = true) :
    ofName? (String.ofList (before ++ name ++ after)) = some p := by
  have named_names : ∀ p ∈ named, p.name ≠ "" ∧ named.find? (·.name == p.name) = some p := by
    decide
  obtain ⟨filled, found⟩ := named_names p known
  obtain ⟨same, dark⟩ := map_plain known (fun _ among => among) spelled
  have some : name ≠ [] := by
    rintro rfl
    exact filled (String.toList_eq_nil_iff.mp same.symm)
  have normal : normalName (String.ofList (before ++ name ++ after)) = p.name := by
    rw [normalName, String.toList_ofList, trimBlanks_around h some dark h']
    exact (congrArg String.ofList same).trans String.ofList_toList
  rw [ofName?, normal, found]

theorem ofJson_writes {p : Protocol} (canonical : p.Canonical) {j : Json} (h : p.Writes j) :
    ofJson j = .ok p := by
  cases h with
  | id =>
    have read : ofJson (.natural p.id.toNat) = (byteOfJson (.natural p.id.toNat)).map ofId := rfl
    rw [read, byteOfJson_natural]
    exact congrArg Except.ok (ofId_id p canonical)
  | name known before spelled after => rw [ofJson, ofName?_variant known before spelled after]

end Protocol

namespace Row

inductive Writes (row : Row) : Json → Prop
  | bundleFirst {protocol : Json} : row.protocol.Writes protocol →
      Writes row (.object [("bundle", .natural row.bundle.toNat), ("protocol", protocol)])
  | protocolFirst {protocol : Json} : row.protocol.Writes protocol →
      Writes row (.object [("protocol", protocol), ("bundle", .natural row.bundle.toNat)])
  | array {protocol : Json} : row.protocol.Writes protocol →
      Writes row (.array [.natural row.bundle.toNat, protocol])

theorem ofJson_writes {row : Row} (canonical : row.protocol.Canonical) {j : Json}
    (h : row.Writes j) : ofJson j = .ok row := by
  have bundle (f : Fields) (first : f.bundle = none) :
      f.put ("bundle", .natural row.bundle.toNat) = .ok { f with bundle := some row.bundle } := by
    rw [Fields.put, byteOfJson_natural, first]
    rfl
  have protocol (f : Fields) (first : f.protocol = none) {j : Json} (h : row.protocol.Writes j) :
      f.put ("protocol", j) = .ok { f with protocol := some row.protocol } := by
    rw [Fields.put, Protocol.ofJson_writes canonical h, first]
    rfl
  cases h with
  | bundleFirst written | array written =>
    simp only [ofJson, membersOf, membersOf.name, fieldNames, List.foldlM_cons, List.foldlM_nil,
      bind, Except.bind, bundle ⟨none, none⟩ rfl, protocol ⟨some row.bundle, none⟩ rfl written]
    rfl
  | protocolFirst written =>
    simp only [ofJson, membersOf, List.foldlM_cons, List.foldlM_nil, bind, Except.bind,
      protocol ⟨none, none⟩ rfl written, bundle ⟨none, some row.protocol⟩ rfl]
    rfl

end Row

theorem Config.rowsOfJson_writes {rows : List Row} (h : ∀ row ∈ rows, row.protocol.Canonical)
    {items : List Json} (written : List.Forall₂ Row.Writes rows items) :
    rowsOfJson (.array items) = .ok rows := by
  show items.mapM Row.ofJson = .ok rows
  induction written with
  | nil => rfl
  | @cons row item rows items first _ ih =>
    rw [List.mapM_cons, Row.ofJson_writes (h row List.mem_cons_self) first,
      ih fun r later => h r (List.mem_cons_of_mem row later)]
    rfl

theorem membersOf_name {names : List String} {items : List Json} (h : items.length ≤ names.length) :
    membersOf.name names items = names.zip items := by
  induction items generalizing names with
  | nil => rw [membersOf.name, List.zip_nil_right]
  | cons item items ih =>
    cases names with
    | nil => cases h
    | cons n names => rw [membersOf.name, ih (Nat.le_of_succ_le_succ h), List.zip_cons_cons]

namespace Config

inductive WritesMember (c : Config) : String × Json → Prop
  | cports {items : List Json} : List.Forall₂ Row.Writes c.cports items →
      WritesMember c ("cports", .array items)
  | queueCapacity : WritesMember c ("queue_capacity", .natural c.queueCapacity)
  | workerName : WritesMember c ("worker_name", .text c.workerName)
  | workerStackSize :
      WritesMember c ("worker_stack_size", optionalToJson .natural c.workerStackSize)
  | manifest {path : Option String} : c.manifest = path.map Bytes.ofText →
      WritesMember c ("manifest", optionalToJson .text path)

def HasDefault (c : Config) : String → Prop
  | "cports" => c.cports = empty.cports
  | "queue_capacity" => c.queueCapacity = empty.queueCapacity
  | "worker_name" => c.workerName = empty.workerName
  | "worker_stack_size" => c.workerStackSize = empty.workerStackSize
  | "manifest" => c.manifest = empty.manifest
  | _ => True

structure WritesMembers (c : Config) (members : List (String × Json)) : Prop where
  once : (members.map Prod.fst).Nodup
  written : ∀ m ∈ members, c.WritesMember m
  omitted : ∀ name ∈ fieldNames, name ∉ members.map Prod.fst → c.HasDefault name

inductive Writes (c : Config) : Json → Prop
  | object {members : List (String × Json)} : c.WritesMembers members → Writes c (.object members)
  | array {items : List Json} : items.length ≤ fieldNames.length →
      c.WritesMembers (fieldNames.zip items) → Writes c (.array items)

def given (c : Config) (names : List String) : Fields where
  cports := if "cports" ∈ names then some c.cports else none
  queueCapacity := if "queue_capacity" ∈ names then some c.queueCapacity else none
  workerName := if "worker_name" ∈ names then some c.workerName else none
  workerStackSize := if "worker_stack_size" ∈ names then some c.workerStackSize else none
  manifest := if "manifest" ∈ names then some c.manifest else none

theorem put_given {c : Config} (h : c.Portable) {m : String × Json} (written : c.WritesMember m)
    {names : List String} (first : m.1 ∉ names) :
    (c.given names).put m = .ok (c.given (m.1 :: names)) := by
  cases written with
  | cports written =>
    simp only [Fields.put, given, if_neg first, fillOnce, rowsOfJson_writes h.canonical written,
      Except.map, List.mem_cons, true_or, if_true, String.reduceEq, false_or]
  | queueCapacity =>
    simp only [Fields.put, given, if_neg first, fillOnce, sizeOfJson_natural h.capacity,
      Except.map, List.mem_cons, true_or, if_true, String.reduceEq, false_or]
  | workerName =>
    simp only [Fields.put, given, if_neg first, fillOnce, textOfJson,
      Except.map, List.mem_cons, true_or, if_true, String.reduceEq, false_or]
  | workerStackSize =>
    simp only [Fields.put, given, if_neg first, fillOnce, optionalOfJson_size h.stack,
      Except.map, List.mem_cons, true_or, if_true, String.reduceEq, false_or]
  | manifest path =>
    simp only [Fields.put, given, if_neg first, fillOnce, optionalOfJson_path, ← path,
      Except.map, List.mem_cons, true_or, if_true, String.reduceEq, false_or]

theorem foldlM_given {c : Config} (h : c.Portable) {members : List (String × Json)}
    (written : ∀ m ∈ members, c.WritesMember m) {names : List String}
    (once : (members.map Prod.fst).Nodup) (first : ∀ m ∈ members, m.1 ∉ names) :
    members.foldlM Fields.put (c.given names) =
      .ok (c.given ((members.map Prod.fst).reverse ++ names)) := by
  induction members generalizing names with
  | nil => rfl
  | cons m members ih =>
    obtain ⟨apart, once⟩ := List.nodup_cons.mp once
    have later : ∀ m' ∈ members, m'.1 ∉ m.1 :: names := by
      intro m' among twice
      rcases List.mem_cons.mp twice with same | twice
      · exact apart (same ▸ List.mem_map_of_mem among)
      · exact first m' (List.mem_cons_of_mem m among) twice
    rw [List.foldlM_cons, put_given h (written m List.mem_cons_self) (first m List.mem_cons_self)]
    show members.foldlM Fields.put (c.given (m.1 :: names)) = _
    rw [ih (fun m' among => written m' (List.mem_cons_of_mem m among)) once later, List.map_cons,
      List.reverse_cons, List.append_assoc, List.singleton_append]

theorem toConfig_given {c : Config} {names : List String}
    (omitted : ∀ name ∈ fieldNames, name ∉ names → c.HasDefault name) :
    (c.given names).toConfig = c := by
  have getD {α : Type} {name : String} {value default : α}
      (h : name ∉ names → value = default) :
      (if name ∈ names then some value else none).getD default = value := by
    split
    · rfl
    · rename_i absent
      exact (h absent).symm
  have cports := getD (omitted "cports" (by decide))
  have capacity := getD (omitted "queue_capacity" (by decide))
  have name := getD (omitted "worker_name" (by decide))
  have stack := getD (omitted "worker_stack_size" (by decide))
  have manifest := getD (omitted "manifest" (by decide))
  simp only [empty] at cports capacity name stack manifest
  simp only [given, Fields.toConfig, cports, capacity, name, stack, manifest]

theorem ofJson_writes {c : Config} (h : c.Portable) {j : Json} (written : c.Writes j) :
    ofJson j = .ok c := by
  have folded {members : List (String × Json)} (h' : c.WritesMembers members) :
      (members.foldlM Fields.put Fields.none >>= fun fields => pure fields.toConfig) = .ok c := by
    have omitted : ∀ name ∈ fieldNames, name ∉ (members.map Prod.fst).reverse ++ [] →
        c.HasDefault name := by
      intro name known absent
      rw [List.append_nil, List.mem_reverse] at absent
      exact h'.omitted name known absent
    have none : Fields.none = c.given [] := rfl
    rw [none, foldlM_given h h'.written h'.once fun _ _ => List.not_mem_nil]
    exact congrArg Except.ok (toConfig_given omitted)
  cases written with
  | object members => exact folded members
  | array few members =>
    rw [ofJson, membersOf, membersOf_name few]
    exact folded members

end Config

/-- The tree is not of a structure with these fields, since one is twice there, or one too many. -/
inductive Misfit (names : List String) : Json → Prop
  | repeated {members : List (String × Json)} :
      ¬ (members.map Prod.fst).Nodup → Misfit names (.object members)
  | unknown {members : List (String × Json)} {m : String × Json} :
      m ∈ members → m.1 ∉ names → Misfit names (.object members)
  | excess {items : List Json} : names.length < items.length → Misfit names (.array items)

section

variable {F : Type} {names : List String} {put : F → String × Json → Except ConfigError F}
  {Has : F → String → Prop}

def Fills (names : List String) (put : F → String × Json → Except ConfigError F)
    (Has : F → String → Prop) : Prop :=
  ∀ {f f' : F} {m : String × Json}, put f m = .ok f' →
    m.1 ∈ names ∧ ¬ Has f m.1 ∧ ∀ name, Has f' name ↔ name = m.1 ∨ Has f name

theorem Fills.foldlM (fills : Fills names put Has) {members : List (String × Json)} {f f' : F}
    (folds : members.foldlM put f = .ok f') :
    (∀ m ∈ members, m.1 ∈ names ∧ ¬ Has f m.1) ∧ (members.map Prod.fst).Nodup ∧
      ∀ name, Has f' name ↔ name ∈ members.map Prod.fst ∨ Has f name := by
  induction members generalizing f with
  | nil =>
    cases folds
    exact ⟨(fun _ among => by cases among), List.nodup_nil, fun _ => by simp⟩
  | cons m members ih =>
    rw [List.foldlM_cons] at folds
    obtain ⟨next, turn, folds⟩ := ok_of_bind folds
    obtain ⟨known, first, has⟩ := fills turn
    obtain ⟨later, once, all⟩ := ih folds
    refine ⟨List.forall_mem_cons.mpr ⟨⟨known, first⟩, fun m' among => ?_⟩, ?_, fun name => ?_⟩
    · obtain ⟨known', first'⟩ := later m' among
      exact ⟨known', fun before => first' ((has _).mpr (.inr before))⟩
    · refine List.nodup_cons.mpr ⟨fun twice => ?_, once⟩
      obtain ⟨m', among, same⟩ := List.mem_map.mp twice
      exact (later m' among).2 ((has _).mpr (.inl same))
    · rw [all, has, List.map_cons, List.mem_cons]
      tauto

theorem exists_unnamed {names : List String} {items : List Json}
    (h : names.length < items.length) : "" ∈ (membersOf.name names items).map Prod.fst := by
  induction items generalizing names with
  | nil => cases h
  | cons item items ih =>
    cases names with
    | nil => exact List.mem_cons_self
    | cons n names => exact List.mem_cons_of_mem n (ih (Nat.lt_of_succ_lt_succ h))

theorem Fills.not_misfit (fills : Fills names put Has) (apart : "" ∉ names) {j : Json}
    {members : List (String × Json)} (taken : membersOf names j = .ok members) {f f' : F}
    (folds : members.foldlM put f = .ok f') : ¬ Misfit names j := by
  obtain ⟨known, once, -⟩ := fills.foldlM folds
  intro misfit
  cases misfit with
  | repeated twice =>
    cases taken
    exact twice once
  | unknown among other =>
    cases taken
    exact other (known _ among).1
  | excess many =>
    cases taken
    obtain ⟨m, among, unnamed⟩ := List.mem_map.mp (exists_unnamed many)
    exact apart (unnamed ▸ (known m among).1)

theorem ok_of_foldlM {members : List (String × Json)} {f f' : F}
    (folds : members.foldlM put f = .ok f') : ∀ m ∈ members, ∃ g g', put g m = .ok g' := by
  induction members generalizing f with
  | nil => exact fun _ among => by cases among
  | cons m members ih =>
    rw [List.foldlM_cons] at folds
    obtain ⟨next, turn, folds⟩ := ok_of_bind folds
    exact List.forall_mem_cons.mpr ⟨⟨f, next, turn⟩, ih folds⟩

end

theorem all_of_mapM {ε α β : Type} {f : α → Except ε β} {l : List α} {l' : List β}
    (h : l.mapM f = .ok l') : ∀ a ∈ l, ∃ b, f a = .ok b := by
  induction l generalizing l' with
  | nil => exact fun _ among => by cases among
  | cons a l ih =>
    rw [List.mapM_cons] at h
    obtain ⟨first, read, h⟩ := ok_of_bind h
    obtain ⟨later, rest, -⟩ := ok_of_bind h
    exact List.forall_mem_cons.mpr ⟨⟨first, read⟩, ih rest⟩

theorem none_of_fillOnce {α : Type} {field filled : Option α} {value : Except ConfigError α}
    (h : fillOnce field value = .ok filled) : field = none := by
  cases field with
  | some _ => cases h
  | none => rfl

namespace Row

inductive Flawed : Json → Prop
  | misfit {j : Json} : Misfit fieldNames j → Flawed j
  | omitted {members : List (String × Json)} {name : String} :
      name ∈ fieldNames → name ∉ members.map Prod.fst → Flawed (.object members)
  | short {items : List Json} : items.length < fieldNames.length → Flawed (.array items)

def Fields.Has (f : Fields) (name : String) : Prop :=
  (name = "bundle" ∧ f.bundle.isSome) ∨ (name = "protocol" ∧ f.protocol.isSome)

theorem fills_put : Fills fieldNames Fields.put Fields.Has := by
  intro f f' m put
  rw [Fields.put.eq_def] at put
  split at put
  case h_3 => cases put
  all_goals
    obtain ⟨_, filled, rfl⟩ := ok_of_map put
    obtain ⟨value, -, rfl⟩ := ok_of_fillOnce filled
    have first := none_of_fillOnce filled
    refine ⟨by simp [fieldNames], by simp [Fields.Has, first], fun name => ?_⟩
    simp only [Fields.Has, first, Option.isSome_none, Option.isSome_some, Bool.false_eq_true]
    grind

theorem not_flawed_of_ofJson {j : Json} {row : Row} (h : ofJson j = .ok row) : ¬ Flawed j := by
  obtain ⟨members, taken, h⟩ := ok_of_bind h
  obtain ⟨fields, folds, h⟩ := ok_of_bind h
  have all : ∀ name ∈ fieldNames, name ∈ members.map Prod.fst := by
    obtain ⟨-, -, has⟩ := fills_put.foldlM folds
    intro name known
    have filled : fields.Has name := by
      rw [Fields.toRow.eq_def] at h
      split at h
      · simpa [Fields.Has, fieldNames] using known
      · cases h
    rcases (has name).mp filled with among | before
    · exact among
    · simp [Fields.Has] at before
  intro flawed
  cases flawed with
  | misfit misfit => exact fills_put.not_misfit (by decide) taken folds misfit
  | omitted known absent =>
    cases taken
    exact absent (all _ known)
  | @short items few =>
    cases taken
    have enough := (List.subperm_of_subset (by decide) all).length_le
    rw [membersOf_name few.le, List.length_map, List.length_zip] at enough
    omega

end Row

namespace Config

inductive Flawed : Json → Prop
  | misfit {j : Json} : Misfit fieldNames j → Flawed j
  | row {members : List (String × Json)} {rows : List Json} {row : Json} :
      ("cports", .array rows) ∈ members → row ∈ rows → Row.Flawed row → Flawed (.object members)
  | rowOfArray {rows items : List Json} {row : Json} :
      row ∈ rows → Row.Flawed row → Flawed (.array (.array rows :: items))

def Fields.Has (f : Fields) (name : String) : Prop :=
  (name = "cports" ∧ f.cports.isSome) ∨ (name = "queue_capacity" ∧ f.queueCapacity.isSome) ∨
    (name = "worker_name" ∧ f.workerName.isSome) ∨
    (name = "worker_stack_size" ∧ f.workerStackSize.isSome) ∨
    (name = "manifest" ∧ f.manifest.isSome)

theorem fills_put : Fills fieldNames Fields.put Fields.Has := by
  intro f f' m put
  rw [Fields.put.eq_def] at put
  split at put
  case h_6 => cases put
  all_goals
    obtain ⟨_, filled, rfl⟩ := ok_of_map put
    obtain ⟨value, -, rfl⟩ := ok_of_fillOnce filled
    have first := none_of_fillOnce filled
    refine ⟨by simp [fieldNames], by simp [Fields.Has, first], fun name => ?_⟩
    simp only [Fields.Has, first, Option.isSome_none, Option.isSome_some, Bool.false_eq_true]
    grind

theorem not_flawed_of_ofJson {j : Json} {c : Config} (h : ofJson j = .ok c) : ¬ Flawed j := by
  obtain ⟨members, taken, h⟩ := ok_of_bind h
  obtain ⟨fields, folds, -⟩ := ok_of_bind h
  have sound {rows : List Json} (among : ("cports", .array rows) ∈ members) :
      ∀ row ∈ rows, ¬ Row.Flawed row := by
    obtain ⟨f, f', put⟩ := ok_of_foldlM folds _ among
    obtain ⟨_, filled, -⟩ := ok_of_map put
    obtain ⟨read, mapped, -⟩ := ok_of_fillOnce filled
    intro row mem
    obtain ⟨r, read⟩ := all_of_mapM mapped row mem
    exact Row.not_flawed_of_ofJson read
  intro flawed
  cases flawed with
  | misfit misfit => exact fills_put.not_misfit (by decide) taken folds misfit
  | row among mem flawed =>
    cases taken
    exact sound among _ mem flawed
  | rowOfArray mem flawed =>
    cases taken
    exact sound List.mem_cons_self _ mem flawed

theorem ofText_of_writes {c : Config} (h : c.Portable) {j : Json} {text : String}
    (written : c.Writes j) (spelled : j.Spells text) : ofText text = .ok c := by
  rw [ofText, spelled.read]
  show (ofJson j).bind _ = _
  rw [ofJson_writes h written]
  show (c.check).bind _ = _
  rw [h.checked]
  rfl

theorem ofText_of_flawed {j : Json} {text : String} (flawed : Flawed j) (spelled : j.Spells text) :
    ∃ e, ofText text = .error e := by
  cases read : ofText text with
  | error e => exact ⟨e, rfl⟩
  | ok c =>
    rw [ofText, spelled.read] at read
    obtain ⟨c', ofTree, -⟩ := ok_of_bind read
    exact absurd flawed (not_flawed_of_ofJson ofTree)

/-- However it is written, a configuration is read as what it is; and what has a fault in its fields
is not read. -/
theorem ofText_spells {j : Json} {text : String} (spelled : j.Spells text) :
    (∀ c : Config, c.Portable → c.Writes j → ofText text = .ok c) ∧
      (Flawed j → ∃ e, ofText text = .error e) :=
  ⟨fun _ portable written => ofText_of_writes portable written spelled,
    fun flawed => ofText_of_flawed flawed spelled⟩

def oneUart : Config :=
  { empty with cports := [⟨7, .uart⟩] }

def oneUartTree : Json :=
  .array [.array [.array [.natural 7, .text (String.ofList ['U', 'A', 'r', 'T', '\u00a0'])]]]

def cutTree : Json :=
  .array [.array [.array [.natural 7]]]

theorem ofText_oneUart :
    ofText "[ [[7,\"\\u0055ArT\u00a0\"]]]" = .ok oneUart ∧ ∃ e, ofText "[[[7]]]" = .error e := by
  have portable : oneUart.Portable := by
    refine ⟨rfl, fun row among => ?_, by decide, ?_, ?_⟩
    · rw [List.mem_singleton.mp among]
      trivial
    · exact fun _ none => by cases none
    · exact fun _ none => by cases none
  have number : Json.Token.Writes (.number ['7']) ['7'] :=
    .number rfl (List.forall_mem_singleton.mpr rfl)
  have spelled : oneUartTree.Spells "[ [[7,\"\\u0055ArT\u00a0\"]]]" := by
    have plain {c : Char} (h : 0x20 ≤ c.toNat ∧ c ≠ '"' ∧ c ≠ '\\') : Json.Token.Escapes c [c] :=
      .plain h.1 h.2.1 h.2.2
    have quoted : Json.Token.Quotes ['U', 'A', 'r', 'T', '\u00a0']
        ['\\', 'u', '0', '0', '5', '5', 'A', 'r', 'T', '\u00a0'] :=
      .cons (.unit (by rfl)) (.cons (plain (by decide)) (.cons (plain (by decide))
        (.cons (plain (by decide)) (.cons (plain (by decide)) .nil))))
    have text := Json.Token.Writes.text (s := String.ofList ['U', 'A', 'r', 'T', '\u00a0']) quoted
    exact .token .openArray (.space rfl (.token .openArray (.token .openArray (.token number
      (.token .comma (.token text
        (.token .closeArray (.token .closeArray (.token .closeArray .nil)))))))))
  have written : oneUart.Writes oneUartTree := by
    have uart : Protocol.uart.Writes
        (.text (String.ofList ([] ++ ['U', 'A', 'r', 'T'] ++ ['\u00a0']))) := by
      refine .name (by decide) (List.forall_mem_nil _) ?_ (List.forall_mem_singleton.mpr rfl)
      exact .cons (.inr (.inl rfl)) (.cons (.inr (.inl rfl)) (.cons (.inl rfl)
        (.cons (.inr (.inl rfl)) .nil)))
    refine .array (by decide) ⟨by decide, fun m among => ?_, fun name known absent => ?_⟩
    · rw [List.mem_singleton.mp among]
      exact .cports (.cons (.array uart) .nil)
    · simp only [fieldNames, List.mem_cons, List.not_mem_nil, or_false] at known
      rcases known with rfl | rfl | rfl | rfl | rfl
      · exact absurd List.mem_cons_self absent
      all_goals rfl
  have cut : cutTree.Spells "[[[7]]]" :=
    .token .openArray (.token .openArray (.token .openArray (.token number
      (.token .closeArray (.token .closeArray (.token .closeArray .nil))))))
  have flawed : Flawed cutTree := .rowOfArray List.mem_cons_self (.short (by decide))
  exact ⟨(ofText_spells spelled).1 oneUart portable written, (ofText_spells cut).2 flawed⟩

end Config

end CportNode
