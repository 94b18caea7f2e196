import CportNode.Config.Json
import CportNode.Proofs.Spelling
import Mathlib.Data.List.TakeWhile
import Mathlib.Tactic.IntervalCases

namespace CportNode

namespace Json

theorem isDigit_of_mem_toDigits {n : Nat} {c : Char} (h : c ∈ Nat.toDigits 10 n) :
    c.isDigit = true :=
  Nat.isDigit_of_mem_toDigits (by decide) (by decide) h

theorem toDigits_of_pos {n : Nat} (positive : 0 < n) :
    ∃ d ds, Nat.toDigits 10 n = Nat.digitChar d :: ds ∧ 0 < d ∧ d < 10 := by
  induction n using Nat.strongRecOn with
  | ind n ih =>
    by_cases small : n < 10
    · exact ⟨n, [], Nat.toDigits_of_lt_base small, positive, small⟩
    · obtain ⟨d, ds, front, digit⟩ := ih (n / 10) (by omega) (by omega)
      refine ⟨d, ds ++ [(n % 10).digitChar], ?_, digit⟩
      rw [Nat.toDigits_of_base_le (by decide) (by omega), front, List.cons_append]

@[simp] theorem isNumber_toDigits (n : Nat) : Token.isNumber (Nat.toDigits 10 n) = true := by
  rcases Nat.eq_zero_or_pos n with rfl | positive
  · rfl
  · obtain ⟨d, ds, front, above, below⟩ := toDigits_of_pos positive
    have digits : ds.dropWhile Char.isDigit = [] := by
      refine List.dropWhile_eq_nil_iff.2 fun c later => ?_
      exact isDigit_of_mem_toDigits (front ▸ List.mem_cons_of_mem _ later)
    have tail : Token.fractionPart (ds.dropWhile Char.isDigit) = true := by rw [digits]; rfl
    rw [front]
    interval_cases d <;> exact tail

theorem Sound.natural (n : Nat) : Sound (Json.natural n) := by
  refine .number (isNumber_toDigits n) fun c h => ?_
  simp only [Token.isNumberChar, isDigit_of_mem_toDigits h, Bool.true_or]

end Json

theorem Numeral.digit?_of_isDigit {c : Char} (h : c.isDigit = true) :
    digit? 10 c = some (c.toNat - '0'.toNat) := by
  have decimal : '0' ≤ c ∧ c ≤ '9' := by
    simp only [Char.isDigit, Bool.and_eq_true, decide_eq_true_eq] at h
    exact h
  have below : c.toNat ≤ '9'.toNat := decimal.2
  have value : Hex.value? c = some (c.toNat - '0'.toNat) := if_pos decimal
  rw [digit?, value, Option.filter_some, if_pos]
  exact decide_eq_true (by simp only [Char.reduceToNat] at below ⊢; omega)

theorem Numeral.mapM_digit? {cs : List Char} (h : ∀ c ∈ cs, c.isDigit = true) :
    cs.mapM (digit? 10) = some (cs.map fun c => c.toNat - '0'.toNat) := by
  induction cs with
  | nil => rfl
  | cons c cs ih =>
    rw [List.mapM_cons, digit?_of_isDigit (h c List.mem_cons_self),
      ih fun d later => h d (List.mem_cons_of_mem c later)]
    rfl

@[simp] theorem Numeral.read?_toDigits {bound n : Nat} (below : n < bound) :
    read? 10 bound (Nat.toDigits 10 n) = some n := by
  have plain : unsigned (Nat.toDigits 10 n) = Nat.toDigits 10 n := by
    rw [unsigned.eq_def]
    split
    next signed =>
      have plus : '+' ∈ Nat.toDigits 10 n := signed ▸ List.mem_cons_self
      cases Json.isDigit_of_mem_toDigits plus
    next => rfl
  have worth : valueFrom 10 0 ((Nat.toDigits 10 n).map fun c => c.toNat - '0'.toNat) = n := by
    rw [valueFrom, List.foldl_map, ← Nat.ofDigitChars_eq_foldl, Nat.ofDigitChars_ten_toDigits]
  rw [read?_eq_some_iff (by decide)]
  refine ⟨_, ?_, ?_, worth, below⟩
  · rw [ne_eq, List.map_eq_nil_iff]
    exact Nat.toDigits_ne_nil
  · rw [plain, mapM_digit? fun c => Json.isDigit_of_mem_toDigits]

@[simp] theorem Json.naturalBelow?_natural {bound n : Nat} (below : n < bound) :
    (Json.natural n).naturalBelow? bound = some n := by
  have digits : (Nat.toDigits 10 n).all Char.isDigit = true :=
    List.all_eq_true.2 fun c => isDigit_of_mem_toDigits
  rw [Json.natural, Json.naturalBelow?, if_pos digits, Numeral.read?_toDigits below]

@[simp] theorem byteOfJson_natural (b : UInt8) : byteOfJson (.natural b.toNat) = .ok b := by
  rw [byteOfJson, naturalBelow, Json.naturalBelow?_natural b.toNat_lt]
  exact congrArg Except.ok (UInt8.ofNat_toNat)

@[simp] theorem sizeOfJson_natural {n : Nat} (below : n < UInt64.size) :
    sizeOfJson (.natural n) = .ok n := by
  rw [sizeOfJson, naturalBelow, Json.naturalBelow?_natural below]

theorem byteArray_toList (bytes : ByteArray) : bytes.toList = bytes.data.toList := by
  have loop (i : Nat) (taken : List UInt8) :
      ByteArray.toList.loop bytes i taken = taken.reverse ++ bytes.data.toList.drop i := by
    induction i, taken using ByteArray.toList.loop.induct bytes with
    | case1 i taken inside ih =>
      have inside' : i < bytes.data.toList.length := inside
      have front : bytes.get! i = bytes.data.toList[i] := getElem!_pos bytes.data i inside
      rw [ByteArray.toList.loop, if_pos inside, ih, List.drop_eq_getElem_cons inside', front,
        List.reverse_cons, List.append_assoc, List.singleton_append]
    | case2 i taken beyond =>
      have beyond' : bytes.data.toList.length ≤ i := Nat.le_of_not_lt beyond
      rw [ByteArray.toList.loop, if_neg beyond, List.drop_of_length_le beyond', List.append_nil]
  rw [ByteArray.toList, loop, List.drop_zero, List.reverse_nil, List.nil_append]

@[simp] theorem Bytes.toText?_ofText (text : String) : toText? (ofText text) = some text := by
  have whole : (⟨(ofText text).toArray⟩ : ByteArray) = text.toByteArray := by
    rw [ofText, String.toUTF8_eq_toByteArray, byteArray_toList, Array.toArray_toList]
  rw [toText?, whole, String.fromUTF8?, dif_pos text.isValidUTF8]
  rfl

@[simp] theorem Protocol.ofJson_toJson {p : Protocol} (h : p.Canonical) :
    ofJson p.toJson = .ok p := by
  cases p with
  | unknown id =>
    have known : ofId id = unknown id := h
    have read : ofJson (.natural id.toNat) = (byteOfJson (.natural id.toNat)).map ofId := rfl
    rw [toJson, read, byteOfJson_natural]
    exact congrArg Except.ok known
  | _ => rfl

@[simp] theorem Row.ofJson_toJson {row : Row} (h : row.protocol.Canonical) :
    ofJson row.toJson = .ok row := by
  have bundle : Fields.put ⟨none, none⟩ ("bundle", .natural row.bundle.toNat) =
      .ok ⟨some row.bundle, none⟩ := by
    rw [Fields.put, byteOfJson_natural]
    rfl
  have protocol : Fields.put ⟨some row.bundle, none⟩ ("protocol", row.protocol.toJson) =
      .ok ⟨some row.bundle, some row.protocol⟩ := by
    rw [Fields.put, Protocol.ofJson_toJson h]
    rfl
  simp only [ofJson, toJson, membersOf, List.foldlM_cons, List.foldlM_nil, bind, Except.bind,
    bundle, protocol]
  rfl

theorem Protocol.sound_toJson (p : Protocol) : p.toJson.Sound := by
  cases p with
  | unknown id => exact .natural _
  | _ => exact .text _

theorem Row.sound_toJson (row : Row) : row.toJson.Sound := by
  refine .object fun m h => ?_
  simp only [List.mem_cons, List.not_mem_nil, or_false] at h
  rcases h with rfl | rfl
  · exact .natural _
  · exact row.protocol.sound_toJson

namespace Config

theorem rowsOfJson_toJson {rows : List Row} (h : ∀ row ∈ rows, row.protocol.Canonical) :
    rowsOfJson (.array (rows.map Row.toJson)) = .ok rows := by
  show (rows.map Row.toJson).mapM Row.ofJson = .ok rows
  induction rows with
  | nil => rfl
  | cons row rows ih =>
    rw [List.map_cons, List.mapM_cons, Row.ofJson_toJson (h row List.mem_cons_self),
      ih fun r later => h r (List.mem_cons_of_mem row later)]
    rfl

/-- What can be written down: in range, with text for a path, and of any protocol only one form. -/
structure Portable (c : Config) : Prop where
  checked : c.check = .ok ()
  canonical : ∀ row ∈ c.cports, row.protocol.Canonical
  capacity : c.queueCapacity < UInt64.size
  stack : ∀ size ∈ c.workerStackSize, size < UInt64.size
  manifest : ∀ path ∈ c.manifest, ∃ text, path = Bytes.ofText text

def optionalToJson {α : Type} (value : α → Json) : Option α → Json
  | none => .null
  | some a => value a

theorem sound_optionalToJson {α : Type} {value : α → Json} (h : ∀ a, (value a).Sound)
    (choice : Option α) : (optionalToJson value choice).Sound := by
  cases choice with
  | none => exact .null
  | some a => exact h a

theorem optionalOfJson_size {choice : Option Nat} (h : ∀ size ∈ choice, size < UInt64.size) :
    optionalOfJson sizeOfJson (optionalToJson .natural choice) = .ok choice := by
  cases choice with
  | none => rfl
  | some size =>
    have read : optionalOfJson sizeOfJson (.natural size) =
        (sizeOfJson (.natural size)).map some := rfl
    rw [optionalToJson, read, sizeOfJson_natural (h size rfl)]
    rfl

@[simp] theorem optionalOfJson_path (path : Option String) :
    optionalOfJson pathOfJson (optionalToJson .text path) = .ok (path.map Bytes.ofText) := by
  cases path <;> rfl

def tree (c : Config) (manifest : Option String) : Json :=
  .object [
    ("cports", .array (c.cports.map Row.toJson)),
    ("queue_capacity", .natural c.queueCapacity),
    ("worker_name", .text c.workerName),
    ("worker_stack_size", optionalToJson .natural c.workerStackSize),
    ("manifest", optionalToJson .text manifest)]

theorem toJson_eq {c : Config} {manifest : Option String}
    (h : c.manifest = manifest.map Bytes.ofText) : c.toJson = .ok (c.tree manifest) := by
  obtain ⟨_, _, _, stack, _⟩ := c
  cases h
  cases manifest with
  | none => cases stack <;> rfl
  | some path =>
    simp only [toJson, Bytes.toText?_ofText]
    cases stack <;> rfl

theorem ofJson_tree {c : Config} (h : c.Portable) {manifest : Option String}
    (path : c.manifest = manifest.map Bytes.ofText) : ofJson (c.tree manifest) = .ok c := by
  have stack := optionalOfJson_size h.stack
  have manifest := path ▸ optionalOfJson_path manifest
  simp only [ofJson, tree, membersOf, List.foldlM_cons, List.foldlM_nil, bind, Except.bind, pure,
    Except.pure, Fields.put, Fields.none, fillOnce, Except.map, rowsOfJson_toJson h.canonical,
    sizeOfJson_natural h.capacity, textOfJson, stack, manifest, Fields.toConfig, Option.getD_some]

theorem sound_tree (c : Config) (manifest : Option String) : (c.tree manifest).Sound := by
  have rows : (Json.array (c.cports.map Row.toJson)).Sound := by
    refine .array fun item h => ?_
    obtain ⟨row, -, rfl⟩ := List.mem_map.1 h
    exact row.sound_toJson
  refine .object fun m h => ?_
  simp only [List.mem_cons, List.not_mem_nil, or_false] at h
  rcases h with rfl | rfl | rfl | rfl | rfl
  · exact rows
  · exact .natural _
  · exact .text _
  · exact sound_optionalToJson .natural _
  · exact sound_optionalToJson .text _

theorem Portable.ofText_toText {c : Config} (h : c.Portable) :
    ∃ text, c.toText = .ok text ∧ ofText text = .ok c := by
  obtain ⟨manifest, path⟩ : ∃ manifest : Option String, c.manifest = manifest.map Bytes.ofText := by
    cases given : c.manifest with
    | none => exact ⟨none, rfl⟩
    | some path =>
      obtain ⟨text, rfl⟩ := h.manifest path given
      exact ⟨some text, rfl⟩
  refine ⟨String.ofList (Json.indented 0 (c.tree manifest)), ?_, ?_⟩
  · rw [toText, toJson_eq path]
    rfl
  · rw [ofText, (c.sound_tree manifest).read_indented]
    show (ofJson (c.tree manifest)).bind _ = _
    rw [ofJson_tree h path]
    show (c.check).bind _ = _
    rw [h.checked]
    rfl

end Config

section Except

variable {ε α β : Type}

theorem ok_of_map {x : Except ε α} {f : α → β} {b : β} (h : x.map f = .ok b) :
    ∃ a, x = .ok a ∧ f a = b := by
  cases x with
  | error e => cases h
  | ok a => exact ⟨a, rfl, Except.ok.inj h⟩

theorem ok_of_bind {x : Except ε α} {f : α → Except ε β} {b : β} (h : (x >>= f) = .ok b) :
    ∃ a, x = .ok a ∧ f a = .ok b := by
  cases x with
  | error e => cases h
  | ok a => exact ⟨a, rfl, h⟩

theorem foldlM_keeps {P : β → Prop} {f : β → α → Except ε β}
    (keeps : ∀ b a b', P b → f b a = .ok b' → P b') {l : List α} {b b' : β} (h : P b)
    (folds : l.foldlM f b = .ok b') : P b' := by
  induction l generalizing b with
  | nil =>
    cases folds
    exact h
  | cons a l ih =>
    rw [List.foldlM_cons] at folds
    obtain ⟨next, step, rest⟩ := ok_of_bind folds
    exact ih (keeps b a next h step) rest

theorem exists_of_mapM {f : α → Except ε β} {l : List α} {l' : List β} (h : l.mapM f = .ok l') :
    ∀ b ∈ l', ∃ a, f a = .ok b := by
  induction l generalizing l' with
  | nil =>
    cases h
    intro b hb
    cases hb
  | cons a l ih =>
    rw [List.mapM_cons] at h
    obtain ⟨first, read, h⟩ := ok_of_bind h
    obtain ⟨later, rest, h⟩ := ok_of_bind h
    cases h
    intro b hb
    rcases List.mem_cons.1 hb with rfl | hb
    · exact ⟨a, read⟩
    · exact ih rest b hb

end Except

theorem ok_of_fillOnce {α : Type} {field filled : Option α} {value : Except ConfigError α}
    (h : fillOnce field value = .ok filled) : ∃ a, value = .ok a ∧ filled = some a := by
  cases field with
  | some _ => cases h
  | none =>
    obtain ⟨a, read, rfl⟩ := ok_of_map h
    exact ⟨a, read, rfl⟩

theorem ok_of_optional {α : Type} {value : Json → Except ConfigError α} {j : Json}
    {choice : Option α} (h : optionalOfJson value j = .ok choice) {a : α}
    (chosen : choice = some a) : value j = .ok a := by
  subst chosen
  rw [optionalOfJson.eq_def] at h
  split at h
  · cases h
  · obtain ⟨b, read, same⟩ := ok_of_map h
    cases same
    exact read

theorem lt_of_sizeOfJson {j : Json} {n : Nat} (h : sizeOfJson j = .ok n) : n < UInt64.size := by
  rw [sizeOfJson, naturalBelow] at h
  split at h
  next read =>
    cases h
    rw [Json.naturalBelow?.eq_def] at read
    split at read
    · split at read
      · obtain ⟨_, -, -, -, below⟩ := (Numeral.read?_eq_some_iff (by decide) _ _ _).1 read
        exact below
      · cases read
    · cases read
  next => cases h

theorem Protocol.canonical_ofId (id : UInt8) : (ofId id).Canonical := by
  rw [ofId]
  cases found : named.find? fun p => p.id == id with
  | none =>
    show ofId id = unknown id
    rw [ofId, found, Option.getD_none]
  | some p => exact canonical_of_mem_named (List.mem_of_find?_eq_some found)

theorem Protocol.canonical_of_ofJson {j : Json} {p : Protocol} (h : ofJson j = .ok p) :
    p.Canonical := by
  rw [ofJson.eq_def] at h
  split at h
  · split at h
    next found =>
      cases h
      exact canonical_of_mem_named (List.mem_of_find?_eq_some found)
    next => cases h
  · obtain ⟨id, -, rfl⟩ := ok_of_map h
    exact canonical_ofId id

theorem Row.canonical_of_ofJson {j : Json} {row : Row} (h : ofJson j = .ok row) :
    row.protocol.Canonical := by
  have keeps (f : Fields) (m : String × Json) (f' : Fields)
      (canonical : ∀ p ∈ f.protocol, p.Canonical) (put : f.put m = .ok f') :
      ∀ p ∈ f'.protocol, p.Canonical := by
    rw [Fields.put.eq_def] at put
    split at put
    · obtain ⟨_, -, rfl⟩ := ok_of_map put
      exact canonical
    · obtain ⟨_, filled, rfl⟩ := ok_of_map put
      obtain ⟨p, read, rfl⟩ := ok_of_fillOnce filled
      intro q hq
      cases hq
      exact Protocol.canonical_of_ofJson read
    · cases put
  obtain ⟨members, -, h⟩ := ok_of_bind h
  obtain ⟨fields, put, h⟩ := ok_of_bind h
  have canonical := foldlM_keeps keeps (fun _ absent => by cases absent) put
  rw [Fields.toRow.eq_def] at h
  split at h
  · cases h
    exact canonical _ rfl
  · cases h

namespace Config

structure Fields.Portable (f : Fields) : Prop where
  canonical : ∀ rows ∈ f.cports, ∀ row ∈ rows, row.protocol.Canonical
  capacity : ∀ size ∈ f.queueCapacity, size < UInt64.size
  stack : ∀ choice ∈ f.workerStackSize, ∀ size ∈ choice, size < UInt64.size
  manifest : ∀ choice ∈ f.manifest, ∀ path ∈ choice, ∃ text, path = Bytes.ofText text

theorem Fields.Portable.put {f f' : Fields} {m : String × Json} (h : f.Portable)
    (put : f.put m = .ok f') : f'.Portable := by
  rw [Fields.put.eq_def] at put
  split at put
  case h_6 => cases put
  all_goals
    obtain ⟨_, filled, rfl⟩ := ok_of_map put
    obtain ⟨value, read, rfl⟩ := ok_of_fillOnce filled
  case h_1 j =>
    refine { h with canonical := ?_ }
    intro rows given row mem
    cases given
    rw [rowsOfJson.eq_def] at read
    split at read
    · obtain ⟨item, row⟩ := exists_of_mapM read row mem
      exact Row.canonical_of_ofJson row
    · cases read
  case h_2 =>
    refine { h with capacity := ?_ }
    intro size given
    cases given
    exact lt_of_sizeOfJson read
  case h_3 => exact { h with }
  case h_4 =>
    refine { h with stack := ?_ }
    intro choice given size chosen
    cases given
    exact lt_of_sizeOfJson (ok_of_optional read chosen)
  case h_5 =>
    refine { h with manifest := ?_ }
    intro choice given path chosen
    cases given
    obtain ⟨text, -, rfl⟩ := ok_of_map (ok_of_optional read chosen)
    exact ⟨text, rfl⟩

theorem getD_keeps {α : Type} {P : α → Prop} {given : Option α} {default : α}
    (h : ∀ a ∈ given, P a) (other : P default) : P (given.getD default) := by
  cases given with
  | none => exact other
  | some a => exact h a rfl

theorem Fields.Portable.toConfig {f : Fields} (h : f.Portable)
    (checked : f.toConfig.check = .ok ()) : f.toConfig.Portable where
  checked := checked
  canonical := getD_keeps h.canonical fun _ absent => by cases absent
  capacity := getD_keeps h.capacity (by decide)
  stack := getD_keeps h.stack fun _ absent => by cases absent
  manifest := getD_keeps h.manifest fun _ absent => by cases absent

theorem portable_of_ofText {text : String} {c : Config} (h : ofText text = .ok c) : c.Portable := by
  have start : Fields.none.Portable := by
    constructor <;> (intro _ given; cases given)
  rw [ofText] at h
  generalize Json.read text = read at h
  obtain ⟨tree, whole⟩ := read
  obtain ⟨config, fields, h⟩ := ok_of_bind h
  obtain ⟨members, -, fields⟩ := ok_of_bind fields
  obtain ⟨f, put, same⟩ := ok_of_bind fields
  cases same
  have kept : f.Portable := foldlM_keeps (fun _ _ _ h put => h.put put) start put
  cases whole with
  | false => cases h
  | true =>
    obtain ⟨⟨⟩, checked, h⟩ := ok_of_bind (f := fun _ => pure f.toConfig) h
    cases h
    exact kept.toConfig checked

/-- What can be read from some text can be written and read back, and nothing else can. -/
theorem reads_iff_portable (c : Config) :
    ((∃ text, ofText text = .ok c) ↔ c.Portable) ∧
      (c.Portable ↔ ∃ text, c.toText = .ok text ∧ ofText text = .ok c) := by
  have read : (∃ text, ofText text = .ok c) → c.Portable := fun ⟨_, h⟩ => portable_of_ofText h
  have written : c.Portable → ∃ text, c.toText = .ok text ∧ ofText text = .ok c :=
    Portable.ofText_toText
  have again : (∃ text, c.toText = .ok text ∧ ofText text = .ok c) → ∃ text, ofText text = .ok c :=
    fun ⟨text, _, h⟩ => ⟨text, h⟩
  exact ⟨⟨read, fun h => again (written h)⟩, ⟨written, fun h => read (again h)⟩⟩

end Config

end CportNode
