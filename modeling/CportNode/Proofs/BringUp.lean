import CportNode.Cli.Run
import CportNode.Proofs.Furnishing

namespace CportNode

theorem Config.length_le_of_check {c : Config} (h : c.check = .ok ()) :
    c.cports.length ≤ 65536 := by
  refine Nat.le_of_not_lt fun many => ?_
  have many : maxCports < c.cports.length := many
  simp only [check, if_pos many] at h
  split at h <;> cases h

theorem Config.length_pos_of_check {c : Config} (h : c.check = .ok ()) : 0 < c.cports.length := by
  refine List.length_pos_iff.mpr fun none => ?_
  simp only [check, none, List.isEmpty_nil, if_true, reduceCtorEq] at h

namespace Node

theorem config_worked {n n' : Node} {place : Option Nat} (h : Worked n place n') :
    n'.config = n.config := by
  cases h with
  | idle idle => rfl
  | @dispatched p n₁ n₂ _ taken entered dispatched =>
    obtain ⟨queue, waiting, counters, same⟩ := n₁.elim_letIn_eq place
    rw [dispatched.sameQueue.config, entered, same, (take_some taken).2.2]

@[simp] theorem config_apply (n : Node) (m : Move) : (m.apply n).config = n.config := by
  have moved := n.moved_apply m
  generalize m.apply n = n' at moved
  cases moved with
  | received received => cases received <;> rfl
  | entered entered => cases entered <;> rfl
  | worked worked => exact config_worked worked
  | opened opened => exact opened.sameQueue.config
  | aside _ intake _ => exact intake.config

@[simp] theorem config_pass (n : Node) (stages : List Stage) : (n.pass stages).config = n.config :=
  pass_invariant (P := fun n' => n'.config = n.config) rfl
    (fun n' m same => (n'.config_apply m).trans same) stages

structure Started (config : Config) (n : Node) : Prop where
  same : n.config = config
  few : config.cports.length ≤ 65536
  rows : ∀ c, (n.registry.slot? c).map (·.row) = config.cports[c.toNat]?

theorem start_ok {config : Config} {board : Board} {link : Link} {spawn : Spawn} {n : Node}
    (h : start config board link spawn = .ok n) :
    config.check = .ok () ∧ spawn config = .ok () ∧
      ∃ link', n = ofParts config board link' := by
  unfold start at h
  split at h
  · cases h
  · rename_i checked
    split at h
    · cases h
    · rename_i staffed
      split at h
      · cases h
      · cases h
        exact ⟨checked, staffed, _, rfl⟩

theorem started_of_start {config : Config} {board : Board} {link : Link} {spawn : Spawn} {n : Node}
    (h : start config board link spawn = .ok n) (stages : List Stage) :
    Started config (n.pass stages) := by
  obtain ⟨checked, -, link', rfl⟩ := start_ok h
  refine ⟨config_pass _ stages, Config.length_le_of_check checked, fun c => ?_⟩
  rw [row_pass, slot?_ofParts, Option.map_map]
  exact Option.map_id'

theorem Started.table {config : Config} {n : Node} (h : Started config n) {i : Nat} {row : Row}
    (at_i : config.cports[i]? = some row) :
    (n.registry.slot? (.ofNat i)).map (·.row) = some row := by
  have early := (List.getElem?_eq_some_iff.mp at_i).1
  rw [h.rows, UInt16.toNat_ofNat_of_lt' (Nat.lt_of_lt_of_le early h.few), at_i]

def fitted {σ : Type} (n : Node) (factory : Factory σ) (state : σ) (count : Nat) : Node :=
  (registerRows factory 0 (n.config.cports.take count) state n).2.2

theorem fitted_succ {σ : Type} (n : Node) (factory : Factory σ) (state : σ) {i : Nat} {row : Row}
    (at_i : n.config.cports[i]? = some row) :
    let before := registerRows factory 0 (n.config.cports.take i) state n
    n.fitted factory state (i + 1) =
      ((n.fitted factory state i).fill (.ofNat i) row.bundle
        (factory before.2.1 (.ofNat i) row).1).2 := by
  obtain ⟨early, rfl⟩ := List.getElem?_eq_some_iff.mp at_i
  rw [fitted, List.take_succ_eq_append_getElem early, registerRows_concat, List.length_take,
    Nat.min_eq_left (Nat.le_of_lt early)]
  simp [fitted]

theorem Started.declined {config : Config} {n : Node} (h : Started config n) {σ : Type}
    {factory : Factory σ} {state : σ}
    (alone : ∀ d, some d ∈ (factory.offers 0 config.cports state).1 → d.initsAlone = true)
    {i : Nat} {row : Row} (at_i : config.cports[i]? = some row)
    (none : n.taken (factory.offers 0 config.cports state).1 (.ofNat i) = none) :
    Declined (n.fitted factory state i) (.ofNat i) row.bundle
      (factory.offers 0 config.cports state).1[i]?.join (n.fitted factory state (i + 1)) := by
  have early := (List.getElem?_eq_some_iff.mp at_i).1
  have place : (UInt16.ofNat i).toNat = i :=
    UInt16.toNat_ofNat_of_lt' (Nat.lt_of_lt_of_le early h.few)
  have offered := factory.getElem?_offers state at_i
  have within (d : Driver) (among : some d ∈ (factory.offers 0 (config.cports.take i) state).1) :
      d.initsAlone = true := by
    have appended := factory.offers_append 0 (config.cports.take i) (config.cports.drop i) state
    rw [List.take_append_drop] at appended
    exact alone d (appended ▸ List.mem_append_left _ among)
  have table (j : Nat) (row' : Row) (at_j : (config.cports.take i)[j]? = some row') :
      (n.registry.slot? (.ofNat j)).map (·.row) = some row' := by
    rw [List.getElem?_take] at at_j
    split at at_j
    · exact h.table at_j
    · cases at_j
  have length := factory.length_offers 0 (config.cports.take i) state
  rw [List.length_take_of_le (Nat.le_of_lt early)] at length
  obtain ⟨asked, before⟩ := fitted_registerRows factory state table
    (Nat.le_trans (List.length_take_le' _ _) h.few) within
  rw [← h.same] at before asked
  have before : Fitted n _ _ (n.fitted factory state i) := before
  have untouched : (n.fitted factory state i).registry.slot? (.ofNat i) =
      n.registry.slot? (.ofNat i) := by
    rw [before.slots, taken_of_le (Nat.le_of_eq (by rw [h.same, length, place]))]
    exact Option.map_id'
  have row_here := (before.row (.ofNat i)).trans (h.table at_i)
  rw [taken, place, offered, Option.join_some] at none
  rw [fitted_succ n factory state (h.same ▸ at_i), asked, h.same, offered, Option.join_some]
  let asked := (factory.offers 0 (config.cports.take i) state).2
  have alone_here : ∀ d ∈ (factory asked (.ofNat i) row).1, d.initsAlone = true := by
    intro d among
    rw [Option.mem_def.mp among] at offered
    exact alone d (List.mem_of_getElem? offered)
  refine declined_fill alone_here ?_
  rw [(filled_fill row_here alone_here).done, before.takes untouched, none]
  rfl

end Node

namespace Driver

@[simp] theorem isSome_ofProtocol?_iff {p : Protocol} :
    (ofProtocol? p).isSome = true ↔ p ≠ .vendor ∧ ∀ id, p ≠ .unknown id := by
  cases p <;> simp [ofProtocol?]

theorem name_of_ofProtocol? {p : Protocol} {d : Driver} (h : ofProtocol? p = some d) :
    d.name = p.name := by
  cases p <;> cases h <;> rfl

theorem builtIn_of_ofProtocol? {p : Protocol} {d : Driver} (h : ofProtocol? p = some d) :
    d.builtIn = true := by
  cases p <;> cases h <;> rfl

theorem initsAlone_of_ofProtocol? {p : Protocol} {d : Driver} (h : ofProtocol? p = some d) :
    d.initsAlone = true := by
  cases p <;> cases h <;> rfl

end Driver

theorem Board.initFault?_of_calm {b : Board} (calm : ∀ capability, b.obstacle? capability = none)
    {d : Driver} (builtIn : d.builtIn = true) : b.initFault? d = none := by
  cases d with
  | gpio triggers => exact calm _
  | uart => rw [initFault?, calm, calm, Option.or_none]
  | scripted s => cases builtIn
  | _ => rfl

namespace Node

theorem foldl_listen (cports : List UInt16) {n : Node} {l : SocketLink} (h : n.link = .socket l) :
    ∃ listening, cports.foldl (fun n c => match n.listen c with | .ok n => n | .error _ => n) n =
        { n with link := .socket { l with listening } } ∧
      ∀ c, c ∈ listening ↔ c ∈ l.listening ∨ (c ∈ cports ∧ n.registry.isBound c = true) := by
  induction cports generalizing n l with
  | nil =>
    refine ⟨l.listening, ?_, fun c => by simp⟩
    show n = { n with link := .socket l }
    rw [← h]
  | cons c cports ih =>
    cases bound : n.registry.isBound c with
    | true =>
      obtain ⟨d, required⟩ := Registry.requireBound_of_isBound bound
      have listened : n.listen c = .ok { n with link := .socket (l.listen c) } := by
        simp only [listen, required, h, Link.listen]
      obtain ⟨listening, same, members⟩ := ih (n := { n with link := .socket (l.listen c) }) rfl
      refine ⟨listening, ?_, fun c' => ?_⟩
      · rw [List.foldl_cons, listened]
        exact same
      · rw [members, SocketLink.listen, CportSet.mem_insert, List.mem_cons]
        grind
    | false =>
      obtain ⟨e, refused⟩ : ∃ e, n.listen c = .error e := by
        cases required : n.registry.requireBound c with
        | error e => exact ⟨e, by simp only [listen, required]⟩
        | ok d =>
          rw [Registry.isBound_of_requireBound required] at bound
          cases bound
      obtain ⟨listening, same, members⟩ := ih h
      refine ⟨listening, ?_, fun c' => ?_⟩
      · rw [List.foldl_cons, refused]
        exact same
      · rw [members, List.mem_cons]
        grind

theorem taken_driverFor {n : Node} (rows : List Row) (whole : n.board.missing = [])
    (calm : ∀ capability, n.board.obstacle? capability = none) {c : UInt16}
    (vacant : n.registry.isBound c = false) :
    n.taken (Factory.offers n.board.factory 0 rows ()).1 c =
      rows[c.toNat]?.bind fun row => Driver.ofProtocol? row.protocol := by
  cases at_c : rows[c.toNat]? with
  | none =>
    refine taken_of_le ?_
    simpa using List.getElem?_eq_none_iff.mp at_c
  | some row =>
    have fitted : n.board.driverFor row.protocol = Driver.ofProtocol? row.protocol := by
      rw [Board.driverFor, whole]
      rfl
    rw [taken, Factory.getElem?_offers _ () at_c, Option.join_some, Option.bind_some,
      Board.factory, fitted, takes, if_neg (Bool.not_eq_true _ ▸ vacant)]
    cases made : Driver.ofProtocol? row.protocol with
    | none => rfl
    | some d =>
      have succeeds : (n.initDriver c d).1.isOk = true := by
        simp [Board.initFault?_of_calm calm (Driver.builtIn_of_ofProtocol? made)]
      show Option.filter _ (some d) = some d
      exact Option.filter_eq_some_iff.mpr ⟨rfl, succeeds⟩

/-- Drivers have been bound to a table.  The factory was asked once for each row, in order; vacant
cports took those that could be initialised, and nothing else has changed at any cport; and a row
that took none has changed nothing at all, or displaced a handler. -/
structure Furnished {σ : Type} (n : Node) (factory : Factory σ) (state : σ)
    (made : List (Option Driver) × σ) (outcome : Nat × σ × Node) : Prop where
  asked : outcome.2.1 = made.2
  count : outcome.1 =
    (List.range n.config.cports.length).countP fun i => (n.taken made.1 (.ofNat i)).isSome
  slots : ∀ c, outcome.2.2.registry.slot? c =
    (n.registry.slot? c).map fun s => (n.taken made.1 c).elim s fun d => s.bind d
  bound : ∀ c, outcome.2.2.registry.isBound c = true ↔
    n.registry.isBound c = true ∨ (n.taken made.1 c).isSome = true
  declined : ∀ i row, n.config.cports[i]? = some row → n.taken made.1 (.ofNat i) = none →
    Declined (n.fitted factory state i) (.ofNat i) row.bundle made.1[i]?.join
      (n.fitted factory state (i + 1))

/-- A node that was brought up listens where it has a driver, which is where the protocol has
one. -/
structure BroughtUp (config : Config) (n : Node) : Prop where
  listening : ∀ c, c ∈ n.link.listening ↔ n.registry.isBound c = true
  bound : ∀ c, n.registry.isBound c = true ↔
    ∃ row, config.cports[c.toNat]? = some row ∧ row.protocol ≠ .vendor ∧
      ∀ id, row.protocol ≠ .unknown id
  name : ∀ c row d, config.cports[c.toNat]? = some row → n.registry.driver? c = some d →
    d.name = row.protocol.name

theorem driver?_registerAll {config : Config} {n : Node} (h : Started config n)
    (whole : n.board.missing = []) (calm : ∀ capability, n.board.obstacle? capability = none)
    (vacant : ∀ c, n.registry.isBound c = false) :
    n.registerAll.2.link = n.link ∧ ∀ c, n.registerAll.2.registry.driver? c =
      config.cports[c.toNat]?.bind fun row => Driver.ofProtocol? row.protocol := by
  have alone (d : Driver)
      (among : some d ∈ (Factory.offers n.board.factory 0 n.config.cports ()).1) :
      d.initsAlone = true := by
    obtain ⟨i, row, -, _, made⟩ := Factory.mem_offers among
    have made : some d = n.board.driverFor row.protocol := made
    rw [Board.driverFor, whole] at made
    exact Driver.initsAlone_of_ofProtocol? made.symm
  have fitted : Fitted n (Factory.offers n.board.factory 0 n.config.cports ()).1 n.registerAll.1
      n.registerAll.2 :=
    (fitted_registerRows _ () (fun i row at_i => h.table (h.same ▸ at_i)) (h.same ▸ h.few) alone).2
  refine ⟨fitted.link, fun c => ?_⟩
  have row := h.rows c
  have taken := taken_driverFor config.cports whole calm (vacant c)
  have free := vacant c
  rw [Registry.driver?, fitted.slots, h.same, taken]
  rw [Registry.isBound, Registry.driver?] at free
  cases hs : n.registry.slot? c with
  | none =>
    rw [hs] at row
    rw [← row]
    rfl
  | some s =>
    rw [hs, Option.bind_some] at free
    rw [hs, Option.map_some] at row
    have driver : s.driver = none := by
      cases driver : s.driver with
      | none => rfl
      | some d =>
        rw [driver] at free
        cases free
    rw [← row, Option.bind_some, Option.map_some, Option.bind_some]
    cases Driver.ofProtocol? s.row.protocol with
    | none => exact driver
    | some d => rfl

theorem broughtUp_listenAll {config : Config} {n : Node} {l : SocketLink} (h : n.link = .socket l)
    (deaf : ∀ c, c ∉ l.listening) (driver : ∀ c, n.registry.driver? c =
      config.cports[c.toNat]?.bind fun row => Driver.ofProtocol? row.protocol) :
    BroughtUp config n.listenAll := by
  obtain ⟨listening, listens, members⟩ := foldl_listen n.registry.boundCports h
  have listens : n.listenAll = { n with link := .socket { l with listening } } := listens
  rw [listens]
  refine ⟨fun c => ?_, fun c => ?_, fun c row d at_c bound => ?_⟩
  · show c ∈ listening ↔ n.registry.isBound c = true
    rw [members]
    constructor
    · rintro (listens | ⟨-, bound⟩)
      · exact absurd listens (deaf c)
      · exact bound
    · intro bound
      obtain ⟨d, at_c⟩ := Option.isSome_iff_exists.mp bound
      exact .inr ⟨Registry.mem_boundCports at_c, bound⟩
  · show n.registry.isBound c = true ↔ _
    rw [Registry.isBound, driver]
    cases config.cports[c.toNat]? with
    | none => simp
    | some row => simp [Driver.isSome_ofProtocol?_iff]
  · have bound : n.registry.driver? c = some d := bound
    rw [driver, at_c] at bound
    exact Driver.name_of_ofProtocol? bound

theorem broughtUp_bringUp {config : Config} {spawn : Spawn} (checked : config.check = .ok ())
    (staffed : spawn config = .ok ()) (manifest : Bytes) :
    ∃ n, Cli.bringUp config manifest spawn = .ok n ∧ BroughtUp config n := by
  have started : start config { Board.fresh with manifest } (.socket .fresh) spawn =
      .ok (ofParts config { Board.fresh with manifest } (.socket SocketLink.fresh.attach)) := by
    simp only [start, checked, staffed, Link.attach]
  have vacant (c : UInt16) : (ofParts config { Board.fresh with manifest }
      (.socket SocketLink.fresh.attach)).registry.isBound c = false := by
    rw [Registry.isBound, Registry.driver?, slot?_ofParts]
    cases config.cports[c.toNat]? <;> rfl
  obtain ⟨link, driver⟩ := driver?_registerAll (started_of_start started []) rfl
    (fun _ => rfl) vacant
  refine ⟨_, ?_, broughtUp_listenAll link (fun _ => CportSet.not_mem_empty) driver⟩
  rw [Cli.bringUp, started]
  rfl

theorem Started.furnished {config : Config} {n : Node} (h : Started config n) {σ : Type}
    (factory : Factory σ) (state : σ)
    (alone : ∀ d, some d ∈ (factory.offers 0 config.cports state).1 → d.initsAlone = true) :
    Furnished n factory state (factory.offers 0 config.cports state)
      (n.registerFromConfig factory state) := by
  have declined := fun i row (at_i : config.cports[i]? = some row) => h.declined alone at_i
  obtain ⟨asked, fitted⟩ := fitted_registerRows factory state (fun i row => h.table) h.few alone
  have length := factory.length_offers 0 config.cports state
  rw [← h.same] at *
  refine ⟨asked, length ▸ fitted.count, fitted.slots, fun c => ?_, declined⟩
  rw [registerFromConfig, Registry.isBound, Registry.driver?, fitted.slots, Registry.isBound,
    Registry.driver?]
  cases hs : n.registry.slot? c with
  | none =>
    have row := h.rows c
    rw [hs] at row
    rw [taken_of_le (length ▸ List.getElem?_eq_none_iff.mp row.symm)]
    exact (or_iff_left Bool.false_ne_true).symm
  | some s =>
    cases taken : n.taken (factory.offers 0 n.config.cports state).1 c with
    | none => exact (or_iff_left Bool.false_ne_true).symm
    | some d => exact iff_of_true rfl (.inr rfl)

/-- Binding drivers to the table of a started node, whatever was done with it before; and bringing a
node up. -/
theorem registerFromConfig_furnishes {config : Config} {board : Board} {link : Link}
    {spawn : Spawn} {n : Node} (started : start config board link spawn = .ok n)
    (stages : List Stage) {σ : Type} (factory : Factory σ) (state : σ)
    (alone : ∀ d, some d ∈ (factory.offers 0 config.cports state).1 → d.initsAlone = true) :
    Furnished (n.pass stages) factory state (factory.offers 0 config.cports state)
        ((n.pass stages).registerFromConfig factory state) ∧
      ∀ manifest, ∃ m, Cli.bringUp config manifest spawn = .ok m ∧ BroughtUp config m := by
  obtain ⟨checked, staffed, -⟩ := start_ok started
  exact ⟨(started_of_start started stages).furnished factory state alone,
    broughtUp_bringUp checked staffed⟩

def furnishing : List Stage :=
  [.move (.register 1 1 .uart), .move (.outside (·.setFault .uartEnableRx (some .timeout)) id id)]

def countingFactory : Factory Nat :=
  fun count _ row => (Board.fresh.driverFor row.protocol, count + 1)

theorem furnishing_displaces_other :
    let n := (ofParts twoSerials .fresh
      (.memory { MemoryLink.fresh with attached := true, attachCalls := 1 })).pass furnishing
    let outcome := n.registerFromConfig countingFactory 0
    outcome.1 = 1 ∧ outcome.2.1 = 3 ∧
      (n.fitted countingFactory 0 2).board.uart.handler = some (.forward 1) ∧
      (n.fitted countingFactory 0 3).board.uart.handler = some (.forward 2) := by
  have alone (d : Driver) (among : some d ∈ (countingFactory.offers 0 twoSerials.cports 0).1) :
      d.initsAlone = true := by
    obtain ⟨i, row, -, count, made⟩ := Factory.mem_offers among
    exact Driver.initsAlone_of_ofProtocol? made.symm
  have started : start twoSerials .fresh (.memory .fresh) =
      .ok (ofParts twoSerials .fresh
        (.memory { MemoryLink.fresh with attached := true, attachCalls := 1 })) := rfl
  have furnished := (registerFromConfig_furnishes started furnishing countingFactory 0 alone).1
  exact ⟨furnished.count, furnished.asked, rfl,
    congrArg (·.uart.handler) ((furnished.declined 2 _ rfl rfl).displaced .uart rfl
      ⟨rfl, rfl, rfl, by decide⟩)⟩

end Node

end CportNode
