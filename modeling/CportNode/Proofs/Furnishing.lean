import Mathlib.Data.List.Induction
import CportNode.Proofs.Listening

namespace CportNode

/-- What is made for the rows, asked for once each and in order; and what the factory is then. -/
def Factory.offers {σ : Type} (factory : Factory σ) :
    Nat → List Row → σ → List (Option Driver) × σ
  | _, [], state => ([], state)
  | index, row :: rows, state =>
    let (offer, state) := factory state (UInt16.ofNat index) row
    let (offers, state) := factory.offers (index + 1) rows state
    (offer :: offers, state)

def Board.initFault? (b : Board) : Driver → Option DriverError
  | .gpio _ => b.obstacle? .gpioSetIrqHandler
  | .uart => (b.obstacle? .uartSetRxHandler).or (b.obstacle? .uartEnableRx)
  | .scripted s => s.initFault
  | _ => none

namespace Node

def fill (n : Node) (c : UInt16) (bundle : UInt8) : Option Driver → Bool × Node
  | none => (false, n)
  | some d =>
    match n.register c bundle d with
    | (.error _, n) => (false, n)
    | (.ok (), n) => (true, n)

def takes (n : Node) (c : UInt16) (offer : Option Driver) : Option Driver :=
  if n.registry.isBound c then none else offer.filter fun d => (n.initDriver c d).1.isOk

@[simp] theorem isOk_initDriver (n : Node) (c : UInt16) (d : Driver) :
    (n.initDriver c d).1.isOk = (n.board.initFault? d).isNone := by
  cases d with
  | gpio triggers =>
    simp only [initDriver, Board.setIrqHandler, Board.guarded, Board.initFault?, called]
    cases n.board.obstacle? .gpioSetIrqHandler <;> rfl
  | uart =>
    have same (b : Board) (uart : Uart.SerialLine) (capability : Capability) :
        { b with uart }.obstacle? capability = b.obstacle? capability := rfl
    simp only [initDriver, Board.setRxHandler, Board.enableRx, Board.guarded, Board.initFault?,
      called]
    cases n.board.obstacle? .uartSetRxHandler with
    | some e => rfl
    | none =>
      simp only [adopt, same]
      cases n.board.obstacle? .uartEnableRx <;> rfl
  | log outlet => cases outlet <;> rfl
  | scripted s =>
    simp only [initDriver, Board.initFault?]
    cases s.initFault <;> rfl
  | _ => rfl

structure Refits (n n' : Node) : Prop where
  config : n'.config = n.config
  obstacles : ∀ capability, n'.board.obstacle? capability = n.board.obstacle? capability

theorem refits_keptByTurnover : KeptByTurnover Refits where
  refl _ := ⟨rfl, fun _ => rfl⟩
  trans h h' := ⟨h'.config.trans h.config, fun c => (h'.obstacles c).trans (h.obstacles c)⟩
  exit _ _ := ⟨rfl, fun _ => rfl⟩
  outlet _ _ := ⟨rfl, fun _ => rfl⟩
  board n board rearranged := by
    obtain ⟨irq, rx, receiving, rfl⟩ := rearranged.rest
    exact ⟨rfl, fun _ => rfl⟩
  init _ _ := ⟨rfl, fun _ => rfl⟩
  mute n c := by
    unfold mute
    split <;> exact ⟨rfl, fun _ => rfl⟩
  modifySlot _ _ _ := ⟨rfl, fun _ => rfl⟩

theorem Refits.initFault? {n n' : Node} (h : Refits n n') (d : Driver) :
    n'.board.initFault? d = n.board.initFault? d := by
  cases d with
  | gpio triggers => exact h.obstacles _
  | uart => rw [Board.initFault?, Board.initFault?, h.obstacles, h.obstacles]
  | _ => rfl

theorem Refits.takes {n n' : Node} (h : Refits n n') {c : UInt16}
    (same : n'.registry.slot? c = n.registry.slot? c) : n'.takes c = n.takes c := by
  funext offer
  simp [Node.takes, Registry.isBound, Registry.driver?, same, h.initFault?]

structure Filled (n : Node) (c : UInt16) (taken : Option Driver) (outcome : Bool × Node) : Prop
    extends Refits n outcome.2 where
  done : outcome.1 = taken.isSome
  here : outcome.2.registry.slot? c =
    (n.registry.slot? c).map fun s => taken.elim s fun d => s.bind d
  elsewhere : ∀ c', c' ≠ c → outcome.2.registry.slot? c' = n.registry.slot? c'
  link : outcome.2.link = n.link

theorem Filled.vacant {n n' : Node} {c : UInt16} (refits : Refits n n')
    (registry : n'.registry = n.registry) (link : n'.link = n.link) :
    Filled n c none (false, n') where
  toRefits := refits
  done := rfl
  here := by
    simp [registry]
  elsewhere _ _ := by simp only [registry]
  link := link

theorem filled_fill {n : Node} {c : UInt16} {row : Row}
    (table : (n.registry.slot? c).map (·.row) = some row) {offer : Option Driver}
    (alone : ∀ d ∈ offer, d.initsAlone = true) :
    Filled n c (n.takes c offer) (n.fill c row.bundle offer) := by
  cases offer with
  | none =>
    have none : n.takes c none = none := by
      unfold takes
      split <;> rfl
    rw [none]
    exact .vacant (refits_keptByTurnover.refl n) rfl rfl
  | some d =>
    have refits := refits_keptByTurnover.register n c row.bundle d
    have initialised := initDriver_alone (alone d rfl) n c
    have link := n.link_initDriver c d
    have registered := registered_register (alone d rfl) n c row.bundle
    simp only [fill]
    generalize n.register c row.bundle d = outcome at *
    cases registered with
    | refused refused =>
      obtain ⟨s, hs, rfl⟩ := Option.map_eq_some_iff.mp table
      have bound : n.registry.isBound c = true := by
        rw [Registry.isBound, Registry.driver?_eq hs]
        cases driver : s.driver with
        | some _ => rfl
        | none =>
          have admitted := Registry.admits_ok_iff.mpr ⟨s, hs, rfl, driver⟩
          rw [admitted] at refused
          cases refused
      rw [takes, if_pos bound]
      exact .vacant (refits_keptByTurnover.refl n) rfl rfl
    | @failed e n' admitted failed =>
      rw [failed] at initialised link
      have free : n.registry.isBound c = false := by
        rw [Registry.isBound, Registry.driver?_of_admits admitted, Option.isSome_none]
      have none : n.takes c (some d) = none := by
        simp only [takes, free, failed, Option.filter, Except.isOk, Except.toBool]
        rfl
      rw [none]
      exact .vacant refits initialised.1 link
    | @bound n' admitted succeeded =>
      rw [succeeded] at initialised link
      have free : n.registry.isBound c = false := by
        rw [Registry.isBound, Registry.driver?_of_admits admitted, Option.isSome_none]
      have some : n.takes c (some d) = some d := by
        simp only [takes, free, succeeded, Option.filter, Except.isOk, Except.toBool]
        rfl
      have registry : n'.registry = n.registry := initialised.1
      rw [some]
      refine ⟨refits, rfl, ?_, fun c' other => ?_, link⟩
      · simp [registry]
      · simp [other, registry]

theorem registerRows_cons {σ : Type} (factory : Factory σ) (index : Nat) (row : Row)
    (rows : List Row) (state : σ) (n : Node) :
    registerRows factory index (row :: rows) state n =
      let asked := factory state (UInt16.ofNat index) row
      let filled := n.fill (UInt16.ofNat index) row.bundle asked.1
      let later := registerRows factory (index + 1) rows asked.2 filled.2
      (later.1 + filled.1.toNat, later.2) := by
  rw [registerRows]
  obtain ⟨offer, state⟩ := factory state (UInt16.ofNat index) row
  cases offer with
  | none => rfl
  | some d =>
    simp only [fill]
    obtain ⟨outcome, n'⟩ := n.register (UInt16.ofNat index) row.bundle d
    cases outcome <;> rfl

theorem registerRows_concat {σ : Type} (factory : Factory σ) (index : Nat) (rows : List Row)
    (row : Row) (state : σ) (n : Node) :
    registerRows factory index (rows ++ [row]) state n =
      let before := registerRows factory index rows state n
      let c := UInt16.ofNat (index + rows.length)
      let asked := factory before.2.1 c row
      let filled := before.2.2.fill c row.bundle asked.1
      (before.1 + filled.1.toNat, asked.2, filled.2) := by
  induction rows generalizing index state n with
  | nil =>
    simp [registerRows_cons, registerRows]
  | cons first rows ih =>
    simp [registerRows_cons, ih, Nat.add_right_comm, Nat.add_assoc]

end Node

theorem Factory.offers_append {σ : Type} (factory : Factory σ) (index : Nat)
    (rows later : List Row) (state : σ) :
    factory.offers index (rows ++ later) state =
      let before := factory.offers index rows state
      let after := factory.offers (index + rows.length) later before.2
      (before.1 ++ after.1, after.2) := by
  induction rows generalizing index state with
  | nil => rfl
  | cons first rows ih =>
    simp [offers, ih, Nat.add_assoc, Nat.add_comm 1]

theorem Factory.offers_concat {σ : Type} (factory : Factory σ) (index : Nat) (rows : List Row)
    (row : Row) (state : σ) :
    factory.offers index (rows ++ [row]) state =
      let before := factory.offers index rows state
      let asked := factory before.2 (UInt16.ofNat (index + rows.length)) row
      (before.1 ++ [asked.1], asked.2) :=
  factory.offers_append index rows [row] state

@[simp] theorem Factory.length_offers {σ : Type} (factory : Factory σ) (index : Nat)
    (rows : List Row) (state : σ) : (factory.offers index rows state).1.length = rows.length := by
  induction rows generalizing index state with
  | nil => rfl
  | cons row rows ih => simp [offers, ih]

theorem Factory.getElem?_offers {σ : Type} (factory : Factory σ) {rows : List Row} (state : σ)
    {i : Nat} {row : Row} (at_i : rows[i]? = some row) :
    (factory.offers 0 rows state).1[i]? =
      some (factory (factory.offers 0 (rows.take i) state).2 (.ofNat i) row).1 := by
  obtain ⟨early, here⟩ := List.getElem?_eq_some_iff.mp at_i
  have whole : rows.take i ++ row :: rows.drop (i + 1) = rows := by
    rw [← here, ← List.drop_eq_getElem_cons early, List.take_append_drop]
  have place : (rows.take i).length = i := List.length_take_of_le (Nat.le_of_lt early)
  have length := factory.length_offers 0 (rows.take i) state
  have appended := factory.offers_append 0 (rows.take i) (row :: rows.drop (i + 1)) state
  rw [whole] at appended
  rw [place] at length
  rw [appended, List.getElem?_append_right (Nat.le_of_eq length), length, place, Nat.sub_self,
    Nat.zero_add, offers, List.getElem?_cons_zero]

theorem Factory.mem_offers {σ : Type} {factory : Factory σ} {rows : List Row} {state : σ}
    {offer : Option Driver} (h : offer ∈ (factory.offers 0 rows state).1) :
    ∃ i row, rows[i]? = some row ∧ ∃ state', offer = (factory state' (.ofNat i) row).1 := by
  obtain ⟨i, at_i⟩ := List.mem_iff_getElem?.mp h
  have early := (List.getElem?_eq_some_iff.mp at_i).1
  rw [factory.length_offers] at early
  have row := List.getElem?_eq_getElem early
  rw [factory.getElem?_offers state row] at at_i
  exact ⟨i, _, row, _, (Option.some.inj at_i).symm⟩

namespace Node

/-- The driver that a cport takes, if these are offered to the first cports. -/
def taken (n : Node) (offers : List (Option Driver)) (c : UInt16) : Option Driver :=
  n.takes c (offers[c.toNat]?).join

structure Fitted (n : Node) (offers : List (Option Driver)) (bound : Nat) (n' : Node) : Prop
    extends Refits n n' where
  count : bound = (List.range offers.length).countP fun i => (n.taken offers (.ofNat i)).isSome
  slots : ∀ c, n'.registry.slot? c =
    (n.registry.slot? c).map fun s => (n.taken offers c).elim s fun d => s.bind d
  link : n'.link = n.link

@[simp] theorem takes_none (n : Node) (c : UInt16) : n.takes c none = none := by
  unfold takes
  split <;> rfl

theorem taken_of_le {n : Node} {offers : List (Option Driver)} {c : UInt16}
    (h : offers.length ≤ c.toNat) : n.taken offers c = none := by
  rw [taken, List.getElem?_eq_none h]
  exact n.takes_none c

theorem taken_concat_of_ne (n : Node) {offers : List (Option Driver)} (offer : Option Driver)
    {c : UInt16} (h : c.toNat ≠ offers.length) :
    n.taken (offers ++ [offer]) c = n.taken offers c := by
  rcases Nat.lt_or_gt_of_ne h with before | after
  · rw [taken, taken, List.getElem?_append_left before]
  · rw [taken_of_le (Nat.le_of_lt after), taken_of_le (by rw [List.length_append]; exact after)]

theorem Fitted.row {n n' : Node} {offers : List (Option Driver)} {bound : Nat}
    (h : Fitted n offers bound n') (c : UInt16) :
    (n'.registry.slot? c).map (·.row) = (n.registry.slot? c).map (·.row) := by
  rw [h.slots, Option.map_map]
  refine congrArg (Option.map · _) (funext fun s => ?_)
  cases n.taken offers c <;> rfl

theorem Fitted.concat {n n₁ : Node} {offers : List (Option Driver)} {bound : Nat}
    (h : Fitted n offers bound n₁) (few : offers.length < 65536) {offer : Option Driver}
    {outcome : Bool × Node} (filled : Filled n₁ (.ofNat offers.length)
      (n₁.takes (.ofNat offers.length) offer) outcome) :
    Fitted n (offers ++ [offer]) (bound + outcome.1.toNat) outcome.2 := by
  have last : (UInt16.ofNat offers.length).toNat = offers.length :=
    UInt16.toNat_ofNat_of_lt' few
  have untouched : n₁.registry.slot? (.ofNat offers.length) =
      n.registry.slot? (.ofNat offers.length) := by
    rw [h.slots, taken_of_le (Nat.le_of_eq last.symm)]
    exact Option.map_id'
  have same : n₁.takes (.ofNat offers.length) offer =
      n.taken (offers ++ [offer]) (.ofNat offers.length) := by
    rw [h.takes untouched, taken, last, List.getElem?_concat_length, Option.join_some]
  rw [same] at filled
  refine ⟨⟨filled.config.trans h.config, fun capability =>
    (filled.obstacles capability).trans (h.obstacles capability)⟩, ?_, fun c => ?_,
    filled.link.trans h.link⟩
  · have before : (List.range offers.length).countP
          (fun i => (n.taken (offers ++ [offer]) (.ofNat i)).isSome) = bound := by
      rw [h.count]
      refine List.countP_congr fun i early => ?_
      have early := List.mem_range.mp early
      rw [n.taken_concat_of_ne offer]
      rw [UInt16.toNat_ofNat_of_lt' (Nat.lt_trans early few)]
      exact Nat.ne_of_lt early
    rw [filled.done, List.length_append, List.length_singleton, List.range_succ, List.countP_append,
      List.countP_singleton, before]
    cases n.taken (offers ++ [offer]) (.ofNat offers.length) <;> rfl
  · by_cases now : c = .ofNat offers.length
    · rw [now, filled.here, untouched]
    · have other : c.toNat ≠ offers.length := fun same => now (by rw [← same, UInt16.ofNat_toNat])
      rw [filled.elsewhere c now, h.slots, n.taken_concat_of_ne offer other]

theorem fitted_registerRows {σ : Type} (factory : Factory σ) {rows : List Row} (state : σ)
    {n : Node} (table : ∀ i row, rows[i]? = some row →
      (n.registry.slot? (.ofNat i)).map (·.row) = some row)
    (few : rows.length ≤ 65536)
    (alone : ∀ d, some d ∈ (factory.offers 0 rows state).1 → d.initsAlone = true) :
    let r := registerRows factory 0 rows state n
    r.2.1 = (factory.offers 0 rows state).2 ∧
      Fitted n (factory.offers 0 rows state).1 r.1 r.2.2 := by
  intro r
  induction rows using List.reverseRecOn with
  | nil =>
    refine ⟨rfl, refits_keptByTurnover.refl n, rfl, fun c => ?_, rfl⟩
    rw [taken_of_le (Nat.zero_le _)]
    exact Option.map_id'.symm
  | append_singleton rows row ih =>
    have length := factory.length_offers 0 rows state
    rw [List.length_append, List.length_singleton] at few
    rw [factory.offers_concat] at alone ⊢
    obtain ⟨asked, fitted⟩ := ih
      (fun i row' at_i => table i row' (by
        rw [List.getElem?_append_left (List.getElem?_eq_some_iff.mp at_i).1, at_i]))
      (Nat.le_of_succ_le few) (fun d among => alone d (List.mem_append_left _ among))
    have last : (n.registry.slot? (.ofNat rows.length)).map (·.row) = some row :=
      table rows.length row List.getElem?_concat_length
    simp only [r, registerRows_concat, Nat.zero_add, asked, true_and] at alone ⊢
    have alone_last (d : Driver)
        (offered : d ∈ (factory (factory.offers 0 rows state).2 (.ofNat rows.length) row).1) :
        d.initsAlone = true := alone d (by
      rw [← Option.mem_def.mp offered]
      exact List.mem_append_right _ (List.mem_singleton.mpr rfl))
    have filled := filled_fill ((fitted.row _).trans last) alone_last
    rw [← length] at filled ⊢
    exact fitted.concat (length ▸ few) filled

theorem initFailed_alone {n n' : Node} {c : UInt16} {d : Driver} {e : DriverError}
    (alone : d.initsAlone = true) (failed : n.initDriver c d = (.error e, n')) :
    InitFailed n c d n' := by
  cases d with
  | bare => cases failed
  | gate => cases failed
  | scripted s =>
    have nobody : s.initRegisters = none := Option.isNone_iff_eq_none.mp alone
    simp only [initDriver, nobody] at failed
    cases fault : s.initFault with
    | none =>
      rw [fault] at failed
      cases failed
    | some cause =>
      rw [fault] at failed
      cases failed
      exact .atOnce fun impossible => by cases impossible.1
  | _ => exact initFailed_initDriver rfl failed

/-- The row was not offered a driver, or could not take it.  All is as it was, but for the handler
that the driver of the serial line may have put there. -/
structure Declined (n : Node) (c : UInt16) (bundle : UInt8) (offer : Option Driver) (n' : Node) :
    Prop where
  registry : n'.registry = n.registry
  link : n'.link = n.link
  board : n'.board = n.board ↔ ¬ ∃ d, offer = some d ∧ n.Displaces c bundle d
  displaced : ∀ d, offer = some d → n.Displaces c bundle d → n'.board = n.board.forwarding c

theorem Declined.same {n : Node} {c : UInt16} {bundle : UInt8} {offer : Option Driver}
    (never : ∀ d, offer = some d → ¬ n.Displaces c bundle d) {n' : Node}
    (registry : n'.registry = n.registry) (link : n'.link = n.link) (board : n'.board = n.board) :
    Declined n c bundle offer n' where
  registry := registry
  link := link
  board := ⟨fun _ ⟨d, offered, displaces⟩ => never d offered displaces, fun _ => board⟩
  displaced d offered displaces := absurd displaces (never d offered)

theorem declined_fill {n : Node} {c : UInt16} {bundle : UInt8} {offer : Option Driver}
    (alone : ∀ d ∈ offer, d.initsAlone = true) (declined : (n.fill c bundle offer).1 = false) :
    Declined n c bundle offer (n.fill c bundle offer).2 := by
  cases offer with
  | none => exact .same (fun d impossible => by cases impossible) rfl rfl rfl
  | some d =>
    have registered := registered_register (alone d rfl) n c bundle
    simp only [fill] at declined ⊢
    generalize n.register c bundle d = outcome at *
    cases registered with
    | refused refused =>
      refine .same (fun d' _ displaces => ?_) rfl rfl rfl
      rw [displaces.admitted] at refused
      cases refused
    | @failed e n' admitted failed =>
      cases initFailed_alone (alone d rfl) failed with
      | atOnce early =>
        refine .same (fun d' offered displaces => early ?_) rfl rfl rfl
        cases offered
        exact ⟨displaces.driver, displaces.free⟩
      | halfway free =>
        refine ⟨rfl, rfl, ?_, fun _ _ _ => rfl⟩
        show n.board.forwarding c = n.board ↔ _
        rw [Board.forwarding_eq_self_iff]
        constructor
        · rintro installed ⟨d', -, displaces⟩
          exact displaces.other installed
        · intro never
          exact Decidable.byContradiction fun other => never ⟨.uart, rfl, rfl, admitted, free, other⟩
    | bound admitted succeeded => cases declined

end Node

end CportNode
