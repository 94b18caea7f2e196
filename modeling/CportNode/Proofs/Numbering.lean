import Mathlib.Data.List.Nodup
import CportNode.Proofs.Correlation
import CportNode.Proofs.Working

namespace CportNode

def Move.silent : Move → Prop
  | .outside _ _ ids => ids = id
  | _ => True

structure Errand where
  cport : UInt16
  kind : UInt8
  payload : Bytes
  oneShot : Bool

namespace Errand

def packet (e : Errand) (id : UInt16) : Packet :=
  ⟨e.cport, ⟨id, e.kind, Status.success.code, e.payload⟩⟩

def run (e : Errand) (n : Node) : Except NodeError UInt16 × Node :=
  n.request e.cport e.kind e.payload e.oneShot

end Errand

inductive Doing
  | errand (e : Errand)
  | move (m : Move) (silent : m.silent)

def Doing.apply : Doing → Node → Node
  | errand e, n => (e.run n).2
  | move m _, n => m.apply n

def Doing.wanted : List Doing → Nat
  | [] => 0
  | errand e :: doings => (if e.oneShot then 0 else 1) + wanted doings
  | move _ _ :: doings => wanted doings

namespace Node

def through (n : Node) (doings : List Doing) : Node :=
  doings.foldl (fun n d => d.apply n) n

def drawn : Node → List Doing → List UInt16
  | _, [] => []
  | n, .errand e :: doings =>
    (if e.oneShot then [] else [(Message.requestId false n.ids).1]) ++ (e.run n).2.drawn doings
  | n, .move m _ :: doings => (m.apply n).drawn doings

theorem ids_keptByTurnover : KeptByTurnover fun n n' => n'.ids = n.ids where
  refl _ := rfl
  trans first second := second.trans first
  exit _ _ := rfl
  outlet _ _ := rfl
  board _ _ _ := rfl
  init _ _ := rfl
  mute n c := by
    unfold mute
    split <;> rfl
  modifySlot _ _ _ := rfl

theorem ids_apply (n : Node) {m : Move} (silent : m.silent) : (m.apply n).ids = n.ids := by
  have kept : KeptByMoves fun n n' => n'.ids = n.ids :=
    ids_keptByTurnover.keptByMoves fun _ same => same
  refine kept.apply n fun outer => ?_
  cases m with
  | stop => rfl
  | close => rfl
  | outside board link ids =>
    have unused : ids = id := silent
    rw [Move.apply, unused]
    rfl
  | _ => cases outer

inductive Issues (n : Node) (e : Errand) (id : UInt16) (left : OperationIds) :
    Except NodeError UInt16 × Node → Prop
  | sent {link : Link} : n.link.send (e.packet id) = .ok link →
      Issues n e id left (.ok id, { n with link, ids := left })
  | failed {cause : NodeError} : Message.maxPayload < e.payload.length ∨
        n.registry.size ≤ e.cport.toNat ∨ (∀ link, n.link.send (e.packet id) ≠ .ok link) →
      Issues n e id left (.error cause, { n with ids := left })

theorem issues_run (n : Node) (e : Errand) :
    Issues n e (Message.requestId e.oneShot n.ids).1 (Message.requestId e.oneShot n.ids).2
      (e.run n) := by
  generalize drawn : Message.requestId e.oneShot n.ids = numbered
  obtain ⟨id, left⟩ := numbered
  simp only [Errand.run, request, drawn]
  by_cases fits : e.payload.length ≤ Message.maxPayload
  · simp only [Message.carrying, if_pos fits, send, Registry.requireRange]
    by_cases inRange : e.cport.toNat < n.registry.size
    · simp only [inRange, if_true]
      cases sent : n.link.send ⟨e.cport, ⟨id, e.kind, Status.success.code, e.payload⟩⟩ with
      | ok link => exact .sent sent
      | error cause =>
        refine .failed (.inr (.inr fun link taken => ?_))
        cases sent.symm.trans taken
    · simp only [inRange, if_false]
      exact .failed (.inr (.inl (Nat.le_of_not_lt inRange)))
  · simp only [Message.carrying, if_neg fits]
    exact .failed (.inl (Nat.lt_of_not_le fits))

theorem ids_run (n : Node) (e : Errand) : (e.run n).2.ids = (Message.requestId e.oneShot n.ids).2 := by
  have issued := n.issues_run e
  generalize e.run n = outcome at issued
  cases issued <;> rfl

end Node

namespace OperationIds

theorem advance_add (i j : Nat) (ids : OperationIds) :
    ids.advance (i + j) = (ids.advance i).advance j := by
  induction i generalizing ids with
  | zero => rw [Nat.zero_add, advance]
  | succ i ih => rw [Nat.succ_add, advance, ih, advance]

/-- The id that comes after `count` others, on the cycle that `first` is entered at. -/
def place (first : UInt16) (count : Nat) : UInt16 :=
  .ofNat ((max first.toNat 1 - 1 + count) % 65535 + 1)

@[simp] theorem toNat_place (first : UInt16) (count : Nat) :
    (place first count).toNat = (max first.toNat 1 - 1 + count) % 65535 + 1 :=
  Nat.mod_eq_of_lt (by omega)

theorem place_ne_zero (first : UInt16) (count : Nat) : place first count ≠ 0 := by
  intro zero
  have positive := toNat_place first count
  rw [zero] at positive
  cases positive

theorem place_inj_of_lt {first : UInt16} {i j : Nat} (same : place first i = place first j)
    (near : i < j + 65535) (near' : j < i + 65535) : i = j := by
  have same := congrArg UInt16.toNat same
  rw [toNat_place, toNat_place] at same
  omega

@[simp] theorem toNat_upcoming_startingAt (first : UInt16) :
    (startingAt first).upcoming.toNat = max first.toNat 1 := by
  unfold startingAt
  split
  · rename_i zero
    rw [zero]
    rfl
  · rename_i given
    have positive : first.toNat ≠ 0 := fun zero => given (UInt16.toNat_inj.mp zero)
    exact (Nat.max_eq_left (Nat.one_le_iff_ne_zero.mpr positive)).symm

@[simp] theorem advance_startingAt (first : UInt16) (count : Nat) :
    (startingAt first).advance count = ⟨place first count⟩ := by
  have entered := toNat_upcoming_startingAt first
  have drawn : (startingAt first).upcoming ≠ 0 := by
    intro zero
    rw [zero, UInt16.toNat_zero] at entered
    omega
  have upcoming : ((startingAt first).advance count).upcoming = place first count := by
    simp [← UInt16.toNat_inj, toNat_upcoming_advance drawn]
  rw [← upcoming]

theorem place_start (count : Nat) : place start.upcoming count = .ofNat (count % 65535 + 1) := by
  have first : max start.upcoming.toNat 1 - 1 = 0 := rfl
  rw [place, first, Nat.zero_add]

end OperationIds

namespace Node

open OperationIds

theorem requestId_eq (oneShot : Bool) (ids : OperationIds) :
    Message.requestId oneShot ids =
      (if oneShot then 0 else ids.upcoming, ids.advance (if oneShot then 0 else 1)) := by
  cases oneShot <;> rfl

@[simp] theorem ids_through (n : Node) (doings : List Doing) :
    (n.through doings).ids = n.ids.advance (Doing.wanted doings) := by
  induction doings generalizing n with
  | nil => rfl
  | cons d doings ih =>
    refine (ih (d.apply n)).trans ?_
    cases d with
    | errand e => rw [Doing.apply, ids_run, requestId_eq, Doing.wanted, advance_add]
    | move m silent => rw [Doing.apply, ids_apply n silent, Doing.wanted]

theorem drawn_eq (n : Node) (doings : List Doing) :
    n.drawn doings =
      (List.range (Doing.wanted doings)).map fun k => (n.ids.advance k).upcoming := by
  induction doings generalizing n with
  | nil => rfl
  | cons d doings ih =>
    cases d with
    | errand e =>
      rw [drawn, ih, ids_run, Doing.wanted]
      cases wanted : e.oneShot with
      | true => rw [if_pos rfl, if_pos rfl, Nat.zero_add]; rfl
      | false =>
        rw [if_neg Bool.false_ne_true, if_neg Bool.false_ne_true, Nat.add_comm, List.range_succ_eq_map,
          List.map_cons, List.map_map]
        rfl
    | move m silent => rw [drawn, ih, ids_apply n silent, Doing.wanted]

theorem nodup_window (first : UInt16) (count k : Nat) :
    ((((List.range count).map (place first)).drop k).take 65535).Nodup := by
  rw [← List.map_drop, ← List.map_take, List.range_eq_range', List.drop_range']
  have bounds {i : Nat} (h : i ∈ (List.range' (0 + k * 1) (count - k)).take 65535) :
      k ≤ i ∧ i < k + 65535 := by
    obtain ⟨place, near, rfl⟩ := List.mem_iff_getElem.mp h
    rw [List.getElem_take, List.getElem_range']
    rw [List.length_take] at near
    omega
  refine List.Nodup.map_on (fun i hi j hj same => ?_)
    (List.Sublist.nodup (List.take_sublist _ _) List.nodup_range')
  have low := bounds hi
  have high := bounds hj
  exact place_inj_of_lt same (by omega) (by omega)

def numberedFrom (n : Node) (first : UInt16) : Node :=
  { n with ids := .startingAt first }

/-- Every request that wants an answer is under the next place on the cycle, whatever comes of it;
so zero is not drawn, and no id is drawn twice within a whole cycle.  A request that wants no answer
is under zero, and takes no place. -/
theorem drawn_numberedFrom (n : Node) (first : UInt16) (doings : List Doing) :
    (n.numberedFrom first).drawn doings =
        (List.range (Doing.wanted doings)).map (place first) ∧
      (∀ id ∈ (n.numberedFrom first).drawn doings, id ≠ 0) ∧
      (∀ k, ((((n.numberedFrom first).drawn doings).drop k).take 65535).Nodup) ∧
      (∀ e : Errand, Issues ((n.numberedFrom first).through doings) e
        (if e.oneShot then 0 else place first (Doing.wanted doings))
        ⟨place first (Doing.wanted doings + if e.oneShot then 0 else 1)⟩
        (e.run ((n.numberedFrom first).through doings))) ∧
      ∀ config board link, (ofParts config board link).drawn doings =
        (List.range (Doing.wanted doings)).map fun k => .ofNat (k % 65535 + 1) := by
  have drawn : (n.numberedFrom first).drawn doings =
      (List.range (Doing.wanted doings)).map (place first) := by
    rw [drawn_eq]
    exact List.map_congr_left fun k _ => by simp [numberedFrom]
  refine ⟨drawn, fun id among => ?_, fun k => ?_, fun e => ?_, fun config board link => ?_⟩
  · rw [drawn] at among
    obtain ⟨k, -, rfl⟩ := List.mem_map.mp among
    exact place_ne_zero first k
  · rw [drawn]
    exact nodup_window first _ k
  · have issued := ((n.numberedFrom first).through doings).issues_run e
    rw [requestId_eq, ids_through, ← advance_add] at issued
    simp only [numberedFrom, advance_startingAt] at issued
    exact issued
  · rw [drawn_eq]
    refine List.map_congr_left fun k _ => ?_
    rw [← place_start]
    exact congrArg OperationIds.upcoming (advance_startingAt 1 k)

end Node

end CportNode
