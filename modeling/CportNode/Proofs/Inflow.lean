import CportNode.Proofs.Acts
import CportNode.Proofs.Serving
import CportNode.Proofs.Working

namespace CportNode

/-- What there is of a host's stream: the bytes that are not yet decoded, whether more can come, and
whether the node goes on reading. -/
structure Inflow where
  arrived : Bytes
  hostWrites : Bool
  live : Bool

def Inflow.cut (i : Inflow) : Inflow :=
  { i with arrived := [], live := false }

def Connection.inflow (c : Connection) : Inflow :=
  ⟨c.arrived, c.hostWrites, c.live⟩

namespace Link

def inflow? (l : Link) (x : Nat) : Option Inflow :=
  (l.connections[x]?).map Connection.inflow

@[simp] theorem inflow?_modify (l : SocketLink) (number : Nat) (change : Connection → Connection)
    (x : Nat) : (socket (l.modify number change)).inflow? x =
      if number = x then (l.connections[x]?).map fun c => (change c).inflow
      else (socket l).inflow? x := by
  simp only [inflow?, connections_socket, connections_modify]
  split
  · rw [Option.map_map]
    rfl
  · rfl

structure Spares (l l' : Link) : Prop where
  down : l.attached = false → l'.attached = false
  inflow : ∀ x, l'.inflow? x = l.inflow? x ∨
    (l'.attached = false ∧ l'.inflow? x = (l.inflow? x).map Inflow.cut)

namespace Spares

theorem of_same {l l' : Link} (attached : l'.attached = l.attached)
    (inflow : ∀ x, l'.inflow? x = l.inflow? x) : Spares l l' where
  down := attached.trans
  inflow x := .inl (inflow x)

theorem refl (l : Link) : Spares l l := .of_same rfl fun _ => rfl

theorem trans {l₁ l₂ l₃ : Link} (h : Spares l₁ l₂) (h' : Spares l₂ l₃) : Spares l₁ l₃ where
  down := h'.down ∘ h.down
  inflow x := by
    rcases h'.inflow x with same' | ⟨down', cut'⟩
    · rw [same']
      exact (h.inflow x).imp_right fun ⟨down, cut⟩ => ⟨h'.down down, cut⟩
    · refine .inr ⟨down', ?_⟩
      rcases h.inflow x with same | ⟨-, cut⟩
      · rw [cut', same]
      · rw [cut', cut, Option.map_map]
        rfl

end Spares

theorem spares_withListening (l : Link) (set : CportSet) : Spares l (l.withListening set) := by
  cases l <;> exact .of_same rfl fun _ => rfl

theorem spares_send {l l' : Link} {p : Packet} (h : l.send p = .ok l') : Spares l l' := by
  cases l with
  | memory l =>
    simp only [send, MemoryLink.send] at h
    split at h
    · cases h
    · cases h
      exact .of_same rfl fun _ => rfl
  | socket l =>
    simp only [send, SocketLink.send] at h
    split at h
    · cases h
    · split at h
      · cases h
        refine .of_same rfl fun x => ?_
        rw [inflow?_modify]
        split <;> rfl
      · cases h

theorem Sends.spares {l l' : Link} {packets : List Packet} (h : l.Sends packets l') :
    Spares l l' := by
  obtain ⟨set, sent⟩ := h
  refine (spares_withListening l set).trans ?_
  generalize l.withListening set = l at sent
  induction packets generalizing l with
  | nil =>
    cases sent
    exact .refl _
  | cons p packets ih =>
    rw [List.foldlM_cons] at sent
    cases first : l.send p with
    | error e =>
      rw [first] at sent
      cases sent
    | ok next =>
      rw [first] at sent
      exact (spares_send first).trans (ih next sent)

theorem spares_detach (l : Link) : Spares l l.detach := by
  cases l with
  | memory l => exact ⟨fun _ => rfl, fun _ => .inl rfl⟩
  | socket l =>
    refine ⟨fun _ => rfl, fun x => ?_⟩
    have same : (socket l).detach.inflow? x = (socket l.dropCurrent).inflow? x := rfl
    rw [same, SocketLink.dropCurrent]
    split
    · rw [inflow?_modify]
      split
      · refine .inr ⟨rfl, ?_⟩
        rw [inflow?, Option.map_map]
        rfl
      · exact .inl rfl
    · exact .inl rfl

end Link

namespace Node

structure Spares (n n' : Node) : Prop where
  discarded : n'.discarded = n.discarded
  running : n.running = true → n'.running = true ∨ n'.link.attached = false
  link : Link.Spares n.link n'.link

namespace Spares

theorem of_link {n n' : Node} (discarded : n'.discarded = n.discarded)
    (running : n'.running = n.running) (link : Link.Spares n.link n'.link) : Spares n n' :=
  ⟨discarded, fun up => .inl (running.trans up), link⟩

theorem of_same {n n' : Node} (discarded : n'.discarded = n.discarded)
    (running : n'.running = n.running) (link : n'.link = n.link) : Spares n n' :=
  .of_link discarded running (link ▸ .refl _)

theorem refl (n : Node) : Spares n n := .of_same rfl rfl rfl

theorem trans {n₁ n₂ n₃ : Node} (h : Spares n₁ n₂) (h' : Spares n₂ n₃) : Spares n₁ n₃ where
  discarded := h'.discarded.trans h.discarded
  running up := (h.running up).elim h'.running (.inr ∘ h'.link.down)
  link := h.link.trans h'.link

end Spares

theorem spares_mute (n : Node) (c : UInt16) : Spares n (n.mute c) := by
  unfold mute
  split
  · rename_i stopped
    exact .of_link rfl rfl (Link.sends_stopListening stopped).spares
  · exact .refl n

theorem spares_keptByTurnover : KeptByTurnover Spares where
  refl := .refl
  trans := .trans
  exit _ _ := .of_same rfl rfl rfl
  outlet _ _ := .of_same rfl rfl rfl
  board _ _ _ := .of_same rfl rfl rfl
  init _ _ := .of_same rfl rfl rfl
  mute := spares_mute
  modifySlot _ _ _ := .of_same rfl rfl rfl

theorem spares_shutDownWithin (n : Node) : Spares n n.shutDownWithin := by
  unfold shutDownWithin
  split
  · have unbound := spares_keptByTurnover.foldl spares_keptByTurnover.unregister
      n.registry.boundCports { n with running := false }
    have down : n.halt.link.detach.attached = false := by
      cases n.halt.link <;> rfl
    exact ⟨unbound.discarded, fun _ => .inr down,
      Link.Spares.trans unbound.link (Link.spares_detach n.halt.link)⟩
  · exact .refl n

theorem spares_answer {n n' : Node} {p : Packet} {reaction : Reaction}
    (answered : n.answer p reaction = .ok n') : Spares n n' := by
  have replied : Link.Spares n.link n'.link := by
    cases reaction with
    | quiet =>
      cases answered
      exact .refl _
    | refused status =>
      simp only [answer] at answered
      exact (sends_respond answered).spares
    | done payload =>
      simp only [answer] at answered
      split at answered
      · exact (sends_respond answered).spares
      · exact (sends_respond answered).spares
  obtain ⟨link, rfl⟩ := answer_ok answered
  exact .of_link rfl rfl replied

theorem spares_carryOut (n : Node) (c : UInt16) (d : Driver) (kind : UInt8) (body : Bytes) :
    Spares n (n.carryOut c d kind body).2 := by
  have link := (n.sends_carryOut c d kind body).spares
  obtain ⟨registry, board, link', calls, carried, -⟩ := n.carryOut_eq c d kind body
  rw [carried] at link ⊢
  exact .of_link rfl rfl link

theorem spares_keptByMoves : KeptByMoves Spares where
  toKeptByTurnover := spares_keptByTurnover
  called _ _ _ := .of_same rfl rfl rfl
  queues _ _ _ _ _ _ := .of_same rfl rfl rfl
  listen listened := by
    have link := (sends_listen listened).spares
    obtain ⟨link', rfl⟩ := listen_ok listened
    exact .of_link rfl rfl link
  stopListening stopped := by
    have link := (sends_stopListening stopped).spares
    obtain ⟨link', rfl⟩ := stopListening_ok stopped
    exact .of_link rfl rfl link
  carryOut := spares_carryOut
  answer := spares_answer
  shutDownWithin := spares_shutDownWithin

theorem spares_apply (n : Node) {m : Move} (inner : m.inner = true) (whole : m ≠ .stop) :
    Spares n (m.apply n) := by
  refine spares_keptByMoves.apply n fun outer => ?_
  cases m with
  | stop => exact absurd rfl whole
  | close => exact .of_same rfl rfl rfl
  | outside _ _ _ => cases inner
  | _ => cases outer

end Node

def Reading.packet? : Reading → Option Packet
  | .packet p => some p
  | _ => none

namespace Link

open Packet (decode)

inductive Found (left : Bytes) (hostWrites : Bool) : Reading → Inflow → Prop
  | packet {p : Packet} {rest : Bytes} : decode Message.maxSize left = .ok (some (p, rest)) →
      Found left hostWrites (.packet p) ⟨rest, hostWrites, true⟩
  | refused {e : MessageError} : decode Message.maxSize left = .error e →
      Found left hostWrites .ended ⟨[], hostWrites, false⟩
  | finished : decode Message.maxSize left = .ok none → hostWrites = false →
      Found left hostWrites .ended ⟨[], hostWrites, false⟩
  | waits : decode Message.maxSize left = .ok none → hostWrites = true →
      Found left hostWrites .nothing ⟨left, hostWrites, true⟩

theorem served_iff {l : Link} {x : Nat} : l.served? = some x ↔
    l.attached = true ∧ (∃ i, l.inflow? x = some i ∧ i.live = true) ∧ ∀ y < x, l.GivenUp y := by
  constructor
  · intro served
    obtain ⟨kept, earlier⟩ := served_some served
    cases l with
    | memory l => cases served
    | socket l =>
      obtain ⟨⟨c, _⟩, current, rfl⟩ := Option.map_eq_some_iff.mp served
      have connected := current?_some current
      refine ⟨?_, ⟨c.inflow, by rw [inflow?, connections_socket, connected]; rfl, ?_⟩, earlier⟩
      · unfold SocketLink.current? at current
        split at current
        · assumption
        · cases current
      · exact (Bool.eq_false_or_eq_true c.live).resolve_right fun dead => kept ⟨c, connected, dead⟩
  · rintro ⟨up, ⟨i, found, live⟩, earlier⟩
    obtain ⟨c, connected, rfl⟩ := Option.map_eq_some_iff.mp found
    cases l with
    | memory l => cases connected
    | socket l =>
      have up : l.attached = true := up
      rw [connections_socket] at connected
      obtain ⟨inRange, here⟩ := List.getElem?_eq_some_iff.mp connected
      have current : l.current? = some (c, x) := by
        rw [SocketLink.current?, if_pos up, List.find?_eq_some_iff_getElem]
        refine ⟨live, x, by rwa [List.length_zipIdx], ?_, fun y before => ?_⟩
        · rw [List.getElem_zipIdx, Nat.zero_add, here]
        · obtain ⟨c', connected', dead⟩ := earlier y before
          rw [connections_socket] at connected'
          obtain ⟨_, here'⟩ := List.getElem?_eq_some_iff.mp connected'
          rw [List.getElem_zipIdx, here', dead]
          rfl
      rw [served?, current]
      rfl

end Link

namespace Link

end Link

end CportNode
