import CportNode.Proofs.Chunking
import CportNode.Proofs.Grammar
import CportNode.Proofs.Inflow
import CportNode.Proofs.Sessions

namespace CportNode

def Act.stops : Act → Bool
  | .node .stop _ => true
  | _ => false

/-- What can happen next around a socket: an act, by anybody who does not begin to take the node
down; a change of what is listened on; something is sent. -/
inductive SocketAct
  | act (a : Act) (going : a.stops = false)
  | tune (listening : CportSet)
  | send (p : Packet)

namespace SocketAct

def serve : SocketAct :=
  .act .serve rfl

end SocketAct

namespace Node

def movesOn (n : Node) : SocketAct → List Move
  | .act a _ => n.movesOf a
  | .tune set => [.outside id (Link.withListening set) id]
  | .send p => [.outside id (fun l => (l.send p).toOption.getD l) id]

def perform (n : Node) (a : SocketAct) : Node :=
  n.after (n.movesOn a)

def performAll (n : Node) (acts : List SocketAct) : Node :=
  acts.foldl perform n

def observe {α : Type} (look : Node → SocketAct → List α) (n : Node) : List SocketAct → List α
  | [] => []
  | a :: acts => look n a ++ (n.perform a).observe look acts

@[simp] theorem performAll_concat (n : Node) (acts : List SocketAct) (a : SocketAct) :
    n.performAll (acts ++ [a]) = (n.performAll acts).perform a := by
  rw [performAll, List.foldl_concat]
  rfl

@[simp] theorem observe_concat {α : Type} (look : Node → SocketAct → List α) (n : Node)
    (acts : List SocketAct) (a : SocketAct) :
    n.observe look (acts ++ [a]) = n.observe look acts ++ look (n.performAll acts) a := by
  induction acts generalizing n with
  | nil => exact List.append_nil _
  | cons first acts ih =>
    rw [List.cons_append, observe, ih, observe, List.append_assoc]
    rfl

section

variable (x : Nat)

def written (n : Node) : SocketAct → Bytes
  | .act (.host (.write number data)) _ =>
    if number = x ∧ ((n.connection? x).bind (·.write data)).isSome then data else []
  | _ => []

/-- What the node reads, and what is listened on then. -/
def readings (n : Node) : SocketAct → List (Packet × CportSet)
  | .act .serve _ =>
    if n.link.served? = some x then n.readHost.1.packet?.toList.map (·, n.link.listening) else []
  | _ => []

/-- What the sink is offered, and what it has to say to it. -/
def offers (n : Node) (a : SocketAct) : List (Packet × Except LinkError Receipt) :=
  if n.link.served? = some x then
    (n.movesOn a).filterMap fun
      | .receive p => some (p, (n.deliver p).1)
      | _ => none
  else []

end

inductive Performs (n : Node) (x : Nat) : SocketAct → Prop
  | host (a : HostAct) (going : (Act.host a).stops = false) : Performs n x (.act (.host a) going)
  | serve : Performs n x .serve
  | aside {a : SocketAct} : Spares n (n.perform a) → n.written x a = [] → n.readings x a = [] →
      n.offers x a = [] → Performs n x a

theorem performs (n : Node) (x : Nat) (a : SocketAct) : n.Performs x a := by
  have silent {m : Move} (inner : m.inner = true) : ([m].filterMap fun
      | .receive p => some (p, (n.deliver p).1)
      | _ => none) = [] := by
    cases m <;> first | rfl | cases inner
  cases a with
  | act a going =>
    cases a with
    | host a => exact .host a going
    | serve => exact .serve
    | board change => exact .aside (.of_same rfl rfl rfl) rfl rfl (ite_self _)
    | node m inner =>
      refine .aside (n.spares_apply inner ?_) rfl rfl ?_
      · rintro rfl
        cases going
      · unfold offers
        split
        · exact silent inner
        · rfl
  | tune set =>
    exact .aside (.of_link rfl rfl (Link.spares_withListening _ set)) rfl rfl (ite_self _)
  | send p =>
    refine .aside (.of_link rfl rfl ?_) rfl rfl (ite_self _)
    show Link.Spares n.link ((n.link.send p).toOption.getD n.link)
    cases sent : n.link.send p with
    | error e => exact .refl _
    | ok l => exact Link.spares_send sent

end Node

namespace Node

end Node

namespace Packet.Steps

variable {limit : Nat} {buffer left : Bytes} {packets : List Packet}

theorem append (h : Steps limit buffer packets left) (more : Bytes) :
    Steps limit (buffer ++ more) packets (left ++ more) := by
  induction h with
  | none => exact .none _
  | more first _ ih => exact .more (decode_append first more) ih

theorem concat {p : Packet} {rest : Bytes} (h : Steps limit buffer packets left)
    (last : decode limit left = .ok (some (p, rest))) :
    Steps limit buffer (packets ++ [p]) rest := by
  induction h with
  | none => exact .more last (.none _)
  | more first _ ih => exact .more first (ih last)

end Packet.Steps

open Packet (Steps decodeAll)

/-- How far a stream has been read, `written` being all there was of it and `packets` what was read.
What is not read on has been read to the end, unless the link has gone down. -/
inductive Progress (up : Bool) (written : Bytes) (packets : List Packet) : Option Inflow → Prop
  | unmade : written = [] → packets = [] → Progress up written packets none
  | live {left : Bytes} {hostWrites : Bool} : Steps Message.maxSize written packets left →
      Progress up written packets (some ⟨left, hostWrites, true⟩)
  | ended {arrived : Bytes} {hostWrites : Bool} :
      packets = (decodeAll Message.maxSize written).1 →
      ((decodeAll Message.maxSize written).2.1 = .incomplete → hostWrites = false) →
      Progress up written packets (some ⟨arrived, hostWrites, false⟩)
  | brokenOff {left arrived : Bytes} {hostWrites : Bool} : up = false →
      Steps Message.maxSize written packets left →
      Progress up written packets (some ⟨arrived, hostWrites, false⟩)

namespace Progress

variable {up : Bool} {written : Bytes} {packets : List Packet} {i : Option Inflow}

theorem steps (h : Progress up written packets i) :
    ∃ left, Steps Message.maxSize written packets left := by
  cases h with
  | unmade nothing none =>
    subst nothing none
    exact ⟨[], .none _⟩
  | live steps => exact ⟨_, steps⟩
  | ended all _ =>
    subst all
    exact ⟨_, Packet.steps_decodeAll _ _⟩
  | brokenOff _ steps => exact ⟨_, steps⟩

theorem spared {l l' : Link} {x : Nat} (h : Progress l.attached written packets (l.inflow? x))
    (spares : l.Spares l') : Progress l'.attached written packets (l'.inflow? x) := by
  rcases spares.inflow x with same | ⟨down, cut⟩
  · rw [same]
    generalize l.inflow? x = i at h
    cases h with
    | unmade nothing none => exact .unmade nothing none
    | live steps => exact .live steps
    | ended all finished => exact .ended all finished
    | brokenOff down steps => exact .brokenOff (spares.down down) steps
  · rw [cut]
    generalize l.inflow? x = i at h
    cases h with
    | unmade nothing none => exact .unmade nothing none
    | live steps => exact .brokenOff down steps
    | ended all finished => exact .ended all finished
    | brokenOff _ steps => exact .brokenOff down steps

theorem found {left : Bytes} {hostWrites : Bool} {reading : Reading} {i : Inflow}
    (h : Progress up written packets (some ⟨left, hostWrites, true⟩))
    (found : Link.Found left hostWrites reading i) :
    Progress up written (packets ++ reading.packet?.toList) (some i) := by
  cases h with
  | live steps =>
    have all := steps.decodeAll_eq
    cases found with
    | packet out => exact .live (steps.concat out)
    | refused out =>
      rw [Packet.decodeAll_of_error out] at all
      exact .ended (by rw [all]; rfl) fun incomplete => by rw [all] at incomplete; cases incomplete
    | finished out finished =>
      rw [Packet.decodeAll_of_none out] at all
      exact .ended (by rw [all]; rfl) fun _ => finished
    | waits out writes =>
      show Progress up written (packets ++ []) _
      rw [List.append_nil]
      exact .live steps

end Progress

def Reading.next (written : Bytes) (count : Nat) (hostWrites : Bool) : Reading :=
  match (decodeAll Message.maxSize written).1[count]?, (decodeAll Message.maxSize written).2.1 with
  | some p, _ => .packet p
  | none, .refused _ => .ended
  | none, .incomplete => if hostWrites then .nothing else .ended

theorem Progress.all {written : Bytes} {packets : List Packet} {i : Inflow}
    (h : Progress true written packets (some i)) (dead : i.live = false) :
    packets = (decodeAll Message.maxSize written).1 ∧
      ((decodeAll Message.maxSize written).2.1 = .incomplete → i.hostWrites = false) := by
  generalize up : true = attached at h
  cases h with
  | live steps => cases dead
  | ended all finished => exact ⟨all, finished⟩
  | brokenOff down steps => cases up.trans down

@[simp] theorem SocketLink.attached_read (l : SocketLink) : l.read.2.attached = l.attached := by
  have dropped : l.dropCurrent.attached = l.attached := by
    unfold dropCurrent
    split <;> rfl
  unfold read
  split
  · rfl
  · split
    · exact dropped
    · split
      · rfl
      · exact dropped
    · rfl

namespace Node

structure Tended (n : Node) : Prop where
  present : n.discarded = false
  running : n.link.attached = true → n.running = true

variable {n : Node} {x : Nat}

theorem Tended.spared {n' : Node} (h : n.Tended) (spares : n.Spares n') : n'.Tended where
  present := spares.discarded.trans h.present
  running up := by
    have before : n.link.attached = true := by
      by_contra down
      exact absurd (spares.link.down (Bool.not_eq_true _ ▸ down)) (by rw [up]; decide)
    exact (spares.running (h.running before)).resolve_right (by rw [up]; decide)

theorem perform_serve (n : Node) :
    (n.perform .serve).link = n.link.onSocket (fun l => l.read.2) ∧
      (n.perform .serve).running = n.running ∧ (n.perform .serve).discarded = n.discarded := by
  have offered (n : Node) (p : Packet) : (n.offer p).link = n.link ∧
      (n.offer p).running = n.running ∧ (n.offer p).discarded = n.discarded := by
    rw [offer_eq]
    split
    · have received := n.received_receive p
      generalize n.receive p = outcome at received
      cases received <;> exact ⟨rfl, rfl, rfl⟩
    · exact ⟨rfl, rfl, rfl⟩
  have read := n.readHost_snd
  have served : n.perform .serve = _ := n.after_serving
  rw [served]
  generalize n.readHost = found at read
  obtain ⟨reading, n'⟩ := found
  simp only at read
  subst read
  cases reading with
  | packet p => exact offered _ p
  | _ => exact ⟨rfl, rfl, rfl⟩

@[simp] theorem attached_serve (n : Node) : (n.perform .serve).link.attached = n.link.attached := by
  rw [n.perform_serve.1]
  cases n.link with
  | memory l => rfl
  | socket l => exact l.attached_read

theorem Tended.perform (h : n.Tended) (a : SocketAct) : (n.perform a).Tended := by
  cases n.performs 0 a with
  | host a going =>
    refine ⟨h.present, fun up => h.running ?_⟩
    have link : (n.perform (.act (.host a) going)).link = n.link.onSocket a.apply := rfl
    rw [link] at up
    cases socket : n.link with
    | memory l =>
      rw [socket] at up
      exact up
    | socket l =>
      rw [socket] at up
      cases a <;> exact up
  | serve =>
    obtain ⟨-, running, discarded⟩ := n.perform_serve
    exact ⟨discarded.trans h.present, fun up => running.trans (h.running (n.attached_serve ▸ up))⟩
  | aside spares => exact h.spared spares

theorem offers_eq (h : n.Tended) (a : SocketAct) :
    (n.offers x a).map Prod.fst =
      ((n.readings x a).filter fun r => decide (r.1.cport ∈ r.2)).map Prod.fst := by
  cases n.performs x a with
  | host a going =>
    have nothing : n.offers x (.act (.host a) going) = [] := ite_self _
    rw [nothing]
    rfl
  | serve =>
    have seen : n.readings x .serve = if n.link.served? = some x then
        n.readHost.1.packet?.toList.map (·, n.link.listening) else [] := rfl
    have moves : n.movesOn .serve = n.serving := rfl
    rw [seen, offers, moves]
    by_cases served : n.link.served? = some x
    · rw [if_pos served, if_pos served, serving]
      have running := h.running (Link.served_iff.mp served).1
      cases n.readHost.1 with
      | packet p =>
        by_cases listens : p.cport ∈ n.link.listening
        · simp [Reading.packet?, running, h.present, listens]
        · simp [Reading.packet?, listens]
      | _ => rfl
    · rw [if_neg served, if_neg served]
      rfl
  | aside spares written readings offers =>
    rw [offers, readings]
    rfl

end Node

namespace Node

theorem inflow?_eq_some_iff {n : Node} {x : Nat} {i : Inflow} :
    n.link.inflow? x = some i ↔ ∃ c, n.connection? x = some c ∧ c.inflow = i := by
  have same : n.connection? x = n.link.connections[x]? := by
    unfold connection?
    cases n.link <;> rfl
  rw [same, Link.inflow?, Option.map_eq_some_iff]

theorem served_iff {n : Node} {x : Nat} :
    n.link.served? = some x ↔ n.link.attached = true ∧
      (∃ c, n.connection? x = some c ∧ c.live = true) ∧ ∀ y < x, n.link.GivenUp y := by
  rw [Link.served_iff]
  refine and_congr_right fun _ => and_congr_left fun _ => ?_
  constructor
  · rintro ⟨i, found, live⟩
    obtain ⟨c, here, rfl⟩ := inflow?_eq_some_iff.mp found
    exact ⟨c, here, live⟩
  · rintro ⟨c, here, live⟩
    exact ⟨c.inflow, inflow?_eq_some_iff.mpr ⟨c, here, rfl⟩, live⟩

example :
    let packet (cport id : UInt16) : Packet := ⟨cport, ⟨id, 0x02, 0, []⟩⟩
    let acts : List SocketAct := [.act (.node (.register 0 1 .loopback) rfl) rfl,
      .tune (CportSet.empty.insert 0), .act (.host .connect) rfl, .act (.host .connect) rfl,
      .act (.host (.write 0 ((packet 0 1).encode ++ (packet 5 2).encode))) rfl, .serve, .serve,
      .act (.node .close rfl) rfl,
      .act (.host (.write 0 ((packet 0 3).encode ++ [9, 0, 1]))) rfl,
      .act (.host (.finish 0)) rfl, .serve, .serve,
      .act (.host (.write 1 (packet 0 4).encode)) rfl, .serve]
    let start := ofParts .smallest .fresh (.socket ⟨true, .empty, []⟩)
    start.observe (offers 0) acts = [(packet 0 1, .ok .accepted), (packet 0 3, .error .shutdown)] ∧
      start.observe (offers 1) acts = [(packet 0 4, .error .shutdown)] := ⟨rfl, rfl⟩

end Node

end CportNode
