import CportNode.Host.Session
import CportNode.Proofs.ShutDown

namespace CportNode

inductive HostAct
  | connect
  | write (number : Nat) (data : Bytes)
  | finish (number : Nat)
  | leave (number : Nat)
  | collect (number count : Nat)

namespace HostAct

def apply : HostAct → SocketLink → SocketLink
  | connect, l => l.connect.2
  | write number data, l => l.modify number fun c => (c.write data).getD c
  | finish number, l => l.modify number ({ · with hostWrites := false })
  | leave number, l => l.modify number ({ · with hostWrites := false, hostReads := false })
  | collect number count, l => l.modify number fun c => { c with outgoing := c.outgoing.drop count }

end HostAct

namespace Link

def onSocket (change : SocketLink → SocketLink) : Link → Link
  | memory l => memory l
  | socket l => socket (change l)

end Link

def Move.inner : Move → Bool
  | .receive _ => false
  | .outside _ _ _ => false
  | _ => true

/-- What can happen next: a host acts, the node takes what it can off the connection being served,
its peripherals change, or it moves by itself. -/
inductive Act
  | host (a : HostAct)
  | serve
  | board (change : Board → Board)
  | node (m : Move) (inner : m.inner = true)

namespace Node

def serving (n : Node) : List Move :=
  (match n.readHost.1 with
    | .packet p =>
      if n.running ∧ p.cport ∈ n.link.listening ∧ n.discarded = false then [.receive p] else []
    | _ => []) ++ [.outside id (Link.onSocket fun l => l.read.2) id]

def movesOf (n : Node) : Act → List Move
  | .host a => [.outside id (Link.onSocket a.apply) id]
  | .serve => n.serving
  | .board change => [.outside change id id]
  | .node m _ => [m]

def spell (n : Node) : List Act → List Move
  | [] => []
  | a :: acts => n.movesOf a ++ (n.after (n.movesOf a)).spell acts

theorem spell_append (n : Node) (acts acts' : List Act) :
    n.spell (acts ++ acts') = n.spell acts ++ (n.after (n.spell acts)).spell acts' := by
  induction acts generalizing n with
  | nil => rfl
  | cons a acts ih =>
    rw [List.cons_append, spell, ih, spell, List.append_assoc, ← after_append]

def Reaches (n n' : Node) : Prop :=
  ∃ acts, n.after (n.spell acts) = n'

namespace Reaches

theorem refl (n : Node) : Reaches n n := ⟨[], rfl⟩

theorem trans {n₁ n₂ n₃ : Node} (h : Reaches n₁ n₂) (h' : Reaches n₂ n₃) : Reaches n₁ n₃ := by
  obtain ⟨acts, rfl⟩ := h
  obtain ⟨acts', rfl⟩ := h'
  exact ⟨acts ++ acts', by simp [spell_append]⟩

theorem act (n : Node) (a : Act) : Reaches n (n.after (n.movesOf a)) :=
  ⟨[a], by rw [spell, spell, List.append_nil]⟩

theorem move (n : Node) {m : Move} (inner : m.inner = true) : Reaches n (m.apply n) :=
  .act n (.node m inner)

theorem host (n : Node) (a : HostAct) : Reaches n (n.modifySocket a.apply) := by
  have reached := Reaches.act n (.host a)
  unfold modifySocket
  cases link : n.link with
  | memory l =>
    have same : n.after (n.movesOf (.host a)) = n := by
      show { n with link := n.link.onSocket a.apply } = n
      rw [link]
      rw [Link.onSocket, ← link]
    rwa [same] at reached
  | socket l =>
    have same : n.after (n.movesOf (.host a)) = { n with link := .socket (a.apply l) } := by
      show { n with link := n.link.onSocket a.apply } = _
      rw [link, Link.onSocket]
    rwa [same] at reached

end Reaches

theorem readHost_snd (n : Node) :
    n.readHost.2 = { n with link := n.link.onSocket fun l => l.read.2 } := by
  unfold readHost
  cases link : n.link with
  | memory l =>
    simp only [Link.onSocket]
    rw [← link]
  | socket l => rfl

@[simp] theorem listening_read (l : SocketLink) : l.read.2.listening = l.listening := by
  have dropped : l.dropCurrent.listening = l.listening := by
    unfold SocketLink.dropCurrent
    split <;> rfl
  unfold SocketLink.read
  split
  · rfl
  · split
    · exact dropped
    · split
      · rfl
      · exact dropped
    · rfl

@[simp] theorem link_receive (n : Node) (p : Packet) : (n.receive p).2.link = n.link := by
  have received := n.received_receive p
  generalize n.receive p = outcome at received
  cases received <;> rfl

theorem receive_relinked (n : Node) (link : Link) (p : Packet) :
    ({ n with link }.receive p).2 = { (n.receive p).2 with link } := by
  cases required : n.registry.requireBound p.cport with
  | error e => cases e <;> simp only [receive, required, count]
  | ok d =>
    by_cases accepting : n.accepting = true
    · by_cases room : n.queue.length < n.config.queueCapacity
      · simp [receive, hasRoom, required, accepting, room, enqueue, count]
      · simp [receive, hasRoom, required, accepting, room]
    · simp [receive, required, accepting]

theorem offer_eq (n : Node) (p : Packet) : n.offer p =
    if n.running ∧ p.cport ∈ n.link.listening ∧ n.discarded = false then (n.receive p).2 else n := by
  have delivered (owned : n.discarded = false) : (n.deliver p).2 = (n.receive p).2 := by
    unfold deliver
    rw [if_neg (by simp [owned])]
    generalize n.receive p = outcome
    obtain ⟨receipt, n'⟩ := outcome
    cases receipt with
    | refused e => cases e <;> rfl
    | _ => rfl
  unfold offer
  by_cases listens : n.running = true ∧ p.cport ∈ n.link.listening
  · rw [if_pos listens]
    cases owned : n.discarded with
    | false => rw [if_pos ⟨listens.1, listens.2, rfl⟩, delivered owned]
    | true =>
      rw [if_neg (by simp), deliver, if_pos owned]
  · rw [if_neg listens, if_neg fun h => listens ⟨h.1, h.2.1⟩]

theorem after_serving (n : Node) : n.after n.serving = match n.readHost with
    | (.packet p, n') => n'.offer p
    | (_, n') => n' := by
  have read := n.readHost_snd
  have listening : (n.link.onSocket fun l => l.read.2).listening = n.link.listening := by
    cases n.link with
    | memory l => rfl
    | socket l => exact listening_read l
  unfold serving
  generalize n.readHost = found at read
  obtain ⟨reading, n'⟩ := found
  simp only at read
  subst read
  cases reading with
  | packet p =>
    simp only [offer_eq, listening]
    split
    · rw [receive_relinked, ← n.link_receive p]
      rfl
    · rfl
  | _ => rfl

theorem reaches_readHost (n : Node) : Reaches n (match n.readHost with
    | (.packet p, n') => n'.offer p
    | (_, n') => n') := by
  rw [← after_serving]
  exact Reaches.act n .serve

theorem reaches_makeRoom (n : Node) : Reaches n n.makeRoom := by
  unfold makeRoom
  split
  · exact .refl n
  · exact .move n (m := .work (some 0)) rfl

theorem reaches_settle (n : Node) : Reaches n n.settle := by
  have repeated (k : Nat) : Reaches n (Nat.repeat (fun n => (n.letIn 0).work) k n) := by
    induction k with
    | zero => exact .refl n
    | succ k ih =>
      exact (ih.trans (.move _ (m := .letIn 0) rfl)).trans (.move _ (m := .work (some 0)) rfl)
  exact repeated _

theorem reaches_serveAtMost (most : Nat) (n : Node) : Reaches n (n.serveAtMost most) := by
  induction most generalizing n with
  | zero => exact .refl n
  | succ most ih =>
    have read := n.reaches_readHost
    unfold serveAtMost
    split
    · rename_i h
      rw [h] at read
      exact read
    · rename_i h
      rw [h] at read
      exact read.trans (ih _)
    · rename_i h
      rw [h] at read
      exact (read.trans (reaches_makeRoom _)).trans (ih _)

theorem reaches_serveHosts (n : Node) : Reaches n n.serveHosts := by
  unfold serveHosts
  split
  · exact (reaches_serveAtMost _ n).trans (reaches_settle _)
  · exact .refl n

end Node

namespace Session

open Node (Reaches)

theorem reaches_connect (n : Node) : Reaches n (connect n).2 := by
  have reached := Reaches.host n .connect
  unfold Node.modifySocket at reached
  unfold connect
  split
  · rename_i link
    rw [link] at reached
    exact reached
  · exact .refl n

theorem reaches_modify (s : Session) (n : Node) {change : Connection → Connection}
    (a : Nat → HostAct) (h : ∀ number l, (a number).apply l = l.modify number change) :
    Reaches n (s.modify n change) := by
  unfold modify
  split
  · rename_i number _
    have reached := Reaches.host n (a number)
    rwa [funext (h number)] at reached
  · exact .refl n

theorem reaches_finish (s : Session) (n : Node) : Reaches n (s.finish n) :=
  (s.reaches_modify n .finish fun _ _ => rfl).trans (Node.reaches_serveHosts _)

theorem reaches_leave (s : Session) (n : Node) : Reaches n (s.leave n) :=
  (s.reaches_modify n .leave fun _ _ => rfl).trans (Node.reaches_serveHosts _)

theorem reaches_write (s : Session) (n : Node) (data : Bytes) : Reaches n (s.write n data).2 := by
  unfold write
  split
  · exact .refl n
  · rename_i c written
    obtain ⟨before, found, written⟩ := Option.bind_eq_some_iff.mp written
    obtain ⟨number, connected, found⟩ := Option.bind_eq_some_iff.mp found
    have modified : Reaches n (s.modify n fun _ => c) := by
      have reached := Reaches.host n (.write number data)
      have same : n.modifySocket (HostAct.apply (.write number data)) = s.modify n fun _ => c := by
        unfold modify Node.modifySocket
        rw [connected]
        unfold Node.connection? at found
        cases link : n.link with
        | memory l => rfl
        | socket l =>
          rw [link] at found
          have found : l.connections[number]? = some before := found
          have same : l.connections.modify number (fun c => (c.write data).getD c) =
              l.connections.modify number fun _ => c := by
            refine List.ext_getElem? fun x => ?_
            simp only [List.getElem?_modify]
            by_cases here : number = x
            · subst here
              simp [found, written]
            · simp only [if_neg here]
          simp only [HostAct.apply, SocketLink.modify, same]
      rwa [same] at reached
    have served := modified.trans (Node.reaches_serveHosts _)
    simp only
    split
    · exact served
    · exact served

end Session

end CportNode
