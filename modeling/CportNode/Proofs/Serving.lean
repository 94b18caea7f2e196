import CportNode.Proofs.Answer
import CportNode.Proofs.Moves
import CportNode.Proofs.Refusal

namespace CportNode

namespace Link

def connections : Link → List Connection
  | memory _ => []
  | socket l => l.connections

@[simp] theorem connections_socket (l : SocketLink) : (socket l).connections = l.connections := rfl

def served? : Link → Option Nat
  | memory _ => none
  | socket l => l.current?.map Prod.snd

def outgoing (l : Link) (number : Nat) : Bytes :=
  (l.connections[number]?).elim [] (·.outgoing)

def GivenUp (l : Link) (number : Nat) : Prop :=
  ∃ c, l.connections[number]? = some c ∧ c.live = false

theorem served_some {l : Link} {number : Nat} (h : l.served? = some number) :
    ¬l.GivenUp number ∧ ∀ earlier < number, l.GivenUp earlier := by
  cases l with
  | memory l => cases h
  | socket l =>
    obtain ⟨⟨c, _⟩, current, rfl⟩ := Option.map_eq_some_iff.mp h
    have some := current?_some current
    unfold SocketLink.current? at current
    split at current
    · obtain ⟨live, place, inRange, found, earlier⟩ := List.find?_eq_some_iff_getElem.mp current
      rw [List.getElem_zipIdx, Nat.zero_add] at found
      cases found
      refine ⟨fun ⟨c, same, dead⟩ => ?_, fun y before => ⟨_, List.getElem?_eq_getElem ?_, ?_⟩⟩
      · rw [connections_socket, some] at same
        cases same
        rw [live] at dead
        cases dead
      · rw [List.length_zipIdx] at inRange
        exact Nat.lt_trans before inRange
      · have := earlier y before
        rw [List.getElem_zipIdx, Bool.not_eq_true'] at this
        exact this
    · cases current

/-- Nothing was written, though hosts may have read.  No connection has come back. -/
structure Unwritten (l l' : Link) : Prop where
  outgoing : ∀ x, l'.outgoing x <:+ l.outgoing x
  givenUp : ∀ x, l.GivenUp x → l'.GivenUp x

structure Quiet (l l' : Link) : Prop where
  outgoing : ∀ x, l'.outgoing x = l.outgoing x
  givenUp : ∀ x, l.GivenUp x → l'.GivenUp x
  served : ∀ x, l'.served? = some x → l.served? = some x

inductive Replied (p : Packet) (l l' : Link) : Prop
  | silent : Quiet l l' → Replied p l l'
  | answered {x : Nat} {status : Status} {payload : Bytes} {r : Packet} :
      Node.answers p status payload = [r] → l.served? = some x →
      l'.outgoing x = l.outgoing x ++ r.encode → (∀ y, y ≠ x → l'.outgoing y = l.outgoing y) →
      (∀ y, l.GivenUp y → l'.GivenUp y) → Replied p l l'

theorem Quiet.refl (l : Link) : Quiet l l := ⟨fun _ => rfl, fun _ => id, fun _ => id⟩

theorem Quiet.of_eq {l l' : Link} (h : l' = l) : Quiet l l' := h ▸ .refl l

theorem Quiet.trans {l₁ l₂ l₃ : Link} (h : Quiet l₁ l₂) (h' : Quiet l₂ l₃) : Quiet l₁ l₃ where
  outgoing x := (h'.outgoing x).trans (h.outgoing x)
  givenUp x := h'.givenUp x ∘ h.givenUp x
  served x := h.served x ∘ h'.served x

theorem Quiet.unwritten {l l' : Link} (h : Quiet l l') : Unwritten l l' where
  outgoing x := h.outgoing x ▸ List.suffix_refl _
  givenUp := h.givenUp

theorem Quiet.replied {p : Packet} {l₁ l₂ l₃ : Link} (h : Quiet l₁ l₂) (h' : Replied p l₂ l₃) :
    Replied p l₁ l₃ := by
  cases h' with
  | silent quiet => exact .silent (h.trans quiet)
  | answered answer served written others givenUp =>
    refine .answered answer (h.served _ served) ?_ (fun y other => ?_) fun y => givenUp y ∘ h.givenUp y
    · rw [written, h.outgoing]
    · rw [others y other, h.outgoing]

theorem Replied.givenUp {p : Packet} {l l' : Link} (h : Replied p l l') (x : Nat)
    (gone : l.GivenUp x) : l'.GivenUp x := by
  cases h with
  | silent quiet => exact quiet.givenUp x gone
  | answered _ _ _ _ givenUp => exact givenUp x gone

theorem quiet_withListening (l : Link) (set : CportSet) : Quiet l (l.withListening set) := by
  cases l <;> exact ⟨fun _ => rfl, fun _ => id, fun _ => id⟩

theorem Sends.quiet {l l' : Link} (h : l.Sends [] l') : Quiet l l' := by
  obtain ⟨set, same⟩ := h
  cases same
  exact l.quiet_withListening set

@[simp] theorem connections_modify (l : SocketLink) (number : Nat)
    (change : Connection → Connection) (x : Nat) : (l.modify number change).connections[x]? =
      if number = x then (l.connections[x]?).map change else l.connections[x]? := by
  simp only [SocketLink.modify, List.getElem?_modify]
  cases l.connections[x]? <;> split <;> rfl

theorem givenUp_modify {l : SocketLink} {number x : Nat} {change : Connection → Connection}
    (live : ∀ c, c.live = false → (change c).live = false) (gone : (socket l).GivenUp x) :
    (socket (l.modify number change)).GivenUp x := by
  obtain ⟨c, found, dead⟩ := gone
  rw [connections_socket] at found
  by_cases same : number = x
  · refine ⟨change c, ?_, live c dead⟩
    simp [same, found]
  · exact ⟨c, by simp [same, found], dead⟩

theorem unwritten_modify (l : SocketLink) (number : Nat) {change : Connection → Connection}
    (outgoing : ∀ c, (change c).outgoing <:+ c.outgoing)
    (live : ∀ c, c.live = false → (change c).live = false) :
    Unwritten (socket l) (socket (l.modify number change)) where
  outgoing x := by
    simp only [Link.outgoing, connections_socket, connections_modify]
    split
    · cases l.connections[x]? with
      | none => exact List.suffix_refl _
      | some c => exact outgoing c
    · exact List.suffix_refl _
  givenUp _ := givenUp_modify live

theorem unwritten_dropCurrent (l : SocketLink) : Unwritten (socket l) (socket l.dropCurrent) := by
  unfold SocketLink.dropCurrent
  split
  · exact unwritten_modify l _ (fun c => List.suffix_refl _) fun c _ => rfl
  · exact (Quiet.refl _).unwritten

@[simp] theorem outgoing_dropCurrent (l : SocketLink) (x : Nat) :
    (socket l.dropCurrent).outgoing x = (socket l).outgoing x := by
  unfold SocketLink.dropCurrent
  split
  · simp only [outgoing, connections_socket, connections_modify]
    split
    · cases l.connections[x]? <;> rfl
    · rfl
  · rfl

theorem quiet_detach (l : Link) : Quiet l l.detach := by
  cases l with
  | memory l => exact ⟨fun _ => rfl, fun _ => id, fun _ => id⟩
  | socket l =>
    refine ⟨outgoing_dropCurrent l, fun x gone => (unwritten_dropCurrent l).givenUp x gone, ?_⟩
    intro x served
    cases served

theorem send_socket {l : SocketLink} {l' : Link} {r : Packet} (h : (socket l).send r = .ok l') :
    ∃ x, (socket l).served? = some x ∧ l'.outgoing x = (socket l).outgoing x ++ r.encode ∧
      (∀ y, y ≠ x → l'.outgoing y = (socket l).outgoing y) ∧
      ∀ y, (socket l).GivenUp y → l'.GivenUp y := by
  simp only [send, SocketLink.send] at h
  split at h
  · cases h
  · rename_i c x current
    split at h
    · cases h
      refine ⟨x, ?_, ?_, fun y other => ?_, fun y => givenUp_modify fun _ => id⟩
      · rw [served?, current]
        rfl
      · simp only [outgoing, connections_socket, connections_modify, if_true, current?_some current]
        rfl
      · simp [outgoing, Ne.symm other]
    · cases h

theorem Sends.written {l l' : Link} {r : Packet} {x : Nat} (h : l.Sends [r] l')
    (served : l.served? = some x) :
    l'.outgoing x = l.outgoing x ++ r.encode ∧ ∀ y, y ≠ x → l'.outgoing y = l.outgoing y := by
  cases l with
  | memory l => cases served
  | socket l =>
    obtain ⟨set, sent⟩ := h
    rw [List.foldlM_cons] at sent
    cases first : ((socket l).withListening set).send r with
    | error e =>
      rw [first] at sent
      cases sent
    | ok l₁ =>
      rw [first] at sent
      cases sent
      obtain ⟨x', same, written, others, -⟩ := send_socket (l := { l with listening := set }) first
      cases served.symm.trans same
      exact ⟨written, others⟩

theorem replied_of_send {p r : Packet} {status : Status} {payload : Bytes} {l l' : Link}
    (answer : Node.answers p status payload = [r]) (h : l.send r = .ok l') : Replied p l l' := by
  cases l with
  | memory l =>
    simp only [send, MemoryLink.send] at h
    split at h
    · cases h
    · cases h
      exact .silent ⟨fun _ => rfl, fun _ => id, fun _ => id⟩
  | socket l =>
    obtain ⟨x, served, written, others, givenUp⟩ := send_socket h
    exact .answered answer served written others givenUp

theorem Sends.replied {p : Packet} {status : Status} {payload : Bytes} {l l' : Link}
    (h : l.Sends (Node.answers p status payload) l') : Replied p l l' := by
  by_cases oneShot : p.message.oneShot = true
  · rw [Node.answers, if_pos oneShot] at h
    exact .silent h.quiet
  · have answer := Node.answers.eq_def p status payload
    rw [if_neg oneShot] at answer
    obtain ⟨set, sent⟩ := h
    rw [answer, List.foldlM_cons] at sent
    cases first : (l.withListening set).send _ with
    | error e =>
      rw [first] at sent
      cases sent
    | ok l₁ =>
      rw [first] at sent
      cases sent
      exact (l.quiet_withListening set).replied (replied_of_send answer first)

end Link

namespace Node

open Link (Quiet Replied)

theorem quiet_mute (n : Node) (c : UInt16) : Quiet n.link (n.mute c).link := by
  unfold mute
  split
  · rename_i stopped
    exact (Link.sends_stopListening stopped).quiet
  · exact .refl _

theorem quiet_keptByTurnover : KeptByTurnover fun n n' => Quiet n.link n'.link where
  refl _ := .refl _
  trans := .trans
  exit _ _ := .refl _
  outlet _ _ := .refl _
  board _ _ _ := .refl _
  init _ _ := .refl _
  mute := quiet_mute
  modifySlot _ _ _ := .refl _

theorem quiet_unregister (n : Node) (c : UInt16) : Quiet n.link (n.unregister c).2.link :=
  quiet_keptByTurnover.unregister n c

theorem quiet_shutDownWithin (n : Node) : Quiet n.link n.shutDownWithin.link := by
  unfold shutDownWithin
  split
  · have halted : Quiet n.link n.halt.link :=
      quiet_keptByTurnover.foldl quiet_unregister _ { n with running := false }
    exact halted.trans (Link.quiet_detach n.halt.link)
  · exact .refl _

theorem quiet_register (n : Node) (c : UInt16) (bundle : UInt8) (d : Driver) :
    Quiet n.link (n.register c bundle d).2.link :=
  quiet_keptByTurnover.register n c bundle d

theorem sends_respond {n n' : Node} {p : Packet} {status : Status} {payload : Bytes}
    (h : n.respond p.cport p.message status payload = .ok n') :
    n.link.Sends (answers p status payload) n'.link := by
  unfold respond at h
  unfold answers
  split at h
  · rename_i oneShot
    cases h
    rw [if_pos oneShot]
    exact .refl _
  · rename_i twoWay
    rw [if_neg twoWay]
    by_cases fits : payload.length ≤ Message.maxPayload
    · simp only [Message.response, Message.carrying, if_pos fits, send] at h
      split at h
      · cases h
      · split at h
        · rename_i sent
          cases h
          exact .of_send sent
        · cases h
    · simp only [Message.response, Message.carrying, if_neg fits, reduceCtorEq] at h

theorem replied_conclude (n : Node) (p : Packet) (reaction : Reaction) :
    Replied p n.link (n.conclude (n.answer p reaction)).link := by
  cases answered : n.answer p reaction with
  | error e => exact .silent (.refl _)
  | ok n' =>
    cases reaction with
    | quiet =>
      cases answered
      exact .silent (.refl _)
    | refused status =>
      simp only [answer] at answered
      exact (sends_respond answered).replied
    | done payload =>
      simp only [answer] at answered
      split at answered
      · exact (sends_respond answered).replied
      · exact (sends_respond answered).replied

theorem replied_handle (n : Node) (d : Driver) (p : Packet) :
    Replied p n.link (n.handle d p).link := by
  have carried (d : Driver) : Replied p n.link
      ((n.carryOut p.cport d p.message.kind p.message.payload).2.conclude
        ((n.carryOut p.cport d p.message.kind p.message.payload).2.answer p
          (n.carryOut p.cport d p.message.kind p.message.payload).1)).link :=
    (n.sends_carryOut p.cport d p.message.kind p.message.payload).quiet.replied
      (replied_conclude _ p _)
  cases d with
  | gate =>
    simp only [handle, handleGate]
    split
    · exact n.replied_conclude p _
    · exact .silent (.refl _)
  | scripted s =>
    simp only [handle, handleScripted]
    have ended (n' : Node) :
        Quiet n'.link (if s.handleShutsDown then n'.shutDownWithin else n').link := by
      split
      · exact n'.quiet_shutDownWithin
      · exact .refl _
    split
    · exact .silent (.refl _)
    · cases s.handleUnregisters with
      | none => exact (ended n).replied (replied_conclude _ p _)
      | some c =>
        exact ((n.quiet_unregister c).trans (ended _)).replied (replied_conclude _ p _)
  | _ =>
    simp only [handle]
    exact carried _

theorem replied_dispatch (n : Node) (p : Packet) : Replied p n.link (n.dispatch p).link := by
  unfold dispatch
  split
  · exact .silent (.refl _)
  · exact .silent (.refl _)
  · rename_i d _
    split
    · have answered := replied_conclude (n.count fun c => { c with pinged := c.pinged + 1 }) p
        (.done [])
      simp only
      split
      · rename_i h
        rw [h] at answered
        exact answered
      · exact .silent (.refl _)
    · exact replied_handle ((n.count fun c => { c with dispatched := c.dispatched + 1 }).called
        (.handle p.message) p.cport) d p

end Node

end CportNode
