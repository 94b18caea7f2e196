import CportNode.Link.Basic
import CportNode.Proofs.Frame

namespace CportNode.Link

def withListening (set : CportSet) : Link → Link
  | memory l => memory { l with listening := set }
  | socket l => socket { l with listening := set }

/-- Nothing keeps a packet from being sent. -/
def Open (l : Link) : Prop :=
  ∀ p, ∃ l', l.send p = .ok l'

/-- Of packets, just these were sent, in this order. -/
def Sends (l : Link) (packets : List Packet) (l' : Link) : Prop :=
  ∃ set, packets.foldlM send (l.withListening set) = .ok l'

@[simp] theorem withListening_listening (l : Link) : l.withListening l.listening = l := by
  cases l <;> rfl

@[simp] theorem withListening_withListening (l : Link) (set set' : CportSet) :
    (l.withListening set).withListening set' = l.withListening set' := by
  cases l <;> rfl

@[simp] theorem listening_withListening (l : Link) (set : CportSet) :
    (l.withListening set).listening = set := by
  cases l <;> rfl

@[simp] theorem send_withListening (l : Link) (set : CportSet) (p : Packet) :
    (l.withListening set).send p = (l.send p).map (withListening set) := by
  cases l with
  | memory l =>
    simp only [withListening, send, MemoryLink.send]
    split <;> rfl
  | socket l =>
    have same : { l with listening := set }.current? = l.current? := rfl
    simp only [withListening, send, SocketLink.send, same]
    cases l.current? with
    | none => rfl
    | some served =>
      simp only
      split <;> rfl

@[simp] theorem foldlM_withListening (packets : List Packet) (l : Link) (set : CportSet) :
    packets.foldlM send (l.withListening set) =
      (packets.foldlM send l).map (withListening set) := by
  induction packets generalizing l with
  | nil => rfl
  | cons p packets ih =>
    simp only [List.foldlM_cons, send_withListening]
    cases h : l.send p with
    | error e => rfl
    | ok l' => exact ih l'

theorem Open.withListening {l : Link} (h : l.Open) (set : CportSet) :
    (l.withListening set).Open := by
  intro p
  obtain ⟨l', sent⟩ := h p
  exact ⟨l'.withListening set, by rw [send_withListening, sent]; rfl⟩

theorem Sends.listens {l : Link} (set : CportSet) : l.Sends [] (l.withListening set) :=
  ⟨set, rfl⟩

theorem Sends.refl (l : Link) : l.Sends [] l :=
  ⟨l.listening, by rw [withListening_listening]; rfl⟩

theorem Sends.of_send {l l' : Link} {p : Packet} (h : l.send p = .ok l') : l.Sends [p] l' := by
  refine ⟨l.listening, ?_⟩
  simp [h]

theorem Sends.relistened {l l' : Link} {packets : List Packet} (h : l.Sends packets l')
    (set set' : CportSet) : (l.withListening set).Sends packets (l'.withListening set') := by
  obtain ⟨_, sent⟩ := h
  refine ⟨set', ?_⟩
  rw [withListening_withListening, ← withListening_withListening l _ set', foldlM_withListening,
    sent]
  rfl

theorem Sends.trans {l₁ l₂ l₃ : Link} {packets packets' : List Packet}
    (h : l₁.Sends packets l₂) (h' : l₂.Sends packets' l₃) : l₁.Sends (packets ++ packets') l₃ := by
  obtain ⟨set, sent⟩ := h
  obtain ⟨set', sent'⟩ := h'
  have first : packets.foldlM send (l₁.withListening set') = .ok (l₂.withListening set') := by
    rw [← withListening_withListening l₁ set set', foldlM_withListening, sent]
    rfl
  refine ⟨set', ?_⟩
  rw [List.foldlM_append, first]
  exact sent'

theorem sends_listen {l l' : Link} {c : UInt16} (h : l.listen c = .ok l') : l.Sends [] l' := by
  cases l with
  | memory l =>
    simp only [listen, MemoryLink.listen] at h
    split at h
    · cases h
    · cases h
      exact .listens _
  | socket l =>
    cases h
    exact .listens _

theorem stopListening_eq {l l' : Link} {c : UInt16} (h : l.stopListening c = .ok l') :
    l' = l.withListening (l.listening.erase c) := by
  cases l with
  | memory l =>
    simp only [stopListening, MemoryLink.stopListening] at h
    split at h
    · cases h
    · split at h
      · cases h
        rfl
      · cases h
  | socket l =>
    simp only [stopListening, SocketLink.stopListening] at h
    split at h
    · cases h
      rfl
    · cases h

theorem sends_stopListening {l l' : Link} {c : UInt16} (h : l.stopListening c = .ok l') :
    l.Sends [] l' := by
  rw [stopListening_eq h]
  exact .listens _

theorem zipIdx_modify {α : Type} (xs : List α) (number : Nat) (change : α → α) :
    (xs.modify number change).zipIdx =
      xs.zipIdx.map fun (x, i) => (if number = i then change x else x, i) := by
  refine List.ext_getElem? fun i => ?_
  simp only [List.getElem?_zipIdx, List.getElem?_map, List.getElem?_modify]
  cases xs[i]? with
  | none => rfl
  | some x => by_cases same : number = i <;> simp [same]

theorem current?_modify (l : SocketLink) (number : Nat) (change : Connection → Connection)
    (live : ∀ c, (change c).live = c.live) :
    (l.modify number change).current? =
      l.current?.map fun (c, i) => (if number = i then change c else c, i) := by
  simp only [SocketLink.current?, SocketLink.modify, zipIdx_modify, List.find?_map]
  split
  · congr 2
    funext ⟨c, i⟩
    by_cases same : number = i <;> simp [same, live]
  · rfl

theorem open_of_send {l l' : Link} {p : Packet} (sent : l.send p = .ok l') : l'.Open := by
  intro q
  cases l with
  | memory l =>
    simp only [Link.send, MemoryLink.send] at sent
    split at sent
    · cases sent
    · rename_i works
      cases sent
      simp only [Link.send, MemoryLink.send, if_neg works]
      exact ⟨_, rfl⟩
  | socket l =>
    simp only [Link.send, SocketLink.send] at sent
    split at sent
    · cases sent
    · rename_i c number current
      split at sent
      · rename_i reads
        cases sent
        have served := current?_modify l number
          ({ · with outgoing := c.outgoing ++ p.encode }) fun _ => rfl
        simp only [Link.send, SocketLink.send, served, current, Option.map_some, if_true,
          if_pos reads]
        exact ⟨_, rfl⟩
      · cases sent

theorem rel_of_foldlM {R : Link → Link → Prop} (refl : ∀ l, R l l)
    (trans : ∀ {l₁ l₂ l₃}, R l₁ l₂ → R l₂ l₃ → R l₁ l₃)
    (step : ∀ {l l' p}, l.send p = .ok l' → R l l') {packets : List Packet} {l l' : Link}
    (sent : packets.foldlM send l = .ok l') : R l l' := by
  induction packets generalizing l with
  | nil =>
    cases sent
    exact refl _
  | cons p packets ih =>
    rw [List.foldlM_cons] at sent
    cases first : l.send p with
    | error e =>
      rw [first] at sent
      cases sent
    | ok next =>
      rw [first] at sent
      exact trans (step first) (ih sent)

theorem Sends.open {l l' : Link} {packets : List Packet} (h : l.Sends packets l')
    (ready : l.Open) : l'.Open := by
  obtain ⟨set, sent⟩ := h
  exact rel_of_foldlM (R := fun l l' => l.Open → l'.Open) (fun _ => id)
    (fun h h' => h' ∘ h) (fun sent _ => open_of_send sent) sent (ready.withListening set)

theorem foldlM_memory {l : MemoryLink} {l' : Link} {packets : List Packet}
    (h : packets.foldlM send (memory l) = .ok l') :
    l' = memory { l with sent := l.sent ++ packets } := by
  induction packets generalizing l with
  | nil =>
    cases h
    rw [List.append_nil]
  | cons p packets ih =>
    rw [List.foldlM_cons] at h
    simp only [send, MemoryLink.send] at h
    split at h
    · cases h
    · rw [ih h, List.append_assoc]
      rfl

theorem Sends.eq_memory {l : MemoryLink} {l' : Link} {packets : List Packet}
    (h : (memory l).Sends packets l') :
    ∃ set, l' = memory { l with listening := set, sent := l.sent ++ packets } := by
  obtain ⟨set, sent⟩ := h
  exact ⟨set, foldlM_memory sent⟩

def volume : Link → Nat
  | memory l => l.sent.length
  | socket l => (l.connections.flatMap (·.outgoing)).length

@[simp] theorem volume_withListening (l : Link) (set : CportSet) :
    (l.withListening set).volume = l.volume := by
  cases l <;> rfl

theorem current?_some {l : SocketLink} {c : Connection} {number : Nat}
    (h : l.current? = some (c, number)) : l.connections[number]? = some c := by
  unfold SocketLink.current? at h
  split at h
  · exact List.mem_zipIdx_iff_getElem?.mp (List.mem_of_find?_eq_some h)
  · cases h

theorem length_outgoing_modify {connections : List Connection} {number : Nat} {c : Connection}
    (h : connections[number]? = some c) (change : Connection → Connection) :
    ((connections.modify number change).flatMap (·.outgoing)).length + c.outgoing.length =
      (connections.flatMap (·.outgoing)).length + (change c).outgoing.length := by
  induction connections generalizing number with
  | nil => cases h
  | cons first rest ih =>
    cases number with
    | zero =>
      cases h
      simp only [List.modify_zero_cons, List.flatMap_cons, List.length_append]
      omega
    | succ number =>
      have := ih h
      simp only [List.modify_succ_cons, List.flatMap_cons, List.length_append]
      omega

theorem volume_send_lt {l l' : Link} {p : Packet} (h : l.send p = .ok l') :
    l.volume < l'.volume := by
  cases l with
  | memory l =>
    simp only [send, MemoryLink.send] at h
    split at h
    · cases h
    · cases h
      simp [volume]
  | socket l =>
    simp only [send, SocketLink.send] at h
    split at h
    · cases h
    · rename_i c number current
      split at h
      · cases h
        have grown := length_outgoing_modify (current?_some current)
          ({ · with outgoing := c.outgoing ++ p.encode })
        have size := p.length_encode
        simp only [List.length_append, size, Message.size, Message.headerSize] at grown
        simp only [volume, SocketLink.modify]
        omega
      · cases h

theorem volume_foldlM {packets : List Packet} {l l' : Link}
    (h : packets.foldlM send l = .ok l') : l.volume + packets.length ≤ l'.volume := by
  induction packets generalizing l with
  | nil =>
    cases h
    exact Nat.le_refl _
  | cons p packets ih =>
    rw [List.foldlM_cons] at h
    cases sent : l.send p with
    | error e =>
      rw [sent] at h
      cases h
    | ok next =>
      rw [sent] at h
      have := ih h
      have := volume_send_lt sent
      rw [List.length_cons]
      omega

theorem Sends.volume_le {l l' : Link} {packets : List Packet} (h : l.Sends packets l') :
    l.volume + packets.length ≤ l'.volume := by
  obtain ⟨set, sent⟩ := h
  have grown := volume_foldlM sent
  rwa [volume_withListening] at grown

theorem Sends.eq_nil {l : Link} {packets : List Packet} (h : l.Sends packets l) :
    packets = [] := by
  have grown := h.volume_le
  exact List.length_eq_zero_iff.mp (by omega)

theorem Sends.eq_nil_of_silent {l l' : Link} {packets : List Packet} (h : l.Sends packets l')
    (silent : l.Sends [] l') : packets = [] := by
  obtain ⟨set, sent⟩ := silent
  cases sent
  have grown := h.volume_le
  rw [volume_withListening] at grown
  exact List.length_eq_zero_iff.mp (by omega)

end CportNode.Link
