import CportNode.Proofs.Connecting
import CportNode.Proofs.Lifetimes

namespace CportNode

theorem Registry.isBound_modify {r : Registry} {c : UInt16} {change : Slot → Slot}
    (keeps : ∀ s, s.driver.isSome → (change s).driver.isSome) {c' : UInt16}
    (bound : r.isBound c' = true) : (r.modify c change).isBound c' = true := by
  rw [isBound_iff] at bound ⊢
  obtain ⟨s, hs, driver⟩ := bound
  by_cases same : c' = c
  · subst same
    exact ⟨change s, by simp [hs], keeps s driver⟩
  · exact ⟨s, by simp [same, hs], driver⟩

theorem Link.stopFault?_send {l l' : Link} {p : Packet} (h : l.send p = .ok l') :
    l'.stopFault? = l.stopFault? := by
  cases l with
  | memory l =>
    simp only [send, MemoryLink.send] at h
    split at h
    · cases h
    · cases h
      rfl
  | socket l =>
    simp only [send, SocketLink.send] at h
    split at h
    · cases h
    · split at h
      · cases h
        rfl
      · cases h

namespace Node

/-- No more cports are listened on than before, and of those that are none lost its driver. -/
structure Hushes (n n' : Node) : Prop where
  free : n.link.stopFault? = none → n'.link.stopFault? = none
  fewer : ∀ c ∈ n'.link.listening, c ∈ n.link.listening
  bound : n.link.stopFault? = none → ∀ c ∈ n'.link.listening,
    n.registry.isBound c = true → n'.registry.isBound c = true

theorem Hushes.of_link {n n' : Node} (link : n'.link = n.link)
    (bound : ∀ c, n.registry.isBound c = true → n'.registry.isBound c = true) : Hushes n n' where
  free free := link ▸ free
  fewer _ listens := link ▸ listens
  bound _ c _ := bound c

theorem Hushes.of_eq {n n' : Node} (link : n'.link = n.link) (registry : n'.registry = n.registry) :
    Hushes n n' :=
  .of_link link fun _ bound => registry ▸ bound

theorem Hushes.refl (n : Node) : Hushes n n := .of_eq rfl rfl

theorem Hushes.trans {n₁ n₂ n₃ : Node} (h : Hushes n₁ n₂) (h' : Hushes n₂ n₃) : Hushes n₁ n₃ where
  free := h'.free ∘ h.free
  fewer c listens := h.fewer c (h'.fewer c listens)
  bound free c listens bound :=
    h'.bound (h.free free) c listens (h.bound free c (h'.fewer c listens) bound)

theorem hushes_keptByExit : KeptByExit Hushes where
  refl := .refl
  trans := .trans
  exit _ _ := .of_eq rfl rfl
  outlet _ _ := .of_eq rfl rfl
  board _ _ _ := .of_eq rfl rfl

theorem hushes_modifySlot (n : Node) (c : UInt16) {change : Slot → Slot}
    (keeps : ∀ s, s.driver.isSome → (change s).driver.isSome) :
    Hushes n (n.modifySlot c change) := by
  refine .of_link rfl fun c' bound => ?_
  simpa using Registry.isBound_modify keeps bound

theorem hushes_erase {n : Node} {c : UInt16} {link : Link} (h : n.link.stopListening c = .ok link) :
    Hushes n { n with link } := by
  rw [Link.stopListening_eq h]
  refine ⟨fun free => by simpa using free, fun c' listens => ?_, fun _ _ _ => id⟩
  have before : c' ∈ n.link.listening ∧ c' ≠ c := by simpa using listens
  exact before.1

theorem hushes_mute (n : Node) (c : UInt16) : Hushes n (n.mute c) := by
  unfold mute
  split
  · rename_i stopped
    exact hushes_erase stopped
  · exact .refl n

theorem deaf_mute {n : Node} (free : n.link.stopFault? = none) (c : UInt16) :
    c ∉ (n.mute c).link.listening := by
  by_cases listens : c ∈ n.link.listening
  · simp [mute, Link.stopListening_of_mem free listens]
  · obtain ⟨e, refused⟩ := Link.stopListening_of_not_mem listens
    simp only [mute, refused]
    exact listens

theorem hushes_teardown {n n' : Node} {c : UInt16}
    (h : Hushes ((n.mute c).modifySlot c .beginTeardown) n') :
    Hushes n (n'.modifySlot c .unbind) := by
  have begun : Hushes (n.mute c) ((n.mute c).modifySlot c .beginTeardown) :=
    hushes_modifySlot _ c fun _ => id
  have muted := (hushes_mute n c).trans (begun.trans h)
  refine ⟨muted.free, muted.fewer, fun free c' listens bound => ?_⟩
  have other : c' ≠ c := by
    rintro rfl
    exact deaf_mute free c' (h.fewer c' listens)
  simpa [Registry.isBound, other] using muted.bound free c' listens bound

theorem hushes_unregister (n : Node) (c : UInt16) : Hushes n (n.unregister c).2 :=
  hushes_keptByExit.unregister hushes_teardown n c

theorem hushes_halt (n : Node) : Hushes n n.halt := by
  have stopped : Hushes n { n with running := false } := .of_eq rfl rfl
  have unbound := hushes_keptByExit.foldl hushes_unregister n.registry.boundCports
    { n with running := false }
  exact (stopped.trans unbound).trans (.of_eq rfl rfl)

@[simp] theorem link_registerBare (n : Node) (c : UInt16) (bundle : UInt8) :
    (n.registerBare c bundle).link = n.link := by
  unfold registerBare
  split <;> rfl

@[simp] theorem link_initDriver (n : Node) (c : UInt16) (d : Driver) :
    (n.initDriver c d).2.link = n.link := by
  cases d with
  | gpio triggers => exact link_adopt _ _
  | uart =>
    simp only [initDriver]
    have installed := link_adopt (n.called .init c)
      ((n.called .init c).board.setRxHandler (some (.forward c)))
    split
    · rename_i n' h
      rw [h] at installed
      exact (link_adopt n' _).trans installed
    · exact installed
  | log outlet => cases outlet <;> rfl
  | scripted s =>
    simp only [initDriver]
    cases s.initRegisters with
    | none => cases s.initFault <;> rfl
    | some bundle => cases s.initFault <;> exact link_registerBare _ c bundle
  | _ => rfl

theorem hushes_initDriver (n : Node) (c : UInt16) (d : Driver) :
    Hushes n (n.initDriver c d).2 := by
  have inits := inits_initDriver n c d
  refine .of_link (link_initDriver n c d) fun c' bound => ?_
  rw [Registry.isBound_iff] at bound ⊢
  obtain ⟨s, hs, driver⟩ := bound
  by_cases same : c' = c
  · subst same
    rcases inits.slot with kept | bare
    · exact ⟨s, kept.trans hs, driver⟩
    · exact ⟨s.bind .bare, by rw [bare, hs, Option.map_some], rfl⟩
  · exact ⟨s, (congrArg Standing.slot (inits.elsewhere c' same)).trans hs, driver⟩

theorem hushes_register (n : Node) (c : UInt16) (bundle : UInt8) (d : Driver) :
    Hushes n (n.register c bundle d).2 :=
  hushes_keptByExit.register hushes_unregister (fun _ _ => hushes_initDriver n c d)
    (fun n' => hushes_modifySlot n' c fun _ _ => rfl) bundle

theorem hushes_stopListening {n n' : Node} {c : UInt16} (h : n.stopListening c = .ok n') :
    Hushes n n' := by
  unfold stopListening at h
  split at h
  · cases h
  · split at h
    · rename_i stopped
      cases h
      exact hushes_erase stopped
    · cases h

theorem hushes_notify (n : Node) (c : UInt16) (event : Event) :
    Hushes n (n.notify c event).2 := by
  obtain ⟨calls, notified⟩ := n.notify_snd c event
  rw [notified]
  exact .of_eq rfl rfl

theorem hushes_send {n n' : Node} {p : Packet} (h : n.send p = .ok n') : Hushes n n' := by
  have listening := listening_send h
  unfold send at h
  split at h
  · cases h
  · split at h
    · rename_i sent
      cases h
      exact ⟨fun free => (Link.stopFault?_send sent).trans free,
        fun c listens => listening ▸ listens, fun _ _ _ => id⟩
    · cases h

theorem hushes_respond {n n' : Node} {c : UInt16} {request : Message} {status : Status}
    {payload : Bytes} (h : n.respond c request status payload = .ok n') : Hushes n n' := by
  unfold respond at h
  split at h
  · cases h
    exact .refl n
  · split at h
    · cases h
    · exact hushes_send h

theorem hushes_answer {n n' : Node} {p : Packet} {reaction : Reaction}
    (h : n.answer p reaction = .ok n') : Hushes n n' := by
  cases reaction with
  | quiet =>
    cases h
    exact .refl n
  | refused status =>
    simp only [answer] at h
    exact hushes_respond h
  | done payload =>
    simp only [answer] at h
    split at h
    · exact hushes_respond h
    · exact hushes_respond h

theorem hushes_conclude (n : Node) (p : Packet) (reaction : Reaction) :
    Hushes n (n.conclude (n.answer p reaction)) := by
  cases answered : n.answer p reaction with
  | error e => exact .of_eq rfl rfl
  | ok n' => exact hushes_answer answered

theorem hushes_openGate (n : Node) : Hushes n n.openGate := by
  unfold openGate
  simp only
  split
  · exact .of_eq rfl rfl
  · rename_i p _
    have opened : Hushes n { n with gateOpen := true, held := none } := .of_eq rfl rfl
    exact opened.trans (hushes_conclude _ p _)

structure Tuned (n : Node) : Prop where
  free : n.link.stopFault? = none
  bound : ∀ c ∈ n.link.listening, n.registry.isBound c = true

theorem Tuned.hushed {n n' : Node} (h : n.Tuned) (hushes : Hushes n n') : n'.Tuned where
  free := hushes.free h.free
  bound c listens := hushes.bound h.free c listens (h.bound c (hushes.fewer c listens))

theorem Tuned.listen {n n' : Node} {c : UInt16} (h : n.Tuned) (listened : n.listen c = .ok n') :
    n'.Tuned := by
  unfold Node.listen at listened
  split at listened
  · cases listened
  · rename_i d bound
    split at listened
    · rename_i link accepted
      cases listened
      rw [Link.listen_eq accepted]
      refine ⟨by simpa using h.free, fun c' listens => ?_⟩
      rw [Link.listening_withListening, CportSet.mem_insert] at listens
      rcases listens with rfl | before
      · exact Registry.isBound_of_requireBound bound
      · exact h.bound c' before
    · cases listened

theorem Tuned.connect {n : Node} (h : n.Tuned) (t : UInt16) : (n.connect t).2.Tuned := by
  unfold Node.connect
  cases listened : n.listen t with
  | error e => exact h
  | ok n₁ =>
    have notified := (h.listen listened).hushed (hushes_notify n₁ t .connected)
    simp only
    split
    · rename_i accepted
      rwa [accepted] at notified
    · rename_i rejected
      rw [rejected] at notified
      simp only
      split
      · rename_i stopped
        exact notified.hushed (hushes_stopListening stopped)
      · exact notified

theorem Tuned.disconnect {n : Node} (h : n.Tuned) (t : UInt16) : (n.disconnect t).2.Tuned := by
  have notified := h.hushed (hushes_notify n t .disconnected)
  simp only [Node.disconnect]
  split
  · rename_i stopped
    exact notified.hushed (hushes_stopListening stopped)
  · exact notified

theorem hushes_onBoard {α : Type} (n : Node) (decoded : Except Status α)
    (execute : α → Board → Reaction × Board) : Hushes n (n.onBoard decoded execute).2 := by
  cases decoded <;> exact .of_eq rfl rfl

theorem Tuned.carryOut {n : Node} (h : n.Tuned) (c : UInt16) (d : Driver) (kind : UInt8)
    (body : Bytes) : (n.carryOut c d kind body).2.Tuned := by
  cases d with
  | control =>
    simp only [Node.carryOut]
    split
    · exact h
    · exact h.connect _
    · exact h.disconnect _
    · exact h.hushed (hushes_onBoard n _ _)
  | gpio triggers =>
    simp only [Node.carryOut, carryOutGpio]
    split
    · exact h
    · have executed {board : Board} : Hushes n { n with board } := .of_eq rfl rfl
      refine h.hushed (executed.trans (hushes_modifySlot _ c fun s driver => ?_))
      rw [Slot.update, Option.isSome_map]
      exact driver
  | i2c => exact h.hushed (hushes_onBoard n _ _)
  | spi => exact h.hushed (hushes_onBoard n _ _)
  | uart => exact h.hushed (hushes_onBoard n _ _)
  | _ => exact h

theorem hushes_detach (n : Node) : Hushes n { n with link := n.link.detach } := by
  have silent (c : UInt16) : c ∉ n.link.detach.listening := by
    cases n.link <;> exact CportSet.not_mem_empty
  have kept : n.link.detach.stopFault? = n.link.stopFault? := by cases n.link <;> rfl
  exact ⟨kept.trans, fun c listens => absurd listens (silent c), fun _ _ _ => id⟩

theorem hushes_shutDownWithin (n : Node) : Hushes n n.shutDownWithin := by
  unfold shutDownWithin
  split
  · exact (hushes_halt n).trans (hushes_detach _)
  · exact .refl n

theorem hushes_handleScripted (n : Node) (s : Script) (p : Packet) :
    Hushes n (n.handleScripted s p) := by
  unfold handleScripted
  split
  · exact .of_eq rfl rfl
  · have down (n' : Node) : Hushes n' (if s.handleShutsDown then n'.shutDownWithin else n') := by
      split
      · exact hushes_shutDownWithin n'
      · exact .refl n'
    cases s.handleUnregisters with
    | none => exact (down n).trans (hushes_conclude _ p _)
    | some c => exact ((hushes_unregister n c).trans (down _)).trans (hushes_conclude _ p _)

theorem Tuned.handle {n : Node} (h : n.Tuned) (d : Driver) (p : Packet) : (n.handle d p).Tuned := by
  have carried (d : Driver) := (h.carryOut p.cport d p.message.kind p.message.payload).hushed
    (hushes_conclude _ p (n.carryOut p.cport d p.message.kind p.message.payload).1)
  cases d with
  | gate =>
    simp only [Node.handle, handleGate]
    split
    · exact h.hushed (hushes_conclude n p _)
    · exact h.hushed (.of_eq rfl rfl)
  | scripted s => exact h.hushed (hushes_handleScripted n s p)
  | _ =>
    simp only [Node.handle]
    exact carried _

theorem Tuned.dispatch {n : Node} (h : n.Tuned) (p : Packet) : (n.dispatch p).Tuned := by
  unfold Node.dispatch
  split
  · exact h.hushed (.of_eq rfl rfl)
  · exact h.hushed (.of_eq rfl rfl)
  · rename_i d _
    split
    · have pinged : (n.count fun c => { c with pinged := c.pinged + 1 }).Tuned :=
        h.hushed (.of_eq rfl rfl)
      simp only
      split
      · rename_i answered
        exact pinged.hushed (hushes_answer answered)
      · exact pinged
    · have called : ((n.count fun c => { c with dispatched := c.dispatched + 1 }).called
          (.handle p.message) p.cport).Tuned := h.hushed (.of_eq rfl rfl)
      exact called.handle d p

theorem hushes_letIn (n : Node) (place : Nat) : Hushes n (n.letIn place) := by
  obtain ⟨queue, waiting, counters, same⟩ := n.letIn_eq place
  rw [same]
  exact .of_eq rfl rfl

theorem hushes_receive (n : Node) (p : Packet) : Hushes n (n.receive p).2 := by
  have received := received_receive n p
  generalize n.receive p = outcome at *
  cases received <;> exact .of_eq rfl rfl

theorem Tuned.workFor {n : Node} (h : n.Tuned) (place : Option Nat) : (n.workFor place).Tuned := by
  unfold Node.workFor
  cases taken : n.take with
  | none => exact h
  | some taken' =>
    obtain ⟨p, n'⟩ := taken'
    obtain ⟨queue, waiting, counters, entered⟩ := n'.elim_letIn_eq place
    have rest := (take_some taken).2.2
    have entering : (place.elim n' n'.letIn).Tuned := by
      rw [entered, rest]
      exact h.hushed (.of_eq rfl rfl)
    exact entering.dispatch p

end Node

/-- What is done outside the node has it listen on no more cports, and sets stopping to fail on
none. -/
def Move.Modest : Move → Prop
  | outside _ link _ => ∀ l : Link, (∀ c ∈ (link l).listening, c ∈ l.listening) ∧
      (l.stopFault? = none → (link l).stopFault? = none)
  | _ => True

def Stage.Modest : Stage → Prop
  | move m => m.Modest
  | shutDown => True

namespace Node

theorem Tuned.apply {n : Node} (h : n.Tuned) {m : Move} (modest : m.Modest) :
    (m.apply n).Tuned := by
  cases m with
  | receive p => exact h.hushed (hushes_receive n p)
  | letIn place => exact h.hushed (hushes_letIn n place)
  | work place => exact h.workFor place
  | register c bundle d => exact h.hushed (hushes_register n c bundle d)
  | unregister c => exact h.hushed (hushes_unregister n c)
  | listen c =>
    simp only [Move.apply]
    split
    · rename_i listened
      exact h.listen listened
    · exact h
  | stopListening c =>
    simp only [Move.apply]
    split
    · rename_i stopped
      exact h.hushed (hushes_stopListening stopped)
    · exact h
  | notify c event => exact h.hushed (hushes_notify n c event)
  | openGate => exact h.hushed (hushes_openGate n)
  | outside board link ids =>
    obtain ⟨fewer, free⟩ := modest n.link
    exact ⟨free h.free, fun c listens => h.bound c (fewer c listens)⟩
  | _ => exact h.hushed (.of_eq rfl rfl)

theorem Tuned.after {n : Node} (h : n.Tuned) {moves : List Move}
    (modest : ∀ m ∈ moves, m.Modest) : (n.after moves).Tuned := by
  induction moves generalizing n with
  | nil => exact h
  | cons m moves ih =>
    exact ih (h.apply (modest m List.mem_cons_self)) fun m' later =>
      modest m' (List.mem_cons_of_mem m later)

theorem modest_detach : Move.Modest (.outside id Link.detach id) := by
  intro l
  refine ⟨fun c listens => ?_, fun free => ?_⟩
  · cases l <;> exact absurd listens CportSet.not_mem_empty
  · cases l <;> exact free

theorem modest_closing (n : Node) : ∀ m ∈ n.closing, m.Modest := by
  unfold closing
  split
  · simp only [List.mem_append, List.mem_cons, List.mem_map, List.mem_flatten, List.mem_replicate,
      List.not_mem_nil, or_false]
    rintro m (((((rfl | ⟨c, -, rfl⟩) | rfl) | opens) | ⟨l, ⟨-, rfl⟩, works⟩) | rfl)
    · trivial
    · trivial
    · trivial
    · split at opens
      · rw [List.mem_singleton.mp opens]
        trivial
      · cases opens
    · simp only [List.mem_cons, List.not_mem_nil, or_false] at works
      rcases works with rfl | rfl <;> trivial
    · exact modest_detach
  · exact fun m none => absurd none List.not_mem_nil

theorem Tuned.stage {n : Node} (h : n.Tuned) {s : Stage} (modest : s.Modest) :
    (s.apply n).Tuned := by
  cases s with
  | move m => exact h.apply modest
  | shutDown =>
    rw [Stage.apply, ← after_closing]
    exact h.after n.modest_closing

theorem Tuned.pass {n : Node} (h : n.Tuned) {stages : List Stage}
    (modest : ∀ s ∈ stages, s.Modest) : (n.pass stages).Tuned := by
  induction stages generalizing n with
  | nil => exact h
  | cons s stages ih =>
    exact ih (h.stage (modest s List.mem_cons_self)) fun s' later =>
      modest s' (List.mem_cons_of_mem s later)

@[simp] theorem slot?_ofParts (config : Config) (board : Board) (link : Link) (c : UInt16) :
    (ofParts config board link).registry.slot? c = (config.cports[c.toNat]?).map Slot.fresh := by
  simp [ofParts, Registry.ofRows, Registry.slot?]

theorem tuned_ofParts (config : Config) (board : Board) {link : Link}
    (free : link.stopFault? = none) (deaf : ∀ c, c ∉ link.listening) :
    (ofParts config board link).Tuned :=
  ⟨free, fun c listens => absurd listens (deaf c)⟩

/-- In every state of every run whatever is listened on is a cport of the node, and has a driver.
Unregistering leaves a cport deaf, be it that it listened, that it did not, or that it does not
exist. -/
theorem only_bound_cports_listen (config : Config) (board : Board) {link : Link}
    (free : link.stopFault? = none) (deaf : ∀ c, c ∉ link.listening) {stages : List Stage}
    (modest : ∀ s ∈ stages, s.Modest) :
    let n := (ofParts config board link).pass stages
    (∀ c ∈ n.link.listening, c.toNat < config.cports.length ∧ n.registry.isBound c = true) ∧
      ∀ c, c ∉ (n.unregister c).2.link.listening := by
  intro n
  have tuned : n.Tuned := (tuned_ofParts config board free deaf).pass modest
  refine ⟨fun c listens => ?_, fun c listens => ?_⟩
  · have bound := tuned.bound c listens
    obtain ⟨s, hs, -⟩ := Registry.isBound_iff.mp bound
    have row := (ofParts config board link).row_pass stages c
    rw [hs, slot?_ofParts] at row
    refine ⟨Nat.lt_of_not_le fun beyond => ?_, bound⟩
    rw [List.getElem?_eq_none beyond] at row
    cases row
  · have bound := (tuned.hushed (hushes_unregister n c)).bound c listens
    rw [Registry.isBound, driver?_unregister] at bound
    cases bound

def tuning : List Stage :=
  [.move (.register 0 0 .control), .move (.register 1 1 .loopback), .move (.register 2 1 .bare),
    .move (.register 3 1 (.scripted ⟨none, none, none, none, none, some 2, none, false⟩)),
    .move (.receive ⟨0, ⟨1, 0x05, 0, [1, 0]⟩⟩), .move (.work none), .move (.listen 2),
    .move (.listen 3), .move (.listen 7), .move (.unregister 3)]

def tuningConfig : Config :=
  { Config.empty with
    cports := [⟨0, .control⟩, ⟨1, .loopback⟩, ⟨1, .vendor⟩, ⟨1, .vendor⟩] }

theorem tuning_keeps_to_bound_cports :
    let n := (ofParts tuningConfig .fresh (.memory .fresh)).pass tuning
    1 ∈ n.link.listening ∧ n.registry.isBound 1 = true ∧
      2 ∉ n.link.listening ∧ 1 ∉ (n.unregister 1).2.link.listening := by
  intro n
  have modest : ∀ s ∈ tuning, s.Modest := by
    intro s member
    simp only [tuning, List.mem_cons, List.not_mem_nil, or_false] at member
    rcases member with rfl | rfl | rfl | rfl | rfl | rfl | rfl | rfl | rfl | rfl <;> trivial
  obtain ⟨bound, deaf⟩ := only_bound_cports_listen tuningConfig .fresh
    (show (Link.memory .fresh).stopFault? = none from rfl)
    (fun _ => CportSet.not_mem_empty) modest
  have connected : 1 ∈ n.link.listening :=
    show 1 ∈ ((ofParts tuningConfig .fresh (.memory .fresh)).pass tuning).link.listening by decide
  refine ⟨connected, (bound 1 connected).2, fun listens => ?_, deaf 1⟩
  have still : n.registry.isBound 2 = true := (bound 2 listens).2
  have gone : n.registry.isBound 2 = false := rfl
  rw [gone] at still
  cases still

end Node

end CportNode
