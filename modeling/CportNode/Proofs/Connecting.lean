import CportNode.Proofs.Answer
import CportNode.Proofs.Moves

namespace CportNode

namespace Link

def stopFault? : Link → Option LinkError
  | memory l => l.stopFault
  | socket _ => none

@[simp] theorem stopFault?_withListening (l : Link) (set : CportSet) :
    (l.withListening set).stopFault? = l.stopFault? := by
  cases l <;> rfl

theorem listen_eq {l l' : Link} {c : UInt16} (h : l.listen c = .ok l') :
    l' = l.withListening (l.listening.insert c) := by
  cases l with
  | memory l =>
    simp only [listen, MemoryLink.listen] at h
    split at h
    · cases h
    · cases h
      rfl
  | socket l =>
    cases h
    rfl

theorem stopListening_of_mem {l : Link} {c : UInt16} (free : l.stopFault? = none)
    (listens : c ∈ l.listening) :
    l.stopListening c = .ok (l.withListening (l.listening.erase c)) := by
  cases l with
  | memory l =>
    have listens : c ∈ l.listening := listens
    simp only [stopListening, MemoryLink.stopListening]
    split
    · rename_i fault
      cases fault.symm.trans free
    · rw [if_pos listens]
      rfl
  | socket l =>
    have listens : c ∈ l.listening := listens
    simp only [stopListening, SocketLink.stopListening, if_pos listens]
    rfl

theorem stopListening_of_not_mem {l : Link} {c : UInt16} (deaf : c ∉ l.listening) :
    ∃ e, l.stopListening c = .error e := by
  cases h : l.stopListening c with
  | error e => exact ⟨e, rfl⟩
  | ok l' =>
    cases l with
    | memory l =>
      have deaf : c ∉ l.listening := deaf
      simp only [stopListening, MemoryLink.stopListening, if_neg deaf] at h
      split at h <;> cases h
    | socket l =>
      have deaf : c ∉ l.listening := deaf
      simp only [stopListening, SocketLink.stopListening, if_neg deaf] at h
      cases h

theorem listening_send {l l' : Link} {p : Packet} (h : l.send p = .ok l') :
    l'.listening = l.listening := by
  cases l with
  | memory l =>
    simp only [send, MemoryLink.send] at h
    split at h
    · cases h
    · cases h
      rfl
  | socket l =>
    simp only [send, SocketLink.send] at h
    split at h
    · cases h
    · split at h
      · cases h
        rfl
      · cases h

end Link

@[simp] theorem CportSet.erase_insert_eq_iff {c : UInt16} {set : CportSet} :
    (set.insert c).erase c = set ↔ c ∉ set := by
  constructor
  · intro same present
    rw [← same, mem_erase] at present
    exact present.2 rfl
  · intro absent
    refine ext_mem fun d => ?_
    rw [mem_erase, mem_insert]
    refine ⟨fun ⟨either, other⟩ => either.resolve_left other, fun present => ⟨.inr present, ?_⟩⟩
    rintro rfl
    exact absent present

namespace Node

theorem listening_send {n n' : Node} {p : Packet} (h : n.send p = .ok n') :
    n'.link.listening = n.link.listening := by
  unfold send at h
  split at h
  · cases h
  · split at h
    · rename_i sent
      cases h
      exact Link.listening_send sent
    · cases h

theorem listening_respond {n n' : Node} {c : UInt16} {request : Message} {status : Status}
    {payload : Bytes} (h : n.respond c request status payload = .ok n') :
    n'.link.listening = n.link.listening := by
  unfold respond at h
  split at h
  · cases h
    rfl
  · split at h
    · cases h
    · exact listening_send h

@[simp] theorem listening_conclude (n : Node) (p : Packet) (reaction : Reaction) :
    (n.conclude (n.answer p reaction)).link.listening = n.link.listening := by
  cases answered : n.answer p reaction with
  | error e => rfl
  | ok n' =>
    cases reaction with
    | quiet =>
      cases answered
      rfl
    | refused status =>
      simp only [answer] at answered
      exact listening_respond answered
    | done payload =>
      simp only [answer] at answered
      split at answered
      · exact listening_respond answered
      · exact listening_respond answered

theorem notify_of_bound {n : Node} {t : UInt16} {d : Driver}
    (bound : n.registry.requireBound t = .ok d) (event : Event) :
    n.notify t event = (match event.fault d with
      | some e => .error (.driver e)
      | none => .ok (), n.called event.callback t) := by
  obtain ⟨s, hs, hd⟩ := Registry.slot?_of_requireBound bound
  simp only [notify, hs, hd]
  cases event.fault d <;> rfl

theorem notify_snd (n : Node) (c : UInt16) (event : Event) :
    ∃ calls, (n.notify c event).2 = { n with calls } := by
  unfold notify
  split
  · exact ⟨n.calls, rfl⟩
  · split
    · exact ⟨n.calls, rfl⟩
    · simp only
      split <;> exact ⟨_, rfl⟩

inductive Connects (n : Node) (t : UInt16) : Reaction × Node → Prop
  | refused {e : NodeError} : n.listen t = .error e → Connects n t (.refused .invalid, n)
  | connected {d : Driver} {n' : Node} : n.registry.requireBound t = .ok d →
      Event.connected.fault d = none → n'.link.listening = n.link.listening.insert t →
      Connects n t (.done [], n')
  | rejected {d : Driver} {e : DriverError} {link : Link} {n' : Node} :
      n.registry.requireBound t = .ok d → n.link.listen t = .ok link →
      Event.connected.fault d = some e →
      n'.link.listening = (n.link.listening.insert t).erase t →
      Connects n t (.refused e.status, n')

theorem connects_connect {n : Node} {t : UInt16} (free : n.link.stopFault? = none) :
    Connects n t (n.connect t) := by
  unfold connect
  cases listened : n.listen t with
  | error e => exact .refused listened
  | ok n' =>
    cases bound : n.registry.requireBound t with
    | error e => simp only [listen, bound, reduceCtorEq] at listened
    | ok d =>
      cases accepted : n.link.listen t with
      | error e => simp only [listen, bound, accepted, reduceCtorEq] at listened
      | ok link =>
        simp only [listen, bound, accepted, Except.ok.injEq] at listened
        subst listened
        have set : link.listening = n.link.listening.insert t := by
          simp [Link.listen_eq accepted]
        simp only [notify_of_bound (n := { n with link }) bound]
        cases fault : Event.connected.fault d with
        | none => exact .connected bound fault set
        | some e =>
          have stopped :
              link.stopListening t = .ok (link.withListening (link.listening.erase t)) := by
            apply Link.stopListening_of_mem
            · simp [Link.listen_eq accepted, free]
            · simp [set]
          have after : ({ n with link }.called .connected t).stopListening t =
              .ok { { n with link }.called .connected t with
                link := link.withListening (link.listening.erase t) } := by
            simp only [stopListening, called, bound, stopped]
          simp only [Event.callback, after]
          refine .rejected bound accepted fault ?_
          simp [set]

inductive Disconnects (n : Node) (t : UInt16) : Reaction × Node → Prop
  | stopped {d : Driver} {n' : Node} : n.registry.requireBound t = .ok d →
      t ∈ n.link.listening → n'.link.listening = n.link.listening.erase t →
      Disconnects n t (.done [], n')
  | refused {e : NodeError} {n' : Node} : ¬ (n.registry.isBound t = true ∧ t ∈ n.link.listening) →
      n'.link.listening = n.link.listening → Disconnects n t (.refused e.status, n')

theorem disconnect_eq (n : Node) (t : UInt16) :
    ∃ calls, n.disconnect t = match n.link.stopListening t, n.registry.requireBound t with
      | .ok link, .ok _ => (.done [], { n with link, calls })
      | .error e, .ok _ => (.refused (NodeError.link e).status, { n with calls })
      | _, .error e => (.refused e.status, { n with calls }) := by
  obtain ⟨calls, notified⟩ := n.notify_snd t .disconnected
  refine ⟨calls, ?_⟩
  simp only [disconnect, notified, stopListening]
  cases n.registry.requireBound t with
  | error e => cases n.link.stopListening t <;> rfl
  | ok d => cases n.link.stopListening t <;> rfl

theorem disconnects_disconnect {n : Node} {t : UInt16} (free : n.link.stopFault? = none) :
    Disconnects n t (n.disconnect t) := by
  obtain ⟨calls, disconnected⟩ := n.disconnect_eq t
  rw [disconnected]
  cases bound : n.registry.requireBound t with
  | error e =>
    have unbound : ¬ (n.registry.isBound t = true ∧ t ∈ n.link.listening) := by
      rintro ⟨isBound, -⟩
      obtain ⟨d, required⟩ := Registry.requireBound_of_isBound isBound
      cases required.symm.trans bound
    cases n.link.stopListening t <;> exact .refused unbound rfl
  | ok d =>
    by_cases listens : t ∈ n.link.listening
    · rw [Link.stopListening_of_mem free listens]
      exact .stopped bound listens (Link.listening_withListening _ _)
    · obtain ⟨e, refused⟩ := Link.stopListening_of_not_mem listens
      rw [refused]
      exact .refused (fun ⟨_, present⟩ => listens present) rfl

/-- Connecting `t` would go as far as to take back a listening that was there before: the cport may
listen and does so, but its driver objects. -/
structure Revokes (n : Node) (t : UInt16) : Prop where
  rejected : ∃ d e, n.registry.requireBound t = .ok d ∧ Event.connected.fault d = some e
  allowed : ∃ link, n.link.listen t = .ok link
  listens : t ∈ n.link.listening

/-- What a request that names `t`, and is answered with this status, leaves listening. -/
structure Listens (n : Node) (connects : Prop) (t : UInt16) (status : Status) (n' : Node) :
    Prop where
  others : ∀ c, c ≠ t → (c ∈ n'.link.listening ↔ c ∈ n.link.listening)
  success : status = .success → (t ∈ n'.link.listening ↔ connects)
  stopped : ¬ connects → n.registry.isBound t = true → t ∈ n.link.listening → status = .success
  failure : status ≠ .success →
    (n'.link.listening = n.link.listening ↔ ¬ (connects ∧ n.Revokes t))
  revoked : connects → n.Revokes t → status ≠ .success ∧ t ∉ n'.link.listening

theorem Connects.listens {n n' : Node} {t : UInt16} {reaction : Reaction}
    (h : Connects n t (reaction, n')) :
    ∃ status, Tells reaction status [] ∧ Listens n True t status n' := by
  cases h with
  | refused refused =>
    have never : ¬ n.Revokes t := by
      rintro ⟨⟨d, e, bound, -⟩, ⟨link, allowed⟩, -⟩
      simp only [listen, bound, allowed, reduceCtorEq] at refused
    refine ⟨.invalid, .refused, ⟨fun _ _ => .rfl, fun success => ?_, fun silent => ?_, ?_, ?_⟩⟩
    · cases success
    · exact absurd trivial silent
    · simp [never]
    · exact fun _ revokes => absurd revokes never
  | @connected d _ bound accepts set =>
    have never : ¬ n.Revokes t := by
      rintro ⟨⟨d', e, bound', rejects⟩, -, -⟩
      cases bound.symm.trans bound'
      cases accepts.symm.trans rejects
    refine ⟨.success, .done, ⟨fun c other => ?_, fun _ => ?_, fun silent => ?_, ?_, ?_⟩⟩
    · simp [set, other]
    · simp [set]
    · exact absurd trivial silent
    · exact fun failed => absurd rfl failed
    · exact fun _ revokes => absurd revokes never
  | @rejected d e link _ bound allowed rejects set =>
    refine ⟨e.status, .refused, ⟨fun c other => ?_, fun success => ?_, fun silent => ?_, ?_, ?_⟩⟩
    · simp [set, other]
    · exact absurd success e.status_ne_success
    · exact absurd trivial silent
    · intro _
      rw [set, CportSet.erase_insert_eq_iff, true_and]
      exact ⟨fun deaf revokes => deaf revokes.listens,
        fun never listens => never ⟨⟨d, e, bound, rejects⟩, ⟨link, allowed⟩, listens⟩⟩
    · intro _ _
      rw [set, CportSet.mem_erase]
      exact ⟨e.status_ne_success, fun present => present.2 rfl⟩

theorem Disconnects.listens {n n' : Node} {t : UInt16} {reaction : Reaction}
    (h : Disconnects n t (reaction, n')) :
    ∃ status, Tells reaction status [] ∧ Listens n False t status n' := by
  cases h with
  | stopped bound listens set =>
    refine ⟨.success, .done, ⟨fun c other => ?_, fun _ => ?_, fun _ _ _ => rfl, ?_, ?_⟩⟩
    · simp [set, other]
    · rw [set, CportSet.mem_erase]
      simp
    · exact fun failed => absurd rfl failed
    · exact fun connects => connects.elim
  | @refused e _ never set =>
    refine ⟨e.status, .refused,
      ⟨fun c _ => ?_, fun success => ?_, fun _ bound listens => ?_, ?_, ?_⟩⟩
    · rw [set]
    · exact absurd success e.status_ne_success
    · exact absurd ⟨bound, listens⟩ never
    · intro _
      simp [set]
    · exact fun connects => connects.elim

theorem connect_eq (n : Node) (t : UInt16) :
    ∃ link calls, (n.connect t).2 = { n with link, calls } := by
  unfold connect
  cases listened : n.listen t with
  | error e => exact ⟨n.link, n.calls, rfl⟩
  | ok n₁ =>
    obtain ⟨link, rfl⟩ := listen_ok listened
    obtain ⟨calls, notified⟩ := { n with link }.notify_snd t .connected
    simp only
    split
    · rename_i accepted
      rw [accepted] at notified
      exact ⟨link, calls, notified⟩
    · rename_i n₂ rejected
      rw [rejected] at notified
      have notified : n₂ = { n with link, calls } := notified
      subst notified
      simp only
      split
      · rename_i stopped
        obtain ⟨link', rfl⟩ := stopListening_ok stopped
        exact ⟨link', calls, rfl⟩
      · exact ⟨link, calls, rfl⟩

theorem disconnect_snd (n : Node) (t : UInt16) :
    ∃ link calls, (n.disconnect t).2 = { n with link, calls } := by
  obtain ⟨calls, disconnected⟩ := n.disconnect_eq t
  rw [disconnected]
  cases n.link.stopListening t <;> cases n.registry.requireBound t
  · exact ⟨n.link, calls, rfl⟩
  · exact ⟨n.link, calls, rfl⟩
  · exact ⟨n.link, calls, rfl⟩
  · exact ⟨_, calls, rfl⟩

inductive Restates (c : UInt16) : Driver → Registry → Registry → Prop
  | kept (d : Driver) (r : Registry) : Restates c d r r
  | gpio (triggers triggers' : Gpio.Triggers) (r : Registry) :
      Restates c (.gpio triggers) r (r.modify c (.update (.gpio triggers')))

theorem carryOut_eq (n : Node) (c : UInt16) (d : Driver) (kind : UInt8) (body : Bytes) :
    ∃ registry board link calls,
      (n.carryOut c d kind body).2 = { n with registry, board, link, calls } ∧
        Restates c d n.registry registry := by
  have of_board {α : Type} (decoded : Except Status α) (execute : α → Board → Reaction × Board) :
      ∃ board, (n.onBoard decoded execute).2 = { n with board } := by
    cases decoded with
    | error status => exact ⟨n.board, rfl⟩
    | ok r => exact ⟨_, rfl⟩
  have of_same {n' : Node} (same : ∃ board link calls, n' = { n with board, link, calls }) :
      ∃ registry board link calls,
        n' = { n with registry, board, link, calls } ∧ Restates c d n.registry registry := by
    obtain ⟨board, link, calls, rfl⟩ := same
    exact ⟨n.registry, board, link, calls, rfl, .kept d n.registry⟩
  cases d with
  | control =>
    simp only [carryOut]
    split
    · exact of_same ⟨n.board, n.link, n.calls, rfl⟩
    · rename_i t _
      obtain ⟨link, calls, connected⟩ := n.connect_eq t
      exact of_same ⟨n.board, link, calls, connected⟩
    · rename_i t _
      obtain ⟨link, calls, disconnected⟩ := n.disconnect_snd t
      exact of_same ⟨n.board, link, calls, disconnected⟩
    · obtain ⟨board, executed⟩ := of_board _ Control.Query.execute
      exact of_same ⟨board, n.link, n.calls, executed⟩
  | gpio triggers =>
    simp only [carryOut, carryOutGpio]
    split
    · exact of_same ⟨n.board, n.link, n.calls, rfl⟩
    · exact ⟨_, _, n.link, n.calls, rfl, .gpio triggers _ n.registry⟩
  | i2c =>
    obtain ⟨board, executed⟩ := of_board (I2c.Request.decode kind body) I2c.Request.execute
    exact of_same ⟨board, n.link, n.calls, executed⟩
  | spi =>
    obtain ⟨board, executed⟩ := of_board (Spi.Request.decode kind body) Spi.Request.execute
    exact of_same ⟨board, n.link, n.calls, executed⟩
  | uart =>
    obtain ⟨board, executed⟩ := of_board (Uart.Request.decode kind body) Uart.Request.execute
    exact of_same ⟨board, n.link, n.calls, executed⟩
  | _ => exact of_same ⟨n.board, n.link, n.calls, rfl⟩

theorem connect_fst (n : Node) (t : UInt16) (counters : Counters) (calls : List Call) :
    ({ n with counters, calls }.connect t).1 = (n.connect t).1 := by
  simp only [connect, listen]
  cases bound : n.registry.requireBound t with
  | error e => rfl
  | ok d =>
    cases n.link.listen t with
    | error e => rfl
    | ok link =>
      simp only [notify_of_bound (n := { n with link }) bound,
        notify_of_bound (n := { n with link, counters, calls }) bound]
      cases Event.connected.fault d <;> rfl

theorem disconnect_fst (n : Node) (t : UInt16) (counters : Counters) (calls : List Call) :
    ({ n with counters, calls }.disconnect t).1 = (n.disconnect t).1 := by
  obtain ⟨calls₁, before⟩ := n.disconnect_eq t
  obtain ⟨calls₂, after⟩ := { n with counters, calls }.disconnect_eq t
  rw [before, after]
  cases n.registry.requireBound t <;> cases n.link.stopListening t <;> rfl

theorem Listens.of_eq {n₀ n n₁ n' : Node} {connects : Prop} {t : UInt16} {status : Status}
    (h : Listens n₀ connects t status n₁) (registry : n₀.registry = n.registry)
    (link : n₀.link = n.link) (listening : n'.link.listening = n₁.link.listening) :
    Listens n connects t status n' := by
  have revokes : n.Revokes t ↔ n₀.Revokes t :=
    ⟨fun ⟨rejected, allowed, listens⟩ => ⟨registry ▸ rejected, link ▸ allowed, link ▸ listens⟩,
      fun ⟨rejected, allowed, listens⟩ => ⟨registry ▸ rejected, link ▸ allowed, link ▸ listens⟩⟩
  obtain ⟨others, success, stopped, failure, revoked⟩ := h
  simp only [registry, link, ← revokes, ← listening] at others success stopped failure revoked
  exact ⟨others, success, stopped, failure, revoked⟩

theorem listens_carryOut {n : Node} {c t : UInt16} {kind : UInt8} {body : Bytes}
    {r : Control.Request} (free : n.link.stopFault? = none)
    (decoded : Control.Request.decode kind body = .ok r)
    (names : r = .connect t ∨ r = .disconnect t) :
    ∃ status, Tells (n.carryOut c .control kind body).1 status [] ∧
      Listens n (r = .connect t) t status (n.carryOut c .control kind body).2 := by
  rcases names with rfl | rfl
  · simp only [carryOut, decoded]
    exact (connects_connect free).listens
  · simp only [carryOut, decoded, reduceCtorEq]
    exact (disconnects_disconnect free).listens

/-- A request to connect or disconnect a cport concerns what the node listens on at that cport
alone, and the answer says whether it listens there afterwards.  A failure leaves things as they
were, unless a connect was taken back on a cport that had listened before. -/
theorem connecting_keeps_listening_iff {n : Node} {p : Packet} {r : Control.Request} {t : UInt16}
    (bound : n.registry.route p.cport = .driver .control) (free : n.link.stopFault? = none)
    (decoded : Control.Request.decode p.message.kind p.message.payload = .ok r)
    (names : r = .connect t ∨ r = .disconnect t) :
    let n' := n.dispatch p
    ∃ status, Tells (n.carryOut p.cport .control p.message.kind p.message.payload).1 status [] ∧
      (n.link.Open → n.link.Sends (answers p status []) n'.link) ∧
      Listens n (r = .connect t) t status n' := by
  have kind : p.message.kind ≠ Message.pingKind := by
    intro ping
    rw [ping] at decoded
    cases decoded
  let n₀ := (n.count fun c => { c with dispatched := c.dispatched + 1 }).called
    (.handle p.message) p.cport
  obtain ⟨status, tells, listens⟩ := listens_carryOut (n := n₀) (c := p.cport) free decoded names
  have same : (n₀.carryOut p.cport .control p.message.kind p.message.payload).1 =
      (n.carryOut p.cport .control p.message.kind p.message.payload).1 := by
    rcases names with rfl | rfl
    · simp only [carryOut, decoded]
      exact n.connect_fst t n₀.counters n₀.calls
    · simp only [carryOut, decoded]
      exact n.disconnect_fst t n₀.counters n₀.calls
  have dispatched : n.dispatch p = n₀.handle .control p := dispatch_of_route bound kind
  obtain ⟨s, hs, -⟩ := Registry.slot?_of_route bound
  have passage := (carryOut_effect n₀ p.cport .control p.message.kind p.message.payload).2 p.cport
  obtain ⟨s', hs'⟩ := passage.remains hs
  have silent := n₀.sends_carryOut p.cport .control p.message.kind p.message.payload
  refine ⟨status, same ▸ tells, fun ready => ?_, ?_⟩
  · obtain ⟨link, handled, sent⟩ := handle_tells (d := .control) rfl rfl tells (Nat.zero_le _)
      (Registry.requireRange_eq hs') ready
    rw [dispatched, handled]
    exact silent.trans sent
  · refine listens.of_eq rfl rfl ?_
    rw [dispatched, handle_builtIn _ rfl]
    exact listening_conclude _ _ _

def objecting : Node :=
  (ofParts { Config.empty with cports := [⟨0, .control⟩, ⟨1, .gpio⟩] } .fresh
    (.memory .fresh)).after
    [.register 0 0 .control,
      .register 1 1 (.scripted ⟨none, some .timeout, none, none, none, none, none, false⟩),
      .listen 1]

theorem connecting_again_stops_listening :
    let p : Packet := ⟨0, ⟨1, 0x05, 0, [1, 0]⟩⟩
    1 ∈ objecting.link.listening ∧
      ∃ status, status ≠ .success ∧
        objecting.link.Sends (answers p status []) (objecting.dispatch p).link ∧
        1 ∉ (objecting.dispatch p).link.listening := by
  intro p
  have listens : 1 ∈ objecting.link.listening := by decide
  have revokes : objecting.Revokes 1 := ⟨⟨_, .timeout, rfl, rfl⟩, ⟨_, rfl⟩, listens⟩
  obtain ⟨status, -, sent, kept⟩ := connecting_keeps_listening_iff (n := objecting) (p := p)
    (t := 1) rfl rfl rfl (.inl rfl)
  obtain ⟨failed, deaf⟩ := kept.revoked rfl revokes
  exact ⟨listens, status, failed, sent fun _ => ⟨_, rfl⟩, deaf⟩

end Node

end CportNode
