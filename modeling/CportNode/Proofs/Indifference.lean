import CportNode.Proofs.Connecting

/-!
Whether and how a request is answered has no bearing on what it does.  Two nodes that differ only in
what the host has been told, and in whether it can be told anything, carry a request out alike,
whatever its id; they come to the same answer, and differ afterwards in no more than before.
-/

namespace CportNode

inductive Concur {ε α : Type} (R : α → α → Prop) : Except ε α → Except ε α → Prop
  | error (e : ε) : Concur R (.error e) (.error e)
  | ok {a b : α} : R a b → Concur R (.ok a) (.ok b)

namespace Link

inductive Alike : Link → Link → Prop
  | memory (l : MemoryLink) (sendsFail : Bool) (sent : List Packet) :
      Alike (.memory l) (.memory { l with sendsFail, sent })
  | socket (l : SocketLink) (connections : List Connection) :
      Alike (.socket l) (.socket { l with connections })

namespace Alike

theorem refl (l : Link) : Alike l l := by
  cases l with
  | memory l => exact .memory l l.sendsFail l.sent
  | socket l => exact .socket l l.connections

theorem symm {l l' : Link} (h : Alike l l') : Alike l' l := by
  cases h with
  | memory l => exact .memory _ l.sendsFail l.sent
  | socket l => exact .socket _ l.connections

theorem trans {l₁ l₂ l₃ : Link} (h : Alike l₁ l₂) (h' : Alike l₂ l₃) : Alike l₁ l₃ := by
  cases h with
  | memory l =>
    cases h'
    exact .memory l _ _
  | socket l =>
    cases h'
    exact .socket l _

theorem of_send {l l' : Link} {p : Packet} (h : l.send p = .ok l') : Alike l l' := by
  cases l with
  | memory l =>
    simp only [send, MemoryLink.send] at h
    split at h
    · cases h
    · cases h
      exact .memory l _ _
  | socket l =>
    simp only [send, SocketLink.send] at h
    split at h
    · cases h
    · split at h
      · cases h
        exact .socket l _
      · cases h

theorem listen {l l' : Link} (h : Alike l l') (c : UInt16) :
    Concur Alike (l.listen c) (l'.listen c) := by
  cases h with
  | memory l =>
    simp only [Link.listen, MemoryLink.listen]
    split
    · exact .error _
    · exact .ok (.memory _ _ _)
  | socket l => exact .ok (.socket _ _)

theorem stopListening {l l' : Link} (h : Alike l l') (c : UInt16) :
    Concur Alike (l.stopListening c) (l'.stopListening c) := by
  cases h with
  | memory l =>
    simp only [Link.stopListening, MemoryLink.stopListening]
    split
    · exact .error _
    · split
      · exact .ok (.memory _ _ _)
      · exact .error _
  | socket l =>
    simp only [Link.stopListening, SocketLink.stopListening]
    split
    · exact .ok (.socket _ _)
    · exact .error _

end Alike

theorem Open.of_send {l l' : Link} {p : Packet} (h : l.send p = .ok l') : l.Open := by
  intro q
  cases l with
  | memory l =>
    simp only [send, MemoryLink.send] at h
    split at h
    · cases h
    · rename_i works
      exact ⟨_, by simp only [send, MemoryLink.send, if_neg works]; rfl⟩
  | socket l =>
    simp only [send, SocketLink.send] at h
    split at h
    · cases h
    · rename_i current
      split at h
      · rename_i reads
        exact ⟨_, by simp only [send, SocketLink.send, current, if_pos reads]; rfl⟩
      · cases h

theorem refuses_of_not_open {l : Link} (h : ¬ l.Open) (p : Packet) : ∃ e, l.send p = .error e := by
  cases sent : l.send p with
  | error e => exact ⟨e, rfl⟩
  | ok l' => exact absurd (.of_send sent) h

end Link

def Call.outline : Call → Call
  | ⟨.handle m, c⟩ => ⟨.handle { m with id := 0 }, c⟩
  | call => call

namespace Node

/-- Nodes that may differ in what the host was told, in whether it can be told anything, and in how
often that was given up. -/
inductive Twins (n : Node) : Node → Prop
  | mk {link : Link} {calls : List Call} {handlerErrors : Nat} : n.link.Alike link →
      calls.map Call.outline = n.calls.map Call.outline →
      Twins n { n with link, calls, counters := { n.counters with handlerErrors } }

namespace Twins

variable {n n' : Node}

theorem refl (n : Node) : Twins n n :=
  .mk (.refl _) rfl

theorem symm (h : Twins n n') : Twins n' n := by
  cases h with
  | mk link calls => exact .mk link.symm calls.symm

theorem trans {n₁ n₂ n₃ : Node} (h : Twins n₁ n₂) (h' : Twins n₂ n₃) : Twins n₁ n₃ := by
  cases h with
  | mk link calls =>
    cases h' with
    | mk link' calls' => exact .mk (link.trans link') (calls'.trans calls)

theorem listen (h : Twins n n') (c : UInt16) : Concur Twins (n.listen c) (n'.listen c) := by
  cases h with
  | @mk link calls errors alike outline =>
    simp only [Node.listen]
    cases n.registry.requireBound c with
    | error e => exact .error e
    | ok d =>
      have listened := alike.listen c
      generalize n.link.listen c = outcome, link.listen c = outcome' at listened
      cases listened with
      | error e => exact .error _
      | ok alike => exact .ok (.mk alike outline)

theorem stopListening (h : Twins n n') (c : UInt16) :
    Concur Twins (n.stopListening c) (n'.stopListening c) := by
  cases h with
  | @mk link calls errors alike outline =>
    simp only [Node.stopListening]
    cases n.registry.requireBound c with
    | error e => exact .error e
    | ok d =>
      have stopped := alike.stopListening c
      generalize n.link.stopListening c = outcome, link.stopListening c = outcome' at stopped
      cases stopped with
      | error e => exact .error _
      | ok alike => exact .ok (.mk alike outline)

theorem called (h : Twins n n') (callback : Callback) (c : UInt16) :
    Twins (n.called callback c) (n'.called callback c) := by
  cases h with
  | mk alike outline => exact .mk alike (congrArg (Call.outline ⟨callback, c⟩ :: ·) outline)

theorem notify (h : Twins n n') (c : UInt16) (event : Event) :
    (n'.notify c event).1 = (n.notify c event).1 ∧
      Twins (n.notify c event).2 (n'.notify c event).2 := by
  have same : n'.registry = n.registry := by cases h; rfl
  simp only [Node.notify, same]
  split
  · exact ⟨rfl, h⟩
  · split
    · exact ⟨rfl, h⟩
    · split <;> exact ⟨rfl, h.called _ _⟩

theorem connect (h : Twins n n') (t : UInt16) :
    (n'.connect t).1 = (n.connect t).1 ∧ Twins (n.connect t).2 (n'.connect t).2 := by
  have listened := h.listen t
  simp only [Node.connect]
  generalize n.listen t = outcome, n'.listen t = outcome' at listened
  cases listened with
  | error e => exact ⟨rfl, h⟩
  | @ok n₁ n₁' h₁ =>
    obtain ⟨said, h₂⟩ := h₁.notify t .connected
    simp only
    generalize n₁.notify t .connected = notified, n₁'.notify t .connected = notified' at said h₂
    obtain ⟨outcome, n₂⟩ := notified
    obtain ⟨outcome', n₂'⟩ := notified'
    cases said
    cases outcome with
    | ok => exact ⟨rfl, h₂⟩
    | error e =>
      have stopped := h₂.stopListening t
      refine ⟨rfl, ?_⟩
      simp only
      generalize n₂.stopListening t = outcome, n₂'.stopListening t = outcome' at stopped
      cases stopped with
      | error e => exact h₂
      | ok h₃ => exact h₃

theorem disconnect (h : Twins n n') (t : UInt16) :
    (n'.disconnect t).1 = (n.disconnect t).1 ∧ Twins (n.disconnect t).2 (n'.disconnect t).2 := by
  have h₁ := (h.notify t .disconnected).2
  have stopped := h₁.stopListening t
  simp only [Node.disconnect]
  generalize (n.notify t .disconnected).2.stopListening t = outcome,
    (n'.notify t .disconnected).2.stopListening t = outcome' at stopped
  cases stopped with
  | error e => exact ⟨rfl, h₁⟩
  | ok h₂ => exact ⟨rfl, h₂⟩

theorem onBoard {α : Type} (h : Twins n n') (decoded : Except Status α)
    (execute : α → Board → Reaction × Board) :
    (n'.onBoard decoded execute).1 = (n.onBoard decoded execute).1 ∧
      Twins (n.onBoard decoded execute).2 (n'.onBoard decoded execute).2 := by
  cases decoded with
  | error status => exact ⟨rfl, h⟩
  | ok r =>
    cases h with
    | mk alike outline => exact ⟨rfl, .mk alike outline⟩

theorem carryOutGpio (h : Twins n n') (c : UInt16) (triggers : Gpio.Triggers)
    (decoded : Except Status Gpio.Request) :
    (n'.carryOutGpio c triggers decoded).1 = (n.carryOutGpio c triggers decoded).1 ∧
      Twins (n.carryOutGpio c triggers decoded).2 (n'.carryOutGpio c triggers decoded).2 := by
  cases decoded with
  | error status => exact ⟨rfl, h⟩
  | ok r =>
    cases h with
    | mk alike outline => exact ⟨rfl, .mk alike outline⟩

theorem carryOut (h : Twins n n') (c : UInt16) (d : Driver) (kind : UInt8) (body : Bytes) :
    (n'.carryOut c d kind body).1 = (n.carryOut c d kind body).1 ∧
      Twins (n.carryOut c d kind body).2 (n'.carryOut c d kind body).2 := by
  cases d with
  | control =>
    simp only [Node.carryOut]
    split
    · exact ⟨rfl, h⟩
    · exact h.connect _
    · exact h.disconnect _
    · exact h.onBoard _ _
  | gpio triggers => exact h.carryOutGpio c triggers _
  | i2c => exact h.onBoard _ _
  | spi => exact h.onBoard _ _
  | uart => exact h.onBoard _ _
  | firmwareManagement =>
    have same : n'.board = n.board := by cases h; rfl
    exact ⟨by simp only [Node.carryOut, same], h⟩
  | _ => exact ⟨rfl, h⟩

end Twins

section Answering

variable {n n' : Node} {p : Packet}

theorem twins_send (h : n.send p = .ok n') : Twins n n' := by
  unfold send at h
  split at h
  · cases h
  · split at h
    · rename_i sent
      cases h
      exact .mk (.of_send sent) rfl
    · cases h

theorem twins_respond {c : UInt16} {request : Message} {status : Status} {payload : Bytes}
    (h : n.respond c request status payload = .ok n') : Twins n n' := by
  unfold respond at h
  split at h
  · cases h
    exact .refl n
  · split at h
    · cases h
    · exact twins_send h

theorem twins_answer {reaction : Reaction} (h : n.answer p reaction = .ok n') : Twins n n' := by
  cases reaction with
  | quiet =>
    cases h
    exact .refl n
  | refused status =>
    simp only [answer] at h
    exact twins_respond h
  | done payload =>
    simp only [answer] at h
    split at h
    · exact twins_respond h
    · exact twins_respond h

theorem twins_conclude (n : Node) (p : Packet) (reaction : Reaction) :
    Twins n (n.conclude (n.answer p reaction)) := by
  cases answered : n.answer p reaction with
  | ok n' => exact twins_answer answered
  | error e => exact .mk (.refl _) rfl

end Answering

def replyTo : Reaction → Option (Status × Bytes)
  | .quiet => none
  | .refused status => some (status, [])
  | .done payload =>
    if payload.length ≤ Message.maxPayload then some (.success, payload) else some (.overflow, [])

def replies (p : Packet) : Option (Status × Bytes) → List Packet
  | none => []
  | some (status, payload) => answers p status payload

inductive Delivered (n : Node) (packets : List Packet) : Except NodeError Node → Prop
  | sent {link : Link} : n.link.Sends packets link → Delivered n packets (.ok { n with link })
  | refused {e : NodeError} : ¬ n.link.Open → packets ≠ [] → (∀ m, e ≠ .message m) →
      Delivered n packets (.error e)

theorem delivered_respond {n : Node} {p : Packet}
    (inRange : n.registry.requireRange p.cport = .ok ()) (status : Status) {payload : Bytes}
    (fits : payload.length ≤ Message.maxPayload) :
    Delivered n (answers p status payload) (n.respond p.cport p.message status payload) := by
  by_cases ready : n.link.Open
  · obtain ⟨link, responded, sent⟩ := respond_of_open inRange ready status payload fits
    rw [responded]
    exact .sent sent
  · unfold respond answers
    split
    · exact .sent (.refl _)
    · simp only [Message.response, Message.carrying, if_pos fits, send, inRange]
      obtain ⟨e, refused⟩ := Link.refuses_of_not_open ready
        ⟨p.cport, ⟨p.message.id, p.message.kind ||| Message.responseFlag, status.code, payload⟩⟩
      rw [refused]
      exact .refused ready (List.cons_ne_nil _ _) fun m h => by cases h

theorem delivered_answer {n : Node} {p : Packet}
    (inRange : n.registry.requireRange p.cport = .ok ()) (reaction : Reaction) :
    Delivered n (replies p (replyTo reaction)) (n.answer p reaction) := by
  cases reaction with
  | quiet => exact .sent (.refl _)
  | refused status => exact delivered_respond inRange status (Nat.zero_le _)
  | done payload =>
    by_cases fits : payload.length ≤ Message.maxPayload
    · have delivered := delivered_respond inRange .success fits
      simp only [replyTo, if_pos fits, answer]
      generalize n.respond p.cport p.message .success payload = outcome at delivered
      cases delivered with
      | sent sent => exact .sent sent
      | refused shut due other =>
        split
        · rename_i m h
          cases h
          exact absurd rfl (other m)
        · exact .refused shut due other
    · -- A one-shot request has no answer to build, and so none that is too large.
      by_cases oneShot : p.message.oneShot = true
      · have none : replies p (replyTo (.done payload)) = [] := by
          simp only [replyTo, if_neg fits, replies, answers, if_pos oneShot]
        have answered : n.answer p (.done payload) = .ok n := by
          simp [answer, respond, oneShot]
        rw [none, answered]
        exact .sent (.refl _)
      · have tooLarge : n.respond p.cport p.message .success payload =
            .error (.message (.payloadTooLarge payload.length Message.maxPayload)) := by
          simp [respond, oneShot, Message.response, Message.carrying, fits]
        simp only [replyTo, if_neg fits, answer, tooLarge]
        exact delivered_respond inRange .overflow (Nat.zero_le _)

/-- What a request came to for the host: it was told the reply, if it is one to be told, or the link
took nothing.  That is counted unless the driver never knew of the request. -/
inductive Heard (n : Node) (p : Packet) (reply : Option (Status × Bytes)) (n' : Node) : Prop
  | told : n.link.Sends (replies p reply) n'.link →
      n'.counters.handlerErrors = n.counters.handlerErrors → Heard n p reply n'
  | refused : ¬ n.link.Open → replies p reply ≠ [] → n.link.Sends [] n'.link →
      n'.counters.handlerErrors =
        n.counters.handlerErrors + (if p.message.kind = Message.pingKind then 0 else 1) →
      Heard n p reply n'

section Dispatching

variable {n : Node} {p : Packet} {d : Driver}

theorem ping_heard (bound : n.registry.route p.cport = .driver d)
    (ping : p.message.kind = Message.pingKind) :
    Twins (n.count fun c => { c with pinged := c.pinged + 1 }) (n.dispatch p) ∧
      Heard n p (some (.success, [])) (n.dispatch p) := by
  let n₀ := n.count fun c => { c with pinged := c.pinged + 1 }
  obtain ⟨s, hs, -⟩ := Registry.slot?_of_route bound
  have delivered := delivered_answer (n := n₀) (p := p) (Registry.requireRange_eq hs) (.done [])
  have twins {n₁ : Node} (h : n₀.answer p (.done []) = .ok n₁) := twins_answer h
  simp only [dispatch, bound, if_pos ping]
  change Delivered n₀ (answers p .success []) _ at delivered
  generalize n₀.answer p (.done []) = outcome at delivered twins
  cases delivered with
  | sent sent => exact ⟨twins rfl, .told sent rfl⟩
  | refused shut due => exact ⟨.refl _, .refused shut due (.refl _) (by rw [if_pos ping]; rfl)⟩

theorem request_heard (bound : n.registry.route p.cport = .driver d) (builtIn : d.builtIn = true)
    (kind : p.message.kind ≠ Message.pingKind) :
    let n₀ := (n.count fun c => { c with dispatched := c.dispatched + 1 }).called
      (.handle p.message) p.cport
    let carried := n₀.carryOut p.cport d p.message.kind p.message.payload
    Twins carried.2 (n.dispatch p) ∧ Heard n p (replyTo carried.1) (n.dispatch p) := by
  intro n₀ carried
  obtain ⟨intake, passage⟩ := carryOut_effect n₀ p.cport d p.message.kind p.message.payload
  have silent := n₀.sends_carryOut p.cport d p.message.kind p.message.payload
  obtain ⟨s, hs, -⟩ := Registry.slot?_of_route bound
  obtain ⟨s', hs'⟩ := (passage p.cport).remains hs
  have delivered := delivered_answer (n := carried.2) (p := p) (Registry.requireRange_eq hs')
    carried.1
  have concluded : n.dispatch p = carried.2.conclude (carried.2.answer p carried.1) := by
    rw [dispatch_of_route bound kind, handle_builtIn _ builtIn]
  have errors : carried.2.counters.handlerErrors = n.counters.handlerErrors := by
    rw [intake.counters]
    rfl
  refine ⟨concluded ▸ twins_conclude carried.2 p carried.1, ?_⟩
  rw [concluded]
  generalize carried.2.answer p carried.1 = outcome at delivered
  cases delivered with
  | sent sent => exact .told (silent.trans sent) errors
  | refused shut due =>
    refine .refused (fun ready => shut (silent.open ready)) due silent ?_
    rw [if_neg kind]
    exact congrArg (· + 1) errors

/-- A request at a driver that comes with the node does the same under whatever id it is made, one
that wants no answer included, and whether or not the link takes the answer.  The runs differ in the
answer that is sent and in how often one could not be, and in nothing else; and they all come to the
same answer. -/
theorem dispatch_indifferent (bound : n.registry.route p.cport = .driver d)
    (builtIn : d.builtIn = true) :
    ∃ reply, ∀ id link, n.link.Alike link →
      let q : Packet := { p with message.id := id }
      Twins (n.dispatch p) ({ n with link }.dispatch q) ∧
        Heard { n with link } q reply ({ n with link }.dispatch q) := by
  by_cases ping : p.message.kind = Message.pingKind
  · obtain ⟨twins, -⟩ := ping_heard bound ping
    refine ⟨some (.success, []), fun id link alike => ?_⟩
    intro q
    obtain ⟨twins', heard⟩ := ping_heard (n := { n with link }) (p := q) bound ping
    exact ⟨(twins.symm.trans (.mk alike rfl)).trans twins', heard⟩
  · obtain ⟨twins, -⟩ := request_heard bound builtIn ping
    let handed (n : Node) (p : Packet) : Node :=
      (n.count fun c => { c with dispatched := c.dispatched + 1 }).called (.handle p.message) p.cport
    let carried := (handed n p).carryOut p.cport d p.message.kind p.message.payload
    refine ⟨replyTo carried.1, fun id link alike => ?_⟩
    intro q
    obtain ⟨twins', heard⟩ := request_heard (n := { n with link }) (p := q) bound builtIn ping
    have start : Twins (handed n p) (handed { n with link } q) := .mk alike rfl
    obtain ⟨same, both⟩ := start.carryOut p.cport d p.message.kind p.message.payload
    exact ⟨(twins.symm.trans both).trans twins', same ▸ heard⟩

theorem dispatch_indifferent_unheard :
    let n := ((ofParts { Config.empty with cports := [⟨1, .gpio⟩] } .fresh
      (.memory .fresh)).registerAll).2
    let p : Packet := ⟨0, ⟨7, 0x07, 0, [0, 1]⟩⟩
    let shut : Link := .memory { MemoryLink.fresh with sendsFail := true }
    (∀ q, ∃ e, shut.send q = .error e) ∧
      Twins (n.dispatch p) ({ n with link := shut }.dispatch p) ∧
      Twins (n.dispatch p) ({ n with link := shut }.dispatch { p with message.id := 0 }) := by
  intro n p shut
  have alike : n.link.Alike shut := .memory .fresh true []
  obtain ⟨reply, same⟩ := dispatch_indifferent (n := n) (p := p) (d := .gpio .fresh) rfl rfl
  exact ⟨fun q => ⟨_, rfl⟩, (same 7 shut alike).1, (same 0 shut alike).1⟩

end Dispatching

end Node

end CportNode
