import CportNode.Proofs.Echoes
import CportNode.Proofs.ShutDown
import Mathlib.Algebra.BigOperators.Group.List.Basic

namespace CportNode

namespace Node

/-- What a node needs to be at one end of a wire: its link is in memory and takes whatever is sent,
nothing holds its worker, and all its drivers come with it. -/
structure Wired (n : Node) : Prop where
  builtIn : n.registry.BuiltIn
  capacity : 0 < n.config.queueCapacity
  accepting : n.accepting = true
  free : n.held = none
  present : n.discarded = false
  link : ∃ l : MemoryLink, n.link = .memory l ∧ l.attached = true ∧ l.sendsFail = false

def backlog (n : Node) : List Packet :=
  n.queue ++ n.waiting

def unload (n : Node) : Option Packet × Node :=
  match n.link with
  | .memory l => (l.receive.1, { n with link := .memory l.receive.2 })
  | .socket _ => (none, n)

structure Stays (n n' : Node) : Prop where
  wired : n'.Wired
  echoes : n'.registry.echoes = n.registry.echoes

theorem Wired.open {n : Node} (h : n.Wired) : n.link.Open := by
  obtain ⟨l, link, -, works⟩ := h.link
  intro p
  refine ⟨.memory { l with sent := l.sent ++ [p] }, ?_⟩
  rw [link]
  simp only [Link.send, MemoryLink.send, works]
  rfl

theorem Wired.sends {n n' : Node} (h : n.Wired) {packets : List Packet}
    (sent : n.link.Sends packets n'.link) :
    n'.link.sent = n.link.sent ++ packets ∧
      ∃ l : MemoryLink, n'.link = .memory l ∧ l.attached = true ∧ l.sendsFail = false := by
  obtain ⟨l, link, attached, works⟩ := h.link
  rw [link] at sent ⊢
  obtain ⟨set, same⟩ := sent.eq_memory
  rw [same]
  exact ⟨rfl, _, rfl, attached, works⟩

inductive Replies (r : Registry) (p : Packet) : List Packet → Prop
  | silent : r.echoes p = false → Replies r p []
  | answered (status : Status) (payload : Bytes) :
      (p.message.isResponse = true → r.echoes p = true) → Replies r p (answers p status payload)

theorem Wired.replies {n : Node} (h : n.Wired) (p : Packet) :
    ∃ packets, Replies n.registry p packets ∧ n.link.Sends packets (n.dispatch p).link := by
  cases route : n.registry.route p.cport with
  | draining =>
    refine ⟨[], .silent (by rw [Registry.echoes, route]), ?_⟩
    simp only [dispatch, route]
    exact .refl _
  | unbound =>
    refine ⟨[], .silent (by rw [Registry.echoes, route]), ?_⟩
    simp only [dispatch, route]
    exact .refl _
  | driver d =>
    have builtIn := h.builtIn p.cport d (Registry.driver?_of_route route)
    have echoes : n.registry.echoes p = !d.consumes p.message.kind := by
      simp only [Registry.echoes, route]
    cases response : p.message.isResponse with
    | false =>
      obtain ⟨status, payload, sent, -⟩ := dispatch_answers_once route builtIn response h.open
      exact ⟨_, .answered status payload (by simp [response]), sent⟩
    | true =>
      have sent := dispatch_of_response route builtIn response h.open
      cases consumed : d.consumes p.message.kind with
      | true =>
        rw [if_pos consumed] at sent
        exact ⟨[], .silent (by rw [echoes, consumed]; rfl), sent⟩
      | false =>
        rw [if_neg (Bool.not_eq_true _ ▸ consumed)] at sent
        exact ⟨_, .answered d.refusal [] fun _ => by rw [echoes, consumed]; rfl, sent⟩

theorem dispatch_eq {n : Node} (builtIn : n.registry.BuiltIn) (p : Packet) :
    ∃ registry board link counters calls,
      n.dispatch p = { n with registry, board, link, counters, calls } ∧
        (registry = n.registry ∨ ∃ d, n.registry.route p.cport = .driver d ∧
          Restates p.cport d n.registry registry) := by
  unfold dispatch
  cases route : n.registry.route p.cport with
  | draining => exact ⟨n.registry, n.board, n.link, _, n.calls, rfl, .inl rfl⟩
  | unbound => exact ⟨n.registry, n.board, n.link, _, n.calls, rfl, .inl rfl⟩
  | driver d =>
    simp only
    split
    · split
      · rename_i answered
        obtain ⟨link, rfl⟩ := answer_ok answered
        exact ⟨n.registry, n.board, link, _, n.calls, rfl, .inl rfl⟩
      · exact ⟨n.registry, n.board, n.link, _, n.calls, rfl, .inl rfl⟩
    · rw [handle_builtIn _ (builtIn p.cport d (Registry.driver?_of_route route))]
      obtain ⟨registry, board, link, calls, carried, restates⟩ := carryOut_eq
        ((n.count fun c => { c with dispatched := c.dispatched + 1 }).called
          (.handle p.message) p.cport) p.cport d p.message.kind p.message.payload
      simp only [carried]
      rcases conclude_answer _ p _ with ⟨link', answered⟩ | failed
      · rw [answered]
        exact ⟨registry, board, link', _, calls, rfl, .inr ⟨d, rfl, restates⟩⟩
      · rw [failed]
        exact ⟨registry, board, link, _, calls, rfl, .inr ⟨d, rfl, restates⟩⟩

theorem Wired.dispatch {n : Node} (h : n.Wired) (p : Packet) : Stays n (n.dispatch p) := by
  obtain ⟨packets, -, sent⟩ := h.replies p
  obtain ⟨-, link⟩ := h.sends sent
  obtain ⟨registry, board, link', counters, calls, dispatched, restates⟩ := dispatch_eq h.builtIn p
  rw [dispatched] at link ⊢
  have of_registry (builtIn : registry.BuiltIn) (echoes : registry.echoes = n.registry.echoes) :
      Stays n { n with registry, board, link := link', counters, calls } :=
    ⟨⟨builtIn, h.capacity, h.accepting, h.free, h.present, link⟩, echoes⟩
  rcases restates with rfl | ⟨d, bound, restates⟩
  · exact of_registry h.builtIn rfl
  · exact of_registry (restates.builtIn h.builtIn) (restates.echoes bound)

theorem Wired.requeued {n : Node} (h : n.Wired) (queue waiting : List Packet)
    (counters : Counters) : Stays n { n with queue, waiting, counters } :=
  ⟨⟨h.builtIn, h.capacity, h.accepting, h.free, h.present, h.link⟩, rfl⟩

theorem Wired.letIn {n : Node} (h : n.Wired) (place : Nat) : Stays n (n.letIn place) := by
  obtain ⟨queue, waiting, counters, entered⟩ := n.letIn_eq place
  rw [entered]
  exact h.requeued queue waiting counters

theorem perm_backlog_letIn (n : Node) (place : Nat) :
    (n.letIn place).backlog.Perm n.backlog := by
  have entered := letIn_letIn n place
  generalize n.letIn place = n' at *
  cases entered with
  | stays idle => exact .refl _
  | enters p waits room =>
    obtain ⟨inLine, here⟩ := List.getElem?_eq_some_iff.mp waits
    show (n.queue ++ [p] ++ n.waiting.eraseIdx place).Perm (n.queue ++ n.waiting)
    rw [List.append_assoc, List.singleton_append, ← here]
    exact (List.getElem_cons_eraseIdx_perm inLine).append_left _

theorem perm_backlog_elim (n : Node) (place : Option Nat) :
    (place.elim n n.letIn).backlog.Perm n.backlog := by
  cases place with
  | none => exact .refl _
  | some place => exact n.perm_backlog_letIn place

@[simp] theorem backlog_dispatch (n : Node) (p : Packet) : (n.dispatch p).backlog = n.backlog := by
  have kept := (dispatched_dispatch n p).sameQueue
  rw [backlog, kept.queue, kept.waiting]
  rfl

inductive Works (n : Node) : Node → Prop
  | idle : n.queue = [] → Works n n
  | dispatches {n' : Node} (p : Packet) (packets : List Packet) :
      n.backlog.Perm (p :: n'.backlog) → Replies n.registry p packets →
      n'.link.sent = n.link.sent ++ packets → Works n n'

theorem Wired.workFor {n : Node} (h : n.Wired) (place : Option Nat) :
    Stays n (n.workFor place) ∧ Works n (n.workFor place) := by
  unfold Node.workFor
  cases taken : n.take with
  | none => exact ⟨⟨h, rfl⟩, .idle (take_none h.free taken)⟩
  | some taken' =>
    obtain ⟨p, n₁⟩ := taken'
    obtain ⟨-, queue, same⟩ := take_some taken
    obtain ⟨queue', waiting, counters, entered⟩ := n₁.elim_letIn_eq place
    have shuffled := n₁.perm_backlog_elim place
    show Stays n ((place.elim n₁ n₁.letIn).dispatch p) ∧
      Works n ((place.elim n₁ n₁.letIn).dispatch p)
    generalize place.elim n₁ n₁.letIn = n₂ at *
    have stays : Stays n n₂ := by
      rw [entered, same]
      exact h.requeued queue' waiting counters
    have link : n₂.link = n.link := by rw [entered, same]
    have registry : n₂.registry = n.registry := by rw [entered, same]
    have dispatched := stays.wired.dispatch p
    obtain ⟨packets, replies, sent⟩ := stays.wired.replies p
    obtain ⟨sent, -⟩ := stays.wired.sends sent
    refine ⟨⟨dispatched.wired, dispatched.echoes.trans stays.echoes⟩,
      .dispatches p packets ?_ (registry ▸ replies) (link ▸ sent)⟩
    have front : n.backlog = p :: n₁.backlog := by
      rw [Node.backlog, queue, Node.backlog, same]
      rfl
    simpa [front] using shuffled.symm.cons p

theorem Wired.dispatches {n : Node} (h : n.Wired) (some : 0 < n.pending) :
    let n' := (n.letIn 0).workFor none
    Stays n n' ∧ ∃ p packets, n.backlog.Perm (p :: n'.backlog) ∧
      Replies n.registry p packets ∧ n'.link.sent = n.link.sent ++ packets := by
  intro n'
  have entered := h.letIn 0
  have same : (n.letIn 0).registry = n.registry ∧ (n.letIn 0).link = n.link := by
    obtain ⟨queue, waiting, counters, entered⟩ := n.letIn_eq 0
    rw [entered]
    exact ⟨rfl, rfl⟩
  obtain ⟨worked, works⟩ := entered.wired.workFor none
  have works : Works (n.letIn 0) n' := works
  refine ⟨⟨worked.wired, worked.echoes.trans entered.echoes⟩, ?_⟩
  generalize n' = n' at works
  cases works with
  | idle empty => exact absurd empty (queue_letIn h.capacity some)
  | dispatches p packets perm replies sent =>
    refine ⟨p, packets, (n.perm_backlog_letIn 0).symm.trans perm, same.1 ▸ replies, ?_⟩
    rw [sent, same.2]

inductive Arrives (n : Node) (p : Packet) (n' : Node) : Prop
  | queued : n'.backlog.Perm (p :: n.backlog) → Arrives n p n'
  | dropped : n'.backlog = n.backlog → n.registry.echoes p = false → Arrives n p n'

theorem deliver_snd {n : Node} (present : n.discarded = false) (p : Packet) :
    (n.deliver p).2 = (n.receive p).2 := by
  simp only [deliver, present, Bool.false_eq_true, if_false]
  obtain ⟨receipt, n'⟩ := n.receive p
  cases receipt with
  | refused cause => cases cause <;> rfl
  | _ => rfl

theorem Wired.inject {n : Node} (h : n.Wired) (p : Packet) :
    Stays n (n.inject p).2 ∧ Arrives n p (n.inject p).2 ∧ (n.inject p).2.link = n.link := by
  have injected : (n.inject p).2 = (n.receive p).2 := by
    obtain ⟨l, link, attached, -⟩ := h.link
    have attached : n.link.attached = true := by
      rw [link]
      exact attached
    rw [Node.inject, if_pos attached, deliver_snd h.present]
  have deaf (vacant : n.registry.driver? p.cport = none) : n.registry.echoes p = false := by
    by_contra echoes
    obtain ⟨d, route, -⟩ := Registry.route_of_echoes (Bool.not_eq_false _ ▸ echoes)
    cases vacant.symm.trans (Registry.driver?_of_route route)
  rw [injected]
  have received := received_receive n p
  generalize n.receive p = outcome at *
  cases received with
  | invalid e missing =>
    exact ⟨⟨h, rfl⟩, .dropped rfl (deaf (by rw [Registry.driver?, missing]; rfl)), rfl⟩
  | refused d e bound closed => cases closed.symm.trans h.accepting
  | dropped hs vacant =>
    exact ⟨h.requeued n.queue n.waiting _,
      .dropped rfl (deaf ((Registry.driver?_eq hs).trans vacant)), rfl⟩
  | accepted d bound accepting room =>
    refine ⟨h.requeued (n.queue ++ [p]) n.waiting _, .queued ?_, rfl⟩
    show (n.queue ++ [p] ++ n.waiting).Perm (p :: (n.queue ++ n.waiting))
    rw [List.append_assoc]
    exact List.perm_middle
  | waiting d bound accepting full =>
    refine ⟨h.requeued n.queue (n.waiting ++ [p]) _, .queued ?_, rfl⟩
    show (n.queue ++ (n.waiting ++ [p])).Perm (p :: (n.queue ++ n.waiting))
    rw [← List.append_assoc]
    exact List.perm_append_singleton p _

theorem Wired.unload {n : Node} (h : n.Wired) :
    (n.link.sent = [] ∧ n.unload.1 = none) ∨
      ∃ p, n.link.sent = p :: n.unload.2.link.sent ∧ n.unload.1 = some p ∧ Stays n n.unload.2 ∧
        n.unload.2.backlog = n.backlog := by
  obtain ⟨l, link, attached, works⟩ := h.link
  simp only [Node.unload, link, MemoryLink.receive]
  cases sent : l.sent with
  | nil => exact .inl ⟨sent, rfl⟩
  | cons p rest =>
    refine .inr ⟨p, sent, rfl, ⟨⟨h.builtIn, h.capacity, h.accepting, h.free, h.present, ?_⟩, rfl⟩,
      rfl⟩
    exact ⟨{ l with sent := rest }, rfl, attached, works⟩

end Node

structure Wire where
  near : Node
  far : Node

/-- What can happen next at the near end of a wire: the far node gets the oldest packet that was
sent, room on the queue is used, or the worker takes a packet.  Or the ends change places. -/
inductive Turn
  | carry
  | letIn (place : Nat)
  | work (place : Option Nat)
  | switch

def Turn.apply : Turn → Wire → Nat × Wire
  | carry, w =>
    match w.near.unload with
    | (some p, near) => (1, ⟨near, (w.far.inject p).2⟩)
    | (none, _) => (0, w)
  | letIn place, w => (0, ⟨w.near.letIn place, w.far⟩)
  | work place, w => (0, ⟨w.near.workFor place, w.far⟩)
  | switch, w => (0, ⟨w.far, w.near⟩)

namespace Wire

def run : Wire → List Turn → Nat × Wire
  | w, [] => (0, w)
  | w, t :: turns =>
    let (first, w) := t.apply w
    let (rest, w) := w.run turns
    (first + rest, w)

def pending (w : Wire) : List Packet :=
  w.near.backlog ++ w.near.link.sent ++ (w.far.backlog ++ w.far.link.sent)

/-- Both nodes would answer a response to the packet. -/
structure Restless (w : Wire) (p : Packet) : Prop where
  twoWay : p.message.oneShot = false
  near : w.near.registry.echoes p = true
  far : w.far.registry.echoes p = true

structure Wired (w : Wire) : Prop where
  near : w.near.Wired
  far : w.far.Wired

@[simp] theorem run_append (w : Wire) (turns turns' : List Turn) :
    w.run (turns ++ turns') =
      ((w.run turns).1 + ((w.run turns).2.run turns').1, ((w.run turns).2.run turns').2) := by
  induction turns generalizing w with
  | nil => simp only [List.nil_append, run, Nat.zero_add]
  | cons t turns ih => simp only [List.cons_append, run, ih, Nat.add_assoc]

inductive Turned (w : Wire) : Turn → Nat × Wire → Prop
  | idle : w.near.link.sent = [] → Turned w .carry (0, w)
  | carried {near far : Node} (p : Packet) : w.near.Stays near → w.far.Stays far →
      w.near.link.sent = p :: near.link.sent → near.backlog = w.near.backlog →
      w.far.Arrives p far → far.link = w.far.link → Turned w .carry (1, ⟨near, far⟩)
  | shuffled {place : Nat} {near : Node} : w.near.Stays near →
      near.backlog.Perm w.near.backlog → near.link = w.near.link →
      Turned w (.letIn place) (0, ⟨near, w.far⟩)
  | worked {place : Option Nat} {near : Node} : w.near.Stays near → w.near.Works near →
      Turned w (.work place) (0, ⟨near, w.far⟩)
  | switched : Turned w .switch (0, ⟨w.far, w.near⟩)

theorem Wired.turned {w : Wire} (h : w.Wired) (t : Turn) : Turned w t (t.apply w) := by
  cases t with
  | carry =>
    rcases h.near.unload with ⟨empty, none⟩ | ⟨p, sent, some, near, backlog⟩
    · have apply : Turn.carry.apply w = (0, w) := by
        rw [Turn.apply, ← Prod.eta w.near.unload, none]
      rw [apply]
      exact .idle empty
    · have apply : Turn.carry.apply w = (1, ⟨w.near.unload.2, (w.far.inject p).2⟩) := by
        rw [Turn.apply, ← Prod.eta w.near.unload, some]
      obtain ⟨far, arrives, link⟩ := h.far.inject p
      rw [apply]
      exact .carried p near far sent backlog arrives link
  | letIn place =>
    have link : (w.near.letIn place).link = w.near.link := by
      obtain ⟨queue, waiting, counters, same⟩ := w.near.letIn_eq place
      rw [same]
    exact .shuffled (h.near.letIn place) (w.near.perm_backlog_letIn place) link
  | work place =>
    obtain ⟨near, works⟩ := h.near.workFor place
    exact .worked near works
  | switch => exact .switched

variable {w w' : Wire} {t : Turn} {k : Nat}

theorem Turned.wired (h : Turned w t (k, w')) (wired : w.Wired) : w'.Wired := by
  cases h with
  | idle _ => exact wired
  | shuffled near perm link => exact ⟨near.wired, wired.far⟩
  | worked near works => exact ⟨near.wired, wired.far⟩
  | carried p near far sent backlog arrives link => exact ⟨near.wired, far.wired⟩
  | switched => exact ⟨wired.far, wired.near⟩

theorem restless_iff_of_stays {near near' far far' : Node} (here : near.Stays near')
    (there : far.Stays far') (p : Packet) :
    Restless ⟨near', far'⟩ p ↔ Restless ⟨near, far⟩ p := by
  constructor
  · rintro ⟨twoWay, echoes, echoes'⟩
    exact ⟨twoWay, here.echoes ▸ echoes, there.echoes ▸ echoes'⟩
  · rintro ⟨twoWay, echoes, echoes'⟩
    exact ⟨twoWay, here.echoes ▸ echoes, there.echoes ▸ echoes'⟩

theorem Turned.restless (h : Turned w t (k, w')) (wired : w.Wired) (p : Packet) :
    w'.Restless p ↔ w.Restless p := by
  have there : w.far.Stays w.far := ⟨wired.far, rfl⟩
  cases h with
  | idle _ => exact .rfl
  | shuffled near perm link => exact restless_iff_of_stays near there p
  | worked near works => exact restless_iff_of_stays near there p
  | carried q near far sent backlog arrives link => exact restless_iff_of_stays near far p
  | switched =>
    exact ⟨fun ⟨twoWay, near, far⟩ => ⟨twoWay, far, near⟩,
      fun ⟨twoWay, near, far⟩ => ⟨twoWay, far, near⟩⟩

theorem mem_answers {p q : Packet} {status : Status} {payload : Bytes}
    (h : q ∈ Node.answers p status payload) :
    p.message.oneShot = false ∧ q.cport = p.cport ∧ q.message.id = p.message.id ∧
      q.message.kind = p.message.kind ||| Message.responseFlag := by
  unfold Node.answers at h
  split at h
  · cases h
  · rename_i twoWay
    rw [List.mem_singleton] at h
    subst h
    exact ⟨Bool.not_eq_true _ ▸ twoWay, rfl, rfl, rfl⟩

theorem restless_answer {p q : Packet} {status : Status} {payload : Bytes}
    (h : q ∈ Node.answers p status payload) : w.Restless q ↔ w.Restless p := by
  obtain ⟨twoWay, cport, id, kind⟩ := mem_answers h
  have same : q.message.oneShot = p.message.oneShot := by rw [Message.oneShot, id]; rfl
  have near := w.near.registry.echoes_answer cport kind
  have far := w.far.registry.echoes_answer cport kind
  constructor
  · rintro ⟨h₁, h₂, h₃⟩
    exact ⟨same ▸ h₁, near ▸ h₂, far ▸ h₃⟩
  · rintro ⟨h₁, h₂, h₃⟩
    exact ⟨same.trans h₁, near.trans h₂, far.trans h₃⟩

@[simp] theorem mem_pending {p : Packet} :
    p ∈ w.pending ↔ (p ∈ w.near.backlog ∨ p ∈ w.near.link.sent) ∨
      p ∈ w.far.backlog ∨ p ∈ w.far.link.sent := by
  simp only [pending, List.mem_append]

theorem Turned.traced (h : Turned w t (k, w')) {q : Packet}
    (pending : q ∈ w'.pending) :
    ∃ p ∈ w.pending, w.Restless q ↔ w.Restless p := by
  have of_mem (same : q ∈ w.pending) : ∃ p ∈ w.pending, w.Restless q ↔ w.Restless p :=
    ⟨q, same, .rfl⟩
  simp only [mem_pending] at of_mem pending ⊢
  cases h with
  | idle _ => exact of_mem pending
  | shuffled _ perm link =>
    rw [perm.mem_iff, link] at pending
    exact of_mem pending
  | @worked _ near _ works =>
    cases works with
    | idle _ => exact of_mem pending
    | dispatches p packets perm replies sent =>
      have kept {q : Packet} (here : q ∈ near.backlog) : q ∈ w.near.backlog :=
        perm.mem_iff.mpr (List.mem_cons_of_mem p here)
      rw [sent, List.mem_append] at pending
      rcases pending with (queued | sent | reply) | elsewhere
      · exact of_mem (.inl (.inl (kept queued)))
      · exact of_mem (.inl (.inr sent))
      · cases replies with
        | silent deaf => cases reply
        | answered status payload echoes =>
          exact ⟨p, .inl (.inl (perm.mem_iff.mpr List.mem_cons_self)), restless_answer reply⟩
      · exact of_mem (.inr elsewhere)
  | @carried near far p _ _ sent backlog arrives link =>
    have carried {q : Packet} : q = p ∨ q ∈ near.link.sent ↔ q ∈ w.near.link.sent := by
      rw [sent, List.mem_cons]
    rw [backlog, link] at pending
    rcases pending with (queued | sent) | arrived | sent
    · exact of_mem (.inl (.inl queued))
    · exact of_mem (.inl (.inr (carried.mp (.inr sent))))
    · cases arrives with
      | queued perm =>
        rw [perm.mem_iff, List.mem_cons] at arrived
        rcases arrived with same | queued
        · exact of_mem (.inl (.inr (carried.mp (.inl same))))
        · exact of_mem (.inr (.inl queued))
      | dropped same deaf => exact of_mem (.inr (.inl (same ▸ arrived)))
    · exact of_mem (.inr (.inr sent))
  | switched => exact of_mem pending.symm

/-- How often what a packet leads to is carried over once it is dispatched at the end `here`, if
it is not restless: a response is refused at most here, a request is answered here, and the answer
refused at most there. -/
def hops (here there : Packet → Bool) (p : Packet) : Nat :=
  if p.message.oneShot then 0
  else if p.message.isResponse then (here p).toNat
  else 1 + (there p).toNat

def burden (here there : Node) : Nat :=
  (here.backlog.map (hops here.registry.echoes there.registry.echoes)).sum +
    (here.link.sent.map (1 + hops there.registry.echoes here.registry.echoes ·)).sum

def load (w : Wire) : Nat :=
  burden w.near w.far + burden w.far w.near

theorem hops_replies {p : Packet} {packets : List Packet}
    (replies : Node.Replies w.near.registry p packets) (calm : ¬ w.Restless p) :
    (packets.map (1 + hops w.far.registry.echoes w.near.registry.echoes ·)).sum ≤
      hops w.near.registry.echoes w.far.registry.echoes p := by
  cases replies with
  | silent deaf => exact Nat.zero_le _
  | answered status payload echoes =>
    unfold Node.answers
    cases twoWay : p.message.oneShot with
    | true => exact Nat.zero_le _
    | false =>
      set q : Packet := ⟨p.cport, ⟨p.message.id, p.message.kind ||| Message.responseFlag,
        status.code, payload⟩⟩
      have response : q.message.isResponse = true := Message.isResponse_of_flag rfl
      have same : q.message.oneShot = false := twoWay
      have echoed : w.far.registry.echoes q = w.far.registry.echoes p :=
        w.far.registry.echoes_answer rfl rfl
      have once : hops w.far.registry.echoes w.near.registry.echoes q =
          (w.far.registry.echoes p).toNat := by
        simp only [hops, same, response, echoed, Bool.false_eq_true, if_false, if_true]
      simp only [Bool.false_eq_true, if_false, List.map_cons, List.map_nil, List.sum_cons,
        List.sum_nil, Nat.add_zero, once]
      cases back : p.message.isResponse with
      | false => simp only [hops, twoWay, back, Bool.false_eq_true, if_false, Nat.le_refl]
      | true =>
        have here := echoes back
        have silent : w.far.registry.echoes p = false := by
          by_contra there
          exact calm ⟨twoWay, here, Bool.not_eq_false _ ▸ there⟩
        simp only [hops, twoWay, back, here, silent, Bool.false_eq_true, if_false, if_true]
        exact Nat.le_refl 1

theorem Turned.load_le (h : Turned w t (k, w')) (calm : ∀ p ∈ w.pending, ¬ w.Restless p) :
    k + w'.load ≤ w.load := by
  cases h with
  | idle _ => exact Nat.le_of_eq (Nat.zero_add _)
  | shuffled near perm link =>
    have same := (perm.map (hops w.near.registry.echoes w.far.registry.echoes)).sum_eq
    simp only [load, burden, near.echoes, link, same]
    exact Nat.le_of_eq (Nat.zero_add _)
  | worked near works =>
    cases works with
    | idle _ => exact Nat.le_of_eq (Nat.zero_add _)
    | dispatches p packets perm replies sent =>
      have here : p ∈ w.pending :=
        mem_pending.mpr (.inl (.inl (perm.mem_iff.mpr List.mem_cons_self)))
      have fewer := hops_replies replies (calm p here)
      have taken := (perm.map (hops w.near.registry.echoes w.far.registry.echoes)).sum_eq
      simp only [List.map_cons, List.sum_cons] at taken
      simp only [load, burden, near.echoes, sent, List.map_append, List.sum_append]
      omega
  | carried p near far sent backlog arrives link =>
    simp only [load, burden, near.echoes, far.echoes, backlog, link, sent, List.map_cons,
      List.sum_cons]
    cases arrives with
    | queued perm =>
      have queued := (perm.map (hops w.far.registry.echoes w.near.registry.echoes)).sum_eq
      simp only [List.map_cons, List.sum_cons] at queued
      omega
    | dropped same deaf =>
      rw [same]
      omega
  | switched =>
    rw [Nat.zero_add, load, load, Nat.add_comm]

theorem run_load_le (wired : w.Wired) (calm : ∀ p ∈ w.pending, ¬ w.Restless p)
    (turns : List Turn) : (w.run turns).1 ≤ w.load := by
  induction turns generalizing w with
  | nil => exact Nat.zero_le _
  | cons t turns ih =>
    have turned := wired.turned t
    rw [run]
    generalize t.apply w = outcome at turned
    obtain ⟨k, w'⟩ := outcome
    have calm' : ∀ q ∈ w'.pending, ¬ w'.Restless q := by
      intro q pending restless
      obtain ⟨p, before, same⟩ := turned.traced pending
      exact calm p before (same.mp ((turned.restless wired q).mp restless))
    have first := turned.load_le calm
    have rest := ih (turned.wired wired) calm'
    exact (Nat.add_le_add_left rest k).trans first

structure Endless (w : Wire) : Prop where
  wired : w.Wired
  restless : ∃ p ∈ w.pending, w.Restless p

theorem Turned.endless (h : Turned w t (k, w')) (wired : w.Wired) {p : Packet}
    (pending : p ∈ w'.pending) (restless : w.Restless p) : w'.Endless :=
  ⟨h.wired wired, p, pending, (h.restless wired p).mpr restless⟩

theorem answered_of_backlog {w : Wire} (wired : w.Wired) {p : Packet}
    (queued : p ∈ w.near.backlog) (restless : w.Restless p) :
    ∃ turns, ∃ q ∈ (w.run turns).2.near.link.sent,
      (w.run turns).2.Wired ∧ (w.run turns).2.Restless q := by
  -- Every round takes a packet off the backlog, so that `p` is either the one or nearer to it.
  generalize size : w.near.backlog.length = k
  induction k generalizing w with
  | zero =>
    rw [List.eq_nil_of_length_eq_zero size] at queued
    cases queued
  | succ k ih =>
    have some : 0 < w.near.pending := by
      rw [Node.backlog, List.length_append] at size
      rw [Node.pending]
      omega
    obtain ⟨stays, q, packets, perm, replies, sent⟩ := wired.near.dispatches some
    let w' : Wire := ⟨(w.near.letIn 0).workFor none, w.far⟩
    have wired' : w'.Wired := ⟨stays.wired, wired.far⟩
    have restless' (r : Packet) : w'.Restless r ↔ w.Restless r :=
      restless_iff_of_stays stays ⟨wired.far, rfl⟩ r
    have reached : w.run [.letIn 0, .work none] = (0, w') := rfl
    rcases List.mem_cons.mp (perm.mem_iff.mp queued) with rfl | later
    · cases replies with
      | silent deaf => cases deaf.symm.trans restless.near
      | answered status payload echoes =>
        obtain ⟨r, reply⟩ : ∃ r, r ∈ Node.answers p status payload := by
          rw [Node.answers, restless.twoWay]
          exact ⟨_, List.mem_singleton_self _⟩
        refine ⟨[.letIn 0, .work none], r, ?_, wired', ?_⟩
        · rw [reached]
          show r ∈ ((w.near.letIn 0).workFor none).link.sent
          rw [sent]
          exact List.mem_append_right _ reply
        · exact (restless' r).mpr ((restless_answer reply).mpr restless)
    · have fewer : w'.near.backlog.length = k := by
        have := perm.length_eq
        rw [size, List.length_cons] at this
        exact Nat.succ.inj this.symm
      obtain ⟨turns, answered⟩ := ih wired' later ((restless' p).mpr restless) fewer
      exact ⟨[.letIn 0, .work none] ++ turns, by rwa [run_append, reached]⟩

theorem endless_of_sent {w : Wire} (wired : w.Wired) {q : Packet} (sent : q ∈ w.near.link.sent)
    (restless : w.Restless q) : ∃ w', Turn.carry.apply w = (1, w') ∧ w'.Endless := by
  have turned := wired.turned .carry
  generalize Turn.carry.apply w = outcome at turned
  cases turned with
  | idle empty =>
    rw [empty] at sent
    cases sent
  | @carried near far p here there unloaded backlog arrives link =>
    refine ⟨_, rfl, Turned.endless (.carried p here there unloaded backlog arrives link) wired
      (mem_pending.mpr ?_) restless⟩
    rw [unloaded, List.mem_cons] at sent
    rcases sent with rfl | left
    · cases arrives with
      | queued perm => exact .inr (.inl (perm.mem_iff.mpr List.mem_cons_self))
      | dropped same deaf => cases deaf.symm.trans restless.far
    · exact .inl (.inr left)

theorem endless_of_near {w : Wire} (wired : w.Wired) {p : Packet}
    (near : p ∈ w.near.backlog ∨ p ∈ w.near.link.sent) (restless : w.Restless p) :
    ∃ turns, 1 ≤ (w.run turns).1 ∧ (w.run turns).2.Endless := by
  rcases near with queued | sent
  · obtain ⟨turns, q, sent, wired', restless'⟩ := answered_of_backlog wired queued restless
    obtain ⟨w', carried, endless⟩ := endless_of_sent wired' sent restless'
    refine ⟨turns ++ [.carry], ?_, ?_⟩
    · simp only [run_append, run, carried]
      omega
    · simp only [run_append, run, carried]
      exact endless
  · obtain ⟨w', carried, endless⟩ := endless_of_sent wired sent restless
    refine ⟨[.carry], ?_, ?_⟩
    · simp only [run, carried]
      omega
    · simp only [run, carried]
      exact endless

theorem Endless.again {w : Wire} (h : w.Endless) :
    ∃ turns, 1 ≤ (w.run turns).1 ∧ (w.run turns).2.Endless := by
  obtain ⟨wired, p, pending, restless⟩ := h
  rcases mem_pending.mp pending with near | far
  · exact endless_of_near wired near restless
  · obtain ⟨turns, carried, endless⟩ := endless_of_near (w := ⟨w.far, w.near⟩)
      ⟨wired.far, wired.near⟩ far ⟨restless.twoWay, restless.far, restless.near⟩
    refine ⟨.switch :: turns, ?_, endless⟩
    show 1 ≤ 0 + (run ⟨w.far, w.near⟩ turns).1
    omega

theorem Endless.unbounded {w : Wire} (h : w.Endless) (bound : Nat) :
    ∃ turns, bound ≤ (w.run turns).1 := by
  induction bound generalizing w with
  | zero => exact ⟨[], Nat.zero_le _⟩
  | succ bound ih =>
    obtain ⟨turns, carried, endless⟩ := h.again
    obtain ⟨turns', more⟩ := ih endless
    refine ⟨turns ++ turns', ?_⟩
    simp only [run_append]
    omega

/-- A response is answered like anything else: with a refusal, unless its driver waits for it or its
id asks for no answer.  So what two nodes exchange comes to an end if and only if nothing is pending
between them that both would go on answering. -/
theorem responses_are_refused {n : Node} {p : Packet} {d : Driver}
    (bound : n.registry.route p.cport = .driver d) (builtIn : d.builtIn = true)
    (response : p.message.isResponse = true) (ready : n.link.Open) {w : Wire} (wired : w.Wired) :
    (n.link.Sends [] (n.dispatch p).link ↔
        d.consumes p.message.kind = true ∨ p.message.oneShot = true) ∧
      (d.consumes p.message.kind = false → d.refusal ≠ .success ∧
        n.link.Sends (Node.answers p d.refusal []) (n.dispatch p).link) ∧
      ((∃ most, ∀ turns, (w.run turns).1 ≤ most) ↔ ∀ q ∈ w.pending, ¬ w.Restless q) := by
  refine ⟨Node.silent_dispatch_of_response_iff bound builtIn response ready,
    fun unknown => ⟨d.refusal_ne_success, ?_⟩, fun ⟨most, within⟩ q pending restless => ?_,
    fun calm => ⟨w.load, run_load_le wired calm⟩⟩
  · have sent := Node.dispatch_of_response bound builtIn response ready
    rwa [unknown, if_neg Bool.false_ne_true] at sent
  · obtain ⟨turns, more⟩ := Endless.unbounded ⟨wired, q, pending, restless⟩ (most + 1)
    exact absurd (within turns) (by omega)

def stray : Packet := ⟨0, ⟨7, 0x82, 0, []⟩⟩

def mirror : Node :=
  { Node.echoing with link := .memory { MemoryLink.fresh with attached := true } }

def ringing : Wire := ⟨(mirror.receive stray).2, mirror⟩

theorem wired_mirror : mirror.Wired := by
  have slots : mirror.registry = ⟨#[⟨⟨1, .loopback⟩, some .loopback, false⟩]⟩ := rfl
  refine ⟨fun c d bound => ?_, by decide, rfl, rfl, rfl, _, rfl, rfl, rfl⟩
  rw [slots] at bound
  obtain ⟨s, hs, hd⟩ := Registry.slot?_of_driver? bound
  have found := Array.mem_of_getElem? hs
  rw [List.mem_toArray, List.mem_singleton] at found
  subst found
  cases hd
  rfl

theorem ringing_never_ends :
    ringing.near.link.Sends [⟨0, ⟨7, 0x82, Status.invalid.code, []⟩⟩]
        (ringing.near.dispatch stray).link ∧
      ¬ ∃ most, ∀ turns, (ringing.run turns).1 ≤ most := by
  have wired : ringing.Wired := ⟨wired_mirror.requeued [stray] [] _ |>.wired, wired_mirror⟩
  have bound : ringing.near.registry.route stray.cport = .driver .loopback := rfl
  have pending : stray ∈ ringing.pending := by decide
  obtain ⟨-, refused, ends⟩ := responses_are_refused bound rfl rfl wired.near.open wired
  refine ⟨(refused rfl).2, ?_⟩
  rw [ends]
  exact fun calm => calm stray pending ⟨rfl, rfl, rfl⟩

end Wire

end CportNode
