import CportNode.Proofs.Effects

namespace CportNode

theorem Counters.add_right_comm (a b c : Counters) : a + b + c = a + c + b := by
  show Counters.mk _ _ _ _ _ _ = Counters.mk _ _ _ _ _ _
  congr 1 <;> exact Nat.add_right_comm _ _ _

namespace Registry

theorem modify_comm (r : Registry) {c c' : UInt16} (change change' : Slot → Slot) (h : c ≠ c') :
    (r.modify c change).modify c' change' = (r.modify c' change').modify c change := by
  have other : c.toNat ≠ c'.toNat := fun same => h (UInt16.toNat_inj.mp same)
  refine congrArg Registry.mk (Array.ext_getElem? fun i => ?_)
  simp only [modify, Array.getElem?_modify]
  by_cases here : c.toNat = i <;> by_cases there : c'.toNat = i
  · exact absurd (here.trans there.symm) other
  · simp only [if_pos here, if_neg there]
  · simp only [if_neg here, if_pos there]
  · simp only [if_neg here, if_neg there]

theorem restate_comm (r : Registry) {c c' : UInt16} (t t' : Option Gpio.Triggers) (h : c ≠ c') :
    (r.restate c t).restate c' t' = (r.restate c' t').restate c t := by
  cases t <;> cases t' <;> first | rfl | exact r.modify_comm _ _ h

end Registry

namespace Node

variable {n n' : Node} {d e : Driver} {c : UInt16}

theorem Undergoes.untouched {effect : Effect} (h : Undergoes d c effect n n')
    (befits : effect.Befits d c) (bound : n.registry.driver? c = some d) {c' : UInt16}
    (apart : d.name ≠ e.name) (other : c' ≠ c) : Untouched e c' n n' := by
  obtain ⟨same, sends, listening⟩ := h
  refine ⟨?_, ?_, ?_, ⟨_, sends⟩, fun control => ?_⟩
  · rw [same]
    exact Board.agrees_fit (Driver.peripheral?_ne apart.symm) _ _
  · rw [same]
    exact Registry.slot?_restate_of_ne _ _ other
  · rw [same]
    refine Registry.concurs_restate fun triggers stated => ?_
    obtain ⟨before, rfl⟩ := befits.triggers triggers stated
    exact ⟨before, bound⟩
  · rw [listening, befits.listening fun control' => apart (by rw [control, control'])]
    rfl

def requeue (n : Node) (queue waiting : List Packet) (counted : Counters) : Node :=
  { n with queue, waiting, counters := n.counters + counted }

theorem Untouched.refl (d : Driver) (c : UInt16) (n : Node) : Untouched d c n n where
  board := .refl _ _
  here := rfl
  bound := .refl _
  sends := ⟨[], .refl _⟩
  listening _ := rfl

theorem Untouched.requeue (h : Untouched d c n n') (queue waiting : List Packet)
    (counted : Counters) : Untouched d c n (n'.requeue queue waiting counted) :=
  ⟨h.board, h.here, h.bound, h.sends, h.listening⟩

/-- Two runs from one node end in the same state.  The host has heard the same on each cport, though
maybe not in the same order; and drivers were called alike, though maybe not in the same order. -/
structure Reordered (n n₁ n₂ : Node) : Prop where
  same : n₂ = { n₁ with link := n₂.link, calls := n₂.calls }
  listening : n₂.link.listening = n₁.link.listening
  heard : ∃ sent₁ sent₂, n.link.Sends sent₁ n₁.link ∧ n.link.Sends sent₂ n₂.link ∧
    ∀ c, sent₂.filter (·.cport = c) = sent₁.filter (·.cport = c)
  calls : n₂.calls.Perm n₁.calls

theorem Undergoes.eq {effect : Effect} (h : Undergoes d c effect n n') :
    ∃ link, n' = { n.worked d c effect.toWork with
        link, counters := n.counters + effect.counted } ∧
      n.link.Sends effect.sent link ∧ link.listening = effect.listening n.link.listening :=
  ⟨n'.link, h.same, h.sends, h.listening⟩

theorem filter_sent_of_ne {effect : Effect} (befits : effect.Befits d c) {c' : UInt16}
    (other : c' ≠ c) : effect.sent.filter (·.cport = c') = [] :=
  List.filter_eq_nil_iff.mpr fun p among => by
    rw [befits.sent p among]
    exact fun same => other (of_decide_eq_true same).symm

theorem reordered_of_undergoes {n₁ n₁₂ n₂ n₂₁ : Node} {c' : UInt16} {D E : Effect}
    {Q₁ Q₂ Q W₁ W : List Packet} {k₁ k : Counters}
    (first : Undergoes d c D (n.requeue Q₁ W₁ k₁) n₁)
    (second : Undergoes e c' E (n₁.requeue Q W k) n₁₂)
    (first' : Undergoes e c' E (n.requeue Q₂ W₁ k₁) n₂)
    (second' : Undergoes d c D (n₂.requeue Q W k) n₂₁)
    (befits : D.Befits d c) (befits' : E.Befits e c') (apart : d.name ≠ e.name)
    (other : c ≠ c') : Reordered n n₁₂ n₂₁ := by
  obtain ⟨l₁, rfl, sends₁, listening₁⟩ := first.eq
  obtain ⟨l₁₂, rfl, sends₁₂, listening₁₂⟩ := second.eq
  obtain ⟨l₂, rfl, sends₂, listening₂⟩ := first'.eq
  obtain ⟨l₂₁, rfl, sends₂₁, listening₂₁⟩ := second'.eq
  refine ⟨?_, ?_, ⟨_, _, Link.Sends.trans sends₁ sends₁₂, Link.Sends.trans sends₂ sends₂₁,
    fun x => ?_⟩, ?_⟩
  · have board := Board.fit_comm (Driver.peripheral?_ne apart) n.board D.board E.board
    have registry := n.registry.restate_comm D.triggers E.triggers other
    have counters : n.counters + k₁ + D.counted + k + E.counted =
        n.counters + k₁ + E.counted + k + D.counted := by
      rw [Counters.add_right_comm _ D.counted, Counters.add_right_comm _ D.counted,
        Counters.add_right_comm _ k]
    simp only [worked, requeue, board, registry, counters]
  · have listening₁ : l₁.listening = D.listening n.link.listening := listening₁
    have listening₁₂ : l₁₂.listening = E.listening l₁.listening := listening₁₂
    have listening₂ : l₂.listening = E.listening n.link.listening := listening₂
    have listening₂₁ : l₂₁.listening = D.listening l₂.listening := listening₂₁
    show l₂₁.listening = l₁₂.listening
    rw [listening₂₁, listening₂, listening₁₂, listening₁]
    -- At most one of the two sets what listens.
    by_cases control : d = .control
    · have control' : e ≠ .control := fun control' => apart (by rw [control, control'])
      rw [befits'.listening control', id, id]
    · rw [befits.listening control, id, id]
  · rw [List.filter_append, List.filter_append]
    by_cases here : x = c
    · rw [filter_sent_of_ne befits' (here ▸ other), List.nil_append, List.append_nil]
    · rw [filter_sent_of_ne befits here, List.nil_append, List.append_nil]
  · exact List.perm_append_comm_assoc _ _ _

theorem Determined.reordered {p q : Packet} (first : Determined n d p) (second : Determined n e q)
    (bound : n.registry.driver? p.cport = some d) (bound' : n.registry.driver? q.cport = some e)
    (apart : d.name ≠ e.name) (Q₁ Q₂ Q W₁ W : List Packet) (k₁ k : Counters) :
    Reordered n ((((n.requeue Q₁ W₁ k₁).dispatch p).requeue Q W k).dispatch q)
      ((((n.requeue Q₂ W₁ k₁).dispatch q).requeue Q W k).dispatch p) := by
  obtain ⟨D, befits, undergoes⟩ := first
  obtain ⟨E, befits', undergoes'⟩ := second
  have other : p.cport ≠ q.cport := by
    intro same
    rw [same, bound'] at bound
    exact apart (by rw [Option.some.inj bound])
  have start (d : Driver) (c : UInt16) (Q : List Packet) :
      Untouched d c n (n.requeue Q W₁ k₁) := (Untouched.refl d c n).requeue Q W₁ k₁
  have done := undergoes _ (start d p.cport Q₁)
  have done' := undergoes' _ (start e q.cport Q₂)
  -- The queue is no concern of a request, so the second one still finds `n` untouched.
  have settled : Untouched e q.cport n ((n.requeue Q₁ W₁ k₁).dispatch p) :=
    have h := done.untouched befits bound apart other.symm
    ⟨h.board, h.here, h.bound, h.sends, h.listening⟩
  have settled' : Untouched d p.cport n ((n.requeue Q₂ W₁ k₁).dispatch q) :=
    have h := done'.untouched befits' bound' apart.symm other
    ⟨h.board, h.here, h.bound, h.sends, h.listening⟩
  exact reordered_of_undergoes done (undergoes' _ (settled.requeue Q W k)) done'
    (undergoes _ (settled'.requeue Q W k)) befits befits' apart other

theorem elim_letIn_requeue (config : Config) (waits : List Packet) (length : Nat)
    (place : Option Nat) :
    ∃ more waits' counted, ∀ n : Node, n.config = config → n.waiting = waits →
      n.queue.length = length →
      place.elim n n.letIn = n.requeue (n.queue ++ more) waits' counted := by
  have nobody (n : Node) (waiting : n.waiting = waits) :
      n = n.requeue (n.queue ++ []) waits .zero := by
    simp only [requeue, List.append_nil, ← waiting]
    rfl
  cases place with
  | none => exact ⟨[], waits, .zero, fun n _ waiting _ => nobody n waiting⟩
  | some place =>
    cases next : waits[place]? with
    | none =>
      refine ⟨[], waits, .zero, fun n _ waiting _ => ?_⟩
      simp only [Option.elim_some, letIn, waiting, next]
      exact nobody n waiting
    | some p =>
      by_cases room : length < config.queueCapacity
      · refine ⟨[p], waits.eraseIdx place, ⟨1, 0, 0, 0, 0, 0⟩, fun n same waiting full => ?_⟩
        have room : n.hasRoom = true := decide_eq_true (full ▸ same ▸ room)
        simp only [Option.elim_some, letIn, waiting, next, room, if_true]
        rfl
      · refine ⟨[], waits, .zero, fun n same waiting full => ?_⟩
        have room : n.hasRoom = false := decide_eq_false (full ▸ same ▸ room)
        simp only [Option.elim_some, letIn, waiting, next, room, Bool.false_eq_true, if_false]
        exact nobody n waiting

theorem workFor_requeue (config : Config) (waits : List Packet) (length : Nat)
    (place : Option Nat) :
    ∃ more waits' counted, ∀ (n : Node) (p : Packet) (rest : List Packet), n.config = config →
      n.waiting = waits → n.held = none → n.queue = p :: rest → rest.length = length →
      n.workFor place = (n.requeue (rest ++ more) waits' counted).dispatch p := by
  obtain ⟨more, waits', counted, letIn⟩ := elim_letIn_requeue config waits length place
  refine ⟨more, waits', counted, fun n p rest same waiting free queued full => ?_⟩
  have taken : n.take = some (p, { n with queue := rest }) := by
    unfold take
    split
    · rename_i queued'
      cases queued'.symm.trans queued
      rfl
    · rename_i other
      exact (other p rest free queued).elim
  simp only [workFor, taken]
  exact congrArg (·.dispatch p) (letIn { n with queue := rest } same waiting full)

theorem Undergoes.kept {effect : Effect} (h : Undergoes d c effect n n') :
    n'.queue = n.queue ∧ n'.waiting = n.waiting ∧ n'.config = n.config ∧ n'.held = n.held := by
  obtain ⟨link, rfl, -⟩ := h.eq
  exact ⟨rfl, rfl, rfl, rfl⟩

theorem workFor_workFor {p q : Packet} (first : Determined n d p) {rest : List Packet}
    (second : Determined n e q) (free : n.held = none) (a b : Option Nat) :
    ∃ Q₁ Q₂ Q W₁ W k₁ k,
      ({ n with queue := p :: q :: rest }.workFor a).workFor b =
          ((((n.requeue Q₁ W₁ k₁).dispatch p).requeue Q W k).dispatch q) ∧
        ({ n with queue := q :: p :: rest }.workFor a).workFor b =
          ((((n.requeue Q₂ W₁ k₁).dispatch q).requeue Q W k).dispatch p) := by
  obtain ⟨D, -, undergoes⟩ := first
  obtain ⟨E, -, undergoes'⟩ := second
  obtain ⟨more, W₁, k₁, works⟩ := workFor_requeue n.config n.waiting (rest.length + 1) a
  obtain ⟨more', W, k, works'⟩ := workFor_requeue n.config W₁ (rest ++ more).length b
  let x := (n.requeue (q :: rest ++ more) W₁ k₁).dispatch p
  let y := (n.requeue (p :: rest ++ more) W₁ k₁).dispatch q
  have one : { n with queue := p :: q :: rest }.workFor a = x := works _ _ _ rfl rfl free rfl rfl
  have other : { n with queue := q :: p :: rest }.workFor a = y := works _ _ _ rfl rfl free rfl rfl
  have kept := (undergoes _ ((Untouched.refl d p.cport n).requeue (q :: rest ++ more) W₁ k₁)).kept
  have kept' :=
    (undergoes' _ ((Untouched.refl e q.cport n).requeue (p :: rest ++ more) W₁ k₁)).kept
  obtain ⟨queue, waiting, config, held⟩ := kept
  obtain ⟨queue', waiting', config', held'⟩ := kept'
  refine ⟨q :: rest ++ more, p :: rest ++ more, rest ++ more ++ more', W₁, W, k₁, k, ?_, ?_⟩
  · rw [one]
    exact works' x q _ config waiting (held.trans free) queue rfl
  · rw [other]
    exact works' y p _ config' waiting' (held'.trans free) queue' rfl

/-- Requests for drivers that come with the node, and are of different protocols, are dispatched in
either order to the same end: as such, and by the worker, which takes them off the queue one after
the other. -/
theorem independent_requests_commute {p q : Packet}
    (bound : n.registry.driver? p.cport = some d) (bound' : n.registry.driver? q.cport = some e)
    (builtIn : d.builtIn = true) (builtIn' : e.builtIn = true) (apart : d.name ≠ e.name) :
    Reordered n ((n.dispatch p).dispatch q) ((n.dispatch q).dispatch p) ∧
      ∀ rest a b, n.held = none → Reordered n
        (({ n with queue := p :: q :: rest }.workFor a).workFor b)
        (({ n with queue := q :: p :: rest }.workFor a).workFor b) := by
  have first := determined bound builtIn
  have second := determined bound' builtIn'
  refine ⟨?_, fun rest a b free => ?_⟩
  · have kept {d : Driver} {p : Packet} (determined : Determined n d p) :
        (n.dispatch p).requeue n.queue n.waiting .zero = n.dispatch p := by
      obtain ⟨effect, -, undergoes⟩ := determined
      obtain ⟨queue, waiting, -⟩ := (undergoes n (.refl d p.cport n)).kept
      rw [← queue, ← waiting]
      rfl
    have same := first.reordered second bound bound' apart n.queue n.queue n.queue n.waiting
      n.waiting .zero .zero
    have start : n.requeue n.queue n.waiting .zero = n := rfl
    rwa [start, kept first, kept second] at same
  · obtain ⟨Q₁, Q₂, Q, W₁, W, k₁, k, same, same'⟩ := workFor_workFor first second free a b
    rw [same, same']
    exact first.reordered second bound bound' apart Q₁ Q₂ Q W₁ W k₁ k

def steering : Node :=
  ((ofParts { Config.empty with cports := [⟨0, .control⟩, ⟨1, .gpio⟩] } .fresh
    (.memory .fresh)).registerAll).2

def connecting : Packet := ⟨0, ⟨1, 0x05, 0, [1, 0]⟩⟩

def arming : Packet := ⟨1, ⟨2, 0x0b, 0, [0, 2]⟩⟩

theorem connecting_and_arming_commute :
    let n₁ := (steering.dispatch connecting).dispatch arming
    let n₂ := (steering.dispatch arming).dispatch connecting
    Reordered steering n₁ n₂ ∧ n₁.link.sent.map (·.cport) = [0, 1] ∧
      n₂.link.sent.map (·.cport) = [1, 0] := by
  have commute := independent_requests_commute (n := steering) (p := connecting) (q := arming)
    (d := .control) (e := .gpio .fresh) rfl rfl rfl rfl (by decide)
  exact ⟨commute.1, by decide, by decide⟩

end Node

end CportNode
