import CportNode.Proofs.Acts
import CportNode.Proofs.Rebinding
import CportNode.Proofs.Serving

/-!
Whose request an answer belongs to.  A request is read from the connection being served, and its
answer is written to the connection being served when the worker comes to it.  Neither the queue nor
the answer knows of connections: the two are the same as long as the node has not given up the
first.
-/

namespace CportNode

theorem HostAct.unwritten (a : HostAct) (l : SocketLink) :
    Link.Unwritten (.socket l) (.socket (a.apply l)) := by
  have same (c : Connection) : c.outgoing <:+ c.outgoing := List.suffix_refl _
  cases a with
  | connect =>
    refine ⟨fun x => ?_, fun x ⟨c, found, dead⟩ => ⟨c, ?_, dead⟩⟩
    · simp only [Link.outgoing, Link.connections_socket, apply, SocketLink.connect]
      rcases Nat.lt_trichotomy x l.connections.length with old | rfl | none
      · simp only [List.getElem?_append_left old, List.suffix_refl]
      · rw [List.getElem?_concat_length]
        exact List.nil_suffix
      · rw [List.getElem?_eq_none (by rw [List.length_append]; exact none)]
        exact List.nil_suffix
    · have old := (List.getElem?_eq_some_iff.mp found).1
      rw [← found]
      exact List.getElem?_append_left old
  | write number data =>
    have kept (c : Connection) : ((c.write data).getD c).outgoing = c.outgoing ∧
        ((c.write data).getD c).live = c.live := by
      unfold Connection.write
      split <;> exact ⟨rfl, rfl⟩
    exact Link.unwritten_modify l number (fun c => (kept c).1 ▸ same c) fun c dead =>
      (kept c).2.trans dead
  | finish number => exact Link.unwritten_modify l number same fun _ => id
  | leave number => exact Link.unwritten_modify l number same fun _ => id
  | collect number count =>
    exact Link.unwritten_modify l number (fun c => List.drop_suffix count _) fun _ => id

namespace Link

theorem unwritten_onSocket {change : SocketLink → SocketLink}
    (h : ∀ l, Unwritten (socket l) (socket (change l))) (l : Link) :
    Unwritten l (l.onSocket change) := by
  cases l with
  | memory l => exact (Quiet.refl _).unwritten
  | socket l => exact h l

theorem unwritten_read (l : SocketLink) : Unwritten (socket l) (socket l.read.2) := by
  unfold SocketLink.read
  split
  · exact (Quiet.refl _).unwritten
  · split
    · exact unwritten_dropCurrent l
    · split
      · exact (Quiet.refl _).unwritten
      · exact unwritten_dropCurrent l
    · exact unwritten_modify l _ (fun c => List.suffix_refl _) fun _ => id

end Link

namespace Node

/-- The next packet of the connection being served, which is this one, is `p`. -/
structure Reads (n : Node) (number : Nat) (p : Packet) : Prop where
  served : n.link.served? = some number
  next : n.readHost.1 = .packet p

theorem reads_of_packet {n : Node} {p : Packet} (h : n.readHost.1 = .packet p) :
    ∃ number, n.Reads number p := by
  have next := h
  unfold readHost at h
  cases link : n.link with
  | memory l =>
    rw [link] at h
    cases h
  | socket l =>
    rw [link] at h
    cases current : l.current? with
    | none =>
      simp only [SocketLink.read, current] at h
      cases h
    | some served => exact ⟨served.2, by rw [link, Link.served?, current]; rfl, next⟩

inductive Proper (n : Node) : Move → Prop
  | inner {m : Move} : m.inner = true → Proper n m
  | receive {number : Nat} {p : Packet} : n.Reads number p → Proper n (.receive p)
  | outside {board : Board → Board} {link : Link → Link} :
      (∀ l, Link.Unwritten l (link l)) → Proper n (.outside board link id)

theorem proper_movesOf {n : Node} {a : Act} {t : Nat} {m : Move} (h : (n.movesOf a)[t]? = some m) :
    Proper (n.after ((n.movesOf a).take t)) m := by
  have mem := List.mem_of_getElem? h
  cases a with
  | host a =>
    cases List.mem_singleton.mp mem
    exact .outside (Link.unwritten_onSocket a.unwritten)
  | board change =>
    cases List.mem_singleton.mp mem
    exact .outside fun l => (Link.Quiet.refl l).unwritten
  | node m' inner =>
    cases List.mem_singleton.mp mem
    exact .inner inner
  | serve =>
    have read {n : Node} : Proper n (.outside id (Link.onSocket fun l => l.read.2) id) :=
      .outside (Link.unwritten_onSocket Link.unwritten_read)
    simp only [movesOf, serving] at h mem ⊢
    split at h
    · rename_i p next
      split at h
      · cases t with
        | zero =>
          cases h
          obtain ⟨number, reads⟩ := reads_of_packet next
          exact .receive reads
        | succ t =>
          cases t with
          | zero =>
            cases h
            exact read
          | succ t => cases h
      · cases List.mem_singleton.mp (List.mem_of_getElem? h)
        exact read
    · cases List.mem_singleton.mp (List.mem_of_getElem? h)
      exact read

theorem proper_spell {n : Node} {acts : List Act} {t : Nat} {m : Move}
    (h : (n.spell acts)[t]? = some m) : Proper (n.after ((n.spell acts).take t)) m := by
  induction acts generalizing n t with
  | nil => cases h
  | cons a acts ih =>
    rw [spell] at h ⊢
    by_cases early : t < (n.movesOf a).length
    · rw [List.getElem?_append_left early] at h
      rw [List.take_append_of_le_length (Nat.le_of_lt early)]
      exact proper_movesOf h
    · have late := Nat.le_of_not_lt early
      rw [List.getElem?_append_right late] at h
      simpa [List.take_append, List.take_of_length_le late] using ih h

def subject? (n : Node) : Move → Option Packet
  | .work _ => n.take.map Prod.fst
  | .openGate => n.held
  | _ => none

theorem replied_workFor {n n' : Node} {p : Packet} (taken : n.take = some (p, n'))
    (place : Option Nat) : Link.Replied p n.link (n.workFor place).link := by
  obtain ⟨queue, waiting, counters, entered⟩ := n'.elim_letIn_eq place
  have link : (place.elim n' n'.letIn).link = n.link := by
    rw [entered, (take_some taken).2.2]
  simp only [workFor, taken]
  rw [← link]
  exact replied_dispatch _ p

theorem quiet_or_replied {n : Node} {m : Move} (inner : m.inner = true) :
    Link.Quiet n.link (m.apply n).link ∨
      ∃ p, n.subject? m = some p ∧ Link.Replied p n.link (m.apply n).link := by
  cases m with
  | receive p => cases inner
  | outside board link ids => cases inner
  | letIn place =>
    obtain ⟨queue, waiting, counters, entered⟩ := n.letIn_eq place
    refine .inl (.of_eq ?_)
    simp only [Move.apply, entered]
  | work place =>
    cases taken : n.take with
    | none =>
      refine .inl (.of_eq ?_)
      simp only [Move.apply, workFor, taken]
    | some pair => exact .inr ⟨pair.1, by rw [subject?, taken]; rfl, replied_workFor taken place⟩
  | register c bundle d => exact .inl (n.quiet_register c bundle d)
  | unregister c => exact .inl (n.quiet_unregister c)
  | listen c =>
    simp only [Move.apply]
    split
    · rename_i listened
      exact .inl (sends_listen listened).quiet
    · exact .inl (.refl _)
  | stopListening c =>
    simp only [Move.apply]
    split
    · rename_i stopped
      exact .inl (sends_stopListening stopped).quiet
    · exact .inl (.refl _)
  | notify c event => exact .inl (.of_eq (n.link_notify c event))
  | openGate =>
    simp only [Move.apply, openGate, subject?]
    split
    · exact .inl (.refl _)
    · rename_i p held
      exact .inr ⟨p, held, replied_conclude { n with gateOpen := true, held := none } p _⟩
  | _ => exact .inl (.refl _)

theorem Proper.unwritten_or_replied {n : Node} {m : Move} (h : Proper n m) :
    Link.Unwritten n.link (m.apply n).link ∨
      ∃ p, n.subject? m = some p ∧ Link.Replied p n.link (m.apply n).link := by
  cases h with
  | inner inner => exact (quiet_or_replied inner).imp_left Link.Quiet.unwritten
  | receive reads => exact .inl (Link.Quiet.of_eq (n.link_receive _)).unwritten
  | outside unwritten => exact .inl (unwritten n.link)

theorem Proper.givenUp {n : Node} {m : Move} (h : Proper n m) {x : Nat}
    (gone : n.link.GivenUp x) : (m.apply n).link.GivenUp x := by
  rcases h.unwritten_or_replied with unwritten | ⟨p, -, replied⟩
  · exact unwritten.givenUp x gone
  · exact replied.givenUp x gone

theorem after_take_succ {n : Node} {moves : List Move} {t : Nat} {m : Move}
    (h : moves[t]? = some m) :
    n.after (moves.take (t + 1)) = m.apply (n.after (moves.take t)) := by
  rw [List.take_add_one, h, Option.toList_some, after_concat]

theorem givenUp_of_le {n : Node} {acts : List Act} {i t x : Nat} (h : i ≤ t)
    (gone : (n.after ((n.spell acts).take i)).link.GivenUp x) :
    (n.after ((n.spell acts).take t)).link.GivenUp x := by
  induction h with
  | refl => exact gone
  | @step t _ ih =>
    cases next : (n.spell acts)[t]? with
    | none =>
      rw [List.take_add_one, next, Option.toList_none, List.append_nil]
      exact ih
    | some m =>
      rw [after_take_succ next]
      exact (proper_spell next).givenUp ih

theorem served_of_le {n : Node} {acts : List Act} {i t a x : Nat} (h : i ≤ t)
    (first : (n.after ((n.spell acts).take i)).link.served? = some a)
    (later : (n.after ((n.spell acts).take t)).link.served? = some x) :
    a ≤ x ∧ (x = a ↔ ¬(n.after ((n.spell acts).take t)).link.GivenUp a) := by
  obtain ⟨-, before⟩ := Link.served_some first
  obtain ⟨live, earlier⟩ := Link.served_some later
  have after : a ≤ x :=
    Nat.le_of_not_lt fun less => live (givenUp_of_le h (before x less))
  refine ⟨after, fun same => same ▸ live, fun kept => ?_⟩
  exact Nat.le_antisymm (Nat.le_of_not_lt fun less => kept (earlier a less)) after

end Node

namespace History

theorem offered_step (h : History) (m : Move) :
    (h.step m).offered = h.offered ∨
      ∃ p, m = .receive p ∧ (h.step m).offered = h.offered ++ [(p, h.time)] := by
  have letIn (h : History) (place : Nat) : (h.letIn place).offered = h.offered := by
    unfold History.letIn
    simp only
    split
    · rfl
    · split <;> rfl
  cases m with
  | receive p =>
    have brought : (h.receive p).offered =
        if h.offers p then h.offered ++ [(p, h.time)] else h.offered := by
      unfold History.receive
      simp only
      split <;> rfl
    simp only [step, brought]
    split
    · exact .inr ⟨p, rfl, rfl⟩
    · exact .inl rfl
  | letIn place => exact .inl (letIn h place)
  | work place =>
    refine .inl ?_
    simp only [step, workFor]
    split
    · rfl
    · cases place with
      | none => rfl
      | some place => exact letIn _ place
  | _ => exact .inl rfl

theorem taken_work {h : History} {p : Packet} {n : Node} (take : h.node.take = some (p, n))
    (place : Option Nat) : (h.step (.work place)).taken = h.taken ++ [(p, h.time)] := by
  simp only [step, workFor, take]
  cases place with
  | none => rfl
  | some place => exact taken_letIn _ place

theorem taken_step (h : History) (m : Move) :
    (h.step m).taken = h.taken ∨
      ∃ place p, m = .work place ∧ (h.step m).taken = h.taken ++ [(p, h.time)] := by
  cases m with
  | work place =>
    cases take : h.node.take with
    | none =>
      refine .inl ?_
      simp only [step, workFor, take]
    | some pair => exact .inr ⟨place, pair.1, rfl, taken_work take place⟩
  | receive p =>
    refine .inl ?_
    simp only [step, History.receive]
    split <;> rfl
  | letIn place => exact .inl (taken_letIn h place)
  | _ => exact .inl rfl

end History

namespace Node

theorem move_of_mem {n : Node} {entries : History → List (Packet × Nat)}
    {Brings : Packet → Move → Prop} (nothing : entries (n.history []) = [])
    (step : ∀ h m, entries (h.step m) = entries h ∨
      ∃ p, Brings p m ∧ entries (h.step m) = entries h ++ [(p, h.time)])
    {moves : List Move} {x : Packet × Nat} (mem : x ∈ entries (n.history moves)) :
    ∃ m, moves[x.2]? = some m ∧ Brings x.1 m := by
  induction moves using List.reverseRecOn with
  | nil =>
    rw [nothing] at mem
    cases mem
  | append_singleton moves m ih =>
    have earlier (mem : x ∈ entries (n.history moves)) :
        ∃ m', (moves ++ [m])[x.2]? = some m' ∧ Brings x.1 m' := by
      obtain ⟨m', found, brings⟩ := ih mem
      refine ⟨m', ?_, brings⟩
      rw [List.getElem?_append_left (List.getElem?_eq_some_iff.mp found).1, found]
    rw [history_concat] at mem
    rcases step (n.history moves) m with same | ⟨p, brings, grown⟩
    · rw [same] at mem
      exact earlier mem
    · rw [grown, time_history, List.mem_append, List.mem_singleton] at mem
      rcases mem with before | rfl
      · exact earlier before
      · exact ⟨m, List.getElem?_concat_length, brings⟩

theorem receive_of_offered {n : Node} {moves : List Move} {x : Packet × Nat}
    (h : x ∈ (n.history moves).offered) : moves[x.2]? = some (.receive x.1) := by
  obtain ⟨_, found, rfl⟩ := move_of_mem rfl History.offered_step h
  exact found

theorem taken_grows (n : Node) (moves later : List Move) :
    (n.history moves).taken <+: (n.history (moves ++ later)).taken := by
  induction later using List.reverseRecOn with
  | nil => exact (List.append_nil moves).symm ▸ List.prefix_refl _
  | append_singleton later m ih =>
    rw [← List.append_assoc, history_concat]
    refine ih.trans ?_
    rcases (n.history (moves ++ later)).taken_step m with same | ⟨place, p, -, grown⟩
    · exact same ▸ List.prefix_refl _
    · exact grown ▸ List.prefix_append _ _

theorem work_of_taken {n : Node} {moves : List Move} {y : Packet × Nat}
    (h : y ∈ (n.history moves).taken) : ∃ place, moves[y.2]? = some (.work place) := by
  have step (h : History) (m : Move) : (h.step m).taken = h.taken ∨
      ∃ p, (∃ place, m = .work place) ∧ (h.step m).taken = h.taken ++ [(p, h.time)] := by
    rcases h.taken_step m with same | ⟨place, p, work, grown⟩
    · exact .inl same
    · exact .inr ⟨p, ⟨place, work⟩, grown⟩
  obtain ⟨_, found, place, rfl⟩ := move_of_mem rfl step h
  exact ⟨place, found⟩

theorem taken_of_work {n n' : Node} {moves : List Move} {t : Nat} {place : Option Nat} {p : Packet}
    (h : moves[t]? = some (.work place)) (take : (n.after (moves.take t)).take = some (p, n')) :
    (p, t) ∈ (n.history moves).taken := by
  have early := (List.getElem?_eq_some_iff.mp h).1
  rw [← node_history] at take
  have now : (p, t) ∈ (n.history (moves.take (t + 1))).taken := by
    rw [List.take_add_one, h, Option.toList_some, history_concat, History.taken_work take place,
      time_history, List.length_take, Nat.min_eq_left (Nat.le_of_lt early)]
    exact List.mem_append_right _ (List.mem_singleton.mpr rfl)
  have kept := n.taken_grows (moves.take (t + 1)) (moves.drop (t + 1))
  rw [List.take_append_drop] at kept
  exact kept.subset now

theorem taken_of_held {config : Config} {board : Board} {link : Link} {moves : List Move}
    {p : Packet} (h : ((ofParts config board link).after moves).held = some p) :
    ∃ j, (p, j) ∈ ((ofParts config board link).history moves).taken := by
  induction moves using List.reverseRecOn with
  | nil => cases h
  | append_singleton moves m ih =>
    have before (same : ((ofParts config board link).after moves).held = some p) :
        ∃ j, (p, j) ∈ ((ofParts config board link).history (moves ++ [m])).taken := by
      obtain ⟨j, taken⟩ := ih same
      exact ⟨j, ((ofParts config board link).taken_grows moves [m]).subset taken⟩
    have moved := moved_apply ((ofParts config board link).after moves) m
    rw [after_concat] at h
    generalize m.apply ((ofParts config board link).after moves) = n' at moved h
    cases moved with
    | received received => cases received <;> exact before h
    | entered entered => cases entered <;> exact before h
    | opened opened =>
      cases opened with
      | free free => exact before h
      | _ => cases h
    | aside _ intake _ => exact before (intake.held ▸ h)
    | worked worked =>
      cases worked with
      | idle idle => exact before h
      | @dispatched q n₁ n₂ _ take entered dispatched =>
        obtain ⟨free, -, rest⟩ := take_some take
        rw [← node_history] at take
        have free : n₂.held = none := by
          rw [entered]
          obtain ⟨queue, waiting, counters, same⟩ := n₁.elim_letIn_eq _
          rw [same, rest]
          exact free
        rw [history_concat, History.taken_work take]
        have held : n'.held = some p → p = q := by
          intro h
          cases dispatched with
          | handled handler => cases (handler.intake.held.trans free).symm.trans h
          | failed handler => cases (handler.intake.held.trans free).symm.trans h
          | holding handler =>
            cases h
            rfl
          | _ => cases free.symm.trans h
        cases held h
        exact ⟨_, List.mem_append_right _ (List.mem_singleton.mpr rfl)⟩

/-- One answer to `p` is written to the connection being served, and nothing to any other. -/
structure Writes (n n' : Node) (p : Packet) (x : Nat) : Prop where
  served : n.link.served? = some x
  answer : ∃ status payload r, answers p status payload = [r] ∧
    n'.link.outgoing x = n.link.outgoing x ++ r.encode
  others : ∀ y, y ≠ x → n'.link.outgoing y = n.link.outgoing y

theorem reads_of_accepted {config : Config} {board : Board} {link : Link} {acts : List Act}
    {p : Packet} {i : Nat}
    (h : (p, i) ∈ ((ofParts config board link).history ((ofParts config board link).spell acts)).accepted) :
    ∃ a, ((ofParts config board link).after
      (((ofParts config board link).spell acts).take i)).Reads a p := by
  have inOrder := InOrder.history config board link ((ofParts config board link).spell acts)
  have offered := inOrder.offered.mem_iff.mpr (List.mem_append_left _ h)
  have brought := receive_of_offered offered
  cases proper_spell brought with
  | inner inner => cases inner
  | receive reads => exact ⟨_, reads⟩

theorem accepted_of_taken {config : Config} {board : Board} {link : Link} {moves : List Move}
    {k : Nat} {p : Packet} {j : Nat}
    (h : ((ofParts config board link).history moves).taken[k]? = some (p, j)) :
    ∃ i, ((ofParts config board link).history moves).accepted[k]? = some (p, i) ∧ i < j := by
  have queue := (InOrder.history config board link moves).queue
  have took : (((ofParts config board link).history moves).taken.map Prod.fst)[k]? = some p := by
    rw [List.getElem?_map, h]
    rfl
  have came : (((ofParts config board link).history moves).accepted.map Prod.fst)[k]? = some p := by
    rw [queue, List.getElem?_append_left (List.getElem?_eq_some_iff.mp took).1, took]
  rw [List.getElem?_map] at came
  obtain ⟨⟨_, i⟩, accepted, rfl⟩ := Option.map_eq_some_iff.mp came
  exact ⟨i, accepted, (Timed.run config board link moves).order k _ _ accepted h⟩

theorem taken_of_subject {config : Config} {board : Board} {link : Link} {moves : List Move}
    {t : Nat} {m : Move} {p : Packet} (h : moves[t]? = some m)
    (subject : ((ofParts config board link).after (moves.take t)).subject? m = some p) :
    ∃ j, (p, j) ∈ ((ofParts config board link).history moves).taken ∧ j ≤ t := by
  cases m with
  | work place =>
    obtain ⟨⟨_, rest⟩, take, rfl⟩ := Option.map_eq_some_iff.mp subject
    exact ⟨t, taken_of_work h take, Nat.le_refl t⟩
  | openGate =>
    obtain ⟨j, taken⟩ := taken_of_held subject
    have early := ((Timed.run config board link (moves.take t)).taken _ taken).1
    rw [List.length_take] at early
    have kept := (ofParts config board link).taken_grows (moves.take t) (moves.drop t)
    rw [List.take_append_drop] at kept
    exact ⟨j, kept.subset taken, Nat.le_trans (Nat.le_of_lt early) (Nat.min_le_left _ _)⟩
  | _ => cases subject

theorem writes_dispatch {n : Node} {p : Packet} {d : Driver} {x : Nat}
    (bound : n.registry.route p.cport = .driver d) (builtIn : d.builtIn = true)
    (request : p.message.isResponse = false) (twoWay : p.message.oneShot = false)
    (accepts : n.link.Open) (served : n.link.served? = some x) : Writes n (n.dispatch p) p x := by
  obtain ⟨status, payload, sent, -⟩ := dispatch_answers_once bound builtIn request accepts
  have answer := answers.eq_def p status payload
  rw [if_neg (by simp [twoWay])] at answer
  rw [answer] at sent
  obtain ⟨written, others⟩ := sent.written served
  exact ⟨served, ⟨status, payload, _, answer, written⟩, others⟩

/-- Hosts come and go in any way while the node works.  Whatever is on the queue was read from the
connection served when it was brought.  Whatever is written is one answer to a request that was
taken, and goes to the connection being served by then; this is the one that the request was read
from if and only if the node has not given that one up meanwhile, and else a later one.  The drivers
that come with the node do answer such a request then. -/
theorem answer_stays_iff (config : Config) (board : Board) (l : SocketLink) (acts : List Act) :
    let start := ofParts config board (.socket l)
    let moves := start.spell acts
    let h := start.history moves
    let state (t : Nat) := start.after (moves.take t)
    (∀ p i, (p, i) ∈ h.accepted → ∃ a, (state i).Reads a p) ∧
    (∀ t, t < moves.length →
      Link.Unwritten (state t).link (state (t + 1)).link ∨
      ∃ (k : Nat) (p : Packet) (i j a x : Nat), h.accepted[k]? = some (p, i) ∧
        h.taken[k]? = some (p, j) ∧ i < j ∧ j ≤ t ∧
        (state i).Reads a p ∧ Writes (state t) (state (t + 1)) p x ∧
        a ≤ x ∧ (x = a ↔ ¬(state t).link.GivenUp a)) ∧
    ∀ (k : Nat) (p : Packet) (j : Nat) (d : Driver) (x : Nat), h.taken[k]? = some (p, j) →
      (state j).registry.route p.cport = .driver d → d.builtIn = true →
      p.message.isResponse = false → p.message.oneShot = false → (state j).link.Open →
      (state j).link.served? = some x →
      Writes (state j) (state (j + 1)) p x ∧ ∃ i a, h.accepted[k]? = some (p, i) ∧
        (state i).Reads a p ∧ a ≤ x ∧ (x = a ↔ ¬(state j).link.GivenUp a) := by
  intro start moves h state
  have reads {p : Packet} {i : Nat} (accepted : (p, i) ∈ h.accepted) : ∃ a, (state i).Reads a p :=
    reads_of_accepted accepted
  -- Where the answer goes depends only on who was served when the request was brought.
  have origin {k : Nat} {p : Packet} {j t x : Nat} (taken : h.taken[k]? = some (p, j)) (le : j ≤ t)
      (served : (state t).link.served? = some x) : ∃ i a, h.accepted[k]? = some (p, i) ∧ i < j ∧
        (state i).Reads a p ∧ a ≤ x ∧ (x = a ↔ ¬(state t).link.GivenUp a) := by
    obtain ⟨i, accepted, early⟩ := accepted_of_taken taken
    obtain ⟨a, read⟩ := reads (List.mem_of_getElem? accepted)
    exact ⟨i, a, accepted, early, read,
      served_of_le (Nat.le_trans (Nat.le_of_lt early) le) read.served served⟩
  refine ⟨fun p i => reads, fun t inRange => ?_, fun k p j d x taken bound builtIn request twoWay
    accepts served => ?_⟩
  · have next := List.getElem?_eq_getElem inRange
    have now : state (t + 1) = moves[t].apply (state t) := after_take_succ next
    rw [now]
    rcases (proper_spell next).unwritten_or_replied with unwritten | ⟨p, subject, replied⟩
    · exact .inl unwritten
    · cases replied with
      | silent quiet => exact .inl quiet.unwritten
      | @answered x status payload r answer served written others _ =>
        obtain ⟨j, mem, le⟩ := taken_of_subject next subject
        obtain ⟨k, taken⟩ := List.mem_iff_getElem?.mp mem
        obtain ⟨i, a, accepted, early, read, later, same⟩ := origin taken le served
        exact .inr ⟨k, p, i, j, a, x, accepted, taken, early, le, read,
          ⟨served, ⟨status, payload, r, answer, written⟩, others⟩, later, same⟩
  · obtain ⟨i, a, accepted, -, read, later, same⟩ := origin taken (Nat.le_refl j) served
    refine ⟨?_, i, a, accepted, read, later, same⟩
    have mem := List.mem_of_getElem? taken
    obtain ⟨place, next⟩ := work_of_taken mem
    obtain ⟨-, rest, take⟩ := (Timed.run config board (.socket l) moves).taken _ mem
    have take : (state j).take = some (p, rest) := take
    have now : state (j + 1) = (place.elim rest rest.letIn).dispatch p := by
      have applied : state (j + 1) = (state j).workFor place := after_take_succ next
      rw [applied, workFor, take]
    obtain ⟨queue, waiting, counters, entered⟩ := rest.elim_letIn_eq place
    have link : (place.elim rest rest.letIn).link = (state j).link := by
      rw [entered, (take_some take).2.2]
    have registry : (place.elim rest rest.letIn).registry = (state j).registry := by
      rw [entered, (take_some take).2.2]
    have writes := writes_dispatch (n := place.elim rest rest.letIn) (registry ▸ bound) builtIn
      request twoWay (link ▸ accepts) (link ▸ served)
    rw [now]
    exact ⟨link ▸ writes.served, link ▸ writes.answer, link ▸ writes.others⟩

def succession : List Act :=
  [.node (.register 0 1 .loopback) rfl, .node (.listen 0) rfl, .host .connect, .host .connect,
    .host (.write 0 (Packet.encode ⟨0, ⟨7, 0x02, 0, []⟩⟩)), .serve, .host (.finish 0), .serve,
    .node (.work none) rfl]

theorem succession_answers_later :
    let start := ofParts .smallest .fresh (.socket SocketLink.fresh.attach)
    let moves := start.spell succession
    (start.after (moves.take 5)).Reads 0 ⟨0, ⟨7, 0x02, 0, []⟩⟩ ∧
      Writes (start.after (moves.take 9)) (start.after (moves.take 10)) ⟨0, ⟨7, 0x02, 0, []⟩⟩ 1 ∧
      (start.after (moves.take 9)).link.GivenUp 0 := by
  intro start moves
  obtain ⟨writes, i, a, accepted, read, -, same⟩ :=
    (answer_stays_iff .smallest .fresh SocketLink.fresh.attach succession).2.2 0
      ⟨0, ⟨7, 0x02, 0, []⟩⟩ 9 .loopback 1 rfl rfl rfl rfl rfl (fun p => ⟨_, rfl⟩) rfl
  have brought : i = 5 := congrArg Prod.snd (Option.some.inj accepted).symm
  subst brought
  have first : a = 0 := (Option.some.inj read.served).symm
  subst first
  refine ⟨read, writes, ?_⟩
  by_contra kept
  exact absurd (same.mpr kept) (by decide)

end Node

end CportNode
