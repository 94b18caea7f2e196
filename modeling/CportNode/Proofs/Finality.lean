import CportNode.Proofs.Listening

namespace CportNode

def Visit.opens (v : Visit) : Bool :=
  decide (v.callback = .init) && !v.failed

def Visit.closes (v : Visit) : Bool :=
  decide (v.callback = .exit)

theorem Visit.of_use {v : Visit} (use : v.callback.use = true) :
    v.opens = false ∧ v.closes = false := by
  obtain ⟨d, callback, c, failed⟩ := v
  cases callback with
  | init => cases use
  | exit => cases use
  | _ => exact ⟨rfl, rfl⟩

theorem Visit.Changes.balanced {c : UInt16} {x y : Option Driver} {v : Visit}
    (h : v.Changes c x y) :
    x.toList.length + (if v.opens then 1 else 0) =
      (if v.closes then 1 else 0) + y.toList.length := by
  cases h with
  | used d use =>
    obtain ⟨opens, closes⟩ := Visit.of_use (v := ⟨d, _, c, false⟩) use
    rw [opens, closes]
    rfl
  | _ => rfl

theorem Lives.balanced {c : UInt16} {x y : Option Driver} {visits : List Visit}
    (h : Lives c x visits y) :
    x.toList.length + visits.countP Visit.opens =
      visits.countP Visit.closes + y.toList.length := by
  induction h with
  | nil => rw [List.countP_nil, List.countP_nil, Nat.add_comm]
  | cons changes _ ih =>
    have step := changes.balanced
    rw [List.countP_cons, List.countP_cons]
    omega

theorem Lifetime.balanced {c : UInt16} {visits : List Visit} (h : Lifetime c visits) :
    visits.countP Visit.opens = visits.countP Visit.closes := by
  cases h with
  | refused d => rfl
  | closed current =>
    cases current with
    | @mk uses all =>
      have opens : uses.countP Visit.opens = 0 :=
        List.countP_eq_zero.2 fun v member => by
          rw [(Visit.of_use (all v member).use).1]
          exact Bool.false_ne_true
      have closes : uses.countP Visit.closes = 0 :=
        List.countP_eq_zero.2 fun v member => by
          rw [(Visit.of_use (all v member).use).2]
          exact Bool.false_ne_true
      simp only [List.countP_append, List.countP_cons, opens, closes]
      rfl

theorem Lifetimes.balanced {c : UInt16} {visits : List Visit}
    (h : Lifetimes c visits Option.none) :
    visits.countP Visit.opens = visits.countP Visit.closes := by
  cases h with
  | ended all =>
    rw [List.countP_flatten, List.countP_flatten]
    exact congrArg List.sum (List.map_congr_left fun l member => (all l member).balanced)

theorem Lifetimes.none_iff {c : UInt16} {x : Option Driver} {visits : List Visit}
    (h : Lives c Option.none visits x) : Lifetimes c visits Option.none ↔ x = Option.none := by
  constructor
  · intro ended
    have balanced := h.balanced
    rw [ended.balanced, Option.toList_none, List.length_nil, Nat.zero_add] at balanced
    cases x with
    | none => rfl
    | some d =>
      rw [Option.toList_some, List.length_singleton] at balanced
      omega
  · rintro rfl
    exact (Lifetimes.none c).lives h

namespace Node

def Idle (n : Node) : Prop :=
  ∀ c, n.registry.driver? c = none ∧ c ∉ n.link.listening

/-- What is down stays down, and what goes down is idle at once. -/
structure Ends (n n' : Node) : Prop where
  down : n.running = false → n'.running = false
  idle : n.running = true → n'.running = false → n'.Idle

theorem Ends.of_running {n n' : Node} (same : n'.running = n.running) : Ends n n' where
  down := same.trans
  idle running down := by
    rw [same, running] at down
    cases down

theorem Ends.before {n n₁ n' : Node} (h : Ends n₁ n') (same : n₁.running = n.running) :
    Ends n n' where
  down down := h.down (same.trans down)
  idle running := h.idle (same.trans running)

theorem running_keptByTurnover : KeptByTurnover fun n n' => n'.running = n.running where
  refl _ := rfl
  trans h h' := h'.trans h
  exit _ _ := rfl
  outlet _ _ := rfl
  board _ _ _ := rfl
  init _ _ := rfl
  mute n c := by
    obtain ⟨set, muted, -⟩ := n.mute_eq c
    rw [muted]
  modifySlot _ _ _ := rfl

@[simp] theorem running_carryOut (n : Node) (c : UInt16) (d : Driver) (kind : UInt8)
    (body : Bytes) : (n.carryOut c d kind body).2.running = n.running := by
  obtain ⟨registry, board, link, calls, carried, -⟩ := n.carryOut_eq c d kind body
  rw [carried]

theorem Ends.concluded {n n' : Node} (h : Ends n n') (p : Packet) (reaction : Reaction) :
    Ends n (n'.conclude (n'.answer p reaction)) := by
  have listening := n'.listening_conclude p reaction
  have same : (n'.conclude (n'.answer p reaction)).running = n'.running ∧
      (n'.conclude (n'.answer p reaction)).registry = n'.registry := by
    rcases n'.conclude_answer p reaction with ⟨link, answered⟩ | failed
    · rw [answered]
      exact ⟨rfl, rfl⟩
    · rw [failed]
      exact ⟨rfl, rfl⟩
  refine ⟨fun down => same.1.trans (h.down down), fun running down c => ?_⟩
  rw [same.2, listening]
  exact h.idle running (same.1.symm.trans down) c

theorem deaf_detach (l : Link) (c : UInt16) : c ∉ l.detach.listening := by
  cases l <;> exact CportSet.not_mem_empty

theorem ends_shutDownWithin (n : Node) : Ends n n.shutDownWithin := by
  unfold shutDownWithin
  split
  · rename_i running
    refine ⟨fun down => ?_, fun _ _ c => ⟨driver?_halt n c, deaf_detach _ c⟩⟩
    rw [running] at down
    cases down
  · exact .of_running rfl

theorem ends_handleScripted (n : Node) (s : Script) (p : Packet) :
    Ends n (n.handleScripted s p) := by
  unfold handleScripted
  split
  · exact .of_running rfl
  · have down (n' : Node) : Ends n' (if s.handleShutsDown then n'.shutDownWithin else n') := by
      split
      · exact ends_shutDownWithin n'
      · exact .of_running rfl
    cases s.handleUnregisters with
    | none => exact (down n).concluded p _
    | some c => exact ((down _).before (running_keptByTurnover.unregister n c)).concluded p _

theorem ends_handle (n : Node) (d : Driver) (p : Packet) : Ends n (n.handle d p) := by
  have carried (d : Driver) := (Ends.of_running
    (n.running_carryOut p.cport d p.message.kind p.message.payload)).concluded p
      (n.carryOut p.cport d p.message.kind p.message.payload).1
  cases d with
  | gate =>
    simp only [handle, handleGate]
    split
    · exact (Ends.of_running rfl).concluded p _
    · exact .of_running rfl
  | scripted s => exact ends_handleScripted n s p
  | _ =>
    simp only [handle]
    exact carried _

theorem ends_dispatch (n : Node) (p : Packet) : Ends n (n.dispatch p) := by
  unfold dispatch
  split
  · exact .of_running rfl
  · exact .of_running rfl
  · split
    · simp only
      split
      · rename_i answered
        obtain ⟨link, rfl⟩ := answer_ok answered
        exact .of_running rfl
      · exact .of_running rfl
    · exact (ends_handle _ _ p).before rfl

theorem ends_workFor (n : Node) (place : Option Nat) : Ends n (n.workFor place) := by
  unfold workFor
  cases taken : n.take with
  | none => exact .of_running rfl
  | some taken' =>
    obtain ⟨p, n'⟩ := taken'
    obtain ⟨queue, waiting, counters, entered⟩ := n'.elim_letIn_eq place
    refine (ends_dispatch _ p).before ?_
    rw [entered, (take_some taken).2.2]

theorem ends_apply (n : Node) {m : Move} (whole : m ≠ .stop) : Ends n (m.apply n) := by
  cases m with
  | receive p =>
    refine .of_running ?_
    have received := received_receive n p
    simp only [Move.apply]
    generalize n.receive p = outcome at *
    cases received <;> rfl
  | letIn place =>
    obtain ⟨queue, waiting, counters, same⟩ := n.letIn_eq place
    simp only [Move.apply, same]
    exact .of_running rfl
  | work place => exact n.ends_workFor place
  | register c bundle d => exact .of_running (running_keptByTurnover.register n c bundle d)
  | unregister c => exact .of_running (running_keptByTurnover.unregister n c)
  | listen c =>
    simp only [Move.apply]
    split
    · rename_i listened
      obtain ⟨link, rfl⟩ := listen_ok listened
      exact .of_running rfl
    · exact .of_running rfl
  | stopListening c =>
    simp only [Move.apply]
    split
    · rename_i stopped
      obtain ⟨link, rfl⟩ := stopListening_ok stopped
      exact .of_running rfl
    · exact .of_running rfl
  | notify c event =>
    obtain ⟨calls, notified⟩ := n.notify_snd c event
    simp only [Move.apply, notified]
    exact .of_running rfl
  | openGate =>
    have opened := gateOpened_openGate n
    simp only [Move.apply]
    generalize n.openGate = n' at *
    cases opened <;> exact .of_running rfl
  | stop => exact absurd rfl whole
  | _ => exact .of_running rfl

theorem registry_dispatch_of_vacant {n : Node} {p : Packet}
    (vacant : n.registry.driver? p.cport = none) : (n.dispatch p).registry = n.registry := by
  unfold dispatch
  split
  · rfl
  · rfl
  · rename_i route
    cases vacant.symm.trans (Registry.driver?_of_route route)

theorem registry_work_of_vacant {n : Node} (vacant : ∀ c, n.registry.driver? c = none) :
    (n.letIn 0).work.registry = n.registry := by
  obtain ⟨queue, waiting, counters, first⟩ := n.letIn_eq 0
  rw [work, workFor, first]
  split
  · rename_i p n' taken
    obtain ⟨queue', waiting', counters', entered⟩ := n'.elim_letIn_eq (some 0)
    have rest := (take_some taken).2.2
    have same : ((some 0).elim n' n'.letIn).registry = n.registry := by rw [entered, rest]
    rw [registry_dispatch_of_vacant (same ▸ vacant p.cport), same]
  · rfl

theorem registry_settle_of_vacant {n : Node} (vacant : ∀ c, n.registry.driver? c = none) :
    n.settle.registry = n.registry := by
  rw [settle]
  generalize n.queue.length + n.waiting.length = k
  induction k with
  | zero => rfl
  | succ k ih => exact (registry_work_of_vacant (ih ▸ vacant)).trans ih

@[simp] theorem registry_released (n : Node) : n.released.registry = n.halt.registry := by
  unfold released
  split
  · have opened := gateOpened_openGate n.halt
    generalize n.halt.openGate = n' at *
    cases opened <;> rfl
  · rfl

theorem ends_shutDown (n : Node) : Ends n n.shutDown := by
  cases running : n.running with
  | false =>
    have still : n.shutDown = n := by rw [shutDown, running, if_neg Bool.false_ne_true]
    rw [still]
    exact .of_running rfl
  | true =>
    refine ⟨fun down => ?_, fun _ _ c => ?_⟩
    · rw [running] at down
      cases down
    · have vacant (c : UInt16) : n.released.registry.driver? c = none := by
        simp
      rw [shutDown_eq running]
      refine ⟨?_, deaf_detach _ c⟩
      show n.released.settle.registry.driver? c = none
      rw [registry_settle_of_vacant vacant]
      exact vacant c

end Node

/-- What is done with a node as a whole that comes with drivers that go alone, and that takes the
node down all at once if at all. -/
structure Stage.Proper (s : Stage) : Prop where
  alone : s.alone = true
  modest : s.Modest
  whole : s ≠ .move .stop

def Stage.Binds : Stage → Node → Prop
  | move (.register c bundle d), n => (n.register c bundle d).1 = .ok ()
  | _, _ => False

namespace Node

def Enlists : Node → List Stage → Prop
  | _, [] => False
  | n, s :: stages => s.Binds n ∨ (s.apply n).Enlists stages

theorem ends_stage (n : Node) {s : Stage} (proper : s.Proper) : Ends n (s.apply n) := by
  cases s with
  | move m => exact n.ends_apply fun stop => proper.whole (congrArg Stage.move stop)
  | shutDown => exact n.ends_shutDown

theorem down_pass {n : Node} (down : n.running = false) {stages : List Stage}
    (proper : ∀ s ∈ stages, s.Proper) : (n.pass stages).running = false := by
  induction stages generalizing n with
  | nil => exact down
  | cons s stages ih =>
    exact ih ((n.ends_stage (proper s List.mem_cons_self)).down down) fun s' later =>
      proper s' (List.mem_cons_of_mem s later)

structure Over (n : Node) : Prop where
  down : n.running = false
  tuned : n.Tuned
  vacant : ∀ c, n.registry.driver? c = none

theorem Over.idle {n : Node} (h : n.Over) : n.Idle := by
  refine fun c => ⟨h.vacant c, fun listens => ?_⟩
  have bound := h.tuned.bound c listens
  rw [Registry.isBound, h.vacant c] at bound
  cases bound

theorem Over.alone {n : Node} (h : n.Over) : n.Alone := by
  intro c d bound
  rw [h.vacant c] at bound
  cases bound

theorem Course.vacant {n n' : Node} (h : Course n [] n')
    (vacant : ∀ c, n.registry.driver? c = none) (c : UInt16) : n'.registry.driver? c = none := by
  have lives := h.lives c
  rw [occupant?, vacant c] at lives
  cases occupied : n'.occupant? c with
  | none => exact Option.map_eq_none_iff.mp occupied
  | some d =>
    rw [occupied] at lives
    cases lives

theorem visitsDispatch_of_vacant {n : Node} {p : Packet}
    (vacant : n.registry.driver? p.cport = none) : n.visitsDispatch p = [] := by
  unfold visitsDispatch
  split
  · rename_i route
    cases vacant.symm.trans (Registry.driver?_of_route route)
  · rfl

theorem visits_of_vacant {n : Node} (vacant : ∀ c, n.registry.driver? c = none) {m : Move}
    (other : ∀ c bundle d, m ≠ .register c bundle d) : m.visits n = [] := by
  cases m with
  | register c bundle d => exact absurd rfl (other c bundle d)
  | unregister c => exact visit_of_vacant (vacant c) .exit
  | notify c event => exact visit_of_vacant (vacant c) event.callback
  | work place =>
    simp only [Move.visits]
    split
    · rename_i p n' taken
      obtain ⟨queue, waiting, counters, entered⟩ := n'.elim_letIn_eq place
      refine visitsDispatch_of_vacant ?_
      rw [entered, (take_some taken).2.2]
      exact vacant p.cport
    · rfl
  | _ => rfl

theorem vacant_register {n : Node} (vacant : ∀ c, n.registry.driver? c = none) {d : Driver}
    (inits : d.initsAlone = true) {c : UInt16} {bundle : UInt8}
    (refused : (n.register c bundle d).1 ≠ .ok ()) (c' : UInt16) :
    (n.register c bundle d).2.registry.driver? c' = none := by
  have initialised := initDriver_alone inits n c
  have registered := registered_register inits n c bundle
  generalize n.register c bundle d = outcome at *
  cases registered with
  | refused _ => exact vacant c'
  | failed _ failed =>
    rw [failed] at initialised
    rw [initialised.1]
    exact vacant c'
  | bound _ _ => exact absurd rfl refused

theorem Over.stage {n : Node} (h : n.Over) {s : Stage} (proper : s.Proper)
    (nobody : ¬ s.Binds n) : (s.apply n).Over := by
  refine ⟨(n.ends_stage proper).down h.down, h.tuned.stage proper.modest, ?_⟩
  have calm := proper.alone
  cases s with
  | shutDown =>
    have still : n.shutDown = n := by rw [shutDown, h.down, if_neg Bool.false_ne_true]
    rw [Stage.apply, still]
    exact h.vacant
  | move m =>
    have others (other : ∀ c bundle d, m ≠ .register c bundle d) (c : UInt16) :
        (m.apply n).registry.driver? c = none := by
      have course := course_apply h.alone (m := m) calm
      rw [visits_of_vacant h.vacant other] at course
      exact course.vacant h.vacant c
    cases m with
    | register c bundle d =>
      exact vacant_register h.vacant (Bool.and_eq_true_iff.mp calm).1 nobody
    | _ => exact others fun _ _ _ same => by cases same

theorem driver?_register {n : Node} {d : Driver} (inits : d.initsAlone = true) {c : UInt16}
    {bundle : UInt8} (succeeded : (n.register c bundle d).1 = .ok ()) :
    (n.register c bundle d).2.registry.driver? c = some d := by
  have initialised := initDriver_alone inits n c
  have registered := registered_register inits n c bundle
  generalize n.register c bundle d = outcome at *
  cases registered with
  | refused _ => cases succeeded
  | failed _ _ => cases succeeded
  | @bound n' admitted done =>
    obtain ⟨s, hs, -⟩ := Registry.vacant_of_admits admitted
    rw [done] at initialised
    have registry : n'.registry = n.registry := initialised.1
    simp [registry, hs]

theorem not_idle_of_binds {n : Node} {s : Stage} (calm : s.alone = true) (h : s.Binds n) :
    ¬ (s.apply n).Idle := by
  intro idle
  cases s with
  | shutDown => exact h
  | move m =>
    cases m with
    | register c bundle d =>
      have bound := driver?_register (Bool.and_eq_true_iff.mp calm).1 h
      cases (idle c).1.symm.trans bound
    | _ => exact h

theorem Over.idle_iff {n : Node} (h : n.Over) {stages : List Stage}
    (proper : ∀ s ∈ stages, s.Proper) :
    (∀ k, (n.pass (stages.take k)).Idle) ↔ ¬ n.Enlists stages := by
  induction stages generalizing n with
  | nil =>
    refine iff_of_true (fun k => ?_) id
    rw [List.take_nil]
    exact h.idle
  | cons s stages ih =>
    have here := proper s List.mem_cons_self
    by_cases binds : s.Binds n
    · exact iff_of_false (fun idle => not_idle_of_binds here.alone binds (idle 1))
        fun nobody => nobody (.inl binds)
    · have rest := ih (h.stage here binds) fun s' later => proper s' (List.mem_cons_of_mem s later)
      rw [Enlists, or_iff_right binds, ← rest]
      refine ⟨fun idle k => idle (k + 1), fun idle k => ?_⟩
      cases k with
      | zero => exact h.idle
      | succ k => exact idle k

@[simp] theorem pass_append (n : Node) (stages stages' : List Stage) :
    n.pass (stages ++ stages') = (n.pass stages).pass stages' :=
  List.foldl_append

/-- Going down leaves nobody bound and a node deaf.  It does not keep a driver from being registered
afterwards, and the node stays idle only as long as none is.  Discarding the node in the end unbinds
nobody, so that the drivers which are bound by then, and no others, never exit. -/
theorem down_is_final_iff (config : Config) (board : Board) {link : Link}
    (free : link.stopFault? = none) (deaf : ∀ c, c ∉ link.listening) {before later : List Stage}
    {s : Stage} (proper : ∀ t ∈ before ++ s :: later, t.Proper) :
    let start := ofParts config board link
    let n := start.pass (before ++ [s])
    let last := (n.pass later).discard
    (start.pass before).running = true → n.running = false →
      n.Idle ∧
      (∀ c bundle d, d.initsAlone = true →
        ((n.register c bundle d).1 = .ok () ↔
          (∃ row, config.cports[c.toNat]? = some row ∧ row.bundle = bundle) ∧
            (n.initDriver c d).1 = .ok ())) ∧
      ((∀ k, (n.pass (later.take k)).Idle) ↔ ¬ n.Enlists later) ∧
      last.calls = (n.pass later).calls ∧
      ∀ c, Lifetimes c (Visit.at c (start.visitsPast (before ++ s :: later))) none ↔
        last.registry.driver? c = none := by
  intro start n last running down
  have alone (t : Stage) (member : t ∈ before ++ s :: later) : t.alone = true :=
    (proper t member).alone
  have here : s.Proper := proper s (by simp)
  have afterwards (t : Stage) (member : t ∈ later) : t.Proper :=
    proper t (List.mem_append_right _ (List.mem_cons_of_mem s member))
  have gone : n = s.apply (start.pass before) := start.pass_append before [s]
  have idle : n.Idle := by
    rw [gone] at down ⊢
    exact ((start.pass before).ends_stage here).idle running down
  have tuned : n.Tuned := by
    refine (tuned_ofParts config board free deaf).pass fun t member => (proper t ?_).modest
    rw [List.append_cons]
    exact List.mem_append_left later member
  have past : n.Over := ⟨down, tuned, fun c => (idle c).1⟩
  have same : last = { n.pass later with discarded := true } := by
    simp [last, discard, shutDown, down_pass down afterwards]
  refine ⟨idle, fun c bundle d inits => ?_, past.idle_iff afterwards, by rw [same], fun c => ?_⟩
  · have row : (n.registry.slot? c).map (·.row) = config.cports[c.toNat]? := by
      rw [start.row_pass (before ++ [s]) c, slot?_ofParts]
      cases config.cports[c.toNat]? <;> rfl
    rw [register_ok_iff inits, row, occupant?, past.vacant c, Option.map_none]
    simp
  · have nobody (c : UInt16) : start.registry.driver? c = none := by
      rw [Registry.driver?, slot?_ofParts]
      cases config.cports[c.toNat]? <;> rfl
    have course := course_pass (n := start) (fun c d bound => by rw [nobody] at bound; cases bound)
      alone
    have lives := course.lives c
    rw [List.append_cons, pass_append, occupant?, nobody, Option.map_none] at lives
    rw [List.append_cons, Lifetimes.none_iff lives, occupant?, Option.map_eq_none_iff, same]

def tenancy : Node :=
  ofParts { Config.empty with cports := [⟨0, .control⟩, ⟨1, .loopback⟩] } .fresh (.memory .fresh)

def leaving : List Stage :=
  [.move (.register 1 1 .loopback), .shutDown]

def returning : List Stage :=
  [.move (.register 1 1 .bare), .move (.listen 1)]

theorem returning_never_exits :
    (tenancy.pass leaving).Idle ∧
      1 ∈ ((tenancy.pass leaving).pass returning).link.listening ∧
      ((tenancy.pass leaving).pass returning).discard.calls =
        [⟨.init, 1⟩, ⟨.exit, 1⟩, ⟨.init, 1⟩] ∧
      ¬ Lifetimes 1 (Visit.at 1 (tenancy.visitsPast (leaving ++ returning))) none := by
  have proper : ∀ t ∈ [.move (.register 1 1 .loopback)] ++ Stage.shutDown :: returning,
      t.Proper := by
    intro t member
    simp only [returning, List.cons_append, List.nil_append, List.mem_cons, List.not_mem_nil,
      or_false] at member
    rcases member with rfl | rfl | rfl | rfl <;> exact ⟨rfl, trivial, by simp⟩
  have listens : 1 ∈ ((tenancy.pass leaving).pass returning).link.listening := by decide
  have calls : ((tenancy.pass leaving).pass returning).calls =
      [⟨.init, 1⟩, ⟨.exit, 1⟩, ⟨.init, 1⟩] := rfl
  have bound : ((tenancy.pass leaving).pass returning).discard.registry.driver? 1 = some .bare :=
    rfl
  obtain ⟨idle, -, -, same, exits⟩ := down_is_final_iff
    { Config.empty with cports := [⟨0, .control⟩, ⟨1, .loopback⟩] } .fresh
    (show (Link.memory .fresh).stopFault? = none from rfl) (fun _ => CportSet.not_mem_empty) proper
    rfl rfl
  refine ⟨idle, listens, Eq.trans same calls, fun ended => ?_⟩
  have vacant : ((tenancy.pass leaving).pass returning).discard.registry.driver? 1 = none :=
    (exits 1).mp ended
  cases vacant.symm.trans bound

end Node

end CportNode
