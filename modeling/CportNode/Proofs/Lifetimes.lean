import CportNode.Proofs.Answer
import CportNode.Proofs.Sharing
import CportNode.Proofs.ShutDown

namespace CportNode

/-- Its init binds no other driver. -/
def Driver.initsAlone : Driver → Bool
  | scripted s => s.initRegisters.isNone
  | _ => true

def Driver.renewed : Driver → Driver
  | gpio _ => gpio .fresh
  | d => d

def Callback.use : Callback → Bool
  | init => false
  | exit => false
  | _ => true

structure Visit where
  driver : Driver
  callback : Callback
  cport : UInt16
  failed : Bool

def Visit.call (v : Visit) : Call :=
  ⟨v.callback, v.cport⟩

def Visit.at (c : UInt16) (visits : List Visit) : List Visit :=
  visits.filter (·.cport = c)

inductive Visit.Changes (c : UInt16) : Option Driver → Visit → Option Driver → Prop
  | refused (d : Driver) : Changes c none ⟨d, .init, c, true⟩ none
  | bound (d : Driver) : Changes c none ⟨d, .init, c, false⟩ (some d)
  | used (d : Driver) {callback : Callback} : callback.use = true →
      Changes c (some d) ⟨d, callback, c, false⟩ (some d)
  | exited (d : Driver) : Changes c (some d) ⟨d, .exit, c, false⟩ none

theorem Visit.Changes.cport {c : UInt16} {x y : Option Driver} {v : Visit}
    (h : v.Changes c x y) : v.cport = c := by
  cases h <;> rfl

inductive Lives (c : UInt16) : Option Driver → List Visit → Option Driver → Prop
  | nil {x : Option Driver} : Lives c x [] x
  | cons {x y z : Option Driver} {v : Visit} {visits : List Visit} :
      v.Changes c x y → Lives c y visits z → Lives c x (v :: visits) z

theorem Lives.append {c : UInt16} {x y z : Option Driver} {visits visits' : List Visit}
    (h : Lives c x visits y) (h' : Lives c y visits' z) : Lives c x (visits ++ visits') z := by
  induction h with
  | nil => exact h'
  | cons changes _ ih => exact .cons changes (ih h')

structure Use (c : UInt16) (d : Driver) (v : Visit) : Prop where
  driver : v.driver = d
  cport : v.cport = c
  use : v.callback.use = true

inductive Lifetime.Open (c : UInt16) : Driver → List Visit → Prop
  | mk (d : Driver) {uses : List Visit} : (∀ v ∈ uses, Use c d v) →
      Lifetime.Open c d (⟨d, .init, c, false⟩ :: uses)

inductive Lifetime (c : UInt16) : List Visit → Prop
  | refused (d : Driver) : Lifetime c [⟨d, .init, c, true⟩]
  | closed {d : Driver} {visits : List Visit} : Lifetime.Open c d visits →
      Lifetime c (visits ++ [⟨d, .exit, c, false⟩])

/-- One lifetime follows the other, and the last is open if a driver is bound. -/
inductive Lifetimes (c : UInt16) : List Visit → Option Driver → Prop
  | ended {lifetimes : List (List Visit)} : (∀ l ∈ lifetimes, Lifetime c l) →
      Lifetimes c lifetimes.flatten none
  | lasting {lifetimes : List (List Visit)} {d : Driver} {current : List Visit} :
      (∀ l ∈ lifetimes, Lifetime c l) → Lifetime.Open c d current →
      Lifetimes c (lifetimes.flatten ++ current) (some d)

theorem Lifetimes.concat {c : UInt16} {lifetimes : List (List Visit)} {l : List Visit}
    (all : ∀ l ∈ lifetimes, Lifetime c l) (last : Lifetime c l) :
    Lifetimes c (lifetimes.flatten ++ l) none := by
  rw [← List.flatten_concat]
  refine .ended fun l' member => ?_
  rcases List.mem_append.mp member with before | same
  · exact all l' before
  · rwa [List.mem_singleton.mp same]

theorem Lifetimes.none (c : UInt16) : Lifetimes c [] none :=
  @ended c [] fun _ member => absurd member List.not_mem_nil

theorem Lifetime.Open.used {c : UInt16} {d : Driver} {current : List Visit} {callback : Callback}
    (h : Lifetime.Open c d current) (use : callback.use = true) :
    Lifetime.Open c d (current ++ [⟨d, callback, c, false⟩]) := by
  cases h with
  | mk uses =>
    refine .mk d fun v member => ?_
    rcases List.mem_append.mp member with before | same
    · exact uses v before
    · rw [List.mem_singleton.mp same]
      exact ⟨rfl, rfl, use⟩

theorem Lifetime.Open.bound (c : UInt16) (d : Driver) :
    Lifetime.Open c d [⟨d, .init, c, false⟩] :=
  .mk d fun _ member => absurd member List.not_mem_nil

theorem Lifetimes.change {c : UInt16} {x y : Option Driver} {visits : List Visit} {v : Visit}
    (h : Lifetimes c visits x) (changes : v.Changes c x y) : Lifetimes c (visits ++ [v]) y := by
  cases h with
  | ended all =>
    cases changes with
    | refused d => exact .concat all (.refused d)
    | bound d => exact .lasting all (.bound c d)
  | lasting all current =>
    rw [List.append_assoc]
    cases changes with
    | used _ use => exact .lasting all (current.used use)
    | exited _ => exact .concat all (.closed current)

theorem Lifetimes.lives {c : UInt16} {x y : Option Driver} {visits visits' : List Visit}
    (h : Lifetimes c visits x) (lives : Lives c x visits' y) :
    Lifetimes c (visits ++ visits') y := by
  induction lives generalizing visits with
  | nil => rwa [List.append_nil]
  | cons changes _ ih =>
    have := ih (h.change changes)
    rwa [List.append_assoc] at this

namespace Node

def occupant? (n : Node) (c : UInt16) : Option Driver :=
  (n.registry.driver? c).map Driver.renewed

def visit (n : Node) (callback : Callback) (c : UInt16) : List Visit :=
  (n.occupant? c).toList.map fun d => ⟨d, callback, c, false⟩

def visitsRegister (n : Node) (c : UInt16) (bundle : UInt8) (d : Driver) : List Visit :=
  match n.registry.admits c bundle with
  | .error _ => []
  | .ok () => [⟨d.renewed, .init, c, !(n.initDriver c d).1.isOk⟩]

def departures : Node → List UInt16 → List Visit
  | _, [] => []
  | n, c :: cports => n.visit .exit c ++ (n.unregister c).2.departures cports

def visitsShutDown (n : Node) : List Visit :=
  if n.running then { n with running := false }.departures n.registry.boundCports else []

def visitsScripted (n : Node) (s : Script) : List Visit :=
  match s.handleFault with
  | some _ => []
  | none =>
    let (visits, n) := match s.handleUnregisters with
      | some c => (n.visit .exit c, (n.unregister c).2)
      | none => ([], n)
    visits ++ if s.handleShutsDown then n.visitsShutDown else []

def visitsHandle (n : Node) (d : Driver) (m : Message) : List Visit :=
  match d with
  | .control =>
    match Control.Request.decode m.kind m.payload with
    | .ok (.connect target) =>
      match n.listen target with
      | .ok n => n.visit .connected target
      | .error _ => []
    | .ok (.disconnect target) => n.visit .disconnected target
    | _ => []
  | .scripted s => n.visitsScripted s
  | _ => []

def visitsDispatch (n : Node) (p : Packet) : List Visit :=
  match n.registry.route p.cport with
  | .driver d =>
    if p.message.kind = Message.pingKind then []
    else
      let n' := n.count fun c => { c with dispatched := c.dispatched + 1 }
      n.visit (.handle p.message) p.cport ++
        (n'.called (.handle p.message) p.cport).visitsHandle d p.message
  | _ => []

end Node

def Move.visits : Move → Node → List Visit
  | register c bundle d, n => n.visitsRegister c bundle d
  | unregister c, n => n.visit .exit c
  | notify c event, n => n.visit event.callback c
  | work place, n =>
    match n.take with
    | some (p, n) => (place.elim n n.letIn).visitsDispatch p
    | none => []
  | _, _ => []

namespace Node

def visits : Node → List Move → List Visit
  | _, [] => []
  | n, m :: moves => m.visits n ++ (m.apply n).visits moves

def Alone (n : Node) : Prop :=
  ∀ c d, n.registry.driver? c = some d → d.exitsAlone = true

/-- Just these calls were made, and drivers were bound and unbound by nothing else. -/
structure Course (n : Node) (visits : List Visit) (n' : Node) : Prop where
  calls : n'.calls = (visits.map Visit.call).reverse ++ n.calls
  lives : ∀ c, Lives c (n.occupant? c) (Visit.at c visits) (n'.occupant? c)
  alone : n.Alone → n'.Alone

theorem Course.of_eq {n n' : Node} (registry : n'.registry = n.registry)
    (calls : n'.calls = n.calls) : Course n [] n' where
  calls := calls
  lives c := by
    rw [occupant?, occupant?, registry]
    exact .nil
  alone alone c d bound := alone c d (registry ▸ bound)

theorem Course.refl (n : Node) : Course n [] n := .of_eq rfl rfl

theorem Course.trans {n₁ n₂ n₃ : Node} {visits visits' : List Visit} (h : Course n₁ visits n₂)
    (h' : Course n₂ visits' n₃) : Course n₁ (visits ++ visits') n₃ where
  calls := by
    rw [h'.calls, h.calls, List.map_append, List.reverse_append, List.append_assoc]
  lives c := by
    rw [Visit.at, List.filter_append]
    exact (h.lives c).append (h'.lives c)
  alone := h'.alone ∘ h.alone

theorem Course.then {n n₁ n₂ : Node} {visits : List Visit} (h : Course n visits n₁)
    (registry : n₂.registry = n₁.registry) (calls : n₂.calls = n₁.calls) :
    Course n visits n₂ := by
  have := h.trans (.of_eq registry calls)
  rwa [List.append_nil] at this

theorem Course.before {n n₁ n₂ : Node} {visits : List Visit} (h : Course n₁ visits n₂)
    (registry : n₁.registry = n.registry) (calls : n₁.calls = n.calls) : Course n visits n₂ :=
  (Course.of_eq registry calls).trans h

theorem course_single {n n' : Node} {v : Visit} {c : UInt16} {x y : Option Driver}
    (calls : n'.calls = v.call :: n.calls) (before : n.registry.driver? c = x)
    (after : n'.registry.driver? c = y)
    (elsewhere : ∀ c', c' ≠ c → n'.registry.driver? c' = n.registry.driver? c')
    (changes : v.Changes c (x.map .renewed) (y.map .renewed))
    (alone : n.Alone → ∀ d, y = some d → d.exitsAlone = true) : Course n [v] n' where
  calls := calls
  lives c' := by
    by_cases same : c' = c
    · subst same
      have here : Visit.at c' [v] = [v] := List.filter_cons_of_pos (decide_eq_true changes.cport)
      rw [here, occupant?, occupant?, before, after]
      exact .cons changes .nil
    · have none : Visit.at c' [v] = [] := List.filter_cons_of_neg
        (by simpa only [changes.cport, decide_eq_true_eq] using Ne.symm same)
      rw [none, occupant?, occupant?, elsewhere c' same]
      exact .nil
  alone calm c' d bound := by
    by_cases same : c' = c
    · subst same
      exact alone calm d (after.symm.trans bound)
    · exact calm c' d (elsewhere c' same ▸ bound)

theorem visit_of_driver? {n : Node} {c : UInt16} {d : Driver} (h : n.registry.driver? c = some d)
    (callback : Callback) : n.visit callback c = [⟨d.renewed, callback, c, false⟩] := by
  rw [visit, occupant?, h]
  rfl

theorem visit_of_vacant {n : Node} {c : UInt16} (h : n.registry.driver? c = none)
    (callback : Callback) : n.visit callback c = [] := by
  rw [visit, occupant?, h]
  rfl

theorem course_called {n : Node} {c : UInt16} {d : Driver} (bound : n.registry.driver? c = some d)
    (callback : Callback) (use : callback.use = true) :
    Course n (n.visit callback c) (n.called callback c) := by
  rw [visit_of_driver? bound]
  exact course_single rfl bound bound (fun _ _ => rfl) (.used d.renewed use)
    fun alone d' same => alone c d' (bound.trans same)

theorem course_notify (n : Node) (c : UInt16) (event : Event) :
    Course n (n.visit event.callback c) (n.notify c event).2 := by
  have use : event.callback.use = true := by cases event <;> rfl
  cases hs : n.registry.slot? c with
  | none =>
    rw [visit_of_vacant (by rw [Registry.driver?, hs]; rfl)]
    simp only [notify, hs]
    exact .refl n
  | some s =>
    cases hd : s.driver with
    | none =>
      rw [visit_of_vacant (by rw [Registry.driver?_eq hs, hd])]
      simp only [notify, hs, hd]
      exact .refl n
    | some d =>
      have called := course_called (by rw [Registry.driver?_eq hs, hd]) event.callback use
      simp only [notify, hs, hd]
      cases event.fault d <;> exact called

@[simp] theorem calls_adopt (n : Node) (outcome : Except DriverError Board) :
    (n.adopt outcome).2.calls = n.calls := by
  cases outcome <;> rfl

@[simp] theorem calls_mute (n : Node) (c : UInt16) : (n.mute c).calls = n.calls := by
  unfold mute
  split <;> rfl

theorem calls_exitDriver {d : Driver} (alone : d.exitsAlone = true)
    (unregister : Node → UInt16 → Node) (n : Node) (c : UInt16) :
    (exitDriver unregister n c d).calls = ⟨.exit, c⟩ :: n.calls := by
  cases d with
  | gpio triggers => exact calls_adopt _ _
  | uart => exact (calls_adopt _ _).trans (calls_adopt _ _)
  | log outlet => cases outlet <;> rfl
  | scripted s =>
    have nobody : s.exitUnregisters = none := Option.isNone_iff_eq_none.mp alone
    simp only [exitDriver, nobody]
    rfl
  | _ => rfl

theorem calls_unregister {n : Node} {c : UInt16} {d : Driver}
    (bound : n.registry.requireBound c = .ok d) (alone : d.exitsAlone = true) :
    (n.unregister c).2.calls = ⟨.exit, c⟩ :: n.calls := by
  rw [unregister_of_bound bound]
  exact (calls_exitDriver alone _ _ _).trans (congrArg _ (calls_mute n c))

theorem Unbound.driver? {n n' : Node} {c : UInt16} {d : Driver} (h : Unbound n c d n')
    (c' : UInt16) : n'.registry.driver? c' = if c' = c then none else n.registry.driver? c' := by
  rw [h.registry]
  split
  · rename_i same
    subst same
    simp
  · rename_i other
    simp [other]

theorem course_unregister {n : Node} (alone : n.Alone) (c : UInt16) :
    Course n (n.visit .exit c) (n.unregister c).2 := by
  cases bound : n.registry.requireBound c with
  | error e =>
    rw [visit_of_vacant (Registry.driver?_of_requireBound_error bound),
      unregister_of_unbound bound]
    exact .refl n
  | ok d =>
    have driver := Registry.driver?_of_requireBound bound
    have goes := alone c d driver
    have unbound := (unbound_unregister bound goes).2
    rw [visit_of_driver? driver]
    refine course_single (calls_unregister bound goes) driver (driver?_unregister n c)
      (fun c' other => ?_) (.exited d.renewed) fun _ d' impossible => ?_
    · rw [unbound.driver?, if_neg other]
    · cases impossible

theorem course_departures {n : Node} (alone : n.Alone) (cports : List UInt16) :
    Course n (n.departures cports) (cports.foldl (fun n c => (n.unregister c).2) n) := by
  induction cports generalizing n with
  | nil => exact .refl n
  | cons c cports ih =>
    have first := course_unregister alone c
    exact first.trans (ih (first.alone alone))

theorem course_shutDownWithin {n : Node} (alone : n.Alone) :
    Course n n.visitsShutDown n.shutDownWithin := by
  unfold visitsShutDown shutDownWithin
  split
  · have departed := course_departures (n := { n with running := false }) alone
      n.registry.boundCports
    exact Course.before (departed.then rfl rfl) rfl rfl
  · exact .refl n

theorem initDriver_alone {d : Driver} (alone : d.initsAlone = true) (n : Node) (c : UInt16) :
    (n.initDriver c d).2.registry = n.registry ∧
      (n.initDriver c d).2.calls = ⟨.init, c⟩ :: n.calls := by
  have adopted (n' : Node) (outcome : Except DriverError Board)
      (h : n'.registry = n.registry ∧ n'.calls = ⟨.init, c⟩ :: n.calls) :
      (n'.adopt outcome).2.registry = n.registry ∧
        (n'.adopt outcome).2.calls = ⟨.init, c⟩ :: n.calls := by
    rwa [registry_adopt, calls_adopt]
  cases d with
  | gpio triggers => exact adopted _ _ ⟨rfl, rfl⟩
  | uart =>
    simp only [initDriver]
    have installed := adopted (n.called .init c)
      ((n.called .init c).board.setRxHandler (some (.forward c))) ⟨rfl, rfl⟩
    split
    · rename_i n' h
      rw [h] at installed
      exact adopted _ _ installed
    · exact installed
  | log outlet => cases outlet <;> exact ⟨rfl, rfl⟩
  | scripted s =>
    have nobody : s.initRegisters = none := Option.isNone_iff_eq_none.mp alone
    simp only [initDriver, nobody]
    cases s.initFault <;> exact ⟨rfl, rfl⟩
  | _ => exact ⟨rfl, rfl⟩

inductive Registered (n : Node) (c : UInt16) (bundle : UInt8) (d : Driver) :
    Except NodeError Unit × Node → Prop
  | refused {e : NodeError} : n.registry.admits c bundle = .error e →
      Registered n c bundle d (.error e, n)
  | failed {e : DriverError} {n' : Node} : n.registry.admits c bundle = .ok () →
      n.initDriver c d = (.error e, n') → Registered n c bundle d (.error (.driver e), n')
  | bound {n' : Node} : n.registry.admits c bundle = .ok () → n.initDriver c d = (.ok (), n') →
      Registered n c bundle d (.ok (), n'.modifySlot c (.bind d))

theorem registered_register {d : Driver} (alone : d.initsAlone = true) (n : Node) (c : UInt16)
    (bundle : UInt8) : Registered n c bundle d (n.register c bundle d) := by
  have initialised := initDriver_alone alone n c
  unfold register
  split
  · rename_i refused
    exact .refused refused
  · rename_i admitted
    split
    · rename_i failed
      exact .failed admitted failed
    · rename_i n' succeeded
      rw [succeeded] at initialised
      have unoccupied : n'.registry.driver? c = none := by
        rw [initialised.1, Registry.driver?_of_admits admitted]
      rw [unoccupied]
      exact .bound admitted succeeded

theorem course_register {d : Driver} (inits : d.initsAlone = true) (exits : d.exitsAlone = true)
    (n : Node) (c : UInt16) (bundle : UInt8) :
    Course n (n.visitsRegister c bundle d) (n.register c bundle d).2 := by
  have initialised := initDriver_alone inits n c
  have registered := registered_register inits n c bundle
  unfold visitsRegister
  generalize n.register c bundle d = outcome at *
  cases registered with
  | refused refused =>
    rw [refused]
    exact .refl n
  | @failed e n' admitted failed =>
    have vacant := Registry.driver?_of_admits admitted
    rw [failed] at initialised
    simp only [admitted, failed]
    refine course_single initialised.2 vacant (initialised.1 ▸ vacant) (fun c' _ => ?_)
      (.refused d.renewed) fun _ d' impossible => ?_
    · rw [initialised.1]
    · cases impossible
  | @bound n' admitted succeeded =>
    obtain ⟨s, hs, -⟩ := Registry.vacant_of_admits admitted
    rw [succeeded] at initialised
    simp only [admitted, succeeded]
    have registry : n'.registry = n.registry := initialised.1
    have bound : (n'.modifySlot c (.bind d)).registry.driver? c = some d := by
      simp [registry, hs]
    refine course_single initialised.2 (Registry.driver?_of_admits admitted) bound
      (fun c' other => ?_) (.bound d.renewed) fun _ d' same => ?_
    · simp [other, registry]
    · cases same
      exact exits

theorem Course.concluded {n n' : Node} {visits : List Visit} (h : Course n visits n') (p : Packet)
    (reaction : Reaction) : Course n visits (n'.conclude (n'.answer p reaction)) := by
  rcases n'.conclude_answer p reaction with ⟨link, answered⟩ | failed
  · rw [answered]
    exact h.then rfl rfl
  · rw [failed]
    exact h.then rfl rfl

theorem course_handleScripted {n : Node} (alone : n.Alone) (s : Script) (p : Packet) :
    Course n (n.visitsScripted s) (n.handleScripted s p) := by
  unfold visitsScripted handleScripted
  cases s.handleFault with
  | some e => exact (Course.refl n).then rfl rfl
  | none =>
    have down {n₁ : Node} {visits : List Visit} (h : Course n visits n₁) :
        Course n (visits ++ if s.handleShutsDown then n₁.visitsShutDown else [])
          (if s.handleShutsDown then n₁.shutDownWithin else n₁) := by
      cases s.handleShutsDown with
      | true => exact h.trans (course_shutDownWithin (h.alone alone))
      | false => exact h.trans (.refl n₁)
    cases s.handleUnregisters with
    | some c => exact (down (course_unregister alone c)).concluded p _
    | none => exact (down (.refl n)).concluded p _

theorem course_stopListening {n n₁ : Node} {visits : List Visit} (h : Course n visits n₁)
    (t : UInt16) : Course n visits (match n₁.stopListening t with
      | .ok n₂ => n₂
      | .error _ => n₁) := by
  cases stopped : n₁.stopListening t with
  | error e => exact h
  | ok n₂ =>
    obtain ⟨link, rfl⟩ := stopListening_ok stopped
    exact h.then rfl rfl

theorem course_connect (n : Node) (t : UInt16) :
    Course n (match n.listen t with
      | .ok n => n.visit .connected t
      | .error _ => []) (n.connect t).2 := by
  unfold connect
  cases listened : n.listen t with
  | error e => exact .refl n
  | ok n₁ =>
    have notified := n₁.course_notify t .connected
    obtain ⟨link, rfl⟩ := listen_ok listened
    have connected := notified.before (n := n) rfl rfl
    simp only
    split
    · rename_i accepted
      rw [accepted] at connected
      exact connected
    · rename_i rejected
      rw [rejected] at connected
      exact course_stopListening connected t

theorem course_disconnect (n : Node) (t : UInt16) :
    Course n (n.visit .disconnected t) (n.disconnect t).2 := by
  have stopped := course_stopListening (n.course_notify t .disconnected) t
  simp only [disconnect]
  cases h : (n.notify t .disconnected).2.stopListening t with
  | error e => rwa [h] at stopped
  | ok n₂ => rwa [h] at stopped

theorem course_onBoard {α : Type} (n : Node) (decoded : Except Status α)
    (execute : α → Board → Reaction × Board) : Course n [] (n.onBoard decoded execute).2 := by
  cases decoded with
  | error status => exact .refl n
  | ok r => exact (Course.refl n).then rfl rfl

theorem course_update {n : Node} {c : UInt16} {triggers : Gpio.Triggers}
    (bound : n.registry.driver? c = some (.gpio triggers)) (triggers' : Gpio.Triggers) :
    Course n [] (n.modifySlot c (.update (.gpio triggers'))) := by
  obtain ⟨s, hs, hd⟩ := Registry.slot?_of_driver? bound
  have here : (n.modifySlot c (.update (.gpio triggers'))).registry.driver? c =
      some (.gpio triggers') := by
    simp [hs, Slot.update, hd]
  have elsewhere (c' : UInt16) (other : c' ≠ c) :
      (n.modifySlot c (.update (.gpio triggers'))).registry.driver? c' = n.registry.driver? c' := by
    simp [other]
  refine ⟨rfl, fun c' => ?_, fun alone c' d found => ?_⟩
  · have same : (n.modifySlot c (.update (.gpio triggers'))).occupant? c' = n.occupant? c' := by
      by_cases same : c' = c
      · subst same
        rw [occupant?, occupant?, here, bound]
        rfl
      · rw [occupant?, occupant?, elsewhere c' same]
    rw [same]
    exact .nil
  · by_cases same : c' = c
    · subst same
      cases here.symm.trans found
      rfl
    · exact alone c' d (elsewhere c' same ▸ found)

theorem course_carryOut {n : Node} {c : UInt16} {d : Driver}
    (bound : n.registry.driver? c = some d) (builtIn : d.builtIn = true) (m : Message) :
    Course n (n.visitsHandle d m) (n.carryOut c d m.kind m.payload).2 := by
  cases d with
  | control =>
    simp only [visitsHandle, carryOut]
    cases Control.Request.decode m.kind m.payload with
    | error status => exact .refl n
    | ok r =>
      cases r with
      | connect t => exact n.course_connect t
      | disconnect t => exact n.course_disconnect t
      | query q => exact n.course_onBoard _ _
  | gpio triggers =>
    simp only [visitsHandle, carryOut, carryOutGpio]
    split
    · exact .refl n
    · rename_i r _
      have updated := course_update (n := { n with board := (r.execute triggers n.board).2 }) bound
        (triggers.after r (r.execute triggers n.board).1)
      exact updated.before rfl rfl
  | i2c => exact n.course_onBoard _ _
  | spi => exact n.course_onBoard _ _
  | uart => exact n.course_onBoard _ _
  | bare => cases builtIn
  | gate => cases builtIn
  | scripted s => cases builtIn
  | _ => exact .refl n

theorem course_handle {n : Node} {d : Driver} {p : Packet} (alone : n.Alone)
    (bound : n.registry.driver? p.cport = some d) :
    Course n (n.visitsHandle d p.message) (n.handle d p) := by
  have carried (builtIn : d.builtIn = true) :
      Course n (n.visitsHandle d p.message) (n.handle d p) := by
    rw [handle_builtIn n builtIn p]
    exact (course_carryOut bound builtIn p.message).concluded p _
  cases d with
  | scripted s => exact course_handleScripted alone s p
  | bare => exact (Course.refl n).concluded p .quiet
  | gate =>
    simp only [handle, handleGate]
    split
    · exact (Course.refl n).concluded p _
    · exact (Course.refl n).then rfl rfl
  | _ => exact carried rfl

theorem course_dispatch {n : Node} (alone : n.Alone) (p : Packet) :
    Course n (n.visitsDispatch p) (n.dispatch p) := by
  unfold visitsDispatch dispatch
  cases route : n.registry.route p.cport with
  | draining => exact (Course.refl n).then rfl rfl
  | unbound => exact (Course.refl n).then rfl rfl
  | driver d =>
    have bound := Registry.driver?_of_route route
    simp only
    split
    · split
      · rename_i answered
        obtain ⟨link, rfl⟩ := answer_ok answered
        exact (Course.refl n).then rfl rfl
      · exact (Course.refl n).then rfl rfl
    · have called := course_called (n := n.count fun c => { c with dispatched := c.dispatched + 1 })
        bound (.handle p.message) rfl
      exact (called.before (n := n) rfl rfl).trans (course_handle alone bound)

theorem course_receive (n : Node) (p : Packet) : Course n [] (n.receive p).2 := by
  have received := received_receive n p
  generalize n.receive p = outcome at *
  cases received <;> exact (Course.refl n).then rfl rfl

theorem course_workFor {n : Node} (alone : n.Alone) (place : Option Nat) :
    Course n ((Move.work place).visits n) (n.workFor place) := by
  unfold workFor
  simp only [Move.visits]
  cases h : n.take with
  | none => exact .refl n
  | some taken =>
    obtain ⟨p, n₁⟩ := taken
    obtain ⟨queue, waiting, counters, entered⟩ := n₁.elim_letIn_eq place
    have rest := (take_some h).2.2
    simp only
    rw [entered]
    have dispatched : Course { n₁ with queue, waiting, counters } _ _ :=
      course_dispatch (by rw [rest]; exact alone) p
    exact dispatched.before (by rw [rest]) (by rw [rest])

theorem course_openGate (n : Node) : Course n [] n.openGate := by
  have opened := gateOpened_openGate n
  generalize n.openGate = n' at *
  cases opened <;> exact (Course.refl n).then rfl rfl

end Node

def Move.alone : Move → Bool
  | register _ _ d => d.initsAlone && d.exitsAlone
  | _ => true

namespace Node

theorem course_apply {n : Node} (alone : n.Alone) {m : Move} (calm : m.alone = true) :
    Course n (m.visits n) (m.apply n) := by
  cases m with
  | receive p => exact n.course_receive p
  | letIn place =>
    obtain ⟨queue, waiting, counters, same⟩ := n.letIn_eq place
    simp only [Move.apply, same]
    exact (Course.refl n).then rfl rfl
  | work place => exact course_workFor alone place
  | register c bundle d =>
    obtain ⟨inits, exits⟩ := Bool.and_eq_true_iff.mp calm
    exact course_register inits exits n c bundle
  | unregister c => exact course_unregister alone c
  | listen c =>
    simp only [Move.apply]
    split
    · rename_i listened
      obtain ⟨link, rfl⟩ := listen_ok listened
      exact (Course.refl n).then rfl rfl
    · exact .refl n
  | stopListening c => exact course_stopListening (.refl n) c
  | notify c event => exact n.course_notify c event
  | openGate => exact n.course_openGate
  | _ => exact (Course.refl n).then rfl rfl

theorem course_after {n : Node} (alone : n.Alone) {moves : List Move}
    (calm : ∀ m ∈ moves, m.alone = true) : Course n (n.visits moves) (n.after moves) := by
  induction moves generalizing n with
  | nil => exact .refl n
  | cons m moves ih =>
    have first := course_apply alone (calm m List.mem_cons_self)
    exact first.trans (ih (first.alone alone) fun m' later =>
      calm m' (List.mem_cons_of_mem m later))

theorem alone_closing (n : Node) : ∀ m ∈ n.closing, m.alone = true := by
  unfold closing
  split
  · simp only [List.mem_append, List.mem_cons, List.mem_map, List.mem_flatten, List.mem_replicate,
      List.not_mem_nil, or_false]
    rintro m (((((rfl | ⟨c, -, rfl⟩) | rfl) | opens) | ⟨l, ⟨-, rfl⟩, works⟩) | rfl)
    · rfl
    · rfl
    · rfl
    · split at opens
      · rw [List.mem_singleton.mp opens]
        rfl
      · cases opens
    · simp only [List.mem_cons, List.not_mem_nil, or_false] at works
      rcases works with rfl | rfl <;> rfl
    · rfl
  · exact fun m none => absurd none List.not_mem_nil

end Node

/-- What is done with a node as a whole: it makes a move, or is taken down. -/
inductive Stage
  | move (m : Move)
  | shutDown

namespace Stage

def apply : Stage → Node → Node
  | move m, n => m.apply n
  | shutDown, n => n.shutDown

def visits : Stage → Node → List Visit
  | move m, n => m.visits n
  | shutDown, n => n.visits n.closing

def alone : Stage → Bool
  | move m => m.alone
  | shutDown => true

end Stage

namespace Node

def pass (n : Node) (stages : List Stage) : Node :=
  stages.foldl (fun n s => s.apply n) n

def visitsPast : Node → List Stage → List Visit
  | _, [] => []
  | n, s :: stages => s.visits n ++ (s.apply n).visitsPast stages

theorem course_pass {n : Node} (alone : n.Alone) {stages : List Stage}
    (calm : ∀ s ∈ stages, s.alone = true) : Course n (n.visitsPast stages) (n.pass stages) := by
  induction stages generalizing n with
  | nil => exact .refl n
  | cons s stages ih =>
    have first : Course n (s.visits n) (s.apply n) := by
      cases s with
      | move m => exact course_apply alone (calm _ List.mem_cons_self)
      | shutDown =>
        rw [Stage.apply, ← after_closing]
        exact course_after alone n.alone_closing
    exact first.trans (ih (first.alone alone) fun s' later =>
      calm s' (List.mem_cons_of_mem s later))

theorem pass_invariant {n : Node} {P : Node → Prop} (first : P n)
    (step : ∀ n m, P n → P (Move.apply m n)) (stages : List Stage) : P (n.pass stages) := by
  induction stages generalizing n with
  | nil => exact first
  | cons s stages ih =>
    refine ih ?_
    cases s with
    | move m => exact step n m first
    | shutDown =>
      have down : P (n.after n.closing) := after_invariant first step n.closing
      rwa [after_closing] at down

@[simp] theorem row_pass (n : Node) (stages : List Stage) (c : UInt16) :
    ((n.pass stages).registry.slot? c).map (·.row) = (n.registry.slot? c).map (·.row) :=
  pass_invariant (P := fun n' => (n'.registry.slot? c).map (·.row) = _) rfl
    (fun n' m same => ((n'.moved_apply m).passage c).row.trans same) stages

theorem register_of_occupied {n : Node} {c : UInt16} (occupied : n.occupant? c ≠ none)
    (bundle : UInt8) (d : Driver) : ∃ e, n.register c bundle d = (.error e, n) := by
  cases admitted : n.registry.admits c bundle with
  | error e => exact ⟨e, by simp only [register, admitted]⟩
  | ok _ =>
    rw [occupant?, Registry.driver?_of_admits admitted] at occupied
    exact absurd rfl occupied

theorem register_ok_iff {d : Driver} (alone : d.initsAlone = true) (n : Node) (c : UInt16)
    (bundle : UInt8) :
    (n.register c bundle d).1 = .ok () ↔
      (∃ row, (n.registry.slot? c).map (·.row) = some row ∧ row.bundle = bundle) ∧
        n.occupant? c = none ∧ (n.initDriver c d).1 = .ok () := by
  have admits : n.registry.admits c bundle = .ok () ↔
      (∃ row, (n.registry.slot? c).map (·.row) = some row ∧ row.bundle = bundle) ∧
        n.occupant? c = none := by
    rw [Registry.admits_ok_iff, occupant?, Option.map_eq_none_iff, Registry.driver?]
    cases n.registry.slot? c with
    | none => simp only [reduceCtorEq, false_and, exists_false, Option.map_none]
    | some s => simp
  rw [← and_assoc, ← admits]
  have registered := registered_register alone n c bundle
  generalize n.register c bundle d = outcome at *
  cases registered with
  | refused refused => simp only [refused, reduceCtorEq, false_and]
  | failed admitted failed => simp only [failed, reduceCtorEq, and_false]
  | bound admitted succeeded => simp [admitted, succeeded]

/-- Whatever is done with a node, the drivers of a cport live there one after the other: each is
initialised, used while it is bound, and exits, and the call that it fails to be initialised with is
the only one that is made on it.  One is taken on just where its cport is free. -/
theorem drivers_live_in_turn (config : Config) (board : Board) (link : Link) {stages : List Stage}
    (alone : ∀ s ∈ stages, s.alone = true) (c : UInt16) :
    let start := ofParts config board link
    let n := start.pass stages
    let visits := Visit.at c (start.visitsPast stages)
    n.calls.reverse.filter (·.cport = c) = visits.map Visit.call ∧
      Lifetimes c visits (n.occupant? c) ∧
      (∀ bundle d, n.occupant? c ≠ none → ∃ e, n.register c bundle d = (.error e, n)) ∧
      ∀ bundle d, d.initsAlone = true →
        ((n.register c bundle d).1 = .ok () ↔
          (∃ row, config.cports[c.toNat]? = some row ∧ row.bundle = bundle) ∧
            n.occupant? c = none ∧ (n.initDriver c d).1 = .ok ()) := by
  intro start n visits
  have fresh (c : UInt16) : start.registry.slot? c = (config.cports[c.toNat]?).map Slot.fresh := by
    simp [start, ofParts, Registry.ofRows, Registry.slot?]
  have nobody (c : UInt16) : start.registry.driver? c = none := by
    rw [Registry.driver?, fresh]
    cases config.cports[c.toNat]? <;> rfl
  have course : Course start (start.visitsPast stages) n :=
    course_pass (fun c d bound => by rw [nobody] at bound; cases bound) alone
  refine ⟨?_, ?_, fun bundle d occupied => register_of_occupied occupied bundle d,
    fun bundle d initsAlone => ?_⟩
  · have calls : n.calls = ((start.visitsPast stages).map Visit.call).reverse ++ [] := course.calls
    rw [calls, List.append_nil, List.reverse_reverse, List.filter_map]
    rfl
  · have lives := course.lives c
    rw [occupant?, nobody] at lives
    exact (Lifetimes.none c).lives lives
  · have row : (n.registry.slot? c).map (·.row) = config.cports[c.toNat]? := by
      rw [start.row_pass stages c, fresh]
      cases config.cports[c.toNat]? <;> rfl
    rw [register_ok_iff initsAlone, row]

def taking : List Stage :=
  [.move (.register 1 1 .loopback), .move (.register 1 1 .bare), .move (.notify 1 .connected),
    .shutDown, .move (.register 1 1 .bare)]

theorem taking_lives_in_turn :
    let start := ofParts { Config.empty with cports := [⟨0, .control⟩, ⟨1, .loopback⟩] } .fresh
      (.memory .fresh)
    Visit.at 1 (start.visitsPast taking) = [⟨.loopback, .init, 1, false⟩,
        ⟨.loopback, .connected, 1, false⟩, ⟨.loopback, .exit, 1, false⟩, ⟨.bare, .init, 1, false⟩] ∧
      Lifetimes 1 (Visit.at 1 (start.visitsPast taking)) ((start.pass taking).occupant? 1) := by
  obtain ⟨-, lifetimes, -⟩ := drivers_live_in_turn
    { Config.empty with cports := [⟨0, .control⟩, ⟨1, .loopback⟩] } .fresh (.memory .fresh)
    (show ∀ s ∈ taking, s.alone = true by decide) 1
  refine ⟨?_, lifetimes⟩
  rfl

end Node

end CportNode
