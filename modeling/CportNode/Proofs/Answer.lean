import CportNode.Node.Lifecycle
import CportNode.Proofs.Dispatch
import CportNode.Proofs.Link
import CportNode.Proofs.Reaction

namespace CportNode.Node

theorem onBoard_ne_quiet {α : Type} (n : Node) (decoded : Except Status α)
    {execute : α → Board → Reaction × Board} (h : ∀ r b, (execute r b).1 ≠ .quiet) :
    (n.onBoard decoded execute).1 ≠ .quiet := by
  cases decoded with
  | error status => simp [onBoard]
  | ok r => exact h r n.board

theorem reactionOf_ne_quiet {α : Type} (decoded : Except Status α) {execute : α → Reaction}
    (h : ∀ r, execute r ≠ .quiet) : reactionOf decoded execute ≠ .quiet := by
  cases decoded with
  | error status => simp [reactionOf]
  | ok r => exact h r

theorem connect_ne_quiet (n : Node) (target : UInt16) : (n.connect target).1 ≠ .quiet := by
  unfold connect
  split
  · simp
  · split <;> simp

theorem disconnect_ne_quiet (n : Node) (target : UInt16) : (n.disconnect target).1 ≠ .quiet := by
  simp only [disconnect]
  split <;> simp

theorem carryOut_ne_quiet (n : Node) (c : UInt16) {d : Driver} {m : Message}
    (builtIn : d.builtIn = true) (request : m.isResponse = false) :
    (n.carryOut c d m.kind m.payload).1 ≠ .quiet := by
  cases d with
  | control =>
    simp only [carryOut]
    split
    · simp
    · exact n.connect_ne_quiet _
    · exact n.disconnect_ne_quiet _
    · exact n.onBoard_ne_quiet _ Control.Query.execute_ne_quiet
  | gpio triggers =>
    simp only [carryOut, carryOutGpio]
    split
    · simp
    · exact Gpio.Request.execute_ne_quiet _ triggers n.board
  | i2c => exact n.onBoard_ne_quiet _ I2c.Request.execute_ne_quiet
  | spi => exact n.onBoard_ne_quiet _ Spi.Request.execute_ne_quiet
  | uart => exact n.onBoard_ne_quiet _ Uart.Request.execute_ne_quiet
  | loopback => exact reactionOf_ne_quiet _ Loopback.Request.execute_ne_quiet
  | log outlet => simp [carryOut, Log.Request.decode_of_request request, reactionOf]
  | firmwareManagement =>
    exact reactionOf_ne_quiet _ fun r => Firmware.Request.execute_ne_quiet r n.board
  | firmwareDownload => simp [carryOut]
  | _ => cases builtIn

theorem sends_listen {n n' : Node} {c : UInt16} (h : n.listen c = .ok n') :
    n.link.Sends [] n'.link := by
  unfold listen at h
  split at h
  · cases h
  · split at h
    · rename_i listened
      cases h
      exact Link.sends_listen listened
    · cases h

theorem sends_stopListening {n n' : Node} {c : UInt16} (h : n.stopListening c = .ok n') :
    n.link.Sends [] n'.link := by
  unfold stopListening at h
  split at h
  · cases h
  · split at h
    · rename_i stopped
      cases h
      exact Link.sends_stopListening stopped
    · cases h

@[simp] theorem link_notify (n : Node) (c : UInt16) (event : Event) :
    (n.notify c event).2.link = n.link := by
  unfold notify
  split
  · rfl
  · split
    · rfl
    · simp only
      split <;> rfl

theorem sends_connect (n : Node) (target : UInt16) :
    n.link.Sends [] (n.connect target).2.link := by
  unfold connect
  split
  · exact .refl _
  · rename_i n₁ listens
    have notified : n.link.Sends [] (n₁.notify target .connected).2.link := by
      simpa using sends_listen listens
    split
    · rename_i h
      rw [h] at notified
      exact notified
    · rename_i h
      rw [h] at notified
      simp only
      split
      · rename_i stopped
        exact notified.trans (sends_stopListening stopped)
      · exact notified

theorem sends_disconnect (n : Node) (target : UInt16) :
    n.link.Sends [] (n.disconnect target).2.link := by
  have notified : n.link.Sends [] (n.notify target .disconnected).2.link := by
    simpa using .refl _
  simp only [disconnect]
  split
  · rename_i stopped
    exact notified.trans (sends_stopListening stopped)
  · exact notified

@[simp] theorem link_onBoard {α : Type} (n : Node) (decoded : Except Status α)
    (execute : α → Board → Reaction × Board) : (n.onBoard decoded execute).2.link = n.link := by
  cases decoded <;> rfl

theorem sends_carryOut (n : Node) (c : UInt16) (d : Driver) (kind : UInt8) (body : Bytes) :
    n.link.Sends [] (n.carryOut c d kind body).2.link := by
  have of_same {link : Link} (h : link = n.link) : n.link.Sends [] link := h ▸ .refl _
  cases d with
  | control =>
    simp only [carryOut]
    split
    · exact .refl _
    · exact n.sends_connect _
    · exact n.sends_disconnect _
    · exact of_same (n.link_onBoard _ _)
  | gpio triggers =>
    simp only [carryOut, carryOutGpio]
    split
    · exact .refl _
    · exact .refl _
  | i2c => exact of_same (n.link_onBoard _ _)
  | spi => exact of_same (n.link_onBoard _ _)
  | uart => exact of_same (n.link_onBoard _ _)
  | _ => exact .refl _

def answers (p : Packet) (status : Status) (payload : Bytes) : List Packet :=
  if p.message.oneShot then []
  else
    [⟨p.cport, ⟨p.message.id, p.message.kind ||| Message.responseFlag, status.code, payload⟩⟩]

theorem respond_of_open {n : Node} {p : Packet} (inRange : n.registry.requireRange p.cport = .ok ())
    (ready : n.link.Open) (status : Status) (payload : Bytes)
    (fits : payload.length ≤ Message.maxPayload) :
    ∃ link, n.respond p.cport p.message status payload = .ok { n with link } ∧
      n.link.Sends (answers p status payload) link := by
  unfold respond answers
  split
  · exact ⟨n.link, rfl, .refl _⟩
  · simp only [Message.response, Message.carrying, if_pos fits, send, inRange]
    obtain ⟨link, sent⟩ := ready
      ⟨p.cport, ⟨p.message.id, p.message.kind ||| Message.responseFlag, status.code, payload⟩⟩
    exact ⟨link, by rw [sent], .of_send sent⟩

theorem answer_of_open {n : Node} {p : Packet} (inRange : n.registry.requireRange p.cport = .ok ())
    (ready : n.link.Open) {reaction : Reaction} (speaks : reaction ≠ .quiet) :
    ∃ status payload link, n.answer p reaction = .ok { n with link } ∧
      n.link.Sends (answers p status payload) link ∧ (status ≠ .success → payload = []) := by
  cases reaction with
  | quiet => exact absurd rfl speaks
  | refused status =>
    obtain ⟨link, answered, sent⟩ := respond_of_open inRange ready status [] (Nat.zero_le _)
    exact ⟨status, [], link, answered, sent, fun _ => rfl⟩
  | done payload =>
    -- A payload that fits no message is only noticed if there is an answer to build.
    by_cases fits : payload.length ≤ Message.maxPayload
    · obtain ⟨link, answered, sent⟩ := respond_of_open inRange ready .success payload fits
      refine ⟨.success, payload, link, ?_, sent, fun failed => absurd rfl failed⟩
      simp only [answer, answered]
    · by_cases oneShot : p.message.oneShot = true
      · refine ⟨.success, [], n.link, ?_, ?_, fun _ => rfl⟩
        · simp [answer, respond, oneShot]
        · rw [answers, if_pos oneShot]
          exact .refl _
      · have tooLarge : n.respond p.cport p.message .success payload =
            .error (.message (.payloadTooLarge payload.length Message.maxPayload)) := by
          simp [respond, oneShot, Message.response, Message.carrying, fits]
        obtain ⟨link, answered, sent⟩ := respond_of_open inRange ready .overflow [] (Nat.zero_le _)
        refine ⟨.overflow, [], link, ?_, sent, fun _ => rfl⟩
        simp only [answer, tooLarge]
        exact answered

theorem handle_builtIn (n : Node) {d : Driver} (builtIn : d.builtIn = true) (p : Packet) :
    n.handle d p =
      let (reaction, n) := n.carryOut p.cport d p.message.kind p.message.payload
      n.conclude (n.answer p reaction) := by
  cases d with
  | gate => cases builtIn
  | scripted s => cases builtIn
  | _ => rfl

inductive Tells : Reaction → Status → Bytes → Prop
  | done {payload : Bytes} : Tells (.done payload) .success payload
  | refused {status : Status} : Tells (.refused status) status []

theorem handle_tells {n n' : Node} {p : Packet} {d : Driver} {reaction : Reaction}
    {status : Status} {payload : Bytes} (builtIn : d.builtIn = true)
    (carried : n.carryOut p.cport d p.message.kind p.message.payload = (reaction, n'))
    (tells : Tells reaction status payload) (fits : payload.length ≤ Message.maxPayload)
    (inRange : n'.registry.requireRange p.cport = .ok ()) (ready : n.link.Open) :
    ∃ link, n.handle d p = { n' with link } ∧ n'.link.Sends (answers p status payload) link := by
  have silent := n.sends_carryOut p.cport d p.message.kind p.message.payload
  rw [carried] at silent
  obtain ⟨link, responded, sent⟩ :=
    respond_of_open inRange (silent.open ready) status payload fits
  refine ⟨link, ?_, sent⟩
  rw [handle_builtIn n builtIn p, carried]
  cases tells with
  | done => simp only [answer, responded, conclude]
  | refused => simp only [answer, responded, conclude]

theorem handle_replies {n : Node} {p : Packet} {d : Driver} {reaction : Reaction} {board : Board}
    {status : Status} {payload : Bytes} (builtIn : d.builtIn = true)
    (carried : n.carryOut p.cport d p.message.kind p.message.payload =
      (reaction, { n with board }))
    (tells : Tells reaction status payload)
    (fits : payload.length ≤ Message.maxPayload)
    (inRange : n.registry.requireRange p.cport = .ok ()) (ready : n.link.Open) :
    n.link.Sends (answers p status payload) (n.handle d p).link := by
  obtain ⟨link, handled, sent⟩ := handle_tells builtIn carried tells fits inRange ready
  rw [handled]
  exact sent

theorem handle_answers {n : Node} {p : Packet} {d : Driver}
    (bound : n.registry.route p.cport = .driver d) (builtIn : d.builtIn = true)
    (request : p.message.isResponse = false) (accepts : n.link.Open) :
    ∃ status payload, n.link.Sends (answers p status payload) (n.handle d p).link ∧
      (status ≠ .success → payload = []) ∧ SameIntake n (n.handle d p) := by
  obtain ⟨intake, passage⟩ := carryOut_effect n p.cport d p.message.kind p.message.payload
  have silent := n.sends_carryOut p.cport d p.message.kind p.message.payload
  have speaks := n.carryOut_ne_quiet p.cport builtIn request
  rw [handle_builtIn n builtIn p]
  generalize n.carryOut p.cport d p.message.kind p.message.payload = carried at *
  obtain ⟨reaction, n'⟩ := carried
  obtain ⟨s, hs, -⟩ := Registry.slot?_of_route bound
  obtain ⟨s', hs'⟩ := (passage p.cport).remains hs
  obtain ⟨status, payload, link, answered, sent, empty⟩ :=
    answer_of_open (Registry.requireRange_eq hs') (silent.open accepts) speaks
  refine ⟨status, payload, ?_, empty, ?_⟩
  · simp only [answered, conclude]
    exact silent.trans sent
  · simp only [answered, conclude]
    exact intake.trans ⟨⟨rfl, rfl, rfl, id⟩, rfl, rfl, rfl⟩

theorem dispatch_of_route {n : Node} {p : Packet} {d : Driver}
    (bound : n.registry.route p.cport = .driver d) (kind : p.message.kind ≠ Message.pingKind) :
    n.dispatch p = ((n.count fun c => { c with dispatched := c.dispatched + 1 }).called
      (.handle p.message) p.cport).handle d p := by
  simp only [dispatch, bound, if_neg kind]

/-- A request for a driver that comes with the node is answered exactly once while the link takes
answers, on its own cport and under its own id, or not at all if it is one-shot.  A failure has
nothing to say but its status.  A ping succeeds without its driver; any other request is handed to
the driver, whose handler does not fail. -/
theorem dispatch_answers_once {n : Node} {p : Packet} {d : Driver}
    (bound : n.registry.route p.cport = .driver d) (builtIn : d.builtIn = true)
    (request : p.message.isResponse = false) (accepts : n.link.Open) :
    ∃ status payload,
      n.link.Sends (answers p status payload) (n.dispatch p).link ∧
      (status ≠ .success → payload = []) ∧
      (if p.message.kind = Message.pingKind then
        status = .success ∧ payload = [] ∧ (n.dispatch p).calls = n.calls
      else (n.dispatch p).handed = n.handed ++ [p]) ∧
      (n.dispatch p).counters.handlerErrors = n.counters.handlerErrors := by
  simp only [dispatch, bound]
  split
  · obtain ⟨s, hs, -⟩ := Registry.slot?_of_route bound
    obtain ⟨link, answered, sent⟩ := respond_of_open
      (n := n.count fun c => { c with pinged := c.pinged + 1 })
      (Registry.requireRange_eq hs) accepts .success [] (Nat.zero_le _)
    refine ⟨.success, [], ?_, fun _ => rfl, ?_, ?_⟩ <;> simp only [answer, answered]
    · exact sent
    · exact ⟨trivial, trivial, rfl⟩
    · rfl
  · obtain ⟨status, payload, sent, empty, intake⟩ := handle_answers
      (n := (n.count fun c => { c with dispatched := c.dispatched + 1 }).called
        (.handle p.message) p.cport) bound builtIn request accepts
    refine ⟨status, payload, sent, empty, ?_, ?_⟩
    · rw [intake.handed, handed_called]
      rfl
    · rw [intake.counters]
      rfl

def echoing : Node :=
  ((ofParts ⟨[⟨1, .loopback⟩], 1, "worker", none, none⟩ .fresh (.memory .fresh)).registerAll).2

theorem echoing_answers_once :
    ∃ status payload,
      echoing.link.Sends (answers ⟨0, ⟨7, 0x03, 0, [0, 0]⟩⟩ status payload)
        (echoing.dispatch ⟨0, ⟨7, 0x03, 0, [0, 0]⟩⟩).link ∧
      (status ≠ .success → payload = []) ∧
      (echoing.dispatch ⟨0, ⟨7, 0x03, 0, [0, 0]⟩⟩).handed =
        echoing.handed ++ [⟨0, ⟨7, 0x03, 0, [0, 0]⟩⟩] := by
  have bound : echoing.registry.route 0 = .driver .loopback := rfl
  have made : Board.fresh.driverFor .loopback = some .loopback := rfl
  have accepts : echoing.link.Open := fun p => ⟨_, rfl⟩
  obtain ⟨status, payload, sent, empty, handed, -⟩ :=
    dispatch_answers_once (p := ⟨0, ⟨7, 0x03, 0, [0, 0]⟩⟩) bound (Board.builtIn_driverFor made) rfl
      accepts
  exact ⟨status, payload, sent, empty, handed⟩

end CportNode.Node
