import CportNode.Proofs.Connecting
import Mathlib.Data.Nat.Bitwise

namespace CportNode

namespace Message

theorem isResponse_iff {m : Message} : m.isResponse = true ↔ m.kind.toNat.testBit 7 = true := by
  rw [isResponse, bne_iff_ne, ne_eq, ← UInt8.toNat_inj, UInt8.toNat_and,
    show responseFlag.toNat = 2 ^ 7 from rfl, Nat.and_two_pow]
  cases m.kind.toNat.testBit 7 <;> simp

theorem toNat_kind_of_response {m : Message} (response : m.isResponse = true) :
    128 ≤ m.kind.toNat :=
  Nat.ge_two_pow_of_testBit (isResponse_iff.mp response)

theorem kind_or_flag {m : Message} (response : m.isResponse = true) :
    m.kind ||| responseFlag = m.kind := by
  have flagged := isResponse_iff.mp response
  refine UInt8.toNat_inj.mp (Nat.eq_of_testBit_eq fun i => ?_)
  rw [UInt8.toNat_or, Nat.testBit_or, show responseFlag.toNat = 2 ^ 7 from rfl, Nat.testBit_two_pow]
  by_cases last : 7 = i
  · subst last
    simp [flagged]
  · simp [last]

@[simp] theorem kind_or_flag_or_flag (kind : UInt8) :
    kind ||| responseFlag ||| responseFlag = kind ||| responseFlag := by
  rw [UInt8.or_assoc, UInt8.or_self]

theorem isResponse_of_flag {m : Message} {kind : UInt8} (flag : m.kind = kind ||| responseFlag) :
    m.isResponse = true := by
  rw [isResponse_iff, flag, UInt8.toNat_or, Nat.testBit_or]
  exact Bool.or_eq_true_iff.mpr (.inr rfl)

end Message

section

variable {m : Message} (response : m.isResponse = true)

include response

theorem Control.Request.decode_of_response : decode m.kind m.payload = .error .invalid := by
  have large := Message.toNat_kind_of_response response
  unfold decode
  split <;> first | rfl | omega

theorem Gpio.Request.decode_of_response : decode m.kind m.payload = .error .invalid := by
  have large := Message.toNat_kind_of_response response
  unfold decode
  split <;> first | rfl | omega

theorem I2c.Request.decode_of_response : decode m.kind m.payload = .error .invalid := by
  have large := Message.toNat_kind_of_response response
  unfold decode
  split <;> first | rfl | omega

theorem Spi.Request.decode_of_response : decode m.kind m.payload = .error .invalid := by
  have large := Message.toNat_kind_of_response response
  unfold decode
  split <;> first | rfl | omega

theorem Uart.Request.decode_of_response : decode m.kind m.payload = .error .protocolBad := by
  have large := Message.toNat_kind_of_response response
  unfold decode
  split <;> first | rfl | omega

theorem Loopback.Request.decode_of_response : decode m.kind m.payload = .error .invalid := by
  have large := Message.toNat_kind_of_response response
  unfold decode
  split <;> first | rfl | omega

theorem Firmware.Request.decode_of_response : decode m.kind = .error .protocolBad := by
  have large := Message.toNat_kind_of_response response
  unfold decode
  split <;> first | rfl | omega

end

namespace Driver

/-- The status by which a driver refuses a request of a kind that it does not know. -/
def refusal : Driver → Status
  | uart => .protocolBad
  | log _ => .protocolBad
  | firmwareManagement => .protocolBad
  | firmwareDownload => .protocolBad
  | _ => .invalid

theorem refusal_ne_success (d : Driver) : d.refusal ≠ .success := by
  cases d <;> simp [refusal]

/-- Responses to requests of this kind are what the driver waits for. -/
def consumes : Driver → UInt8 → Bool
  | log _, kind => kind ||| Message.responseFlag == Log.recordKind ||| Message.responseFlag
  | _, _ => false

@[simp] theorem consumes_or_flag (d : Driver) (kind : UInt8) :
    d.consumes (kind ||| Message.responseFlag) = d.consumes kind := by
  cases d <;> simp [consumes]

end Driver

namespace Node

theorem carryOut_of_response (n : Node) (c : UInt16) {d : Driver} {m : Message}
    (builtIn : d.builtIn = true) (response : m.isResponse = true) :
    n.carryOut c d m.kind m.payload =
      (if d.consumes m.kind then .quiet else .refused d.refusal, n) := by
  cases d with
  | control =>
    simp only [carryOut, Control.Request.decode_of_response response]
    rfl
  | gpio triggers =>
    simp only [carryOut, carryOutGpio, Gpio.Request.decode_of_response response]
    rfl
  | i2c =>
    simp only [carryOut, onBoard, I2c.Request.decode_of_response response]
    rfl
  | spi =>
    simp only [carryOut, onBoard, Spi.Request.decode_of_response response]
    rfl
  | uart =>
    simp only [carryOut, onBoard, Uart.Request.decode_of_response response]
    rfl
  | loopback =>
    simp only [carryOut, reactionOf, Loopback.Request.decode_of_response response]
    rfl
  | log outlet =>
    simp only [carryOut, Log.Request.decode, Driver.consumes, Message.kind_or_flag response,
      beq_iff_eq]
    split <;> rfl
  | firmwareManagement =>
    simp only [carryOut, reactionOf, Firmware.Request.decode_of_response response]
    rfl
  | firmwareDownload => rfl
  | bare => cases builtIn
  | gate => cases builtIn
  | scripted s => cases builtIn

theorem handle_of_response {n : Node} {p : Packet} {d : Driver}
    (bound : n.registry.route p.cport = .driver d) (builtIn : d.builtIn = true)
    (response : p.message.isResponse = true) (ready : n.link.Open) :
    n.link.Sends (if d.consumes p.message.kind then [] else answers p d.refusal [])
      (n.handle d p).link := by
  have carried := n.carryOut_of_response p.cport builtIn response
  by_cases consumed : d.consumes p.message.kind = true
  · rw [if_pos consumed] at carried ⊢
    rw [handle_builtIn n builtIn p, carried]
    exact .refl _
  · rw [if_neg consumed] at carried ⊢
    obtain ⟨s, hs, -⟩ := Registry.slot?_of_route bound
    exact handle_replies builtIn carried .refused (Nat.zero_le _)
      (Registry.requireRange_eq hs) ready

theorem dispatch_of_response {n : Node} {p : Packet} {d : Driver}
    (bound : n.registry.route p.cport = .driver d) (builtIn : d.builtIn = true)
    (response : p.message.isResponse = true) (ready : n.link.Open) :
    n.link.Sends (if d.consumes p.message.kind then [] else answers p d.refusal [])
      (n.dispatch p).link := by
  have kind : p.message.kind ≠ Message.pingKind := by
    intro ping
    have large := Message.toNat_kind_of_response response
    rw [ping] at large
    exact absurd large (by decide)
  rw [dispatch_of_route bound kind]
  exact handle_of_response (n := (n.count _).called _ _) bound builtIn response ready

theorem silent_dispatch_of_response_iff {n : Node} {p : Packet} {d : Driver}
    (bound : n.registry.route p.cport = .driver d) (builtIn : d.builtIn = true)
    (response : p.message.isResponse = true) (ready : n.link.Open) :
    n.link.Sends [] (n.dispatch p).link ↔
      d.consumes p.message.kind = true ∨ p.message.oneShot = true := by
  have sent := dispatch_of_response bound builtIn response ready
  have nothing : (if d.consumes p.message.kind then [] else answers p d.refusal []) = [] ↔
      d.consumes p.message.kind = true ∨ p.message.oneShot = true := by
    unfold answers
    cases d.consumes p.message.kind <;> cases p.message.oneShot <;> simp
  rw [← nothing]
  refine ⟨sent.eq_nil_of_silent, fun none => ?_⟩
  rwa [none] at sent

end Node

namespace Registry

def BuiltIn (r : Registry) : Prop :=
  ∀ c d, r.driver? c = some d → d.builtIn = true

/-- A response on the packet's cport, of its kind, would be answered. -/
def echoes (r : Registry) (p : Packet) : Bool :=
  match r.route p.cport with
  | .driver d => !d.consumes p.message.kind
  | _ => false

theorem route_of_echoes {r : Registry} {p : Packet} (h : r.echoes p = true) :
    ∃ d, r.route p.cport = .driver d ∧ d.consumes p.message.kind = false := by
  unfold echoes at h
  split at h
  · rename_i d route
    exact ⟨d, route, Bool.not_eq_true' _ ▸ h⟩
  · cases h

theorem echoes_answer (r : Registry) {p q : Packet} (cport : q.cport = p.cport)
    (kind : q.message.kind = p.message.kind ||| Message.responseFlag) :
    r.echoes q = r.echoes p := by
  unfold echoes
  rw [cport, kind]
  cases r.route p.cport <;> simp

end Registry

theorem Node.Restates.echoes {c : UInt16} {d : Driver} {r r' : Registry}
    (h : Node.Restates c d r r') (bound : r.route c = .driver d) : r'.echoes = r.echoes := by
  cases h with
  | kept => rfl
  | gpio triggers triggers' =>
    funext p
    unfold Registry.echoes
    by_cases same : p.cport = c
    · rw [same, Registry.route_update bound, bound]
      rfl
    · rw [Registry.route_modify_of_ne _ _ same]

theorem Node.Restates.builtIn {c : UInt16} {d : Driver} {r r' : Registry}
    (h : Node.Restates c d r r') (all : r.BuiltIn) : r'.BuiltIn := by
  intro c' d' bound
  cases h with
  | kept => exact all c' d' bound
  | gpio triggers triggers' =>
    by_cases same : c' = c
    · subst same
      rw [Registry.driver?_modify_self, Option.bind_eq_some_iff] at bound
      obtain ⟨s, -, updated⟩ := bound
      obtain ⟨_, -, rfl⟩ := Option.map_eq_some_iff.mp updated
      rfl
    · rw [Registry.driver?_modify_of_ne _ _ same] at bound
      exact all c' d' bound

end CportNode
