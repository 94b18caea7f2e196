import Mathlib.Data.List.Induction
import CportNode.Host.Session
import CportNode.Proofs.Awaiting

/-!
Requests and answers.  A host puts one request after the other to a node.  The node answers each at
most once, whenever it gets to it, and sends other things besides; and the stream in between may stop
at any byte.  The host is never given an answer that belongs to another request, and it does not miss
the one that belongs to its own.
-/

namespace CportNode

namespace OperationIds

theorem advance_succ (count : Nat) (ids : OperationIds) :
    advance (count + 1) ids = (advance count ids).draw.2 := by
  induction count generalizing ids with
  | zero => rfl
  | succ count ih => exact ih ids.draw.2

theorem toNat_upcoming_draw {ids : OperationIds} (h : ids.upcoming ≠ 0) :
    ids.draw.2.upcoming.toNat = ids.upcoming.toNat % 65535 + 1 := by
  have positive : ids.upcoming.toNat ≠ 0 := fun zero => h (UInt16.toNat_inj.mp zero)
  have small := ids.upcoming.toNat_lt
  unfold draw
  split
  · rename_i last
    rw [last]
    rfl
  · rename_i other
    have other : ids.upcoming.toNat ≠ 65535 := fun last => other (UInt16.toNat_inj.mp last)
    rw [UInt16.toNat_add]
    simp only [UInt16.toNat_one]
    omega

theorem toNat_upcoming_advance {ids : OperationIds} (h : ids.upcoming ≠ 0) (count : Nat) :
    (advance count ids).upcoming.toNat = (ids.upcoming.toNat - 1 + count) % 65535 + 1 := by
  have positive : ids.upcoming.toNat ≠ 0 := fun zero => h (UInt16.toNat_inj.mp zero)
  have small := ids.upcoming.toNat_lt
  induction count with
  | zero =>
    simp only [advance]
    omega
  | succ count ih =>
    have drawn : (advance count ids).upcoming ≠ 0 := by
      intro zero
      rw [zero] at ih
      exact absurd ih (Nat.succ_ne_zero _).symm
    rw [advance_succ, toNat_upcoming_draw drawn, ih]
    omega

end OperationIds

structure Inquiry where
  cport : UInt16
  kind : UInt8
  payload : Bytes
  oneShot : Bool
  sent : Except LinkError Unit

namespace Client

def ask (c : Client) (q : Inquiry) (source : Source) :
    Except LinkError (Option Message) × Client × Source :=
  match c.compose q.cport q.kind q.payload q.oneShot with
  | (.error e, c) => (.error e, c, source)
  | (.ok request, c) =>
    match q.sent with
    | .error e => (.error e, c, source)
    | .ok () =>
      if q.oneShot then (.ok none, c, source)
      else
        let (answer, c, source) := c.await request source
        (answer.map some, c, source)

section

variable (c : Client) {q : Inquiry} (source : Source)

def requestOf (c : Client) (q : Inquiry) : Packet :=
  ⟨q.cport, ⟨(Message.requestId q.oneShot c.ids).1, q.kind, Status.success.code, q.payload⟩⟩

def drawnFor (c : Client) (q : Inquiry) : Client :=
  { c with ids := (Message.requestId q.oneShot c.ids).2 }

structure Waits (q : Inquiry) : Prop where
  wanted : q.oneShot = false
  fits : q.payload.length ≤ Message.maxPayload
  sent : q.sent = .ok ()

theorem compose_of_fits (q : Inquiry) (h : q.payload.length ≤ Message.maxPayload) :
    c.compose q.cport q.kind q.payload q.oneShot = (.ok (c.requestOf q), c.drawnFor q) := by
  simp only [compose, Message.carrying, if_pos h, requestOf, drawnFor]

theorem compose_of_large (q : Inquiry) (h : ¬ q.payload.length ≤ Message.maxPayload) :
    ∃ e, c.compose q.cport q.kind q.payload q.oneShot = (.error e, c.drawnFor q) := by
  simp only [compose, Message.carrying, if_neg h, drawnFor]
  exact ⟨_, rfl⟩

theorem ask_of_not_waits (h : ¬ Waits q) :
    ∃ answer, c.ask q source = (answer, c.drawnFor q, source) ∧ (∀ m, answer ≠ .ok (some m)) ∧
      (q.payload.length ≤ Message.maxPayload → q.sent = .ok () → answer = .ok none) := by
  by_cases fits : q.payload.length ≤ Message.maxPayload
  · simp only [ask, compose_of_fits c q fits]
    cases sent : q.sent with
    | error e => exact ⟨_, rfl, by simp, by simp⟩
    | ok =>
      cases wanted : q.oneShot with
      | true => exact ⟨.ok none, rfl, by simp, by simp⟩
      | false => exact absurd ⟨wanted, fits, sent⟩ h
  · obtain ⟨e, refused⟩ := compose_of_large c q fits
    simp only [ask, refused]
    exact ⟨_, rfl, by simp, fun few => absurd few fits⟩

theorem ask_of_waits (h : Waits q) : c.ask q source =
    (((c.drawnFor q).await (c.requestOf q) source).1.map some,
      ((c.drawnFor q).await (c.requestOf q) source).2) := by
  rw [ask, compose_of_fits c q h.fits]
  simp only [h.sent, h.wanted]
  rfl

end

end Client

theorem Session.request_eq_ask (s : Session) (n : Node) (q : Inquiry) :
    let drawn := { s with client := s.client.drawnFor q }
    let sent := drawn.send n (s.client.requestOf q)
    let asked := s.client.ask { q with sent := sent.1 } (s.source sent.2)
    let requested := s.request n q.cport q.kind q.payload q.oneShot
    requested.1 = asked.1 ∧ requested.2.1.client = asked.2.1 ∧
      (Client.Waits { q with sent := sent.1 } →
        requested.2 = drawn.after sent.2 asked.2.1 asked.2.2) := by
  intro drawn sent asked requested
  by_cases fits : q.payload.length ≤ Message.maxPayload
  · have composed := Client.compose_of_fits s.client q fits
    simp only [requested, asked, Session.request, Client.ask, composed, sent, drawn]
    generalize Session.send _ n (s.client.requestOf q) = outcome
    obtain ⟨outcome, n'⟩ := outcome
    cases outcome with
    | error e => exact ⟨rfl, rfl, fun waits => by cases waits.sent⟩
    | ok =>
      cases q.oneShot with
      | true => exact ⟨rfl, rfl, fun waits => by cases waits.wanted⟩
      | false => exact ⟨rfl, rfl, fun _ => rfl⟩
  · obtain ⟨e, refused⟩ := Client.compose_of_large s.client q fits
    simp only [requested, asked, Session.request, Client.ask, refused, true_and]
    exact fun waits => absurd waits.fits fits

/-- A packet from the node, and the number of the request that it answers, if it answers one. -/
structure Emission where
  packet : Packet
  answers : Option Nat

/-- A request, with what the node sends and what the stream does between it and the next one. -/
structure Round extends Inquiry where
  emitted : List Emission
  arrives : Source

abbrev Exchange := List Round

namespace Exchange

def emitted (rounds : Exchange) : List Emission :=
  rounds.flatMap Round.emitted

def arrived (rounds : Exchange) : Bytes :=
  Source.bytes (rounds.flatMap Round.arrives)

def wanted (rounds : Exchange) : Nat :=
  rounds.countP (!·.oneShot)

def nextId (rounds : Exchange) : UInt16 :=
  (OperationIds.start.advance rounds.wanted).upcoming

def after (rounds : Exchange) : Client × Source :=
  rounds.foldl (fun (c, source) t => (c.ask t.toInquiry (source ++ t.arrives)).2) (.fresh, [])

def source (rounds : Exchange) (t : Round) : Source :=
  rounds.after.2 ++ t.arrives

def answer (rounds : Exchange) (t : Round) : Except LinkError (Option Message) :=
  (rounds.after.1.ask t.toInquiry (rounds.source t)).1

/-- What the next request is taken to be answered by. -/
structure Fits (rounds : Exchange) (t : Round) (p : Packet) : Prop where
  wanted : t.oneShot = false
  cport : p.cport = t.cport
  response : p.message.isResponse = true
  id : p.message.id = rounds.nextId

/-- The node answers requests that it was made, each at most once, and nothing else that it sends
looks like an answer to one.  The stream delivers what the node has sent, as far as it gets. -/
structure Orderly (rounds : Exchange) : Prop where
  few : rounds.wanted ≤ 65535
  sizes : ∀ e ∈ rounds.emitted, e.packet.message.size ≤ Message.maxSize
  arrives : ∀ before later, rounds = before ++ later →
    arrived before <+: Packet.encodeAll ((emitted before).map Emission.packet)
  answers : ∀ before t later, rounds = before ++ t :: later → ∀ e ∈ t.emitted,
    ∀ number, e.answers = some number → ∃ asked u others,
      before ++ [t] = asked ++ u :: others ∧ asked.length = number ∧ Fits asked u e.packet
  others : ∀ e ∈ rounds.emitted, e.answers = none → ∀ asked u later, rounds = asked ++ u :: later →
    ¬ Fits asked u e.packet
  once : (rounds.emitted.filterMap Emission.answers).Nodup

section

variable {rounds before later : Exchange} {t : Round}

@[simp] theorem emitted_append (before later : Exchange) :
    emitted (before ++ later) = emitted before ++ emitted later :=
  List.flatMap_append

@[simp] theorem arrived_concat (before : Exchange) (t : Round) :
    arrived (before ++ [t]) = arrived before ++ t.arrives.bytes := by
  simp [arrived]

@[simp] theorem after_concat (before : Exchange) (t : Round) :
    after (before ++ [t]) = (before.after.1.ask t.toInquiry (before.source t)).2 := by
  rw [after, List.foldl_append]
  rfl

@[simp] theorem wanted_concat (before : Exchange) (t : Round) :
    wanted (before ++ [t]) = before.wanted + if t.oneShot then 0 else 1 := by
  rw [wanted, List.countP_append]
  cases h : t.oneShot <;> simp [wanted, h]

/-- How far the host has got: these packets it has received, and the others are to come. -/
structure Placed (rounds : Exchange) (taken others : List Emission) : Prop where
  ids : rounds.after.1.ids = OperationIds.start.advance rounds.wanted
  limit : rounds.after.1.reader.limit = Message.maxSize
  packets : rounds.emitted = taken ++ others
  bytes : rounds.arrived = Packet.encodeAll (taken.map Emission.packet) ++
    (rounds.after.1.reader.buffer ++ rounds.after.2.bytes)

inductive Asked (before : Exchange) (t : Round) (got : List Emission) : Prop
  | idle : ¬ Client.Waits t.toInquiry → got = [] →
      after (before ++ [t]) = (before.after.1.drawnFor t.toInquiry, before.source t) →
      (∀ m, before.answer t ≠ .ok (some m)) →
      (t.payload.length ≤ Message.maxPayload → t.sent = .ok () → before.answer t = .ok none) →
      Asked before t got
  | answered {skipped : List Emission} {e : Emission} : Client.Waits t.toInquiry →
      got = skipped ++ [e] → (∀ x ∈ skipped, ¬ Fits before t x.packet) → Fits before t e.packet →
      before.answer t = .ok (some e.packet.message) → Asked before t got
  | gaveUp {cause : LinkError} : Client.Waits t.toInquiry →
      (∀ x ∈ got, ¬ Fits before t x.packet) → before.answer t = .error cause →
      Packet.encodeAll (got.map Emission.packet) ++ (after (before ++ [t])).1.reader.buffer =
        before.after.1.reader.buffer ++ (before.source t).prompt →
      Packet.decode Message.maxSize (after (before ++ [t])).1.reader.buffer = .ok none →
      Asked before t got

section

variable {taken others : List Emission}

theorem Placed.emitted_concat (placed : Placed before taken others) (t : Round) :
    emitted (before ++ [t]) = taken ++ (others ++ t.emitted) := by
  rw [emitted_append, placed.packets, List.append_assoc]
  congr 2
  exact List.flatMap_singleton _ _

theorem Placed.arrived_concat (placed : Placed before taken others) (t : Round) :
    arrived (before ++ [t]) = Packet.encodeAll (taken.map Emission.packet) ++
      (before.after.1.reader.buffer ++ (before.source t).bytes) := by
  simp [placed.bytes, source]

theorem Orderly.begins (h : Orderly rounds) (split : rounds = before ++ later) {bytes : Bytes}
    (packets : before.emitted = taken ++ others)
    (arrived : before.arrived = Packet.encodeAll (taken.map Emission.packet) ++ bytes) :
    Packet.Begins Message.maxSize (others.map Emission.packet) bytes := by
  constructor
  · intro p mem
    obtain ⟨e, pending, rfl⟩ := List.mem_map.mp mem
    have sent : e ∈ rounds.emitted := by
      simpa [split, packets] using List.mem_append_left _ (List.mem_append_right _ pending)
    exact ⟨h.sizes e sent, h.sizes e sent⟩
  · have front := h.arrives _ _ split
    rw [arrived, packets, List.map_append, Packet.encodeAll_append] at front
    exact (List.prefix_append_right_inj _).mp front

theorem Placed.ids_concat (placed : Placed before taken others) (t : Round) :
    (before.after.1.drawnFor t.toInquiry).ids =
      OperationIds.start.advance (wanted (before ++ [t])) := by
  rw [Client.drawnFor, Message.requestId, wanted_concat, placed.ids]
  cases t.oneShot with
  | true => rfl
  | false => exact (OperationIds.advance_succ _ _).symm

theorem Placed.answers_iff (placed : Placed before taken others) (wanted : t.oneShot = false)
    (p : Packet) :
    Client.answers (before.after.1.requestOf t.toInquiry) p = true ↔ Fits before t p := by
  have id : (before.after.1.requestOf t.toInquiry).message.id = before.nextId := by
    rw [Client.requestOf, Message.requestId, wanted, placed.ids]
    rfl
  rw [Client.answers, id]
  simp only [Bool.and_eq_true, beq_iff_eq, and_assoc]
  exact ⟨fun ⟨cport, response, id⟩ => ⟨wanted, cport, response, id⟩,
    fun ⟨_, cport, response, id⟩ => ⟨cport, response, id⟩⟩

theorem Placed.advance (placed : Placed before taken others) {reader : Reader} {left : Source}
    {got rest : List Emission}
    (state : after (before ++ [t]) = ({ before.after.1.drawnFor t.toInquiry with reader }, left))
    (limit : reader.limit = before.after.1.reader.limit)
    (pending : others ++ t.emitted = got ++ rest)
    (kept : Packet.encodeAll (got.map Emission.packet) ++ (reader.buffer ++ left.bytes) =
      before.after.1.reader.buffer ++ (before.source t).bytes) :
    Placed (before ++ [t]) (taken ++ got) rest := by
  refine ⟨?_, ?_, ?_, ?_⟩
  · rw [state]
    exact placed.ids_concat t
  · rw [state]
    exact limit.trans placed.limit
  · rw [placed.emitted_concat, pending, List.append_assoc]
  · rw [placed.arrived_concat, state, ← kept, List.map_append, Packet.encodeAll_append,
      List.append_assoc]

theorem Placed.ask (h : Orderly rounds) (split : rounds = before ++ t :: later)
    (placed : Placed before taken others) :
    ∃ got rest, Placed (before ++ [t]) (taken ++ got) rest ∧ Asked before t got := by
  by_cases waits : Client.Waits t.toInquiry
  · have begins := h.begins (split.trans (List.append_cons before t later))
      (placed.emitted_concat t) (placed.arrived_concat t)
    have awaited := Client.awaited_await (c := before.after.1.drawnFor t.toInquiry)
      (before.after.1.requestOf t.toInquiry) (placed.limit ▸ begins)
    have asked := Client.ask_of_waits before.after.1 (before.source t) waits
    generalize (before.after.1.drawnFor t.toInquiry).await _ _ = out at awaited asked
    have state : after (before ++ [t]) = out.2 := by rw [after_concat, asked]
    have said : before.answer t = out.1.map some := by rw [Exchange.answer, asked]
    have passed {skipped : List Emission}
        (skips : ∀ q ∈ skipped.map Emission.packet,
          Client.answers (before.after.1.requestOf t.toInquiry) q = false) :
        ∀ x ∈ skipped, ¬ Fits before t x.packet := by
      intro x mem fits
      have answers := (placed.answers_iff waits.wanted x.packet).mpr fits
      rw [skips x.packet (List.mem_map_of_mem mem)] at answers
      cases answers
    cases awaited with
    | answered all skips answers limit kept =>
      obtain ⟨skipped, found, pending, rfl, more⟩ := List.map_eq_append_iff.mp all
      obtain ⟨e, rest, rfl, rfl, -⟩ := List.map_eq_cons_iff.mp more
      refine ⟨skipped ++ [e], rest, placed.advance state limit ?_ ?_, .answered waits rfl
        (passed skips) ((placed.answers_iff waits.wanted e.packet).mp answers) said⟩
      · rw [pending, List.append_assoc]
        rfl
      · rw [List.map_append]
        exact kept
    | gaveUp all skips limit kept early none =>
      obtain ⟨skipped, rest, pending, rfl, -⟩ := List.map_eq_append_iff.mp all
      refine ⟨skipped, rest, placed.advance state limit pending kept, .gaveUp waits (passed skips)
        said ?_ ?_⟩
      · rw [state]
        exact early
      · rw [state, ← placed.limit]
        exact none
  · obtain ⟨answer, asked, nothing, none⟩ := Client.ask_of_not_waits before.after.1
      (before.source t) waits
    have state : after (before ++ [t]) =
        (before.after.1.drawnFor t.toInquiry, before.source t) := by simp [asked]
    refine ⟨[], others ++ t.emitted, placed.advance state rfl rfl rfl, .idle waits rfl state ?_ ?_⟩
    · rwa [Exchange.answer, asked]
    · rwa [Exchange.answer, asked]

theorem Orderly.placed (h : Orderly rounds) (split : rounds = before ++ later) :
    ∃ taken others, Placed before taken others := by
  induction before using List.reverseRecOn generalizing later with
  | nil => exact ⟨[], [], rfl, rfl, rfl, rfl⟩
  | append_singleton before t ih =>
    have split := split.trans (List.append_cons before t later).symm
    obtain ⟨taken, others, placed⟩ := ih split
    obtain ⟨got, rest, placed, -⟩ := placed.ask h split
    exact ⟨taken ++ got, rest, placed⟩

end

end

def again : Round where
  cport := 1
  kind := 2
  payload := []
  oneShot := false
  sent := .ok ()
  emitted := [⟨⟨1, ⟨5, 2, 0, []⟩⟩, none⟩, ⟨⟨1, ⟨2, 0x82, 0, [8]⟩⟩, some 1⟩]
  arrives := [.data [0, 1, 0, 7, 8, 0, 5], .fault ⟨.interrupted, "interrupted"⟩,
    .data [0, 2, 0, 1, 0, 9, 0, 2, 0, 0x82, 0, 1, 0, 8]]

end Exchange

end CportNode
