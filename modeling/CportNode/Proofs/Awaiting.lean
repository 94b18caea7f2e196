import CportNode.Host.Client
import CportNode.Proofs.Chunking
import CportNode.Proofs.Grammar

namespace CportNode

namespace Source

def prompt : Source → Bytes
  | [] => []
  | .fault cause :: rest => if cause.interruptedBySignal then prompt rest else []
  | .data [] :: _ => []
  | .data (b :: piece) :: rest => b :: piece ++ prompt rest

@[simp] theorem bytes_append (source more : Source) :
    (source ++ more).bytes = source.bytes ++ more.bytes := by
  induction source with
  | nil => rfl
  | cons item rest ih =>
    cases item with
    | fault cause => exact ih
    | data piece => exact (congrArg (piece ++ ·) ih).trans (List.append_assoc _ _ _).symm

theorem read_data {source source' : Source} {b : UInt8} {piece : Bytes}
    (h : source.read = (.ok (b :: piece), source')) :
    source.bytes = b :: piece ++ source'.bytes ∧ source.prompt = b :: piece ++ source'.prompt := by
  unfold read at h
  split at h
  · cases h
  · cases h
  · rename_i whole rest
    split at h
    · cases h
      exact ⟨rfl, rfl⟩
    · rename_i large
      simp only [Prod.mk.injEq, Except.ok.injEq] at h
      obtain ⟨taken, rfl⟩ := h
      have split : whole = (b :: piece) ++ whole.drop chunkSize := by
        rw [← taken, List.take_append_drop]
      cases more : whole.drop chunkSize with
      | nil =>
        have short := List.drop_eq_nil_iff.mp more
        omega
      | cons c later =>
        rw [more] at split
        subst split
        exact ⟨List.append_assoc _ _ _, by simp [prompt]⟩

end Source

namespace Packet

@[simp] theorem encodeAll_append (packets others : List Packet) :
    encodeAll (packets ++ others) = encodeAll packets ++ encodeAll others :=
  List.flatMap_append

structure Begins (limit : Nat) (packets : List Packet) (bytes : Bytes) : Prop where
  sizes : ∀ p ∈ packets, p.message.size ≤ Message.maxSize ∧ p.message.size ≤ limit
  front : bytes <+: encodeAll packets

namespace Begins

variable {limit : Nat} {packets : List Packet} {bytes rest : Bytes} {p : Packet}

theorem of_isPrefix {bytes' : Bytes} (h : Begins limit packets bytes) (front : bytes' <+: bytes) :
    Begins limit packets bytes' :=
  ⟨h.sizes, front.trans h.front⟩

theorem decode_some (h : Begins limit packets bytes)
    (decoded : decode limit bytes = .ok (some (p, rest))) :
    ∃ others, packets = p :: others ∧ Begins limit others rest := by
  obtain ⟨more, whole⟩ := h.front
  have longer := decode_append decoded more
  rw [whole] at longer
  cases packets with
  | nil => cases longer
  | cons q others =>
    obtain ⟨small, fits⟩ := h.sizes q List.mem_cons_self
    have same := (decode_encode small fits (encodeAll others)).symm.trans longer
    simp only [Except.ok.injEq, Option.some.injEq, Prod.mk.injEq] at same
    obtain ⟨rfl, rest⟩ := same
    exact ⟨others, rfl, fun r mem => h.sizes r (List.mem_cons_of_mem _ mem), more, rest.symm⟩

theorem decode_ne_error (h : Begins limit packets bytes) (e : MessageError) :
    decode limit bytes ≠ .error e := by
  intro refused
  obtain ⟨more, whole⟩ := h.front
  have longer := decode_append_of_error refused more
  rw [whole] at longer
  cases packets with
  | nil => cases longer
  | cons q others =>
    obtain ⟨small, fits⟩ := h.sizes q List.mem_cons_self
    cases (decode_encode small fits (encodeAll others)).symm.trans longer

end Begins

end Packet

namespace Reader

inductive Fetched (r : Reader) (source : Source) :
    Except MessageError Packet × Reader × Source → Prop
  | packet {p : Packet} {r' : Reader} {source' : Source} : r'.limit = r.limit →
      Packet.decode r.limit (r.buffer ++ source.bytes) =
        .ok (some (p, r'.buffer ++ source'.bytes)) →
      Packet.decode r.limit (r.buffer ++ source.prompt) =
        .ok (some (p, r'.buffer ++ source'.prompt)) →
      Fetched r source (.ok p, r', source')
  | refused {e : MessageError} {r' : Reader} {source' : Source} : r'.limit = r.limit →
      Packet.decode r.limit r'.buffer = .error e →
      r'.buffer ++ source'.bytes = r.buffer ++ source.bytes →
      Fetched r source (.error e, r', source')
  | exhausted {e : MessageError} {r' : Reader} {source' : Source} : r'.limit = r.limit →
      Packet.decode r.limit r'.buffer = .ok none →
      r'.buffer ++ source'.bytes = r.buffer ++ source.bytes →
      r'.buffer = r.buffer ++ source.prompt →
      Fetched r source (.error e, r', source')

theorem Fetched.of_same {r r₀ : Reader} {source source₀ : Source}
    {outcome : Except MessageError Packet × Reader × Source} (limit : r.limit = r₀.limit)
    (bytes : r.buffer ++ source.bytes = r₀.buffer ++ source₀.bytes)
    (prompt : r.buffer ++ source.prompt = r₀.buffer ++ source₀.prompt)
    (h : Fetched r source outcome) : Fetched r₀ source₀ outcome := by
  cases h with
  | packet same whole early =>
    rw [limit, bytes] at whole
    rw [limit, prompt] at early
    exact .packet (same.trans limit) whole early
  | refused same refused kept =>
    exact .refused (same.trans limit) (limit ▸ refused) (kept.trans bytes)
  | exhausted same none kept all =>
    exact .exhausted (same.trans limit) (limit ▸ none) (kept.trans bytes) (all.trans prompt)

theorem fetched_next (r : Reader) (source : Source) : Fetched r source (r.next source) := by
  fun_induction next r source with
  | case1 r source e refused => exact .refused rfl refused rfl
  | case2 r source p rest decoded =>
    exact .packet rfl (Packet.decode_append decoded _) (Packet.decode_append decoded _)
  | case3 r source waiting cause rest call interrupted ih =>
    rw [Source.read_error call]
    refine .of_same ?_ ?_ ?_ ih
    · rfl
    · rfl
    · rw [Source.prompt, if_pos interrupted]
  | case4 r source waiting cause rest call failed =>
    rw [Source.read_error call]
    refine .exhausted rfl waiting rfl ?_
    rw [Source.prompt, if_neg failed, List.append_nil]
  | case5 r source waiting rest call =>
    rcases Source.read_nil call with ⟨rfl, rfl⟩ | rfl
    · exact .exhausted rfl waiting rfl (List.append_nil _).symm
    · exact .exhausted rfl waiting rfl (List.append_nil _).symm
  | case6 r source waiting b piece rest call ih =>
    obtain ⟨bytes, prompt⟩ := Source.read_data call
    refine .of_same ?_ ?_ ?_ ih
    · rfl
    · rw [bytes, List.append_assoc]
    · rw [prompt, List.append_assoc]

end Reader

namespace Client

/-- What has become of a client that waited for the answer to a request, while the node sent these
packets: it has the answer, or has not found it in the data that came without delay.  Either way it
has passed over what came before, and has whatever it had received beyond that. -/
inductive Awaited (c : Client) (request : Packet) (source : Source) (packets : List Packet) :
    Except LinkError Message × Client × Source → Prop
  | answered {skipped others : List Packet} {p : Packet} {reader : Reader} {source' : Source} :
      packets = skipped ++ p :: others → (∀ q ∈ skipped, answers request q = false) →
      answers request p = true → reader.limit = c.reader.limit →
      Packet.encodeAll (skipped ++ [p]) ++ (reader.buffer ++ source'.bytes) =
        c.reader.buffer ++ source.bytes →
      Awaited c request source packets (.ok p.message, { c with reader }, source')
  | gaveUp {skipped others : List Packet} {e : LinkError} {reader : Reader} {source' : Source} :
      packets = skipped ++ others → (∀ q ∈ skipped, answers request q = false) →
      reader.limit = c.reader.limit →
      Packet.encodeAll skipped ++ (reader.buffer ++ source'.bytes) =
        c.reader.buffer ++ source.bytes →
      Packet.encodeAll skipped ++ reader.buffer = c.reader.buffer ++ source.prompt →
      Packet.decode c.reader.limit reader.buffer = .ok none →
      Awaited c request source packets (.error e, { c with reader }, source')

theorem Awaited.skip {c : Client} {request p : Packet} {source source' : Source} {reader : Reader}
    {others : List Packet} {outcome : Except LinkError Message × Client × Source}
    (other : answers request p = false) (limit : reader.limit = c.reader.limit)
    (bytes : p.encode ++ (reader.buffer ++ source'.bytes) = c.reader.buffer ++ source.bytes)
    (prompt : p.encode ++ (reader.buffer ++ source'.prompt) = c.reader.buffer ++ source.prompt)
    (h : Awaited { c with reader } request source' others outcome) :
    Awaited c request source (p :: others) outcome := by
  cases h with
  | @answered skipped _ q _ _ all skips answers same kept =>
    refine .answered (congrArg (p :: ·) all) (List.forall_mem_cons.mpr ⟨other, skips⟩) answers
      (same.trans limit) ?_
    rw [← bytes, ← kept]
    simp [Packet.encodeAll]
  | gaveUp all skips same kept early none =>
    refine .gaveUp (congrArg (p :: ·) all) (List.forall_mem_cons.mpr ⟨other, skips⟩)
      (same.trans limit) ?_ ?_ (limit ▸ none)
    · rw [← bytes, ← kept]
      simp [Packet.encodeAll]
    · rw [← prompt, ← early]
      simp [Packet.encodeAll]

theorem awaited_await {c : Client} {source : Source} {packets : List Packet} (request : Packet)
    (h : Packet.Begins c.reader.limit packets (c.reader.buffer ++ source.bytes)) :
    Awaited c request source packets (c.await request source) := by
  fun_induction await c request source generalizing packets with
  | case1 c source e reader source' step =>
    have fetched := Reader.fetched_next c.reader source
    rw [step] at fetched
    cases fetched with
    | refused limit refused kept =>
      exact absurd refused ((h.of_isPrefix (kept ▸ List.prefix_append _ _)).decode_ne_error e)
    | exhausted limit none kept all =>
      exact .gaveUp (List.nil_append packets).symm (by simp) limit kept all none
  | case2 c source p reader source' step answers =>
    have fetched := Reader.fetched_next c.reader source
    rw [step] at fetched
    cases fetched with
    | packet limit whole early =>
      obtain ⟨others, rfl, -⟩ := h.decode_some whole
      refine .answered (List.nil_append (p :: others)).symm (by simp) answers limit ?_
      rw [← Packet.encode_of_decode whole]
      simp [Packet.encodeAll]
  | case3 c source p reader source' step other ih =>
    have fetched := Reader.fetched_next c.reader source
    rw [step] at fetched
    cases fetched with
    | packet limit whole early =>
      obtain ⟨others, rfl, begins⟩ := h.decode_some whole
      refine .skip (Bool.eq_false_iff.mpr other) limit (Packet.encode_of_decode whole)
        (Packet.encode_of_decode early) (ih ?_)
      rwa [← limit] at begins

end Client

end CportNode
