import CportNode.Proofs.Frame
import CportNode.Stream.Reader

namespace CportNode

namespace Header

theorem encode_of_read {bytes : Bytes} {h : Header} {rest : Bytes}
    (hr : read bytes = some (h, rest)) : h.encode ++ rest = bytes := by
  unfold read at hr
  split at hr
  · cases hr
    simp [encode]
  · cases hr

@[simp] theorem read_eq_none_iff {bytes : Bytes} :
    read bytes = none ↔ bytes.length < Message.headerSize := by
  rcases bytes with _ | ⟨_, _ | ⟨_, _ | ⟨_, _ | ⟨_, _ | ⟨_, _ | ⟨_, _ | ⟨_, _ | ⟨_, _⟩⟩⟩⟩⟩⟩⟩⟩ <;>
    simp [read, Message.headerSize]

end Header

namespace Packet

variable {limit : Nat} {buffer rest : Bytes} {p : Packet}

def declared : Bytes → Nat
  | lo :: hi :: _ => lo.toNat + 256 * hi.toNat
  | _ => 0

theorem declared_of_read {h : Header} (hr : Header.read buffer = some (h, rest)) :
    declared buffer = h.size.toNat := by
  unfold Header.read at hr
  split at hr
  · rename_i lo hi _ _ _ _ _ _ _
    cases hr
    have := lo.toNat_lt
    have := hi.toNat_lt
    rw [declared, Bytes.word16, UInt16.toNat_ofNat']
    omega
  · cases hr

theorem headerSize_le_of_read {h : Header} (hr : Header.read buffer = some (h, rest)) :
    Message.headerSize ≤ buffer.length :=
  Nat.le_of_not_lt fun short => nomatch (Header.read_eq_none_iff.mpr short).symm.trans hr

theorem encode_ofHeader {h : Header} {payload : Bytes} (large : Message.headerSize ≤ h.size.toNat)
    (size : payload.length = h.payloadSize) : (ofHeader h payload).encode = h.encode ++ payload := by
  have whole : (ofHeader h payload).message.size = h.size.toNat := by
    simp only [ofHeader, Message.size, size, Header.payloadSize]
    omega
  rw [encode, header, Message.header, whole, UInt16.ofNat_toNat]
  rfl

theorem encode_of_decode (h : decode limit buffer = .ok (some (p, rest))) :
    p.encode ++ rest = buffer := by
  have found := decoded_decode limit buffer
  rw [h] at found
  cases found with
  | @whole hd tail hr enough fits full =>
    rw [encode_ofHeader enough (List.length_take_of_le full), List.append_assoc,
      List.take_append_drop, Header.encode_of_read hr]

theorem decode_cases (limit : Nat) (buffer : Bytes) :
    (buffer.length < Message.headerSize ∧ decode limit buffer = .ok none) ∨
    (Message.headerSize ≤ buffer.length ∧
      ((declared buffer < Message.headerSize ∧
        decode limit buffer = .error (.invalidSize (declared buffer) Message.headerSize)) ∨
      (Message.headerSize ≤ declared buffer ∧ limit < declared buffer ∧
        decode limit buffer = .error (.payloadTooLarge (declared buffer - Message.headerSize)
          (limit - Message.headerSize))) ∨
      (Message.headerSize ≤ declared buffer ∧ declared buffer ≤ limit ∧
        ((buffer.length < declared buffer ∧ decode limit buffer = .ok none) ∨
        (declared buffer ≤ buffer.length ∧
          ∃ p rest, decode limit buffer = .ok (some (p, rest))))))) := by
  have found := decoded_decode limit buffer
  generalize decode limit buffer = outcome at found
  cases found with
  | headless none => exact .inl ⟨Header.read_eq_none_iff.mp none, rfl⟩
  | small hr small =>
    rw [declared_of_read hr]
    exact .inr ⟨headerSize_le_of_read hr, .inl ⟨small, rfl⟩⟩
  | large hr enough large =>
    rw [declared_of_read hr]
    exact .inr ⟨headerSize_le_of_read hr, .inr (.inl ⟨enough, large, rfl⟩)⟩
  | @short h rest hr enough fits short =>
    have length := length_of_read hr
    have : buffer.length < h.size.toNat := by
      simp only [Header.payloadSize, Message.headerSize] at short enough
      omega
    rw [declared_of_read hr]
    exact .inr ⟨headerSize_le_of_read hr, .inr (.inr ⟨enough, fits, .inl ⟨this, rfl⟩⟩)⟩
  | @whole h rest hr enough fits full =>
    have length := length_of_read hr
    have : h.size.toNat ≤ buffer.length := by
      simp only [Header.payloadSize, Message.headerSize] at full enough
      omega
    rw [declared_of_read hr]
    exact .inr ⟨headerSize_le_of_read hr, .inr (.inr ⟨enough, fits, .inr ⟨this, _, _, rfl⟩⟩)⟩

def Stuck (limit : Nat) (buffer : Bytes) : Prop :=
  ∀ p rest, decode limit buffer ≠ .ok (some (p, rest))

theorem Stuck.next_buffer (h : Stuck limit buffer) :
    ((⟨limit, buffer⟩ : Reader).next []).2.1.buffer = buffer := by
  rw [Reader.next]
  split
  · rfl
  · rename_i found
    exact absurd found (h _ _)
  · rfl

/-- The frame grammar: when there is a frame, when the header is refused and why, and when more
bytes are awaited.  Without a frame the bytes stay where they are. -/
structure Grammar (limit : Nat) (buffer : Bytes) : Prop where
  whole_iff : (∃ p rest, decode limit buffer = .ok (some (p, rest))) ↔
    Message.headerSize ≤ buffer.length ∧ Message.headerSize ≤ declared buffer ∧
      declared buffer ≤ limit ∧ declared buffer ≤ buffer.length
  refused_iff : ∀ e, decode limit buffer = .error e ↔ Message.headerSize ≤ buffer.length ∧
    ((declared buffer < Message.headerSize ∧
        e = .invalidSize (declared buffer) Message.headerSize) ∨
      (Message.headerSize ≤ declared buffer ∧ limit < declared buffer ∧
        e = .payloadTooLarge (declared buffer - Message.headerSize) (limit - Message.headerSize)))
  incomplete_iff : decode limit buffer = .ok none ↔ buffer.length < Message.headerSize ∨
    (Message.headerSize ≤ declared buffer ∧ declared buffer ≤ limit ∧
      buffer.length < declared buffer)
  untouched : Stuck limit buffer → ((⟨limit, buffer⟩ : Reader).next []).2.1.buffer = buffer

theorem grammar (limit : Nat) (buffer : Bytes) : Grammar limit buffer := by
  have cases := decode_cases limit buffer
  refine ⟨?whole, fun e => ?refused, ?incomplete, Stuck.next_buffer⟩
  case whole => grind
  case refused => grind
  case incomplete => grind

/-- Steps in a row: the packets that they gave, and the bytes that they left. -/
inductive Steps (limit : Nat) : Bytes → List Packet → Bytes → Prop
  | none (buffer : Bytes) : Steps limit buffer [] buffer
  | more {buffer rest left : Bytes} {p : Packet} {packets : List Packet} :
      decode limit buffer = .ok (some (p, rest)) → Steps limit rest packets left →
      Steps limit buffer (p :: packets) left

variable {left : Bytes} {packets : List Packet}

theorem Steps.encodeAll_append (h : Steps limit buffer packets left) :
    encodeAll packets ++ left = buffer := by
  induction h with
  | none => rfl
  | more first _ ih =>
    rw [encodeAll, List.flatMap_cons, List.append_assoc]
    exact (congrArg _ ih).trans (encode_of_decode first)

theorem Steps.headerSize_mul_le (h : Steps limit buffer packets left) :
    Message.headerSize * packets.length + left.length ≤ buffer.length := by
  induction h with
  | none => simp
  | @more buffer rest left p packets first _ ih =>
    have taken := congrArg List.length (encode_of_decode first)
    rw [List.length_append, length_encode, Message.size] at taken
    rw [List.length_cons, Nat.mul_succ]
    omega

theorem Steps.decodeAll_eq (h : Steps limit buffer packets left) :
    decodeAll limit buffer =
      (packets ++ (decodeAll limit left).1, (decodeAll limit left).2) := by
  induction h with
  | none => rfl
  | more first _ ih =>
    rw [decodeAll_of_some first, ih]
    rfl

theorem steps_decodeAll (limit : Nat) (buffer : Bytes) :
    Steps limit buffer (decodeAll limit buffer).1 (decodeAll limit buffer).2.2 := by
  fun_induction decodeAll limit buffer with
  | case1 buffer e h => exact .none _
  | case2 buffer h => exact .none _
  | case3 buffer p rest h shorter packets stop left all ih =>
    rw [all] at ih
    exact .more h ih

theorem stuck_left (limit : Nat) (buffer : Bytes) : Stuck limit (decodeAll limit buffer).2.2 := by
  intro p rest h
  rw [decode_left] at h
  cases stop : (decodeAll limit buffer).2.1 <;> simp [stop, Stop.outcome] at h

theorem steps_and_stuck_iff : Steps limit buffer packets left ∧ Stuck limit left ↔
    packets = (decodeAll limit buffer).1 ∧ left = (decodeAll limit buffer).2.2 := by
  constructor
  · rintro ⟨steps, stuck⟩
    have stays : (decodeAll limit left).1 = [] ∧ (decodeAll limit left).2.2 = left := by
      cases out : decode limit left with
      | error e => simp [decodeAll_of_error out]
      | ok found =>
        cases found with
        | none => simp [decodeAll_of_none out]
        | some pair => exact absurd out (stuck _ _)
    rw [steps.decodeAll_eq, stays.1, stays.2, List.append_nil]
    exact ⟨rfl, rfl⟩
  · rintro ⟨rfl, rfl⟩
    exact ⟨steps_decodeAll limit buffer, stuck_left limit buffer⟩

/-- Any bytes, under any limit, are taken apart by the frame grammar, step after step.  However many
steps are taken, the packets that they gave and the bytes that they left encode to what there was,
and there is room for no more steps than headers.  There is one way to the end. -/
theorem steps_lossless (limit : Nat) (buffer : Bytes) :
    (∀ packets left, Steps limit buffer packets left →
      encodeAll packets ++ left = buffer ∧
        Message.headerSize * packets.length + left.length ≤ buffer.length ∧ Grammar limit left) ∧
    (∀ packets left, Steps limit buffer packets left ∧ Stuck limit left ↔
      packets = (decodeAll limit buffer).1 ∧ left = (decodeAll limit buffer).2.2) ∧
    encodeAll (decodeAll limit buffer).1 ++ (decodeAll limit buffer).2.2 = buffer ∧
    decode limit (decodeAll limit buffer).2.2 = (decodeAll limit buffer).2.1.outcome := by
  have all := steps_decodeAll limit buffer
  refine ⟨fun packets left steps => ?_, fun packets left => steps_and_stuck_iff,
    all.encodeAll_append, decode_left limit buffer⟩
  exact ⟨steps.encodeAll_append, steps.headerSize_mul_le, grammar limit left⟩

theorem steps_lossless_oversize :
    encodeAll [⟨3, ⟨7, 0x82, 0, [5, 6]⟩⟩, ⟨0, ⟨0, 1, 0, []⟩⟩] ++ [11, 0, 1, 0, 4, 0, 9, 0] =
      [10, 0, 7, 0, 0x82, 0, 3, 0, 5, 6, 8, 0, 0, 0, 1, 0, 0, 0, 11, 0, 1, 0, 4, 0, 9, 0] :=
  ((steps_lossless 10 _).1 _ _ (.more rfl (.more rfl (.none _)))).1

end Packet

end CportNode
