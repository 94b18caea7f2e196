import CportNode.Proofs.Frame

namespace CportNode

namespace Message

/-- The messages that the calls on messages give, one after another. -/
inductive Obtainable : Message → Prop
  | zeroed {m : Message} {length : Nat} {kind : UInt8} {id : UInt16} {status : Status} :
      Message.zeroed length kind id status = .ok m → Obtainable m
  | request {m : Message} {length : Nat} {kind : UInt8} (oneShot : Bool) (ids : OperationIds) :
      Message.zeroed length kind (requestId oneShot ids).1 .success = .ok m → Obtainable m
  | carrying {m : Message} {kind : UInt8} {id : UInt16} {status : Status} {payload : Bytes} :
      Message.carrying kind id status payload = .ok m → Obtainable m
  | response {request m : Message} {status : Status} {payload : Bytes} :
      request.response status payload = .ok m → Obtainable m
  | emptyResponse {request m : Message} {status : Status} :
      request.emptyResponse status = .ok m → Obtainable m
  | duplicate {m m' : Message} : m.duplicate = .ok m' → Obtainable m'
  | decoded {limit : Nat} {buffer rest : Bytes} {p : Packet} :
      Packet.decode limit buffer = .ok (some (p, rest)) → Obtainable p.message
  | setByte {m : Message} (index : Nat) (byte : UInt8) :
      Obtainable m → Obtainable (m.setByte index byte)
  | overwrite {m : Message} (payload : Bytes) : payload.length = m.payload.length →
      Obtainable m → Obtainable { m with payload }
  | truncate {m : Message} (length : Nat) : Obtainable m → Obtainable (m.truncate length)

@[simp] theorem size_le_iff {m : Message} : m.size ≤ maxSize ↔ m.payload.length ≤ maxPayload := by
  simp only [size, maxSize, maxPayload, headerSize]
  omega

theorem size_zeroed {m : Message} {length : Nat} {kind : UInt8} {id : UInt16} {status : Status}
    (h : zeroed length kind id status = .ok m) : m.size ≤ maxSize := by
  unfold zeroed at h
  split at h
  · rename_i fits
    cases h
    simpa using fits
  · cases h

theorem size_carrying {m : Message} {kind : UInt8} {id : UInt16} {status : Status} {payload : Bytes}
    (h : carrying kind id status payload = .ok m) : m.size ≤ maxSize := by
  unfold carrying at h
  split at h
  · rename_i fits
    cases h
    exact size_le_iff.mpr fits
  · cases h

theorem size_response {request m : Message} {status : Status} {payload : Bytes}
    (h : request.response status payload = .ok m) : m.size ≤ maxSize :=
  size_carrying h

theorem size_duplicate {m m' : Message} (h : m.duplicate = .ok m') : m'.size ≤ maxSize := by
  unfold duplicate at h
  cases copied : carrying m.kind m.id m.status m.payload with
  | error e =>
    rw [copied] at h
    cases h
  | ok copy =>
    rw [copied] at h
    cases h
    have fits := size_carrying copied
    exact fits

theorem size_decoded {limit : Nat} {buffer rest : Bytes} {p : Packet}
    (h : Packet.decode limit buffer = .ok (some (p, rest))) : p.message.size ≤ maxSize := by
  have found := Packet.decoded_decode limit buffer
  rw [h] at found
  cases found with
  | @whole hd tail hr enough fits full =>
    have declared := hd.size.toNat_lt
    have length : (tail.take hd.payloadSize).length = hd.payloadSize := List.length_take_of_le full
    simp only [size, Packet.ofHeader, length, Header.payloadSize, headerSize, maxSize] at *
    omega

theorem Obtainable.size_le {m : Message} (h : m.Obtainable) : m.size ≤ maxSize := by
  induction h with
  | zeroed h => exact size_zeroed h
  | request oneShot ids h => exact size_zeroed h
  | carrying h => exact size_carrying h
  | response h => exact size_response h
  | emptyResponse h => exact size_response h
  | duplicate h => exact size_duplicate h
  | decoded h => exact size_decoded h
  | setByte index byte h ih => rwa [size, Message.setByte, List.length_set]
  | overwrite payload same h ih => rwa [size, same]
  | truncate length h ih =>
    apply Nat.le_trans _ ih
    rw [size, size, Message.truncate, List.length_take]
    omega

end Message

namespace Packet

/-- The size field of a message is exact, and decoding undoes encoding: of encoded packets with
something behind them that is no frame, just these packets are decoded, and just that is left. -/
theorem decodeAll_encodeAll :
    (∀ m : Message, m.Obtainable → m.size ≤ Message.maxSize ∧ m.header.size.toNat = m.size) ∧
    ∀ (limit : Nat) (packets : List Packet) (rest : Bytes),
      (∀ p ∈ packets, p.message.Obtainable ∧ p.message.size ≤ limit) →
      (∀ p left, decode limit rest ≠ .ok (some (p, left))) →
      decodeAll limit (encodeAll packets ++ rest) = (packets, (decodeAll limit rest).2.1, rest) := by
  constructor
  · intro m obtainable
    exact ⟨obtainable.size_le, size_header obtainable.size_le⟩
  · intro limit packets rest obtainable noFrame
    have sizes : ∀ p ∈ packets, p.message.size ≤ Message.maxSize ∧ p.message.size ≤ limit := by
      intro p mem
      obtain ⟨built, fits⟩ := obtainable p mem
      exact ⟨built.size_le, fits⟩
    rw [decodeAll_encodeAll_append sizes]
    cases h : decode limit rest with
    | error e => rw [decodeAll_of_error h, List.append_nil]
    | ok found =>
      cases found with
      | none => rw [decodeAll_of_none h, List.append_nil]
      | some pair => exact absurd h (noFrame pair.1 pair.2)

def oddPackets : List Packet :=
  [⟨513, ⟨7, 0x02, 0x00, []⟩⟩, ⟨65535, ⟨1, 0x02, 0x00, List.replicate 65527 0⟩⟩,
    ⟨0, ⟨65535, 0x82, 0x77, [1, 2, 255]⟩⟩]

theorem decodeAll_oddPackets :
    (∀ p ∈ oddPackets, p.message.header.size.toNat = p.message.size) ∧
      decodeAll 65535 (encodeAll oddPackets ++ [7, 0, 0, 0, 0, 0, 0, 0]) =
        (oddPackets, .refused (.invalidSize 7 8), [7, 0, 0, 0, 0, 0, 0, 0]) := by
  obtain ⟨exact, decoded⟩ := decodeAll_encodeAll
  have built : ∀ p ∈ oddPackets, p.message.Obtainable ∧ p.message.size ≤ 65535 := by
    intro p mem
    simp only [oddPackets, List.mem_cons, List.not_mem_nil, or_false] at mem
    rcases mem with rfl | rfl | rfl
    · have built : Message.carrying 0x02 7 .success [] = .ok ⟨7, 0x02, 0x00, []⟩ := rfl
      exact ⟨.carrying built, by decide⟩
    · have built : Message.zeroed 65527 0x02 1 .success =
          .ok ⟨1, 0x02, 0x00, List.replicate 65527 0⟩ := if_pos (by decide)
      have most : (List.replicate 65527 (0 : UInt8)).length ≤ Message.maxPayload :=
        Nat.le_of_eq List.length_replicate
      exact ⟨.zeroed built, Message.size_le_iff.mpr most⟩
    · have built : decode 11 [11, 0, 255, 255, 130, 119, 0, 0, 1, 2, 255] =
          .ok (some (⟨0, ⟨65535, 0x82, 0x77, [1, 2, 255]⟩⟩, [])) := rfl
      exact ⟨.decoded built, by decide⟩
  have refused : decode 65535 [7, 0, 0, 0, 0, 0, 0, 0] = .error (.invalidSize 7 8) := rfl
  refine ⟨fun p mem => (exact p.message (built p mem).1).2, ?_⟩
  rw [decoded 65535 oddPackets [7, 0, 0, 0, 0, 0, 0, 0] built (by simp [refused]),
    decodeAll_of_error refused]

end Packet

end CportNode
