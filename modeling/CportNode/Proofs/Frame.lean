import CportNode.Message.Frame

namespace CportNode

theorem Header.read_append {bytes : Bytes} {h : Header} {rest : Bytes}
    (hr : Header.read bytes = some (h, rest)) (more : Bytes) :
    Header.read (bytes ++ more) = some (h, rest ++ more) := by
  unfold Header.read at hr
  split at hr
  · cases hr
    rfl
  · cases hr

namespace Packet

variable {limit : Nat}

inductive Decoded (limit : Nat) (buffer : Bytes) :
    Except MessageError (Option (Packet × Bytes)) → Prop
  | headless : Header.read buffer = none → Decoded limit buffer (.ok none)
  | small {h : Header} {rest : Bytes} : Header.read buffer = some (h, rest) →
      h.size.toNat < Message.headerSize →
      Decoded limit buffer (.error (.invalidSize h.size.toNat Message.headerSize))
  | large {h : Header} {rest : Bytes} : Header.read buffer = some (h, rest) →
      Message.headerSize ≤ h.size.toNat → limit < h.size.toNat →
      Decoded limit buffer (.error (.payloadTooLarge h.payloadSize (limit - Message.headerSize)))
  | short {h : Header} {rest : Bytes} : Header.read buffer = some (h, rest) →
      Message.headerSize ≤ h.size.toNat → h.size.toNat ≤ limit → rest.length < h.payloadSize →
      Decoded limit buffer (.ok none)
  | whole {h : Header} {rest : Bytes} : Header.read buffer = some (h, rest) →
      Message.headerSize ≤ h.size.toNat → h.size.toNat ≤ limit → h.payloadSize ≤ rest.length →
      Decoded limit buffer
        (.ok (some (ofHeader h (rest.take h.payloadSize), rest.drop h.payloadSize)))

theorem decoded_decode (limit : Nat) (buffer : Bytes) :
    Decoded limit buffer (decode limit buffer) := by
  unfold decode Header.parse
  cases hr : Header.read buffer with
  | none => exact .headless hr
  | some pair =>
    obtain ⟨h, rest⟩ := pair
    by_cases small : h.size.toNat < Message.headerSize
    · simp only [small, if_true]
      exact .small hr small
    · have enough := Nat.le_of_not_lt small
      by_cases large : limit < h.size.toNat
      · simp only [small, large, if_true, if_false]
        exact .large hr enough large
      · have fits := Nat.le_of_not_lt large
        by_cases short : rest.length < h.payloadSize
        · have cut : (rest.take h.payloadSize).length < h.payloadSize := by
            rw [List.length_take]
            omega
          simp only [small, large, cut, if_true, if_false]
          exact .short hr enough fits short
        · have full : ¬(rest.take h.payloadSize).length < h.payloadSize := by
            rw [List.length_take]
            omega
          simp only [small, large, full, if_false]
          exact .whole hr enough fits (Nat.le_of_not_lt short)

theorem Decoded.decode_eq {buffer : Bytes} {outcome : Except MessageError (Option (Packet × Bytes))}
    (h : Decoded limit buffer outcome) : decode limit buffer = outcome := by
  have found := decoded_decode limit buffer
  generalize decode limit buffer = outcome' at found
  cases h <;> cases found <;> simp_all <;> omega

theorem decode_append {buffer rest : Bytes} {p : Packet}
    (h : decode limit buffer = .ok (some (p, rest))) (more : Bytes) :
    decode limit (buffer ++ more) = .ok (some (p, rest ++ more)) := by
  have found := decoded_decode limit buffer
  rw [h] at found
  cases found with
  | @whole hd tail hr enough fits full =>
    have longer : hd.payloadSize ≤ (tail ++ more).length := by
      rw [List.length_append]
      omega
    rw [(Decoded.whole (Header.read_append hr more) enough fits longer).decode_eq,
      List.take_append_of_le_length full, List.drop_append_of_le_length full]

theorem decode_append_of_error {buffer : Bytes} {e : MessageError}
    (h : decode limit buffer = .error e) (more : Bytes) :
    decode limit (buffer ++ more) = .error e := by
  have found := decoded_decode limit buffer
  rw [h] at found
  cases found with
  | small hr small => exact (Decoded.small (Header.read_append hr more) small).decode_eq
  | large hr enough large =>
    exact (Decoded.large (Header.read_append hr more) enough large).decode_eq

theorem decodeAll_of_error {buffer : Bytes} {e : MessageError}
    (h : decode limit buffer = .error e) : decodeAll limit buffer = ([], .refused e, buffer) := by
  unfold decodeAll
  split <;> simp_all

theorem decodeAll_of_none {buffer : Bytes} (h : decode limit buffer = .ok none) :
    decodeAll limit buffer = ([], .incomplete, buffer) := by
  unfold decodeAll
  split <;> simp_all

theorem decodeAll_of_some {buffer rest : Bytes} {p : Packet}
    (h : decode limit buffer = .ok (some (p, rest))) :
    decodeAll limit buffer = (p :: (decodeAll limit rest).1, (decodeAll limit rest).2) := by
  rw [decodeAll]
  split <;> simp_all

@[simp] theorem decodeAll_left (limit : Nat) (buffer : Bytes) :
    decodeAll limit (decodeAll limit buffer).2.2 = ([], (decodeAll limit buffer).2) := by
  fun_induction decodeAll limit buffer with
  | case1 buffer e h => exact decodeAll_of_error h
  | case2 buffer h => exact decodeAll_of_none h
  | case3 buffer p rest h shorter packets stop left all ih =>
    rw [all] at ih
    exact ih

theorem decodeAll_append (limit : Nat) (buffer more : Bytes) :
    decodeAll limit (buffer ++ more) =
      ((decodeAll limit buffer).1 ++ (decodeAll limit ((decodeAll limit buffer).2.2 ++ more)).1,
        (decodeAll limit ((decodeAll limit buffer).2.2 ++ more)).2) := by
  fun_induction decodeAll limit buffer with
  | case1 buffer e h => rfl
  | case2 buffer h => rfl
  | case3 buffer p rest h shorter packets stop left all ih =>
    rw [all] at ih
    rw [decodeAll_of_some (decode_append h more), ih]
    rfl

def Stop.outcome : Stop → Except MessageError (Option (Packet × Bytes))
  | .incomplete => .ok none
  | .refused e => .error e

@[simp] theorem decode_left (limit : Nat) (buffer : Bytes) :
    decode limit (decodeAll limit buffer).2.2 = (decodeAll limit buffer).2.1.outcome := by
  fun_induction decodeAll limit buffer with
  | case1 buffer e h => exact h
  | case2 buffer h => exact h
  | case3 buffer p rest h shorter packets stop left all ih =>
    rw [all] at ih
    exact ih

theorem decode_left_of_refused {buffer : Bytes} {e : MessageError}
    (h : (decodeAll limit buffer).2.1 = .refused e) :
    decode limit (decodeAll limit buffer).2.2 = .error e := by
  rw [decode_left, h]
  rfl

theorem decodeAll_append_of_refused {buffer : Bytes} {e : MessageError}
    (h : (decodeAll limit buffer).2.1 = .refused e) (more : Bytes) :
    decodeAll limit (buffer ++ more) =
      ((decodeAll limit buffer).1, .refused e, (decodeAll limit buffer).2.2 ++ more) := by
  rw [decodeAll_append, decodeAll_of_error (decode_append_of_error (decode_left_of_refused h) more),
    List.append_nil]

theorem size_header {m : Message} (h : m.size ≤ Message.maxSize) : m.header.size.toNat = m.size := by
  have fits : m.size < UInt16.size := Nat.lt_succ_of_le h
  exact UInt16.toNat_ofNat_of_lt' fits

theorem payloadSize_header {p : Packet} (h : p.message.size ≤ Message.maxSize) :
    p.header.payloadSize = p.message.payload.length := by
  have size : p.header.size.toNat = p.message.size := size_header h
  rw [Header.payloadSize, size, Message.size, Nat.add_sub_cancel_left]

@[simp] theorem length_encode (p : Packet) : p.encode.length = p.message.size := by
  simp only [encode, Header.encode, Bytes.ofWord16, Message.size, Message.headerSize,
    List.length_append, List.length_cons, List.length_nil]

theorem decode_encode {p : Packet} (h : p.message.size ≤ Message.maxSize)
    (fits : p.message.size ≤ limit) (rest : Bytes) :
    decode limit (p.encode ++ rest) = .ok (some (p, rest)) := by
  have size : p.header.size.toNat = p.message.size := size_header h
  have payload := payloadSize_header h
  have read : Header.read (p.encode ++ rest) = some (p.header, p.message.payload ++ rest) := by
    simp [encode]
  have enough : Message.headerSize ≤ p.header.size.toNat := by
    rw [size]
    exact Nat.le_add_right _ _
  have full : p.header.payloadSize ≤ (p.message.payload ++ rest).length := by
    rw [payload, List.length_append]
    exact Nat.le_add_right _ _
  rw [(Decoded.whole read enough (by rwa [size]) full).decode_eq, payload, List.take_left,
    List.drop_left]
  rfl

theorem decodeAll_encodeAll_append {packets : List Packet}
    (h : ∀ p ∈ packets, p.message.size ≤ Message.maxSize ∧ p.message.size ≤ limit) (rest : Bytes) :
    decodeAll limit (encodeAll packets ++ rest) =
      (packets ++ (decodeAll limit rest).1, (decodeAll limit rest).2) := by
  induction packets with
  | nil => rfl
  | cons p packets ih =>
    obtain ⟨small, fits⟩ := h p List.mem_cons_self
    have others := ih fun q mem => h q (List.mem_cons_of_mem p mem)
    have split : encodeAll (p :: packets) ++ rest = p.encode ++ (encodeAll packets ++ rest) := by
      rw [encodeAll, List.flatMap_cons, List.append_assoc]
      rfl
    rw [split, decodeAll_of_some (decode_encode small fits _), others]
    rfl

end Packet

end CportNode
