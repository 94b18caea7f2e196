import CportNode.Message.Basic

/-!
Messages on a byte stream.  A frame is an eight-byte header and the payload; the header's last two
bytes carry the cport.

A frame is decoded from the front of a buffer: there is a whole frame, there is none yet, or the
header is refused.  A declared size above the limit is refused before the payload has arrived.
-/

namespace CportNode

structure Header where
  size : UInt16
  id : UInt16
  kind : UInt8
  result : UInt8
  pad : UInt16
  deriving DecidableEq

namespace Header

def encode (h : Header) : Bytes :=
  Bytes.ofWord16 h.size ++ Bytes.ofWord16 h.id ++ [h.kind, h.result] ++ Bytes.ofWord16 h.pad

def read : Bytes → Option (Header × Bytes)
  | s₀ :: s₁ :: i₀ :: i₁ :: kind :: result :: p₀ :: p₁ :: rest =>
    some (⟨Bytes.word16 s₀ s₁, Bytes.word16 i₀ i₁, kind, result, Bytes.word16 p₀ p₁⟩, rest)
  | _ => none

def parse (bytes : Bytes) : Except MessageError (Option (Header × Bytes)) :=
  match read bytes with
  | none => .ok none
  | some (h, rest) =>
    if h.size.toNat < Message.headerSize then
      .error (.invalidSize h.size.toNat Message.headerSize)
    else .ok (some (h, rest))

def payloadSize (h : Header) : Nat :=
  h.size.toNat - Message.headerSize

@[simp] theorem read_encode (h : Header) (rest : Bytes) :
    read (h.encode ++ rest) = some (h, rest) := by
  simp only [encode, read, Bytes.ofWord16, List.cons_append, List.nil_append, Bytes.word16_split]

end Header

def Message.header (m : Message) : Header :=
  ⟨UInt16.ofNat m.size, m.id, m.kind, m.result, 0⟩

namespace Packet

def header (p : Packet) : Header :=
  { p.message.header with pad := p.cport }

def encode (p : Packet) : Bytes :=
  p.header.encode ++ p.message.payload

def ofHeader (h : Header) (payload : Bytes) : Packet :=
  ⟨h.pad, ⟨h.id, h.kind, h.result, payload⟩⟩

/-- The frame at the front of `buffer` and the bytes after it, if a whole one has arrived. -/
def decode (limit : Nat) (buffer : Bytes) : Except MessageError (Option (Packet × Bytes)) :=
  match Header.parse buffer with
  | .error e => .error e
  | .ok none => .ok none
  | .ok (some (h, rest)) =>
    if limit < h.size.toNat then
      .error (.payloadTooLarge h.payloadSize (limit - Message.headerSize))
    else
      let payload := rest.take h.payloadSize
      if payload.length < h.payloadSize then .ok none
      else .ok (some (ofHeader h payload, rest.drop h.payloadSize))

def missing (buffer : Bytes) : Nat :=
  match Header.read buffer with
  | none => Message.headerSize - buffer.length
  | some (h, rest) => h.payloadSize - rest.length

theorem length_of_read {bytes : Bytes} {h : Header} {rest : Bytes}
    (hr : Header.read bytes = some (h, rest)) : bytes.length = rest.length + 8 := by
  unfold Header.read at hr
  split at hr
  · cases hr
    simp
  · cases hr

theorem length_lt_of_decode {limit : Nat} {buffer rest : Bytes} {p : Packet}
    (h : decode limit buffer = .ok (some (p, rest))) : rest.length < buffer.length := by
  unfold decode Header.parse at h
  cases hr : Header.read buffer with
  | none => simp only [hr, reduceCtorEq, Except.ok.injEq] at h
  | some pair =>
    obtain ⟨hd, tail⟩ := pair
    have hlen := length_of_read hr
    simp only [hr] at h
    by_cases small : hd.size.toNat < Message.headerSize
    · simp only [small, if_true, reduceCtorEq] at h
    · by_cases large : limit < hd.size.toNat
      · simp only [small, large, if_true, if_false, reduceCtorEq] at h
      · by_cases short : (tail.take hd.payloadSize).length < hd.payloadSize
        · simp only [small, large, short, if_true, if_false, Except.ok.injEq, reduceCtorEq] at h
        · simp only [small, large, short, if_false, Except.ok.injEq, Option.some.injEq,
            Prod.mk.injEq] at h
          rw [← h.2, List.length_drop]
          omega

inductive Stop
  | incomplete
  | refused (cause : MessageError)
  deriving DecidableEq

/-- All frames at the front of `buffer`, why there are no more, and the bytes left over. -/
def decodeAll (limit : Nat) (buffer : Bytes) : List Packet × Stop × Bytes :=
  match h : decode limit buffer with
  | .error e => ([], .refused e, buffer)
  | .ok none => ([], .incomplete, buffer)
  | .ok (some (p, rest)) =>
    have := length_lt_of_decode h
    let (packets, stop, left) := decodeAll limit rest
    (p :: packets, stop, left)
termination_by buffer.length

def encodeAll (packets : List Packet) : Bytes :=
  packets.flatMap encode

end Packet

end CportNode
