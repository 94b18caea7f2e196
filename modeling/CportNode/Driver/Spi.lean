import CportNode.Driver.Reaction

namespace CportNode.Spi

structure Descriptor where
  speed : UInt32
  size : Nat
  keepsSelect : Bool
  bitsPerWord : UInt8
  flags : UInt8
  deriving DecidableEq

inductive Request
  | version
  | master
  | device (chipSelect : UInt8)
  | nothing
  | transfer (settings : Settings) (segments : List Segment)
  deriving DecidableEq

namespace Descriptor

def reads (d : Descriptor) : Bool :=
  d.flags &&& 0x01 != 0

def writes (d : Descriptor) : Bool :=
  d.flags &&& 0x02 != 0

def wellFormed (bitsPerWord : UInt8) (d : Descriptor) : Bool :=
  d.flags != 0 && d.flags &&& ~~~0x03 == 0 && !(d.reads && d.size == 0) &&
    d.bitsPerWord == bitsPerWord && d.keepsSelect

def segment (d : Descriptor) (data : Bytes) : Segment where
  send := if d.writes then some (data.take d.size) else none
  receive := if d.reads then some (List.replicate d.size 0) else none

end Descriptor

def readDescriptors : Nat → Bytes → Option (List Descriptor × Bytes)
  | 0, body => some ([], body)
  | count + 1, s₀ :: s₁ :: s₂ :: s₃ :: l₀ :: l₁ :: l₂ :: l₃ :: _ :: _ :: change :: bits :: flags ::
      body => do
    let (descriptors, rest) ← readDescriptors count body
    let speed := Bytes.word32 (Bytes.word16 s₀ s₁) (Bytes.word16 s₂ s₃)
    let size := Bytes.word32 (Bytes.word16 l₀ l₁) (Bytes.word16 l₂ l₃)
    return (⟨speed, size.toNat, change == 0, bits, flags⟩ :: descriptors, rest)
  | _ + 1, _ => none

def segments : List Descriptor → Bytes → List Segment
  | [], _ => []
  | d :: descriptors, data =>
    d.segment data :: segments descriptors (if d.writes then data.drop d.size else data)

def writeTotal (descriptors : List Descriptor) : Nat :=
  (descriptors.filter (·.writes)).foldr (·.size + ·) 0

def readTotal (descriptors : List Descriptor) : Nat :=
  (descriptors.filter (·.reads)).foldr (·.size + ·) 0

def readTable (chipSelect mode : UInt8) (descriptors : List Descriptor) (data : Bytes) :
    Except Status Request :=
  match descriptors with
  | [] => .ok .nothing
  | first :: _ =>
    if !descriptors.all (·.wellFormed first.bitsPerWord) then .error .invalid
    else if data.length < writeTotal descriptors then .error .invalid
    else if Message.maxPayload < readTotal descriptors then .error .overflow
    else .ok (.transfer ⟨chipSelect, mode, first.bitsPerWord, first.speed⟩
      (segments descriptors data))

def Request.decode (kind : UInt8) (body : Bytes) : Except Status Request :=
  match kind.toNat, body with
  | 0x01, _ => .ok version
  | 0x02, _ => .ok master
  | 0x03, chipSelect :: _ => .ok (device chipSelect)
  | 0x04, chipSelect :: mode :: c₀ :: c₁ :: body => do
    let (descriptors, data) ← required (readDescriptors (Bytes.word16 c₀ c₁).toNat body)
    readTable chipSelect mode descriptors data
  | _, _ => .error .invalid

def Master.toBytes (m : Master) : Bytes :=
  Bytes.ofWord32 m.bitsPerWordMask ++ Bytes.ofWord32 m.minSpeed ++ Bytes.ofWord32 m.maxSpeed ++
    Bytes.ofWord16 m.mode ++ Bytes.ofWord16 m.flags ++ Bytes.ofWord16 m.chipSelects

def Device.toBytes (d : Device) : Bytes :=
  Bytes.ofWord16 d.mode ++ [d.bitsPerWord] ++ Bytes.ofWord32 d.maxSpeed ++ [d.kind] ++
    Bytes.padTo 32 (Bytes.ofText d.name)

def receivedData (buffers : List (Option Bytes)) : Bytes :=
  buffers.flatMap (·.getD [])

def Request.execute (r : Request) (b : Board) : Reaction × Board :=
  match r with
  | version => (.done [0, 1], b)
  | master => (.ofQuery Master.toBytes b.spiMaster, b)
  | device chipSelect => (.ofQuery Device.toBytes (b.spiDevice chipSelect), b)
  | nothing => (.done [], b)
  | transfer settings segments =>
    match b.spiTransceive settings segments with
    | .error e => (.refused e.status, b)
    | .ok (buffers, b) => (.done (receivedData buffers), b)

end CportNode.Spi
