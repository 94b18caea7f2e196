import CportNode.Status
import CportNode.Message.Error
import CportNode.Message.OperationIds

namespace CportNode

structure Message where
  id : UInt16
  kind : UInt8
  result : UInt8
  payload : Bytes
  deriving DecidableEq

namespace Message

def headerSize : Nat := 8

def maxSize : Nat := 65535

def maxPayload : Nat := maxSize - headerSize

def responseFlag : UInt8 := 0x80

/-- The request that every bound cport answers without its driver. -/
def pingKind : UInt8 := 0x00

def size (m : Message) : Nat :=
  headerSize + m.payload.length

def isResponse (m : Message) : Bool :=
  m.kind &&& responseFlag != 0

def requestKind (m : Message) : UInt8 :=
  m.kind &&& ~~~responseFlag

/-- Id 0 asks for no answer. -/
def oneShot (m : Message) : Bool :=
  m.id == 0

def status (m : Message) : Status :=
  .ofCode m.result

def succeeded (m : Message) : Bool :=
  m.result == Status.success.code

def carrying (kind : UInt8) (id : UInt16) (status : Status) (payload : Bytes) :
    Except MessageError Message :=
  if payload.length ≤ maxPayload then .ok ⟨id, kind, status.code, payload⟩
  else .error (.payloadTooLarge payload.length maxPayload)

def zeroed (length : Nat) (kind : UInt8) (id : UInt16) (status : Status) :
    Except MessageError Message :=
  if length ≤ maxPayload then .ok ⟨id, kind, status.code, List.replicate length 0⟩
  else .error (.payloadTooLarge length maxPayload)

/-- The id of a request to be sent: 0 for a one-shot, else the next one drawn.  It is drawn before
the request is built, so a request that cannot be built uses one up. -/
def requestId (oneShot : Bool) (ids : OperationIds) : UInt16 × OperationIds :=
  if oneShot then (0, ids) else ids.draw

def response (request : Message) (status : Status) (payload : Bytes) :
    Except MessageError Message :=
  carrying (request.kind ||| responseFlag) request.id status payload

def emptyResponse (request : Message) (status : Status) : Except MessageError Message :=
  response request status []

def duplicate (m : Message) : Except MessageError Message :=
  (carrying m.kind m.id m.status m.payload).map fun copy => { copy with result := m.result }

def setByte (m : Message) (index : Nat) (byte : UInt8) : Message :=
  { m with payload := m.payload.set index byte }

def truncate (m : Message) (length : Nat) : Message :=
  { m with payload := m.payload.take length }

def summary (m : Message) : String :=
  let kind := Hex.byteText m.kind
  let result := Hex.byteText m.result
  s!"Message \x7b operation_id: {m.id.toNat}, op_type: {kind}, result: {result}, " ++
    s!"payload_len: {m.payload.length} \x7d"

end Message

structure Packet where
  cport : UInt16
  message : Message
  deriving DecidableEq

end CportNode
