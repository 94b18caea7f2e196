import CportNode.Link.Error
import CportNode.Message.OperationIds
import CportNode.Stream.Reader

namespace CportNode

structure Client where
  ids : OperationIds
  reader : Reader
  deriving DecidableEq

namespace Client

def fresh : Client := ⟨.start, .fresh Message.maxSize⟩

/-- A request ready to be sent.  Its id is used up even if the request is too large. -/
def compose (c : Client) (cport : UInt16) (kind : UInt8) (payload : Bytes) (oneShot : Bool) :
    Except LinkError Packet × Client :=
  let (id, ids) := Message.requestId oneShot c.ids
  let c := { c with ids }
  match Message.carrying kind id .success payload with
  | .ok m => (.ok ⟨cport, m⟩, c)
  | .error e => (.error (.message e), c)

def receive (c : Client) (source : Source) : Except LinkError Packet × Client × Source :=
  match c.reader.next source with
  | (.ok p, reader, source) => (.ok p, { c with reader }, source)
  | (.error e, reader, source) => (.error (.message e), { c with reader }, source)

def answers (request p : Packet) : Bool :=
  p.cport == request.cport && p.message.isResponse && p.message.id == request.message.id

/-- Reads until the answer to a request comes.  Packets that do not belong to it are skipped. -/
def await (c : Client) (request : Packet) (source : Source) :
    Except LinkError Message × Client × Source :=
  match _step : c.reader.next source with
  | (.error e, reader, source') => (.error (.message e), { c with reader }, source')
  | (.ok p, reader, source') =>
    if answers request p then (.ok p.message, { c with reader }, source')
    else await { c with reader } request source'
termination_by c.reader.buffer.length + source.weight
decreasing_by exact Reader.length_lt_of_next _step

end Client

end CportNode
