import CportNode.Bytes

namespace CportNode

structure ByteQueue where
  front : Bytes
  pieces : List Bytes
  deriving DecidableEq

namespace ByteQueue

def empty : ByteQueue := ⟨[], []⟩

def ofBytes (bytes : Bytes) : ByteQueue := ⟨bytes, []⟩

def toBytes (q : ByteQueue) : Bytes :=
  q.front ++ q.pieces.reverse.flatten

def isEmpty (q : ByteQueue) : Bool :=
  q.front.isEmpty && q.pieces.all (·.isEmpty)

def append (q : ByteQueue) (data : Bytes) : ByteQueue :=
  { q with pieces := data :: q.pieces }

/-- The same bytes, as many as `count` of them in front if there are so many. -/
def reaching (count : Nat) (q : ByteQueue) : ByteQueue :=
  if q.pieces.isEmpty || (q.front.take count).length == count then q else ofBytes q.toBytes

def read (q : ByteQueue) (most : Nat) : Bytes × ByteQueue :=
  let q := q.reaching most
  (q.front.take most, { q with front := q.front.drop most })

@[simp] theorem toBytes_empty : empty.toBytes = [] := rfl

@[simp] theorem toBytes_ofBytes (bytes : Bytes) : (ofBytes bytes).toBytes = bytes :=
  List.append_nil bytes

@[simp] theorem toBytes_append (q : ByteQueue) (data : Bytes) :
    (q.append data).toBytes = q.toBytes ++ data := by
  simp [toBytes, append]

@[simp] theorem isEmpty_iff {q : ByteQueue} : q.isEmpty = true ↔ q.toBytes = [] := by
  simp [isEmpty, toBytes]

@[simp] theorem toBytes_reaching (count : Nat) (q : ByteQueue) :
    (q.reaching count).toBytes = q.toBytes := by
  unfold reaching
  split
  · rfl
  · exact toBytes_ofBytes _

theorem reaching_cases (count : Nat) (q : ByteQueue) :
    (q.reaching count).pieces = [] ∨ count ≤ (q.reaching count).front.length := by
  unfold reaching
  split
  · rename_i enough
    rw [Bool.or_eq_true, List.isEmpty_iff, beq_iff_eq, List.length_take] at enough
    exact enough.imp_right fun enough => by omega
  · exact .inl rfl

@[simp] theorem take_front_reaching (count : Nat) (q : ByteQueue) :
    (q.reaching count).front.take count = q.toBytes.take count := by
  rw [← toBytes_reaching count q, toBytes]
  rcases reaching_cases count q with all | enough
  · rw [all, List.reverse_nil, List.flatten_nil, List.append_nil]
  · rw [List.take_append_of_le_length enough]

@[simp] theorem read_fst (q : ByteQueue) (most : Nat) : (q.read most).1 = q.toBytes.take most :=
  take_front_reaching most q

@[simp] theorem toBytes_read_snd (q : ByteQueue) (most : Nat) :
    (q.read most).2.toBytes = q.toBytes.drop most := by
  rw [← toBytes_reaching most q, read, toBytes, toBytes]
  rcases reaching_cases most q with all | enough
  · simp [all]
  · simp only [List.drop_append_of_le_length enough]

@[simp] theorem padTo_front_reaching (width : Nat) (q : ByteQueue) :
    Bytes.padTo width (q.reaching width).front = Bytes.padTo width q.toBytes := by
  simp [Bytes.padTo]

end ByteQueue

end CportNode
