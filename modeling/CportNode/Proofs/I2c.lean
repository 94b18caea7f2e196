import Mathlib.Data.List.Chain
import CportNode.Proofs.Answer
import CportNode.Proofs.Refusal

namespace CportNode

namespace I2c

structure Entry where
  address : UInt16
  flags : UInt16
  size : UInt16

namespace Entry

def encode (e : Entry) : Bytes :=
  Bytes.ofWord16 e.address ++ Bytes.ofWord16 e.flags ++ Bytes.ofWord16 e.size

def descriptor (e : Entry) : Descriptor :=
  ⟨e.address, e.flags &&& 1 != 0, e.size.toNat⟩

end Entry

@[simp] theorem readDescriptors_encode (entries : List Entry) (data : Bytes) :
    readDescriptors entries.length (entries.flatMap Entry.encode ++ data) =
      some (entries.map Entry.descriptor, data) := by
  induction entries with
  | nil => rfl
  | cons e entries ih =>
    simp only [List.flatMap_cons, Entry.encode, Bytes.ofWord16, List.cons_append, List.nil_append,
      List.length_cons, readDescriptors, ih, Bytes.word16_split]
    rfl

theorem exists_entries {count : Nat} {body : Bytes} (complete : 6 * count ≤ body.length) :
    ∃ entries data, entries.length = count ∧ body = List.flatMap Entry.encode entries ++ data := by
  induction count generalizing body with
  | zero => exact ⟨[], body, rfl, rfl⟩
  | succ count ih =>
    match body, complete with
    | a₀ :: a₁ :: f₀ :: f₁ :: s₀ :: s₁ :: body, complete =>
      have shorter : 6 * count ≤ body.length := by
        simp only [List.length_cons] at complete
        omega
      obtain ⟨entries, data, length, rfl⟩ := ih shorter
      refine ⟨⟨Bytes.word16 a₀ a₁, Bytes.word16 f₀ f₁, Bytes.word16 s₀ s₁⟩ :: entries, data,
        congrArg (· + 1) length, ?_⟩
      simp [Entry.encode]

/-- Each operation is that of its descriptor.  The writes take their data one after the other, each
as much as it declares; what is left over is taken by none. -/
inductive Sliced : List Descriptor → Bytes → List Operation → Prop
  | nil {data : Bytes} : Sliced [] data []
  | read {d : Descriptor} {ds : List Descriptor} {data : Bytes} {ops : List Operation} :
      d.reads = true → Sliced ds data ops →
      Sliced (d :: ds) data (⟨d.address, .read d.size⟩ :: ops)
  | write {d : Descriptor} {ds : List Descriptor} {slice data : Bytes} {ops : List Operation} :
      d.reads = false → slice.length = d.size → Sliced ds data ops →
      Sliced (d :: ds) (slice ++ data) (⟨d.address, .write slice⟩ :: ops)

@[simp] theorem writeTotal_cons (d : Descriptor) (ds : List Descriptor) :
    writeTotal (d :: ds) = (if d.reads then 0 else d.size) + writeTotal ds := by
  cases kind : d.reads <;> simp [writeTotal, kind]

@[simp] theorem readTotal_cons (d : Descriptor) (ds : List Descriptor) :
    readTotal (d :: ds) = (if d.reads then d.size else 0) + readTotal ds := by
  cases kind : d.reads <;> simp [readTotal, kind]

theorem sliced_operations {ds : List Descriptor} {data : Bytes}
    (enough : writeTotal ds ≤ data.length) : Sliced ds data (operations ds data) := by
  induction ds generalizing data with
  | nil => exact .nil
  | cons d ds ih =>
    rw [writeTotal_cons] at enough
    cases kind : d.reads with
    | true =>
      rw [if_pos kind, Nat.zero_add] at enough
      rw [operations, if_pos kind]
      exact .read kind (ih enough)
    | false =>
      have writes : ¬ d.reads = true := by simp [kind]
      rw [if_neg writes] at enough
      rw [operations, if_neg writes]
      have rest : Sliced ds (data.drop d.size) (operations ds (data.drop d.size)) :=
        ih (by rw [List.length_drop]; omega)
      have slice : (data.take d.size).length = d.size := by
        rw [List.length_take]
        omega
      have taken := Sliced.write kind slice rest
      rwa [List.take_append_drop] at taken

def Operation.readSize (op : Operation) : Nat :=
  match op.leg with
  | .read size => size
  | .write _ => 0

theorem Sliced.readSize {ds : List Descriptor} {data : Bytes} {ops : List Operation}
    (h : Sliced ds data ops) : ops.foldr (·.readSize + ·) 0 = readTotal ds := by
  induction h with
  | nil => rfl
  | read kind _ ih =>
    rw [List.foldr_cons, ih, readTotal_cons, if_pos kind]
    rfl
  | write kind _ _ ih =>
    rw [List.foldr_cons, ih, readTotal_cons, if_neg (by simp [kind])]
    rfl

/-- The operations one by one, on stores of plain bytes, as far as something answers: what they read,
unless one found nobody, and the stores after them. -/
def interpret (absent : UInt16 → Bool) :
    List Operation → (UInt16 → Bytes) → Option Bytes × (UInt16 → Bytes)
  | [], stores => (some [], stores)
  | op :: ops, stores =>
    if absent op.address then (none, stores)
    else
      match op.leg with
      | .read size =>
        let (data, final) := interpret absent ops stores
        (data.map (Bytes.padTo size (stores op.address) ++ ·), final)
      | .write data =>
        interpret absent ops (Function.update stores op.address (stores op.address ++ data))

theorem length_interpret {absent : UInt16 → Bool} {ops : List Operation}
    {stores : UInt16 → Bytes} {data : Bytes} (h : (interpret absent ops stores).1 = some data) :
    data.length = ops.foldr (·.readSize + ·) 0 := by
  induction ops generalizing stores data with
  | nil =>
    cases h
    rfl
  | cons op ops ih =>
    obtain ⟨address, leg⟩ := op
    rw [interpret] at h
    split at h
    · cases h
    · cases leg with
      | read size =>
        obtain ⟨rest, found, rfl⟩ := Option.map_eq_some_iff.mp h
        rw [List.length_append, Bytes.length_padTo, ih found]
        rfl
      | write written => simpa [Operation.readSize] using ih h

/-- Operations grouped into the longest runs on one address. -/
structure Runs (ops : List Operation) (runs : List (UInt16 × List Leg)) : Prop where
  whole : runs.flatMap (fun run => run.2.map (Operation.mk run.1)) = ops
  nonempty : ∀ run ∈ runs, run.2 ≠ []
  longest : runs.IsChain fun run next => run.1 ≠ next.1

inductive Grouped (op : Operation) : List (UInt16 × List Leg) → List (UInt16 × List Leg) → Prop
  | joins {legs : List Leg} {rest : List (UInt16 × List Leg)} :
      Grouped op ((op.address, legs) :: rest) ((op.address, op.leg :: legs) :: rest)
  | starts {runs : List (UInt16 × List Leg)} : (∀ run ∈ runs.head?, op.address ≠ run.1) →
      Grouped op runs ((op.address, [op.leg]) :: runs)

theorem grouped_transactions (op : Operation) (ops : List Operation) :
    Grouped op (transactions ops) (transactions (op :: ops)) := by
  rw [transactions]
  split
  · rename_i none
    rw [none]
    exact .starts fun run mem => nomatch mem
  · rename_i address legs rest first
    rw [first]
    split
    · rename_i same
      subst same
      exact .joins
    · rename_i other
      refine .starts fun run mem => ?_
      cases mem
      exact other

theorem runs_transactions (ops : List Operation) : Runs ops (transactions ops) := by
  induction ops with
  | nil => exact ⟨rfl, fun run mem => (nomatch mem), .nil⟩
  | cons op ops ih =>
    have grouped := grouped_transactions op ops
    generalize transactions ops = before at grouped ih
    generalize transactions (op :: ops) = runs at grouped
    cases grouped with
    | @joins legs rest =>
      refine ⟨?_, ?_, ?_⟩
      · rw [← ih.whole]
        rfl
      · intro run mem
        rcases List.mem_cons.mp mem with rfl | later
        · exact List.cons_ne_nil _ _
        · exact ih.nonempty run (List.mem_cons_of_mem _ later)
      · have longest := ih.longest
        rw [List.isChain_cons] at longest ⊢
        exact longest
    | starts other =>
      refine ⟨?_, ?_, ?_⟩
      · rw [List.flatMap_cons, ih.whole]
        rfl
      · intro run mem
        rcases List.mem_cons.mp mem with rfl | later
        · exact List.cons_ne_nil _ _
        · exact ih.nonempty run later
      · rw [List.isChain_cons]
        exact ⟨other, ih.longest⟩

def Leg.reads : Leg → Bytes → Bytes
  | .read length, contents => Bytes.padTo length contents
  | .write _, _ => []

def Leg.after : Leg → ByteQueue → ByteQueue
  | .read length, store => store.reaching length
  | .write data, store => store.append data

namespace Bus

def perform (b : Bus) : List (UInt16 × List Leg) → Except DriverError Bytes × Bus
  | [] => (.ok [], b)
  | (address, legs) :: rest =>
    match b.transfer address legs with
    | .error e => (.error e, b)
    | .ok (buffers, b) =>
      let (data, b) := b.perform rest
      (data.map (buffers.flatten ++ ·), b)

theorem runLegs_cons (leg : Leg) (legs : List Leg) (store : ByteQueue) :
    (runLegs (leg :: legs) store).1.flatten =
        leg.reads store.toBytes ++ (runLegs legs (leg.after store)).1.flatten ∧
      (runLegs (leg :: legs) store).2 = (runLegs legs (leg.after store)).2 := by
  cases leg with
  | write data => exact ⟨rfl, rfl⟩
  | read length =>
    simp [runLegs, Leg.reads, Leg.after]

@[simp] theorem setStore_setStore (b : Bus) (a : UInt16) (store store' : ByteQueue) :
    (b.setStore a store).setStore a store' = b.setStore a store' := by
  simp only [setStore]
  congr 1
  funext x
  split <;> rfl

@[simp] theorem setStore_self (b : Bus) (a : UInt16) : b.setStore a (b.store a) = b := by
  simp only [setStore]
  congr 1
  funext x
  split
  · rename_i same
    rw [same]
  · rfl

@[simp] theorem contents_setStore (b : Bus) (a : UInt16) (store : ByteQueue) :
    (b.setStore a store).contents = Function.update b.contents a store.toBytes := by
  funext x
  by_cases same : x = a
  · subst same
    simp [contents, setStore]
  · simp only [contents, setStore, if_neg same, Function.update_of_ne same]

variable {b : Bus} {a : UInt16} {rest : List (UInt16 × List Leg)}

theorem perform_absent (absent : b.absent a = true) (legs : List Leg) :
    b.perform ((a, legs) :: rest) = (.error .noDevice, b) := by
  rw [perform, transfer, if_pos absent]

theorem perform_present (present : b.absent a = false) (legs : List Leg) :
    b.perform ((a, legs) :: rest) =
      let later := { b.setStore a (runLegs legs (b.store a)).2 with
        transactions := b.transactions ++ [a] }.perform rest
      (later.1.map ((runLegs legs (b.store a)).1.flatten ++ ·), later.2) := by
  rw [perform, transfer, if_neg (by simp [present])]

theorem perform_cons_leg (present : b.absent a = false) (leg : Leg) (legs : List Leg) :
    b.perform ((a, leg :: legs) :: rest) =
      let result := (b.setStore a (leg.after (b.store a))).perform ((a, legs) :: rest)
      (result.1.map (leg.reads (b.contents a) ++ ·), result.2) := by
  obtain ⟨buffers, store⟩ := runLegs_cons leg legs (b.store a)
  have here : (b.setStore a (leg.after (b.store a))).store a = leg.after (b.store a) := if_pos rfl
  have present' : (b.setStore a (leg.after (b.store a))).absent a = false := present
  have trace : (b.setStore a (leg.after (b.store a))).transactions = b.transactions := rfl
  simp only [perform_present present, perform_present present', here, trace, store, buffers,
    setStore_setStore]
  generalize Bus.perform _ rest = result
  obtain ⟨data, b'⟩ := result
  cases data with
  | error e => rfl
  | ok data => simp [Except.map, contents]

theorem perform_no_legs (present : b.absent a = false) :
    b.perform ((a, []) :: rest) =
      { b with transactions := b.transactions ++ [a] }.perform rest := by
  simp only [perform, transfer, present, Bool.false_eq_true, if_false, runLegs, setStore_self]
  generalize Bus.perform _ rest = result
  obtain ⟨data, b'⟩ := result
  cases data <;> rfl

/-- What transactions come to is what was told of them, and their trace ends where nobody
answers. -/
structure Refines (b : Bus) (runs : List (UInt16 × List Leg))
    (told : Option Bytes × (UInt16 → Bytes)) (result : Except DriverError Bytes × Bus) : Prop where
  data : result.1 = told.1.elim (.error .noDevice) .ok
  contents : result.2.contents = told.2
  absent : result.2.absent = b.absent
  trace : result.2.transactions =
    b.transactions ++ (runs.map Prod.fst).takeWhile fun address => !b.absent address

theorem Refines.no_legs {told : Option Bytes × (UInt16 → Bytes)} (present : b.absent a = false)
    (h : Refines { b with transactions := b.transactions ++ [a] } rest told
      ({ b with transactions := b.transactions ++ [a] }.perform rest)) :
    Refines b ((a, []) :: rest) told (b.perform ((a, []) :: rest)) := by
  rw [perform_no_legs present]
  refine ⟨h.data, h.contents, h.absent, ?_⟩
  rw [h.trace, List.map_cons, List.takeWhile_cons_of_pos (by simp [present]), List.append_assoc]
  rfl

theorem Refines.cons {legs : List Leg} {ops : List Operation} (present : b.absent a = false)
    (leg : Leg)
    (h : Refines (b.setStore a (leg.after (b.store a))) ((a, legs) :: rest)
      (interpret b.absent ops (b.setStore a (leg.after (b.store a))).contents)
      ((b.setStore a (leg.after (b.store a))).perform ((a, legs) :: rest))) :
    Refines b ((a, leg :: legs) :: rest) (interpret b.absent (⟨a, leg⟩ :: ops) b.contents)
      (b.perform ((a, leg :: legs) :: rest)) := by
  have told : interpret b.absent (⟨a, leg⟩ :: ops) b.contents =
      let later := interpret b.absent ops (b.setStore a (leg.after (b.store a))).contents
      (later.1.map (leg.reads (b.contents a) ++ ·), later.2) := by
    have here : (b.store a).toBytes = b.contents a := rfl
    rw [interpret, contents_setStore, if_neg (by simp [present])]
    cases leg with
    | read length =>
      rw [Leg.after, ByteQueue.toBytes_reaching, here, Function.update_eq_self]
      rfl
    | write data =>
      rw [Leg.after, ByteQueue.toBytes_append, here]
      simp [Leg.reads]
  rw [told, perform_cons_leg present]
  refine ⟨?_, h.contents, h.absent, h.trace⟩
  simp only [h.data]
  generalize (interpret b.absent ops _).1 = data
  cases data <;> rfl

end Bus

open Bus (Refines)

theorem refines_transactions (b : Bus) (ops : List Operation) :
    Refines b (transactions ops) (interpret b.absent ops b.contents)
      (b.perform (transactions ops)) := by
  induction ops generalizing b with
  | nil => exact ⟨rfl, rfl, rfl, (List.append_nil _).symm⟩
  | cons op ops ih =>
    obtain ⟨a, leg⟩ := op
    have grouped := grouped_transactions ⟨a, leg⟩ ops
    cases answers : b.absent a with
    | true =>
      have stopped (legs : List Leg) (rest : List (UInt16 × List Leg)) :
          Refines b ((a, legs) :: rest) (interpret b.absent (⟨a, leg⟩ :: ops) b.contents)
            (b.perform ((a, legs) :: rest)) := by
        rw [Bus.perform_absent answers, interpret, if_pos answers]
        refine ⟨rfl, rfl, rfl, ?_⟩
        rw [List.map_cons, List.takeWhile_cons_of_neg (by simp [answers]), List.append_nil]
      generalize transactions ops = before at grouped
      generalize transactions (⟨a, leg⟩ :: ops) = runs at grouped
      cases grouped with
      | joins => exact stopped _ _
      | starts => exact stopped _ _
    | false =>
      -- The operation joins the first run of the others, or is a run of its own before them, which
      -- then has left its trace by the time of the others.
      have later := ih (b.setStore a (leg.after (b.store a)))
      have later' := ih { b.setStore a (leg.after (b.store a)) with
        transactions := b.transactions ++ [a] }
      generalize transactions ops = before at grouped later later'
      generalize transactions (⟨a, leg⟩ :: ops) = runs at grouped
      cases grouped with
      | joins => exact .cons answers leg later
      | starts => exact .cons answers leg (.no_legs answers later')

theorem perform_eq {b : Board} (free : b.obstacle? .i2cTransfer = none)
    (runs : List (UInt16 × List Leg)) :
    perform b runs = ((b.i2c.perform runs).1, { b with i2c := (b.i2c.perform runs).2 }) := by
  induction runs generalizing b with
  | nil => rfl
  | cons run rest ih =>
    obtain ⟨address, legs⟩ := run
    simp only [perform, Bus.perform, Board.i2cTransfer, Board.guarded_of_free free]
    cases b.i2c.transfer address legs with
    | error e => rfl
    | ok outcome =>
      obtain ⟨buffers, bus⟩ := outcome
      have later := ih (b := { b with i2c := bus }) free
      simp only [Except.map, later]

theorem readTransfer_of_complete {count : UInt16} {payload body data : Bytes}
    {ds : List Descriptor} (header : Bytes.takeWord16 payload = some (count, body))
    (table : readDescriptors count.toNat body = some (ds, data))
    (enough : writeTotal ds ≤ data.length) (fits : readTotal ds ≤ Message.maxPayload) :
    readTransfer payload = .ok (.transfer (operations ds data)) := by
  simp only [readTransfer, header, required, Except.bind, bind, table,
    if_neg (Nat.not_lt.mpr enough), if_neg (Nat.not_lt.mpr fits)]

end I2c

namespace Node

open I2c

/-- A transfer with a whole table, as much data as it writes, and no more to read than one answer
holds; any body that is long enough for its table is of this form (`exists_entries`).  The writes
take their slices off the data, each as much as it declares.  The bus carries out one transaction
for each longest run on one address, and comes to what the operations come to one by one: it has
read the same, leaves the same in the stores, and stops at the first address where nothing answers;
its trace is the addresses of the runs up to there.  The host is answered with what was read, or
with the failure. -/
theorem transfer_eq_interpret {n : Node} {p : Packet} {count : UInt16} {entries : List Entry}
    {data : Bytes} (free : n.board.obstacle? .i2cTransfer = none) (kind : p.message.kind = 0x05)
    (header : Bytes.takeWord16 p.message.payload =
      some (count, entries.flatMap Entry.encode ++ data))
    (complete : entries.length = count.toNat)
    (enough : writeTotal (entries.map Entry.descriptor) ≤ data.length)
    (fits : readTotal (entries.map Entry.descriptor) ≤ Message.maxPayload) :
    let ops := operations (entries.map Entry.descriptor) data
    let runs := transactions ops
    let bus := n.board.i2c
    let told := interpret bus.absent ops bus.contents
    Sliced (entries.map Entry.descriptor) data ops ∧ Runs ops runs ∧
      Bus.Refines bus runs told (bus.perform runs) ∧
      n.carryOut p.cport .i2c p.message.kind p.message.payload =
        (told.1.elim (.refused DriverError.noDevice.status) .done,
          { n with board := { n.board with i2c := (bus.perform runs).2 } }) ∧
      (n.link.Open → n.registry.requireRange p.cport = .ok () →
        n.link.Sends
          (answers p (told.1.elim DriverError.noDevice.status fun _ => .success) (told.1.getD []))
          (n.handle .i2c p).link) := by
  have table := readDescriptors_encode entries data
  rw [complete] at table
  have decoded : I2c.Request.decode p.message.kind p.message.payload =
      .ok (.transfer (operations (entries.map Entry.descriptor) data)) := by
    rw [kind]
    exact readTransfer_of_complete header table enough fits
  have sliced := sliced_operations enough
  intro ops
  change I2c.Request.decode _ _ = .ok (.transfer ops) at decoded
  change Sliced _ _ ops at sliced
  clear_value ops
  have refines := refines_transactions n.board.i2c ops
  have carried : n.carryOut p.cport .i2c p.message.kind p.message.payload =
      ((interpret n.board.i2c.absent ops n.board.i2c.contents).1.elim
          (.refused DriverError.noDevice.status) .done,
        { n with board :=
          { n.board with i2c := (n.board.i2c.perform (transactions ops)).2 } }) := by
    simp only [carryOut, decoded, onBoard, I2c.Request.execute, perform_eq free, refines.data]
    cases (interpret n.board.i2c.absent ops n.board.i2c.contents).1 <;> rfl
  refine ⟨sliced, runs_transactions ops, refines, carried, fun ready inRange =>
    handle_replies rfl carried ?_ ?_ inRange ready⟩
  · cases (interpret n.board.i2c.absent ops n.board.i2c.contents).1 with
    | none => exact .refused
    | some read => exact .done
  · cases read : (interpret n.board.i2c.absent ops n.board.i2c.contents).1 with
    | none => exact Nat.zero_le _
    | some bytes =>
      rw [Option.getD_some, length_interpret read, sliced.readSize]
      exact fits

def scanning : Node :=
  ofParts ⟨[⟨1, .i2c⟩], 1, "worker", none, none⟩
    { Board.fresh with i2c := Bus.fresh.remove 0x51 } (.memory .fresh)

def probe : List Entry := [⟨0x50, 0, 2⟩, ⟨0x50, 1, 2⟩, ⟨0x51, 1, 1⟩]

def probing : Packet :=
  ⟨0, ⟨7, 0x05, 0, Bytes.ofWord16 3 ++ (probe.flatMap Entry.encode ++ [1, 2, 9])⟩⟩

theorem probing_stops_at_absent :
    let result := scanning.carryOut probing.cport .i2c probing.message.kind probing.message.payload
    result.1 = .refused DriverError.noDevice.status ∧
      result.2.board.i2c.contents 0x50 = [1, 2] ∧ result.2.board.i2c.transactions = [0x50] ∧
      scanning.link.Sends (answers probing DriverError.noDevice.status [])
        (scanning.handle .i2c probing).link := by
  obtain ⟨-, -, refines, carried, replies⟩ := @transfer_eq_interpret scanning probing 3 probe
    [1, 2, 9] rfl rfl rfl rfl (by decide) (by decide)
  have accepts : scanning.link.Open := fun p => ⟨_, rfl⟩
  rw [carried]
  exact ⟨rfl, (congrFun refines.contents 0x50).trans rfl, refines.trace.trans rfl,
    replies accepts rfl⟩

end Node

end CportNode
