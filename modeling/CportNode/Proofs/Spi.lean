import CportNode.Proofs.Answer
import CportNode.Proofs.Refusal

namespace CportNode

namespace Spi

structure Entry where
  speed : UInt32
  size : UInt32
  delay : UInt16
  change : UInt8
  bitsPerWord : UInt8
  flags : UInt8

namespace Entry

def encode (e : Entry) : Bytes :=
  Bytes.ofWord32 e.speed ++ Bytes.ofWord32 e.size ++ Bytes.ofWord16 e.delay ++
    [e.change, e.bitsPerWord, e.flags]

def descriptor (e : Entry) : Descriptor :=
  ⟨e.speed, e.size.toNat, e.change == 0, e.bitsPerWord, e.flags⟩

/-- A row that can be carried out, in a table whose first row has these bits per word. -/
structure Sound (bitsPerWord : UInt8) (e : Entry) : Prop where
  flagged : e.flags ≠ 0
  known : e.flags &&& ~~~0x03 = 0
  reading : e.flags &&& 0x01 ≠ 0 → e.size ≠ 0
  alike : e.bitsPerWord = bitsPerWord
  keeps : e.change = 0

theorem Sound.writes {bitsPerWord : UInt8} {e : Entry} (sound : e.Sound bitsPerWord)
    (deaf : e.flags &&& 0x01 = 0) : e.flags &&& 0x02 ≠ 0 := by
  have distrib (a b : UInt8) : e.flags &&& (a ||| b) = e.flags &&& a ||| e.flags &&& b :=
    UInt8.toBitVec_inj.mp BitVec.and_or_distrib_left
  intro silent
  apply sound.flagged
  calc e.flags
      = e.flags &&& ((0x01 ||| 0x02) ||| ~~~0x03) := UInt8.and_neg_one.symm
    _ = e.flags &&& 0x01 ||| e.flags &&& 0x02 ||| e.flags &&& ~~~0x03 := by
      rw [distrib, distrib]
    _ = 0 := by
      rw [deaf, silent, sound.known]
      rfl

@[simp] theorem wellFormed_iff {bitsPerWord : UInt8} {e : Entry} :
    e.descriptor.wellFormed bitsPerWord = true ↔ e.Sound bitsPerWord := by
  have size : e.size.toNat = 0 ↔ e.size = 0 := UInt32.toNat_inj (b := 0)
  simp only [Descriptor.wellFormed, Descriptor.reads, descriptor, Bool.and_eq_true, bne_iff_ne,
    beq_iff_eq, Bool.not_eq_true', Bool.and_eq_false_iff, bne_eq_false_iff_eq, beq_eq_false_iff_ne,
    ne_eq, size]
  constructor
  · rintro ⟨⟨⟨⟨flagged, known⟩, reading⟩, alike⟩, keeps⟩
    exact ⟨flagged, known, reading.resolve_left, alike, keeps⟩
  · rintro ⟨flagged, known, reading, alike, keeps⟩
    exact ⟨⟨⟨⟨flagged, known⟩, Decidable.or_iff_not_imp_left.mpr reading⟩, alike⟩, keeps⟩

theorem all_wellFormed_iff {bitsPerWord : UInt8} {entries : List Entry} :
    (entries.map descriptor).all (·.wellFormed bitsPerWord) = true ↔
      ∀ e ∈ entries, e.Sound bitsPerWord := by
  simp [wellFormed_iff]

theorem all_sound_or (bitsPerWord : UInt8) (entries : List Entry) :
    (∀ e ∈ entries, e.Sound bitsPerWord) ∨ ∃ e ∈ entries, ¬ e.Sound bitsPerWord :=
  Classical.or_iff_not_imp_right.mpr fun none e mem =>
    Classical.byContradiction fun unsound => none ⟨e, mem, unsound⟩

end Entry

structure Table (count : UInt16) (body : Bytes) (entries : List Entry) (data : Bytes) : Prop where
  complete : entries.length = count.toNat
  whole : body = entries.flatMap Entry.encode ++ data

@[simp] theorem readDescriptors_encode (entries : List Entry) (data : Bytes) :
    readDescriptors entries.length (entries.flatMap Entry.encode ++ data) =
      some (entries.map Entry.descriptor, data) := by
  induction entries with
  | nil => rfl
  | cons e entries ih =>
    simp only [List.flatMap_cons, Entry.encode, Bytes.ofWord32, Bytes.ofWord16, List.cons_append,
      List.nil_append, List.length_cons, readDescriptors, ih, Bytes.word16_split,
      Bytes.word32_split]
    rfl

theorem Table.readDescriptors {count : UInt16} {body data : Bytes} {entries : List Entry}
    (h : Table count body entries data) :
    readDescriptors count.toNat body = some (entries.map Entry.descriptor, data) := by
  simp [h.whole, ← h.complete]

theorem readDescriptors_short {count : Nat} {body : Bytes} (short : body.length < 13 * count) :
    readDescriptors count body = none := by
  induction count, body using readDescriptors.induct with
  | case1 body => omega
  | case2 count s₀ s₁ s₂ s₃ l₀ l₁ l₂ l₃ d₀ d₁ change bits flags body ih =>
    have shorter : body.length < 13 * count := by
      simp only [List.length_cons] at short
      omega
    rw [Spi.readDescriptors, ih shorter]
    rfl
  | case3 count body few => rw [Spi.readDescriptors]; exact few

theorem exists_table {count : UInt16} {body : Bytes} (long : 13 * count.toNat ≤ body.length) :
    ∃ entries data, Table count body entries data := by
  suffices ∀ (count : Nat) (body : Bytes), 13 * count ≤ body.length → ∃ entries data,
      entries.length = count ∧ body = List.flatMap Entry.encode entries ++ data by
    obtain ⟨entries, data, complete, whole⟩ := this count.toNat body long
    exact ⟨entries, data, complete, whole⟩
  intro count
  induction count with
  | zero => exact fun body _ => ⟨[], body, rfl, rfl⟩
  | succ count ih =>
    intro body long
    match body, long with
    | s₀ :: s₁ :: s₂ :: s₃ :: l₀ :: l₁ :: l₂ :: l₃ :: d₀ :: d₁ :: change :: bits :: flags :: body,
        long =>
      have shorter : 13 * count ≤ body.length := by
        simp only [List.length_cons] at long
        omega
      obtain ⟨entries, data, length, rfl⟩ := ih body shorter
      refine ⟨⟨Bytes.word32 (Bytes.word16 s₀ s₁) (Bytes.word16 s₂ s₃),
        Bytes.word32 (Bytes.word16 l₀ l₁) (Bytes.word16 l₂ l₃), Bytes.word16 d₀ d₁, change, bits,
        flags⟩ :: entries, data, congrArg (· + 1) length, ?_⟩
      simp [Entry.encode]

def Segment.echo : Segment → Bytes
  | ⟨_, none⟩ => []
  | ⟨none, some buffer⟩ => Controller.ramp buffer.length
  | ⟨some data, some _⟩ => data

/-- A row with its slice of the data, as much as it declares if it writes, and its segment, which has
a buffer of the declared length if it reads. -/
inductive Cut (e : Entry) : Bytes → Segment → Prop
  | read : e.flags &&& 0x01 ≠ 0 → e.flags &&& 0x02 = 0 →
      Cut e [] ⟨none, some (List.replicate e.size.toNat 0)⟩
  | write {slice : Bytes} : e.flags &&& 0x01 = 0 → e.flags &&& 0x02 ≠ 0 →
      slice.length = e.size.toNat → Cut e slice ⟨some slice, none⟩
  | duplex {slice : Bytes} : e.flags &&& 0x01 ≠ 0 → e.flags &&& 0x02 ≠ 0 →
      slice.length = e.size.toNat →
      Cut e slice ⟨some slice, some (List.replicate e.size.toNat 0)⟩

/-- The rows take their slices one after the other; what is left over is taken by none. -/
inductive Sliced : List Entry → Bytes → List Segment → Prop
  | nil {data : Bytes} : Sliced [] data []
  | cons {e : Entry} {entries : List Entry} {slice data : Bytes} {segment : Segment}
      {segments : List Segment} : Cut e slice segment → Sliced entries data segments →
      Sliced (e :: entries) (slice ++ data) (segment :: segments)

@[simp] theorem writeTotal_cons (d : Descriptor) (ds : List Descriptor) :
    writeTotal (d :: ds) = (if d.writes then d.size else 0) + writeTotal ds := by
  cases kind : d.writes <;> simp [writeTotal, kind]

@[simp] theorem readTotal_cons (d : Descriptor) (ds : List Descriptor) :
    readTotal (d :: ds) = (if d.reads then d.size else 0) + readTotal ds := by
  cases kind : d.reads <;> simp [readTotal, kind]

namespace Cut

variable {e : Entry} {slice data : Bytes} {segment : Segment}

theorem length_slice (h : Cut e slice segment) :
    slice.length = if e.descriptor.writes then e.descriptor.size else 0 := by
  cases h with
  | read _ silent => simp [Descriptor.writes, Entry.descriptor, silent]
  | write _ writes length => simp [Descriptor.writes, Entry.descriptor, writes, length]
  | duplex _ writes length => simp [Descriptor.writes, Entry.descriptor, writes, length]

theorem received (h : Cut e slice segment) :
    (Controller.received segment).getD [] = segment.echo := by
  cases h with
  | read => rfl
  | write => rfl
  | duplex _ _ length =>
    simp [Controller.received, Segment.echo, ← length]

theorem length_echo (h : Cut e slice segment) :
    segment.echo.length = if e.descriptor.reads then e.descriptor.size else 0 := by
  cases h with
  | read reads =>
    simp [Segment.echo, Controller.ramp, Descriptor.reads, Entry.descriptor, reads]
  | write deaf => simp [Segment.echo, Descriptor.reads, Entry.descriptor, deaf]
  | duplex reads _ length =>
    simp [Segment.echo, Descriptor.reads, Entry.descriptor, reads, length]

theorem segment_append (h : Cut e slice segment) (data : Bytes) :
    e.descriptor.segment (slice ++ data) = segment := by
  cases h with
  | read reads silent =>
    simp [Descriptor.segment, Descriptor.reads, Descriptor.writes, Entry.descriptor, reads, silent]
  | write deaf writes length =>
    simp [Descriptor.segment, Descriptor.reads, Descriptor.writes, Entry.descriptor, deaf, writes,
      ← length]
  | duplex reads writes length =>
    simp [Descriptor.segment, Descriptor.reads, Descriptor.writes, Entry.descriptor, reads, writes,
      ← length]

theorem of_sound {bitsPerWord : UInt8} (sound : e.Sound bitsPerWord)
    (enough : (if e.descriptor.writes then e.descriptor.size else 0) ≤ data.length) :
    ∃ slice rest, slice ++ rest = data ∧ Cut e slice (e.descriptor.segment data) := by
  cases writes : e.descriptor.writes with
  | false =>
    have silent : e.flags &&& 0x02 = 0 := bne_eq_false_iff_eq.mp writes
    have receives : e.flags &&& 0x01 ≠ 0 := fun deaf => sound.writes deaf silent
    have reads : e.descriptor.reads = true := bne_iff_ne.mpr receives
    refine ⟨[], data, rfl, ?_⟩
    rw [Descriptor.segment, if_neg (by simp [writes]), if_pos reads]
    exact .read receives silent
  | true =>
    have sends : e.flags &&& 0x02 ≠ 0 := bne_iff_ne.mp writes
    rw [writes, if_pos rfl] at enough
    have length : (data.take e.descriptor.size).length = e.descriptor.size := by
      rw [List.length_take, Nat.min_eq_left enough]
    refine ⟨data.take e.descriptor.size, data.drop e.descriptor.size, List.take_append_drop _ _, ?_⟩
    rw [Descriptor.segment, if_pos writes]
    cases reads : e.descriptor.reads with
    | false => exact .write (bne_eq_false_iff_eq.mp reads) sends length
    | true => exact .duplex (bne_iff_ne.mp reads) sends length

end Cut

namespace Sliced

variable {entries : List Entry} {data : Bytes} {segments : List Segment}

theorem of_sound {bitsPerWord : UInt8} (sound : ∀ e ∈ entries, e.Sound bitsPerWord)
    (enough : writeTotal (entries.map Entry.descriptor) ≤ data.length) :
    ∃ segments, Sliced entries data segments := by
  induction entries generalizing data with
  | nil => exact ⟨[], .nil⟩
  | cons e entries ih =>
    rw [List.map_cons, writeTotal_cons] at enough
    obtain ⟨slice, rest, rfl, cut⟩ :=
      Cut.of_sound (sound e List.mem_cons_self) (Nat.le_of_add_right_le enough)
    rw [List.length_append, cut.length_slice] at enough
    obtain ⟨segments, sliced⟩ := ih (fun e mem => sound e (List.mem_cons_of_mem _ mem))
      (Nat.le_of_add_le_add_left enough)
    exact ⟨_, .cons cut sliced⟩

theorem eq_segments (h : Sliced entries data segments) :
    Spi.segments (entries.map Entry.descriptor) data = segments := by
  induction h with
  | nil => rfl
  | @cons e entries slice data segment segments cut _ ih =>
    have rest : (if e.descriptor.writes then (slice ++ data).drop e.descriptor.size
        else slice ++ data) = data := by
      have length := cut.length_slice
      split at length
      · rw [if_pos ‹_›, ← length, List.drop_left]
      · rw [if_neg ‹_›, List.eq_nil_of_length_eq_zero length, List.nil_append]
    rw [List.map_cons, Spi.segments, cut.segment_append]
    exact congrArg (segment :: ·) (rest.symm ▸ ih)

theorem enough (h : Sliced entries data segments) :
    writeTotal (entries.map Entry.descriptor) ≤ data.length := by
  induction h with
  | nil => exact Nat.zero_le _
  | cons cut _ ih =>
    rw [List.map_cons, writeTotal_cons, ← cut.length_slice, List.length_append]
    exact Nat.add_le_add_left ih _

theorem received (h : Sliced entries data segments) :
    receivedData (segments.map Controller.received) = segments.flatMap Segment.echo := by
  induction h with
  | nil => rfl
  | cons cut _ ih =>
    rw [receivedData] at ih
    rw [receivedData, List.map_cons, List.flatMap_cons, cut.received, ih, List.flatMap_cons]

theorem length_echo (h : Sliced entries data segments) :
    (segments.flatMap Segment.echo).length = readTotal (entries.map Entry.descriptor) := by
  induction h with
  | nil => rfl
  | cons cut _ ih =>
    simp [cut.length_echo, ih]

end Sliced

/-- What is decided from what stands in the request. -/
inductive Judged (chipSelect mode : UInt8) (count : UInt16) (body : Bytes) :
    Except Status Request → Prop
  | nothing : count = 0 → Judged chipSelect mode count body (.ok .nothing)
  | short : body.length < 13 * count.toNat → Judged chipSelect mode count body (.error .invalid)
  | unsound {first : Entry} {rest : List Entry} {data : Bytes} :
      Table count body (first :: rest) data →
      (∃ e ∈ first :: rest, ¬ e.Sound first.bitsPerWord) →
      Judged chipSelect mode count body (.error .invalid)
  | starved {entries : List Entry} {data : Bytes} : Table count body entries data →
      data.length < writeTotal (entries.map Entry.descriptor) →
      Judged chipSelect mode count body (.error .invalid)
  | tooLong {first : Entry} {rest : List Entry} {data : Bytes} :
      Table count body (first :: rest) data → (∀ e ∈ first :: rest, e.Sound first.bitsPerWord) →
      writeTotal ((first :: rest).map Entry.descriptor) ≤ data.length →
      Message.maxPayload < readTotal ((first :: rest).map Entry.descriptor) →
      Judged chipSelect mode count body (.error .overflow)
  | batch {first : Entry} {rest : List Entry} {data : Bytes} {segments : List Segment} :
      Table count body (first :: rest) data → (∀ e ∈ first :: rest, e.Sound first.bitsPerWord) →
      readTotal ((first :: rest).map Entry.descriptor) ≤ Message.maxPayload →
      Sliced (first :: rest) data segments →
      Judged chipSelect mode count body
        (.ok (.transfer ⟨chipSelect, mode, first.bitsPerWord, first.speed⟩ segments))

section

variable {chipSelect mode : UInt8} {count : UInt16} {body data : Bytes} {first : Entry}
  {entries rest : List Entry} {outcome : Except Status Request}

theorem decode_transfer (chipSelect mode : UInt8) (count : UInt16) (body : Bytes) :
    Request.decode 0x04 (chipSelect :: mode :: (Bytes.ofWord16 count ++ body)) = (do
      let (descriptors, data) ← required (readDescriptors count.toNat body)
      readTable chipSelect mode descriptors data) := by
  simp only [Bytes.ofWord16, List.cons_append, List.nil_append]
  change (do
    let (descriptors, data) ← required (readDescriptors (Bytes.word16 _ _).toNat body)
    readTable chipSelect mode descriptors data) = _
  rw [Bytes.word16_split]

theorem Table.decode (table : Table count body entries data) :
    Request.decode 0x04 (chipSelect :: mode :: (Bytes.ofWord16 count ++ body)) =
      readTable chipSelect mode (entries.map Entry.descriptor) data := by
  rw [decode_transfer, table.readDescriptors]
  rfl

theorem readTable_of_unsound (unsound : ∃ e ∈ first :: rest, ¬ e.Sound first.bitsPerWord) :
    readTable chipSelect mode ((first :: rest).map Entry.descriptor) data = .error .invalid := by
  obtain ⟨e, mem, unsound⟩ := unsound
  refine if_pos ?_
  rw [Bool.not_eq_true', ← Bool.not_eq_true]
  exact fun sound => unsound (Entry.all_wellFormed_iff.mp sound e mem)

theorem readTable_of_sound (sound : ∀ e ∈ first :: rest, e.Sound first.bitsPerWord) :
    readTable chipSelect mode ((first :: rest).map Entry.descriptor) data =
      let descriptors := (first :: rest).map Entry.descriptor
      if data.length < writeTotal descriptors then .error .invalid
      else if Message.maxPayload < readTotal descriptors then .error .overflow
      else .ok (.transfer ⟨chipSelect, mode, first.bitsPerWord, first.speed⟩
        (segments descriptors data)) := by
  refine if_neg ?_
  rw [Bool.not_eq_true', Bool.not_eq_false]
  exact Entry.all_wellFormed_iff.mpr sound

theorem decode_of_judged (h : Judged chipSelect mode count body outcome) :
    Request.decode 0x04 (chipSelect :: mode :: (Bytes.ofWord16 count ++ body)) = outcome := by
  cases h with
  | nothing none =>
    subst none
    rw [decode_transfer]
    rfl
  | short short =>
    rw [decode_transfer, readDescriptors_short short]
    rfl
  | unsound table unsound => rw [table.decode, readTable_of_unsound unsound]
  | @starved entries data table few =>
    -- Rows that cannot be carried out may stand in the table as well: the status is the same.
    cases entries with
    | nil => exact absurd few (Nat.not_lt_zero _)
    | cons first rest =>
      rw [table.decode]
      rcases Entry.all_sound_or first.bitsPerWord (first :: rest) with sound | unsound
      · rw [readTable_of_sound sound]
        exact if_pos few
      · exact readTable_of_unsound unsound
  | tooLong table sound enough many =>
    rw [table.decode, readTable_of_sound sound]
    simp only [if_neg (Nat.not_lt.mpr enough), if_pos many]
  | batch table sound fits sliced =>
    rw [table.decode, readTable_of_sound sound]
    simp only [if_neg (Nat.not_lt.mpr sliced.enough), if_neg (Nat.not_lt.mpr fits),
      sliced.eq_segments]

theorem exists_judged (chipSelect mode : UInt8) (count : UInt16) (body : Bytes) :
    ∃ outcome, Judged chipSelect mode count body outcome := by
  by_cases short : body.length < 13 * count.toNat
  · exact ⟨_, .short short⟩
  obtain ⟨entries, data, table⟩ := exists_table (Nat.not_lt.mp short)
  cases entries with
  | nil => exact ⟨_, .nothing (UInt16.toNat_inj.mp table.complete.symm)⟩
  | cons first rest =>
    rcases Entry.all_sound_or first.bitsPerWord (first :: rest) with sound | unsound
    · by_cases few : data.length < writeTotal ((first :: rest).map Entry.descriptor)
      · exact ⟨_, .starved table few⟩
      by_cases many : Message.maxPayload < readTotal ((first :: rest).map Entry.descriptor)
      · exact ⟨_, .tooLong table sound (Nat.not_lt.mp few) many⟩
      obtain ⟨segments, sliced⟩ := Sliced.of_sound sound (Nat.not_lt.mp few)
      exact ⟨_, .batch table sound (Nat.not_lt.mp many) sliced⟩
    · exact ⟨_, .unsound table unsound⟩

theorem judged_iff : Judged chipSelect mode count body outcome ↔
    Request.decode 0x04 (chipSelect :: mode :: (Bytes.ofWord16 count ++ body)) = outcome := by
  refine ⟨decode_of_judged, ?_⟩
  rintro rfl
  obtain ⟨outcome, judged⟩ := exists_judged chipSelect mode count body
  exact decode_of_judged judged ▸ judged

end

structure Controller.Ran (c : Controller) (settings : Settings) (segments : List Segment)
    (c' : Controller) : Prop where
  batches : c'.batches = c.batches ++ [settings]
  sent : c'.sent.toBytes = c.sent.toBytes ++ segments.flatMap fun s => s.send.getD []
  unchanged : { c' with batches := c.batches, sent := c.sent } = c

/-- What becomes of a request on the board.  The controller is called for a batch only, and once: it
fails and nothing has happened, or all the segments have been sent and read. -/
inductive Carried (b : Board) : Except Status Request → Reaction → Board → Prop
  | nothing : Carried b (.ok .nothing) (.done []) b
  | rejected {status : Status} : Carried b (.error status) (.refused status) b
  | obstructed {settings : Settings} {segments : List Segment} {e : DriverError} :
      b.obstacle? .spiTransceive = some e →
      Carried b (.ok (.transfer settings segments)) (.refused e.status) b
  | outOfRange {settings : Settings} {segments : List Segment} :
      b.obstacle? .spiTransceive = none → b.spi.chipSelects.toNat ≤ settings.chipSelect.toNat →
      Carried b (.ok (.transfer settings segments))
        (.refused (Controller.outOfRange settings.chipSelect).status) b
  | ran {settings : Settings} {segments : List Segment} {spi : Controller} :
      b.obstacle? .spiTransceive = none → settings.chipSelect.toNat < b.spi.chipSelects.toNat →
      b.spi.Ran settings segments spi →
      Carried b (.ok (.transfer settings segments)) (.done (segments.flatMap Segment.echo))
        { b with spi }

theorem Controller.ran_transceive {c : Controller} {settings : Settings}
    (inRange : settings.chipSelect.toNat < c.chipSelects.toNat) (segments : List Segment) :
    ∃ c', c.transceive settings segments = .ok (segments.map received, c') ∧
      c.Ran settings segments c' :=
  ⟨_, if_pos (decide_eq_true inRange), rfl, ByteQueue.toBytes_append _ _, rfl⟩

theorem Controller.transceive_outOfRange {c : Controller} {settings : Settings}
    (outOfRange : c.chipSelects.toNat ≤ settings.chipSelect.toNat) (segments : List Segment) :
    c.transceive settings segments = .error (Controller.outOfRange settings.chipSelect) :=
  if_neg (by simp [hasChipSelect, outOfRange])

theorem carried_batch (b : Board) (settings : Settings) {entries : List Entry} {data : Bytes}
    {segments : List Segment} (sliced : Sliced entries data segments) :
    ∃ reaction board, Carried b (.ok (.transfer settings segments)) reaction board ∧
      (Request.transfer settings segments).execute b = (reaction, board) := by
  simp only [Request.execute, Board.spiTransceive]
  cases obstacle : b.obstacle? .spiTransceive with
  | some e =>
    rw [Board.guarded_of_obstacle obstacle]
    exact ⟨_, _, .obstructed obstacle, rfl⟩
  | none =>
    rw [Board.guarded_of_free obstacle]
    rcases Nat.lt_or_ge settings.chipSelect.toNat b.spi.chipSelects.toNat with inRange | outOfRange
    · obtain ⟨spi, transceived, ran⟩ := Controller.ran_transceive inRange segments
      refine ⟨_, _, .ran obstacle inRange ran, ?_⟩
      simp only [transceived, Except.map, sliced.received]
    · rw [Controller.transceive_outOfRange outOfRange]
      exact ⟨_, _, .outOfRange obstacle outOfRange, rfl⟩

theorem Carried.tells {chipSelect mode : UInt8} {count : UInt16} {body : Bytes} {b b' : Board}
    {outcome : Except Status Request} {reaction : Reaction} (h : Carried b outcome reaction b')
    (judged : Judged chipSelect mode count body outcome) :
    ∃ status payload, Node.Tells reaction status payload ∧
      payload.length ≤ Message.maxPayload := by
  cases h with
  | nothing => exact ⟨_, _, .done, Nat.zero_le _⟩
  | ran =>
    cases judged with
    | batch _ _ fits sliced => exact ⟨_, _, .done, sliced.length_echo ▸ fits⟩
  | _ => exact ⟨_, _, .refused, Nat.zero_le _⟩

theorem exists_header {payload : Bytes} (whole : 4 ≤ payload.length) :
    ∃ chipSelect mode count body,
      payload = chipSelect :: mode :: (Bytes.ofWord16 count ++ body) := by
  match payload, whole with
  | chipSelect :: mode :: c₀ :: c₁ :: body, _ =>
    refine ⟨chipSelect, mode, Bytes.word16 c₀ c₁, body, ?_⟩
    simp

end Spi

namespace Node

open Spi

theorem carried_transfer (n : Node) (c : UInt16) {payload : Bytes} {outcome : Except Status Request}
    {chipSelect mode : UInt8} {count : UInt16} {body : Bytes}
    (judged : Judged chipSelect mode count body outcome)
    (header : payload = chipSelect :: mode :: (Bytes.ofWord16 count ++ body)) :
    ∃ reaction board, Carried n.board outcome reaction board ∧
      n.carryOut c .spi 0x04 payload = (reaction, { n with board }) := by
  have decoded := decode_of_judged judged
  rw [← header] at decoded
  simp only [carryOut, decoded]
  cases judged with
  | nothing => exact ⟨_, _, .nothing, rfl⟩
  | batch _ _ _ sliced =>
    obtain ⟨reaction, board, carried, executed⟩ := carried_batch n.board _ sliced
    refine ⟨reaction, board, carried, ?_⟩
    simp only [onBoard, executed]
  | _ => exact ⟨_, _, .rejected, rfl⟩

/-- A transfer of at least four bytes is judged in exactly one way.  If it is not a batch, the
controller is not called.  If it is, there is one call, with the settings of the request and its
first row and a segment for each row; the call fails and nothing has happened, or what the rows write
has been sent, and the answer holds what they have read. -/
theorem transfer_all_or_nothing {n : Node} {p : Packet} (kind : p.message.kind = 0x04)
    (whole : 4 ≤ p.message.payload.length) :
    ∃ chipSelect mode count body outcome reaction board,
      p.message.payload = chipSelect :: mode :: (Bytes.ofWord16 count ++ body) ∧
      (∀ other, Judged chipSelect mode count body other ↔ other = outcome) ∧
      Carried n.board outcome reaction board ∧
      n.carryOut p.cport .spi p.message.kind p.message.payload = (reaction, { n with board }) ∧
      (n.link.Open → n.registry.requireRange p.cport = .ok () →
        ∃ status payload, Tells reaction status payload ∧
          n.link.Sends (answers p status payload) (n.handle .spi p).link) := by
  obtain ⟨chipSelect, mode, count, body, header⟩ := exists_header whole
  obtain ⟨outcome, judged⟩ := exists_judged chipSelect mode count body
  obtain ⟨reaction, board, carried, result⟩ := n.carried_transfer p.cport judged header
  rw [← kind] at result
  refine ⟨chipSelect, mode, count, body, outcome, reaction, board, header, ?_, carried, result, ?_⟩
  · intro other
    rw [judged_iff, decode_of_judged judged]
    exact eq_comm
  · intro ready inRange
    obtain ⟨status, payload, tells, fits⟩ := carried.tells judged
    exact ⟨status, payload, tells, handle_replies rfl result tells fits inRange ready⟩

def wired : Node :=
  ofParts ⟨[⟨1, .spi⟩], 1, "worker", none, none⟩ .fresh (.memory .fresh)

def mixed : List Entry :=
  [⟨1000000, 2, 0, 0, 8, 0x02⟩, ⟨0, 3, 0, 0, 8, 0x01⟩, ⟨0, 2, 0, 0, 8, 0x03⟩]

def mixing : Packet :=
  ⟨0, ⟨7, 0x04, 0, 1 :: 0 :: (Bytes.ofWord16 3 ++ (mixed.flatMap Entry.encode ++ [1, 2, 3, 4, 9]))⟩⟩

theorem mixing_sends_and_reads :
    let result := wired.carryOut mixing.cport .spi mixing.message.kind mixing.message.payload
    result.2.board.spi.sent.toBytes = [1, 2, 3, 4] ∧
      result.2.board.spi.batches = [⟨1, 0, 8, 1000000⟩] ∧
      wired.link.Sends (answers mixing .success [0, 1, 2, 3, 4]) (wired.handle .spi mixing).link := by
  obtain ⟨-, -, -, -, -, reaction, board, -, -, -, result, replies⟩ :=
    @transfer_all_or_nothing wired mixing rfl (by decide)
  have accepts : wired.link.Open := fun p => ⟨_, rfl⟩
  have echoed : reaction = .done [0, 1, 2, 3, 4] := (congrArg Prod.fst result).symm.trans rfl
  obtain ⟨status, payload, tells, sends⟩ := replies accepts rfl
  refine ⟨rfl, rfl, ?_⟩
  rw [echoed] at tells
  cases tells with
  | done => exact sends

end Node

end CportNode
