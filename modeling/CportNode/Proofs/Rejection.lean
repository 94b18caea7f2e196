import CportNode.Proofs.Echoes
import CportNode.Proofs.I2c
import CportNode.Proofs.Indifference
import CportNode.Proofs.Spi

namespace CportNode

/-- The types of operation that a driver knows, each with the bytes that it cannot do without. -/
@[simp] def Driver.operations : Driver → List (Nat × Nat)
  | control =>
    [(0x01, 0), (0x03, 0), (0x04, 0), (0x05, 2), (0x06, 2), (0x07, 17), (0x08, 0), (0x09, 32),
      (0x0a, 0), (0x0c, 0), (0x0d, 0), (0x0f, 0), (0x10, 0), (0x11, 0), (0x12, 0), (0x13, 0),
      (0x14, 0)]
  | gpio _ =>
    [(0x01, 0), (0x02, 0), (0x03, 1), (0x04, 1), (0x05, 1), (0x06, 1), (0x07, 2), (0x08, 1),
      (0x09, 2), (0x0a, 3), (0x0b, 2), (0x0c, 1), (0x0d, 1)]
  | i2c => [(0x02, 0), (0x05, 2)]
  | spi => [(0x01, 0), (0x02, 0), (0x03, 1), (0x04, 4)]
  | uart => [(0x01, 0), (0x02, 2), (0x04, 8), (0x05, 1), (0x06, 0)]
  | loopback => [(0x02, 0), (0x03, 12), (0x04, 12)]
  | log _ => [(0x82, 0)]
  | firmwareManagement => [(0x01, 0)]
  | _ => []

def Driver.least? (d : Driver) (kind : UInt8) : Option Nat :=
  d.operations.lookup kind.toNat

theorem Driver.mem_operations {d : Driver} {kind : UInt8} {least : Nat}
    (h : d.least? kind = some least) : (kind.toNat, least) ∈ d.operations := by
  obtain ⟨before, after, all, -⟩ := List.lookup_eq_some_iff.mp h
  exact all ▸ List.mem_append_right _ List.mem_cons_self

theorem Driver.lacking_of_operations {d : Driver} {kind : UInt8} {body : Bytes}
    (h : ∀ operation ∈ d.operations, kind.toNat = operation.1 → body.length < operation.2) :
    ∀ least ∈ d.least? kind, body.length < least :=
  fun _ needed => h _ (mem_operations needed) rfl

@[simp] theorem required_map_eq_error_iff {α β : Type} {found : Option α} {f : α → β}
    {status : Status} :
    (required found).map f = .error status ↔ found = none ∧ .invalid = status := by
  cases found <;> simp [required, Except.map]

namespace Bytes

variable {α β : Type} {take : Bytes → Option (α × Bytes)} {width : Nat}

theorem eq_of_takeWord16 {bytes rest : Bytes} {w : UInt16} (h : takeWord16 bytes = some (w, rest)) :
    bytes = ofWord16 w ++ rest := by
  unfold takeWord16 at h
  split at h
  · cases h
    simp
  · cases h

theorem eq_of_takeWord32 {bytes rest : Bytes} {w : UInt32} (h : takeWord32 bytes = some (w, rest)) :
    bytes = ofWord32 w ++ rest := by
  unfold takeWord32 at h
  split at h
  · cases h
    simp
  · cases h

structure Takes (take : Bytes → Option (α × Bytes)) (width : Nat) : Prop where
  none_iff : ∀ bytes, take bytes = none ↔ bytes.length < width
  length : ∀ {bytes a rest}, take bytes = some (a, rest) → bytes.length = rest.length + width

theorem Takes.bind_eq_none_iff (h : Takes take width) (needed : Nat) {more : α × Bytes → Option β}
    (rest : ∀ a rest, more (a, rest) = none ↔ rest.length < needed) (bytes : Bytes) :
    (take bytes).bind more = none ↔ bytes.length < width + needed := by
  cases found : take bytes with
  | none =>
    have short := (h.none_iff bytes).mp found
    simp only [Option.bind_none, true_iff]
    omega
  | some pair =>
    have length := h.length found
    rw [Option.bind_some, rest]
    omega

theorem takes_takeWord8 : Takes takeWord8 1 where
  none_iff bytes := by rcases bytes with _ | ⟨_, _⟩ <;> simp [takeWord8]
  length {bytes w rest} h := by
    unfold takeWord8 at h
    split at h
    · cases h
      rfl
    · cases h

theorem takes_takeWord16 : Takes takeWord16 2 where
  none_iff bytes := by rcases bytes with _ | ⟨_, _ | ⟨_, _⟩⟩ <;> simp [takeWord16]
  length h := by
    rw [eq_of_takeWord16 h, List.length_append]
    exact Nat.add_comm _ _

theorem takes_takeWord32 : Takes takeWord32 4 where
  none_iff bytes := by
    rcases bytes with _ | ⟨_, _ | ⟨_, _ | ⟨_, _ | ⟨_, _⟩⟩⟩⟩ <;> simp [takeWord32]
  length h := by
    rw [eq_of_takeWord32 h, List.length_append]
    exact Nat.add_comm _ _

theorem takes_takeWord64 : Takes takeWord64 8 where
  none_iff bytes := by
    refine takes_takeWord32.bind_eq_none_iff 4 (fun lo rest => ?_) bytes
    exact takes_takeWord32.bind_eq_none_iff 0 (by simp) rest
  length {bytes w rest} h := by
    obtain ⟨⟨lo, middle⟩, first, h⟩ := Option.bind_eq_some_iff.mp h
    obtain ⟨⟨hi, last⟩, second, h⟩ := Option.bind_eq_some_iff.mp h
    cases h
    rw [takes_takeWord32.length first, takes_takeWord32.length second]

end Bytes

namespace Control

variable {kind : UInt8} {body : Bytes} {status : Status}

@[simp] theorem readTarget_eq_none_iff : readTarget body = none ↔ body.length < 2 :=
  Option.map_eq_none_iff.trans (Bytes.takes_takeWord16.none_iff body)

@[simp] theorem readEnable_eq_none_iff : readEnable body = none ↔ body.length < 17 := by
  refine Bytes.takes_takeWord8.bind_eq_none_iff 16 (fun count body => ?_) body
  refine Bytes.takes_takeWord64.bind_eq_none_iff 8 (fun frameTime body => ?_) body
  refine Bytes.takes_takeWord32.bind_eq_none_iff 4 (fun strobeDelay body => ?_) body
  exact Bytes.takes_takeWord32.bind_eq_none_iff 0 (by simp) body

@[simp] theorem readAuthoritative_eq_none_iff :
    readAuthoritative body = none ↔ body.length < 32 := by
  refine Bytes.takes_takeWord64.bind_eq_none_iff 24 (fun t₀ body => ?_) body
  refine Bytes.takes_takeWord64.bind_eq_none_iff 16 (fun t₁ body => ?_) body
  refine Bytes.takes_takeWord64.bind_eq_none_iff 8 (fun t₂ body => ?_) body
  exact Bytes.takes_takeWord64.bind_eq_none_iff 0 (by simp) body

theorem Request.decode_eq_error_iff : decode kind body = .error status ↔
    (∀ least ∈ Driver.control.least? kind, body.length < least) ∧ .invalid = status := by
  unfold decode
  split
  all_goals simp_all [Driver.least?, List.lookup_cons,
    required_map_eq_error_iff, readTarget_eq_none_iff, readEnable_eq_none_iff,
    readAuthoritative_eq_none_iff, beq_eq_decide]

end Control

theorem Gpio.Request.decode_lacking {triggers : Triggers} {kind : UInt8} {body : Bytes}
    (lacking : ∀ least ∈ (Driver.gpio triggers).least? kind, body.length < least) :
    decode kind body = .error .invalid := by
  unfold decode
  split
  all_goals simp_all [Driver.least?, List.lookup_cons] <;> omega

theorem I2c.readTransfer_few {body : Bytes} (few : body.length < 2) :
    readTransfer body = .error .invalid := by
  rw [readTransfer, (Bytes.takes_takeWord16.none_iff body).mpr few]
  rfl

theorem I2c.Request.decode_lacking {kind : UInt8} {body : Bytes}
    (lacking : ∀ least ∈ Driver.i2c.least? kind, body.length < least) :
    decode kind body = .error .invalid := by
  unfold decode
  split
  all_goals simp_all [Driver.least?, List.lookup_cons, readTransfer_few]

theorem Spi.Request.decode_lacking {kind : UInt8} {body : Bytes}
    (lacking : ∀ least ∈ Driver.spi.least? kind, body.length < least) :
    decode kind body = .error .invalid := by
  unfold decode
  split
  all_goals simp_all [Driver.least?, List.lookup_cons] <;> omega

theorem Loopback.Request.decode_lacking {kind : UInt8} {body : Bytes}
    (lacking : ∀ least ∈ Driver.loopback.least? kind, body.length < least) :
    decode kind body = .error .invalid := by
  have incomplete (short : body.length < headerSize) : complete body = false := by
    unfold complete
    split
    · exact decide_eq_false (by omega)
    · rfl
  unfold decode
  split
  all_goals simp_all [Driver.least?, List.lookup_cons, headerSize]

namespace Uart

variable {kind : UInt8} {body : Bytes}

theorem Request.decode_unknown (unknown : Driver.uart.least? kind = none) :
    decode kind body = .error .protocolBad := by
  unfold decode
  split
  all_goals simp_all [Driver.least?, List.lookup_cons]

theorem readData_short (short : body.length < 2) : readData body = none := by
  rw [readData, (Bytes.takes_takeWord16.none_iff body).mpr short]
  rfl

theorem LineCoding.ofWire?_short (short : body.length < 8) : ofWire? body = none := by
  unfold ofWire?
  split
  · simp only [List.length_cons] at short
    omega
  · rfl

theorem Request.decode_short {least : Nat} (known : Driver.uart.least? kind = some least)
    (short : body.length < least) : decode kind body = .error .invalid := by
  have few {m : Nat} (h : Driver.uart.least? kind = some m) : body.length < m :=
    Option.some.inj (known.symm.trans h) ▸ short
  unfold decode
  split
  case h_1 version =>
    exact absurd (few (by rw [Driver.least?, version]; rfl)) (Nat.not_lt_zero _)
  case h_2 send =>
    rw [readData_short (few (by rw [Driver.least?, send]; rfl))]
    rfl
  case h_3 setLineCoding =>
    rw [LineCoding.ofWire?_short (few (by rw [Driver.least?, setLineCoding]; rfl))]
    rfl
  case h_4 setControlLines =>
    rw [List.length_eq_zero_iff.mp
      (Nat.lt_one_iff.mp (few (by rw [Driver.least?, setControlLines]; rfl)))]
    rfl
  case h_5 sendBreak =>
    exact absurd (few (by rw [Driver.least?, sendBreak]; rfl)) (Nat.not_lt_zero _)
  case h_6 =>
    simp_all [Driver.least?, List.lookup_cons, beq_eq_decide]

end Uart

namespace I2c

variable {count : UInt16} {entries : List Entry} {body data : Bytes}

theorem readDescriptors_short {count : Nat} (short : body.length < 6 * count) :
    readDescriptors count body = none := by
  induction count, body using readDescriptors.induct with
  | case1 body => omega
  | case2 count a₀ a₁ f₀ f₁ s₀ s₁ body ih =>
    have shorter : body.length < 6 * count := by
      simp only [List.length_cons] at short
      omega
    rw [readDescriptors, ih shorter]
    rfl
  | case3 count body few => rw [readDescriptors]; exact few

theorem readTransfer_short (short : body.length < 6 * count.toNat) :
    readTransfer (Bytes.ofWord16 count ++ body) = .error .invalid := by
  simp only [readTransfer, Bytes.takeWord16_ofWord16, required, Bind.bind, Except.bind,
    readDescriptors_short short]

theorem readTransfer_table (length : entries.length = count.toNat) :
    readTransfer (Bytes.ofWord16 count ++ (entries.flatMap Entry.encode ++ data)) =
      if data.length < writeTotal (entries.map Entry.descriptor) then .error .invalid
      else if Message.maxPayload < readTotal (entries.map Entry.descriptor) then .error .overflow
      else .ok (.transfer (operations (entries.map Entry.descriptor) data)) := by
  simp only [readTransfer, Bytes.takeWord16_ofWord16, required, Bind.bind, Except.bind, ← length,
    readDescriptors_encode]

end I2c

theorem Log.Request.decode_eq_error_iff {outlet : Bool} {kind : UInt8} {status : Status} :
    decode kind = .error status ↔
      (Driver.log outlet).least? kind = none ∧ .protocolBad = status := by
  have unknown : (Driver.log outlet).least? kind = none ↔
      kind ≠ recordKind ||| Message.responseFlag := by
    simp [Driver.least?, ← UInt8.toNat_inj, recordKind, Message.responseFlag]
  unfold decode
  split <;> simp_all

theorem Firmware.Request.decode_eq_error_iff {kind : UInt8} {status : Status} :
    decode kind = .error status ↔
      Driver.firmwareManagement.least? kind = none ∧ .protocolBad = status := by
  unfold decode
  split
  all_goals simp_all [Driver.least?, List.lookup_cons, beq_eq_decide]

@[simp] theorem Gpio.Trigger.ofWire?_eq_none_iff {value : UInt8} :
    ofWire? value = none ↔ value ∉ [0x00, 0x01, 0x02, 0x03, 0x04, 0x08] := by
  simp only [List.mem_cons, ← UInt8.toNat_inj]
  unfold ofWire?
  split <;> simp_all

namespace Uart

@[simp] theorem StopBits.ofWire?_eq_none_iff {value : UInt8} :
    ofWire? value = none ↔ 2 < value := by
  rw [UInt8.lt_iff_toNat_lt]
  unfold ofWire?
  split <;> simp_all
  omega

@[simp] theorem Parity.ofWire?_eq_none_iff {value : UInt8} : ofWire? value = .none ↔ 4 < value := by
  rw [UInt8.lt_iff_toNat_lt]
  unfold ofWire?
  split <;> simp_all
  omega

@[simp] theorem FlowControl.ofWire?_eq_none_iff {value : UInt8} :
    ofWire? value = .none ↔ 1 < value := by
  rw [UInt8.lt_iff_toNat_lt]
  unfold ofWire?
  split <;> simp_all
  omega

@[simp] theorem dataBits?_eq_none_iff {value : UInt8} :
    dataBits? value = none ↔ value < 5 ∨ 9 < value := by
  simp only [dataBits?, ite_eq_right_iff, reduceCtorEq, imp_false, not_and_or, UInt8.not_le]

@[simp] theorem LineCoding.ofWire?_eq_none_iff {baud : UInt32} {stop parity bits flow : UInt8}
    {rest : Bytes} :
    ofWire? (Bytes.ofWord32 baud ++ stop :: parity :: bits :: flow :: rest) = none ↔
      2 < stop ∨ 4 < parity ∨ bits < 5 ∨ 9 < bits ∨ 1 < flow := by
  rw [← or_assoc (a := bits < 5), ← StopBits.ofWire?_eq_none_iff, ← Parity.ofWire?_eq_none_iff,
    ← dataBits?_eq_none_iff, ← FlowControl.ofWire?_eq_none_iff]
  simp only [Bytes.ofWord32, Bytes.ofWord16, List.cons_append, List.nil_append, ofWire?]
  cases StopBits.ofWire? stop <;> cases Parity.ofWire? parity <;> cases dataBits? bits <;>
    cases FlowControl.ofWire? flow <;> simp

@[simp] theorem readData_eq_none_iff {size : UInt16} {data : Bytes} :
    readData (Bytes.ofWord16 size ++ data) = none ↔ data.length < size.toNat := by
  simp only [readData, Bytes.takeWord16_ofWord16, Option.bind_eq_bind, Option.bind_some]
  simp

end Uart

@[simp] theorem Loopback.complete_eq_false_iff {size : UInt32} {rest : Bytes} :
    complete (Bytes.ofWord32 size ++ rest) = false ↔
      (Bytes.ofWord32 size ++ rest).length < headerSize + size.toNat := by
  simp [complete]

/-- What makes a request malformed, and the status that says so. -/
inductive Malformed : Driver → UInt8 → Bytes → Status → Prop
  | unknown {d : Driver} {kind : UInt8} {body : Bytes} : d.builtIn = true →
      kind ≠ Message.pingKind → d.least? kind = none → Malformed d kind body d.refusal
  | short {d : Driver} {kind : UInt8} {body : Bytes} {least : Nat} : d.least? kind = some least →
      body.length < least → Malformed d kind body .invalid
  | trigger {triggers : Gpio.Triggers} {line type : UInt8} {rest : Bytes} :
      type ∉ [0x00, 0x01, 0x02, 0x03, 0x04, 0x08] →
      Malformed (.gpio triggers) 0x0b (line :: type :: rest) .invalid
  | sending {size : UInt16} {data : Bytes} : data.length < size.toNat →
      Malformed .uart 0x02 (Bytes.ofWord16 size ++ data) .invalid
  | coding {baud : UInt32} {stop parity bits flow : UInt8} {rest : Bytes} :
      2 < stop ∨ 4 < parity ∨ bits < 5 ∨ 9 < bits ∨ 1 < flow →
      Malformed .uart 0x04 (Bytes.ofWord32 baud ++ stop :: parity :: bits :: flow :: rest) .invalid
  | echoing {kind : UInt8} {size : UInt32} {rest : Bytes} : kind = 0x03 ∨ kind = 0x04 →
      (Bytes.ofWord32 size ++ rest).length < Loopback.headerSize + size.toNat →
      Malformed .loopback kind (Bytes.ofWord32 size ++ rest) .invalid
  | table {count : UInt16} {body : Bytes} : body.length < 6 * count.toNat →
      Malformed .i2c 0x05 (Bytes.ofWord16 count ++ body) .invalid
  | starved {count : UInt16} {entries : List I2c.Entry} {data : Bytes} :
      entries.length = count.toNat →
      data.length < I2c.writeTotal (entries.map I2c.Entry.descriptor) →
      Malformed .i2c 0x05 (Bytes.ofWord16 count ++ (entries.flatMap I2c.Entry.encode ++ data))
        .invalid
  | tooLong {count : UInt16} {entries : List I2c.Entry} {data : Bytes} :
      entries.length = count.toNat →
      I2c.writeTotal (entries.map I2c.Entry.descriptor) ≤ data.length →
      Message.maxPayload < I2c.readTotal (entries.map I2c.Entry.descriptor) →
      Malformed .i2c 0x05 (Bytes.ofWord16 count ++ (entries.flatMap I2c.Entry.encode ++ data))
        .overflow
  | batch {chipSelect mode : UInt8} {count : UInt16} {body : Bytes} {status : Status} :
      Spi.Judged chipSelect mode count body (.error status) →
      Malformed .spi 0x04 (chipSelect :: mode :: (Bytes.ofWord16 count ++ body)) status

namespace Malformed

variable {d : Driver} {kind : UInt8} {body : Bytes} {status : Status}

theorem builtIn (h : Malformed d kind body status) : d.builtIn = true := by
  cases h with
  | unknown builtIn => exact builtIn
  | short known =>
    cases d with
    | bare => cases known
    | gate => cases known
    | scripted s => cases known
    | _ => rfl
  | _ => rfl

theorem kind_ne_ping (h : Malformed d kind body status) : kind ≠ Message.pingKind := by
  cases h with
  | unknown _ other => exact other
  | short known =>
    rintro rfl
    cases d <;> cases known
  | echoing kinds => rcases kinds with rfl | rfl <;> decide
  | _ => decide

end Malformed

inductive Undecodable (kind : UInt8) (body : Bytes) (status : Status) : Driver → Prop
  | control : Control.Request.decode kind body = .error status →
      Undecodable kind body status .control
  | gpio {triggers : Gpio.Triggers} : Gpio.Request.decode kind body = .error status →
      Undecodable kind body status (.gpio triggers)
  | i2c : I2c.Request.decode kind body = .error status → Undecodable kind body status .i2c
  | spi : Spi.Request.decode kind body = .error status → Undecodable kind body status .spi
  | uart : Uart.Request.decode kind body = .error status → Undecodable kind body status .uart
  | loopback : Loopback.Request.decode kind body = .error status →
      Undecodable kind body status .loopback
  | log {outlet : Bool} : Log.Request.decode kind = .error status →
      Undecodable kind body status (.log outlet)
  | firmwareManagement : Firmware.Request.decode kind = .error status →
      Undecodable kind body status .firmwareManagement
  | firmwareDownload : status = .protocolBad → Undecodable kind body status .firmwareDownload

section Decoding

variable {d : Driver} {kind : UInt8} {body : Bytes} {status : Status}

theorem Undecodable.of_unknown (builtIn : d.builtIn = true) (unknown : d.least? kind = none) :
    Undecodable kind body d.refusal d := by
  have lacking : ∀ least ∈ d.least? kind, body.length < least := by simp [unknown]
  cases d with
  | control => exact .control (Control.Request.decode_eq_error_iff.mpr ⟨lacking, rfl⟩)
  | gpio triggers => exact .gpio (Gpio.Request.decode_lacking lacking)
  | i2c => exact .i2c (I2c.Request.decode_lacking lacking)
  | spi => exact .spi (Spi.Request.decode_lacking lacking)
  | uart => exact .uart (Uart.Request.decode_unknown unknown)
  | loopback => exact .loopback (Loopback.Request.decode_lacking lacking)
  | log outlet => exact .log (Log.Request.decode_eq_error_iff.mpr ⟨unknown, rfl⟩)
  | firmwareManagement =>
    exact .firmwareManagement (Firmware.Request.decode_eq_error_iff.mpr ⟨unknown, rfl⟩)
  | firmwareDownload => exact .firmwareDownload rfl
  | bare => cases builtIn
  | gate => cases builtIn
  | scripted s => cases builtIn

theorem Undecodable.of_short {least : Nat} (known : d.least? kind = some least)
    (short : body.length < least) : Undecodable kind body .invalid d := by
  have lacking : ∀ most ∈ d.least? kind, body.length < most := by simp [known, short]
  cases d with
  | control => exact .control (Control.Request.decode_eq_error_iff.mpr ⟨lacking, rfl⟩)
  | gpio triggers => exact .gpio (Gpio.Request.decode_lacking lacking)
  | i2c => exact .i2c (I2c.Request.decode_lacking lacking)
  | spi => exact .spi (Spi.Request.decode_lacking lacking)
  | uart => exact .uart (Uart.Request.decode_short known short)
  | loopback => exact .loopback (Loopback.Request.decode_lacking lacking)
  | log outlet =>
    cases (Prod.mk.inj (List.mem_singleton.mp (Driver.mem_operations known))).2
    cases short
  | firmwareManagement =>
    cases (Prod.mk.inj (List.mem_singleton.mp (Driver.mem_operations known))).2
    cases short
  | _ => cases known

theorem Malformed.undecodable (h : Malformed d kind body status) :
    Undecodable kind body status d := by
  cases h with
  | unknown builtIn _ unknown => exact .of_unknown builtIn unknown
  | short known short => exact .of_short known short
  | trigger unknown =>
    refine .gpio ?_
    change (required (Gpio.Trigger.ofWire? _)).map _ = _
    rw [Gpio.Trigger.ofWire?_eq_none_iff.mpr unknown]
    rfl
  | sending few =>
    refine .uart ?_
    simp only [Uart.Request.decode, Uart.readData_eq_none_iff.mpr few]
    rfl
  | coding bad =>
    refine .uart ?_
    simp only [Uart.Request.decode, Uart.LineCoding.ofWire?_eq_none_iff.mpr bad]
    rfl
  | echoing kinds few =>
    refine .loopback ?_
    have incomplete := Loopback.complete_eq_false_iff.mpr few
    rcases kinds with rfl | rfl <;> simp [Loopback.Request.decode, incomplete]
  | table short => exact .i2c (I2c.readTransfer_short short)
  | starved length few => exact .i2c ((I2c.readTransfer_table length).trans (if_pos few))
  | tooLong length enough many =>
    refine .i2c ((I2c.readTransfer_table length).trans ?_)
    rw [if_neg (Nat.not_lt.mpr enough), if_pos many]
  | batch judged => exact .spi (Spi.decode_of_judged judged)

section

variable {kind : UInt8} {body : Bytes} {status : Status} {triggers : Gpio.Triggers}

theorem Malformed.of_lacking (builtIn : d.builtIn = true) (other : kind ≠ Message.pingKind)
    (invalid : d.refusal = .invalid) (lacking : ∀ least ∈ d.least? kind, body.length < least) :
    Malformed d kind body .invalid := by
  cases known : d.least? kind with
  | none => exact invalid ▸ .unknown builtIn other known
  | some least => exact .short known (lacking least known)

theorem Gpio.Request.malformed_of_decode (other : kind ≠ Message.pingKind)
    (h : decode kind body = .error status) : Malformed (.gpio triggers) kind body status := by
  revert h
  fun_cases decode kind body <;> intro h
  case case11 line type rest irqType =>
    obtain rfl : kind = 0x0b := UInt8.toNat_inj.mp irqType
    obtain ⟨unknown, rfl⟩ := required_map_eq_error_iff.mp h
    exact .trigger (Trigger.ofWire?_eq_none_iff.mp unknown)
  case case14 =>
    cases h
    refine .of_lacking rfl other rfl (Driver.lacking_of_operations ?_)
    simp only [Driver.operations, List.forall_mem_cons, List.not_mem_nil, false_implies,
      implies_true, and_true]
    and_intros <;> intro is <;>
      rcases body with _ | ⟨_, _ | ⟨_, _ | ⟨_, _⟩⟩⟩ <;> grind
  all_goals cases h

theorem I2c.Request.malformed_of_decode (other : kind ≠ Message.pingKind)
    (h : decode kind body = .error status) : Malformed .i2c kind body status := by
  unfold decode at h
  split at h
  case h_1 => cases h
  case h_2 transfer =>
    obtain rfl : kind = 0x05 := UInt8.toNat_inj.mp transfer
    cases found : Bytes.takeWord16 body with
    | none =>
      have few := (Bytes.takes_takeWord16.none_iff body).mp found
      cases (readTransfer_few few).symm.trans h
      exact .short rfl few
    | some pair =>
      obtain ⟨count, body⟩ := pair
      obtain rfl := Bytes.eq_of_takeWord16 found
      by_cases short : body.length < 6 * count.toNat
      · cases (readTransfer_short short).symm.trans h
        exact .table short
      obtain ⟨entries, data, length, rfl⟩ := exists_entries (Nat.not_lt.mp short)
      rw [readTransfer_table length] at h
      split at h
      · rename_i few
        cases h
        exact .starved length few
      · rename_i enough
        split at h
        · rename_i many
          cases h
          exact .tooLong length (Nat.not_lt.mp enough) many
        · cases h
  case h_3 =>
    cases h
    refine .of_lacking rfl other rfl ?_
    simp_all [Driver.least?, List.lookup_cons, beq_eq_decide]

theorem Spi.Request.malformed_of_decode (other : kind ≠ Message.pingKind)
    (h : decode kind body = .error status) : Malformed .spi kind body status := by
  revert h
  fun_cases decode kind body <;> intro h
  case case4 chipSelect mode c₀ c₁ body transfer =>
    obtain rfl : kind = 0x04 := UInt8.toNat_inj.mp transfer
    have spelled : c₀ :: c₁ :: body = Bytes.ofWord16 (Bytes.word16 c₀ c₁) ++ body := by
      simp
    rw [spelled]
    exact .batch (judged_iff.mpr ((decode_transfer _ _ _ _).trans h))
  case case5 =>
    cases h
    refine .of_lacking rfl other rfl (Driver.lacking_of_operations ?_)
    simp only [Driver.operations, List.forall_mem_cons, List.not_mem_nil, false_implies,
      implies_true, and_true]
    and_intros <;> intro is <;>
      rcases body with _ | ⟨_, _ | ⟨_, _ | ⟨_, _ | ⟨_, _⟩⟩⟩⟩ <;> grind
  all_goals cases h

theorem Uart.Request.malformed_of_decode (other : kind ≠ Message.pingKind)
    (h : decode kind body = .error status) : Malformed .uart kind body status := by
  unfold decode at h
  split at h
  case h_2 send =>
    obtain rfl : kind = 0x02 := UInt8.toNat_inj.mp send
    obtain ⟨unread, rfl⟩ := required_map_eq_error_iff.mp h
    cases found : Bytes.takeWord16 body with
    | none => exact .short rfl ((Bytes.takes_takeWord16.none_iff body).mp found)
    | some pair =>
      obtain ⟨size, data⟩ := pair
      obtain rfl := Bytes.eq_of_takeWord16 found
      exact .sending (readData_eq_none_iff.mp unread)
  case h_3 setLineCoding =>
    obtain rfl : kind = 0x04 := UInt8.toNat_inj.mp setLineCoding
    obtain ⟨unread, rfl⟩ := required_map_eq_error_iff.mp h
    cases found : Bytes.takeWord32 body with
    | none =>
      have few := (Bytes.takes_takeWord32.none_iff body).mp found
      exact .short rfl (few.trans (by decide))
    | some pair =>
      obtain ⟨baud, fields⟩ := pair
      obtain rfl := Bytes.eq_of_takeWord32 found
      by_cases short : fields.length < 4
      · exact .short rfl (by rw [List.length_append]; exact Nat.add_lt_add_left short 4)
      obtain ⟨stop, parity, bits, flow, rest, rfl⟩ : ∃ stop parity bits flow rest,
          fields = stop :: parity :: bits :: flow :: rest := by
        rcases fields with _ | ⟨_, _ | ⟨_, _ | ⟨_, _ | ⟨_, _⟩⟩⟩⟩ <;> simp_all
      exact .coding (LineCoding.ofWire?_eq_none_iff.mp unread)
  case h_4 setControlLines =>
    obtain rfl : kind = 0x05 := UInt8.toNat_inj.mp setControlLines
    obtain ⟨unread, rfl⟩ := required_map_eq_error_iff.mp h
    exact .short rfl (by rw [List.head?_eq_none_iff.mp unread]; exact Nat.one_pos)
  case h_6 =>
    cases h
    refine .unknown rfl other ?_
    simp_all [Driver.least?, List.lookup_cons, beq_eq_decide]
  all_goals cases h

theorem Loopback.malformed_of_incomplete (kinds : kind = 0x03 ∨ kind = 0x04)
    (h : complete body = false) : Malformed .loopback kind body .invalid := by
  have known : Driver.loopback.least? kind = some headerSize := by
    rcases kinds with rfl | rfl <;> rfl
  by_cases short : body.length < headerSize
  · exact .short known short
  cases found : Bytes.takeWord32 body with
  | none =>
    have few := (Bytes.takes_takeWord32.none_iff body).mp found
    exact absurd (few.trans (by decide)) short
  | some pair =>
    obtain ⟨size, rest⟩ := pair
    obtain rfl := Bytes.eq_of_takeWord32 found
    exact .echoing kinds (complete_eq_false_iff.mp h)

theorem Loopback.Request.malformed_of_decode (other : kind ≠ Message.pingKind)
    (h : decode kind body = .error status) : Malformed .loopback kind body status := by
  unfold decode at h
  split at h
  case h_1 => cases h
  case h_2 transfer =>
    split at h
    · cases h
    · rename_i incomplete
      cases h
      exact malformed_of_incomplete (.inl (UInt8.toNat_inj.mp transfer))
        (Bool.eq_false_iff.mpr incomplete)
  case h_3 sink =>
    split at h
    · cases h
    · rename_i incomplete
      cases h
      exact malformed_of_incomplete (.inr (UInt8.toNat_inj.mp sink))
        (Bool.eq_false_iff.mpr incomplete)
  case h_4 =>
    cases h
    refine .of_lacking rfl other rfl ?_
    simp_all [Driver.least?, List.lookup_cons, beq_eq_decide]

end

theorem undecodable_iff (other : kind ≠ Message.pingKind) :
    Undecodable kind body status d ↔ Malformed d kind body status := by
  refine ⟨fun h => ?_, Malformed.undecodable⟩
  cases h with
  | control decoded =>
    obtain ⟨lacking, rfl⟩ := Control.Request.decode_eq_error_iff.mp decoded
    exact .of_lacking rfl other rfl lacking
  | gpio decoded => exact Gpio.Request.malformed_of_decode other decoded
  | i2c decoded => exact I2c.Request.malformed_of_decode other decoded
  | spi decoded => exact Spi.Request.malformed_of_decode other decoded
  | uart decoded => exact Uart.Request.malformed_of_decode other decoded
  | loopback decoded => exact Loopback.Request.malformed_of_decode other decoded
  | log decoded =>
    obtain ⟨unknown, rfl⟩ := Log.Request.decode_eq_error_iff.mp decoded
    exact .unknown rfl other unknown
  | firmwareManagement decoded =>
    obtain ⟨unknown, rfl⟩ := Firmware.Request.decode_eq_error_iff.mp decoded
    exact .unknown rfl other unknown
  | firmwareDownload same => exact same ▸ .unknown rfl other rfl

theorem Node.carryOut_of_undecodable (n : Node) (c : UInt16) (h : Undecodable kind body status d) :
    n.carryOut c d kind body = (.refused status, n) := by
  cases h with
  | control decoded => simp only [carryOut, decoded]
  | gpio decoded => simp only [carryOut, carryOutGpio, decoded]
  | i2c decoded => simp only [carryOut, onBoard, decoded]
  | spi decoded => simp only [carryOut, onBoard, decoded]
  | uart decoded => simp only [carryOut, onBoard, decoded]
  | loopback decoded => simp only [carryOut, reactionOf, decoded]
  | log decoded => simp only [carryOut, reactionOf, decoded]
  | firmwareManagement decoded => simp only [carryOut, reactionOf, decoded]
  | firmwareDownload same => rw [same]; rfl

end Decoding

namespace Node

theorem respond_onBoard (n : Node) (board : Board) (c : UInt16) (request : Message)
    (status : Status) (payload : Bytes) :
    { n with board }.respond c request status payload =
      (n.respond c request status payload).map fun n' => { n' with board } := by
  simp only [respond, send]
  split
  · rfl
  · split
    · rfl
    · split
      · rfl
      · split <;> rfl

/-- A malformed request is answered with the status that says what is wrong with it, and with nothing
else, and that is all that happens.  The drivers' states, the cports and what listens on them stay as
they are, and so does the board, whatever it is like: nothing is asked of it. -/
theorem dispatch_refuses_malformed {n : Node} {p : Packet} {d : Driver} {status : Status}
    (bound : n.registry.route p.cport = .driver d)
    (malformed : Malformed d p.message.kind p.message.payload status) :
    ∃ link counters,
      (∀ board, { n with board }.dispatch p =
        { n with board, link, counters, calls := ⟨.handle p.message, p.cport⟩ :: n.calls }) ∧
      link.listening = n.link.listening ∧
      (n.link.Open → n.link.Sends (answers p status []) link ∧
        counters = { n.counters with dispatched := n.counters.dispatched + 1 }) := by
  let n₀ := (n.count fun c => { c with dispatched := c.dispatched + 1 }).called
    (.handle p.message) p.cport
  have dispatched (board : Board) : { n with board }.dispatch p =
      { n₀ with board }.conclude
        ((n₀.respond p.cport p.message status []).map fun n' : Node => { n' with board }) := by
    rw [dispatch_of_route (n := { n with board }) bound malformed.kind_ne_ping,
      handle_builtIn _ malformed.builtIn, carryOut_of_undecodable _ _ malformed.undecodable,
      ← respond_onBoard]
    rfl
  obtain ⟨s, hs, -⟩ := Registry.slot?_of_route bound
  have delivered : Delivered n₀ (answers p status []) (n₀.respond p.cport p.message status []) :=
    delivered_respond (n := n₀) (Registry.requireRange_eq hs) status (Nat.zero_le _)
  have listening {n' : Node} (h : n₀.respond p.cport p.message status [] = .ok n') :=
    listening_respond h
  simp only [dispatched]
  generalize n₀.respond p.cport p.message status [] = outcome at delivered listening
  cases delivered with
  | sent sent => exact ⟨_, _, fun board => rfl, listening rfl, fun _ => ⟨sent, rfl⟩⟩
  | refused shut =>
    let counters := { n₀.counters with handlerErrors := n₀.counters.handlerErrors + 1 }
    exact ⟨n.link, counters, fun board => rfl, rfl, fun ready => absurd ready shut⟩

theorem dispatch_refuses_oversize :
    let n := ((ofParts { Config.empty with cports := [⟨1, .i2c⟩] } .fresh
      (.memory .fresh)).registerAll).2
    let p : Packet := ⟨0, ⟨3, 0x05, 0,
      [2, 0, 0x50, 0, 1, 0, 0x40, 0x9c, 0x51, 0, 1, 0, 0x40, 0x9c]⟩⟩
    (n.dispatch p).board = n.board ∧
      n.link.Sends [⟨0, ⟨3, 0x85, Status.overflow.code, []⟩⟩] (n.dispatch p).link := by
  intro n p
  have malformed : Malformed .i2c p.message.kind p.message.payload .overflow :=
    @Malformed.tooLong 2 [⟨0x50, 1, 40000⟩, ⟨0x51, 1, 40000⟩] [] rfl (Nat.zero_le _) (by decide)
  obtain ⟨link, counters, dispatched, -, answered⟩ :=
    dispatch_refuses_malformed (n := n) (p := p) rfl malformed
  have answers : answers p .overflow [] = [⟨0, ⟨3, 0x85, Status.overflow.code, []⟩⟩] := by decide
  rw [show n.dispatch p = _ from dispatched n.board, ← answers]
  exact ⟨rfl, (answered fun q => ⟨_, rfl⟩).1⟩

end Node

end CportNode
