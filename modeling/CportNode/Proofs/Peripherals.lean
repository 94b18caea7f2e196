import CportNode.Driver.Basic

namespace CportNode

inductive Peripheral
  | gpio
  | i2c
  | spi
  | uart
  | timesync

def Driver.peripheral? : Driver → Option Peripheral
  | control => some .timesync
  | gpio _ => some .gpio
  | i2c => some .i2c
  | spi => some .spi
  | uart => some .uart
  | _ => none

theorem Driver.peripheral?_ne {d e : Driver} (h : d.name ≠ e.name) (p : Peripheral) :
    d.peripheral? = some p → e.peripheral? ≠ some p := by
  rintro acts acts'
  refine h ?_
  cases p <;> cases d <;> cases acts <;> cases e <;> cases acts' <;> rfl

namespace Board

def fit (b other : Board) : Option Peripheral → Board
  | some .gpio => { b with gpio := other.gpio }
  | some .i2c => { b with i2c := other.i2c }
  | some .spi => { b with spi := other.spi }
  | some .uart => { b with uart := other.uart }
  | some .timesync => { b with timesync := other.timesync }
  | none => b

def Agrees (part : Option Peripheral) (b b' : Board) : Prop :=
  ∃ gpio i2c spi uart timesync, b' = fit { b with gpio, i2c, spi, uart, timesync } b part

variable {part part' : Option Peripheral} {b b' : Board}

theorem Agrees.refl (part : Option Peripheral) (b : Board) : Agrees part b b := by
  refine ⟨b.gpio, b.i2c, b.spi, b.uart, b.timesync, ?_⟩
  rcases part with _ | part
  · rfl
  · cases part <;> rfl

theorem Agrees.fit_eq (h : Agrees part b b') : b'.fit b part = b' := by
  obtain ⟨gpio, i2c, spi, uart, timesync, rfl⟩ := h
  rcases part with _ | part
  · rfl
  · cases part <;> rfl

theorem agrees_fit (apart : ∀ p, part = some p → part' ≠ some p) (b other : Board) :
    Agrees part b (b.fit other part') := by
  refine ⟨(b.fit other part').gpio, (b.fit other part').i2c, (b.fit other part').spi,
    (b.fit other part').uart, (b.fit other part').timesync, ?_⟩
  rcases part with _ | p <;> rcases part' with _ | p'
  · rfl
  · cases p' <;> rfl
  · cases p <;> rfl
  · cases p <;> cases p' <;> first | rfl | exact absurd rfl (apart _ rfl)

theorem fit_comm (apart : ∀ p, part = some p → part' ≠ some p) (b x y : Board) :
    (b.fit x part).fit y part' = (b.fit y part').fit x part := by
  rcases part with _ | p <;> rcases part' with _ | p'
  · rfl
  · rfl
  · rfl
  · cases p <;> cases p' <;> first | rfl | exact absurd rfl (apart _ rfl)

theorem Agrees.obstacle? (h : Agrees part b b') (c : Capability) :
    b'.obstacle? c = b.obstacle? c := by
  obtain ⟨gpio, i2c, spi, uart, timesync, rfl⟩ := h
  rcases part with _ | part
  · rfl
  · cases part <;> rfl

theorem Agrees.guarded (h : Agrees part b b') {α : Type} (c : Capability)
    (call : Except DriverError α) : b'.guarded c call = b.guarded c call := by
  rw [Board.guarded, Board.guarded, h.obstacle?]

theorem Agrees.fixed (h : Agrees part b b') :
    b'.manifest = b.manifest ∧ b'.runningVersion = b.runningVersion := by
  obtain ⟨gpio, i2c, spi, uart, timesync, rfl⟩ := h
  rcases part with _ | part
  · exact ⟨rfl, rfl⟩
  · cases part <;> exact ⟨rfl, rfl⟩

/-- A request that is carried out on one peripheral: on boards that agree on it, it comes to the
same reaction and leaves the same there. -/
def Local (part : Option Peripheral) (act : Board → Reaction × Board) : Prop :=
  ∀ ⦃b b'⦄, Agrees part b b' → act b' = ((act b).1, b'.fit (act b).2 part)

theorem Local.query {answer : Board → Reaction}
    (same : ∀ ⦃b b'⦄, Agrees part b b' → answer b' = answer b) :
    Local part fun b => (answer b, b) := by
  intro b b' agrees
  simp only [same agrees, agrees.fit_eq]

theorem Local.reactTo {call : Board → Except DriverError Board}
    (same : ∀ ⦃b b'⦄, Agrees part b b' → call b' = (call b).map (b'.fit · part)) :
    Local part fun b => b.reactTo (call b) := by
  intro b b' agrees
  simp only [same agrees]
  cases call b with
  | error e =>
    show (_, b') = (_, b'.fit b part)
    rw [agrees.fit_eq]
    rfl
  | ok b => rfl

theorem local_gpioCall (c : Capability)
    (change : Gpio.Bank → Except DriverError Gpio.Bank) :
    Local (some .gpio) fun b => b.reactTo (b.guarded c (b.withGpio (change b.gpio))) := by
  refine .reactTo fun b b' agrees => ?_
  simp only [agrees.guarded]
  obtain ⟨gpio, i2c, spi, uart, timesync, rfl⟩ := agrees
  simp only [guarded, withGpio, fit]
  cases b.obstacle? c with
  | some e => rfl
  | none => cases change b.gpio <;> rfl

theorem local_uartCall (c : Capability) (change : Uart.SerialLine → Uart.SerialLine) :
    Local (some .uart) fun b =>
      b.reactTo (b.guarded c (.ok { b with uart := change b.uart })) := by
  refine .reactTo fun b b' agrees => ?_
  simp only [agrees.guarded]
  obtain ⟨gpio, i2c, spi, uart, timesync, rfl⟩ := agrees
  simp only [guarded, fit]
  cases b.obstacle? c <;> rfl

theorem local_timesyncCall (call : Timesync.Call) :
    Local (some .timesync) fun b => b.reactTo (b.timesyncCall call) := by
  refine .reactTo fun b b' agrees => ?_
  simp only [timesyncCall, agrees.guarded]
  obtain ⟨gpio, i2c, spi, uart, timesync, rfl⟩ := agrees
  simp only [guarded, fit]
  cases b.timesync with
  | none => rfl
  | some source => cases b.obstacle? (.ofTimesync call) <;> rfl

end Board

open Board

theorem Control.Query.local_execute (q : Query) : Local (some .timesync) q.execute := by
  have manifest (payload : Bytes → Bytes) :
      Local (some .timesync) fun b => (manifestOf b payload, b) :=
    .query fun b b' agrees => by rw [manifestOf, manifestOf, agrees.fixed.1]
  cases q with
  | manifestSize => exact manifest _
  | manifest => exact manifest _
  | timesync call => exact local_timesyncCall call
  | lastEvent =>
    refine .query fun b b' agrees => ?_
    simp only [Board.lastEvent, agrees.guarded]
    obtain ⟨gpio, i2c, spi, uart, timesync, rfl⟩ := agrees
    rfl
  | _ => exact .query fun _ _ _ => rfl

theorem Gpio.Request.local_execute (r : Request) (t : Triggers) :
    Local (some .gpio) (r.execute t) := by
  cases r with
  | version => exact .query fun _ _ _ => rfl
  | lineCount =>
    refine .query fun b b' agrees => ?_
    obtain ⟨gpio, i2c, spi, uart, timesync, rfl⟩ := agrees
    rfl
  | activate line => exact .query fun _ _ _ => rfl
  | direction line =>
    refine .query fun b b' agrees => ?_
    simp only [Board.direction, agrees.guarded]
    obtain ⟨gpio, i2c, spi, uart, timesync, rfl⟩ := agrees
    rfl
  | setInput line => exact local_gpioCall .gpioSetInput (·.setInput line)
  | setOutput line high => exact local_gpioCall .gpioSetOutput (·.setOutput line high)
  | level line =>
    refine .query fun b b' agrees => ?_
    simp only [Board.level, agrees.guarded]
    obtain ⟨gpio, i2c, spi, uart, timesync, rfl⟩ := agrees
    rfl
  | setLevel line high => exact local_gpioCall .gpioSetValue (·.setLevel line high)
  | setDebounce line microseconds =>
    by_cases zero : microseconds = 0
    · have nothing : (setDebounce line microseconds).execute t = fun b => (.done [], b) :=
        funext fun _ => if_pos zero
      exact nothing ▸ .query fun _ _ _ => rfl
    · have passed : (setDebounce line microseconds).execute t =
          fun b => b.reactTo (b.setDebounce line microseconds) := funext fun _ => if_neg zero
      exact passed ▸ local_gpioCall .gpioSetDebounce (·.setDebounce line microseconds)
  | irqType line trigger => exact local_gpioCall .gpioConfigureInterrupt (·.setTrigger line trigger)
  | irqMask line => exact local_gpioCall .gpioConfigureInterrupt (·.setTrigger line .disabled)
  | irqUnmask line => exact local_gpioCall .gpioConfigureInterrupt (·.setTrigger line (t line))

theorem I2c.perform_of_agrees (runs : List (UInt16 × List Leg)) {b b' : Board}
    (agrees : Agrees (some .i2c) b b') :
    perform b' runs = ((perform b runs).1, b'.fit (perform b runs).2 (some .i2c)) := by
  induction runs generalizing b b' with
  | nil => rw [perform, perform, agrees.fit_eq]
  | cons run runs ih =>
    simp only [perform, Board.i2cTransfer, agrees.guarded]
    obtain ⟨gpio, i2c, spi, uart, timesync, rfl⟩ := agrees
    simp only [Board.guarded, fit]
    cases b.obstacle? .i2cTransfer with
    | some e => rfl
    | none =>
      cases b.i2c.transfer run.1 run.2 with
      | error e => rfl
      | ok done =>
        have later : Agrees (some .i2c) { b with i2c := done.2 }
            { b with gpio, i2c := done.2, spi, uart, timesync } :=
          ⟨gpio, i2c, spi, uart, timesync, rfl⟩
        simp only [Except.map, ih later]
        rfl

theorem I2c.Request.local_execute (r : Request) : Local (some .i2c) r.execute := by
  cases r with
  | functionality => exact .query fun _ _ _ => rfl
  | transfer ops =>
    intro b b' agrees
    simp only [execute, perform_of_agrees _ agrees]

theorem Spi.Request.local_execute (r : Request) : Local (some .spi) r.execute := by
  cases r with
  | version => exact .query fun _ _ _ => rfl
  | master =>
    refine .query fun b b' agrees => ?_
    simp only [Board.spiMaster, agrees.guarded]
    obtain ⟨gpio, i2c, spi, uart, timesync, rfl⟩ := agrees
    rfl
  | device chipSelect =>
    refine .query fun b b' agrees => ?_
    simp only [Board.spiDevice, agrees.guarded]
    obtain ⟨gpio, i2c, spi, uart, timesync, rfl⟩ := agrees
    rfl
  | nothing => exact .query fun _ _ _ => rfl
  | transfer settings segments =>
    intro b b' agrees
    simp only [execute, Board.spiTransceive, agrees.guarded]
    obtain ⟨gpio, i2c, spi, uart, timesync, rfl⟩ := agrees
    simp only [Board.guarded, Board.fit]
    cases b.obstacle? .spiTransceive with
    | some e => rfl
    | none => cases b.spi.transceive settings segments <;> rfl

theorem Uart.Request.local_execute (r : Request) : Local (some .uart) r.execute := by
  cases r with
  | version => exact .query fun _ _ _ => rfl
  | send data =>
    exact local_uartCall .uartWrite fun line =>
      { line with transmitted := line.transmitted.append data }
  | setLineCoding coding =>
    exact local_uartCall .uartConfigure fun line => { line with coding := some coding }
  | setControlLines dtr rts =>
    intro b b' agrees
    simp only [execute, Uart.setControlLines, Board.setDtr, agrees.guarded]
    obtain ⟨gpio, i2c, spi, uart, timesync, rfl⟩ := agrees
    simp only [Board.guarded, fit]
    cases b.obstacle? .uartSetDtr with
    | some e => rfl
    | none =>
      have later : Agrees (some .uart) { b with uart := { b.uart with dtr } }
          { b with gpio, i2c, spi, uart := { b.uart with dtr }, timesync } :=
        ⟨gpio, i2c, spi, uart, timesync, rfl⟩
      exact local_uartCall .uartSetRts (fun line => { line with rts }) later
  | sendBreak =>
    exact local_uartCall .uartSendBreak fun line => { line with breaks := line.breaks + 1 }

theorem Firmware.Request.local_execute (r : Request) :
    Local none fun b => (r.execute b, b) :=
  .query fun b b' agrees => by rw [execute, execute, agrees.fixed.2]

end CportNode
