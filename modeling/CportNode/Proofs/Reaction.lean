import CportNode.Driver.Basic
import CportNode.Driver.Log

namespace CportNode

theorem Reaction.ofQuery_ne_quiet {α : Type} (payload : α → Bytes) (outcome : Except DriverError α) :
    Reaction.ofQuery payload outcome ≠ .quiet := by
  cases outcome <;> simp [Reaction.ofQuery]

theorem Board.reactTo_ne_quiet (b : Board) (outcome : Except DriverError Board) :
    (b.reactTo outcome).1 ≠ .quiet := by
  cases outcome <;> simp [Board.reactTo]

theorem Control.Query.execute_ne_quiet (q : Control.Query) (b : Board) :
    (q.execute b).1 ≠ .quiet := by
  have manifest (payload : Bytes → Bytes) : Control.manifestOf b payload ≠ .quiet := by
    unfold Control.manifestOf
    split <;> simp
  cases q with
  | manifestSize =>
    simp only [execute]
    exact manifest _
  | manifest => exact manifest _
  | timesync call => exact b.reactTo_ne_quiet _
  | lastEvent => exact Reaction.ofQuery_ne_quiet _ _
  | _ => simp [execute]

theorem Gpio.Request.execute_ne_quiet (r : Gpio.Request) (triggers : Gpio.Triggers) (b : Board) :
    (r.execute triggers b).1 ≠ .quiet := by
  cases r with
  | version => simp [execute]
  | activate line => simp [execute]
  | lineCount =>
    simp only [execute]
    split <;> simp
  | direction line => exact Reaction.ofQuery_ne_quiet _ _
  | level line => exact Reaction.ofQuery_ne_quiet _ _
  | setDebounce line microseconds =>
    simp only [execute]
    split
    · simp
    · exact b.reactTo_ne_quiet _
  | _ => exact b.reactTo_ne_quiet _

theorem I2c.Request.execute_ne_quiet (r : I2c.Request) (b : Board) : (r.execute b).1 ≠ .quiet := by
  cases r with
  | functionality => simp [execute]
  | transfer ops => exact Reaction.ofQuery_ne_quiet _ _

theorem Spi.Request.execute_ne_quiet (r : Spi.Request) (b : Board) : (r.execute b).1 ≠ .quiet := by
  cases r with
  | master => exact Reaction.ofQuery_ne_quiet _ _
  | device chipSelect => exact Reaction.ofQuery_ne_quiet _ _
  | transfer settings segments =>
    simp only [execute]
    split <;> simp
  | _ => simp [execute]

theorem Uart.Request.execute_ne_quiet (r : Uart.Request) (b : Board) :
    (r.execute b).1 ≠ .quiet := by
  cases r with
  | version => simp [execute]
  | setControlLines dtr rts =>
    simp only [execute, Uart.setControlLines]
    split
    · simp
    · exact Board.reactTo_ne_quiet _ _
  | _ => exact b.reactTo_ne_quiet _

theorem Loopback.Request.execute_ne_quiet (r : Loopback.Request) : r.execute ≠ .quiet := by
  cases r <;> simp [execute]

theorem Firmware.Request.execute_ne_quiet (r : Firmware.Request) (b : Board) :
    r.execute b ≠ .quiet := by
  cases r
  simp only [execute]
  split <;> simp

theorem Log.Request.decode_of_request {m : Message} (request : m.isResponse = false) :
    Log.Request.decode m.kind = .error .protocolBad := by
  have : m.kind ≠ Log.recordKind ||| Message.responseFlag := by
    intro acknowledgement
    rw [Message.isResponse, acknowledgement] at request
    exact absurd request (by decide)
  rw [decode, if_neg this]

theorem Board.builtIn_driverFor {b : Board} {protocol : Protocol} {d : Driver}
    (h : b.driverFor protocol = some d) : d.builtIn = true := by
  unfold driverFor at h
  split at h
  · cases h
  · cases protocol <;> cases h <;> rfl

end CportNode
