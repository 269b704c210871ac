import Uart16550.Device.Basic

/-!
# The receive side

Bytes enter the receive queue from the wire in batches (`Device.inject`) or one by one from the
transmitter in loopback (`Device.receive`), and leave it by reads of the data register
(`Device.readData`). A break reads as one zero byte that belongs to no queue.
-/

namespace Uart16550

namespace Device

variable {σ : Type}

/-- One byte arriving from the device's own transmitter. A byte that finds the queue full is
lost. -/
def receive (d : Device σ) (byte : UInt8) : Device σ :=
  match d.rx.push? byte with
  | none => record { d with regs.lsr.overrun := true } .overrun
  | some rx => record { d with rx := rx, regs.lsr.dataReady := true } (.received 1)

/-- A read of the data register: a break reads as zero; otherwise the oldest received byte, zero if
there is none. Taking out a byte lowers the error flags, and the last one the data flag too. -/
def readData (d : Device σ) : UInt8 × Device σ :=
  if d.regs.lsr.breakInterrupt then
    (0, { d with regs.lsr.breakInterrupt := false })
  else if d.regs.lsr.dataReady then
    match d.rx.pop? with
    | some (byte, rx) =>
      (byte, { d with
        rx := rx
        regs.rbr := byte
        regs.lsr := { d.regs.lsr.clearErrors with dataReady := !rx.isEmpty } })
    | none => (0, { d with regs.lsr.dataReady := false })
  else
    (0, d)

/-- Bytes arriving from the wire: the number accepted. More than a queue can hold is an error. A
device that no host lists, the wire cut off by loopback and a full queue accept nothing; otherwise
as many bytes as fit are queued, first to last, and the rest is left to the caller. -/
def inject (d : Device σ) (bytes : List UInt8) : Except Error Nat × Device σ :=
  if !d.initialized then
    (.error (.notInitialized d.line), d)
  else if Fifo.capacity < bytes.length then
    (.error (.capacityExceeded bytes.length Fifo.capacity), d)
  else if !d.registered || d.regs.loopback || d.regs.lsr.dataReady && d.rx.isFull then
    (.ok 0, d)
  else
    let (accepted, rx) := d.rx.pushAll bytes
    let d := { d with rx := rx }
    let d := if 0 < accepted then
      record { d with regs.lsr.dataReady := true } (.received accepted) else d
    (.ok accepted, d.refresh)

/-- A break on the line: false when loopback has cut off the wire. -/
def signalBreak (d : Device σ) : Except Error Bool × Device σ :=
  if !d.initialized then
    (.error (.notInitialized d.line), d)
  else if d.regs.loopback then
    (.ok false, d)
  else
    (.ok true, refresh { d with regs.lsr.breakInterrupt := true })

end Device

end Uart16550
