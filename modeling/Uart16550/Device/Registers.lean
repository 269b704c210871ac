import Uart16550.Device.Receive
import Uart16550.Device.Transmit
import Uart16550.Register.Decode

/-!
# Register reads and writes

`Device.read` and `Device.write` are what a host does to a device: resolve the offset, act on the
register, derive the interrupt identification again. An offset that no register answers leaves the
registers alone, but the identification is derived all the same and the access is counted.
`Device.input` and `Device.output` are the same accesses on a bus that cannot report errors.
-/

namespace Uart16550

namespace Device

variable {σ : Type}

/-! ### Reading -/

/-- The value of a register and what reading it does. Reading the interrupt identification or the
line status lowers the overrun flag; reading the data register takes out a byte. -/
def readRegister (d : Device σ) : ReadRegister → UInt8 × Device σ
  | .receiveHold => d.readData
  | .interruptEnable => (d.regs.ier, d)
  | .interruptIdent => (d.regs.iir, { d with regs.lsr.overrun := false })
  | .lineControl => (d.regs.lcr, d)
  | .modemControl => (d.regs.mcr, d)
  | .lineStatus => (d.regs.lsr.toByte, { d with regs.lsr.overrun := false })
  | .modemStatus => (d.regs.modemStatus, d)
  | .scratch => (d.regs.scr, d)
  | .divisorLow => (d.regs.dll, d)
  | .divisorHigh => (d.regs.dlm, d)

/-- A read at an offset. -/
def read (d : Device σ) (offset : UInt8) : Except Error UInt8 × Device σ :=
  if d.initialized then
    match ReadRegister.decode offset d.regs.divisorAccess with
    | .ok register =>
      let r := d.readRegister register
      (.ok r.1, r.2.refresh)
    | .error e => (.error e, d.refresh.record .protocolError)
  else
    (.error (.notInitialized d.line), d)

/-- A read that answers zero where `read` fails. -/
def input (d : Device σ) (offset : UInt8) : UInt8 × Device σ :=
  match d.read offset with
  | (.ok value, d) => (value, d)
  | (.error _, d) => (0, d)

/-! ### Writing -/

/-- A write to the interrupt enable register keeps the documented bits. A host that stops asking
for transmitter interrupts with bytes still queued gets them flushed first. -/
def writeInterruptEnable (d : Device σ) (value : UInt8) : Device σ × List Flush :=
  let masked := hasBit d.regs.ier InterruptEnable.transmitterEmpty &&
    !hasBit value InterruptEnable.transmitterEmpty
  let r := if masked && !d.tx.isEmpty then (d.flush .idle).2 else (d, [])
  ({ r.1 with regs.ier := value &&& InterruptEnable.implemented }, r.2)

/-- A write to the FIFO control register empties the queues that it names, bytes and all. With the
enable bit clear every other bit is ignored and the register reads as zero. -/
def writeFifoControl (d : Device σ) (value : UInt8) : Device σ :=
  if hasBit value FifoControl.enable then
    let d := { d with regs.fcr := value }
    let d := if hasBit value FifoControl.clearReceiver then
      { d with rx := d.rx.reset, regs.lsr.dataReady := false } else d
    if hasBit value FifoControl.clearTransmitter then
      { d with tx := d.tx.reset, regs.lsr := d.regs.lsr.setTransmitterIdle } else d
  else
    { d with regs.fcr := 0 }

/-- A write to the data register: to the receiver in loopback, to the transmitter otherwise. -/
def writeData (d : Device σ) (value : UInt8) : Device σ × List Flush :=
  if d.regs.loopback then
    (receive { d with regs.thr := value } value, [])
  else
    d.transmit value

/-- The effect of writing a register. -/
def writeRegister (d : Device σ) (value : UInt8) : WriteRegister → Device σ × List Flush
  | .transmitHold => d.writeData value
  | .interruptEnable => d.writeInterruptEnable value
  | .fifoControl => (d.writeFifoControl value, [])
  | .lineControl => ({ d with regs.lcr := value }, [])
  | .modemControl => ({ d with regs.mcr := value &&& ModemControl.implemented }, [])
  | .scratch => ({ d with regs.scr := value }, [])
  | .divisorLow => ({ d with regs.dll := value }, [])
  | .divisorHigh => ({ d with regs.dlm := value }, [])

/-- A write at an offset. -/
def write (d : Device σ) (offset value : UInt8) : Except Error Unit × Device σ × List Flush :=
  if d.initialized then
    match WriteRegister.decode offset d.regs.divisorAccess with
    | .ok register =>
      let r := d.writeRegister value register
      (.ok (), r.1.refresh, r.2)
    | .error e => (.error e, d.refresh.record .protocolError, [])
  else
    (.error (.notInitialized d.line), d, [])

/-- A write that does nothing more where `write` fails. -/
def output (d : Device σ) (offset value : UInt8) : Device σ × List Flush :=
  (d.write offset value).2

end Device

end Uart16550
