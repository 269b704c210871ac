/-!
# Bits of the control and status registers

The named bits of the registers that are kept as plain bytes. `hasBit` tests them; the line status
register, whose bits change one by one all the time, has a type of its own
(`Uart16550.Register.LineStatus`).
-/

namespace Uart16550

/-- Whether some bit of `mask` is set in `byte`. -/
def hasBit (byte mask : UInt8) : Bool := byte &&& mask != 0

/-- The bits of `mask` if `on`, else none. -/
def bitIf (on : Bool) (mask : UInt8) : UInt8 := if on then mask else 0

/-! ### Interrupt enable register -/

namespace InterruptEnable

/-- Asks for an interrupt while received data waits. -/
abbrev receivedData : UInt8 := 0x01

/-- Asks for an interrupt while the transmitter has room. -/
abbrev transmitterEmpty : UInt8 := 0x02

/-- Asks for an interrupt on a line error or a break. -/
abbrev lineStatus : UInt8 := 0x04

/-- The documented bits; a write drops all others. -/
abbrev implemented : UInt8 := 0x0F

end InterruptEnable

/-! ### FIFO control register -/

namespace FifoControl

/-- Gates every other bit of the register. -/
abbrev enable : UInt8 := 0x01

/-- Empties the receive queue. -/
abbrev clearReceiver : UInt8 := 0x02

/-- Empties the transmit queue. -/
abbrev clearTransmitter : UInt8 := 0x04

end FifoControl

/-! ### Line control register -/

namespace LineControl

/-- The divisor latch access bit: offsets 0 and 1 address the divisor. -/
abbrev divisorAccess : UInt8 := 0x80

end LineControl

/-! ### Modem control register -/

namespace ModemControl

abbrev dataTerminalReady : UInt8 := 0x01

abbrev requestToSend : UInt8 := 0x02

abbrev out1 : UInt8 := 0x04

/-- Gates the interrupt line on personal computers. -/
abbrev out2 : UInt8 := 0x08

/-- Feeds the transmitter back into the receiver. -/
abbrev loop : UInt8 := 0x10

/-- The documented bits; a write drops all others. -/
abbrev implemented : UInt8 := 0x1F

end ModemControl

/-! ### Modem status register -/

namespace ModemStatus

/-- The four change flags. -/
abbrev deltas : UInt8 := 0x0F

abbrev clearToSend : UInt8 := 0x10

abbrev dataSetReady : UInt8 := 0x20

abbrev ringIndicator : UInt8 := 0x40

abbrev carrierDetect : UInt8 := 0x80

end ModemStatus

end Uart16550
