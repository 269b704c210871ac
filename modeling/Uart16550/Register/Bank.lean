import Uart16550.Register.LineStatus

/-!
# The register bank

The twelve registers of one chip and what is read off them without changing them: the divisor,
the two mode bits and the modem status as the host sees it.
-/

namespace Uart16550

/-- The addressable state of one chip. -/
structure RegisterBank where
  /-- Receive buffer: the byte taken out of the receive queue last. -/
  rbr : UInt8
  /-- Transmit holding register: the byte written to the data slot last. -/
  thr : UInt8
  /-- Interrupt enable register. -/
  ier : UInt8
  /-- Interrupt identification register, as derived last. -/
  iir : UInt8
  /-- FIFO control register, kept for inspection. -/
  fcr : UInt8
  /-- Line control register. -/
  lcr : UInt8
  /-- Modem control register. -/
  mcr : UInt8
  /-- Line status register. -/
  lsr : LineStatus
  /-- Modem status register. -/
  msr : UInt8
  /-- Scratch register. -/
  scr : UInt8
  /-- Divisor latch, low byte. -/
  dll : UInt8
  /-- Divisor latch, high byte. -/
  dlm : UInt8
  deriving DecidableEq, Repr

namespace RegisterBank

/-- Power-on values: interrupts off, the transmitter idle, the interrupt gate of personal
computers open, and the cable reporting carrier and readiness. -/
def powerOn : RegisterBank where
  rbr := 0
  thr := 0
  ier := 0
  iir := 0xC1
  fcr := 0
  lcr := 0
  mcr := ModemControl.out2
  lsr := LineStatus.idle
  msr := ModemStatus.carrierDetect ||| ModemStatus.dataSetReady ||| ModemStatus.clearToSend
  scr := 0
  dll := 0
  dlm := 0

instance : Inhabited RegisterBank := ⟨powerOn⟩

/-- Back to the power-on values, whatever was stored. -/
def reset (_ : RegisterBank) : RegisterBank := powerOn

/-- Whether offsets 0 and 1 address the divisor latch. -/
def divisorAccess (r : RegisterBank) : Bool := hasBit r.lcr LineControl.divisorAccess

/-- Whether the transmitter is fed back into the receiver. -/
def loopback (r : RegisterBank) : Bool := hasBit r.mcr ModemControl.loop

/-- The clock divisor. -/
def divisor (r : RegisterBank) : Nat := r.dll.toNat + 256 * r.dlm.toNat

/-- The modem status as the host sees it. In loopback the four handshake inputs are wired to the
modem control outputs and only the change flags are the register's own. -/
def modemStatus (r : RegisterBank) : UInt8 :=
  if r.loopback then
    r.msr &&& ModemStatus.deltas |||
      (bitIf (hasBit r.mcr ModemControl.requestToSend) ModemStatus.clearToSend |||
        bitIf (hasBit r.mcr ModemControl.dataTerminalReady) ModemStatus.dataSetReady |||
        bitIf (hasBit r.mcr ModemControl.out1) ModemStatus.ringIndicator |||
        bitIf (hasBit r.mcr ModemControl.out2) ModemStatus.carrierDetect)
  else
    r.msr

end RegisterBank

end Uart16550
