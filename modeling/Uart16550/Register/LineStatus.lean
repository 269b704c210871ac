import Uart16550.Register.Bits

/-!
# The line status register

Its eight bits as named flags. `LineStatus.toByte` and `LineStatus.ofByte` are inverse to each
other, so nothing is lost between the flags and the byte that a host reads.
-/

namespace Uart16550

/-- The line status register, lowest bit first. -/
structure LineStatus where
  /-- Received data waits. -/
  dataReady : Bool
  /-- A byte was lost because a queue was full. -/
  overrun : Bool
  parityError : Bool
  framingError : Bool
  /-- A break was seen on the line and not yet consumed. -/
  breakInterrupt : Bool
  /-- The transmit queue has room for a batch. -/
  holdingEmpty : Bool
  /-- The transmit queue is empty. -/
  transmitterEmpty : Bool
  /-- Some byte in the receive queue came with an error. -/
  fifoError : Bool
  deriving DecidableEq, Repr

namespace LineStatus

/-- The mask of `dataReady`. -/
abbrev dataReadyBit : UInt8 := 0x01

/-- The mask of `breakInterrupt`. -/
abbrev breakInterruptBit : UInt8 := 0x10

/-- The mask of `holdingEmpty`. -/
abbrev holdingEmptyBit : UInt8 := 0x20

/-- The byte that a host reads. -/
def toByte (s : LineStatus) : UInt8 :=
  bitIf s.dataReady dataReadyBit ||| bitIf s.overrun 0x02 ||| bitIf s.parityError 0x04 |||
  bitIf s.framingError 0x08 ||| bitIf s.breakInterrupt breakInterruptBit |||
  bitIf s.holdingEmpty holdingEmptyBit ||| bitIf s.transmitterEmpty 0x40 |||
  bitIf s.fifoError 0x80

/-- The flags that a byte stands for. -/
def ofByte (byte : UInt8) : LineStatus where
  dataReady := hasBit byte dataReadyBit
  overrun := hasBit byte 0x02
  parityError := hasBit byte 0x04
  framingError := hasBit byte 0x08
  breakInterrupt := hasBit byte breakInterruptBit
  holdingEmpty := hasBit byte holdingEmptyBit
  transmitterEmpty := hasBit byte 0x40
  fifoError := hasBit byte 0x80

/-- Power-on: both halves of the transmitter idle, nothing received. -/
def idle : LineStatus where
  dataReady := false
  overrun := false
  parityError := false
  framingError := false
  breakInterrupt := false
  holdingEmpty := true
  transmitterEmpty := true
  fifoError := false

/-- Whether one of the flags that raise a line status interrupt is up. -/
def hasError (s : LineStatus) : Bool :=
  s.overrun || s.parityError || s.framingError || s.breakInterrupt

/-- Lowers the four flags of `hasError`. -/
def clearErrors (s : LineStatus) : LineStatus :=
  { s with overrun := false, parityError := false, framingError := false, breakInterrupt := false }

/-- Raises both transmitter flags. -/
def setTransmitterIdle (s : LineStatus) : LineStatus :=
  { s with holdingEmpty := true, transmitterEmpty := true }

@[simp] theorem ofByte_toByte (s : LineStatus) : ofByte s.toByte = s := by
  obtain ⟨a, b, c, d, e, f, g, h⟩ := s
  revert a b c d e f g h
  decide

@[simp] theorem toByte_ofByte (byte : UInt8) : (ofByte byte).toByte = byte := by
  have h : ∀ n : Fin 256, (ofByte (UInt8.ofFin n)).toByte = UInt8.ofFin n := by decide +kernel
  simpa using h byte.toFin

@[simp] theorem hasError_clearErrors (s : LineStatus) : s.clearErrors.hasError = false := rfl

end LineStatus

end Uart16550
