import Uart16550.Error

/-!
# The register map

Eight offsets carry more registers than eight: offsets 0 and 1 belong to the divisor latch while
the divisor latch access bit is set, and several offsets mean one register when read and another
when written. `ReadRegister.decode` and `WriteRegister.decode` resolve an offset, so what follows
never has to deal with a register that cannot be read, or cannot be written.
-/

namespace Uart16550

/-! ### Offsets -/

namespace Offset

/-- The data slot. -/
abbrev data : UInt8 := 0

/-- The interrupt enable register. -/
abbrev interruptEnable : UInt8 := 1

/-- The FIFO control register, where it is written. -/
abbrev fifoControl : UInt8 := 2

/-- The modem control register. -/
abbrev modemControl : UInt8 := 4

/-- The line status register. -/
abbrev lineStatus : UInt8 := 5

end Offset

/-! ### Registers -/

/-- A register that can be read. -/
inductive ReadRegister where
  | receiveHold
  | interruptEnable
  | interruptIdent
  | lineControl
  | modemControl
  | lineStatus
  | modemStatus
  | scratch
  | divisorLow
  | divisorHigh
  deriving DecidableEq, Repr

/-- A register that can be written. -/
inductive WriteRegister where
  | transmitHold
  | interruptEnable
  | fifoControl
  | lineControl
  | modemControl
  | scratch
  | divisorLow
  | divisorHigh
  deriving DecidableEq, Repr

/-- The register that a read at `offset` addresses; `divisorAccess` is the divisor latch access
bit. -/
def ReadRegister.decode (offset : UInt8) (divisorAccess : Bool) : Except Error ReadRegister :=
  match offset.toNat with
  | 0 => .ok (if divisorAccess then .divisorLow else .receiveHold)
  | 1 => .ok (if divisorAccess then .divisorHigh else .interruptEnable)
  | 2 => .ok .interruptIdent
  | 3 => .ok .lineControl
  | 4 => .ok .modemControl
  | 5 => .ok .lineStatus
  | 6 => .ok .modemStatus
  | 7 => .ok .scratch
  | _ => .error (.undefinedRegister offset)

/-- The register that a write at `offset` addresses; `divisorAccess` is the divisor latch access
bit. -/
def WriteRegister.decode (offset : UInt8) (divisorAccess : Bool) : Except Error WriteRegister :=
  match offset.toNat with
  | 0 => .ok (if divisorAccess then .divisorLow else .transmitHold)
  | 1 => .ok (if divisorAccess then .divisorHigh else .interruptEnable)
  | 2 => .ok .fifoControl
  | 3 => .ok .lineControl
  | 4 => .ok .modemControl
  | 5 => .error (.readOnlyRegister offset)
  | 6 => .error (.readOnlyRegister offset)
  | 7 => .ok .scratch
  | _ => .error (.undefinedRegister offset)

end Uart16550
