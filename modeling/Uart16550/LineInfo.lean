import Uart16550.Error

/-!
# Serial lines

The four serial lines of a personal computer, with the addresses at which the host finds them.
-/

namespace Uart16550

/-- The number of lines that the emulator can provide. -/
abbrev lineCount : Nat := 4

/-- Identity of an emulated device as presented to the host. -/
structure LineInfo where
  line : UInt8
  ioBase : UInt16
  irq : UInt32
  /-- The highest speed: the clock divided by sixteen. -/
  baudBase : UInt32
  deriving DecidableEq, Repr

namespace LineInfo

/-- Standard I/O base and interrupt number of each line. -/
def legacyAddresses : Vector (UInt16 × UInt32) lineCount :=
  #v[(0x3F8, 4), (0x2F8, 3), (0x3E8, 4), (0x2E8, 3)]

/-- The highest speed of a chip clocked at 1.8432 MHz. -/
def legacyBaudBase : UInt32 := 115200

/-- The identity of the device of a line, by the line's number. -/
def ofLine (line : UInt8) : Except Error LineInfo :=
  if h : line.toNat < lineCount then
    let (ioBase, irq) := legacyAddresses[line.toNat]
    .ok { line, ioBase, irq, baudBase := legacyBaudBase }
  else
    .error (.invalidLine line)

end LineInfo

end Uart16550
