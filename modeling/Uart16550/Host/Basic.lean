import Uart16550.LineInfo

/-!
# Hosts

What the table of lines needs of a host: somebody who lists devices and delists them again, who may
refuse either, and who may ask for a line in the middle of a delisting.
-/

namespace Uart16550

/-- What the table needs of a host: a place to list devices. -/
class Host (η : Type) where
  /-- Lists the device at the given place; a host that refuses lists nothing. -/
  register : η → LineInfo → (device : Nat) → Except Error Unit × η
  /-- Delists a line. A host that does so may ask for a line to be added at once. -/
  unregister : η → LineInfo → Except Error (Option UInt8) × η

end Uart16550
