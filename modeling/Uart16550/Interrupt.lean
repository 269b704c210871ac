import Uart16550.Register.Bank

/-!
# Interrupt identification

`RegisterBank.cause` is the highest-ranking enabled condition, a function of the interrupt enable
and line status registers alone. `RegisterBank.ident` is the same as the byte of the interrupt
identification register, and `Cause.ofIdent` reads a cause back off such a byte.
-/

namespace Uart16550

/-- A condition that raises an interrupt, highest rank first. -/
inductive Cause where
  | lineStatus
  | receivedData
  | transmitterEmpty
  deriving DecidableEq, Repr

namespace Interrupt

/-- The bit that is set when no interrupt is pending. -/
abbrev noneBit : UInt8 := 0x01

/-- The bits that hold the cause. -/
abbrev causeMask : UInt8 := 0x0E

/-- Both bits that report the queues as enabled. They are always set. -/
abbrev fifosEnabled : UInt8 := 0xC0

/-- Whether an interrupt identification byte reports a pending interrupt. -/
def isPending (iir : UInt8) : Bool := !hasBit iir noneBit

end Interrupt

namespace Cause

/-- The cause bits of the interrupt identification register. -/
def id : Cause → UInt8
  | .lineStatus => 0x06
  | .receivedData => 0x04
  | .transmitterEmpty => 0x02

/-- The cause that an interrupt identification byte reports, if any. -/
def ofIdent (iir : UInt8) : Option Cause :=
  if Interrupt.isPending iir then
    let bits := iir &&& Interrupt.causeMask
    if bits == Cause.lineStatus.id then some .lineStatus
    else if bits == Cause.receivedData.id then some .receivedData
    else if bits == Cause.transmitterEmpty.id then some .transmitterEmpty
    else none
  else
    none

end Cause

namespace RegisterBank

/-- The highest-ranking enabled condition. -/
def cause (r : RegisterBank) : Option Cause :=
  if hasBit r.ier InterruptEnable.lineStatus && r.lsr.hasError then
    some .lineStatus
  else if hasBit r.ier InterruptEnable.receivedData && r.lsr.dataReady then
    some .receivedData
  else if hasBit r.ier InterruptEnable.transmitterEmpty && r.lsr.holdingEmpty then
    some .transmitterEmpty
  else
    none

/-- The interrupt identification byte that belongs to a cause, or to none. -/
def identOf (cause : Option Cause) : UInt8 :=
  (match cause with
    | some c => c.id
    | none => Interrupt.noneBit) ||| Interrupt.fifosEnabled

/-- The interrupt identification byte of the present registers. -/
def ident (r : RegisterBank) : UInt8 := identOf r.cause

/-- An identification byte reads back as the cause it was made from. -/
@[simp] theorem ofIdent_identOf (cause : Option Cause) : Cause.ofIdent (identOf cause) = cause := by
  cases cause with
  | none => rfl
  | some c => cases c <;> rfl

@[simp] theorem ofIdent_ident (r : RegisterBank) : Cause.ofIdent r.ident = r.cause :=
  ofIdent_identOf r.cause

/-- An interrupt is pending exactly when there is a cause. -/
@[simp] theorem isPending_ident (r : RegisterBank) :
    Interrupt.isPending r.ident = r.cause.isSome := by
  unfold ident
  cases r.cause with
  | none => rfl
  | some c => cases c <;> rfl

end RegisterBank

end Uart16550
