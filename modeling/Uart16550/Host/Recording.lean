import Uart16550.Host.Basic

/-!
# A host that records

A host that lists devices in the order in which they were registered, and that can be told to
refuse its next call or to ask for a line in the middle of its next delisting.
-/

namespace Uart16550

/-- A host that lists devices in order of registration. -/
structure RecordingHost where
  /-- The devices listed, with the identity under which each was presented. -/
  entries : List (LineInfo × Nat) := []
  /-- Refuses the next registration with this text. -/
  refuseRegister : Option String := none
  /-- Refuses the next delisting with this text. -/
  refuseUnregister : Option String := none
  /-- Asks for this line at the end of the next delisting. -/
  request : Option UInt8 := none
  deriving DecidableEq, Repr

namespace RecordingHost

/-- Lists a device behind all others, unless told to refuse. -/
def register (h : RecordingHost) (info : LineInfo) (device : Nat) :
    Except Error Unit × RecordingHost :=
  match h.refuseRegister with
  | some text => (.error (.registration text), { h with refuseRegister := none })
  | none => (.ok (), { h with entries := h.entries ++ [(info, device)] })

/-- Delists every device of a line, unless told to refuse. -/
def unregister (h : RecordingHost) (info : LineInfo) :
    Except Error (Option UInt8) × RecordingHost :=
  match h.refuseUnregister with
  | some text => (.error (.registration text), { h with refuseUnregister := none })
  | none =>
    (.ok h.request,
      { h with entries := h.entries.filter (·.1.line != info.line), request := none })

instance : Host RecordingHost where
  register := register
  unregister := unregister

/-- The device listed first under a line. -/
def find? (h : RecordingHost) (line : UInt8) : Option Nat :=
  (h.entries.find? (·.1.line == line)).map (·.2)

end RecordingHost

end Uart16550
