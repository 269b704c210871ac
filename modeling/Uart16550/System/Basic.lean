import Uart16550.Device.Operation
import Uart16550.Host.Basic
import Uart16550.LineTable

/-!
# Systems

All devices, the table that gives some of them lines, and the host that lists them. A device
outlives its line: it is addressed by its place in `System.devices`, which only ever grows.
`System.add` gives a line a new device; `System.onLine` acts on the device of a line.
-/

namespace Uart16550

/-- Devices, the table that gives them lines, and the host that lists them. -/
structure System (η σ : Type) where
  /-- Every device ever created. -/
  devices : List (Device σ)
  table : LineTable
  host : η
  deriving DecidableEq

namespace System

variable {η σ : Type}

/-- A system without devices. -/
def empty (host : η) (counting : Bool) : System η σ :=
  { devices := [], table := .empty counting, host }

/-- Changes the device at a place, if there is one. -/
def modify (s : System η σ) (device : Nat) (f : Device σ → Device σ) : System η σ :=
  { s with devices := s.devices.modify device f }

/-- The place of the device of a live line. -/
def live? (s : System η σ) (line : UInt8) : Option Nat :=
  match s.table.get line with
  | .ok device => some device
  | .error _ => none

/-- An operation on the device at a place: the reply and the batches handed to its consumer. -/
def onDevice (s : System η σ) (device : Nat) (op : Operation σ) :
    Option (Reply × List Flush × System η σ) :=
  s.devices[device]?.map fun d =>
    let o := op.run d
    (o.reply, o.flushes, s.modify device fun _ => o.device)

/-- An operation on the device of a live line. -/
def onLine (s : System η σ) (line : UInt8) (op : Operation σ) :
    Except Error (Reply × List Flush × System η σ) :=
  match s.table.get line with
  | .error e => .error e
  | .ok device =>
    match s.onDevice device op with
    | some r => .ok r
    | none => .error (.notInitialized line)

/-- Creates a device for a free line. Nothing is stored before the host has accepted it. -/
def add [Host η] (s : System η σ) (line : UInt8) : Except Error Nat × System η σ :=
  match LineInfo.ofLine line with
  | .error e => (.error e, s)
  | .ok info =>
    if s.table.slot line = .free then
      let device := s.devices.length
      match Host.register s.host info device with
      | (.error e, host) => (.error e, { s with host })
      | (.ok (), host) =>
        (.ok device,
          { devices := s.devices ++ [(Device.create info s.table.counting).setRegistered true]
            table := s.table.put line (.live device)
            host })
    else
      (.error (.alreadyInitialized line), s)

end System

end Uart16550
