import Uart16550.System.Basic

/-!
# Removing a line

`System.remove` undoes `System.add` in sections: the line stays taken while the worker is stopped,
the host delists the device and the device lets go of everything, and is free only then. Others may
act on the device between any two sections, and the host itself may have lines added while it
delists one. Nobody removes a line from inside a delivery of its own device, because the second
section waits for the worker that makes it.
-/

namespace Uart16550

namespace System

variable {η σ : Type}

/-! ### The sections -/

/-- First section: the line is no longer addressable, but still taken. -/
def claim (s : System η σ) (line : UInt8) : System η σ :=
  { s with table := s.table.put line .removing }

/-- Second section: the worker is stopped, if one is held. -/
def stopWorker (s : System η σ) (device : Nat) : Except Error Unit × System η σ :=
  match s.devices[device]? with
  | some d =>
    if d.holdsWorker then
      let (result, d) := d.disableIrq
      (result, s.modify device fun _ => d)
    else
      (.ok (), s)
  | none => (.ok (), s)

/-- Third section: the device no longer takes input from the wire. -/
def cutOff (s : System η σ) (device : Nat) : System η σ :=
  s.modify device (·.setRegistered false)

/-- Fourth section: the host delists the line, and may name a line that it wants added. -/
def delist [Host η] (s : System η σ) (info : LineInfo) : Except Error (Option UInt8) × System η σ :=
  let (result, host) := Host.unregister s.host info
  (result, { s with host })

/-- Still in the fourth section: the line that the host asked for is added, while the one that is
being removed is still taken. -/
def readd [Host η] (s : System η σ) :
    (requested : Option UInt8) → Option (UInt8 × Except Error Nat) × System η σ
  | some line =>
    let (result, s) := s.add line
    (some (line, result), s)
  | none => (none, s)

/-- Fifth section: the device lets go of everything. -/
def releaseDevice (s : System η σ) (device : Nat) : System η σ :=
  s.modify device (·.release)

/-- Last section: the line is free again. -/
def vacate (s : System η σ) (line : UInt8) : System η σ :=
  { s with table := s.table.vacate line }

/-! ### The whole -/

/-- The first of two failures. -/
def firstFailure {α : Type} (first : Except Error Unit) (second : Except Error α) :
    Except Error Unit :=
  match first, second with
  | .error e, _ => .error e
  | .ok (), .error e => .error e
  | .ok (), .ok _ => .ok ()

/-- What a removal leaves behind. -/
structure Removal (η σ : Type) where
  /-- The first failure on the way. A failure does not cut a removal short. -/
  result : Except Error Unit
  /-- The line that the host asked to have added, and what came of it. -/
  readded : Option (UInt8 × Except Error Nat)
  system : System η σ
  deriving DecidableEq

/-- Tears down a live line: worker, host, device, line. `reentrant` tells whether the host can
still reach the table to have a line added. -/
def removeWith [Host η] (reentrant : Bool) (s : System η σ) (line : UInt8) : Removal η σ :=
  match LineInfo.ofLine line with
  | .error e => { result := .error e, readded := none, system := s }
  | .ok info =>
    match s.table.slot line with
    | .live device =>
      let (stopped, s) := (s.claim line).stopWorker device
      let (delisted, s) := (s.cutOff device).delist info
      let (readded, s) := s.readd (if reentrant then delisted.toOption.join else none)
      { result := firstFailure stopped delisted
        readded
        system := (s.releaseDevice device).vacate line }
    | .free | .removing => { result := .error (.notInitialized line), readded := none, system := s }

/-- Tears down a live line. -/
def remove [Host η] (s : System η σ) (line : UInt8) : Removal η σ := s.removeWith true line

/-- Tears down every live line when the table itself goes away. Failures are passed over. -/
def removeAll [Host η] (s : System η σ) : System η σ :=
  s.table.lines.foldl (fun s line => (s.removeWith false line).system) s

end System

end Uart16550
