import Uart16550.Fifo.Basic
import Uart16550.LineInfo

/-!
# Configuration

What the command line asks for, and which of it the emulator can provide.
-/

namespace Uart16550

/-- What the program is asked to do. -/
structure Config where
  /-- The number of lines to bring up. -/
  lines : UInt8
  /-- The occupancy of the transmit queue at which it is flushed to standard output. -/
  threshold : Nat
  /-- Whether line 0 is put into loopback. -/
  loopback : Bool
  /-- How much is to be logged. -/
  verbosity : UInt8
  /-- Whether counting is switched off. -/
  noMetrics : Bool
  deriving DecidableEq, Repr

namespace Config

/-- One line that is flushed when its queue is full, logged with moderation. -/
def standard : Config where
  lines := 1
  threshold := Fifo.capacity
  loopback := false
  verbosity := 1
  noMetrics := false

/-- Why a configuration cannot be provided. -/
inductive Fault where
  | noLines
  | tooManyLines (lines : UInt8)
  | badThreshold (threshold : Nat)
  deriving DecidableEq, Repr

/-- The wording of a fault. -/
def Fault.message : Fault → String
  | .noLines => "At least one line must be enabled"
  | .tooManyLines lines => s!"Too many lines. Maximum: {lineCount}, Got: {lines}"
  | .badThreshold threshold =>
    s!"TX threshold must be between 1 and {Fifo.capacity}. Got: {threshold}"

/-- Checks the number of lines first, then the threshold. -/
def validate (c : Config) : Except Fault Unit :=
  if c.lines = 0 then .error .noLines
  else if lineCount < c.lines.toNat then .error (.tooManyLines c.lines)
  else if c.threshold = 0 ∨ Fifo.capacity < c.threshold then .error (.badThreshold c.threshold)
  else .ok ()

/-- The levels of logging, from few messages to all. -/
inductive LogLevel where
  | warn
  | info
  | debug
  | trace
  deriving DecidableEq, Repr

/-- The level that a verbosity asks for. -/
def logLevel (c : Config) : LogLevel :=
  match c.verbosity.toNat with
  | 0 => .warn
  | 1 => .info
  | 2 => .debug
  | _ => .trace

/-- The name of a level. -/
def LogLevel.name : LogLevel → String
  | .warn => "warn"
  | .info => "info"
  | .debug => "debug"
  | .trace => "trace"

end Config

end Uart16550
