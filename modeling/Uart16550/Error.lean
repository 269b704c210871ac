/-!
# Causes of failure

Every refusal of the emulator is an `Error` that names its cause. `Error.message` is the wording
shown to people; `Error.category`, `Error.severity` and what follows from them tell a caller how to
react.
-/

namespace Uart16550

/-- Why an operation was refused. -/
inductive Error where
  /-- A batch longer than a queue can ever hold. -/
  | capacityExceeded (requested capacity : Nat)
  /-- A flush threshold outside one to sixteen. -/
  | invalidThreshold (threshold : Nat)
  /-- No register answers at this offset. -/
  | undefinedRegister (offset : UInt8)
  /-- The register at this offset cannot be written. -/
  | readOnlyRegister (offset : UInt8)
  /-- No legacy line has this number. -/
  | invalidLine (line : UInt8)
  /-- The line has no live device. -/
  | notInitialized (line : UInt8)
  /-- The line is already taken. -/
  | alreadyInitialized (line : UInt8)
  /-- The interrupt worker of the line is already held. -/
  | virtualIrqAlreadyEnabled (line : UInt8)
  /-- The line has no interrupt worker. -/
  | virtualIrqNotEnabled (line : UInt8)
  /-- The host refused to list or to delist the line. -/
  | registration (text : String)
  /-- The interrupt worker could not be started; `reason` is the system's own message. Here a start
  always succeeds, so nothing fails with this. -/
  | workerSpawn (reason : String)
  /-- The interrupt worker died while it delivered an interrupt. -/
  | workerPanicked (line : UInt8)
  /-- The command line asks for something the emulator cannot provide. -/
  | invalidConfiguration (text : String)
  deriving DecidableEq, Repr

/-- Results can be compared, so that statements about runs can be evaluated. -/
instance decidableEqExcept {ε α : Type} [DecidableEq ε] [DecidableEq α] :
    DecidableEq (Except ε α)
  | .ok a, .ok b => decidable_of_iff (a = b) (by simp)
  | .error e, .error f => decidable_of_iff (e = f) (by simp)
  | .ok _, .error _ => isFalse (by simp)
  | .error _, .ok _ => isFalse (by simp)

namespace Error

/-- The wording of an error. -/
def message : Error → String
  | .capacityExceeded requested capacity =>
    s!"FIFO capacity exceeded: {requested} bytes requested, capacity is {capacity}"
  | .invalidThreshold threshold => s!"Invalid TX flush threshold: {threshold}"
  | .undefinedRegister offset => s!"Access to undefined UART register offset {offset}"
  | .readOnlyRegister offset => s!"Write to read-only UART register offset {offset}"
  | .invalidLine line => s!"Invalid serial line: {line}"
  | .notInitialized line => s!"Serial line {line} is not initialized"
  | .alreadyInitialized line => s!"Serial line {line} is already initialized"
  | .virtualIrqAlreadyEnabled line => s!"Virtual IRQ already enabled on line {line}"
  | .virtualIrqNotEnabled line => s!"Virtual IRQ not enabled on line {line}"
  | .registration text => s!"Host port registration failed: {text}"
  | .workerSpawn reason => s!"Failed to spawn virtual IRQ worker: {reason}"
  | .workerPanicked line => s!"Virtual IRQ worker for line {line} panicked"
  | .invalidConfiguration text => s!"Invalid configuration: {text}"

/-- The system message below an error, for the one cause that has one. -/
def underlying : Error → Option String
  | .workerSpawn reason => some reason
  | _ => none

/-- Coarse kinds of failure, by which callers decide how to react. -/
inductive Category where
  | capacity
  | protocol
  | lifecycle
  | resource
  deriving DecidableEq, Repr

/-- How grave a failure is, mildest first. -/
inductive Severity where
  | info
  | warning
  | error
  | critical
  | fatal
  deriving DecidableEq, Repr

/-- The position of a severity in the order from mildest to gravest. -/
def Severity.rank : Severity → Nat
  | .info => 0
  | .warning => 1
  | .error => 2
  | .critical => 3
  | .fatal => 4

def category : Error → Category
  | .capacityExceeded .. | .invalidThreshold _ => .capacity
  | .undefinedRegister _ | .readOnlyRegister _ => .protocol
  | .invalidLine _ | .notInitialized _ | .alreadyInitialized _ | .virtualIrqAlreadyEnabled _
  | .virtualIrqNotEnabled _ | .registration _ | .invalidConfiguration _ => .lifecycle
  | .workerSpawn _ | .workerPanicked _ => .resource

def severity : Error → Severity
  | .capacityExceeded .. | .invalidThreshold _ | .invalidLine _ | .invalidConfiguration _ =>
    .warning
  | .undefinedRegister _ | .readOnlyRegister _ | .notInitialized _ | .alreadyInitialized _
  | .virtualIrqAlreadyEnabled _ | .virtualIrqNotEnabled _ | .registration _ => .error
  | .workerSpawn _ => .critical
  | .workerPanicked _ => .fatal

/-- Whether the caller may go on: anything below critical. -/
def isRecoverable (e : Error) : Bool := e.severity.rank < Severity.critical.rank

/-- Whether the error shows a hole in the register map, rather than a request out of season. -/
def isBug (e : Error) : Bool := e.category == .protocol

end Error

end Uart16550
