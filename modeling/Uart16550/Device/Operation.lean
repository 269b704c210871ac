import Uart16550.Device.Registers
import Uart16550.Device.VirtualIrq
import Uart16550.Metrics.Report

/-!
# Operations as data

`Access` lists what an interrupt handler may do to its own device, `Operation` everything that a
holder of a device may do. `Operation.run` is their meaning: a reply, the device afterwards and the
batches handed to the consumer on the way.
-/

namespace Uart16550

/-- What an operation answers. -/
inductive Reply where
  | done
  | byte (value : UInt8)
  | count (n : Nat)
  | flag (b : Bool)
  | info (info : LineInfo)
  | counters (metrics : Metrics)
  | text (s : String)
  | failed (e : Error)
  deriving DecidableEq, Repr

/-- The reply that carries a result, or the reason why there is none. -/
def Reply.ofExcept {α : Type} (reply : α → Reply) : Except Error α → Reply
  | .ok a => reply a
  | .error e => .failed e

/-- What an operation leaves behind. -/
structure Outcome (σ : Type) where
  reply : Reply
  device : Device σ
  /-- The batches handed to the consumer, in order. -/
  flushes : List Flush
  deriving DecidableEq

/-- What an interrupt handler may do to its device. -/
inductive Access where
  | read (offset : UInt8)
  | write (offset value : UInt8)
  /-- A read that answers zero where `read` fails. -/
  | input (offset : UInt8)
  /-- A write that reports no failure. -/
  | output (offset value : UInt8)
  | inject (bytes : List UInt8)
  | signalBreak
  | flush (reason : FlushReason)
  | reset
  /-- Detaches the interrupt sink. -/
  | detach
  deriving DecidableEq, Repr

/-- Everything that the holder of a device may do; `σ` is the type of interrupt sinks. -/
inductive Operation (σ : Type) where
  | access (a : Access)
  /-- Attaches an interrupt sink in place of any other. -/
  | attach (sink : σ)
  /-- Binds a consumer in place of any other. -/
  | bind (threshold : Nat) (label : String)
  | unbind
  | enableIrq
  | disableIrq
  /-- Asks whether a worker is held. -/
  | irqEnabled
  | info
  | counters
  | report
  | resetCounters
  deriving DecidableEq, Repr

namespace Device

variable {σ : Type}

/-- Binds a consumer. The threshold is checked before the device is. -/
def bind (d : Device σ) (threshold : Nat) (label : String) : Except Error Unit × Device σ :=
  match Consumer.make label threshold with
  | .error e => (.error e, d)
  | .ok consumer =>
    if d.initialized then
      (.ok (), { d with consumer := some consumer })
    else
      (.error (.notInitialized d.line), d)

/-- Lets go of the consumer. Bytes already queued stay. -/
def unbind (d : Device σ) : Except Error Unit × Device σ :=
  if d.initialized then
    (.ok (), { d with consumer := none })
  else
    (.error (.notInitialized d.line), d)

/-- Attaches an interrupt sink. Whatever was pending before is due now. -/
def attach (d : Device σ) (sink : σ) : Device σ :=
  refresh { d with sink := some sink }

/-- Detaches the interrupt sink. -/
def detach (d : Device σ) : Device σ :=
  { d with sink := none }

end Device

variable {σ : Type}

/-- A result with the device it leaves behind, as the outcome of an operation that flushes
nothing. -/
def Outcome.ofResult {α : Type} (reply : α → Reply) (r : Except Error α × Device σ) : Outcome σ :=
  { reply := .ofExcept reply r.1, device := r.2, flushes := [] }

/-- The meaning of an access. -/
def Access.run (d : Device σ) : Access → Outcome σ
  | .read offset => .ofResult .byte (d.read offset)
  | .write offset value =>
    let (result, device, flushes) := d.write offset value
    { reply := .ofExcept (fun _ => .done) result, device, flushes }
  | .input offset =>
    let (value, device) := d.input offset
    { reply := .byte value, device, flushes := [] }
  | .output offset value =>
    let (device, flushes) := d.output offset value
    { reply := .done, device, flushes }
  | .inject bytes => .ofResult .count (d.inject bytes)
  | .signalBreak => .ofResult .flag d.signalBreak
  | .flush reason =>
    let (bytes, device, flushes) := d.flush reason
    { reply := .count bytes.length, device := device.refresh, flushes }
  | .reset => { reply := .done, device := d.reset, flushes := [] }
  | .detach => { reply := .done, device := d.detach, flushes := [] }

/-- The meaning of an operation. -/
def Operation.run (d : Device σ) : Operation σ → Outcome σ
  | .access a => a.run d
  | .attach sink => { reply := .done, device := d.attach sink, flushes := [] }
  | .bind threshold label => .ofResult (fun _ => .done) (d.bind threshold label)
  | .unbind => .ofResult (fun _ => .done) d.unbind
  | .enableIrq => .ofResult (fun _ => .done) d.enableIrq
  | .disableIrq => .ofResult (fun _ => .done) d.disableIrq
  | .irqEnabled => { reply := .flag d.holdsWorker, device := d, flushes := [] }
  | .info => { reply := .info d.info, device := d, flushes := [] }
  | .counters => { reply := .counters d.metrics, device := d, flushes := [] }
  | .report => { reply := .text d.metrics.report, device := d, flushes := [] }
  | .resetCounters => { reply := .done, device := { d with metrics := d.metrics.reset }, flushes := [] }

end Uart16550
