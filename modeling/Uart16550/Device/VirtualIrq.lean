import Uart16550.Device.Basic

/-!
# The interrupt worker

No wire runs from the emulated chip to its host, so each device may hold a worker that stands in
for one. `Device.refresh` arms it whenever an interrupt is pending; the worker then wakes, disarms
itself and looks: `Device.capture` is this one look, with everything that it can find. What an
attached sink does with a captured interrupt is not the device's business.

The worker is held in two places that have to agree: `Device.worker`, and `Device.virq` which the
transitions see.

Starting a worker is assumed to succeed, and whoever stops it is assumed not to be the worker: a
sink that stops the worker by which it is being told would have to wait for itself.
-/

namespace Uart16550

namespace Device

variable {σ : Type}

/-- Whether a worker is held, alive or dead. -/
def holdsWorker (d : Device σ) : Bool := d.worker != .absent

/-- Starts a worker, armed at once if an interrupt is pending already. The system is assumed to have
room for one more: there is no failure to start it. -/
def enableIrq (d : Device σ) : Except Error Unit × Device σ :=
  if d.holdsWorker then
    (.error (.virtualIrqAlreadyEnabled d.line), d)
  else if !d.initialized then
    (.error (.notInitialized d.line), d)
  else
    (.ok (), { refresh { d with virq := { enabled := true } } with worker := .alive })

/-- Asks the worker to end; it looks for this before anything else. -/
def requestStop (d : Device σ) : Device σ :=
  { d with virq.stop := true }

/-- Collects a worker that was asked to end, and with it everything that it shared with the
device. -/
def joinWorker (d : Device σ) : Device σ :=
  { d with worker := .absent, virq := {} }

/-- Stops the worker and waits for it, so whoever asks is not the worker. It is gone afterwards in
any case; a worker found dead is reported. -/
def disableIrq (d : Device σ) : Except Error Unit × Device σ :=
  match d.worker with
  | .absent => (.error (.virtualIrqNotEnabled d.line), d)
  | .alive => (.ok (), d.requestStop.joinWorker)
  | .dead => (.error (.workerPanicked d.line), d.requestStop.joinWorker)

/-- What the worker finds when it wakes. -/
inductive Capture (σ : Type) where
  /-- It was asked to end. -/
  | stopped
  /-- No interrupt is pending any more. -/
  | spurious
  /-- An interrupt is pending, but nobody is attached. -/
  | unattended
  /-- An interrupt is pending for a sink. -/
  | deliver (iir : UInt8) (sink : σ)
  deriving DecidableEq, Repr

/-- Whether the worker is about to look for an interrupt. -/
def isArmed (d : Device σ) : Bool :=
  d.worker == .alive && d.virq.signaled && !d.virq.stop

/-- One look of the worker, which disarms it. A wakeup with nothing pending is counted. -/
def capture (d : Device σ) : Capture σ × Device σ :=
  if d.virq.stop then
    (.stopped, d)
  else
    let d := { d with virq.signaled := false }
    if Interrupt.isPending d.regs.iir then
      match d.sink with
      | some sink => (.deliver d.regs.iir sink, d)
      | none => (.unattended, d)
    else
      (.spurious, d.record .spuriousWakeup)

end Device

end Uart16550
