import Uart16550.Device.Operation

/-!
# Scripted interrupt sinks

An interrupt sink whose behaviour is given in advance: a list of scripts, of which each delivery
runs the first and drops it; once the list is used up a delivery runs nothing. A script accesses
the device that interrupted, so it may arm the worker again, detach its own sink or crash.

`Device.settle` lets the worker of such a device go on until it is idle. Every look at the device
that runs a script shortens the list, and without a script nothing arms the worker again, so one
look more than there are scripts is enough.
-/

namespace Uart16550

/-- One step of a script. -/
inductive Instruction where
  | access (a : Access)
  /-- The sink crashes here, and the worker with it. -/
  | crash
  deriving DecidableEq, Repr

/-- What one delivery makes a sink do. -/
abbrev Script := List Instruction

/-- The scripts of the deliveries still to come. -/
abbrev ScriptedSink := List Script

/-- One call of an interrupt sink, with what its script was answered. -/
structure Delivery where
  line : UInt8
  iir : UInt8
  replies : List Reply
  deriving DecidableEq, Repr

/-- What a script leaves behind. -/
structure Handling (σ : Type) where
  /-- The replies to its accesses, in order. -/
  replies : List Reply
  device : Device σ
  flushes : List Flush
  crashed : Bool
  deriving DecidableEq

/-- Runs a script on the device that interrupted, up to its end or to a crash. -/
def Script.run {σ : Type} (d : Device σ) : Script → Handling σ
  | [] => { replies := [], device := d, flushes := [], crashed := false }
  | .crash :: _ => { replies := [], device := d, flushes := [], crashed := true }
  | .access a :: rest =>
    let o := a.run d
    let h := run o.device rest
    { h with replies := o.reply :: h.replies, flushes := o.flushes ++ h.flushes }

namespace Device

/-- What looks of the worker leave behind. -/
structure Settled where
  device : Device ScriptedSink
  deliveries : List Delivery
  flushes : List Flush
  deriving DecidableEq

/-- Runs the first script of a sink for a captured interrupt. The delivery is counted once the
script has ended; a crash kills the worker instead. -/
def serve (d : Device ScriptedSink) (iir : UInt8) (sink : ScriptedSink) : Settled :=
  let h := Script.run { d with sink := some sink.tail } (sink.headD [])
  { device :=
      if h.crashed then { h.device with worker := .dead } else h.device.record .interrupt
    deliveries := [{ line := d.line, iir := iir, replies := h.replies }]
    flushes := h.flushes }

/-- One look of the worker, and what the sink does with what it finds. -/
def wake (d : Device ScriptedSink) : Settled :=
  match d.capture with
  | (.deliver iir sink, d) => d.serve iir sink
  | (.stopped, d) | (.spurious, d) | (.unattended, d) =>
    { device := d, deliveries := [], flushes := [] }

/-- At most `looks` looks of the worker, as long as it is armed. -/
def settleWithin (d : Device ScriptedSink) : (looks : Nat) → Settled
  | 0 => { device := d, deliveries := [], flushes := [] }
  | looks + 1 =>
    if d.isArmed then
      let first := d.wake
      let rest := first.device.settleWithin looks
      { rest with
        deliveries := first.deliveries ++ rest.deliveries
        flushes := first.flushes ++ rest.flushes }
    else
      { device := d, deliveries := [], flushes := [] }

/-- The number of scripts that the attached sink has left. -/
def scriptsLeft (d : Device ScriptedSink) : Nat :=
  match d.sink with
  | some sink => sink.length
  | none => 0

/-- Lets the worker go on until it is idle or dead. -/
def settle (d : Device ScriptedSink) : Settled := d.settleWithin (d.scriptsLeft + 1)

/-- What an operation leaves behind once the worker is idle again. -/
structure Response where
  reply : Reply
  device : Device ScriptedSink
  flushes : List Flush
  deliveries : List Delivery
  deriving DecidableEq

/-- An operation, and all that its interrupts bring about. -/
def step (d : Device ScriptedSink) (op : Operation ScriptedSink) : Response :=
  let o := op.run d
  let s := o.device.settle
  { reply := o.reply
    device := s.device
    flushes := o.flushes ++ s.flushes
    deliveries := s.deliveries }

end Device

end Uart16550
