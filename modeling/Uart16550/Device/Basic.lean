import Uart16550.Fifo.Basic
import Uart16550.Interrupt
import Uart16550.LineInfo
import Uart16550.Metrics.Basic

/-!
# Devices

A `Device` is one emulated chip with everything that belongs to it: registers, queues, life cycle
flags, the consumer of transmitted bytes, the sink to be told of interrupts, the interrupt worker
and the counters. The type of sinks is a parameter, because the device never looks into one.

Every transition that touches the registers ends in `Device.refresh`, which derives the interrupt
identification again and arms the worker.
-/

namespace Uart16550

/-- The consumer of the bytes that a device transmits. It takes what it is handed and returns; one
that crashes in a call is not described. -/
structure Consumer where
  /-- The name under which its calls are recorded. -/
  label : String
  /-- The occupancy of the transmit queue at which it is called. -/
  threshold : Nat
  /-- Where bytes are moved before they are handed over; old contents stay in it. -/
  buffer : List UInt8
  threshold_pos : 0 < threshold
  threshold_le : threshold ≤ Fifo.capacity
  length_buffer : buffer.length = Fifo.capacity

/-- Consumers are equal that agree in everything but proofs. -/
instance : DecidableEq Consumer := fun c d =>
  decidable_of_iff (c.label = d.label ∧ c.threshold = d.threshold ∧ c.buffer = d.buffer) (by
    cases c
    cases d
    simp)

/-- A consumer with a fresh buffer, provided that a full queue can reach its threshold. -/
def Consumer.make (label : String) (threshold : Nat) : Except Error Consumer :=
  if h : 0 < threshold ∧ threshold ≤ Fifo.capacity then
    .ok {
      label, threshold
      buffer := List.replicate Fifo.capacity 0
      threshold_pos := h.1
      threshold_le := h.2
      length_buffer := List.length_replicate }
  else
    .error (.invalidThreshold threshold)

/-- What the interrupt worker and its device share. -/
structure VirtualIrq where
  /-- The worker wants to be told of interrupts. -/
  enabled : Bool := false
  /-- An interrupt was pending at some time since the worker looked last. -/
  signaled : Bool := false
  /-- The worker is asked to end. -/
  stop : Bool := false
  deriving DecidableEq, Repr

/-- The interrupt worker that a device holds. -/
inductive Worker where
  | absent
  | alive
  /-- It died while it delivered an interrupt and was not collected yet. -/
  | dead
  deriving DecidableEq, Repr

/-- One emulated chip and what is bound to it; `σ` is the type of interrupt sinks. -/
structure Device (σ : Type) where
  info : LineInfo
  regs : RegisterBank
  /-- Received bytes that were not read yet. -/
  rx : Fifo
  /-- Bytes to transmit that were not flushed yet. -/
  tx : Fifo
  /-- False once the device was removed from its line. -/
  initialized : Bool
  /-- Whether the host lists the device. -/
  registered : Bool
  consumer : Option Consumer
  /-- What is told of interrupts, once the host attached it. -/
  sink : Option σ
  virq : VirtualIrq
  worker : Worker
  metrics : Metrics
  deriving DecidableEq

namespace Device

variable {σ : Type}

/-- The number of the device's line. -/
def line (d : Device σ) : UInt8 := d.info.line

/-- Derives the interrupt identification from the registers and, if an interrupt is pending, arms
the worker. -/
def refresh (d : Device σ) : Device σ :=
  { d with
    regs.iir := d.regs.ident
    virq.signaled :=
      d.virq.signaled || (Interrupt.isPending d.regs.ident && d.virq.enabled) }

/-- Counts an event. -/
def record (d : Device σ) (e : Metrics.Event) : Device σ :=
  { d with metrics := d.metrics.record e }

/-- Back to power-on registers with both queues empty. The consumer, the sink, the worker and the
life cycle flags stay. -/
def reset (d : Device σ) : Device σ :=
  refresh { d with regs := d.regs.reset, rx := d.rx.reset, tx := d.tx.reset }

/-- A device that was just created: initialized, but not listed by any host. -/
def create (info : LineInfo) (counting : Bool) : Device σ :=
  reset {
    info
    regs := .powerOn
    rx := .empty
    tx := .empty
    initialized := true
    registered := false
    consumer := none
    sink := none
    virq := {}
    worker := .absent
    metrics := .zero counting }

/-- Records whether the host lists the device. -/
def setRegistered (d : Device σ) (registered : Bool) : Device σ :=
  { d with registered := registered }

/-- Drops everything that a removed device must not keep. The registers stay as they are. -/
def release (d : Device σ) : Device σ :=
  { d with
    consumer := none
    sink := none
    registered := false
    rx := d.rx.reset
    tx := d.tx.reset
    initialized := false }

/-- A copy of what can be seen of a device from outside. -/
structure Snapshot where
  info : LineInfo
  regs : RegisterBank
  rxLength : Nat
  txLength : Nat
  initialized : Bool
  registered : Bool
  consumerBound : Bool
  sinkAttached : Bool
  virqEnabled : Bool
  deriving DecidableEq, Repr

/-- What can be seen of the device now. -/
def snapshot (d : Device σ) : Snapshot where
  info := d.info
  regs := d.regs
  rxLength := d.rx.length
  txLength := d.tx.length
  initialized := d.initialized
  registered := d.registered
  consumerBound := d.consumer.isSome
  sinkAttached := d.sink.isSome
  virqEnabled := d.virq.enabled

end Device

end Uart16550
