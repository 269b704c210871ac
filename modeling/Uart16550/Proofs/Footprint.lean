import Mathlib.Tactic.Common
import Uart16550.Device.Operation

/-!
# What a transition may change

The transitions of a device are composed of few parts, and each part changes few fields. Sending
changes the transmit queue, the flags that speak of it, the overrun flag, the buffer of the consumer
and the counters; receiving changes the receive queue, the byte read last, the flags that speak of
them and the counters; and no access to a register at all touches the line, the life cycle flags,
the sink, the worker or what the worker shares with the device.

`Device.Sends`, `Device.Receives` and `Device.Accesses` say so, each with the whole list of fields,
and every transition is walked through once, here. What a part of a device has to say about a
transition is then read off the relation, without the transition.
-/

namespace Uart16550

/-- Nothing ever arrives with an error, and the cable always reports the same. -/
structure RegisterBank.Faultless (r : RegisterBank) : Prop where
  parityError_eq : r.lsr.parityError = false
  framingError_eq : r.lsr.framingError = false
  fifoError_eq : r.lsr.fifoError = false
  msr_eq : r.msr = RegisterBank.powerOn.msr

namespace Device

variable {σ : Type} {d e f : Device σ}

/-- The name and the threshold of the consumer that is bound. -/
def binding (d : Device σ) : Option (String × Nat) :=
  d.consumer.map fun c => (c.label, c.threshold)

/-- The device with a byte in its holding register. -/
def hold (d : Device σ) (byte : UInt8) : Device σ := { d with regs.thr := byte }

/-! ### Sending -/

/-- All that sending may change, once the byte is in the holding register. -/
structure Outgoing where
  queue : Fifo
  holdingEmpty : Bool
  transmitterEmpty : Bool
  overrun : Bool
  consumer : Option Consumer
  metrics : Metrics

/-- The device with all of this replaced. -/
def withOutgoing (d : Device σ) (o : Outgoing) : Device σ :=
  { d with
    tx := o.queue
    consumer := o.consumer
    metrics := o.metrics
    regs.lsr.holdingEmpty := o.holdingEmpty
    regs.lsr.transmitterEmpty := o.transmitterEmpty
    regs.lsr.overrun := o.overrun }

/-- Sending leads from one device to another: nothing but this has changed, and of the consumer at
most its buffer. -/
structure Sends (d e : Device σ) : Prop where
  exists_eq : ∃ o, e = d.withOutgoing o
  binding_eq : e.binding = d.binding

theorem Sends.refl (d : Device σ) : d.Sends d := ⟨⟨⟨_, _, _, _, _, _⟩, rfl⟩, rfl⟩

theorem Sends.trans (h : d.Sends e) (h' : e.Sends f) : d.Sends f := by
  obtain ⟨⟨_, rfl⟩, hbound⟩ := h
  obtain ⟨⟨o, rfl⟩, hbound'⟩ := h'
  exact ⟨⟨o, rfl⟩, hbound'.trans hbound⟩

theorem sends_flush (d : Device σ) (reason : FlushReason) : d.Sends (d.flush reason).2.1 := by
  cases h : d.consumer <;> simp only [flush, h] <;> refine ⟨⟨⟨_, _, _, _, _, _⟩, rfl⟩, ?_⟩ <;>
    rw [binding, binding, h] <;> rfl

/-- A flush on a condition. -/
theorem sends_flushIf (d : Device σ) (condition : Bool) (reason : FlushReason) :
    d.Sends (if condition then (d.flush reason).2 else (d, [])).1 := by
  split
  · exact d.sends_flush reason
  · exact .refl d

theorem sends_makeRoom (d : Device σ) : d.Sends d.makeRoom.1 := d.sends_flushIf _ .full

theorem sends_flushReached (d : Device σ) : d.Sends d.flushReached.1 := d.sends_flushIf _ .threshold

/-- A byte that finds room is queued last, and the transmitter flags follow. -/
theorem exists_of_enqueue {byte : UInt8} (h : d.enqueue byte = some e) :
    ∃ queue, d.tx.push? byte = some queue ∧
      e = { d with
        tx := queue
        regs.lsr.transmitterEmpty := false
        regs.lsr.holdingEmpty :=
          d.regs.lsr.holdingEmpty && decide (queue.length < Fifo.capacity / 2) } := by
  simp only [enqueue] at h
  split at h
  · cases h
  · next queue hpush => exact ⟨queue, hpush, (Option.some.inj h).symm⟩

theorem sends_enqueue {byte : UInt8} (h : d.enqueue byte = some e) : d.Sends e := by
  obtain ⟨queue, -, rfl⟩ := exists_of_enqueue h
  exact ⟨⟨⟨_, _, _, _, _, _⟩, rfl⟩, rfl⟩

/-- A byte that finds no room is lost, and an overrun shows it. -/
theorem transmit_of_none {byte : UInt8} (h : (d.hold byte).makeRoom.1.enqueue byte = none) :
    d.transmit byte =
      (record { (d.hold byte).makeRoom.1 with regs.lsr.overrun := true } .overrun,
        (d.hold byte).makeRoom.2) := by
  simp only [hold] at h ⊢
  simp only [transmit, h]

/-- A byte that finds room is queued, and flushed if that reaches the threshold. -/
theorem transmit_of_some {byte : UInt8} (h : (d.hold byte).makeRoom.1.enqueue byte = some e) :
    d.transmit byte = (e.flushReached.1, (d.hold byte).makeRoom.2 ++ e.flushReached.2) := by
  simp only [hold] at h ⊢
  simp only [transmit, h]

/-- A byte that is sent stays in the holding register, and whether it is queued or lost, the rest is
sending. -/
theorem sends_transmit (d : Device σ) (byte : UInt8) :
    (d.hold byte).Sends (d.transmit byte).1 := by
  -- There are up to two flushes, and the byte is queued between them if it is queued at all.
  have hroom := (d.hold byte).sends_makeRoom
  cases he : (d.hold byte).makeRoom.1.enqueue byte with
  | none =>
    rw [transmit_of_none he]
    exact hroom.trans ⟨⟨⟨_, _, _, _, _, _⟩, rfl⟩, rfl⟩
  | some e =>
    rw [transmit_of_some he]
    exact (hroom.trans (sends_enqueue he)).trans e.sends_flushReached

/-! ### Receiving -/

/-- All that receiving may change. -/
structure Incoming where
  queue : Fifo
  /-- The byte taken out last. -/
  buffer : UInt8
  dataReady : Bool
  breakInterrupt : Bool
  overrun : Bool
  parityError : Bool
  framingError : Bool
  metrics : Metrics

/-- The device with all of this replaced. -/
def withIncoming (d : Device σ) (i : Incoming) : Device σ :=
  { d with
    rx := i.queue
    metrics := i.metrics
    regs.rbr := i.buffer
    regs.lsr.dataReady := i.dataReady
    regs.lsr.breakInterrupt := i.breakInterrupt
    regs.lsr.overrun := i.overrun
    regs.lsr.parityError := i.parityError
    regs.lsr.framingError := i.framingError }

/-- Receiving leads from one device to another: nothing but this has changed, and no byte has come
with an error. -/
structure Receives (d e : Device σ) : Prop where
  exists_eq : ∃ i, e = d.withIncoming i
  faultless : d.regs.Faultless → e.regs.Faultless

theorem Receives.refl (d : Device σ) : d.Receives d :=
  ⟨⟨⟨_, _, _, _, _, _, _, _⟩, rfl⟩, id⟩

theorem receives_receive (d : Device σ) (byte : UInt8) : d.Receives (d.receive byte) := by
  cases h : d.rx.push? byte <;> simp only [receive, h] <;>
    exact ⟨⟨⟨_, _, _, _, _, _, _, _⟩, rfl⟩, fun h => ⟨h.1, h.2, h.3, h.4⟩⟩

theorem receives_readData (d : Device σ) : d.Receives d.readData.2 := by
  simp only [readData]
  split_ifs
  · exact ⟨⟨⟨_, _, _, _, _, _, _, _⟩, rfl⟩, fun h => ⟨h.1, h.2, h.3, h.4⟩⟩
  · cases d.rx.pop? with
    | none => exact ⟨⟨⟨_, _, _, _, _, _, _, _⟩, rfl⟩, fun h => ⟨h.1, h.2, h.3, h.4⟩⟩
    | some p => exact ⟨⟨⟨_, _, _, _, _, _, _, _⟩, rfl⟩, fun h => ⟨rfl, rfl, h.3, h.4⟩⟩
  · exact .refl d

/-- Reading a register is receiving, if anything. -/
theorem receives_readRegister (d : Device σ) (register : ReadRegister) :
    d.Receives (d.readRegister register).2 := by
  cases register with
  | receiveHold => exact d.receives_readData
  | interruptIdent | lineStatus =>
    exact ⟨⟨⟨_, _, _, _, _, _, _, _⟩, rfl⟩, fun h => ⟨h.1, h.2, h.3, h.4⟩⟩
  | _ => exact .refl d

/-! ### Accesses -/

/-- An access leads from one device to another: nothing has changed but registers, queues, counters
and the buffer of the consumer, and nothing was raised that never is. -/
structure Accesses (d e : Device σ) : Prop where
  exists_eq : ∃ regs rx tx consumer metrics,
    e = { d with regs := regs, rx := rx, tx := tx, consumer := consumer, metrics := metrics }
  binding_eq : e.binding = d.binding
  faultless : d.regs.Faultless → e.regs.Faultless

theorem Accesses.trans (h : d.Accesses e) (h' : e.Accesses f) : d.Accesses f := by
  obtain ⟨⟨_, _, _, _, _, rfl⟩, hbound, hfaultless⟩ := h
  obtain ⟨⟨_, _, _, _, _, rfl⟩, hbound', hfaultless'⟩ := h'
  exact ⟨⟨_, _, _, _, _, rfl⟩, hbound'.trans hbound, fun h => hfaultless' (hfaultless h)⟩

theorem Sends.accesses (h : d.Sends e) : d.Accesses e := by
  obtain ⟨⟨o, rfl⟩, hbound⟩ := h
  exact ⟨⟨_, _, _, _, _, rfl⟩, hbound, fun h => ⟨h.1, h.2, h.3, h.4⟩⟩

theorem Receives.accesses (h : d.Receives e) : d.Accesses e := by
  obtain ⟨⟨i, rfl⟩, hfaultless⟩ := h
  exact ⟨⟨_, _, _, _, _, rfl⟩, rfl, hfaultless⟩

/-- A register of which nothing follows. -/
theorem accesses_of_regs {r : RegisterBank} (h : d.regs.Faultless → r.Faultless) :
    d.Accesses { d with regs := r } :=
  ⟨⟨_, _, _, _, _, rfl⟩, rfl, h⟩

theorem accesses_writeData (d : Device σ) (value : UInt8) : d.Accesses (d.writeData value).1 := by
  have hheld : d.Accesses (d.hold value) := accesses_of_regs fun h => ⟨h.1, h.2, h.3, h.4⟩
  simp only [writeData]
  split
  · exact hheld.trans ((d.hold value).receives_receive value).accesses
  · exact hheld.trans (d.sends_transmit value).accesses

theorem accesses_writeInterruptEnable (d : Device σ) (value : UInt8) :
    d.Accesses (d.writeInterruptEnable value).1 :=
  (d.sends_flushIf _ .idle).accesses.trans (accesses_of_regs fun h => ⟨h.1, h.2, h.3, h.4⟩)

theorem accesses_writeFifoControl (d : Device σ) (value : UInt8) :
    d.Accesses (d.writeFifoControl value) := by
  simp only [writeFifoControl]
  split_ifs <;> exact ⟨⟨_, _, _, _, _, rfl⟩, rfl, fun h => ⟨h.1, h.2, h.3, h.4⟩⟩

/-- **Writing a register** is an access. -/
theorem accesses_writeRegister (d : Device σ) (value : UInt8) (register : WriteRegister) :
    d.Accesses (d.writeRegister value register).1 := by
  cases register with
  | transmitHold => exact d.accesses_writeData value
  | interruptEnable => exact d.accesses_writeInterruptEnable value
  | fifoControl => exact d.accesses_writeFifoControl value
  | _ => exact accesses_of_regs fun h => ⟨h.1, h.2, h.3, h.4⟩

end Device

end Uart16550
