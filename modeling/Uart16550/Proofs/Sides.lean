import Uart16550.Proofs.Footprint

/-!
# The sides of a device

A device has a receive side, a transmit side and a life of its own (its line, its flags, its sink,
its worker), and most transitions concern only one of the three. `Device.receiver`,
`Device.transmitter` and `Device.lifecycle` read the three off a device. Sending does not touch what
was received, receiving does not touch what is to be sent, and no access to a register touches the
life of the device.

The holding register is on neither side, because loopback writes it and sends nothing.
-/

namespace Uart16550

namespace Device

variable {σ : Type}

/-- What the receive side of a device consists of. -/
structure Receiver where
  queue : Fifo
  /-- The byte taken out last. -/
  buffer : UInt8
  dataReady : Bool
  breakInterrupt : Bool

/-- What the transmit side of a device consists of. -/
structure Transmitter where
  queue : Fifo
  holdingEmpty : Bool
  transmitterEmpty : Bool

/-- What only the holder of a device, its table and its worker change. -/
structure Lifecycle (σ : Type) where
  info : LineInfo
  initialized : Bool
  registered : Bool
  sink : Option σ
  worker : Worker
  irqEnabled : Bool
  stopping : Bool

/-- The receive side. -/
def receiver (d : Device σ) : Receiver where
  queue := d.rx
  buffer := d.regs.rbr
  dataReady := d.regs.lsr.dataReady
  breakInterrupt := d.regs.lsr.breakInterrupt

/-- The transmit side. -/
def transmitter (d : Device σ) : Transmitter where
  queue := d.tx
  holdingEmpty := d.regs.lsr.holdingEmpty
  transmitterEmpty := d.regs.lsr.transmitterEmpty

/-- The life of the device. -/
def lifecycle (d : Device σ) : Lifecycle σ where
  info := d.info
  initialized := d.initialized
  registered := d.registered
  sink := d.sink
  worker := d.worker
  irqEnabled := d.virq.enabled
  stopping := d.virq.stop

theorem receiver_inj {d e : Device σ} (h : d.receiver = e.receiver) :
    d.rx = e.rx ∧ d.regs.lsr.dataReady = e.regs.lsr.dataReady ∧
      d.regs.lsr.breakInterrupt = e.regs.lsr.breakInterrupt := by
  simp only [receiver, Receiver.mk.injEq] at h
  exact ⟨h.1, h.2.2⟩

theorem receiver_congr {d e : Device σ} (hregs : d.regs = e.regs) (hrx : d.rx = e.rx) :
    d.receiver = e.receiver := by
  simp only [receiver, hregs, hrx]

theorem queue_of_transmitter {d e : Device σ} (h : d.transmitter = e.transmitter) :
    d.tx = e.tx :=
  congrArg Transmitter.queue h

/-! ### What leaves a side alone -/

theorem Sends.receiver_eq {d e : Device σ} (h : d.Sends e) : e.receiver = d.receiver := by
  obtain ⟨⟨_, rfl⟩, -⟩ := h
  rfl

theorem Receives.transmitter_eq {d e : Device σ} (h : d.Receives e) :
    e.transmitter = d.transmitter := by
  obtain ⟨⟨_, rfl⟩, -⟩ := h
  rfl

theorem Accesses.lifecycle_eq {d e : Device σ} (h : d.Accesses e) : e.lifecycle = d.lifecycle := by
  obtain ⟨⟨_, _, _, _, _, rfl⟩, -⟩ := h
  rfl

/-- Only the data register takes anything out of the receive side. -/
theorem receiver_readRegister (d : Device σ) {register : ReadRegister}
    (h : register ≠ .receiveHold) : (d.readRegister register).2.receiver = d.receiver := by
  cases register with
  | receiveHold => exact absurd rfl h
  | _ => rfl

theorem receiver_writeInterruptEnable (d : Device σ) (value : UInt8) :
    (d.writeInterruptEnable value).1.receiver = d.receiver :=
  (d.sends_flushIf _ .idle).receiver_eq

/-- On the receive side, the FIFO control register does nothing but empty the queue. -/
theorem receiver_writeFifoControl (d : Device σ) (value : UInt8) :
    (d.writeFifoControl value).receiver =
      if hasBit value FifoControl.enable && hasBit value FifoControl.clearReceiver then
        { d.receiver with queue := d.rx.reset, dataReady := false }
      else
        d.receiver := by
  simp only [writeFifoControl]
  cases he : hasBit value FifoControl.enable <;>
    cases hr : hasBit value FifoControl.clearReceiver <;>
      cases hx : hasBit value FifoControl.clearTransmitter <;> rfl

end Device

end Uart16550
