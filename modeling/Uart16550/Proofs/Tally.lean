import Uart16550.Proofs.Move

/-!
# What an access counts

Every access counts a list of events that can be told in advance from the device on which it is made
(`Effect.counted`), and its counters afterwards are those before with these events recorded one
after another (`metrics_effect`). Deliveries are not among them: they are counted only as a sink
returns, so no access counts one (`interrupts_access`).
-/

namespace Uart16550

/-- Only a delivery that has ended counts as one. -/
theorem Metrics.interrupts_record (m : Metrics) {e : Metrics.Event} (h : e ≠ .interrupt) :
    (m.record e).interrupts = m.interrupts := by
  cases e with
  | interrupt => exact absurd rfl h
  | flush reason bytes delivered =>
    cases delivered <;> cases reason <;> simp only [record, count, countReason] <;> split <;> rfl
  | _ =>
    simp only [record, count]
    split <;> rfl

/-- The counters after a list of events. -/
def Metrics.recordAll (m : Metrics) (es : List Metrics.Event) : Metrics := es.foldl Metrics.record m

theorem Metrics.recordAll_append (m : Metrics) (es fs : List Metrics.Event) :
    m.recordAll (es ++ fs) = (m.recordAll es).recordAll fs :=
  List.foldl_append

theorem Metrics.interrupts_recordAll (m : Metrics) {es : List Metrics.Event}
    (h : Metrics.Event.interrupt ∉ es) : (m.recordAll es).interrupts = m.interrupts := by
  induction es generalizing m with
  | nil => rfl
  | cons e es ih =>
    obtain ⟨he, hes⟩ := not_or.mp (mt List.mem_cons.mpr h)
    exact (ih (m.record e) hes).trans (m.interrupts_record (Ne.symm he))

variable {σ : Type}

namespace Device

/-! ### The transmit side -/

/-- The event that a flush of the transmit queue is. -/
def flushEvent (d : Device σ) (reason : FlushReason) : Metrics.Event :=
  .flush reason d.tx.toList.length d.consumer.isSome

theorem metrics_flush (d : Device σ) (reason : FlushReason) :
    (d.flush reason).2.1.metrics = d.metrics.record (d.flushEvent reason) := by
  cases h : d.consumer with
  | none => simp [flush, h, flushEvent, record]
  | some c => simp [flush, h, flushEvent, record, (c.drain_eq d.tx).1]

/-- What is counted as room is made for a byte. -/
def roomCounted (d : Device σ) : List Metrics.Event :=
  if d.tx.isFull && d.consumer.isSome then [d.flushEvent .full] else []

/-- What is counted once a byte is queued. -/
def reachedCounted (d : Device σ) : List Metrics.Event :=
  if d.reachesThreshold then [d.flushEvent .threshold] else []

theorem metrics_makeRoom (d : Device σ) :
    d.makeRoom.1.metrics = d.metrics.recordAll d.roomCounted := by
  simp only [makeRoom, roomCounted]
  split
  · exact d.metrics_flush .full
  · rfl

theorem metrics_flushReached (d : Device σ) :
    d.flushReached.1.metrics = d.metrics.recordAll d.reachedCounted := by
  simp only [flushReached, reachedCounted]
  split
  · exact d.metrics_flush .threshold
  · rfl

/-- What is counted as a byte is written to the transmitter. -/
def transmitCounted (d : Device σ) (byte : UInt8) : List Metrics.Event :=
  (d.hold byte).roomCounted ++
    match (d.hold byte).makeRoom.1.enqueue byte with
    | none => [.overrun]
    | some e => e.reachedCounted

theorem metrics_transmit (d : Device σ) (byte : UInt8) :
    (d.transmit byte).1.metrics = d.metrics.recordAll (d.transmitCounted byte) := by
  have hroom : (d.hold byte).makeRoom.1.metrics =
      d.metrics.recordAll (d.hold byte).roomCounted := metrics_makeRoom _
  rw [transmitCounted, Metrics.recordAll_append]
  cases he : (d.hold byte).makeRoom.1.enqueue byte with
  | none =>
    rw [transmit_of_none he, ← hroom]
    rfl
  | some e =>
    have hqueued : e.metrics = (d.hold byte).makeRoom.1.metrics := by
      obtain ⟨queue, -, rfl⟩ := exists_of_enqueue he
      rfl
    rw [transmit_of_some he, metrics_flushReached, hqueued, hroom]

/-! ### Registers -/

/-- What is counted as a byte arrives from the device's own transmitter. -/
def receiveCounted (d : Device σ) : List Metrics.Event :=
  if d.rx.isFull then [.overrun] else [.received 1]

theorem metrics_receive (d : Device σ) (byte : UInt8) :
    (d.receive byte).metrics = d.metrics.recordAll d.receiveCounted := by
  have hfull : d.rx.isFull = true ↔ d.rx.push? byte = none := by
    rw [Fifo.isFull_eq, beq_iff_eq, Fifo.push?_eq_none_iff]
  cases h : d.rx.push? byte with
  | none =>
    have hf : d.rx.isFull = true := hfull.mpr h
    simp only [receive, h, receiveCounted, hf, if_true]
    rfl
  | some rx =>
    have hf : d.rx.isFull = false := by simpa [h] using hfull
    simp only [receive, h, receiveCounted, hf, Bool.false_eq_true, if_false]
    rfl

/-- What is counted as a register is written. -/
def writeCounted (d : Device σ) (value : UInt8) : WriteRegister → List Metrics.Event
  | .transmitHold => if d.regs.loopback then d.receiveCounted else d.transmitCounted value
  | .interruptEnable =>
    if (hasBit d.regs.ier InterruptEnable.transmitterEmpty &&
        !hasBit value InterruptEnable.transmitterEmpty) && !d.tx.isEmpty then
      [d.flushEvent .idle]
    else
      []
  | _ => []

theorem metrics_writeRegister (d : Device σ) (value : UInt8) (register : WriteRegister) :
    (d.writeRegister value register).1.metrics =
      d.metrics.recordAll (d.writeCounted value register) := by
  cases register with
  | transmitHold =>
    simp only [writeRegister, writeData, writeCounted]
    split
    · exact metrics_receive { d with regs.thr := value } value
    · exact d.metrics_transmit value
  | interruptEnable =>
    simp only [writeRegister, writeInterruptEnable, writeCounted]
    split
    · exact d.metrics_flush .idle
    · rfl
  | fifoControl =>
    simp only [writeRegister, writeFifoControl, writeCounted]
    split_ifs <;> rfl
  | _ => rfl

theorem metrics_readRegister (d : Device σ) (register : ReadRegister) :
    (d.readRegister register).2.metrics = d.metrics := by
  cases register with
  | receiveHold =>
    simp only [readRegister, readData]
    split_ifs
    · rfl
    · cases h : d.rx.pop? <;> rfl
    · rfl
  | _ => rfl

/-! ### Accesses -/

/-- What an access counts, by what it comes to. -/
def Effect.counted (d : Device σ) : Effect → List Metrics.Event
  | .missed => [.protocolError]
  | .writes register value => d.writeCounted value register
  | .queues bytes =>
    if 0 < (d.rx.pushAll bytes).1 then [.received (d.rx.pushAll bytes).1] else []
  | .flushes reason => [d.flushEvent reason]
  | .refused | .reads _ | .breaks | .resets | .detaches => []

/-- **An access counts what it comes to** and nothing else. -/
theorem metrics_effect (d : Device σ) (e : Effect) :
    (e.run d).1.metrics = d.metrics.recordAll (e.counted d) := by
  cases e with
  | reads register => exact d.metrics_readRegister register
  | writes register value => exact d.metrics_writeRegister value register
  | queues bytes =>
    simp only [Effect.run, Effect.counted, queue]
    split <;> rfl
  | flushes reason => exact d.metrics_flush reason
  | _ => rfl

theorem interrupt_notMem_roomCounted (d : Device σ) :
    Metrics.Event.interrupt ∉ d.roomCounted := by
  simp only [roomCounted, flushEvent]
  split <;> simp

theorem interrupt_notMem_reachedCounted (d : Device σ) :
    Metrics.Event.interrupt ∉ d.reachedCounted := by
  simp only [reachedCounted, flushEvent]
  split <;> simp

theorem interrupt_notMem_writeCounted (d : Device σ) (value : UInt8) (register : WriteRegister) :
    Metrics.Event.interrupt ∉ d.writeCounted value register := by
  cases register with
  | transmitHold =>
    simp only [writeCounted]
    split
    · simp only [receiveCounted]
      split <;> simp
    · refine List.not_mem_append (interrupt_notMem_roomCounted _) ?_
      split
      · simp
      · exact interrupt_notMem_reachedCounted _
  | interruptEnable =>
    simp only [writeCounted, flushEvent]
    split <;> simp
  | _ => simp [writeCounted]

theorem interrupt_notMem_counted (d : Device σ) (e : Effect) :
    Metrics.Event.interrupt ∉ e.counted d := by
  cases e with
  | writes register value => exact interrupt_notMem_writeCounted d value register
  | queues bytes =>
    simp only [Effect.counted]
    split <;> simp
  | _ => simp [Effect.counted, flushEvent]

/-- **No access counts a delivery.** -/
theorem interrupts_access (d : Device σ) (a : Access) :
    (a.run d).device.metrics.interrupts = d.metrics.interrupts := by
  rw [a.device_effect, metrics_effect]
  exact d.metrics.interrupts_recordAll (interrupt_notMem_counted d _)

/-- Nor does any other operation, though one of them forgets what was counted. -/
theorem interrupts_operate (d : Device σ) (op : Operation σ) :
    (op.run d).device.metrics.interrupts = d.metrics.interrupts ∨
      (op.run d).device.metrics.interrupts = 0 := by
  cases op with
  | access a => exact Or.inl (d.interrupts_access a)
  | resetCounters => exact Or.inr rfl
  | bind threshold label =>
    rcases d.bind_cases threshold label with h | ⟨c, h⟩ <;>
      exact Or.inl (congrArg (·.metrics.interrupts) h)
  | unbind =>
    rcases d.unbind_cases with h | h <;> exact Or.inl (congrArg (·.metrics.interrupts) h)
  | enableIrq =>
    rcases d.enableIrq_cases with ⟨e, h⟩ | ⟨-, -, h⟩ <;>
      exact Or.inl (congrArg (·.2.metrics.interrupts) h)
  | disableIrq =>
    rcases d.disableIrq_cases with ⟨-, h⟩ | ⟨-, h⟩ <;>
      exact Or.inl (congrArg (·.metrics.interrupts) h)
  | _ => exact Or.inl rfl

end Device

end Uart16550
