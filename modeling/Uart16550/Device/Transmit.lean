import Uart16550.Device.Basic
import Uart16550.Fifo.Lemmas

/-!
# The transmit side

Bytes written to the transmitter are queued and leave the queue in batches. `Device.flush` empties
the queue into the consumer, or discards it when none is bound; `Device.transmit` is the policy
that decides when this happens as a byte arrives.
-/

namespace Uart16550

/-- Takes up to a buffer's worth of bytes out of a queue: the bytes, the consumer with its buffer
overwritten from the front, and the queue afterwards. -/
def Consumer.drain (c : Consumer) (q : Fifo) : List UInt8 × Consumer × Fifo :=
  let drained := q.drainInto c.buffer
  (drained.2.1.take drained.1,
    { c with
      buffer := drained.2.1
      length_buffer := by rw [Fifo.length_drainInto]; exact c.length_buffer },
    drained.2.2)

/-- The buffer holds a full queue, so draining hands over all of it. -/
theorem Consumer.drain_eq (c : Consumer) (q : Fifo) :
    (c.drain q).1 = q.toList ∧ (c.drain q).2.2.toList = [] := by
  obtain ⟨h₁, h₂, h₃⟩ := Fifo.drainInto_eq q c.buffer
  have hle := q.length_toList_le
  have hbuf : q.toList.length ≤ c.buffer.length := by rw [c.length_buffer]; exact hle
  constructor
  · simp only [drain, h₁, h₂, Nat.min_eq_left hbuf, List.take_of_length_le hbuf]
    exact List.take_left' rfl
  · simp only [drain, h₃, List.drop_of_length_le hbuf]

namespace Device

variable {σ : Type}

/-- Empties the transmit queue into the bound consumer, or discards it when there is none, and
leaves the transmitter idle. The first component holds the bytes taken out of the queue. The
consumer is called before the flags are raised and the flush is counted, so a call that crashed
would leave both undone; every call is taken to return. -/
def flush (d : Device σ) (reason : FlushReason) : List UInt8 × Device σ × List Flush :=
  match d.consumer with
  | some c =>
    let (bytes, c, tx) := c.drain d.tx
    let d := { d with tx := tx, consumer := some c, regs.lsr := d.regs.lsr.setTransmitterIdle }
    (bytes, d.record (.flush reason bytes.length true),
      [{ label := c.label, line := d.line, bytes := bytes, reason := reason }])
  | none =>
    let bytes := d.tx.toList
    let d := { d with tx := d.tx.reset, regs.lsr := d.regs.lsr.setTransmitterIdle }
    (bytes, d.record (.flush reason bytes.length false), [])

/-- Whether the transmit queue holds at least as many bytes as the bound consumer waits for. -/
def reachesThreshold (d : Device σ) : Bool :=
  match d.consumer with
  | some c => c.threshold ≤ d.tx.length
  | none => false

/-- Queues a byte for transmission; `none` when the queue is full. The transmitter is no longer
empty, and at half a queue the flag that asks for more goes down. -/
def enqueue (d : Device σ) (byte : UInt8) : Option (Device σ) :=
  match d.tx.push? byte with
  | none => none
  | some tx =>
    some { d with
      tx := tx
      regs.lsr.transmitterEmpty := false
      regs.lsr.holdingEmpty :=
        d.regs.lsr.holdingEmpty && decide (tx.length < Fifo.capacity / 2) }

/-- Flushes a full queue, if there is somebody to take it. -/
def makeRoom (d : Device σ) : Device σ × List Flush :=
  if d.tx.isFull && d.consumer.isSome then (d.flush .full).2 else (d, [])

/-- Flushes a queue that the bound consumer waits for. -/
def flushReached (d : Device σ) : Device σ × List Flush :=
  if d.reachesThreshold then (d.flush .threshold).2 else (d, [])

/-- A byte written to the transmitter outside loopback. A full queue is flushed first if a consumer
is bound; with nobody to take it, it stays full and the byte is lost. A queued byte that reaches
the consumer's threshold flushes the queue. -/
def transmit (d : Device σ) (byte : UInt8) : Device σ × List Flush :=
  let room := makeRoom { d with regs.thr := byte }
  match room.1.enqueue byte with
  | none => (record { room.1 with regs.lsr.overrun := true } .overrun, room.2)
  | some d => (d.flushReached.1, room.2 ++ d.flushReached.2)

/-! ### What a flush does -/

/-- A flush takes out everything that is queued. -/
theorem flush_fst (d : Device σ) (reason : FlushReason) : (d.flush reason).1 = d.tx.toList := by
  cases h : d.consumer with
  | none => simp [flush, h]
  | some c => simp [flush, h, (c.drain_eq d.tx).1]

/-- Nothing is queued after a flush. -/
theorem toList_tx_flush (d : Device σ) (reason : FlushReason) :
    (d.flush reason).2.1.tx.toList = [] := by
  cases h : d.consumer with
  | none => simp [flush, h, record]
  | some c => simp [flush, h, record, (c.drain_eq d.tx).2]

/-- A bound consumer is called exactly once, with everything that was queued. -/
theorem flush_calls (d : Device σ) (reason : FlushReason) :
    (d.flush reason).2.2 =
      match d.consumer with
      | some c =>
        [{ label := c.label, line := d.line, bytes := d.tx.toList, reason := reason }]
      | none => [] := by
  cases h : d.consumer with
  | none => simp [flush, h]
  | some c =>
    simp only [flush, h, (c.drain_eq d.tx).1]
    rfl

end Device

end Uart16550
