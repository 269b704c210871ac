import Uart16550.Proofs.DataSlot
import Uart16550.Proofs.Move

/-!
# Transmitted bytes are neither lost, repeated nor reordered

Bytes enter the transmit queue one at a time and leave it only all together: handed to the consumer
that is bound at that moment, discarded by a flush that finds none, or thrown away when the host
clears the queue, the device is reset or its line is removed. `Device.sent` notes the bytes that
enter at a move, `Device.departures` the whole queues that leave, each with the way it went.

The law of conservation over runs is `conserves_sent`: what was sent, in order, is what left, in
order, and then what is still queued. The calls of consumers over a run are exactly the departures
that a consumer took, and a byte is refused only by a full queue with no consumer.
-/

namespace Uart16550

namespace Device

variable {σ : Type}

/-! ### Departures -/

/-- Which way the bytes of a transmit queue went. -/
inductive Route where
  /-- A flush handed them to the consumer of this name. -/
  | consumed (label : String) (reason : FlushReason)
  /-- A flush found no consumer. -/
  | discarded (reason : FlushReason)
  /-- The host cleared the queue. -/
  | cleared
  | reset
  | released
  deriving DecidableEq, Repr

/-- A transmit queue that was emptied. -/
structure Departure where
  /-- Everything that was queued at that moment, oldest first. -/
  bytes : List UInt8
  route : Route
  deriving DecidableEq, Repr

/-- The call of a consumer that a departure stands for, if a consumer took it. -/
def Departure.call? (line : UInt8) (x : Departure) : Option Flush :=
  match x.route with
  | .consumed label reason => some { label, line, bytes := x.bytes, reason }
  | .discarded _ | .cleared | .reset | .released => none

/-- The departure that a flush brings about. -/
def flushDeparture (d : Device σ) (reason : FlushReason) : Departure where
  bytes := d.tx.toList
  route :=
    match d.consumer with
    | some c => .consumed c.label reason
    | none => .discarded reason

/-- The departure of a flush that is made on a condition. -/
def flushDepartures (d : Device σ) (condition : Bool) (reason : FlushReason) : List Departure :=
  if condition then [d.flushDeparture reason] else []

/-- The departures as a byte is sent: that of a full queue, to make room, and that of a queue which
has reached the threshold of its consumer. -/
def transmitDepartures (d : Device σ) (byte : UInt8) : List Departure :=
  d.flushDepartures (d.tx.isFull && d.consumer.isSome) .full ++
    match (d.hold byte).makeRoom.1.enqueue byte with
    | some e => e.flushDepartures e.reachesThreshold .threshold
    | none => []

/-- The departures as the interrupt enable register is written. -/
def maskDepartures (d : Device σ) (value : UInt8) : List Departure :=
  d.flushDepartures
    ((hasBit d.regs.ier InterruptEnable.transmitterEmpty &&
      !hasBit value InterruptEnable.transmitterEmpty) && !d.tx.isEmpty) .idle

/-- The departures that a write of a register brings about. -/
def writeDepartures (d : Device σ) (value : UInt8) : WriteRegister → List Departure
  | .transmitHold => if d.regs.loopback then [] else d.transmitDepartures value
  | .interruptEnable => d.maskDepartures value
  | .fifoControl =>
    if hasBit value FifoControl.enable && hasBit value FifoControl.clearTransmitter then
      [{ bytes := d.tx.toList, route := .cleared }]
    else
      []
  | _ => []

/-- The departures that an effect brings about. -/
def Effect.departures (d : Device σ) : Effect → List Departure
  | .writes register value => d.writeDepartures value register
  | .flushes reason => [d.flushDeparture reason]
  | .resets => [{ bytes := d.tx.toList, route := .reset }]
  | _ => []

/-- The departures that a move brings about. -/
def departures (d : Device σ) : Move σ → List Departure
  | .operate (.access a) => (a.effect d).departures d
  | .release => [{ bytes := d.tx.toList, route := .released }]
  | _ => []

/-! ### Bytes sent -/

/-- Whether a byte that is sent finds room, after a full queue has gone to its consumer. -/
def findsRoom (d : Device σ) (byte : UInt8) : Bool :=
  ((d.hold byte).makeRoom.1.enqueue byte).isSome

/-- The byte that a move queues for transmission: that of a data write outside loopback which finds
room. -/
def sent (d : Device σ) : Move σ → List UInt8
  | .operate (.access a) =>
    match d.dataWrite? a with
    | some byte => if !d.regs.loopback && d.findsRoom byte then [byte] else []
    | none => []
  | _ => []

/-! ### A flush balances -/

theorem calls_flush (d : Device σ) (reason : FlushReason) :
    (d.flush reason).2.2 = [d.flushDeparture reason].filterMap (·.call? d.line) := by
  rw [flush_calls]
  cases h : d.consumer <;> simp [flushDeparture, h, Departure.call?]

/-- A flush on a condition takes out what was queued, or nothing. -/
theorem balance_flush (d : Device σ) (condition : Bool) (reason : FlushReason) :
    d.tx.toList = (d.flushDepartures condition reason).flatMap (·.bytes) ++
      (if condition then (d.flush reason).2 else (d, [])).1.tx.toList := by
  cases condition with
  | false => simp [flushDepartures]
  | true => simp [flushDepartures, flushDeparture, toList_tx_flush]

/-- A flush on a condition calls the consumer that takes the departure, and nobody else. -/
theorem calls_flushDepartures (d : Device σ) (condition : Bool) (reason : FlushReason) :
    (if condition then (d.flush reason).2 else (d, [])).2 =
      (d.flushDepartures condition reason).filterMap (·.call? d.line) := by
  cases condition with
  | false => rfl
  | true => exact d.calls_flush reason

/-! ### A byte sent balances -/

theorem toList_tx_makeRoom (d : Device σ) :
    d.makeRoom.1.tx.toList =
      if d.tx.isFull && d.consumer.isSome then [] else d.tx.toList := by
  rw [makeRoom]
  split
  · exact d.toList_tx_flush .full
  · rfl

/-- A byte that is queued comes last, for the same consumer. -/
theorem toList_tx_enqueue {d e : Device σ} {byte : UInt8} (h : d.enqueue byte = some e) :
    e.tx.toList = d.tx.toList ++ [byte] ∧ e.consumer = d.consumer := by
  obtain ⟨queue, hpush, rfl⟩ := exists_of_enqueue h
  exact ⟨Fifo.toList_push? hpush, rfl⟩

theorem enqueue_eq_none_iff {d : Device σ} {byte : UInt8} :
    d.enqueue byte = none ↔ d.tx.toList.length = Fifo.capacity := by
  have hpush : d.tx.push? byte = none ↔ d.tx.toList.length = Fifo.capacity :=
    Fifo.push?_eq_none_iff
  rw [← hpush, enqueue]
  cases d.tx.push? byte <;> simp

/-- A byte finds no room exactly in a full queue with no consumer. -/
theorem findsRoom_eq_false_iff {d : Device σ} {byte : UInt8} :
    d.findsRoom byte = false ↔ d.tx.toList.length = Fifo.capacity ∧ d.consumer = none := by
  rw [findsRoom, Option.isSome_eq_false_iff, Option.isNone_iff_eq_none, enqueue_eq_none_iff,
    toList_tx_makeRoom, Fifo.isFull_eq]
  cases hc : d.consumer with
  | none => simp [hold, hc]
  | some c => by_cases hf : d.tx.length = Fifo.capacity <;> simp [hold, hc, hf]

theorem balance_makeRoom (d : Device σ) (byte : UInt8) :
    d.tx.toList = (d.flushDepartures (d.tx.isFull && d.consumer.isSome) .full).flatMap (·.bytes) ++
      (d.hold byte).makeRoom.1.tx.toList :=
  balance_flush (d.hold byte) _ .full

theorem balance_flushReached (d : Device σ) :
    d.tx.toList = (d.flushDepartures d.reachesThreshold .threshold).flatMap (·.bytes) ++
      d.flushReached.1.tx.toList :=
  balance_flush d _ .threshold

/-- What was queued and the byte, if it finds room, is what leaves and what is queued then. -/
theorem balance_transmit (d : Device σ) (byte : UInt8) :
    d.tx.toList ++ (if d.findsRoom byte then [byte] else []) =
      (d.transmitDepartures byte).flatMap (·.bytes) ++ (d.transmit byte).1.tx.toList := by
  have hroom := d.balance_makeRoom byte
  cases he : (d.hold byte).makeRoom.1.enqueue byte with
  | none =>
    rw [transmit_of_none he]
    simpa [findsRoom, transmitDepartures, he, record] using hroom
  | some e =>
    -- Two flushes may follow from one byte: the second finds what the first leaves, and the byte.
    have hreach := e.balance_flushReached
    rw [(toList_tx_enqueue he).1] at hreach
    rw [transmit_of_some he, transmitDepartures, findsRoom]
    simp only [he, Option.isSome_some, if_true, List.flatMap_append]
    rw [List.append_assoc, ← hreach, ← List.append_assoc, ← hroom]

/-- The consumer is called for the departures as a byte is sent, in their order. -/
theorem calls_transmit (d : Device σ) (byte : UInt8) :
    (d.transmit byte).2 = (d.transmitDepartures byte).filterMap (·.call? d.line) := by
  have hroom : (d.hold byte).makeRoom.2 =
      (d.flushDepartures (d.tx.isFull && d.consumer.isSome) .full).filterMap (·.call? d.line) :=
    calls_flushDepartures (d.hold byte) _ .full
  cases he : (d.hold byte).makeRoom.1.enqueue byte with
  | none =>
    rw [transmit_of_none he]
    simpa [transmitDepartures, he] using hroom
  | some e =>
    -- The second flush is made by another device than the first, but on the same line.
    have hlife : e.lifecycle = d.lifecycle := by
      exact ((sends_makeRoom _).trans (sends_enqueue he)).accesses.lifecycle_eq
    have hline : e.line = d.line := congrArg (·.info.line) hlife
    have hreach : e.flushReached.2 =
        (e.flushDepartures e.reachesThreshold .threshold).filterMap (·.call? d.line) := by
      rw [← hline]
      exact calls_flushDepartures e _ .threshold
    rw [transmit_of_some he, transmitDepartures]
    simp only [he, List.filterMap_append]
    rw [hroom, hreach]

/-! ### Every move balances -/

/-- The byte that an effect queues for transmission. -/
def Effect.sent (d : Device σ) : Effect → List UInt8
  | .writes .transmitHold byte => if !d.regs.loopback && d.findsRoom byte then [byte] else []
  | _ => []

theorem sent_access (d : Device σ) (a : Access) :
    d.sent (.operate (.access a)) = (a.effect d).sent d := by
  cases hw : d.dataWrite? a with
  | some byte =>
    rw [dataWrite?_eq_some_iff.mp hw]
    simp only [sent, hw, Effect.sent]
  | none =>
    have hne : ∀ byte, a.effect d ≠ .writes .transmitHold byte := fun byte he => by
      rw [← dataWrite?_eq_some_iff, hw] at he
      cases he
    simp only [sent, hw]
    cases he : a.effect d with
    | writes register value =>
      cases register with
      | transmitHold => exact absurd he (hne value)
      | _ => rfl
    | _ => rfl

theorem balance_writeRegister (d : Device σ) (register : WriteRegister) (value : UInt8) :
    d.tx.toList ++ (Effect.writes register value).sent d =
      ((Effect.writes register value).departures d).flatMap (·.bytes) ++
        (d.writeRegister value register).1.tx.toList := by
  cases register with
  | transmitHold =>
    cases hl : d.regs.loopback with
    | true =>
      have htx : (receive (d.hold value) value).tx = d.tx :=
        queue_of_transmitter ((d.hold value).receives_receive value).transmitter_eq
      simp only [Effect.sent, Effect.departures, writeDepartures, writeRegister, writeData, hl]
      simpa [hold] using congrArg Fifo.toList htx.symm
    | false =>
      simp only [Effect.sent, Effect.departures, writeDepartures, writeRegister, writeData, hl]
      simpa using d.balance_transmit value
  | interruptEnable =>
    simp only [Effect.sent, Effect.departures, List.append_nil]
    exact d.balance_flush _ .idle
  | fifoControl =>
    simp only [Effect.sent, Effect.departures, writeDepartures, writeRegister, writeFifoControl]
    by_cases he : hasBit value FifoControl.enable = true
    · by_cases hx : hasBit value FifoControl.clearTransmitter = true
      · simp [he, hx]
      · by_cases hr : hasBit value FifoControl.clearReceiver = true <;> simp [he, hx, hr]
    · simp [he]
  | _ => simp [Effect.sent, Effect.departures, writeDepartures, writeRegister]

/-- Every effect balances on the transmit queue. -/
theorem balance_effect (d : Device σ) (e : Effect) :
    d.tx.toList ++ e.sent d = (e.departures d).flatMap (·.bytes) ++ (e.run d).1.tx.toList := by
  cases e with
  | writes register value => exact d.balance_writeRegister register value
  | reads register =>
    have htx : (d.readRegister register).2.tx = d.tx :=
      queue_of_transmitter (d.receives_readRegister register).transmitter_eq
    simpa [Effect.sent, Effect.departures, Effect.run, refresh] using
      congrArg Fifo.toList htx.symm
  | queues bytes =>
    have htx : (d.queue bytes).tx = d.tx :=
      queue_of_transmitter (d.receives_queue bytes).transmitter_eq
    simpa [Effect.sent, Effect.departures, Effect.run, refresh] using
      congrArg Fifo.toList htx.symm
  | flushes reason =>
    simp [Effect.sent, Effect.departures, Effect.run, flushDeparture, refresh, toList_tx_flush]
  | resets => simp [Effect.sent, Effect.departures, Effect.run, reset, refresh]
  | _ => simp [Effect.sent, Effect.departures, Effect.run, refresh, record, detach]

/-- The consumer is called for the departures of an effect, in their order. -/
theorem calls_effect (d : Device σ) (e : Effect) :
    (e.run d).2 = (e.departures d).filterMap (·.call? d.line) := by
  cases e with
  | writes register value =>
    cases register with
    | transmitHold =>
      cases hl : d.regs.loopback with
      | true => simp [Effect.run, Effect.departures, writeDepartures, writeRegister, writeData, hl]
      | false =>
        simpa [Effect.run, Effect.departures, writeDepartures, writeRegister, writeData, hl] using
          d.calls_transmit value
    | interruptEnable => exact d.calls_flushDepartures _ .idle
    | fifoControl =>
      simp only [Effect.run, Effect.departures, writeDepartures, writeRegister]
      split <;> rfl
    | _ => rfl
  | flushes reason => exact d.calls_flush reason
  | _ => rfl

/-- Every move balances on the transmit queue. -/
theorem balance_move (d : Device σ) (m : Move σ) :
    d.tx.toList ++ d.sent m = (d.departures m).flatMap (·.bytes) ++ (m.run d).tx.toList := by
  cases m with
  | operate op =>
    cases op with
    | access a =>
      rw [sent_access, Move.run, Operation.run, a.device_effect]
      exact d.balance_effect (a.effect d)
    | _ =>
      exact (List.append_nil _).trans
        (congrArg Fifo.toList (queue_of_transmitter (d.sides_operate (by simp)).2.1).symm)
  | release => simp [sent, departures, Move.run, release]
  | _ =>
    exact (List.append_nil _).trans
      (congrArg Fifo.toList (d.run_keeps (by simp) (by simp)).2.2.1.symm)

/-- The consumer is called for the departures of a move, in their order. -/
theorem calls_move (d : Device σ) (m : Move σ) :
    m.flushes d = (d.departures m).filterMap (·.call? d.line) := by
  cases m with
  | operate op =>
    cases op with
    | access a =>
      rw [Move.flushes, Operation.run, a.flushes_effect]
      exact d.calls_effect (a.effect d)
    | _ => exact d.flushes_operate (by simp)
  | _ => rfl

/-! ### Runs -/

/-- Over a run, what was queued and what was sent is what departed and what is queued then. -/
theorem conserves_sent (d : Device σ) (ms : List (Move σ)) :
    d.tx.toList ++ chronicle sent d ms =
      (chronicle departures d ms).flatMap (·.bytes) ++ (d.after ms).tx.toList := by
  rw [← chronicle_flatMap]
  exact conserves_chronicle (P := fun _ => True) (fun _ _ h => h) (fun e m _ => e.balance_move m)
    trivial ms

/-- Over a run, the consumers are called for the departures that they took. -/
theorem calls_eq_departures (d : Device σ) (ms : List (Move σ)) :
    d.calls ms = (chronicle departures d ms).filterMap (·.call? d.line) := by
  rw [← chronicle_filterMap, calls]
  -- At each move the consumer is told the line of the device as it is then.
  refine chronicle_congr fun x hx => ?_
  obtain ⟨ns, hns⟩ := exists_after_of_mem_moments hx
  have hline : x.1.line = d.line := by
    rw [hns, line, info_after]
    rfl
  rw [calls_move, hline]

/-- A byte that is not queued is lost: the queue stays as it was, and an overrun shows it. -/
theorem lost_of_findsRoom_eq_false {d : Device σ} {a : Access} {byte : UInt8}
    (hw : d.dataWrite? a = some byte) (hl : d.regs.loopback = false)
    (hr : d.findsRoom byte = false) :
    (a.run d).device.tx = d.tx ∧ (a.run d).device.regs.lsr.overrun = true := by
  have hnone : (d.hold byte).makeRoom.1.enqueue byte = none := by
    simpa [findsRoom] using hr
  have hroom : (d.hold byte).makeRoom.1 = d.hold byte := by
    have hc : (d.hold byte).consumer = none := (findsRoom_eq_false_iff.mp hr).2
    simp [makeRoom, hc]
  rw [a.device_effect, dataWrite?_eq_some_iff.mp hw]
  simp only [Effect.run, writeRegister, writeData, hl, Bool.false_eq_true, if_false]
  rw [transmit_of_none hnone, hroom]
  exact ⟨rfl, rfl⟩

/-- **Conservation of transmitted bytes.** Over any run of a device, the bytes sent are, in order,
those of the queues that departed and then those still queued. The consumers are called once for
each departure that they took, with everything that was queued at that moment, and for nothing
else. A data write is not queued exactly if the queue is full and nobody is bound to it, and then
the queue stays as it was and an overrun shows the loss. -/
theorem sent_eq_departed_append (info : LineInfo) (counting : Bool) (ms : List (Move σ)) :
    let born : Device σ := create info counting
    let d := born.after ms
    chronicle sent born ms =
        (chronicle departures born ms).flatMap (·.bytes) ++ d.tx.toList ∧
      born.calls ms = (chronicle departures born ms).filterMap (·.call? info.line) ∧
      ∀ (a : Access) (byte : UInt8), d.dataWrite? a = some byte → d.regs.loopback = false →
        (d.sent (.operate (.access a)) = [] ↔
          d.tx.toList.length = Fifo.capacity ∧ d.consumer = none) ∧
        (d.sent (.operate (.access a)) = [] →
          (a.run d).device.tx = d.tx ∧ (a.run d).device.regs.lsr.overrun = true) := by
  intro born d
  refine ⟨?_, born.calls_eq_departures ms, fun a byte hw hl => ?_⟩
  · have hborn : born.tx.toList = [] := Fifo.toList_reset _
    rw [← conserves_sent, hborn, List.nil_append]
  · have hsent : d.sent (.operate (.access a)) = [] ↔ d.findsRoom byte = false := by
      simp [sent, hw, hl]
    rw [hsent]
    exact ⟨findsRoom_eq_false_iff, lost_of_findsRoom_eq_false hw hl⟩

/-- With nobody bound, the seventeenth byte in a row finds sixteen queued and is lost. -/
theorem seventeenth_byte_lost :
    let info : LineInfo := { line := 0, ioBase := 0x3F8, irq := 4, baudBase := 115200 }
    let ms := List.replicate 16 (.operate (.access (.write Offset.data 0x41)))
    let d : Device Unit := (create info true).after ms
    let a : Access := .write Offset.data 0x42
    d.dataWrite? a = some 0x42 ∧ d.regs.loopback = false ∧
      d.tx.toList.length = Fifo.capacity ∧ d.consumer = none ∧
      (a.run d).device.tx = d.tx ∧ (a.run d).device.regs.lsr.overrun = true := by
  intro info ms d a
  have hw : d.dataWrite? a = some 0x42 := by decide +kernel
  have hl : d.regs.loopback = false := by decide +kernel
  have hfull : d.tx.toList.length = Fifo.capacity ∧ d.consumer = none := by decide +kernel
  -- Once the facts are settled, nothing should evaluate the run again.
  clear_value ms
  obtain ⟨hiff, hlost⟩ := (sent_eq_departed_append info true ms).2.2 a 0x42 hw hl
  exact ⟨hw, hl, hfull.1, hfull.2, hlost (hiff.mpr hfull)⟩

end Device

end Uart16550
