import Uart16550.Proofs.DataSlot
import Uart16550.Proofs.Move

/-!
# Received bytes are neither lost, repeated nor reordered

Two producers feed the receive queue: the wire, whose batches are cut short at a full queue, and the
transmitter in loopback, whose bytes are lost there. One reader takes bytes out one by one, and a
clear by the host, a reset or the end of the device takes out all of them. `Device.arrived` notes
the bytes that enter at a move and `Device.withdrawals` the bytes that leave.

The law of conservation over runs is `conserves_arrived`. The reader goes by the data flag of the
line status and not by the queue, so that a read returns the oldest byte rests on an invariant: as
long as a device is initialized, the flag is up exactly if something is queued (`Device.Flagged`).
-/

namespace Uart16550

namespace Device

variable {σ : Type}

/-! ### Withdrawals -/

/-- How bytes left the receive queue. -/
inductive Cut where
  /-- A read of the data slot took out the oldest. -/
  | read
  /-- The host cleared the queue. -/
  | cleared
  | reset
  | released
  deriving DecidableEq, Repr

/-- Bytes taken out of the receive queue at once, oldest first. -/
structure Withdrawal where
  bytes : List UInt8
  cut : Cut
  deriving DecidableEq, Repr

/-- What a read of the data register takes out. -/
def readWithdrawals (d : Device σ) : List Withdrawal :=
  if d.regs.lsr.breakInterrupt then
    []
  else if d.regs.lsr.dataReady then
    match d.rx.pop? with
    | some (byte, _) => [{ bytes := [byte], cut := .read }]
    | none => []
  else
    []

/-- What a write of a register takes out of the receive queue. -/
def writeWithdrawals (d : Device σ) (value : UInt8) : WriteRegister → List Withdrawal
  | .fifoControl =>
    if hasBit value FifoControl.enable && hasBit value FifoControl.clearReceiver then
      [{ bytes := d.rx.toList, cut := .cleared }]
    else
      []
  | _ => []

/-- What an effect takes out of the receive queue. -/
def Effect.withdrawals (d : Device σ) : Effect → List Withdrawal
  | .reads register => if register = .receiveHold then d.readWithdrawals else []
  | .writes register value => d.writeWithdrawals value register
  | .resets => [{ bytes := d.rx.toList, cut := .reset }]
  | _ => []

/-- What a move takes out of the receive queue. -/
def withdrawals (d : Device σ) : Move σ → List Withdrawal
  | .operate (.access a) => (a.effect d).withdrawals d
  | .release => [{ bytes := d.rx.toList, cut := .released }]
  | _ => []

/-! ### Arrivals -/

/-- The byte that a data write loops back, if it finds room. -/
def loopedBack (d : Device σ) (byte : UInt8) : List UInt8 :=
  if d.regs.loopback && (d.rx.push? byte).isSome then [byte] else []

/-- The bytes that a move brings into the receive queue: as many of an injected batch as the
injection counts, and that of a data write in loopback which finds room. -/
def arrived (d : Device σ) : Move σ → List UInt8
  | .operate (.access (.inject bytes)) =>
    match (d.inject bytes).1 with
    | .ok n => bytes.take n
    | .error _ => []
  | .operate (.access a) =>
    match d.dataWrite? a with
    | some byte => d.loopedBack byte
    | none => []
  | _ => []

/-- The bytes that an effect brings into the receive queue. -/
def Effect.arrived (d : Device σ) : Effect → List UInt8
  | .queues bytes => bytes.take (d.rx.pushAll bytes).1
  | .writes .transmitHold byte => d.loopedBack byte
  | _ => []

/-- An injection brings in what it reports to have queued: nothing, unless it is taken. -/
theorem arrived_inject (d : Device σ) (bytes : List UInt8) :
    d.arrived (.operate (.access (.inject bytes))) =
      if d.takesInput bytes then bytes.take (d.rx.pushAll bytes).1 else [] := by
  by_cases h : d.initialized = true ∧ bytes.length ≤ Fifo.capacity
  · rw [arrived, inject_eq h.1 h.2]
    cases hw : d.ignoresWire <;> simp [takesInput, h.1, h.2, hw]
  · obtain ⟨hrefused, e, he⟩ := inject_error h
    simp [arrived, he, hrefused]

/-- A write brings in the byte that it loops back, if it is a data write. -/
theorem arrived_writeEffect (d : Device σ) (offset value : UInt8) :
    (match d.dataWrite? (.write offset value) with
      | some byte => d.loopedBack byte
      | none => []) = (d.writeEffect offset value).arrived d := by
  cases hw : d.dataWrite? (.write offset value) with
  | some byte =>
    have he : d.writeEffect offset value = .writes .transmitHold byte :=
      dataWrite?_eq_some_iff.mp hw
    rw [he, Effect.arrived]
  | none =>
    rcases d.writeEffect_cases offset value with he | he | ⟨register, he⟩
    · rw [he]
      rfl
    · rw [he]
      rfl
    · have hne : register ≠ .transmitHold := by
        rintro rfl
        have hsome : d.dataWrite? (.write offset value) = some value :=
          dataWrite?_eq_some_iff.mpr he
        rw [hw] at hsome
        cases hsome
      rw [he]
      cases register <;> first | rfl | exact absurd rfl hne

theorem arrived_access (d : Device σ) (a : Access) :
    d.arrived (.operate (.access a)) = (a.effect d).arrived d := by
  cases a with
  | inject bytes =>
    rw [arrived_inject, Access.effect]
    split <;> rfl
  | write offset value | output offset value => exact d.arrived_writeEffect offset value
  | read offset | input offset =>
    simp only [arrived, dataWrite?, Access.effect]
    rcases d.readEffect_cases offset with he | he | ⟨register, he⟩ <;> rw [he] <;> rfl
  | signalBreak =>
    simp only [arrived, dataWrite?, Access.effect]
    split <;> rfl
  | flush reason | reset | detach => rfl

/-! ### Every move balances -/

/-- What a batch from the wire brings in is queued last. -/
theorem toList_rx_queue (d : Device σ) (bytes : List UInt8) :
    (d.queue bytes).rx.toList = d.rx.toList ++ bytes.take (d.rx.pushAll bytes).1 := by
  have hrx : (d.queue bytes).rx = (d.rx.pushAll bytes).2 := by
    simp only [queue]
    split <;> rfl
  rw [hrx, (d.rx.pushAll_eq bytes).2, (d.rx.pushAll_eq bytes).1, Nat.min_comm,
    ← List.take_eq_take_min]

/-- A byte that is looped back is queued last, if it finds room. -/
theorem toList_rx_receive (d : Device σ) (byte : UInt8) :
    (d.receive byte).rx.toList =
      d.rx.toList ++ if (d.rx.push? byte).isSome then [byte] else [] := by
  cases h : d.rx.push? byte with
  | none =>
    have hrx : (d.receive byte).rx = d.rx := by
      simp only [receive, h]
      rfl
    simp [hrx]
  | some q =>
    have hrx : (d.receive byte).rx = q := by
      simp only [receive, h]
      rfl
    simp [hrx, Fifo.toList_push? h]

/-- What a read of the data register takes out was queued first. -/
theorem balance_readData (d : Device σ) :
    d.rx.toList = d.readWithdrawals.flatMap (·.bytes) ++ d.readData.2.rx.toList := by
  by_cases hb : d.regs.lsr.breakInterrupt = true
  · simp [readWithdrawals, readData, hb]
  · by_cases hr : d.regs.lsr.dataReady = true
    · cases hp : d.rx.pop? with
      | none => simp [readWithdrawals, readData, hb, hr, hp]
      | some p =>
        obtain ⟨byte, q⟩ := p
        simpa [readWithdrawals, readData, hb, hr, hp] using Fifo.toList_pop? hp
    · simp [readWithdrawals, readData, hb, hr]

theorem balance_rx_writeRegister (d : Device σ) (register : WriteRegister) (value : UInt8) :
    d.rx.toList ++ (Effect.writes register value).arrived d =
      ((Effect.writes register value).withdrawals d).flatMap (·.bytes) ++
        (d.writeRegister value register).1.rx.toList := by
  cases register with
  | transmitHold =>
    cases hl : d.regs.loopback with
    | true =>
      have hrx : (receive (d.hold value) value).rx.toList = d.rx.toList ++ d.loopedBack value := by
        have hheld : (d.hold value).rx = d.rx := rfl
        rw [toList_rx_receive, hheld]
        simp [loopedBack, hl]
      simp only [Effect.arrived, Effect.withdrawals, writeWithdrawals, writeRegister, writeData, hl,
        if_true]
      exact hrx.symm
    | false =>
      have hrx : (d.transmit value).1.rx = d.rx :=
        (receiver_inj (d.sends_transmit value).receiver_eq).1
      simp [Effect.arrived, Effect.withdrawals, writeWithdrawals, loopedBack, writeRegister,
        writeData, hl, hrx]
  | interruptEnable =>
    have hrx : (d.writeInterruptEnable value).1.rx = d.rx :=
      (receiver_inj (receiver_writeInterruptEnable d value)).1
    simp [Effect.arrived, Effect.withdrawals, writeWithdrawals, writeRegister, hrx]
  | fifoControl =>
    have hrx : (d.writeFifoControl value).rx = (d.writeFifoControl value).receiver.queue := rfl
    rw [writeRegister, hrx, receiver_writeFifoControl]
    simp only [Effect.arrived, Effect.withdrawals, writeWithdrawals]
    split
    · simp
    · simp [receiver]
  | _ => simp [Effect.arrived, Effect.withdrawals, writeWithdrawals, writeRegister]

/-- Every effect balances on the receive queue. -/
theorem balance_rx_effect (d : Device σ) (e : Effect) :
    d.rx.toList ++ e.arrived d =
      (e.withdrawals d).flatMap (·.bytes) ++ (e.run d).1.rx.toList := by
  cases e with
  | writes register value => exact d.balance_rx_writeRegister register value
  | reads register =>
    by_cases hr : register = .receiveHold
    · subst hr
      simpa [Effect.arrived, Effect.withdrawals, Effect.run, readRegister, refresh] using
        d.balance_readData
    · have hrx : (d.readRegister register).2.rx = d.rx :=
        (receiver_inj (d.receiver_readRegister hr)).1
      simp [Effect.arrived, Effect.withdrawals, Effect.run, refresh, hr, hrx]
  | queues bytes =>
    simp [Effect.arrived, Effect.withdrawals, Effect.run, refresh, toList_rx_queue]
  | flushes reason =>
    have hrx : (d.flush reason).2.1.rx = d.rx :=
      (receiver_inj (d.sends_flush reason).receiver_eq).1
    simp [Effect.arrived, Effect.withdrawals, Effect.run, refresh, hrx]
  | resets => simp [Effect.arrived, Effect.withdrawals, Effect.run, reset, refresh]
  | _ => simp [Effect.arrived, Effect.withdrawals, Effect.run, refresh, record, detach]

/-- Every move balances on the receive queue. -/
theorem balance_rx_move (d : Device σ) (m : Move σ) :
    d.rx.toList ++ d.arrived m = (d.withdrawals m).flatMap (·.bytes) ++ (m.run d).rx.toList := by
  cases m with
  | operate op =>
    cases op with
    | access a =>
      rw [arrived_access, Move.run, Operation.run, a.device_effect]
      exact d.balance_rx_effect (a.effect d)
    | _ =>
      exact (List.append_nil _).trans
        (congrArg Fifo.toList (receiver_inj (d.sides_operate (by simp)).1).1.symm)
  | release => simp [arrived, withdrawals, Move.run, release]
  | _ =>
    exact (List.append_nil _).trans
      (congrArg Fifo.toList (d.run_keeps (by simp) (by simp)).2.1.symm)

/-! ### The data flag -/

/-- The data flag is up exactly if something is queued. -/
def Receiver.Flagged (r : Receiver) : Prop := r.dataReady = !r.queue.isEmpty

/-- As long as the device is initialized, its data flag is up exactly if something is queued. -/
def Flagged (d : Device σ) : Prop := d.initialized = true → d.receiver.Flagged

theorem flagged_receive {d : Device σ} (h : d.receiver.Flagged) (byte : UInt8) :
    (d.receive byte).receiver.Flagged := by
  cases hp : d.rx.push? byte with
  | none =>
    have hrec : (d.receive byte).receiver = d.receiver := by
      simp only [receive, hp]
      rfl
    rw [hrec]
    exact h
  | some q =>
    have hq : q.isEmpty = false := by simp [Fifo.isEmpty_eq, Fifo.toList_push? hp]
    simp [receive, hp, Receiver.Flagged, receiver, record, hq]

theorem flagged_queue {d : Device σ} (h : d.receiver.Flagged) (bytes : List UInt8) :
    (d.queue bytes).receiver.Flagged := by
  obtain ⟨hcount, hqueue⟩ := d.rx.pushAll_eq bytes
  by_cases hpos : 0 < (d.rx.pushAll bytes).1
  -- Something was accepted, so something is queued, whatever was before.
  · have hne : (d.rx.pushAll bytes).2.isEmpty = false := by
      rw [Fifo.isEmpty_eq, hqueue, List.isEmpty_eq_false_iff]
      intro hnil
      have hlen := congrArg List.length hnil
      simp only [List.length_append, List.length_take, List.length_nil] at hlen
      omega
    simp [queue, hpos, Receiver.Flagged, receiver, record, hne]
  -- Nothing was accepted, so the queue holds what it held.
  · have hsame : (d.rx.pushAll bytes).2.isEmpty = d.rx.isEmpty := by
      rw [Fifo.isEmpty_eq, Fifo.isEmpty_eq, hqueue]
      have hnil : bytes.take (Fifo.capacity - d.rx.toList.length) = [] := by
        rw [← List.length_eq_zero_iff, List.length_take]
        omega
      rw [hnil, List.append_nil]
    have hflag : d.regs.lsr.dataReady = !d.rx.isEmpty := h
    simp [queue, hpos, Receiver.Flagged, receiver, hsame, hflag]

theorem flagged_readData {d : Device σ} (h : d.receiver.Flagged) :
    d.readData.2.receiver.Flagged := by
  have hflag : d.regs.lsr.dataReady = !d.rx.isEmpty := h
  by_cases hb : d.regs.lsr.breakInterrupt = true
  · simpa [readData, hb, Receiver.Flagged, receiver] using hflag
  · by_cases hr : d.regs.lsr.dataReady = true
    · cases hp : d.rx.pop? with
      | none =>
        have hempty : d.rx.isEmpty = true := by simp [Fifo.isEmpty_eq, Fifo.pop?_eq_none_iff.mp hp]
        simp [readData, hb, hr, hp, Receiver.Flagged, receiver, hempty]
      | some p => simp [readData, hb, hr, hp, Receiver.Flagged, receiver]
    · simpa [readData, hb, hr, Receiver.Flagged, receiver] using hflag

theorem flagged_reset (d : Device σ) : d.reset.receiver.Flagged := by
  have hdown : d.reset.regs.lsr.dataReady = false := rfl
  have hempty : d.reset.rx.isEmpty = true := by simp [reset, refresh, Fifo.isEmpty_eq]
  simp [Receiver.Flagged, receiver, hdown, hempty]

theorem flagged_writeRegister {d : Device σ} (h : d.receiver.Flagged) (register : WriteRegister)
    (value : UInt8) : (d.writeRegister value register).1.receiver.Flagged := by
  cases register with
  | transmitHold =>
    simp only [writeRegister, writeData]
    split
    · exact flagged_receive (d := d.hold value) h value
    · rw [(d.sends_transmit value).receiver_eq]
      exact h
  | interruptEnable =>
    rw [writeRegister, receiver_writeInterruptEnable]
    exact h
  | fifoControl =>
    rw [writeRegister, receiver_writeFifoControl]
    split
    · simp [Receiver.Flagged, Fifo.isEmpty_eq]
    · exact h
  | _ => exact h

/-- Every effect keeps the data flag true to the queue. -/
theorem flagged_effect {d : Device σ} (h : d.receiver.Flagged) (e : Effect) :
    (e.run d).1.receiver.Flagged := by
  cases e with
  | reads register =>
    by_cases hr : register = .receiveHold
    · subst hr
      exact flagged_readData h
    · have hrec : ((Effect.reads register).run d).1.receiver = d.receiver :=
        d.receiver_readRegister hr
      rw [hrec]
      exact h
  | writes register value => exact flagged_writeRegister h register value
  | queues bytes => exact flagged_queue h bytes
  | flushes reason =>
    have hrec : ((Effect.flushes reason).run d).1.receiver = d.receiver :=
      (d.sends_flush reason).receiver_eq
    rw [hrec]
    exact h
  | resets => exact flagged_reset d
  | _ => exact h

theorem Flagged.of_receiver {d e : Device σ} (h : d.Flagged) (hrec : e.receiver = d.receiver)
    (hinit : e.initialized = d.initialized) : e.Flagged := by
  intro hi
  rw [hrec]
  exact h (hinit.symm.trans hi)

/-- Every move keeps the data flag true to the queue, for a release ends the device. -/
theorem flagged_move (d : Device σ) (m : Move σ) (h : d.Flagged) : (m.run d).Flagged := by
  cases m with
  | operate op =>
    cases op with
    | access a =>
      intro hi
      have hflag : d.receiver.Flagged := h ((d.initialized_access a).symm.trans hi)
      rw [Move.run, Operation.run, a.device_effect]
      exact flagged_effect hflag (a.effect d)
    | _ =>
      exact h.of_receiver (d.sides_operate (by simp)).1 (d.sides_operate (by simp)).2.2.2
  | release => exact fun hi => absurd hi Bool.false_ne_true
  | _ =>
    exact h.of_receiver
      (receiver_congr (d.run_keeps (by simp) (by simp)).1 (d.run_keeps (by simp) (by simp)).2.1)
      (d.run_keeps (by simp) (by simp)).2.2.2.2

theorem flagged_create (info : LineInfo) (counting : Bool) :
    (create info counting : Device σ).Flagged :=
  fun _ => flagged_reset _

/-! ### Injections and reads -/

/-- On a listed device outside loopback, an injection queues as much as fits, reports how much that
is, and causes no overrun. -/
theorem inject_of_listed {d : Device σ} {bytes : List UInt8} (hi : d.initialized = true)
    (hreg : d.registered = true) (hl : d.regs.loopback = false)
    (hn : bytes.length ≤ Fifo.capacity) :
    (d.inject bytes).1 = .ok (min bytes.length (Fifo.capacity - d.rx.toList.length)) ∧
      (d.inject bytes).2.regs.lsr.overrun = d.regs.lsr.overrun := by
  rw [inject_eq hi hn]
  cases hw : d.ignoresWire with
  | true =>
    have hfull : d.rx.toList.length = Fifo.capacity := by
      simp only [ignoresWire, hreg, hl, Fifo.isFull_eq] at hw
      simpa using (Bool.and_eq_true_iff.mp hw).2
    rw [hfull]
    exact ⟨by simp, rfl⟩
  | false =>
    refine ⟨congrArg Except.ok (d.rx.pushAll_eq bytes).1, ?_⟩
    have hkept : (d.queue bytes).regs.lsr.overrun = d.regs.lsr.overrun := by
      simp only [queue]
      split <;> rfl
    exact hkept

/-- A data read with a break pending, or with nothing queued, returns zero and takes nothing. -/
theorem readData_of_nothing {d : Device σ} (h : d.receiver.Flagged)
    (hnone : d.regs.lsr.breakInterrupt = true ∨ d.rx.toList = []) :
    d.readData.1 = 0 ∧ d.readData.2.rx = d.rx ∧ d.readWithdrawals = [] := by
  have hflag : d.regs.lsr.dataReady = !d.rx.isEmpty := h
  by_cases hb : d.regs.lsr.breakInterrupt = true
  · simp [readData, readWithdrawals, hb]
  -- With no break pending the flag decides, and over an empty queue it is down.
  · have hempty : d.rx.isEmpty = true := by
      simp [Fifo.isEmpty_eq, hnone.resolve_left hb]
    have hdown : d.regs.lsr.dataReady = false := by rw [hflag, hempty]; rfl
    simp [readData, readWithdrawals, hb, hdown]

/-- Any other returns the oldest byte and takes it out. -/
theorem readData_of_cons {d : Device σ} {byte : UInt8} {rest : List UInt8}
    (h : d.receiver.Flagged) (hb : d.regs.lsr.breakInterrupt = false)
    (hq : d.rx.toList = byte :: rest) :
    d.readData.1 = byte ∧ d.readData.2.rx.toList = rest ∧
      d.readWithdrawals = [{ bytes := [byte], cut := .read }] := by
  have hflag : d.regs.lsr.dataReady = !d.rx.isEmpty := h
  have hup : d.regs.lsr.dataReady = true := by rw [hflag, Fifo.isEmpty_eq, hq]; rfl
  cases hp : d.rx.pop? with
  -- The flag is up, so the queue cannot turn out to be empty after all.
  | none =>
    rw [Fifo.pop?_eq_none_iff.mp hp] at hq
    cases hq
  | some p =>
    obtain ⟨first, q⟩ := p
    have hcons : first :: q.toList = byte :: rest := (Fifo.toList_pop? hp).symm.trans hq
    obtain ⟨rfl, rfl⟩ := List.cons.inj hcons
    simp [readData, readWithdrawals, hb, hup, hp]

/-! ### Runs -/

/-- Over a run, what was queued and what arrived is what was withdrawn and what is queued then. -/
theorem conserves_arrived (d : Device σ) (ms : List (Move σ)) :
    d.rx.toList ++ chronicle arrived d ms =
      (chronicle withdrawals d ms).flatMap (·.bytes) ++ (d.after ms).rx.toList := by
  rw [← chronicle_flatMap]
  exact conserves_chronicle (P := fun _ => True) (fun _ _ h => h)
    (fun e m _ => e.balance_rx_move m) trivial ms

/-- **Conservation of received bytes.** Over any run of a device, the bytes that arrived are, in
order, those withdrawn and then those still queued. An injection on a listed device outside
loopback queues exactly as much as fits and causes no overrun. A data read returns the oldest byte
and takes it out if no break is pending and something is queued; otherwise it returns zero and takes
nothing. -/
theorem arrived_eq_withdrawn_append (info : LineInfo) (counting : Bool) (ms : List (Move σ)) :
    let born : Device σ := create info counting
    let d := born.after ms
    chronicle arrived born ms =
        (chronicle withdrawals born ms).flatMap (·.bytes) ++ d.rx.toList ∧
      (∀ bytes : List UInt8, bytes.length ≤ Fifo.capacity → d.initialized = true →
        d.registered = true → d.regs.loopback = false →
        (d.inject bytes).1 = .ok (min bytes.length (Fifo.capacity - d.rx.toList.length)) ∧
          (d.inject bytes).2.regs.lsr.overrun = d.regs.lsr.overrun) ∧
      ∀ a : Access, d.isDataRead a = true →
        (∀ byte rest, d.regs.lsr.breakInterrupt = false → d.rx.toList = byte :: rest →
          (a.run d).reply = .byte byte ∧ (a.run d).device.rx.toList = rest ∧
            d.withdrawals (.operate (.access a)) = [{ bytes := [byte], cut := .read }]) ∧
        (d.regs.lsr.breakInterrupt = true ∨ d.rx.toList = [] →
          (a.run d).reply = .byte 0 ∧ (a.run d).device.rx = d.rx ∧
            d.withdrawals (.operate (.access a)) = []) := by
  intro born d
  refine ⟨?_, fun bytes hn hi hreg hl => inject_of_listed hi hreg hl hn, fun a hr => ?_⟩
  · have hborn : born.rx.toList = [] := Fifo.toList_reset _
    rw [← conserves_arrived, hborn, List.nil_append]
  · obtain ⟨hi, hreply, hdevice⟩ := run_dataRead hr
    have hflag : d.receiver.Flagged :=
      after_of_keeps flagged_move (flagged_create info counting) ms hi
    have hout : d.withdrawals (.operate (.access a)) = d.readWithdrawals := by
      rw [withdrawals, isDataRead_iff.mp hr, Effect.withdrawals, if_pos rfl]
    rw [hreply, hdevice, hout]
    refine ⟨fun byte rest hb hq => ?_, fun hnone => ?_⟩
    · obtain ⟨hbyte, hrest, hcut⟩ := readData_of_cons hflag hb hq
      exact ⟨congrArg _ hbyte, hrest, hcut⟩
    · obtain ⟨hzero, hsame, hnothing⟩ := readData_of_nothing hflag hnone
      exact ⟨congrArg _ hzero, hsame, hnothing⟩

/-- Two bytes are queued. Of fifteen more, fourteen fit; a read returns the first of the two, but
with a break pending it returns zero and leaves it there. -/
theorem fifteen_injected_behind_two :
    let info : LineInfo := { line := 0, ioBase := 0x3F8, irq := 4, baudBase := 115200 }
    let ms : List (Move Unit) := [.list true, .operate (.access (.inject [0x41, 0x42]))]
    let d : Device Unit := (create info true).after ms
    let e : Device Unit := (create info true).after (ms ++ [.operate (.access .signalBreak)])
    let a : Access := .read Offset.data
    (d.inject (List.replicate 15 0x43)).1 = .ok 14 ∧
      (d.inject (List.replicate 15 0x43)).2.regs.lsr.overrun = false ∧
      (a.run d).reply = .byte 0x41 ∧ (a.run d).device.rx.toList = [0x42] ∧
      (a.run e).reply = .byte 0 ∧ (a.run e).device.rx = e.rx := by
  intro info ms d e a
  have hrd : d.isDataRead a = true := by decide +kernel
  have hre : e.isDataRead a = true := by decide +kernel
  have hq : d.rx.toList = [0x41, 0x42] := by decide +kernel
  have hd : d.initialized = true ∧ d.registered = true ∧ d.regs.loopback = false ∧
      d.regs.lsr.breakInterrupt = false ∧ d.regs.lsr.overrun = false := by decide +kernel
  have hbreak : e.regs.lsr.breakInterrupt = true := by decide +kernel
  clear_value ms
  obtain ⟨-, hinject, hread⟩ := arrived_eq_withdrawn_append info true ms
  obtain ⟨-, -, hread'⟩ :=
    arrived_eq_withdrawn_append info true (ms ++ [.operate (.access .signalBreak)])
  obtain ⟨hi, hreg, hl, hb, hov⟩ := hd
  obtain ⟨hcount, hsame⟩ := hinject (List.replicate 15 0x43) (by decide) hi hreg hl
  obtain ⟨hbyte, hrest, -⟩ := (hread a hrd).1 0x41 [0x42] hb hq
  obtain ⟨hzero, hkept, -⟩ := (hread' a hre).2 (Or.inl hbreak)
  refine ⟨?_, hsame.trans hov, hbyte, hrest, hzero, hkept⟩
  rw [hcount, hq]
  rfl

end Device

end Uart16550
