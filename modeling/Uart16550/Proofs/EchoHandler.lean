import Uart16550.Host.Echo
import Uart16550.Proofs.Reception
import Uart16550.Proofs.Settings
import Uart16550.Proofs.Status
import Uart16550.Proofs.Transmission

/-!
# What the echo handler does to a device

The echo handler reads what a device has received and writes it back, interrupt by interrupt. It
leaves the mode of the device alone: a consumer stays bound, offset 0 stays the data slot and
loopback stays as it was (`Device.Wired`). Its two loops are solved first: a drain returns the
receive queue (`drainWithin_eq`), and written bytes are printed or queued behind what was queued
before (`transmitAll_eq`).

A device is then in one of three conditions. It is `Waiting` between service rounds, `Finished` if
nothing has been received either, and `Owing` if part of the echo is still queued. With room in the
transmit queue the handler leaves the rest to the transmitter interrupt, and without room it masks
that interrupt, which flushes: so nothing stays behind unannounced (`writeBack_eq`).

## Main statements

* `deliver_lineStatus`, `deliver_receivedData`, `deliver_transmitterEmpty`: what the handler prints
  for each cause, and in which condition it leaves the device.
* `waiting_inject`, `waiting_signalBreak`, `waiting_write`: what happens to a waiting device between
  service rounds.
-/

namespace Uart16550

variable {σ : Type}

namespace Device

/-! ### Wired devices -/

/-- A device as the echo host drives it: a consumer is bound and offset 0 is the data slot. -/
structure Wired (d : Device σ) (looped : Bool) : Prop where
  reachable : d.Reachable
  initialized : d.initialized = true
  bound : d.consumer.isSome = true
  dataSlot : d.regs.divisorAccess = false
  loopback_eq : d.regs.loopback = looped

/-- A device that answers with what it has received: offset 0 is the data slot. -/
structure Readable (d : Device σ) : Prop where
  reachable : d.Reachable
  initialized : d.initialized = true
  dataSlot : d.regs.divisorAccess = false

theorem Reachable.access {d : Device σ} (h : d.Reachable) (a : Access) :
    (a.run d).device.Reachable := h.after [.operate (.access a)]

variable {d : Device σ} {looped : Bool}

theorem Wired.readable (h : d.Wired looped) : d.Readable :=
  ⟨h.reachable, h.initialized, h.dataSlot⟩

/-- A device stays wired under any access that leaves its mode alone. -/
theorem Wired.access (h : d.Wired looped) {a : Access}
    (hline : ((a.effect d).set d.settings).lineControl = d.regs.lcr)
    (hmodem : ((a.effect d).set d.settings).modemControl = d.regs.mcr) :
    (a.run d).device.Wired looped where
  reachable := h.reachable.access a
  initialized := (d.initialized_access a).trans h.initialized
  bound := by
    have hbinding : (a.run d).device.settings.binding = d.settings.binding := by
      rw [settings_access, binding_set]
    have hsome := congrArg Option.isSome hbinding
    simpa [settings, h.bound] using hsome
  dataSlot := by
    have hlcr : (a.run d).device.regs.lcr = d.regs.lcr := by
      rw [← hline, ← settings_access]
      rfl
    rw [RegisterBank.divisorAccess, hlcr]
    exact h.dataSlot
  loopback_eq := by
    have hmcr : (a.run d).device.regs.mcr = d.regs.mcr := by
      rw [← hmodem, ← settings_access]
      rfl
    rw [RegisterBank.loopback, hmcr]
    exact h.loopback_eq

/-! ### The accesses of the handler -/

/-- No read changes a setting. -/
theorem set_readEffect (d : Device σ) (offset : UInt8) (s : Settings) :
    (d.readEffect offset).set s = s := by
  rcases d.readEffect_cases offset with h | h | ⟨register, h⟩ <;> rw [h] <;> rfl

theorem Wired.input (h : d.Wired looped) (offset : UInt8) : (d.input offset).2.Wired looped := by
  have hset : ((Access.input offset).effect d).set d.settings = d.settings :=
    d.set_readEffect offset d.settings
  exact h.access (a := .input offset) (congrArg Settings.lineControl hset)
    (congrArg Settings.modemControl hset)

theorem Wired.output_data (h : d.Wired looped) (byte : UInt8) :
    d.output Offset.data byte = ((d.writeData byte).1.refresh, (d.writeData byte).2) ∧
      (d.output Offset.data byte).1.Wired looped := by
  have heffect : (Access.output Offset.data byte).effect d = .writes .transmitHold byte :=
    d.writeEffect_eq_transmitHold_iff.mpr ⟨⟨h.initialized, rfl, h.dataSlot⟩, rfl⟩
  constructor
  · rw [output, write, if_pos h.initialized, h.dataSlot]
    rfl
  · exact h.access (a := .output Offset.data byte) (by rw [heffect]; rfl) (by rw [heffect]; rfl)

/-- With offset 0 for the data slot, the next one is the interrupt enable register. -/
theorem writeEffect_interruptEnable (hi : d.initialized = true)
    (hslot : d.regs.divisorAccess = false) (value : UInt8) :
    d.writeEffect Offset.interruptEnable value = .writes .interruptEnable value := by
  rw [writeEffect, if_pos hi, hslot]
  rfl

theorem Wired.output_enable (h : d.Wired looped) (value : UInt8) :
    d.output Offset.interruptEnable value =
        ((d.writeInterruptEnable value).1.refresh, (d.writeInterruptEnable value).2) ∧
      (d.output Offset.interruptEnable value).1.Wired looped := by
  have heffect : (Access.output Offset.interruptEnable value).effect d =
      .writes .interruptEnable value := writeEffect_interruptEnable h.initialized h.dataSlot value
  constructor
  · rw [output, write, if_pos h.initialized, h.dataSlot]
    rfl
  · exact h.access (a := .output Offset.interruptEnable value) (by rw [heffect]; rfl)
      (by rw [heffect]; rfl)

/-- The device after a read of the line status, which takes back an overrun and nothing else. -/
def statusRead (d : Device σ) : Device σ := refresh { d with regs.lsr.overrun := false }

theorem input_status (hi : d.initialized = true) :
    d.input Offset.lineStatus = (d.regs.lsr.toByte, d.statusRead) := by
  rw [Device.input, read, if_pos hi]
  rfl

theorem Wired.statusRead (h : d.Wired looped) : d.statusRead.Wired looped := by
  have hread := h.input Offset.lineStatus
  rw [input_status h.initialized] at hread
  exact hread

theorem Wired.input_control (h : d.Wired looped) :
    d.input Offset.modemControl = (d.regs.mcr, d.refresh) := by
  rw [Device.input, read, if_pos h.initialized]
  rfl

theorem Readable.input_data (h : d.Readable) :
    d.input Offset.data = (d.readData.1, d.readData.2.refresh) := by
  rw [Device.input, read, if_pos h.initialized, h.dataSlot]
  rfl

theorem Readable.input (h : d.Readable) (offset : UInt8) : (d.input offset).2.Readable := by
  have hsettings : (d.input offset).2.settings = d.settings :=
    (settings_access d (.input offset)).trans (d.set_readEffect offset d.settings)
  refine ⟨h.reachable.access (.input offset), ?_, ?_⟩
  · exact (d.initialized_access (.input offset)).trans h.initialized
  · rw [RegisterBank.divisorAccess, show (d.input offset).2.regs.lcr = d.regs.lcr from
      congrArg Settings.lineControl hsettings]
    exact h.dataSlot

theorem Readable.statusRead (h : d.Readable) : d.statusRead.Readable := by
  have hread := h.input Offset.lineStatus
  rw [input_status h.initialized] at hread
  exact hread

/-! ### Reading -/

/-- Everything received was read, and no error is up. -/
structure Heard (d : Device σ) : Prop where
  rx_nil : d.rx.toList = []
  no_break : d.regs.lsr.breakInterrupt = false
  no_overrun : d.regs.lsr.overrun = false

theorem Readable.dataReady_iff (h : d.Readable) :
    d.regs.lsr.dataReady = true ↔ d.rx.toList ≠ [] :=
  ((truthful_of_reachable h.reachable).receives h.initialized).dataReady_iff

theorem Readable.dataReady_eq_false_iff (h : d.Readable) :
    d.regs.lsr.dataReady = false ↔ d.rx.toList = [] := by
  rw [← Bool.not_eq_true, h.dataReady_iff, not_not]

/-- A break is read as one byte that nobody sent, and nothing else changes. -/
theorem readData_of_break (hb : d.regs.lsr.breakInterrupt = true) :
    d.readData = (0, { d with regs.lsr.breakInterrupt := false }) := by
  rw [readData, if_pos hb]

/-- A read that takes out a byte leaves no break behind, and the transmit side as it was. -/
theorem flags_readData (hb : d.regs.lsr.breakInterrupt = false) :
    d.readData.2.regs.lsr.breakInterrupt = false ∧ d.readData.2.tx = d.tx ∧
      d.readData.2.regs.ier = d.regs.ier := by
  have htx : d.readData.2.tx = d.tx := queue_of_transmitter d.receives_readData.transmitter_eq
  have hier : d.readData.2.regs.ier = d.regs.ier :=
    congrArg Settings.interruptEnable d.receives_readData.settings_eq
  refine ⟨?_, htx, hier⟩
  simp only [readData, hb, Bool.false_eq_true, if_false]
  split
  · cases d.rx.pop? <;> rfl
  · exact hb

end Device

namespace Echo

open Device

variable {d : Device σ} {looped : Bool}

theorem hasBit_dataReady (s : LineStatus) :
    hasBit s.toByte LineStatus.dataReadyBit = s.dataReady :=
  congrArg LineStatus.dataReady s.ofByte_toByte

theorem hasBit_breakInterrupt (s : LineStatus) :
    hasBit s.toByte LineStatus.breakInterruptBit = s.breakInterrupt :=
  congrArg LineStatus.breakInterrupt s.ofByte_toByte

theorem hasBit_holdingEmpty (s : LineStatus) :
    hasBit s.toByte LineStatus.holdingEmptyBit = s.holdingEmpty :=
  congrArg LineStatus.holdingEmpty s.ofByte_toByte

/-- What every read keeps, a drain keeps. -/
theorem drainWithin_of_keeps {P : Device σ → Prop}
    (keep : ∀ d offset, P d → P (d.input offset).2) (h : P d) {reads : Nat} {bytes : List UInt8}
    {e : Device σ} (hdrain : drainWithin reads d = some (bytes, e)) : P e := by
  induction reads generalizing d bytes with
  | zero =>
    rw [drainWithin.eq_def] at hdrain
    dsimp only at hdrain
    split at hdrain
    · cases hdrain
    · cases hdrain
      exact keep d _ h
  | succ reads ih =>
    rw [drainWithin.eq_def] at hdrain
    dsimp only at hdrain
    split at hdrain
    · obtain ⟨⟨rest, f⟩, hrest, heq⟩ := Option.map_eq_some_iff.mp hdrain
      obtain ⟨-, rfl⟩ := Prod.mk.inj heq
      exact ih (keep _ _ (keep d _ h)) hrest
    · cases hdrain
      exact keep d _ h

/-- A drain ends when the line status reports no data, and its last read takes back an overrun. -/
theorem drainWithin_of_not_ready (hi : d.initialized = true)
    (hready : d.regs.lsr.dataReady = false) (reads : Nat) :
    drainWithin reads d = some ([], d.statusRead) := by
  rw [drainWithin.eq_def]
  simp only [input_status hi, hasBit_dataReady, hready, Bool.false_eq_true, if_false]

/-- While it reports data, a drain reads the data slot and goes on. -/
theorem drainWithin_of_ready (h : d.Readable) (hready : d.regs.lsr.dataReady = true)
    (reads : Nat) :
    drainWithin (reads + 1) d =
      (drainWithin reads d.statusRead.readData.2.refresh).map fun (bytes, f) =>
        (d.statusRead.readData.1 :: bytes, f) := by
  rw [drainWithin.eq_def]
  simp only [input_status h.initialized, hasBit_dataReady, hready, if_true,
    h.statusRead.input_data]

/-- Outside a break it reads the oldest byte. -/
theorem readData_statusRead_of_cons (h : d.Readable) (hb : d.regs.lsr.breakInterrupt = false)
    {byte : UInt8} {rest : List UInt8} (hq : d.rx.toList = byte :: rest) :
    d.statusRead.readData.1 = byte ∧ d.statusRead.readData.2.rx.toList = rest := by
  have hflagged : d.statusRead.receiver.Flagged :=
    (truthful_of_reachable h.statusRead.reachable).receives h.initialized
  obtain ⟨hbyte, hrest, -⟩ := readData_of_cons hflagged hb hq
  exact ⟨hbyte, hrest⟩

/-- **Draining returns everything that is queued**, oldest first, and leaves nothing of it and no
error, provided that no break is pending. -/
theorem drainWithin_eq (h : d.Readable) (hb : d.regs.lsr.breakInterrupt = false) {reads : Nat}
    (hreads : d.rx.toList.length ≤ reads) :
    ∃ e, drainWithin reads d = some (d.rx.toList, e) ∧ e.Heard ∧ e.tx = d.tx ∧
      e.regs.ier = d.regs.ier := by
  induction reads generalizing d with
  | zero =>
    have hq : d.rx.toList = [] := List.length_eq_zero_iff.mp (Nat.le_zero.mp hreads)
    refine ⟨d.statusRead, ?_, ⟨hq, hb, rfl⟩, rfl, rfl⟩
    rw [hq]
    exact drainWithin_of_not_ready h.initialized (h.dataReady_eq_false_iff.mpr hq) 0
  | succ reads ih =>
    cases hq : d.rx.toList with
    | nil =>
      exact ⟨d.statusRead, drainWithin_of_not_ready h.initialized
        (h.dataReady_eq_false_iff.mpr hq) _, ⟨hq, hb, rfl⟩, rfl, rfl⟩
    | cons byte rest =>
      have hready : d.regs.lsr.dataReady = true := by
        rw [h.dataReady_iff, hq]
        exact List.cons_ne_nil byte rest
      obtain ⟨hbyte, hrest⟩ := readData_statusRead_of_cons h hb hq
      obtain ⟨hbreak, htx, hier⟩ := flags_readData (d := d.statusRead) hb
      have hnext := h.statusRead.input Offset.data
      rw [h.statusRead.input_data] at hnext
      have hless : d.statusRead.readData.2.refresh.rx.toList.length ≤ reads := by
        have hlength : rest.length + 1 ≤ reads + 1 := by rwa [hq] at hreads
        rw [show d.statusRead.readData.2.refresh.rx.toList = rest from hrest]
        exact Nat.le_of_succ_le_succ hlength
      obtain ⟨f, hdrain, hheard, htx', hier'⟩ := ih hnext hbreak hless
      refine ⟨f, ?_, hheard, htx'.trans htx, hier'.trans hier⟩
      rw [drainWithin_of_ready h hready, hdrain, hbyte,
        show d.statusRead.readData.2.refresh.rx.toList = rest from hrest]
      rfl

end Echo

namespace Device

/-! ### Writing -/

/-- Departures that a consumer took. -/
def Consumed (xs : List Departure) : Prop :=
  ∀ x ∈ xs, ∃ label reason, x.route = .consumed label reason

/-- What consumers took is printed whole. -/
theorem Consumed.printed {xs : List Departure} (h : Consumed xs) (line : UInt8) :
    Echo.printed (xs.filterMap (·.call? line)) = xs.flatMap (·.bytes) := by
  induction xs with
  | nil => rfl
  | cons x xs ih =>
    obtain ⟨label, reason, hroute⟩ := h x List.mem_cons_self
    have hcall : x.call? line = some { label, line, bytes := x.bytes, reason } := by
      simp only [Departure.call?, hroute]
    have hrest : Echo.printed (xs.filterMap (·.call? line)) = xs.flatMap (·.bytes) :=
      ih fun y hy => h y (List.mem_cons_of_mem x hy)
    rw [List.filterMap_cons_some hcall, List.flatMap_cons, ← hrest]
    rfl

theorem Consumed.append {xs ys : List Departure} (h : Consumed xs) (h' : Consumed ys) :
    Consumed (xs ++ ys) := fun x hx =>
  (List.mem_append.mp hx).elim (h x) (h' x)

variable {d : Device σ} {looped : Bool}

theorem consumed_flushDepartures (h : d.consumer.isSome = true) (condition : Bool)
    (reason : FlushReason) : Consumed (d.flushDepartures condition reason) := by
  intro x hx
  obtain ⟨c, hc⟩ := Option.isSome_iff_exists.mp h
  cases condition with
  | false => cases hx
  | true =>
    obtain rfl := List.mem_singleton.mp hx
    exact ⟨c.label, reason, by simp only [flushDeparture, hc]⟩

/-- A byte sent to a bound consumer is queued or printed, behind whatever was queued before it. -/
theorem printed_transmit (h : d.consumer.isSome = true) (byte : UInt8) :
    d.tx.toList ++ [byte] =
      Echo.printed (d.transmit byte).2 ++ (d.transmit byte).1.tx.toList := by
  have hroom : d.findsRoom byte = true := by
    rw [← Bool.not_eq_false, findsRoom_eq_false_iff]
    rintro ⟨-, hnone⟩
    rw [hnone] at h
    cases h
  have hconsumed : Consumed (d.transmitDepartures byte) := by
    refine (consumed_flushDepartures h _ .full).append ?_
    cases he : (d.hold byte).makeRoom.1.enqueue byte with
    | none => exact fun x hx => by cases hx
    | some e =>
      -- Making room calls the consumer and does not let go of it.
      have hbinding : e.settings.binding = d.settings.binding :=
        ((sends_makeRoom _).trans (sends_enqueue he)).binding_eq
      have hbound : e.consumer.isSome = true := by
        have hsome := congrArg Option.isSome hbinding
        simpa [settings, h] using hsome
      exact consumed_flushDepartures hbound _ .threshold
  have hbalance := d.balance_transmit byte
  rw [hroom, if_pos rfl] at hbalance
  rw [hbalance, d.calls_transmit byte, hconsumed.printed]

/-- A write of the interrupt enable register prints from the queue or leaves it alone. -/
theorem printed_writeInterruptEnable (h : d.consumer.isSome = true) (value : UInt8) :
    d.tx.toList = Echo.printed (d.writeInterruptEnable value).2 ++
      (d.writeInterruptEnable value).1.tx.toList := by
  have hcalls : (d.writeInterruptEnable value).2 =
      (d.maskDepartures value).filterMap (·.call? d.line) := d.calls_flushDepartures _ .idle
  have hbalance : d.tx.toList = (d.maskDepartures value).flatMap (·.bytes) ++
      (d.writeInterruptEnable value).1.tx.toList := d.balance_flush _ .idle
  have hconsumed : Consumed (d.maskDepartures value) := consumed_flushDepartures h _ .idle
  rw [hcalls, hconsumed.printed]
  exact hbalance

/-- Masking the transmitter interrupt leaves nothing queued. -/
theorem toList_tx_mask {value : UInt8}
    (hier : hasBit d.regs.ier InterruptEnable.transmitterEmpty = true)
    (hvalue : hasBit value InterruptEnable.transmitterEmpty = false) :
    (d.writeInterruptEnable value).1.tx.toList = [] := by
  cases hempty : d.tx.isEmpty with
  | true =>
    have hnil : d.tx.toList = [] := by
      rw [Fifo.isEmpty_eq] at hempty
      exact List.isEmpty_iff.mp hempty
    simp only [writeInterruptEnable, hier, hvalue, hempty, Bool.not_true, Bool.and_false,
      Bool.false_eq_true, if_false]
    exact hnil
  | false =>
    simp only [writeInterruptEnable, hier, hvalue, hempty, Bool.not_false, Bool.and_true, if_true]
    exact d.toList_tx_flush .idle

/-- It changes no line status flag but those of the transmitter. -/
theorem overrun_writeInterruptEnable (d : Device σ) (value : UInt8) :
    (d.writeInterruptEnable value).1.regs.lsr.overrun = d.regs.lsr.overrun := by
  simp only [writeInterruptEnable]
  split
  · exact congrArg (·.lsr.overrun) (d.regs_flush .idle)
  · rfl

end Device

namespace Echo

open Device

variable {d : Device σ} {looped : Bool}

/-- **Written bytes are printed or queued**, in order, behind what was queued before. -/
theorem transmitAll_eq (h : d.Wired false) (bytes : List UInt8) :
    (transmitAll d bytes).1.Wired false ∧
      (transmitAll d bytes).1.receiver = d.receiver ∧
      (transmitAll d bytes).1.regs.ier = d.regs.ier ∧
      d.tx.toList ++ bytes =
        printed (transmitAll d bytes).2 ++ (transmitAll d bytes).1.tx.toList := by
  induction bytes generalizing d with
  | nil => exact ⟨h, rfl, rfl, List.append_nil _⟩
  | cons byte bytes ih =>
    obtain ⟨hout, hwired⟩ := h.output_data byte
    have hwrite : d.writeData byte = d.transmit byte := by
      rw [writeData, h.loopback_eq]
      rfl
    rw [hwrite] at hout
    obtain ⟨hwired', hrx, hier, hbalance⟩ := ih hwired
    have hfirst := printed_transmit h.bound byte
    have hall : transmitAll d (byte :: bytes) =
        ((transmitAll (d.output Offset.data byte).1 bytes).1,
          (d.output Offset.data byte).2 ++
            (transmitAll (d.output Offset.data byte).1 bytes).2) := rfl
    rw [hall]
    refine ⟨hwired', hrx.trans ?_, hier.trans ?_, ?_⟩
    · rw [hout]
      exact (d.sends_transmit byte).receiver_eq
    · rw [hout]
      exact congrArg Settings.interruptEnable (d.sends_transmit byte).settings_eq
    · have hqueued : (d.output Offset.data byte).1.tx.toList = (d.transmit byte).1.tx.toList := by
        rw [hout]
        rfl
      have hprinted : (d.output Offset.data byte).2 = (d.transmit byte).2 := by rw [hout]
      calc d.tx.toList ++ byte :: bytes
          = (d.tx.toList ++ [byte]) ++ bytes := by simp
        _ = printed (d.output Offset.data byte).2 ++
              ((d.output Offset.data byte).1.tx.toList ++ bytes) := by
            rw [hfirst, hprinted, hqueued, List.append_assoc]
        _ = _ := by
            rw [hbalance]
            simp only [printed, List.flatMap_append, List.append_assoc]

/-! ### Where the handler leaves a device -/

/-- A device between two service rounds: whatever was received waits, and nothing is to be sent. -/
structure Waiting (d : Device σ) (looped : Bool) : Prop where
  wired : d.Wired looped
  tx_nil : d.tx.toList = []
  ier_eq : d.regs.ier = receiveInterrupts

/-- A device after a service round: nothing waits either way. -/
structure Finished (d : Device σ) (looped : Bool) : Prop extends Waiting d looped, d.Heard

/-- A device that still has to send: the transmitter interrupt is unmasked and due. -/
structure Owing (d : Device σ) (looped : Bool) : Prop extends d.Heard where
  wired : d.Wired looped
  ier_eq : d.regs.ier = allInterrupts
  holdingEmpty : d.regs.lsr.holdingEmpty = true

/-- What a write of the interrupt enable register does to a wired device. -/
structure Masked (d e : Device σ) (flushes : List Flush) (value : UInt8) : Prop where
  receiver_eq : e.receiver = d.receiver
  overrun_eq : e.regs.lsr.overrun = d.regs.lsr.overrun
  ier_eq : e.regs.ier = value &&& InterruptEnable.implemented
  printed_append : d.tx.toList = printed flushes ++ e.tx.toList
  /-- Masking the transmitter interrupt leaves nothing queued. -/
  tx_nil : hasBit d.regs.ier InterruptEnable.transmitterEmpty = true →
    hasBit value InterruptEnable.transmitterEmpty = false → e.tx.toList = []

theorem masked_output (h : d.Wired looped) (value : UInt8) :
    (d.output Offset.interruptEnable value).1.Wired looped ∧
      Masked d (d.output Offset.interruptEnable value).1
        (d.output Offset.interruptEnable value).2 value := by
  obtain ⟨hout, hwired⟩ := h.output_enable value
  refine ⟨hwired, ?_⟩
  rw [hout]
  constructor
  case receiver_eq => exact d.receiver_writeInterruptEnable value
  case overrun_eq => exact d.overrun_writeInterruptEnable value
  case ier_eq => exact congrArg Settings.interruptEnable (d.settings_writeInterruptEnable value)
  case printed_append => exact printed_writeInterruptEnable h.bound value
  case tx_nil => exact toList_tx_mask

/-- Nothing on the receive side has changed but perhaps an overrun that was taken back. -/
theorem heard_of_receiver {e : Device σ} (h : d.Heard) (hrec : e.receiver = d.receiver)
    (ho : e.regs.lsr.overrun = false) : e.Heard := by
  obtain ⟨hrx, -, hbreak⟩ := receiver_inj hrec
  exact ⟨hrx ▸ h.rx_nil, hbreak.trans h.no_break, ho⟩

/-- **Writing back** prints a front part of the bytes. The rest is queued, and then the transmitter
interrupt is due. -/
theorem writeBack_eq (h : Waiting d false) (hheard : d.Heard) (bytes : List UInt8) :
    bytes = printed (writeBack d bytes).2 ++ (writeBack d bytes).1.tx.toList ∧
      (Finished (writeBack d bytes).1 false ∨ Owing (writeBack d bytes).1 false) := by
  obtain ⟨hwritten, hrec₁, -, hprinted⟩ := transmitAll_eq h.wired bytes
  rw [h.tx_nil, List.nil_append] at hprinted
  obtain ⟨hunmasked, hmask⟩ := masked_output hwritten allInterrupts
  -- The status is read with the interrupt unmasked and tells whether the transmitter has room.
  have hstatus := input_status hunmasked.initialized
  have hread := hunmasked.statusRead
  generalize hd₁ : transmitAll d bytes = r₁ at *
  generalize hd₂ : r₁.1.output Offset.interruptEnable allInterrupts = r₂ at *
  have hheard₃ : r₂.1.statusRead.Heard :=
    heard_of_receiver hheard (hmask.receiver_eq.trans hrec₁) rfl
  cases hroom : r₂.1.regs.lsr.holdingEmpty with
  | true =>
    have hback : writeBack d bytes =
        (r₂.1.statusRead, r₁.2 ++ r₂.2) := by
      simp only [writeBack, hd₁, hd₂, hstatus, hasBit_holdingEmpty, hroom, if_true]
    rw [hback]
    refine ⟨?_, Or.inr ⟨hheard₃, hread, hmask.ier_eq, hroom⟩⟩
    rw [hprinted, hmask.printed_append]
    simp only [printed, List.flatMap_append, List.append_assoc]
    rfl
  | false =>
    -- Without room the interrupt would not come, so it is masked again at once.
    obtain ⟨hmasked, hlast⟩ := masked_output hread receiveInterrupts
    have hback : writeBack d bytes =
        ((r₂.1.statusRead.output Offset.interruptEnable
            receiveInterrupts).1,
          r₁.2 ++ r₂.2 ++ (r₂.1.statusRead.output
            Offset.interruptEnable receiveInterrupts).2) := by
      simp only [writeBack, hd₁, hd₂, hstatus, hasBit_holdingEmpty, hroom, Bool.false_eq_true,
        if_false]
    have hunset : hasBit r₂.1.statusRead.regs.ier
        InterruptEnable.transmitterEmpty = true := by
      have hier : r₂.1.statusRead.regs.ier =
          allInterrupts &&& InterruptEnable.implemented := hmask.ier_eq
      rw [hier]
      rfl
    have hnil := hlast.tx_nil hunset rfl
    rw [hback]
    refine ⟨?_, Or.inl ⟨⟨hmasked, hnil, hlast.ier_eq⟩,
      heard_of_receiver hheard₃ hlast.receiver_eq hlast.overrun_eq⟩⟩
    have hqueued : r₂.1.tx.toList = _ := hlast.printed_append
    rw [hprinted, hmask.printed_append, hqueued]
    simp only [printed, List.flatMap_append, List.append_assoc]

/-! ### Causes -/

theorem cause_waiting (h : Waiting d looped) :
    d.regs.cause =
      if d.regs.lsr.overrun || d.regs.lsr.breakInterrupt then some .lineStatus
      else if d.regs.lsr.dataReady then some .receivedData else none := by
  have hfaultless := (truthful_of_reachable h.wired.reachable).faultless
  have herror : d.regs.lsr.hasError = (d.regs.lsr.overrun || d.regs.lsr.breakInterrupt) := by
    rw [LineStatus.hasError, hfaultless.parityError_eq, hfaultless.framingError_eq]
    simp
  have hline : hasBit receiveInterrupts InterruptEnable.lineStatus = true := rfl
  have hdata : hasBit receiveInterrupts InterruptEnable.receivedData = true := rfl
  have hsend : hasBit receiveInterrupts InterruptEnable.transmitterEmpty = false := rfl
  simp only [RegisterBank.cause, h.ier_eq, herror, hline, hdata, hsend, Bool.true_and,
    Bool.false_and, Bool.false_eq_true, if_false]

theorem cause_owing (h : Owing d looped) : d.regs.cause = some .transmitterEmpty := by
  have hfaultless := (truthful_of_reachable h.wired.reachable).faultless
  have herror : d.regs.lsr.hasError = false := by
    rw [LineStatus.hasError, hfaultless.parityError_eq, hfaultless.framingError_eq, h.no_overrun,
      h.no_break]
    rfl
  have hready : d.regs.lsr.dataReady = false := h.wired.readable.dataReady_eq_false_iff.mpr h.rx_nil
  have hsend : hasBit allInterrupts InterruptEnable.transmitterEmpty = true := rfl
  simp only [RegisterBank.cause, h.ier_eq, herror, hready, hsend, h.holdingEmpty, Bool.and_false,
    Bool.and_self, Bool.false_eq_true, if_false, if_true]

theorem cause_finished (h : Finished d looped) : d.regs.cause = none := by
  have hready : d.regs.lsr.dataReady = false := h.wired.readable.dataReady_eq_false_iff.mpr h.rx_nil
  rw [cause_waiting h.toWaiting, h.no_overrun, h.no_break, hready]
  rfl

/-! ### The handler -/

/-- On a line status interrupt nothing is printed and nothing received is lost: reading the status
takes back an overrun, and a break is read away. -/
theorem deliver_lineStatus (h : Waiting d looped) {iir : UInt8}
    (hiir : Cause.ofIdent iir = some .lineStatus) :
    ∃ e, deliver d iir = some ([], e) ∧ Waiting e looped ∧ e.rx = d.rx ∧
      e.regs.lsr.overrun = false ∧ e.regs.lsr.breakInterrupt = false := by
  have hread := h.wired.statusRead
  have hdeliver : deliver d iir = some ([],
      if d.regs.lsr.breakInterrupt then
        (d.statusRead.input Offset.data).2
      else d.statusRead) := by
    simp only [deliver, hiir, input_status h.wired.initialized, hasBit_breakInterrupt]
  rw [hdeliver]
  cases hb : d.regs.lsr.breakInterrupt with
  | false => exact ⟨_, rfl, ⟨hread, h.tx_nil, h.ier_eq⟩, rfl, rfl, hb⟩
  | true =>
    have hdata := hread.input Offset.data
    have hbreak : d.statusRead.readData = _ :=
      readData_of_break hb
    rw [hread.readable.input_data, hbreak] at hdata ⊢
    exact ⟨_, rfl, ⟨hdata, h.tx_nil, h.ier_eq⟩, rfl, rfl, rfl⟩

/-- On a received data interrupt everything received is taken out and printed, or queued with the
transmitter interrupt due. -/
theorem deliver_receivedData (h : Waiting d looped) (hb : d.regs.lsr.breakInterrupt = false)
    {iir : UInt8} (hiir : Cause.ofIdent iir = some .receivedData) :
    ∃ out e, deliver d iir = some (out, e) ∧ d.rx.toList = out ++ e.tx.toList ∧
      (Finished e looped ∨ Owing e looped) := by
  obtain ⟨e, hdrain, hheard, htx, hier⟩ :=
    drainWithin_eq h.wired.readable hb (Nat.le_succ_of_le (Nat.le_of_eq d.rx.length_toList))
  have hwired : e.Wired looped :=
    drainWithin_of_keeps (P := (·.Wired looped)) (fun _ offset h => h.input offset) h.wired hdrain
  have hcontrol := hwired.input Offset.modemControl
  rw [hwired.input_control] at hcontrol
  have hwaiting : Waiting e.refresh looped :=
    ⟨hcontrol, (congrArg Fifo.toList htx).trans h.tx_nil, hier.trans h.ier_eq⟩
  have hheard' : e.refresh.Heard := ⟨hheard.rx_nil, hheard.no_break, hheard.no_overrun⟩
  have hloop : hasBit e.regs.mcr ModemControl.loop = looped := hwired.loopback_eq
  cases looped with
  | true =>
    refine ⟨d.rx.toList, e.refresh, ?_, ?_, Or.inl ⟨hwaiting, hheard'⟩⟩
    · simp only [deliver, hiir, drain, hdrain, Option.map_some, hwired.input_control, hloop,
        if_true]
    · rw [hwaiting.tx_nil, List.append_nil]
  | false =>
    obtain ⟨hprinted, hleft⟩ := writeBack_eq hwaiting hheard' d.rx.toList
    refine ⟨_, _, ?_, hprinted, hleft⟩
    simp only [deliver, hiir, drain, hdrain, Option.map_some, hwired.input_control, hloop,
      Bool.false_eq_true, if_false]

/-- On a transmitter interrupt the rest is printed. -/
theorem deliver_transmitterEmpty (h : Owing d looped) {iir : UInt8}
    (hiir : Cause.ofIdent iir = some .transmitterEmpty) :
    ∃ e, deliver d iir = some (d.tx.toList, e) ∧ Finished e looped := by
  obtain ⟨hmasked, hmask⟩ := masked_output h.wired receiveInterrupts
  have hunset : hasBit d.regs.ier InterruptEnable.transmitterEmpty = true := by
    rw [h.ier_eq]
    rfl
  have hnil := hmask.tx_nil hunset rfl
  have hprinted := hmask.printed_append
  rw [hnil, List.append_nil] at hprinted
  refine ⟨_, ?_, ⟨⟨hmasked, hnil, hmask.ier_eq⟩,
    heard_of_receiver h.toHeard hmask.receiver_eq (hmask.overrun_eq.trans h.no_overrun)⟩⟩
  simp only [deliver, hiir, hprinted]

/-! ### Between service rounds -/

/-- An access that changes no setting, sends nothing and takes nothing out leaves a device waiting,
with what arrives queued last. -/
theorem waiting_access (h : Waiting d looped) {a : Access}
    (hset : (a.effect d).set d.settings = d.settings)
    (htx : (a.run d).device.transmitter = d.transmitter)
    (hkept : d.withdrawals (.operate (.access a)) = []) :
    Waiting (a.run d).device looped ∧
      (a.run d).device.rx.toList = d.rx.toList ++ d.arrived (.operate (.access a)) := by
  have hier : (a.run d).device.settings.interruptEnable = d.settings.interruptEnable := by
    rw [settings_access, hset]
  have hbalance := d.balance_rx_move (.operate (.access a))
  rw [hkept] at hbalance
  refine ⟨⟨h.wired.access (congrArg Settings.lineControl hset)
    (congrArg Settings.modemControl hset), ?_, hier.trans h.ier_eq⟩, hbalance.symm⟩
  rw [queue_of_transmitter htx]
  exact h.tx_nil

/-- A batch from the wire prints nothing. -/
theorem waiting_inject (h : Waiting d looped) (bytes : List UInt8) :
    Waiting ((Access.inject bytes).run d).device looped ∧
      ((Access.inject bytes).run d).device.rx.toList =
        d.rx.toList ++ d.arrived (.operate (.access (.inject bytes))) := by
  have heffect : (Access.inject bytes).effect d = .queues bytes ∨
      (Access.inject bytes).effect d = .refused := by
    rw [Access.effect]
    split
    · exact Or.inl rfl
    · exact Or.inr rfl
  refine waiting_access h ?_ ?_ ?_
  · rcases heffect with he | he <;> rw [he] <;> rfl
  · rw [Access.device_effect]
    rcases heffect with he | he <;> rw [he]
    · exact (d.receives_queue bytes).transmitter_eq
    · rfl
  · rw [withdrawals]
    rcases heffect with he | he <;> rw [he] <;> rfl

/-- Nor does a break, and it adds no byte. -/
theorem waiting_signalBreak (h : Waiting d looped) :
    Waiting (Access.signalBreak.run d).device looped ∧
      (Access.signalBreak.run d).device.rx.toList = d.rx.toList := by
  have heffect : Access.signalBreak.effect d = .breaks ∨
      Access.signalBreak.effect d = .refused := by
    rw [Access.effect]
    split
    · exact Or.inl rfl
    · exact Or.inr rfl
  have hwaiting := waiting_access h (a := .signalBreak)
    (by rcases heffect with he | he <;> rw [he] <;> rfl)
    (by
      rw [Access.device_effect]
      rcases heffect with he | he <;> rw [he] <;> rfl)
    (by
      rw [withdrawals]
      rcases heffect with he | he <;> rw [he] <;> rfl)
  have hnone : d.arrived (.operate (.access .signalBreak)) = [] := rfl
  rw [hnone, List.append_nil] at hwaiting
  exact hwaiting

/-- In loopback, a byte that is written to the transmitter is received if it finds room, and nothing
is printed. -/
theorem waiting_write (h : Waiting d true) (byte : UInt8) :
    Waiting ((Access.write Offset.data byte).run d).device true ∧
      ((Access.write Offset.data byte).run d).device.rx.toList =
        d.rx.toList ++ d.arrived (.operate (.access (.write Offset.data byte))) ∧
      ((Access.write Offset.data byte).run d).reply = .done ∧
      ((Access.write Offset.data byte).run d).flushes = [] := by
  have heffect : (Access.write Offset.data byte).effect d = .writes .transmitHold byte :=
    d.writeEffect_eq_transmitHold_iff.mpr ⟨⟨h.wired.initialized, rfl, h.wired.dataSlot⟩, rfl⟩
  have hwrite : d.writeData byte = (receive (d.hold byte) byte, []) := by
    rw [writeData, h.wired.loopback_eq]
    rfl
  obtain ⟨hwaiting, hrx⟩ := waiting_access h (a := .write Offset.data byte)
    (by rw [heffect]; rfl)
    (by
      rw [Access.device_effect, heffect]
      simp only [Effect.run, writeRegister, hwrite]
      exact ((d.hold byte).receives_receive byte).transmitter_eq)
    (by rw [withdrawals, heffect]; rfl)
  refine ⟨hwaiting, hrx, ?_, ?_⟩
  · have hok : (d.write Offset.data byte).1 = .ok () := by
      rw [write, if_pos h.wired.initialized, h.wired.dataSlot]
      rfl
    simp only [Access.run, hok]
    rfl
  · rw [Access.flushes_effect, heffect]
    simp only [Effect.run, writeRegister, hwrite]

end Echo

end Uart16550
