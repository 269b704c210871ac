import Uart16550.Proofs.Identification
import Uart16550.Proofs.Reception

/-!
# The line status tells the truth about the queues

The flags of the line status are kept up piece by piece, away from the queues that they speak of:
a byte sent lowers `holdingEmpty` at half a queue and never raises it, a flush raises it whatever
was queued, a clear by the host does so for one queue or the other. What makes them true all the
same is that the transmit queue never shrinks except to nothing.

`Transmitter.Flagged` is the invariant on the transmit side, as `Receiver.Flagged` is on the receive
side. Both hold for as long as the device is initialized: its release empties the queues and leaves
the flags. `RegisterBank.Faultless` covers what no transition ever raises, and holds for good.
-/

namespace Uart16550

namespace Device

variable {σ : Type}

/-! ### The transmit side -/

/-- The one flag is up exactly if nothing is queued, the other exactly below half a queue. -/
structure Transmitter.Flagged (t : Transmitter) : Prop where
  transmitterEmpty_eq : t.transmitterEmpty = t.queue.isEmpty
  holdingEmpty_eq : t.holdingEmpty = decide (t.queue.length < Fifo.capacity / 2)

theorem transmitter_congr {d e : Device σ} (hregs : d.regs = e.regs) (htx : d.tx = e.tx) :
    d.transmitter = e.transmitter := by
  simp only [transmitter, hregs, htx]

/-- An empty queue with both flags up. -/
theorem Transmitter.flagged_of_idle {t : Transmitter} (hq : t.queue.toList = [])
    (ht : t.transmitterEmpty = true) (hh : t.holdingEmpty = true) : t.Flagged where
  transmitterEmpty_eq := by rw [ht, Fifo.isEmpty_eq, hq]; rfl
  holdingEmpty_eq := by
    have hlen : t.queue.length = 0 := Fifo.toList_eq_nil_iff.mp hq
    rw [hh, hlen]
    rfl

/-- Of the registers, a flush changes the transmitter flags. -/
theorem regs_flush (d : Device σ) (reason : FlushReason) :
    (d.flush reason).2.1.regs = { d.regs with lsr := d.regs.lsr.setTransmitterIdle } := by
  cases h : d.consumer <;> simp only [flush, h] <;> rfl

/-- Of the registers, sending changes the line status at most. -/
theorem Sends.exists_regs {d e : Device σ} (h : d.Sends e) :
    ∃ lsr, e.regs = { d.regs with lsr := lsr } := by
  obtain ⟨⟨_, rfl⟩, -⟩ := h
  exact ⟨_, rfl⟩

/-- A flush leaves nothing queued and both flags up, whatever they said before. -/
theorem flagged_flush (d : Device σ) (reason : FlushReason) :
    (d.flush reason).2.1.transmitter.Flagged := by
  have hregs := d.regs_flush reason
  refine Transmitter.flagged_of_idle (d.toList_tx_flush reason) ?_ ?_
  · exact congrArg (·.lsr.transmitterEmpty) hregs
  · exact congrArg (·.lsr.holdingEmpty) hregs

/-- A flush on a condition keeps the flags true. -/
theorem flagged_flushIf {d : Device σ} (h : d.transmitter.Flagged) (condition : Bool)
    (reason : FlushReason) :
    (if condition then (d.flush reason).2 else (d, [])).1.transmitter.Flagged := by
  split
  · exact d.flagged_flush reason
  · exact h

/-- A queued byte leaves the queue one longer, so a flag that was down stays down rightly. -/
theorem flagged_enqueue {d e : Device σ} {byte : UInt8} (h : d.transmitter.Flagged)
    (he : d.enqueue byte = some e) : e.transmitter.Flagged := by
  have hhold : d.regs.lsr.holdingEmpty = decide (d.tx.length < Fifo.capacity / 2) :=
    h.holdingEmpty_eq
  obtain ⟨q, hq, rfl⟩ := exists_of_enqueue he
  have hlist : q.toList = d.tx.toList ++ [byte] := Fifo.toList_push? hq
  have hlen : q.length = d.tx.length + 1 := by
    rw [← Fifo.length_toList, hlist, List.length_append, Fifo.length_toList]
    rfl
  refine ⟨?_, ?_⟩
  · have hne : q.isEmpty = false := by simp [Fifo.isEmpty_eq, hlist]
    exact hne.symm
  · have hless : q.length < Fifo.capacity / 2 → d.tx.length < Fifo.capacity / 2 := by omega
    have hboth : (decide (d.tx.length < Fifo.capacity / 2) &&
        decide (q.length < Fifo.capacity / 2)) = decide (q.length < Fifo.capacity / 2) := by
      by_cases hq' : q.length < Fifo.capacity / 2
      · simp [hq', hless hq']
      · simp [hq']
    simp only [transmitter, hhold, hboth]

theorem flagged_transmit {d : Device σ} (h : d.transmitter.Flagged) (byte : UInt8) :
    (d.transmit byte).1.transmitter.Flagged := by
  have hroom : (d.hold byte).makeRoom.1.transmitter.Flagged :=
    flagged_flushIf (d := d.hold byte) h _ .full
  cases he : (d.hold byte).makeRoom.1.enqueue byte with
  | none =>
    -- A byte that is lost changes neither the queue nor its two flags.
    rw [transmit_of_none he]
    exact hroom
  | some e =>
    rw [transmit_of_some he]
    exact flagged_flushIf (flagged_enqueue hroom he) _ .threshold

/-- On the transmit side, the FIFO control register does nothing but empty the queue. -/
theorem transmitter_writeFifoControl (d : Device σ) (value : UInt8) :
    (d.writeFifoControl value).transmitter =
      if hasBit value FifoControl.enable && hasBit value FifoControl.clearTransmitter then
        { queue := d.tx.reset, holdingEmpty := true, transmitterEmpty := true }
      else
        d.transmitter := by
  simp only [writeFifoControl]
  cases he : hasBit value FifoControl.enable <;>
    cases hr : hasBit value FifoControl.clearReceiver <;>
      cases hx : hasBit value FifoControl.clearTransmitter <;> rfl

theorem flagged_tx_writeRegister {d : Device σ} (h : d.transmitter.Flagged)
    (register : WriteRegister) (value : UInt8) :
    (d.writeRegister value register).1.transmitter.Flagged := by
  cases register with
  | transmitHold =>
    simp only [writeRegister, writeData]
    split
    · rw [(receives_receive _ value).transmitter_eq]
      exact h
    · exact flagged_transmit h value
  | interruptEnable => exact flagged_flushIf h _ .idle
  | fifoControl =>
    rw [writeRegister, transmitter_writeFifoControl]
    split
    · exact Transmitter.flagged_of_idle (Fifo.toList_reset _) rfl rfl
    · exact h
  | _ => exact h

theorem flagged_tx_reset (d : Device σ) : d.reset.transmitter.Flagged :=
  Transmitter.flagged_of_idle (Fifo.toList_reset _) rfl rfl

/-- Every effect keeps the transmitter flags true to the queue. -/
theorem flagged_tx_effect {d : Device σ} (h : d.transmitter.Flagged) (e : Effect) :
    (e.run d).1.transmitter.Flagged := by
  cases e with
  | reads register =>
    have hkept : ((Effect.reads register).run d).1.transmitter = d.transmitter :=
      (d.receives_readRegister register).transmitter_eq
    rw [hkept]
    exact h
  | writes register value => exact flagged_tx_writeRegister h register value
  | queues bytes =>
    have hkept : ((Effect.queues bytes).run d).1.transmitter = d.transmitter :=
      (d.receives_queue bytes).transmitter_eq
    rw [hkept]
    exact h
  | flushes reason => exact d.flagged_flush reason
  | resets => exact d.flagged_tx_reset
  | _ => exact h

/-! ### What is never raised -/

/-- Every effect leaves down what is never raised. -/
theorem faultless_effect {d : Device σ} (h : d.regs.Faultless) (e : Effect) :
    (e.run d).1.regs.Faultless := by
  rcases e.cases_refreshes with rfl | rfl | hrefreshes
  · exact h
  · exact h
  · obtain ⟨c, hc, hrun⟩ := d.exists_accesses hrefreshes
    obtain ⟨hparity, hframing, hfifo, hmodem⟩ := hc.faultless h
    rw [hrun]
    exact ⟨hparity, hframing, hfifo, hmodem⟩

/-! ### Reachable devices -/

/-- What the line status promises: as long as the device is initialized its flags are true to both
queues, and at any time nothing is raised that never is. -/
structure Truthful (d : Device σ) : Prop where
  receives : d.Flagged
  transmits : d.initialized = true → d.transmitter.Flagged
  faultless : d.regs.Faultless

/-- A move that is neither an access nor a release changes no register but the identification, and
nothing on the transmit side. -/
theorem run_quiet (d : Device σ) {m : Move σ} (hacc : ∀ a, m ≠ .operate (.access a))
    (hrel : m ≠ .release) :
    (m.run d).transmitter = d.transmitter ∧ (m.run d).initialized = d.initialized ∧
      (m.run d).regs.lsr = d.regs.lsr ∧ (m.run d).regs.msr = d.regs.msr := by
  by_cases hoper : ∃ op, m = .operate op
  · obtain ⟨op, rfl⟩ := hoper
    have hop : ∀ a, op ≠ .access a := fun a ha => hacc a (ha ▸ rfl)
    obtain ⟨-, htx, -, hinit⟩ := d.sides_operate hop
    refine ⟨htx, hinit, ?_⟩
    have hrun : (Move.operate op).run d = (op.run d).device := rfl
    rw [hrun]
    rcases d.operate_cases hop with ⟨⟨c, m, hd⟩, -⟩ | ⟨sink, rfl⟩ | ⟨hd, -⟩ | ⟨hd, -⟩
    · rw [hd]
      exact ⟨rfl, rfl⟩
    · exact ⟨rfl, rfl⟩
    · rw [hd]
      exact ⟨rfl, rfl⟩
    · rw [hd]
      exact ⟨rfl, rfl⟩
  · obtain ⟨hregs, -, htx, -, hinit⟩ := d.run_keeps (not_exists.mp hoper) hrel
    exact ⟨transmitter_congr hregs htx, hinit, congrArg (·.lsr) hregs, congrArg (·.msr) hregs⟩

/-- Every move keeps the line status true; a release does so by ending the device. -/
theorem truthful_move (d : Device σ) (m : Move σ) (h : d.Truthful) : (m.run d).Truthful := by
  have hreceives : (m.run d).Flagged := flagged_move d m h.receives
  by_cases hacc : ∃ a, m = .operate (.access a)
  · obtain ⟨a, rfl⟩ := hacc
    have hrun : (Move.operate (.access a)).run d = (a.run d).device := rfl
    rw [hrun] at hreceives ⊢
    refine ⟨hreceives, fun hi => ?_, ?_⟩
    · have hflag : d.transmitter.Flagged := h.transmits ((d.initialized_access a).symm.trans hi)
      rw [a.device_effect]
      exact flagged_tx_effect hflag (a.effect d)
    · rw [a.device_effect]
      exact faultless_effect h.faultless (a.effect d)
  by_cases hrel : m = .release
  · subst hrel
    exact ⟨hreceives, fun hi => absurd hi Bool.false_ne_true, h.faultless⟩
  obtain ⟨htx, hinit, hlsr, hmsr⟩ := d.run_quiet (not_exists.mp hacc) hrel
  refine ⟨hreceives, fun hi => ?_, ?_⟩
  · rw [htx]
    exact h.transmits (hinit.symm.trans hi)
  · obtain ⟨hparity, hframing, hfifo, hmodem⟩ := h.faultless
    exact ⟨hlsr ▸ hparity, hlsr ▸ hframing, hlsr ▸ hfifo, hmsr.trans hmodem⟩

theorem truthful_create (info : LineInfo) (counting : Bool) :
    (create info counting : Device σ).Truthful :=
  ⟨flagged_create info counting, fun _ => flagged_tx_reset _, ⟨rfl, rfl, rfl, rfl⟩⟩

/-- The line status of a reachable device is true. -/
theorem truthful_of_reachable {d : Device σ} (h : d.Reachable) : d.Truthful :=
  h.induction truthful_create truthful_move

/-- Data waits exactly if the flag is up, so a reader that goes by the flag finds a byte. -/
theorem Receiver.Flagged.dataReady_iff {d : Device σ} (h : d.receiver.Flagged) :
    d.regs.lsr.dataReady = true ↔ d.rx.toList ≠ [] := by
  have hflag : d.regs.lsr.dataReady = !d.rx.isEmpty := h
  rw [hflag, Fifo.isEmpty_eq]
  simp

theorem Transmitter.Flagged.transmitterEmpty_iff {d : Device σ} (h : d.transmitter.Flagged) :
    d.regs.lsr.transmitterEmpty = true ↔ d.tx.toList = [] := by
  have hflag : d.regs.lsr.transmitterEmpty = d.tx.isEmpty := h.transmitterEmpty_eq
  rw [hflag, Fifo.isEmpty_eq, List.isEmpty_iff]

theorem Transmitter.Flagged.holdingEmpty_iff {d : Device σ} (h : d.transmitter.Flagged) :
    d.regs.lsr.holdingEmpty = true ↔ d.tx.toList.length < Fifo.capacity / 2 := by
  have hflag : d.regs.lsr.holdingEmpty = decide (d.tx.length < Fifo.capacity / 2) :=
    h.holdingEmpty_eq
  rw [hflag, decide_eq_true_iff, Fifo.length_toList]

end Device

/-- **The line status tells the truth.** On every reachable device that is initialized, both queues
hold at most sixteen bytes; the data flag is up exactly if something was received and not read, the
transmitter flags exactly if nothing, or less than half a queue, waits to be sent; no error flag
but overrun and break is ever up, and the modem status is the one of power-on. So a read that goes
by the data flag finds a byte in the queue. The devices of a session are reachable. -/
theorem lineStatus_of_reachable :
    (∀ {σ : Type} (d : Device σ), d.Reachable → d.initialized = true →
      d.rx.toList.length ≤ 16 ∧ d.tx.toList.length ≤ 16 ∧
      (d.regs.lsr.dataReady = true ↔ d.rx.toList ≠ []) ∧
      (d.regs.lsr.transmitterEmpty = true ↔ d.tx.toList = []) ∧
      (d.regs.lsr.holdingEmpty = true ↔ d.tx.toList.length < 8) ∧
      d.regs.lsr.parityError = false ∧ d.regs.lsr.framingError = false ∧
      d.regs.lsr.fifoError = false ∧
      d.regs.msr =
        ModemStatus.carrierDetect ||| ModemStatus.dataSetReady ||| ModemStatus.clearToSend ∧
      (d.regs.lsr.dataReady = true → ∃ byte rest, d.rx.pop? = some (byte, rest))) ∧
    ∀ counting steps, ∀ d ∈ ((Session.empty counting).after steps).system.devices, d.Reachable := by
  refine ⟨fun {σ} d hd hi => ?_, fun counting steps d hd => Session.reachable_of_mem hd⟩
  obtain ⟨hreceives, htransmits, hfaultless⟩ := Device.truthful_of_reachable hd
  have hrx : d.receiver.Flagged := hreceives hi
  have htx : d.transmitter.Flagged := htransmits hi
  refine ⟨d.rx.length_toList_le, d.tx.length_toList_le, hrx.dataReady_iff,
    htx.transmitterEmpty_iff, htx.holdingEmpty_iff, hfaultless.parityError_eq,
    hfaultless.framingError_eq, hfaultless.fifoError_eq, hfaultless.msr_eq, fun hready => ?_⟩
  have hsome : d.rx.pop? ≠ none := fun hnone =>
    hrx.dataReady_iff.mp hready (Fifo.pop?_eq_none_iff.mp hnone)
  obtain ⟨⟨byte, rest⟩, hpop⟩ := Option.ne_none_iff_exists'.mp hsome
  exact ⟨byte, rest, hpop⟩

/-- Eight bytes wait for a consumer and two were received: the transmitter is neither empty nor
ready for more, and data waits. With seven it is still ready. -/
theorem lineStatus_of_eight_queued :
    let info : LineInfo := { line := 0, ioBase := 0x3F8, irq := 4, baudBase := 115200 }
    let send : Device.Move Unit := .operate (.access (.write Offset.data 0x41))
    let born : Device Unit := (Device.create info true).after
      [.list true, .operate (.access (.inject [0x61, 0x62]))]
    let d := born.after (List.replicate 8 send)
    let e := born.after (List.replicate 7 send)
    d.initialized = true ∧ d.tx.toList.length = 8 ∧ d.regs.lsr.holdingEmpty = false ∧
      d.regs.lsr.transmitterEmpty = false ∧ d.regs.lsr.dataReady = true ∧
      (∃ byte rest, d.rx.pop? = some (byte, rest)) ∧
      e.initialized = true ∧ e.tx.toList.length = 7 ∧ e.regs.lsr.holdingEmpty = true := by
  intro info send born d e
  have hd : d.initialized = true ∧ d.tx.toList.length = 8 ∧ d.rx.toList = [0x61, 0x62] := by
    decide +kernel
  have he : e.initialized = true ∧ e.tx.toList.length = 7 := by decide +kernel
  have hborn : born.Reachable := ⟨info, true, _, rfl⟩
  have hreached : d.Reachable ∧ e.Reachable := ⟨hborn.after _, hborn.after _⟩
  clear_value d e
  obtain ⟨hgeneral, -⟩ := lineStatus_of_reachable
  obtain ⟨-, -, hready, hempty, hhalf, -, -, -, -, hpop⟩ := hgeneral d hreached.1 hd.1
  obtain ⟨-, -, -, -, hhalf', -⟩ := hgeneral e hreached.2 he.1
  have hup : d.regs.lsr.dataReady = true := hready.mpr (by rw [hd.2.2]; simp)
  refine ⟨hd.1, hd.2.1, ?_, ?_, hup, hpop hup, he.1, he.2, hhalf'.mpr (by omega)⟩
  · rw [Bool.eq_false_iff, Ne, hhalf]
    omega
  · rw [Bool.eq_false_iff, Ne, hempty]
    intro hnil
    rw [hnil] at hd
    cases hd.2.1

end Uart16550
