import Uart16550.Proofs.Sides

/-!
# What an access comes to

The same access may do different things: a refused one does nothing, one at an offset that no
register answers is counted, a write at offset 0 means the divisor latch, the transmitter or the
receiver. `Access.effect` resolves an access against the device on which it is made, and
`Effect.run` is what follows; `Access.run_effect` says that the two together are the access.

Every guard is evaluated in `Access.effect`, so a statement about all accesses is a statement about
the nine constructors of `Effect`.
-/

namespace Uart16550

variable {σ : Type}

namespace Device

/-- What an access comes to on the device on which it is made. -/
inductive Effect where
  /-- The device is not initialized, or the wire is cut off or full. -/
  | refused
  /-- No register answers. -/
  | missed
  | reads (register : ReadRegister)
  | writes (register : WriteRegister) (value : UInt8)
  /-- Bytes from the wire reach the receive queue. -/
  | queues (bytes : List UInt8)
  /-- A break reaches the receiver. -/
  | breaks
  | flushes (reason : FlushReason)
  | resets
  | detaches
  deriving DecidableEq, Repr

/-- Whether the receiver ignores the wire: no host lists the device, loopback has cut off the wire,
or the receive queue is full. -/
def ignoresWire (d : Device σ) : Bool :=
  !d.registered || d.regs.loopback || d.regs.lsr.dataReady && d.rx.isFull

/-- Whether bytes from the wire reach the receive queue. -/
def takesInput (d : Device σ) (bytes : List UInt8) : Bool :=
  d.initialized && decide (bytes.length ≤ Fifo.capacity) && !d.ignoresWire

/-- Queues as many received bytes as fit. -/
def queue (d : Device σ) (bytes : List UInt8) : Device σ :=
  let batch := d.rx.pushAll bytes
  if 0 < batch.1 then
    record { d with rx := batch.2, regs.lsr.dataReady := true } (.received batch.1)
  else
    { d with rx := batch.2 }

/-- What follows: the device afterwards and the batches handed to the consumer. -/
def Effect.run (d : Device σ) : Effect → Device σ × List Flush
  | .refused => (d, [])
  | .missed => (d.refresh.record .protocolError, [])
  | .reads register => ((d.readRegister register).2.refresh, [])
  | .writes register value =>
    ((d.writeRegister value register).1.refresh, (d.writeRegister value register).2)
  | .queues bytes => ((d.queue bytes).refresh, [])
  | .breaks => (refresh { d with regs.lsr.breakInterrupt := true }, [])
  | .flushes reason => ((d.flush reason).2.1.refresh, (d.flush reason).2.2)
  | .resets => (d.reset, [])
  | .detaches => (d.detach, [])

/-- What a read comes to. -/
def readEffect (d : Device σ) (offset : UInt8) : Effect :=
  if d.initialized then
    match ReadRegister.decode offset d.regs.divisorAccess with
    | .ok register => .reads register
    | .error _ => .missed
  else
    .refused

/-- What a write comes to. -/
def writeEffect (d : Device σ) (offset value : UInt8) : Effect :=
  if d.initialized then
    match WriteRegister.decode offset d.regs.divisorAccess with
    | .ok register => .writes register value
    | .error _ => .missed
  else
    .refused

end Device

open Device

/-- What an access comes to. -/
def Access.effect (d : Device σ) : Access → Effect
  | .read offset | .input offset => d.readEffect offset
  | .write offset value | .output offset value => d.writeEffect offset value
  | .inject bytes => if d.takesInput bytes then .queues bytes else .refused
  | .signalBreak => if d.initialized && !d.regs.loopback then .breaks else .refused
  | .flush reason => .flushes reason
  | .reset => .resets
  | .detach => .detaches

/-! ### Accesses by effect -/

theorem Device.read_effect (d : Device σ) (offset : UInt8) :
    (d.read offset).2 = ((d.readEffect offset).run d).1 := by
  by_cases hi : d.initialized
  · cases hr : ReadRegister.decode offset d.regs.divisorAccess <;>
      simp only [read, readEffect, hi, hr, if_true, Effect.run]
  · simp only [read, readEffect, hi, Bool.false_eq_true, if_false, Effect.run]

/-- A read comes to the read of a register or to nothing. -/
theorem Device.readEffect_cases (d : Device σ) (offset : UInt8) :
    d.readEffect offset = .refused ∨ d.readEffect offset = .missed ∨
      ∃ register, d.readEffect offset = .reads register := by
  simp only [readEffect]
  split
  · split
    · exact Or.inr (Or.inr ⟨_, rfl⟩)
    · exact Or.inr (Or.inl rfl)
  · exact Or.inl rfl

/-- A write comes to the write of a register or to nothing. -/
theorem Device.writeEffect_cases (d : Device σ) (offset value : UInt8) :
    d.writeEffect offset value = .refused ∨ d.writeEffect offset value = .missed ∨
      ∃ register, d.writeEffect offset value = .writes register value := by
  simp only [writeEffect]
  split
  · split
    · exact Or.inr (Or.inr ⟨_, rfl⟩)
    · exact Or.inr (Or.inl rfl)
  · exact Or.inl rfl

theorem Device.readEffect_eq_reads_iff {d : Device σ} {offset : UInt8} {register : ReadRegister} :
    d.readEffect offset = .reads register ↔
      d.initialized = true ∧ ReadRegister.decode offset d.regs.divisorAccess = .ok register := by
  rw [readEffect]
  by_cases hi : d.initialized = true
  · cases ReadRegister.decode offset d.regs.divisorAccess <;> simp [hi]
  · simp [hi]

theorem Device.writeEffect_eq_writes_iff {d : Device σ} {offset value byte : UInt8}
    {register : WriteRegister} :
    d.writeEffect offset value = .writes register byte ↔
      d.initialized = true ∧ WriteRegister.decode offset d.regs.divisorAccess = .ok register ∧
        value = byte := by
  rw [writeEffect]
  by_cases hi : d.initialized = true
  · cases WriteRegister.decode offset d.regs.divisorAccess <;> simp [hi]
  · simp [hi]

/-- An access comes to the read of a register exactly if it is a read of an initialized device at an
offset that means this register. -/
theorem Access.effect_eq_reads_iff {d : Device σ} {a : Access} {register : ReadRegister} :
    a.effect d = .reads register ↔
      ∃ offset, (a = .read offset ∨ a = .input offset) ∧ d.initialized = true ∧
        ReadRegister.decode offset d.regs.divisorAccess = .ok register := by
  cases a with
  | read offset | input offset => simp [Access.effect, readEffect_eq_reads_iff]
  | write offset value | output offset value =>
    simp only [Access.effect, reduceCtorEq, or_self, false_and, exists_false, iff_false]
    rcases d.writeEffect_cases offset value with h | h | ⟨_, h⟩ <;> simp [h]
  | inject bytes | signalBreak =>
    simp only [Access.effect, reduceCtorEq, or_self, false_and, exists_false, iff_false]
    split_ifs <;> simp
  | flush reason | reset | detach => simp [Access.effect]

/-- A read hands nothing to the consumer, whatever it comes to. -/
theorem Device.flushes_readEffect (d : Device σ) (offset : UInt8) :
    ((d.readEffect offset).run d).2 = [] := by
  rcases d.readEffect_cases offset with h | h | ⟨_, h⟩ <;> rw [h] <;> rfl

theorem Device.input_snd (d : Device σ) (offset : UInt8) :
    (d.input offset).2 = (d.read offset).2 := by
  rcases hr : d.read offset with ⟨r, e⟩
  cases r <;> simp only [input, hr]

theorem Device.write_effect (d : Device σ) (offset value : UInt8) :
    (d.write offset value).2 = (d.writeEffect offset value).run d := by
  by_cases hi : d.initialized
  · cases hr : WriteRegister.decode offset d.regs.divisorAccess <;>
      simp only [write, writeEffect, hi, hr, if_true, Effect.run]
  · simp only [write, writeEffect, hi, Bool.false_eq_true, if_false, Effect.run]

/-- Past its checks, an injection is ignored or queues as much as fits. -/
theorem Device.inject_eq {d : Device σ} {bytes : List UInt8} (hi : d.initialized = true)
    (hn : bytes.length ≤ Fifo.capacity) :
    d.inject bytes =
      if d.ignoresWire then (.ok 0, d)
      else (.ok (d.rx.pushAll bytes).1, (d.queue bytes).refresh) := by
  rw [inject, if_neg (by simp [hi]), if_neg (Nat.not_lt.mpr hn)]
  rfl

/-- A batch that fails a check is refused with an error. -/
theorem Device.inject_error {d : Device σ} {bytes : List UInt8}
    (h : ¬(d.initialized = true ∧ bytes.length ≤ Fifo.capacity)) :
    d.takesInput bytes = false ∧ ∃ e, d.inject bytes = (.error e, d) := by
  constructor
  · by_contra ht
    simp only [takesInput, Bool.not_eq_false, Bool.and_eq_true, decide_eq_true_eq] at ht
    exact h ht.1
  · by_cases hi : d.initialized = true
    · have hn : Fifo.capacity < bytes.length := Nat.not_le.mp fun hn => h ⟨hi, hn⟩
      rw [inject, if_neg (by simp [hi]), if_pos hn]
      exact ⟨_, rfl⟩
    · rw [inject, if_pos (by simp [hi])]
      exact ⟨_, rfl⟩

/-- A batch that is taken is queued as far as it fits; any other leaves the device as it was. -/
theorem Device.inject_snd (d : Device σ) (bytes : List UInt8) :
    (d.inject bytes).2 = if d.takesInput bytes then (d.queue bytes).refresh else d := by
  by_cases h : d.initialized = true ∧ bytes.length ≤ Fifo.capacity
  · rw [inject_eq h.1 h.2]
    cases hw : d.ignoresWire <;> simp [takesInput, h.1, h.2, hw]
  · obtain ⟨hrefused, e, he⟩ := inject_error h
    simp [he, hrefused]

theorem Device.signalBreak_snd (d : Device σ) :
    d.signalBreak.2 = if d.initialized && !d.regs.loopback then
      refresh { d with regs.lsr.breakInterrupt := true } else d := by
  by_cases hi : d.initialized <;> by_cases hl : d.regs.loopback <;>
    simp only [signalBreak, hi, hl, Bool.not_true, Bool.not_false, Bool.and_true, Bool.and_false,
      Bool.false_eq_true, if_false, if_true]

/-- **An access is its effect.** The device that it leaves behind and the batches that it hands to
the consumer are those of its effect. -/
theorem Access.run_effect (d : Device σ) (a : Access) :
    ((a.run d).device, (a.run d).flushes) = (a.effect d).run d := by
  cases a with
  | read offset => exact Prod.ext (d.read_effect offset) (d.flushes_readEffect offset).symm
  | write offset value =>
    rw [Access.effect, ← d.write_effect offset value]
    rfl
  | input offset =>
    exact Prod.ext ((d.input_snd offset).trans (d.read_effect offset))
      (d.flushes_readEffect offset).symm
  | output offset value =>
    rw [Access.effect, ← d.write_effect offset value]
    rfl
  | inject bytes =>
    simp only [Access.run, Outcome.ofResult, Access.effect, d.inject_snd bytes]
    split <;> rfl
  | signalBreak =>
    simp only [Access.run, Outcome.ofResult, Access.effect, d.signalBreak_snd]
    split <;> rfl
  | flush reason => rfl
  | reset => rfl
  | detach => rfl

theorem Access.device_effect (d : Device σ) (a : Access) :
    (a.run d).device = ((a.effect d).run d).1 :=
  congrArg Prod.fst (a.run_effect d)

theorem Access.flushes_effect (d : Device σ) (a : Access) :
    (a.run d).flushes = ((a.effect d).run d).2 :=
  congrArg Prod.snd (a.run_effect d)

namespace Device

/-! ### Effects that refresh -/

/-- Whether an effect derives the interrupt identification again. -/
def Effect.refreshes : Effect → Bool
  | .refused | .detaches => false
  | .missed | .reads _ | .writes _ _ | .queues _ | .breaks | .flushes _ | .resets => true

theorem Effect.cases_refreshes (e : Effect) :
    e = .refused ∨ e = .detaches ∨ e.refreshes = true := by
  cases e <;> simp [refreshes]

theorem receives_queue (d : Device σ) (bytes : List UInt8) : d.Receives (d.queue bytes) := by
  simp only [queue]
  split <;> exact ⟨⟨⟨_, _, _, _, _, _, _, _⟩, rfl⟩, fun h => ⟨h.1, h.2, h.3, h.4⟩⟩

/-- **Such an effect accesses the device** and refreshes it at the end. -/
theorem exists_accesses (d : Device σ) {e : Effect} (h : e.refreshes = true) :
    ∃ c, d.Accesses c ∧ (e.run d).1 = c.refresh := by
  cases e with
  | refused | detaches => cases h
  | missed => exact ⟨d.record .protocolError, ⟨⟨_, _, _, _, _, rfl⟩, rfl, id⟩, rfl⟩
  | reads register => exact ⟨_, (d.receives_readRegister register).accesses, rfl⟩
  | writes register value => exact ⟨_, d.accesses_writeRegister value register, rfl⟩
  | queues bytes => exact ⟨_, (d.receives_queue bytes).accesses, rfl⟩
  | breaks =>
    exact ⟨{ d with regs.lsr.breakInterrupt := true },
      accesses_of_regs fun h => ⟨h.1, h.2, h.3, h.4⟩, rfl⟩
  | flushes reason => exact ⟨_, (d.sends_flush reason).accesses, rfl⟩
  | resets =>
    exact ⟨{ d with regs := d.regs.reset, rx := d.rx.reset, tx := d.tx.reset },
      ⟨⟨_, _, _, _, _, rfl⟩, rfl, fun _ => ⟨rfl, rfl, rfl, rfl⟩⟩, rfl⟩

/-- **No access leaves registers behind without a refresh**: it changes nothing, detaches the sink
and no more, or ends in a refresh. -/
theorem refresh_access (d : Device σ) (a : Access) :
    (a.run d).device = d ∨ (a.run d).device = d.detach ∨ ∃ e, (a.run d).device = refresh e := by
  rw [a.device_effect]
  rcases (a.effect d).cases_refreshes with h | h | h
  · exact Or.inl (by rw [h]; rfl)
  · exact Or.inr (Or.inl (by rw [h]; rfl))
  · obtain ⟨c, -, hrun⟩ := d.exists_accesses h
    exact Or.inr (Or.inr ⟨c, hrun⟩)

/-- Nothing that an access comes to changes the life of a device, except that it may detach the
sink. -/
theorem lifecycle_effect (d : Device σ) {e : Effect} (h : e ≠ .detaches) :
    (e.run d).1.lifecycle = d.lifecycle := by
  rcases e.cases_refreshes with rfl | rfl | hrefreshes
  · rfl
  · exact absurd rfl h
  · obtain ⟨c, hc, hrun⟩ := d.exists_accesses hrefreshes
    rw [hrun]
    exact hc.lifecycle_eq

/-- **An access leaves the life of a device as it was, or detaches its sink and no more.** -/
theorem lifecycle_access (d : Device σ) (a : Access) :
    (a.run d).device.lifecycle = d.lifecycle ∨ (a.run d).device.lifecycle = d.detach.lifecycle := by
  rw [a.device_effect]
  by_cases h : a.effect d = .detaches
  · rw [h]
    exact Or.inr rfl
  · exact Or.inl (d.lifecycle_effect h)

theorem initialized_access (d : Device σ) (a : Access) :
    (a.run d).device.initialized = d.initialized := by
  rcases d.lifecycle_access a with h | h <;> exact congrArg Lifecycle.initialized h

theorem info_access (d : Device σ) (a : Access) : (a.run d).device.info = d.info := by
  rcases d.lifecycle_access a with h | h <;> exact congrArg Lifecycle.info h

theorem worker_access (d : Device σ) (a : Access) : (a.run d).device.worker = d.worker := by
  rcases d.lifecycle_access a with h | h <;> exact congrArg Lifecycle.worker h

theorem sink_access (d : Device σ) (a : Access) :
    (a.run d).device.sink = d.sink ∨ (a.run d).device.sink = none := by
  rcases d.lifecycle_access a with h | h
  · exact Or.inl (congrArg Lifecycle.sink h)
  · exact Or.inr (congrArg Lifecycle.sink h)

end Device

end Uart16550
