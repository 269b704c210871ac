import Uart16550.Proofs.Delivery
import Uart16550.Proofs.Settings
import Uart16550.Proofs.Status

/-!
# Devices that cannot be told apart

Two devices may hold the same bytes in different cells of their rings, keep different stale bytes in
the cells and in the buffers of their consumers, count differently, and have workers of which one is
about to look for an interrupt that is gone already. None of this shows. `Device.Alike` is agreement
in everything else, and every operation keeps it, with the same reply and the same calls of the
consumer on both devices.

The sinks of the two need not be equal: `same` is any relation between sinks that is known to hold of
a sink and itself, and alike devices have related sinks.

* `Alike.put`: which fields a transition may change, and how, without telling the devices apart.
* `Alike.effect`, `Alike.access`, `Alike.operate`: the same on both, by effect, access and operation.
-/

namespace Uart16550

/-! ### Queues that hold the same bytes -/

namespace Fifo

variable {p q : Fifo}

theorem length_congr (h : p.toList = q.toList) : p.length = q.length := by
  rw [← length_toList, ← length_toList, h]

theorem isEmpty_congr (h : p.toList = q.toList) : p.isEmpty = q.isEmpty := by
  rw [isEmpty_eq, isEmpty_eq, h]

theorem isFull_congr (h : p.toList = q.toList) : p.isFull = q.isFull := by
  rw [isFull_eq, isFull_eq, h]

/-- Both refuse a byte, or both queue it. -/
theorem push?_congr (h : p.toList = q.toList) (byte : UInt8) :
    Option.Rel (fun p' q' => p'.toList = q'.toList) (p.push? byte) (q.push? byte) := by
  cases hp : p.push? byte with
  | none =>
    have hq : q.push? byte = none := push?_eq_none_iff.mpr (h ▸ push?_eq_none_iff.mp hp)
    rw [hq]
    exact .none
  | some p' =>
    cases hq : q.push? byte with
    | none =>
      have hnone : p.push? byte = none := push?_eq_none_iff.mpr (h ▸ push?_eq_none_iff.mp hq)
      rw [hnone] at hp
      cases hp
    | some q' => exact .some (by rw [toList_push? hp, toList_push? hq, h])

/-- Both are empty, or both give the same byte and keep the same ones. -/
theorem pop?_congr (h : p.toList = q.toList) :
    Option.Rel (fun x y => x.1 = y.1 ∧ x.2.toList = y.2.toList) p.pop? q.pop? := by
  have hmap : (p.pop?.map fun x => (x.1, x.2.toList)) = q.pop?.map fun x => (x.1, x.2.toList) := by
    rw [pop?_map_toList, pop?_map_toList, h]
  generalize p.pop? = x at hmap
  generalize q.pop? = y at hmap
  cases x <;> cases y <;> simp at hmap
  · exact .none
  · exact .some hmap

theorem pushAll_congr (h : p.toList = q.toList) (batch : List UInt8) :
    (p.pushAll batch).1 = (q.pushAll batch).1 ∧
      (p.pushAll batch).2.toList = (q.pushAll batch).2.toList := by
  obtain ⟨hcount, hlist⟩ := pushAll_eq p batch
  obtain ⟨hcount', hlist'⟩ := pushAll_eq q batch
  exact ⟨by rw [hcount, hcount', h], by rw [hlist, hlist', h]⟩

end Fifo

variable {σ : Type} {same : σ → σ → Prop} {d e : Device σ}

namespace Device

/-! ### The relation -/

/-- Two devices of the same line at the same point of their lives, with consumers of the same name
and threshold and with related sinks. -/
structure Kindred (same : σ → σ → Prop) (d e : Device σ) : Prop where
  info : d.info = e.info
  initialized : d.initialized = e.initialized
  registered : d.registered = e.registered
  binding : d.settings.binding = e.settings.binding
  sink : Option.Rel same d.sink e.sink
  worker : d.worker = e.worker

/-- Two devices that cannot be told apart: they agree but for the places in which bytes are kept,
the counters, and the signal to a worker that would find nothing. -/
structure Alike (same : σ → σ → Prop) (d e : Device σ) : Prop extends Kindred same d e where
  regs : d.regs = e.regs
  rx : d.rx.toList = e.rx.toList
  tx : d.tx.toList = e.tx.toList
  /-- The signal counts only while there is something to find. -/
  signaled : d.worker = .alive → Interrupt.isPending d.regs.iir = true →
    d.virq.signaled = e.virq.signaled
  housed_left : d.Housed
  housed_right : e.Housed

namespace Alike

theorem line (h : d.Alike same e) : d.line = e.line := congrArg LineInfo.line h.info

theorem holdsWorker (h : d.Alike same e) : d.holdsWorker = e.holdsWorker := by
  rw [Device.holdsWorker, Device.holdsWorker, h.worker]

theorem enabled (h : d.Alike same e) : d.virq.enabled = e.virq.enabled := by
  rw [h.housed_left.enabled_eq, h.housed_right.enabled_eq, h.holdsWorker]

/-- Both have nobody to hand bytes to, or consumers of the same name and threshold. -/
theorem consumer_cases (h : d.Alike same e) :
    d.consumer = none ∧ e.consumer = none ∨
      ∃ c c', d.consumer = some c ∧ e.consumer = some c' ∧ c.label = c'.label ∧
        c.threshold = c'.threshold := by
  have hbinding := h.binding
  simp only [settings] at hbinding
  generalize d.consumer = c at hbinding
  generalize e.consumer = c' at hbinding
  cases c <;> cases c' <;> simp at hbinding
  · exact Or.inl ⟨rfl, rfl⟩
  · exact Or.inr ⟨_, _, rfl, rfl, hbinding⟩

theorem isSome_consumer (h : d.Alike same e) : d.consumer.isSome = e.consumer.isSome := by
  rcases h.consumer_cases with ⟨hd, he⟩ | ⟨_, _, hd, he, -⟩
  · rw [hd, he]
  · rw [hd, he, Option.isSome_some, Option.isSome_some]

theorem isSome_sink (h : d.Alike same e) : d.sink.isSome = e.sink.isSome := by
  have hsink := h.sink
  generalize d.sink = s at hsink
  generalize e.sink = t at hsink
  cases hsink <;> rfl

theorem snapshot (h : d.Alike same e) : d.snapshot = e.snapshot := by
  simp only [Device.snapshot, h.info, h.regs, Fifo.length_congr h.rx, Fifo.length_congr h.tx,
    h.initialized, h.registered, h.isSome_consumer, h.isSome_sink, h.enabled]

/-- **What a transition may do** to both devices of a pair without telling them apart: store the
same in the registers, leave the same bytes in the queues and a consumer of the same name and
threshold, count whatever it wants, and give the same signal if there is something to find. -/
theorem put (h : d.Alike same e) {regs regs' : RegisterBank} {rx rx' tx tx' : Fifo}
    {c c' : Option Consumer} {s s' : Bool} {m m' : Metrics} (hregs : regs = regs')
    (hrx : rx.toList = rx'.toList) (htx : tx.toList = tx'.toList)
    (hc : (c.map fun c => (c.label, c.threshold)) = c'.map fun c => (c.label, c.threshold))
    (hs : d.worker = .alive → Interrupt.isPending regs.iir = true → s = s') :
    Alike same
      { d with
        regs := regs, rx := rx, tx := tx, consumer := c, virq.signaled := s, metrics := m }
      { e with
        regs := regs', rx := rx', tx := tx', consumer := c', virq.signaled := s',
        metrics := m' } :=
  { h with
    regs := hregs
    rx := hrx
    tx := htx
    binding := hc
    signaled := hs
    housed_left := ⟨h.housed_left.enabled_eq, h.housed_left.not_stop⟩
    housed_right := ⟨h.housed_right.enabled_eq, h.housed_right.not_stop⟩ }

/-- The same change to both register banks, if it leaves the identification to a refresh. -/
theorem store (h : d.Alike same e) {f : RegisterBank → RegisterBank}
    (hf : (f d.regs).iir = d.regs.iir) :
    Alike same { d with regs := f d.regs } { e with regs := f e.regs } :=
  h.put (congrArg f h.regs) h.rx h.tx h.binding fun hw hp => h.signaled hw (hf ▸ hp)

theorem record (h : d.Alike same e) (x y : Metrics.Event) :
    Alike same (d.record x) (e.record y) :=
  h.put h.regs h.rx h.tx h.binding h.signaled

/-- A refresh gives the same signal to both, whatever signal they had before. -/
theorem refresh (h : d.Alike same e) : Alike same d.refresh e.refresh := by
  have hident : d.regs.ident = e.regs.ident := congrArg RegisterBank.ident h.regs
  refine h.put ?_ h.rx h.tx h.binding fun hw hp => ?_
  · rw [h.regs]
  · have henabled : d.virq.enabled = true := by
      rw [h.housed_left.enabled_eq, Device.holdsWorker, hw]
      rfl
    have hp : Interrupt.isPending d.regs.ident = true := hp
    simp only [← hident, ← h.enabled, hp, henabled, Bool.and_self, Bool.or_true]

/-- Sinks may be exchanged for others that are related again. -/
theorem sinks (h : d.Alike same e) {s t : Option σ} (hst : Option.Rel same s t) :
    Alike same { d with sink := s } { e with sink := t } :=
  { h with
    sink := hst
    housed_left := ⟨h.housed_left.enabled_eq, h.housed_left.not_stop⟩
    housed_right := ⟨h.housed_right.enabled_eq, h.housed_right.not_stop⟩ }

theorem detach (h : d.Alike same e) : Alike same d.detach e.detach := h.sinks .none

/-! ### The transmit side -/

theorem flush (h : d.Alike same e) (reason : FlushReason) :
    Alike same (d.flush reason).2.1 (e.flush reason).2.1 ∧
      (d.flush reason).2.2 = (e.flush reason).2.2 := by
  have hregs : (d.flush reason).2.1.regs = (e.flush reason).2.1.regs := by
    rw [regs_flush, regs_flush, h.regs]
  have hcalls : (d.flush reason).2.2 = (e.flush reason).2.2 := by
    rw [flush_calls, flush_calls]
    rcases h.consumer_cases with ⟨hd, he⟩ | ⟨c, c', hd, he, hlabel, -⟩
    · simp only [hd, he]
    · simp only [hd, he, hlabel, h.line, h.tx]
  refine ⟨?_, hcalls⟩
  rcases h.consumer_cases with ⟨hd, he⟩ | ⟨c, c', hd, he, hc⟩
  · simp only [Device.flush, hd, he] at hregs ⊢
    exact h.put hregs h.rx ((Fifo.toList_reset _).trans (Fifo.toList_reset _).symm) rfl h.signaled
  · simp only [Device.flush, hd, he] at hregs ⊢
    refine h.put hregs h.rx ((c.drain_eq _).2.trans (c'.drain_eq _).2.symm) ?_ h.signaled
    simp only [Consumer.drain, Option.map_some, hc]

theorem makeRoom (h : d.Alike same e) :
    Alike same d.makeRoom.1 e.makeRoom.1 ∧ d.makeRoom.2 = e.makeRoom.2 := by
  simp only [Device.makeRoom, Fifo.isFull_congr h.tx, h.isSome_consumer]
  split
  · exact h.flush .full
  · exact ⟨h, rfl⟩

theorem flushReached (h : d.Alike same e) :
    Alike same d.flushReached.1 e.flushReached.1 ∧ d.flushReached.2 = e.flushReached.2 := by
  have hreached : d.reachesThreshold = e.reachesThreshold := by
    rcases h.consumer_cases with ⟨hd, he⟩ | ⟨c, c', hd, he, -, hthreshold⟩
    · simp only [reachesThreshold, hd, he]
    · simp only [reachesThreshold, hd, he, hthreshold, Fifo.length_congr h.tx]
  simp only [Device.flushReached, hreached]
  split
  · exact h.flush .threshold
  · exact ⟨h, rfl⟩

theorem enqueue (h : d.Alike same e) (byte : UInt8) :
    Option.Rel (Alike same) (d.enqueue byte) (e.enqueue byte) := by
  have hpush := Fifo.push?_congr h.tx byte
  simp only [Device.enqueue]
  generalize d.tx.push? byte = p at hpush
  generalize e.tx.push? byte = q at hpush
  cases hpush with
  | none => exact .none
  | some hpq =>
    refine .some (h.put ?_ h.rx hpq h.binding h.signaled)
    simp only [h.regs, Fifo.length_congr hpq]

theorem transmit (h : d.Alike same e) (byte : UInt8) :
    Alike same (d.transmit byte).1 (e.transmit byte).1 ∧
      (d.transmit byte).2 = (e.transmit byte).2 := by
  have hhold : Alike same (d.hold byte) (e.hold byte) := h.store (f := ({ · with thr := byte })) rfl
  obtain ⟨hroom, hcalls⟩ := hhold.makeRoom
  have henqueue := hroom.enqueue byte
  cases hd : (d.hold byte).makeRoom.1.enqueue byte with
  | none =>
    cases he : (e.hold byte).makeRoom.1.enqueue byte with
    | none =>
      rw [transmit_of_none hd, transmit_of_none he]
      exact ⟨(hroom.store (f := ({ · with lsr.overrun := true })) rfl).record _ _, hcalls⟩
    | some e' =>
      rw [hd, he] at henqueue
      cases henqueue
  | some d' =>
    cases he : (e.hold byte).makeRoom.1.enqueue byte with
    | none =>
      rw [hd, he] at henqueue
      cases henqueue
    | some e' =>
      rw [hd, he] at henqueue
      cases henqueue with
      | some hqueued =>
        obtain ⟨hreached, hcalls'⟩ := hqueued.flushReached
        rw [transmit_of_some hd, transmit_of_some he]
        exact ⟨hreached, by rw [hcalls, hcalls']⟩

/-! ### The receive side -/

theorem receive (h : d.Alike same e) (byte : UInt8) :
    Alike same (d.receive byte) (e.receive byte) := by
  have hpush := Fifo.push?_congr h.rx byte
  simp only [Device.receive]
  generalize d.rx.push? byte = p at hpush
  generalize e.rx.push? byte = q at hpush
  cases hpush with
  | none => exact h.put (by rw [h.regs]) h.rx h.tx h.binding h.signaled
  | some hpq => exact h.put (by rw [h.regs]) hpq h.tx h.binding h.signaled

theorem readData (h : d.Alike same e) :
    d.readData.1 = e.readData.1 ∧ Alike same d.readData.2 e.readData.2 := by
  have hpop := Fifo.pop?_congr h.rx
  simp only [Device.readData, ← h.regs]
  split_ifs
  · exact ⟨rfl, h.put rfl h.rx h.tx h.binding h.signaled⟩
  · generalize d.rx.pop? = p at hpop
    generalize e.rx.pop? = q at hpop
    cases hpop with
    | none => exact ⟨rfl, h.put rfl h.rx h.tx h.binding h.signaled⟩
    | some hpq =>
      refine ⟨hpq.1, h.put ?_ hpq.2 h.tx h.binding h.signaled⟩
      simp only [hpq.1, Fifo.isEmpty_congr hpq.2]
  · exact ⟨rfl, h⟩

theorem queue (h : d.Alike same e) (bytes : List UInt8) :
    Alike same (d.queue bytes) (e.queue bytes) := by
  obtain ⟨hcount, hlist⟩ := Fifo.pushAll_congr h.rx bytes
  simp only [Device.queue, ← hcount]
  split
  · exact h.put (by rw [h.regs]) hlist h.tx h.binding h.signaled
  · exact h.put h.regs hlist h.tx h.binding h.signaled

/-! ### Registers -/

theorem readRegister (h : d.Alike same e) (register : ReadRegister) :
    (d.readRegister register).1 = (e.readRegister register).1 ∧
      Alike same (d.readRegister register).2 (e.readRegister register).2 := by
  cases register with
  | receiveHold => exact h.readData
  | interruptIdent | lineStatus =>
    exact ⟨by simp only [Device.readRegister, h.regs],
      h.store (f := ({ · with lsr.overrun := false })) rfl⟩
  | _ => exact ⟨by simp only [Device.readRegister, h.regs], h⟩

theorem writeInterruptEnable (h : d.Alike same e) (value : UInt8) :
    Alike same (d.writeInterruptEnable value).1 (e.writeInterruptEnable value).1 ∧
      (d.writeInterruptEnable value).2 = (e.writeInterruptEnable value).2 := by
  have hier : d.regs.ier = e.regs.ier := congrArg RegisterBank.ier h.regs
  simp only [Device.writeInterruptEnable, hier, Fifo.isEmpty_congr h.tx]
  split
  · obtain ⟨hflush, hcalls⟩ := h.flush .idle
    exact ⟨hflush.store (f := ({ · with ier := value &&& InterruptEnable.implemented })) rfl,
      hcalls⟩
  · exact ⟨h.store (f := ({ · with ier := value &&& InterruptEnable.implemented })) rfl, rfl⟩

theorem writeFifoControl (h : d.Alike same e) (value : UInt8) :
    Alike same (d.writeFifoControl value) (e.writeFifoControl value) := by
  simp only [Device.writeFifoControl]
  split_ifs
  · exact h.put (by rw [h.regs]) (by simp) (by simp) h.binding h.signaled
  · exact h.put (by rw [h.regs]) h.rx (by simp) h.binding h.signaled
  · exact h.put (by rw [h.regs]) (by simp) h.tx h.binding h.signaled
  · exact h.put (by rw [h.regs]) h.rx h.tx h.binding h.signaled
  · exact h.put (by rw [h.regs]) h.rx h.tx h.binding h.signaled

theorem writeRegister (h : d.Alike same e) (value : UInt8) (register : WriteRegister) :
    Alike same (d.writeRegister value register).1 (e.writeRegister value register).1 ∧
      (d.writeRegister value register).2 = (e.writeRegister value register).2 := by
  cases register with
  | transmitHold =>
    have hloop : d.regs.loopback = e.regs.loopback := congrArg RegisterBank.loopback h.regs
    simp only [Device.writeRegister, writeData, hloop]
    split
    · exact ⟨receive (h.store (f := ({ · with thr := value })) rfl) value, rfl⟩
    · exact h.transmit value
  | interruptEnable => exact h.writeInterruptEnable value
  | fifoControl => exact ⟨h.writeFifoControl value, rfl⟩
  | _ => exact ⟨h.put (by rw [h.regs]) h.rx h.tx h.binding h.signaled, rfl⟩

/-! ### Effects -/

end Alike

/-- **A reset leaves devices alike** that agree in what it keeps. -/
theorem Kindred.reset (h : d.Kindred same e) (hd : d.Housed) (he : e.Housed) :
    Alike same d.reset e.reset :=
  Alike.refresh {
    h with
    regs := rfl
    rx := by simp
    tx := by simp
    signaled := fun _ hp =>
      absurd hp (show ¬Interrupt.isPending RegisterBank.powerOn.iir = true by decide)
    housed_left := ⟨hd.enabled_eq, hd.not_stop⟩
    housed_right := ⟨he.enabled_eq, he.not_stop⟩ }

namespace Alike

theorem reset (h : d.Alike same e) : Alike same d.reset e.reset :=
  h.toKindred.reset h.housed_left h.housed_right

theorem effect (h : d.Alike same e) (x : Effect) :
    Alike same (x.run d).1 (x.run e).1 ∧ (x.run d).2 = (x.run e).2 := by
  cases x with
  | refused => exact ⟨h, rfl⟩
  | missed => exact ⟨h.refresh.record _ _, rfl⟩
  | reads register => exact ⟨(h.readRegister register).2.refresh, rfl⟩
  | writes register value =>
    obtain ⟨hwrite, hcalls⟩ := h.writeRegister value register
    exact ⟨hwrite.refresh, hcalls⟩
  | queues bytes => exact ⟨(h.queue bytes).refresh, rfl⟩
  | breaks =>
    exact ⟨refresh (h.store (f := ({ · with lsr.breakInterrupt := true })) rfl), rfl⟩
  | flushes reason =>
    obtain ⟨hflush, hcalls⟩ := h.flush reason
    exact ⟨hflush.refresh, hcalls⟩
  | resets => exact ⟨h.reset, rfl⟩
  | detaches => exact ⟨h.detach, rfl⟩

/-! ### Accesses -/

/-- An access comes to the same on both. -/
theorem effect_eq (h : d.Alike same e) (a : Access) : a.effect d = a.effect e := by
  have hdivisor : d.regs.divisorAccess = e.regs.divisorAccess :=
    congrArg RegisterBank.divisorAccess h.regs
  cases a with
  | read offset | input offset =>
    simp only [Access.effect, readEffect, h.initialized, hdivisor]
  | write offset value | output offset value =>
    simp only [Access.effect, writeEffect, h.initialized, hdivisor]
  | inject bytes =>
    have htakes : d.takesInput bytes = e.takesInput bytes := by
      simp only [takesInput, ignoresWire, h.initialized, h.registered, h.regs,
        Fifo.isFull_congr h.rx]
    simp only [Access.effect, htakes]
  | signalBreak => simp only [Access.effect, h.initialized, h.regs]
  | flush reason | reset | detach => rfl

theorem read (h : d.Alike same e) (offset : UInt8) : (d.read offset).1 = (e.read offset).1 := by
  have hdivisor : d.regs.divisorAccess = e.regs.divisorAccess :=
    congrArg RegisterBank.divisorAccess h.regs
  simp only [Device.read, h.initialized, hdivisor, h.line]
  split
  · split
    · next register _ => simp only [(h.readRegister register).1]
    · rfl
  · rfl

theorem input (h : d.Alike same e) (offset : UInt8) : (d.input offset).1 = (e.input offset).1 := by
  have hread := h.read offset
  generalize hd : d.read offset = r at hread
  generalize he : e.read offset = r' at hread
  obtain ⟨x, d'⟩ := r
  obtain ⟨y, e'⟩ := r'
  obtain rfl : x = y := hread
  cases x <;> simp only [Device.input, hd, he]

theorem write (h : d.Alike same e) (offset value : UInt8) :
    (d.write offset value).1 = (e.write offset value).1 := by
  have hdivisor : d.regs.divisorAccess = e.regs.divisorAccess :=
    congrArg RegisterBank.divisorAccess h.regs
  simp only [Device.write, h.initialized, hdivisor, h.line]
  split
  · split <;> rfl
  · rfl

theorem inject (h : d.Alike same e) (bytes : List UInt8) :
    (d.inject bytes).1 = (e.inject bytes).1 := by
  simp only [Device.inject, h.initialized, h.registered, h.regs, Fifo.isFull_congr h.rx,
    (Fifo.pushAll_congr h.rx bytes).1, h.line]
  split_ifs <;> rfl

theorem signalBreak (h : d.Alike same e) : d.signalBreak.1 = e.signalBreak.1 := by
  simp only [Device.signalBreak, h.initialized, h.regs, h.line]
  split_ifs <;> rfl

theorem reply_access (h : d.Alike same e) (a : Access) : (a.run d).reply = (a.run e).reply := by
  cases a with
  | read offset => exact congrArg (Reply.ofExcept .byte) (h.read offset)
  | write offset value => exact congrArg (Reply.ofExcept fun _ => .done) (h.write offset value)
  | input offset => exact congrArg Reply.byte (h.input offset)
  | inject bytes => exact congrArg (Reply.ofExcept .count) (h.inject bytes)
  | signalBreak => exact congrArg (Reply.ofExcept .flag) h.signalBreak
  | flush reason =>
    simp only [Access.run, flush_fst, h.tx]
  | output | reset | detach => rfl

/-- **An access of alike devices** is answered alike, calls their consumers alike and leaves them
alike. -/
theorem access (h : d.Alike same e) (a : Access) :
    (a.run d).reply = (a.run e).reply ∧ (a.run d).flushes = (a.run e).flushes ∧
      Alike same (a.run d).device (a.run e).device := by
  obtain ⟨hdevice, hcalls⟩ := h.effect (a.effect d)
  refine ⟨h.reply_access a, ?_, ?_⟩
  · rw [a.flushes_effect, a.flushes_effect, ← h.effect_eq a, hcalls]
  · rw [a.device_effect, a.device_effect, ← h.effect_eq a]
    exact hdevice

/-! ### Operations -/

theorem attach {s t : σ} (h : d.Alike same e) (hst : same s t) :
    Alike same (d.attach s) (e.attach t) :=
  (h.sinks (.some hst)).refresh

theorem bind (h : d.Alike same e) (threshold : Nat) (label : String) :
    (d.bind threshold label).1 = (e.bind threshold label).1 ∧
      Alike same (d.bind threshold label).2 (e.bind threshold label).2 := by
  simp only [Device.bind]
  split
  · exact ⟨rfl, h⟩
  · by_cases hi : e.initialized = true
    · rw [if_pos hi, if_pos (h.initialized.trans hi)]
      exact ⟨rfl, h.put h.regs h.rx h.tx rfl h.signaled⟩
    · rw [if_neg hi, if_neg (h.initialized ▸ hi), h.line]
      exact ⟨rfl, h⟩

theorem unbind (h : d.Alike same e) :
    d.unbind.1 = e.unbind.1 ∧ Alike same d.unbind.2 e.unbind.2 := by
  simp only [Device.unbind]
  by_cases hi : e.initialized = true
  · rw [if_pos hi, if_pos (h.initialized.trans hi)]
    exact ⟨rfl, h.put h.regs h.rx h.tx rfl h.signaled⟩
  · rw [if_neg hi, if_neg (h.initialized ▸ hi), h.line]
    exact ⟨rfl, h⟩

/-- Whatever the workers have been told before, new ones start alike. -/
theorem started (h : d.Alike same e) : Alike same d.started e.started :=
  { h with
    worker := rfl
    signaled := fun _ _ => rfl
    housed_left := ⟨rfl, rfl⟩
    housed_right := ⟨rfl, rfl⟩ }

/-- Dead workers are not about to look, whatever signal they have. -/
theorem dead (h : d.Alike same e) (hleft : Housed { d with worker := .dead })
    (hright : Housed { e with worker := .dead }) :
    Alike same { d with worker := .dead } { e with worker := .dead } :=
  { h with
    worker := rfl
    signaled := by simp
    housed_left := hleft
    housed_right := hright }

theorem stopped (h : d.Alike same e) : Alike same d.stopped e.stopped :=
  { h with
    worker := rfl
    signaled := fun _ _ => rfl
    housed_left := ⟨rfl, rfl⟩
    housed_right := ⟨rfl, rfl⟩ }

theorem enableIrq (h : d.Alike same e) :
    d.enableIrq.1 = e.enableIrq.1 ∧ Alike same d.enableIrq.2 e.enableIrq.2 := by
  simp only [Device.enableIrq]
  by_cases hw : e.holdsWorker = true
  · rw [if_pos hw, if_pos (h.holdsWorker.trans hw), h.line]
    exact ⟨rfl, h⟩
  · rw [if_neg hw, if_neg (h.holdsWorker ▸ hw)]
    by_cases hi : (!e.initialized) = true
    · rw [if_pos hi, if_pos (h.initialized ▸ hi), h.line]
      exact ⟨rfl, h⟩
    · rw [if_neg hi, if_neg (h.initialized ▸ hi)]
      exact ⟨rfl, h.started.refresh⟩

theorem disableIrq (h : d.Alike same e) :
    d.disableIrq.1 = e.disableIrq.1 ∧ Alike same d.disableIrq.2 e.disableIrq.2 := by
  cases hw : e.worker <;> simp only [Device.disableIrq, hw, h.worker, h.line]
  · exact ⟨trivial, h⟩
  · exact ⟨trivial, h.stopped⟩
  · exact ⟨trivial, h.stopped⟩

end Alike

end Device

/-- The reply of an operation, unless it tells of counters. -/
def Operation.visible (op : Operation σ) (reply : Reply) : Option Reply :=
  match op with
  | .counters | .report => none
  | _ => some reply

/-- Counters start no worker, so what is visible decides what there is to say about deliveries. -/
theorem Operation.notices_congr {op : Operation σ} {reply reply' : Reply}
    (h : op.visible reply = op.visible reply') : op.notices reply = op.notices reply' := by
  cases op with
  | counters | report => rfl
  | _ => exact congrArg _ (Option.some.inj h)

namespace Device

/-- **An operation on alike devices** is answered alike but for the counters, calls their consumers
alike and leaves them alike. -/
theorem Alike.operate (hrefl : ∀ s, same s s) (h : d.Alike same e) (op : Operation σ) :
    op.visible (op.run d).reply = op.visible (op.run e).reply ∧
      (op.run d).flushes = (op.run e).flushes ∧ Alike same (op.run d).device (op.run e).device := by
  cases op with
  | access a =>
    obtain ⟨hreply, hcalls, hdevice⟩ := h.access a
    exact ⟨congrArg some hreply, hcalls, hdevice⟩
  | attach sink => exact ⟨rfl, rfl, h.attach (hrefl sink)⟩
  | bind threshold label =>
    obtain ⟨hresult, hdevice⟩ := h.bind threshold label
    exact ⟨congrArg (some ∘ Reply.ofExcept fun _ => .done) hresult, rfl, hdevice⟩
  | unbind =>
    obtain ⟨hresult, hdevice⟩ := h.unbind
    exact ⟨congrArg (some ∘ Reply.ofExcept fun _ => .done) hresult, rfl, hdevice⟩
  | enableIrq =>
    obtain ⟨hresult, hdevice⟩ := h.enableIrq
    exact ⟨congrArg (some ∘ Reply.ofExcept fun _ => .done) hresult, rfl, hdevice⟩
  | disableIrq =>
    obtain ⟨hresult, hdevice⟩ := h.disableIrq
    exact ⟨congrArg (some ∘ Reply.ofExcept fun _ => .done) hresult, rfl, hdevice⟩
  | irqEnabled =>
    exact ⟨congrArg (some ∘ Reply.flag) h.holdsWorker, rfl, h⟩
  | info => exact ⟨congrArg (some ∘ Reply.info) h.info, rfl, h⟩
  | counters | report => exact ⟨by simp only [Operation.visible], rfl, h⟩
  | resetCounters => exact ⟨rfl, rfl, h.put h.regs h.rx h.tx h.binding h.signaled⟩

end Device

end Uart16550
