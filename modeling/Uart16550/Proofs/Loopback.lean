import Uart16550.Proofs.Readback
import Uart16550.Proofs.Settings
import Uart16550.Proofs.Tally

/-!
# Loopback is a queue of its own

In loopback the data slot is the two ends of one queue of sixteen bytes: what is written there comes
back by reads of the same slot, behind whatever was received before. `Loop` is that queue on its
own, as lists of bytes, with what each access answers and what it leaves queued; it knows nothing of
flags, consumers or counters.

A device that loops back (`Device.Looping`) does as this queue does at every access to its data
slot, injection and break (`Looping.loops`), and so over a run of them (`loops_back`), whatever goes
on besides that is not an access: the wire has no effect at all, and the transmit side stays as it was,
with what it had queued before and with its consumer bound.
-/

namespace Uart16550

/-! ### A queue of sixteen bytes -/

namespace Loop

/-- What an access leaves of the queue. -/
def next (queue : List UInt8) : Access → List UInt8
  | .write _ byte | .output _ byte => if queue.length < 16 then queue ++ [byte] else queue
  | .read _ | .input _ => queue.tail
  | .inject _ | .signalBreak | .flush _ | .reset | .detach => queue

/-- What an access answers. -/
def answer (queue : List UInt8) : Access → Reply
  | .read _ | .input _ => .byte (queue.headD 0)
  | .inject bytes =>
    if bytes.length ≤ 16 then .count 0 else .failed (.capacityExceeded bytes.length 16)
  | .signalBreak => .flag false
  | .write _ _ | .output _ _ | .flush _ | .reset | .detach => .done

/-- What is left of the queue after a list of accesses. -/
def after (queue : List UInt8) (accesses : List Access) : List UInt8 := accesses.foldl next queue

/-- What the accesses of a list answer. -/
def answers (queue : List UInt8) : List Access → List Reply
  | [] => []
  | a :: as => answer queue a :: answers (next queue a) as

end Loop

/-- Whether an access reads or writes at the offset of the data slot, injects bytes, or is a
break. -/
def Access.isLoop : Access → Bool
  | .read offset | .input offset | .write offset _ | .output offset _ => offset == Offset.data
  | .inject _ | .signalBreak => true
  | .flush _ | .reset | .detach => false

variable {σ : Type}

namespace Device

/-! ### Devices that loop back -/

/-- An initialized device in loopback whose data slot is open to reads and writes and where no break
waits to be read. -/
structure Looping (d : Device σ) : Prop where
  initialized : d.initialized = true
  loopback : d.regs.loopback = true
  divisorAccess : d.regs.divisorAccess = false
  breakInterrupt : d.regs.lsr.breakInterrupt = false

/-- An access to a device that loops back does as the queue does and leaves the transmit side
alone. -/
structure Loops (d : Device σ) (a : Access) : Prop where
  reply_eq : (a.run d).reply = Loop.answer d.rx.toList a
  toList_eq : (a.run d).device.rx.toList = Loop.next d.rx.toList a
  looping : (a.run d).device.Looping
  transmitter_eq : (a.run d).device.transmitter = d.transmitter
  flushes_eq : (a.run d).flushes = []

/-- What a data write counts: an overrun exactly if it finds sixteen bytes queued, and then it
changes nothing in the queue. -/
structure Counts (d : Device σ) (a : Access) : Prop where
  lost_of_full : d.rx.toList.length = 16 →
    (a.run d).device.rx = d.rx ∧ (a.run d).device.regs.lsr.overrun = true ∧
      (a.run d).device.metrics = d.metrics.record .overrun
  kept_of_room : d.rx.toList.length < 16 →
    (a.run d).device.regs.lsr.overrun = d.regs.lsr.overrun ∧
      (a.run d).device.metrics = d.metrics.record (.received 1)

namespace Looping

variable {d : Device σ}

/-- A device goes on looping back if both control registers stay as they are and no break comes
in. -/
theorem of_regs (h : d.Looping) {e : Device σ} (hi : e.initialized = d.initialized)
    (hlcr : e.regs.lcr = d.regs.lcr) (hmcr : e.regs.mcr = d.regs.mcr)
    (hbreak : e.regs.lsr.breakInterrupt = false) : e.Looping where
  initialized := hi.trans h.initialized
  loopback := by rw [RegisterBank.loopback, hmcr]; exact h.loopback
  divisorAccess := by rw [RegisterBank.divisorAccess, hlcr]; exact h.divisorAccess
  breakInterrupt := hbreak

theorem of_settings (h : d.Looping) {a : Access}
    (hset : (a.run d).device.settings = d.settings)
    (hbreak : (a.run d).device.regs.lsr.breakInterrupt = false) : (a.run d).device.Looping :=
  h.of_regs (d.initialized_access a) (congrArg Settings.lineControl hset)
    (congrArg Settings.modemControl hset) hbreak

/-! ### Data writes -/

theorem run_write (h : d.Looping) {a : Access} {byte : UInt8}
    (ha : a = .write Offset.data byte ∨ a = .output Offset.data byte) :
    (a.run d).reply = .done ∧ (a.run d).device = ((d.hold byte).receive byte).refresh ∧
      (a.run d).flushes = [] := by
  have hwrite : d.write Offset.data byte =
      (.ok (), ((d.hold byte).receive byte).refresh, []) := by
    rw [write, if_pos h.initialized, h.divisorAccess]
    simp only [WriteRegister.decode, writeRegister, writeData, h.loopback, if_true]
    rfl
  rcases ha with rfl | rfl
  · simp only [Access.run, hwrite]
    exact ⟨rfl, trivial, trivial⟩
  · simp only [Access.run, output, hwrite]
    exact ⟨trivial, trivial, trivial⟩

/-- A byte that finds room is queued behind the others, and one that does not is lost. -/
theorem loops_write (h : d.Looping) {a : Access} {byte : UInt8}
    (ha : a = .write Offset.data byte ∨ a = .output Offset.data byte) : d.Loops a := by
  obtain ⟨hreply, hdevice, hflushes⟩ := h.run_write ha
  constructor
  case reply_eq => rcases ha with rfl | rfl <;> exact hreply
  case toList_eq =>
    have hqueue : (a.run d).device.rx.toList =
        d.rx.toList ++ if (d.rx.push? byte).isSome then [byte] else [] := by
      rw [hdevice]
      exact toList_rx_receive (d.hold byte) byte
    have hnext : Loop.next d.rx.toList a =
        if d.rx.toList.length < 16 then d.rx.toList ++ [byte] else d.rx.toList := by
      rcases ha with rfl | rfl <;> rfl
    rw [hqueue, hnext]
    by_cases hroom : d.rx.toList.length < 16
    · rw [if_pos (Fifo.isSome_push? hroom), if_pos hroom]
    · have hfull : d.rx.push? byte = none :=
        Fifo.push?_eq_none_iff.mpr (Nat.le_antisymm d.rx.length_toList_le (Nat.not_lt.mp hroom))
      rw [hfull, if_neg hroom]
      simp
  case looping =>
    -- A full queue raises the overrun flag, which is none of the conditions.
    have hset : (a.run d).device.settings = d.settings := by
      rw [hdevice]
      exact ((d.hold byte).receives_receive byte).settings_eq
    have herrors := congrArg Prod.snd (errors_receive (d.hold byte) byte)
    refine h.of_settings hset ?_
    rw [hdevice]
    exact herrors.trans h.breakInterrupt
  case transmitter_eq =>
    rw [hdevice]
    exact ((d.hold byte).receives_receive byte).transmitter_eq
  case flushes_eq => exact hflushes

/-! ### Data reads -/

/-- A read takes out the oldest byte, and finds a zero where there is none. -/
theorem loops_read (h : d.Looping) (hd : d.Reachable) {a : Access}
    (ha : a = .read Offset.data ∨ a = .input Offset.data) : d.Loops a := by
  have hread : d.isDataRead a = true := by
    rcases ha with rfl | rfl <;> simp [isDataRead, h.initialized, h.divisorAccess]
  obtain ⟨hi, hreply, hdevice⟩ := run_dataRead hread
  have hflag : d.receiver.Flagged := (truthful_of_reachable hd).receives hi
  have hboth : d.readData.1 = d.rx.toList.headD 0 ∧
      d.readData.2.rx.toList = d.rx.toList.tail := by
    cases hq : d.rx.toList with
    | nil =>
      obtain ⟨hbyte, hrx, -⟩ := readData_of_nothing hflag (Or.inr hq)
      exact ⟨hbyte, hrx ▸ hq⟩
    | cons byte rest =>
      obtain ⟨hbyte, hrest, -⟩ := readData_of_cons hflag h.breakInterrupt hq
      exact ⟨hbyte, hrest⟩
  constructor
  case reply_eq =>
    rw [hreply, hboth.1]
    rcases ha with rfl | rfl <;> rfl
  case toList_eq =>
    rw [hdevice]
    refine hboth.2.trans ?_
    rcases ha with rfl | rfl <;> rfl
  case looping =>
    have hset : (a.run d).device.settings = d.settings := by
      rw [hdevice]
      exact d.receives_readData.settings_eq
    refine h.of_settings hset ?_
    rw [hdevice]
    exact congrArg Prod.snd d.errors_readData
  case transmitter_eq =>
    rw [hdevice]
    exact d.receives_readData.transmitter_eq
  case flushes_eq => rcases ha with rfl | rfl <;> rfl

/-! ### The wire -/

/-- Injections and breaks have no effect whatever. -/
theorem run_wire (h : d.Looping) {a : Access}
    (ha : (∃ bytes, a = .inject bytes) ∨ a = .signalBreak) :
    (a.run d).reply = Loop.answer d.rx.toList a ∧ (a.run d).device = d := by
  rcases ha with ⟨bytes, rfl⟩ | rfl
  · by_cases hn : bytes.length ≤ 16
    · have hignored : d.ignoresWire = true := by simp [ignoresWire, h.loopback]
      have hinject : d.inject bytes = (.ok 0, d) := by
        rw [inject_eq h.initialized hn, if_pos hignored]
      simp only [Access.run, Outcome.ofResult, hinject, Loop.answer, if_pos hn]
      exact ⟨rfl, trivial⟩
    · have hinject : d.inject bytes = (.error (.capacityExceeded bytes.length 16), d) := by
        rw [inject, if_neg (by simp [h.initialized]), if_pos (Nat.not_le.mp hn)]
      simp only [Access.run, Outcome.ofResult, hinject, Loop.answer, if_neg hn]
      exact ⟨rfl, trivial⟩
  · have hbreak : d.signalBreak = (.ok false, d) := by
      rw [signalBreak, if_neg (by simp [h.initialized]), if_pos h.loopback]
    simp only [Access.run, Outcome.ofResult, hbreak]
    exact ⟨rfl, trivial⟩

theorem loops_wire (h : d.Looping) {a : Access}
    (ha : (∃ bytes, a = .inject bytes) ∨ a = .signalBreak) : d.Loops a := by
  obtain ⟨hreply, hdevice⟩ := h.run_wire ha
  refine ⟨hreply, ?_, ?_, ?_, ?_⟩
  · rw [hdevice]
    rcases ha with ⟨bytes, rfl⟩ | rfl <;> rfl
  · rw [hdevice]
    exact h
  · rw [hdevice]
  · rcases ha with ⟨bytes, rfl⟩ | rfl <;> rfl

/-- **One step of the loop.** -/
theorem loops (h : d.Looping) (hd : d.Reachable) {a : Access} (ha : a.isLoop = true) :
    d.Loops a := by
  cases a with
  | read offset =>
    obtain rfl := eq_of_beq ha
    exact h.loops_read hd (Or.inl rfl)
  | input offset =>
    obtain rfl := eq_of_beq ha
    exact h.loops_read hd (Or.inr rfl)
  | write offset byte =>
    obtain rfl := eq_of_beq ha
    exact h.loops_write (Or.inl rfl)
  | output offset byte =>
    obtain rfl := eq_of_beq ha
    exact h.loops_write (Or.inr rfl)
  | inject bytes => exact h.loops_wire (Or.inl ⟨bytes, rfl⟩)
  | signalBreak => exact h.loops_wire (Or.inr rfl)
  | _ => cases ha

/-! ### Bytes that are lost -/

theorem counts (h : d.Looping) {a : Access} {byte : UInt8}
    (ha : a = .write Offset.data byte ∨ a = .output Offset.data byte) : d.Counts a := by
  obtain ⟨-, hdevice, -⟩ := h.run_write ha
  have hmetrics : (a.run d).device.metrics = d.metrics.recordAll d.receiveCounted := by
    rw [hdevice]
    exact metrics_receive (d.hold byte) byte
  have hoverrun : (a.run d).device.regs.lsr.overrun =
      (d.regs.lsr.overrun || d.rx.toList.length == 16) := by
    rw [hdevice]
    exact congrArg Prod.fst (errors_receive (d.hold byte) byte)
  constructor
  case lost_of_full =>
    intro hfull
    have hpush : (d.hold byte).rx.push? byte = none := Fifo.push?_eq_none_iff.mpr hfull
    refine ⟨?_, ?_, ?_⟩
    · rw [hdevice]
      simp only [receive, hpush]
      rfl
    · simp [hoverrun, hfull]
    · have hisFull : d.rx.isFull = true := by rw [Fifo.isFull_eq, hfull]; rfl
      rw [hmetrics, receiveCounted, if_pos hisFull]
      rfl
  case kept_of_room =>
    intro hroom
    have hne : (d.rx.toList.length == 16) = false := beq_eq_false_iff_ne.mpr (Nat.ne_of_lt hroom)
    refine ⟨?_, ?_⟩
    · rw [hoverrun, hne, Bool.or_false]
    · have hisFull : d.rx.isFull = false := by
        rw [Fifo.isFull_eq]
        exact hne
      rw [hmetrics, receiveCounted, hisFull]
      rfl

end Looping

/-! ### Runs -/

/-- The access that a move is. -/
def Move.access? : Move σ → Option Access
  | .operate (.access a) => some a
  | _ => none

/-- Whether a move is an access of the loop, or no access at all. The end of the device is
neither. -/
def Move.isLoop : Move σ → Bool
  | .operate (.access a) => a.isLoop
  | .release => false
  | _ => true

/-- What the accesses of a run answer. -/
def replies (d : Device σ) (ms : List (Move σ)) : List Reply :=
  chronicle (fun d m => (m.access?.map fun a => (a.run d).reply).toList) d ms

/-- Whatever is not an access leaves both queues as they were and the device looping back. -/
theorem Looping.idle {d : Device σ} (h : d.Looping) {m : Move σ} (hm : m.isLoop = true)
    (hacc : m.access? = none) :
    (m.run d).rx = d.rx ∧ (m.run d).Looping ∧ (m.run d).transmitter = d.transmitter ∧
      m.flushes d = [] := by
  have hnone : ∀ a, m ≠ .operate (.access a) := by
    rintro a rfl
    cases hacc
  obtain ⟨iir, hregs⟩ := d.regs_of_not_access hnone
  have hlooping (hi : (m.run d).initialized = d.initialized) : (m.run d).Looping := by
    refine h.of_regs hi ?_ ?_ ?_ <;> rw [hregs]
    exact h.breakInterrupt
  -- Operations are one thing, and what worker, sink and table do by themselves is another.
  by_cases hoper : ∃ op, m = .operate op
  · obtain ⟨op, rfl⟩ := hoper
    have hop : ∀ a, op ≠ .access a := fun a ha => hnone a (ha ▸ rfl)
    obtain ⟨hreceiver, htransmitter, -, hi⟩ := d.sides_operate hop
    exact ⟨(receiver_inj hreceiver).1, hlooping hi, htransmitter, d.flushes_operate hop⟩
  · have hrel : m ≠ .release := by
      rintro rfl
      cases hm
    obtain ⟨hregs, hrx, htx, -, hi⟩ := d.run_keeps (not_exists.mp hoper) hrel
    have hflushes : m.flushes d = [] := by
      cases m with
      | operate op => exact absurd ⟨op, rfl⟩ hoper
      | _ => rfl
    exact ⟨hrx, hlooping hi, transmitter_congr hregs htx, hflushes⟩

/-- **One move of a run**, with what it answers and what is left of the queue. -/
theorem Looping.move {d : Device σ} (h : d.Looping) (hd : d.Reachable) {m : Move σ}
    (hm : m.isLoop = true) :
    (m.access?.map fun a => (a.run d).reply) = m.access?.map (Loop.answer d.rx.toList) ∧
      (m.run d).rx.toList = m.access?.elim d.rx.toList (Loop.next d.rx.toList) ∧
      (m.run d).Looping ∧ (m.run d).transmitter = d.transmitter ∧ m.flushes d = [] := by
  cases hacc : m.access? with
  | none =>
    obtain ⟨hrx, hlooping, htransmitter, hflushes⟩ := h.idle hm hacc
    exact ⟨rfl, congrArg Fifo.toList hrx, hlooping, htransmitter, hflushes⟩
  | some a =>
    obtain rfl : m = .operate (.access a) := by
      cases m with
      | operate op =>
        cases op with
        | access b =>
          obtain rfl := Option.some.inj hacc
          rfl
        | _ => cases hacc
      | _ => cases hacc
    have hloops := h.loops hd hm
    exact ⟨congrArg some hloops.reply_eq, hloops.toList_eq, hloops.looping, hloops.transmitter_eq,
      hloops.flushes_eq⟩

/-- A run does as the queue does at its accesses, from the queue that it finds. -/
theorem Looping.run {d : Device σ} (h : d.Looping) (hd : d.Reachable) {ms : List (Move σ)}
    (hms : ∀ m ∈ ms, m.isLoop = true) :
    d.replies ms = Loop.answers d.rx.toList (ms.filterMap (·.access?)) ∧
      (d.after ms).rx.toList = Loop.after d.rx.toList (ms.filterMap (·.access?)) ∧
      (d.after ms).Looping ∧ (d.after ms).transmitter = d.transmitter ∧ d.calls ms = [] ∧
      ∀ x ∈ d.moments ms, x.1.Looping := by
  induction ms generalizing d with
  | nil => exact ⟨rfl, rfl, h, rfl, rfl, by simp [moments]⟩
  | cons m ms ih =>
    rw [List.forall_mem_cons] at hms
    obtain ⟨hreply, hqueue, hlooping, htransmitter, hflushes⟩ := h.move hd hms.1
    obtain ⟨hreplies, hafter, hlooping', htransmitter', hcalls, hmoments⟩ :=
      ih hlooping (hd.after [m]) hms.2
    have hcalls' : d.calls (m :: ms) = [] := by
      rw [calls, chronicle_cons, hflushes]
      exact hcalls
    have hmoments' : ∀ x ∈ d.moments (m :: ms), x.1.Looping := by
      rw [moments, List.forall_mem_cons]
      exact ⟨h, hmoments⟩
    refine ⟨?_, ?_, hlooping', htransmitter'.trans htransmitter, hcalls', hmoments'⟩
    · rw [replies, chronicle_cons, ← replies, hreplies, hreply, hqueue]
      cases hacc : m.access? <;> simp [hacc, Loop.answers]
    · rw [after_cons, hafter, hqueue]
      cases hacc : m.access? <;> simp [hacc, Loop.after]

/-- **Loopback is a queue of its own.** On a reachable device in loopback, with its data slot open
and no break to be read, a run of data reads and writes, injections and breaks answers as a queue of
sixteen bytes does that holds what was received before: reads return the queued bytes in order, then
the written ones, and zero where there is none, injections count nothing and breaks report nothing.
The device stays in this state, its transmit side stays as it was and no consumer is called. A write
that finds sixteen bytes queued loses its byte, raises the overrun flag and counts one overrun, any
other counts one byte received; injections and breaks change nothing at all. -/
theorem loops_back {d : Device σ} (hd : d.Reachable) (h : d.Looping) {ms : List (Move σ)}
    (hms : ∀ m ∈ ms, m.isLoop = true) :
    let accesses := ms.filterMap (·.access?)
    (d.replies ms = Loop.answers d.rx.toList accesses ∧
        (d.after ms).rx.toList = Loop.after d.rx.toList accesses) ∧
      (d.after ms).Looping ∧ (d.after ms).transmitter = d.transmitter ∧ d.calls ms = [] ∧
      ∀ x ∈ d.moments ms, ∀ a, x.2 = .operate (.access a) →
        (∀ byte, a = .write Offset.data byte ∨ a = .output Offset.data byte → x.1.Counts a) ∧
          ((∃ bytes, a = .inject bytes) ∨ a = .signalBreak → (a.run x.1).device = x.1) := by
  intro accesses
  obtain ⟨hreplies, hqueue, hlooping, htransmitter, hcalls, hmoments⟩ := h.run hd hms
  refine ⟨⟨hreplies, hqueue⟩, hlooping, htransmitter, hcalls, fun x hx a _ => ⟨?_, ?_⟩⟩
  · exact fun byte ha => (hmoments x hx).counts ha
  · exact fun ha => ((hmoments x hx).run_wire ha).2

/-- Loopback begins with three bytes waiting to be sent and fourteen received. A break and an
injection go by, the third of three written bytes is lost, and the reader finds the first byte
received; the three bytes to be sent are still there, and their consumer was not called. -/
theorem looping_over_three_to_send :
    let info : LineInfo := { line := 0, ioBase := 0x3F8, irq := 4, baudBase := 115200 }
    let before : List (Move Unit) := [.list true, .operate (.bind 14 "c")] ++
      List.replicate 3 (.operate (.access (.write Offset.data 0x78))) ++
      [.operate (.access (.inject (0x61 :: List.replicate 13 0x62))),
        .operate (.access (.write Offset.modemControl 0x10))]
    let ms : List (Move Unit) := [.operate (.access .signalBreak),
      .operate (.access (.inject [0x7A])), .operate (.access (.write Offset.data 1)), .look,
      .operate (.access (.output Offset.data 2)), .operate (.access (.write Offset.data 3)),
      .operate (.access (.read Offset.data))]
    let d : Device Unit := (create info true).after before
    d.tx.toList = [0x78, 0x78, 0x78] ∧ d.settings.binding = some ("c", 14) ∧
      d.replies ms = [.flag false, .count 0, .done, .done, .done, .byte 0x61] ∧
      (d.after ms).rx.toList = List.replicate 13 0x62 ++ [1, 2] ∧
      (d.after ms).tx.toList = [0x78, 0x78, 0x78] ∧ d.calls ms = [] := by
  intro info before ms d
  have hsend : d.tx.toList = [0x78, 0x78, 0x78] ∧ d.settings.binding = some ("c", 14) := by
    decide +kernel
  have hreceived : d.rx.toList = 0x61 :: List.replicate 13 0x62 := by decide +kernel
  have hlooping : d.Looping :=
    ⟨by decide +kernel, by decide +kernel, by decide +kernel, by decide +kernel⟩
  have hms : ∀ m ∈ ms, m.isLoop = true := by decide
  have hreached : d.Reachable := ⟨info, true, before, rfl⟩
  clear_value before
  obtain ⟨⟨hreplies, hqueue⟩, -, htransmitter, hcalls, -⟩ := loops_back hreached hlooping hms
  rw [hreceived] at hreplies hqueue
  exact ⟨hsend.1, hsend.2, hreplies, hqueue,
    (congrArg Fifo.toList (queue_of_transmitter htransmitter)).trans hsend.1, hcalls⟩

end Device

end Uart16550
