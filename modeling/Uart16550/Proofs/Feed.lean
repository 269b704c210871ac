import Uart16550.Proofs.EchoLines

/-!
# Feeding line 0 loses and repeats nothing

A feed from the wire offers its bytes to line 0 again and again, each time what was not accepted
before. Between two offers others work: a handler drains the line, a holder writes registers, a
worker looks at its device. `EchoSystem.Feeding` is a feed under way among the turns of others.

As long as nobody else turns loopback on, clears the receive queue or injects bytes of his own
(`EchoSystem.Turn.spares`), what has entered the receive queue since the feed began is the part of
its input that it no longer offers (`EchoSystem.Feeding.Account`), and it left the queue by reads only. An
offer that does not fit is cut short and never overruns the queue.

* `EchoSystem.Feeding.Account.turn`: every turn keeps the account.
* `EchoSystem.fed_without_loss`: at every moment of a feed, what is accepted and what is left are
  its input.
-/

namespace Uart16550

variable {σ : Type}

/-! ### Sparing the receiver -/

/-- Whether an access leaves the receive queue to others: it may read, but it neither turns loopback
on, nor clears the queue, nor brings bytes from the wire. -/
def Access.spares : Access → Bool
  | .write offset value | .output offset value =>
    !(offset == Offset.modemControl && hasBit value ModemControl.loop) &&
      !(offset == Offset.fifoControl && hasBit value FifoControl.enable &&
        hasBit value FifoControl.clearReceiver)
  | .inject _ | .reset => false
  | .read _ | .input _ | .signalBreak | .flush _ | .detach => true

namespace Device

/-- Whether a move does. -/
def Move.spares : Move σ → Bool
  | .operate (.access a) => a.spares
  | .operate _ | .look | .advance _ | .handled | .crashed => true
  | .list _ | .release => false

/-- Whether a write of a register does. -/
def sparesWrite (value : UInt8) : WriteRegister → Bool
  | .modemControl => !hasBit value ModemControl.loop
  | .fifoControl => !(hasBit value FifoControl.enable && hasBit value FifoControl.clearReceiver)
  | _ => true

/-- Whether an effect does. -/
def Effect.spares : Effect → Bool
  | .writes register value => sparesWrite value register
  | .queues _ | .resets => false
  | _ => true

/-- A device that takes bytes from the wire. -/
structure Listening (d : Device σ) : Prop where
  initialized : d.initialized = true
  registered : d.registered = true
  loopback_eq : d.regs.loopback = false

theorem ofHolder_of_spares {m : Move σ} (h : m.spares = true) : m.ofHolder = true := by
  cases m with
  | list registered | release => cases h
  | _ => rfl

/-- An access that spares the receiver has an effect that does. -/
theorem spares_effect (d : Device σ) {a : Access} (h : a.spares = true) :
    (a.effect d).spares = true := by
  cases a with
  | read offset | input offset =>
    rcases d.readEffect_cases offset with he | he | ⟨register, he⟩ <;> rw [Access.effect, he] <;> rfl
  | write offset value | output offset value =>
    simp only [Access.spares, Bool.and_eq_true] at h
    obtain ⟨hloop, hclear⟩ := h
    simp only [Access.effect, writeEffect]
    split
    · cases hr : WriteRegister.decode offset d.regs.divisorAccess with
      | error e => rfl
      | ok register =>
        obtain rfl := WriteRegister.eq_offset_of_decode hr
        cases register with
        | modemControl => exact hloop
        | fifoControl => exact hclear
        | _ => rfl
    · rfl
  | signalBreak =>
    simp only [Access.effect]
    split <;> rfl
  | inject bytes | reset => cases h
  | flush reason | detach => rfl

theorem hasBit_loop_implemented (value : UInt8) :
    hasBit (value &&& ModemControl.implemented) ModemControl.loop =
      hasBit value ModemControl.loop := by
  simp only [hasBit, UInt8.and_assoc]
  rfl

variable {d : Device σ}

/-- An effect that spares the receiver does not cut it off, lets nothing in, and takes bytes out by
reads only. -/
theorem Listening.effect (h : d.Listening) {e : Effect} (he : e.spares = true) :
    (e.run d).1.regs.loopback = false ∧ e.arrived d = [] ∧
      ∀ w ∈ e.withdrawals d, w.cut = .read := by
  have hmcr : (e.run d).1.regs.mcr = (e.set d.settings).modemControl :=
    congrArg Settings.modemControl (d.settings_effect e)
  have hkept (hset : (e.set d.settings).modemControl = d.regs.mcr) :
      (e.run d).1.regs.loopback = false := by
    rw [RegisterBank.loopback, hmcr, hset]
    exact h.loopback_eq
  cases e with
  | reads register =>
    refine ⟨hkept rfl, rfl, fun w hw => ?_⟩
    simp only [Effect.withdrawals] at hw
    split at hw
    · simp only [readWithdrawals] at hw
      split_ifs at hw
      · cases hw
      · cases hp : d.rx.pop? <;> rw [hp] at hw <;> simp_all
      · cases hw
    · cases hw
  | writes register value =>
    cases register with
    | transmitHold =>
      refine ⟨hkept rfl, ?_, by simp [Effect.withdrawals, writeWithdrawals]⟩
      simp [Effect.arrived, loopedBack, h.loopback_eq]
    | modemControl =>
      refine ⟨?_, rfl, by simp [Effect.withdrawals, writeWithdrawals]⟩
      have hoff : hasBit value ModemControl.loop = false := by
        rw [← Bool.not_eq_true']
        exact he
      rw [RegisterBank.loopback, hmcr]
      exact (hasBit_loop_implemented value).trans hoff
    | fifoControl =>
      refine ⟨hkept rfl, rfl, ?_⟩
      have hkeeps : (hasBit value FifoControl.enable &&
          hasBit value FifoControl.clearReceiver) = false := by
        rw [← Bool.not_eq_true']
        exact he
      simp [Effect.withdrawals, writeWithdrawals, hkeeps]
    | _ => exact ⟨hkept rfl, rfl, by simp [Effect.withdrawals, writeWithdrawals]⟩
  | queues bytes | resets => cases he
  | _ => exact ⟨hkept rfl, rfl, by simp [Effect.withdrawals]⟩

/-- Whatever is not an access leaves loopback as it was. -/
theorem loopback_operate (d : Device σ) {op : Operation σ} (h : ∀ a, op ≠ .access a) :
    ((Move.operate op).run d).regs.loopback = d.regs.loopback := by
  have hrun : (Move.operate op).run d = (op.run d).device := rfl
  rw [hrun]
  rcases d.operate_cases h with ⟨⟨c, m, hd⟩, -⟩ | ⟨sink, rfl⟩ | ⟨hd, -⟩ | ⟨hd, -⟩
  · rw [hd]
  · rfl
  · rw [hd]
    rfl
  · rw [hd]
    rfl

/-- So does a move that spares it. -/
theorem Listening.move (h : d.Listening) {m : Move σ} (hm : m.spares = true) :
    (m.run d).Listening ∧ d.arrived m = [] ∧ ∀ w ∈ d.withdrawals m, w.cut = .read := by
  obtain ⟨-, hinitialized, hregistered⟩ := d.flags_run (ofHolder_of_spares hm)
  have hlistening (hloop : (m.run d).regs.loopback = false) : (m.run d).Listening :=
    ⟨hinitialized.trans h.initialized, hregistered.trans h.registered, hloop⟩
  cases m with
  | operate op =>
    cases op with
    | access a =>
      obtain ⟨hloop, harrived, hcut⟩ := h.effect (d.spares_effect hm)
      have hrun : (Move.operate (.access a)).run d = ((a.effect d).run d).1 := a.device_effect d
      refine ⟨hlistening (hrun ▸ hloop), ?_, hcut⟩
      rw [arrived_access, harrived]
    | _ =>
      refine ⟨hlistening ?_, rfl, by simp [withdrawals]⟩
      rw [d.loopback_operate (by simp)]
      exact h.loopback_eq
  | list registered | release => cases hm
  | _ =>
    refine ⟨hlistening ?_, rfl, by simp [withdrawals]⟩
    rw [(d.run_keeps (by simp) (by simp)).1]
    exact h.loopback_eq

/-- Over a run of such moves nothing is let in and bytes are taken out by reads only. -/
theorem Listening.after (h : d.Listening) {ms : List (Move σ)} (hms : ∀ m ∈ ms, m.spares = true) :
    (d.after ms).Listening ∧ chronicle arrived d ms = [] ∧
      ∀ w ∈ chronicle withdrawals d ms, w.cut = .read := by
  induction ms generalizing d with
  | nil => exact ⟨h, rfl, by simp⟩
  | cons m ms ih =>
    rw [List.forall_mem_cons] at hms
    obtain ⟨hnext, hnothing, hreads⟩ := h.move hms.1
    obtain ⟨hlast, hnone, hmore⟩ := ih hnext hms.2
    refine ⟨hlast, ?_, ?_⟩
    · rw [chronicle_cons, hnothing, hnone]
      rfl
    · rw [chronicle_cons]
      exact List.forall_mem_append.mpr ⟨hreads, hmore⟩

/-- How much of a batch fits into the receive queue. -/
def room (d : Device σ) (bytes : List UInt8) : Nat :=
  min bytes.length (Fifo.capacity - d.rx.toList.length)

/-- **An injection queues as much as fits** and says how much that was. It takes nothing out, and
neither flags nor counts an overrun. -/
structure Queues (d : Device σ) (bytes : List UInt8) : Prop where
  count_eq : (d.inject bytes).1 = .ok (d.room bytes)
  queue_eq : (d.inject bytes).2.rx.toList = d.rx.toList ++ bytes.take (d.room bytes)
  overrun_eq : (d.inject bytes).2.regs.lsr.overrun = d.regs.lsr.overrun
  overruns_eq : (d.inject bytes).2.metrics.overruns = d.metrics.overruns

theorem withdrawals_inject (d : Device σ) (bytes : List UInt8) :
    d.withdrawals (.operate (.access (.inject bytes))) = [] := by
  simp only [withdrawals, Access.effect]
  split <;> rfl

theorem Listening.queues (h : d.Listening) {bytes : List UInt8}
    (hn : bytes.length ≤ Fifo.capacity) : d.Queues bytes := by
  obtain ⟨hcount, hoverrun⟩ := inject_of_listed h.initialized h.registered h.loopback_eq hn
  refine ⟨hcount, ?_, hoverrun, ?_⟩
  · have hbalance := d.balance_rx_move (.operate (.access (.inject bytes)))
    rw [withdrawals_inject, arrived, hcount] at hbalance
    exact hbalance.symm
  · rw [inject_snd]
    split
    · have hrecord (n : Nat) : (d.metrics.record (.received n)).overruns = d.metrics.overruns := by
        simp only [Metrics.record]
        split <;> rfl
      simp only [queue]
      split
      · exact hrecord _
      · rfl
    · rfl

theorem Listening.inject (h : d.Listening) (bytes : List UInt8) :
    (d.inject bytes).2.Listening := by
  have hrun : (d.inject bytes).2 = (Move.operate (.access (.inject bytes))).run d := rfl
  obtain ⟨-, hinitialized, hregistered⟩ :=
    d.flags_run (m := .operate (.access (.inject bytes))) rfl
  refine ⟨hrun ▸ hinitialized.trans h.initialized, hrun ▸ hregistered.trans h.registered, ?_⟩
  have hsettings : (d.inject bytes).2.settings = d.settings := by
    refine (settings_access d (.inject bytes)).trans ?_
    simp only [Access.effect]
    split <;> rfl
  rw [RegisterBank.loopback, show (d.inject bytes).2.regs.mcr = d.regs.mcr from
    congrArg Settings.modemControl hsettings]
  exact h.loopback_eq

end Device

/-- The handler spares the receiver. -/
theorem Echo.spares_of_isHandling {a : Access} (h : Echo.isHandling a = true) :
    a.spares = true := by
  cases a with
  | input offset => rfl
  | output offset value =>
    simp only [Echo.isHandling, Bool.or_eq_true, beq_iff_eq] at h
    rcases h with rfl | rfl <;> rfl
  | _ => cases h

namespace EchoSystem

open Device

/-! ### A feed under way -/

namespace Fed

/-- What a feed still has to offer. -/
def left : Fed → List UInt8
  | .waiting rest => rest
  | .done | .failed _ => []

/-- A feed that has only this left: it is done if that is nothing. -/
def ofLeft : List UInt8 → Fed
  | [] => .done
  | byte :: rest => .waiting (byte :: rest)

@[simp] theorem left_ofLeft (rest : List UInt8) : (ofLeft rest).left = rest := by
  cases rest <;> rfl

theorem ofLeft_ne_failed (rest : List UInt8) (e : Error) : ofLeft rest ≠ .failed e := by
  cases rest <;> simp [ofLeft]

end Fed

/-- A feed from the wire, between two turns. -/
structure Feeding where
  /-- What it has come to so far. -/
  fed : Fed
  system : EchoSystem

/-- One turn while a feed is under way. -/
inductive Turn where
  /-- The feed offers what it has left. -/
  | offer
  /-- Somebody has the system make a step. -/
  | step (st : Step)
  /-- A device makes a move by itself, or a holder or a handler has it make one. -/
  | touch (device : Nat) (m : Move Unit)

namespace Feeding

/-- The feed after a turn. Once it has come to an end it offers nothing any more. -/
def turn (f : Feeding) : Turn → Feeding
  | .offer =>
    match f.fed with
    | .waiting rest =>
      let (fed, _, system) := f.system.feed rest false
      { fed, system }
    | .done | .failed _ => f
  | .step st => { f with system := (f.system.step st).2 }
  | .touch device m => { f with system := System.perform f.system (.touch device m) }

/-- The feed after a sequence of turns. -/
def after (f : Feeding) (turns : List Turn) : Feeding := turns.foldl turn f

/-- What is in the receive queue of line 0. -/
def queued (f : Feeding) : List UInt8 :=
  match f.system.liveDevice? 0 with
  | some d => d.rx.toList
  | none => []

/-- The bytes by which the receive queue of line 0 has grown, if a turn is one of the feed. -/
def puts (f : Feeding) : Turn → List UInt8
  | .offer => (f.turn .offer).queued.drop f.queued.length
  | .step _ | .touch _ _ => []

/-- Everything that the feed puts into the receive queue in the course of a sequence of turns. -/
def putBy (f : Feeding) : List Turn → List UInt8
  | [] => []
  | t :: turns => f.puts t ++ (f.turn t).putBy turns

end Feeding

/-- Whether a turn is one of the feed, or leaves the receive queue of line 0 to it. The device of
line 0 is at `place`. -/
def Turn.spares (place : Nat) : Turn → Bool
  | .offer => true
  | .step (.onLine line a) => line != 0 || a.spares
  | .step st => st.isWork
  | .touch device m => device != place || m.spares

/-- The account of a feed: the bytes that it has put into the receive queue of line 0, by the moves
that the device of the line has made since the feed began. -/
structure Feeding.Account (f : Feeding) (place : Nat) (d : Device Unit) (bytes put : List UInt8)
    (ms : List (Move Unit)) : Prop where
  reached : f.system.Reached
  attached : f.system.Attached 0 place (d.after ms)
  listening : (d.after ms).Listening
  /-- Nothing else has entered the queue. -/
  arrived_eq : chronicle arrived d ms = put
  /-- What has left it was read. -/
  reads : ∀ w ∈ chronicle withdrawals d ms, w.cut = .read
  /-- The rest of the input is still to be offered. -/
  input_eq : bytes = put ++ f.fed.left
  not_failed (e : Error) : f.fed ≠ .failed e

variable {s : EchoSystem} {place : Nat} {d : Device Unit}

/-! ### Turns -/

/-- One round of a feed is one injection, and the feed keeps what did not fit. -/
theorem Attached.feed (h : s.Attached 0 place d) {bytes : List UInt8} (hd : d.Queues bytes)
    (hne : bytes ≠ []) :
    s.feed bytes false =
      (.ofLeft (bytes.drop (d.room bytes)), [], s.modify place fun _ => (d.inject bytes).2) := by
  have hoffer : s.offer bytes =
      (.ok (bytes.drop (d.room bytes)), s.modify place fun _ => (d.inject bytes).2) := by
    have hrun : (Operation.access (.inject bytes)).run d = .ofResult .count (d.inject bytes) := rfl
    simp only [offer, h.onLine, hrun, Outcome.ofResult, hd.count_eq, Reply.ofExcept]
  have hempty : bytes.isEmpty = false := by simpa using hne
  simp only [EchoSystem.feed, hoffer, hempty, Bool.false_eq_true, if_false]
  cases bytes.drop (d.room bytes) <;> rfl

namespace Feeding.Account

variable {f : Feeding} {bytes put : List UInt8} {ms : List (Move Unit)}

/-- Others make the device of line 0 move as they like, as long as they spare its receiver. -/
theorem spared (h : f.Account place d bytes put ms) {t : EchoSystem} (ht : t.Reached)
    {ns : List (Move Unit)} (hattached : t.Attached 0 place ((d.after ms).after ns))
    (hns : ∀ m ∈ ns, m.spares = true) :
    Account { f with system := t } place d bytes put (ms ++ ns) := by
  obtain ⟨hlistening, hnothing, hreads⟩ := h.listening.after hns
  rw [← after_append] at hattached hlistening
  refine ⟨ht, hattached, hlistening, ?_, ?_, h.input_eq, h.not_failed⟩
  · rw [chronicle_append, h.arrived_eq, hnothing, List.append_nil]
  · rw [chronicle_append]
    exact List.forall_mem_append.mpr ⟨h.reads, hreads⟩

theorem of_step (h : f.Account place d bytes put ms) {st : Step}
    (hst : (Turn.step st).spares place = true) :
    ∃ ns, (f.turn (.step st)).Account place d bytes put (ms ++ ns) := by
  have hwork : st.isWork = true := by
    cases st with
    | onLine line a => rfl
    | _ => exact hst
  obtain ⟨accesses, hall, hnext⟩ := step_eq_work h.reached hwork
  have hreached := h.reached.step st
  by_cases hline : st.line = 0
  · have hattached := h.attached.work accesses
    rw [hline] at hnext
    rw [← hnext] at hattached
    refine ⟨_, h.spared hreached hattached fun m hm => ?_⟩
    obtain ⟨a, ha, rfl⟩ := List.mem_map.mp hm
    rcases hall a ha with hhandling | hasked
    · exact Echo.spares_of_isHandling hhandling
    · have hspares : a.spares = true := by
        rw [hasked] at hst
        simpa [Turn.spares, hline] using hst
      exact hspares
  · have hattached := h.attached.work_ne h.reached hline accesses
    rw [← hnext] at hattached
    exact ⟨[], h.spared hreached hattached (by simp)⟩

theorem of_touch (h : f.Account place d bytes put ms) {device : Nat} {m : Move Unit}
    (hm : (Turn.touch device m).spares place = true) :
    ∃ ns, (f.turn (.touch device m)).Account place d bytes put (ms ++ ns) := by
  have hreached : Reached (System.perform f.system (.touch device m)) :=
    h.reached.act (.touch device m) (by simp)
  by_cases hdevice : device = place
  · subst hdevice
    have hspares : m.spares = true := by simpa [Turn.spares] using hm
    have htouch : System.perform f.system (.touch device m) =
        f.system.modify device fun _ => m.run (d.after ms) := by
      rw [System.perform, if_pos (ofHolder_of_spares hspares)]
      exact System.modify_congr fun e he => by
        rw [Option.some.inj (h.attached.device.symm.trans he)]
    refine ⟨[m], h.spared hreached ?_ (by simpa using hspares)⟩
    rw [htouch]
    exact h.attached.modify _
  · refine ⟨[], h.spared hreached ?_ (by simp)⟩
    rw [System.perform]
    split
    · exact h.attached.modify_ne hdevice _
    · exact h.attached

/-- What a feed still offers is no more than a queue can hold. -/
theorem queues (h : f.Account place d bytes put ms) (hn : bytes.length ≤ Fifo.capacity)
    {rest : List UInt8} (hfed : f.fed = .waiting rest) : (d.after ms).Queues rest := by
  refine h.listening.queues (Nat.le_trans ?_ hn)
  rw [h.input_eq, hfed, List.length_append]
  exact Nat.le_add_left _ _

/-- An offer is one injection of all that is left. -/
theorem turn_offer (h : f.Account place d bytes put ms) (hn : bytes.length ≤ Fifo.capacity)
    {rest : List UInt8} (hfed : f.fed = .waiting rest) (hne : rest ≠ []) :
    f.turn .offer =
      { fed := .ofLeft (rest.drop ((d.after ms).room rest))
        system := f.system.modify place fun _ => ((d.after ms).inject rest).2 } := by
  simp only [turn, hfed, h.attached.feed (h.queues hn hfed) hne]

/-- With nothing left, a feed is done without an offer. -/
theorem turn_offer_nil (hfed : f.fed = .waiting []) : f.turn .offer = { f with fed := .done } := by
  simp only [turn, hfed]
  rfl

/-- What is injected is put into the queue and no longer left. -/
theorem injected (h : f.Account place d bytes put ms) (hn : bytes.length ≤ Fifo.capacity)
    {rest : List UInt8} (hfed : f.fed = .waiting rest) :
    Account
      { fed := .ofLeft (rest.drop ((d.after ms).room rest))
        system := f.system.modify place fun _ => ((d.after ms).inject rest).2 }
      place d bytes (put ++ rest.take ((d.after ms).room rest))
      (ms ++ [.operate (.access (.inject rest))]) := by
  have hrun : d.after (ms ++ [.operate (.access (.inject rest))]) = ((d.after ms).inject rest).2 :=
    after_append d ms [.operate (.access (.inject rest))]
  have htouch : (f.system.modify place fun _ => ((d.after ms).inject rest).2) =
      System.perform f.system (.touch place (.operate (.access (.inject rest)))) :=
    System.modify_congr fun e he => by
      rw [Option.some.inj (h.attached.device.symm.trans he)]
      rfl
  have hinput : bytes = put ++ rest := by rw [h.input_eq, hfed, Fed.left]
  constructor
  case reached =>
    rw [htouch]
    exact h.reached.act (.touch place (.operate (.access (.inject rest)))) (by simp)
  case attached =>
    rw [hrun]
    exact h.attached.modify _
  case listening =>
    rw [hrun]
    exact h.listening.inject rest
  case arrived_eq =>
    rw [chronicle_append, h.arrived_eq, chronicle_cons, chronicle_nil, List.append_nil, arrived,
      (h.queues hn hfed).count_eq]
  case reads =>
    rw [chronicle_append, chronicle_cons, chronicle_nil, withdrawals_inject]
    simpa using h.reads
  case input_eq => rw [Fed.left_ofLeft, List.append_assoc, List.take_append_drop, hinput]
  case not_failed => exact Fed.ofLeft_ne_failed _

theorem queued_eq (h : f.Account place d bytes put ms) :
    f.queued = (d.after ms).rx.toList := by
  simp only [queued, h.attached.liveDevice?]

theorem of_offer (h : f.Account place d bytes put ms) (hn : bytes.length ≤ Fifo.capacity) :
    ∃ ms', (f.turn .offer).Account place d bytes (put ++ f.puts .offer) ms' := by
  have hidle (hsystem : (f.turn .offer).system = f.system) : put ++ f.puts .offer = put := by
    have hqueued : (f.turn .offer).queued = f.queued := by simp only [queued, hsystem]
    rw [puts, hqueued, List.drop_length, List.append_nil]
  cases hfed : f.fed with
  | failed e => exact absurd hfed (h.not_failed e)
  | done =>
    have hsame : f.turn .offer = f := by simp only [turn, hfed]
    rw [hidle (by rw [hsame]), hsame]
    exact ⟨ms, h⟩
  | waiting rest =>
    by_cases hne : rest = []
    · subst hne
      have hinput := h.input_eq
      rw [hfed] at hinput
      rw [hidle (by rw [turn_offer_nil hfed]), turn_offer_nil hfed]
      exact ⟨ms, h.reached, h.attached, h.listening, h.arrived_eq, h.reads, hinput, by simp⟩
    · have hinjected := h.injected hn hfed
      have hputs : f.puts .offer = rest.take ((d.after ms).room rest) := by
        have hrun : d.after (ms ++ [.operate (.access (.inject rest))]) =
            ((d.after ms).inject rest).2 := after_append d ms [.operate (.access (.inject rest))]
        rw [puts, h.turn_offer hn hfed hne, hinjected.queued_eq, h.queued_eq, hrun,
          (h.queues hn hfed).queue_eq, List.drop_left]
      rw [hputs, h.turn_offer hn hfed hne]
      exact ⟨_, hinjected⟩

/-- **Every turn keeps the account.** -/
theorem turn (h : f.Account place d bytes put ms) (hn : bytes.length ≤ Fifo.capacity) {t : Turn}
    (ht : t.spares place = true) :
    ∃ ms', (f.turn t).Account place d bytes (put ++ f.puts t) ms' := by
  cases t with
  | offer => exact h.of_offer hn
  | step st =>
    obtain ⟨ns, hnext⟩ := h.of_step ht
    exact ⟨ms ++ ns, (List.append_nil put).symm ▸ hnext⟩
  | touch device m =>
    obtain ⟨ns, hnext⟩ := h.of_touch ht
    exact ⟨ms ++ ns, (List.append_nil put).symm ▸ hnext⟩

theorem after (h : f.Account place d bytes put ms) (hn : bytes.length ≤ Fifo.capacity)
    {turns : List Turn} (hturns : ∀ t ∈ turns, t.spares place = true) :
    ∃ ms', (f.after turns).Account place d bytes (put ++ f.putBy turns) ms' := by
  induction turns generalizing f put ms with
  | nil => exact ⟨ms, (List.append_nil put).symm ▸ h⟩
  | cons t turns ih =>
    rw [List.forall_mem_cons] at hturns
    obtain ⟨ms', hnext⟩ := h.turn hn hturns.1
    rw [putBy, ← List.append_assoc]
    exact ih hnext hturns.2

end Feeding.Account

/-! ### The whole feed -/

/-- The next offer of a feed that has this left, with `e` the device of line 0. -/
structure Feeding.Offers (f : Feeding) (place : Nat) (e : Device Unit) (rest : List UInt8) : Prop
    extends e.Queues rest where
  /-- With nothing left there is none. -/
  nothing : rest = [] → f.turn .offer = { f with fed := .done }
  /-- It is one injection, and what did not fit is left. -/
  injection : rest ≠ [] → f.turn .offer =
    { fed := .ofLeft (rest.drop (e.room rest))
      system := f.system.modify place fun _ => (e.inject rest).2 }
  in_range : e.room rest ≤ rest.length
  /-- For what fits it is the last one. -/
  at_once : e.rx.toList.length + rest.length ≤ Fifo.capacity → (f.turn .offer).fed = .done

theorem Feeding.Account.offers {f : Feeding} {bytes put : List UInt8} {ms : List (Move Unit)}
    (h : f.Account place d bytes put ms) (hn : bytes.length ≤ Fifo.capacity) {rest : List UInt8}
    (hfed : f.fed = .waiting rest) : f.Offers place (d.after ms) rest where
  toQueues := h.queues hn hfed
  nothing hnil := turn_offer_nil (hnil ▸ hfed)
  injection := h.turn_offer hn hfed
  in_range := Nat.min_le_left _ _
  at_once hfits := by
    by_cases hne : rest = []
    · rw [turn_offer_nil (hne ▸ hfed)]
    · have hall : (d.after ms).room rest = rest.length :=
        Nat.min_eq_left (Nat.le_sub_of_add_le' hfits)
      rw [h.turn_offer hn hfed hne, hall, List.drop_length]
      rfl

/-- A batch that no queue can hold is refused, and nothing of it is put into the queue. -/
theorem feed_of_too_long (h : s.Attached 0 place d) (hd : d.initialized = true)
    {bytes : List UInt8} (hn : Fifo.capacity < bytes.length) :
    s.feed bytes false = (.failed (.capacityExceeded bytes.length Fifo.capacity), [], s) := by
  have hinject : d.inject bytes = (.error (.capacityExceeded bytes.length Fifo.capacity), d) := by
    rw [inject, if_neg (by simp [hd]), if_pos hn]
  have hsame : (s.modify place fun _ => d) = s :=
    System.modify_eq_self fun e he => Option.some.inj (h.device.symm.trans he)
  have hempty : bytes.isEmpty = false := by cases bytes <;> simp_all
  have hrun : (Operation.access (.inject bytes)).run d = .ofResult .count (d.inject bytes) := rfl
  simp only [EchoSystem.feed, offer, h.onLine, hrun, hinject, Outcome.ofResult, Reply.ofExcept,
    hempty, Bool.false_eq_true, if_false, hsame]

/-- **A feed loses and repeats nothing.** Take line 0 of any reached system, live and out of
loopback, and at most as many bytes as a queue can hold. At every moment of a feed of these bytes,
whatever turns others have taken that spare the receiver, what has entered the receive queue is the
part of the input that is no longer offered; it is queued behind what was there, and left the queue
by reads alone. The feed has not failed, and it is done only when the whole input was accepted. An
offer never goes beyond what is left, is the last one if all of it fits, and causes no overrun. More
bytes than a queue can hold are refused and change nothing. -/
theorem fed_without_loss (hs : s.Reached) (hlive : s.table.slot 0 = .live place)
    (hd : s.devices[place]? = some d) (bytes : List UInt8) :
    (d.regs.loopback = false → bytes.length ≤ Fifo.capacity →
      ∀ turns : List Turn, (∀ t ∈ turns, t.spares place = true) →
        let start : Feeding := { fed := .waiting bytes, system := s }
        let f := start.after turns
        let put := start.putBy turns
        ∃ ms, f.Account place d bytes put ms ∧
          d.rx.toList ++ put =
            (chronicle withdrawals d ms).flatMap (·.bytes) ++ (d.after ms).rx.toList ∧
          (f.fed = .done → put = bytes) ∧
          ∀ rest, f.fed = .waiting rest → f.Offers place (d.after ms) rest) ∧
    (Fifo.capacity < bytes.length →
      s.feed bytes false = (.failed (.capacityExceeded bytes.length Fifo.capacity), [], s)) := by
  obtain ⟨d', hattached, -, hserves⟩ := hs.attached hlive
  obtain rfl := Option.some.inj (hattached.device.symm.trans hd)
  refine ⟨fun hloop hn turns hturns => ?_, feed_of_too_long hattached hserves.initialized⟩
  intro start f put
  have hstart : start.Account place d' bytes [] [] :=
    ⟨hs, hattached, ⟨hserves.initialized, hserves.registered, hloop⟩, rfl, by simp, rfl, by simp⟩
  obtain ⟨ms, haccount⟩ : ∃ ms, f.Account place d' bytes put ms := hstart.after hn hturns
  refine ⟨ms, haccount, ?_, fun hdone => ?_, fun rest hfed => haccount.offers hn hfed⟩
  · rw [← haccount.arrived_eq]
    exact conserves_arrived d' ms
  · have hinput := haccount.input_eq
    rw [hdone, Fed.left, List.append_nil] at hinput
    exact hinput.symm

/-- Ten bytes are queued. Of ten more six fit, a second offer is in vain, and the other four follow
once the line was drained. Seventeen are too many. -/
theorem fed_past_a_full_queue :
    let chunk : List UInt8 := [1, 2, 3, 4, 5, 6, 7, 8, 9, 10]
    let s := (empty true).after [.add 0 4, .onLine 0 (.inject chunk)]
    let start : Feeding := { fed := .waiting chunk, system := s }
    let turns : List Turn := [.offer, .offer, .step (.drain 0), .touch 0 .look, .offer]
    (start.after [.offer, .offer]).fed = .waiting [7, 8, 9, 10] ∧
      start.putBy [.offer, .offer] = [1, 2, 3, 4, 5, 6] ∧
      (start.after turns).fed = .done ∧ start.putBy turns = chunk ∧
      s.feed (List.replicate 17 0) false = (.failed (.capacityExceeded 17 16), [], s) := by
  intro chunk s start turns
  have hs : s.Reached := (Reached.empty true).after _
  have hlive : s.table.slot 0 = .live 0 := by decide +kernel
  have hloop : s.devices[0]?.map (·.regs.loopback) = some false := by decide +kernel
  have hhalf : (start.after [.offer, .offer]).fed = .waiting [7, 8, 9, 10] := by decide +kernel
  have hdone : (start.after turns).fed = .done := by decide +kernel
  clear_value s
  obtain ⟨d, hd, hloop⟩ := Option.map_eq_some_iff.mp hloop
  obtain ⟨hfeed, -⟩ := fed_without_loss hs hlive hd chunk
  obtain ⟨-, htoo⟩ := fed_without_loss hs hlive hd (List.replicate 17 0)
  have hfits : chunk.length ≤ Fifo.capacity := by decide
  obtain ⟨ms, haccount, -⟩ := hfeed hloop hfits [.offer, .offer] (by simp [Turn.spares])
  obtain ⟨-, -, -, hall, -⟩ := hfeed hloop hfits turns (by decide)
  refine ⟨hhalf, ?_, hdone, hall hdone, htoo (by decide)⟩
  have hinput := haccount.input_eq
  rw [hhalf] at hinput
  have hsplit : [1, 2, 3, 4, 5, 6] ++ [7, 8, 9, 10] =
      start.putBy [.offer, .offer] ++ [7, 8, 9, 10] := hinput
  exact (List.append_cancel_right hsplit).symm

end EchoSystem

end Uart16550
