import Uart16550.Proofs.Accounting
import Uart16550.Proofs.Delivery
import Uart16550.Proofs.TableRun

/-!
# A removed device stays dead

Whoever holds a device keeps it when its line is removed, and the host may keep its entry too. From
then on the device is retired (`Device.Retired`): it has no consumer, no worker and nothing queued,
and is not initialized. Most operations ask for the last and are refused. Those that do not ask
reach the registers, the flush counters and the sink, and none of these brings a device back; so a
retired device is retired for good, whatever its holders, the table and the host do
(`Device.Retired.run`, `System.retired_perform`).

`Device.Lifeless` lists what this comes to for a holder of the device. What the line is given after
the removal is another device.
-/

namespace Uart16550

variable {η σ : Type}

/-- An event that does not concern a counter leaves it alone. -/
theorem Metrics.value_record_of_weight (m : Metrics) {e : Metrics.Event} {c : Metrics.Counter}
    (h : e.weight c = 0) : (m.record e).value c = m.value c := by
  cases henabled : m.enabled with
  | true => exact (value_record henabled e c).trans (by rw [h]; exact UInt64.add_zero _)
  | false => simp [record, henabled]

namespace Operation

/-- Whether an operation takes a device that is initialized. Binding a consumer does if the
threshold is one that a full queue can reach; another one is refused in any case. -/
def needsLife : Operation σ → Bool
  | .access (.read _) | .access (.write _ _) | .access (.inject _) | .access .signalBreak |
    .unbind | .enableIrq => true
  | .bind threshold _ => decide (0 < threshold ∧ threshold ≤ Fifo.capacity)
  | _ => false

/-- Whether an operation still does something to a device that is not initialized. -/
def outlives : Operation σ → Bool
  | .access .reset | .access (.flush _) | .access .detach | .attach _ | .resetCounters => true
  | _ => false

end Operation

namespace Device

/-! ### Retired devices -/

/-- Without initialization only flushes, resets and the sink are left. -/
theorem effect_of_not_initialized {d : Device σ} (h : d.initialized = false) (a : Access) :
    a.effect d =
      match a with
      | .flush reason => .flushes reason
      | .reset => .resets
      | .detach => .detaches
      | _ => .refused := by
  cases a <;> simp [Access.effect, readEffect, writeEffect, takesInput, h]

/-- A device whose line is gone. -/
structure Retired (d : Device σ) : Prop where
  not_initialized : d.initialized = false
  not_registered : d.registered = false
  consumer_eq : d.consumer = none
  worker_eq : d.worker = .absent
  not_enabled : d.virq.enabled = false
  rx_eq : d.rx.reset = d.rx
  tx_eq : d.tx.reset = d.tx

namespace Retired

variable {d : Device σ}

/-- Registers, sink and counters have no part in it. -/
theorem set (h : d.Retired) (regs : RegisterBank) (sink : Option σ) (metrics : Metrics) :
    ({ d with regs, sink, metrics } : Device σ).Retired :=
  ⟨h.not_initialized, h.not_registered, h.consumer_eq, h.worker_eq, h.not_enabled, h.rx_eq, h.tx_eq⟩

theorem toList_eq (h : d.Retired) : d.rx.toList = [] ∧ d.tx.toList = [] := by
  rw [← h.rx_eq, ← h.tx_eq]
  exact ⟨Fifo.toList_reset _, Fifo.toList_reset _⟩

theorem not_armed (h : d.Retired) : d.isArmed = false := by simp [isArmed, h.worker_eq]

/-- A refresh arms nobody. -/
theorem refresh_eq (h : d.Retired) : d.refresh = { d with regs.iir := d.regs.ident } := by
  have hquiet : (Interrupt.isPending d.regs.ident && d.virq.enabled) = false := by
    rw [h.not_enabled, Bool.and_false]
  rw [refresh, hquiet, Bool.or_false]

theorem reset_eq (h : d.Retired) : ∃ regs, d.reset = { d with regs := regs } := by
  have hsame : ({ d with regs := d.regs.reset, rx := d.rx.reset, tx := d.tx.reset } : Device σ) =
      { d with regs := d.regs.reset } := by rw [h.rx_eq, h.tx_eq]
  have hreset : d.reset = refresh { d with regs := d.regs.reset } := congrArg refresh hsame
  rw [hreset, (h.set d.regs.reset d.sink d.metrics).refresh_eq]
  exact ⟨_, rfl⟩

/-- A flush finds nothing and nobody, but it is counted. -/
theorem flush_eq (h : d.Retired) (reason : FlushReason) :
    d.flush reason = ([], { d with
      regs.lsr := d.regs.lsr.setTransmitterIdle
      metrics := d.metrics.record (.flush reason 0 false) }, []) := by
  simp [flush, h.consumer_eq, h.toList_eq.2, h.tx_eq, record]

/-- Whatever does not outlive the line changes nothing any more. -/
theorem operate_keeps (h : d.Retired) {op : Operation σ} (hop : op.outlives = false) :
    (op.run d).device = d := by
  cases op with
  | access a =>
    have hrun : ((Operation.access a).run d).device = (a.run d).device := rfl
    rw [hrun, a.device_effect, effect_of_not_initialized h.not_initialized]
    cases a with
    | flush reason | reset | detach => cases hop
    | _ => rfl
  | attach sink | resetCounters => cases hop
  | bind threshold label =>
    have hrun : ((Operation.bind threshold label).run d).device = (d.bind threshold label).2 := rfl
    rw [hrun, bind]
    split <;> simp [h.not_initialized]
  | unbind => simp [Operation.run, Outcome.ofResult, unbind, h.not_initialized]
  | enableIrq =>
    simp [Operation.run, Outcome.ofResult, enableIrq, holdsWorker, h.worker_eq, h.not_initialized]
  | disableIrq => simp [Operation.run, Outcome.ofResult, disableIrq, h.worker_eq]
  | irqEnabled | info | counters | report => rfl

theorem run_reset (h : d.Retired) :
    ∃ regs, ((Operation.access .reset).run d).device = { d with regs := regs } :=
  h.reset_eq

theorem run_flush (h : d.Retired) (reason : FlushReason) :
    ∃ regs, ((Operation.access (.flush reason)).run d).device =
      { d with regs := regs, metrics := d.metrics.record (.flush reason 0 false) } := by
  have hrun : ((Operation.access (.flush reason)).run d).device = (d.flush reason).2.1.refresh :=
    rfl
  have hkept : (d.flush reason).2.1.Retired := by
    rw [h.flush_eq]
    exact h.set _ _ _
  rw [hrun, hkept.refresh_eq, h.flush_eq]
  exact ⟨_, rfl⟩

theorem run_attach (h : d.Retired) (sink : σ) :
    ∃ regs, ((Operation.attach sink).run d).device =
      { d with regs := regs, sink := some sink } := by
  have hrun : ((Operation.attach sink).run d).device = refresh { d with sink := some sink } := rfl
  rw [hrun, (h.set d.regs (some sink) d.metrics).refresh_eq]
  exact ⟨_, rfl⟩

/-- **An operation reaches the registers, the sink and the counters** of a retired device, and
nothing else. -/
theorem operate_eq (h : d.Retired) (op : Operation σ) :
    ∃ regs sink metrics, (op.run d).device = { d with regs, sink, metrics } := by
  cases hop : op.outlives with
  | false => exact ⟨d.regs, d.sink, d.metrics, h.operate_keeps hop⟩
  | true =>
    unfold Operation.outlives at hop
    split at hop
    · obtain ⟨regs, hd⟩ := h.run_reset
      exact ⟨regs, _, _, hd⟩
    · obtain ⟨regs, hd⟩ := h.run_flush _
      exact ⟨regs, _, _, hd⟩
    · exact ⟨_, none, _, rfl⟩
    · obtain ⟨regs, hd⟩ := h.run_attach _
      exact ⟨regs, _, _, hd⟩
    · exact ⟨_, _, _, rfl⟩
    · cases hop

/-- **A retired device stays retired**, whatever is done to it by anybody but the table. -/
theorem run (h : d.Retired) {m : Move σ} (hm : m.ofHolder = true) : (m.run d).Retired := by
  cases m with
  | operate op =>
    have hrun : (Move.operate op).run d = (op.run d).device := rfl
    obtain ⟨regs, sink, metrics, hd⟩ := h.operate_eq op
    rw [hrun, hd]
    exact h.set regs sink metrics
  | look => simpa [Move.run, h.not_armed] using h
  | crashed => simpa [Move.run, h.worker_eq] using h
  | advance sink => exact h.set _ _ _
  | handled => exact h.set _ _ _
  | list registered | release => cases hm

/-- Nobody is called on behalf of a retired device. -/
theorem quiet (h : d.Retired) (m : Move σ) :
    m.flushes d = [] ∧ ∀ line iir, .delivered line iir ∉ m.notices d := by
  refine ⟨?_, fun line iir hmem => ?_⟩
  · rw [calls_move, List.filterMap_eq_nil_iff]
    intro x hx
    cases m with
    | operate op =>
      cases op with
      | access a =>
        simp only [departures, effect_of_not_initialized h.not_initialized a] at hx
        cases a <;> simp_all [Effect.departures, flushDeparture, Departure.call?, h.consumer_eq]
      | _ => cases hx
    | release =>
      obtain rfl := List.mem_singleton.mp hx
      rfl
    | _ => cases hx
  · obtain ⟨-, harmed, -⟩ := look_of_delivered hmem
    rw [h.not_armed] at harmed
    cases harmed

end Retired

/-- **A device is retired as its line goes**, if the two places in which its worker is held
agree. -/
theorem retired_dismantle {d : Device σ} (h : d.virq.enabled = d.holdsWorker) :
    d.dismantle.Retired := by
  have hvirq : d.disableIrq.2.virq.enabled = false := by
    rcases d.disableIrq_cases with ⟨habsent, hd⟩ | ⟨-, hd⟩ <;> rw [hd]
    rw [h, holdsWorker, habsent]
    rfl
  rw [dismantle_eq]
  exact ⟨rfl, rfl, rfl, d.worker_disableIrq, hvirq, rfl, rfl⟩

/-- With no worker, a step is its operation alone, and nobody is called. -/
theorem Retired.step_eq {d : Device ScriptedSink} (h : d.Retired) (op : Operation ScriptedSink) :
    d.step op =
      { reply := (op.run d).reply, device := (op.run d).device, flushes := [], deliveries := [] } := by
  have hretired : (op.run d).device.Retired := h.run (m := .operate op) rfl
  have hflushes : (op.run d).flushes = [] := (h.quiet (.operate op)).1
  simp only [step, settle, settleWithin_of_idle hretired.not_armed, hflushes, List.append_nil]

theorem Retired.dismantle {d : Device σ} (h : d.Retired) : d.dismantle.Retired :=
  retired_dismantle (by simp [h.not_enabled, holdsWorker, h.worker_eq])

/-! ### What its holders are left with -/

/-- What a holder can see of a dead device and do to it. -/
structure Lifeless (d : Device σ) : Prop where
  snapshot_eq : d.snapshot.initialized = false ∧ d.snapshot.registered = false ∧
    d.snapshot.consumerBound = false ∧ d.snapshot.virqEnabled = false
  queues_eq : d.rx.toList = [] ∧ d.tx.toList = []
  -- What it is asked for, it refuses.
  refused {op : Operation σ} : op.needsLife = true →
    (op.run d).reply = .failed (.notInitialized d.line)
  disableIrq_eq : (Operation.disableIrq.run d).reply = .failed (.virtualIrqNotEnabled d.line)
  input_eq (offset : UInt8) : ((Operation.access (.input offset)).run d).reply = .byte 0
  -- Nobody is called on its behalf.
  quiet (m : Move σ) : m.flushes d = [] ∧ ∀ line iir, .delivered line iir ∉ m.notices d
  -- What still acts on it, and on what.
  unchanged {op : Operation σ} : op.outlives = false → (op.run d).device = d
  reset_eq : ∃ regs, ((Operation.access .reset).run d).device = { d with regs := regs }
  flush_eq (reason : FlushReason) : ∃ regs metrics,
    ((Operation.access (.flush reason)).run d).device =
      { d with regs := regs, metrics := metrics } ∧
    metrics.enabled = d.metrics.enabled ∧
    ∀ c, c ≠ .flushes reason → metrics.value c = d.metrics.value c
  attach_eq (sink : σ) : ∃ regs,
    ((Operation.attach sink).run d).device = { d with regs := regs, sink := some sink }
  detach_eq : ((Operation.access .detach).run d).device = { d with sink := none }
  resetCounters_eq : (Operation.resetCounters.run d).device =
    { d with metrics := d.metrics.reset }

theorem Retired.refused {d : Device σ} (h : d.Retired) {op : Operation σ}
    (hop : op.needsLife = true) : (op.run d).reply = .failed (.notInitialized d.line) := by
  cases op with
  | access a =>
    cases a with
    | read offset | write offset value | inject bytes | signalBreak =>
      simp [Operation.run, Access.run, Outcome.ofResult, Reply.ofExcept, read, write, inject,
        signalBreak, h.not_initialized]
    | _ => cases hop
  | bind threshold label =>
    have hpossible : 0 < threshold ∧ threshold ≤ Fifo.capacity := of_decide_eq_true hop
    simp [Operation.run, Outcome.ofResult, Reply.ofExcept, bind, Consumer.make, hpossible,
      h.not_initialized]
  | unbind => simp [Operation.run, Outcome.ofResult, Reply.ofExcept, unbind, h.not_initialized]
  | enableIrq =>
    simp [Operation.run, Outcome.ofResult, Reply.ofExcept, enableIrq, holdsWorker, h.worker_eq,
      h.not_initialized]
  | _ => cases hop

theorem Retired.lifeless {d : Device σ} (h : d.Retired) : d.Lifeless where
  snapshot_eq := ⟨h.not_initialized, h.not_registered, by simp [snapshot, h.consumer_eq],
    h.not_enabled⟩
  queues_eq := h.toList_eq
  refused := h.refused
  disableIrq_eq := by
    simp [Operation.run, Outcome.ofResult, Reply.ofExcept, disableIrq, h.worker_eq]
  input_eq offset := by simp [Operation.run, Access.run, input, read, h.not_initialized]
  quiet := h.quiet
  unchanged := h.operate_keeps
  reset_eq := h.run_reset
  flush_eq reason := by
    obtain ⟨regs, hd⟩ := h.run_flush reason
    refine ⟨regs, _, hd, d.metrics.enabled_record _, fun c hc => ?_⟩
    refine d.metrics.value_record_of_weight ?_
    cases c with
    | flushes other =>
      have hne : reason ≠ other := fun heq => hc (heq ▸ rfl)
      simp [Metrics.Event.weight, hne]
    | _ => simp [Metrics.Event.weight]
  attach_eq := h.run_attach
  detach_eq := rfl
  resetCounters_eq := rfl

end Device

namespace System

open Device (Move)

/-! ### What every device of a system has -/

/-- What every move keeps, the devices of a list keep as one of them moves. -/
theorem forall_modify {P : Device σ → Prop} {ds : List (Device σ)} (h : ∀ d ∈ ds, P d)
    {place : Nat} {f : Device σ → Device σ} (hf : ∀ d, P d → P (f d)) :
    ∀ d ∈ ds.modify place f, P d := by
  intro e he
  obtain ⟨other, hother⟩ := List.mem_iff_getElem?.mp he
  rw [List.getElem?_modify] at hother
  obtain ⟨d, hd, rfl⟩ := Option.map_eq_some_iff.mp hother
  have hold : P d := h d (List.mem_of_getElem? hd)
  split
  · exact hf d hold
  · exact hold

variable [Host η]

theorem reachable_add {s : System η σ} (h : ∀ d ∈ s.devices, d.Reachable) (line : UInt8) :
    ∀ d ∈ (s.add line).2.devices, d.Reachable := by
  rcases s.add_cases line with
    ⟨⟨e, ha⟩, -⟩ | ⟨info, -, -, ⟨e, -, ha⟩ | ⟨-, ha⟩⟩ <;> rw [ha]
  · exact h
  · exact h
  · refine List.forall_mem_append.mpr ⟨h, List.forall_mem_singleton.mpr ?_⟩
    exact ⟨info, s.table.counting, [.list true], rfl⟩

theorem reachable_removeAmid {s : System η σ} (h : ∀ d ∈ s.devices, d.Reachable) (line : UInt8)
    (requests : List UInt8) : ∀ d ∈ (s.removeAmid line requests).devices, d.Reachable := by
  by_cases hlive : ∃ device, s.table.slot line = .live device
  · obtain ⟨device, hs⟩ := hlive
    obtain ⟨info, hi, -⟩ := delisting?_of_live hs
    simp only [removeAmid, hs, vacate, releaseDevice, modify]
    refine forall_modify ?_ fun d hd => hd.after [.release]
    rw [amid_of_live hs hi]
    refine addAll_of_keeps (P := fun s => ∀ d ∈ s.devices, d.Reachable)
      (fun _ line hs => reachable_add hs line) ?_ requests
    rw [devices_cutOffLine]
    exact forall_modify h fun d hd => hd.after [.operate .disableIrq, .list false]
  · rw [removeAmid_of_not_live (not_exists.mp hlive)]
    exact h

theorem reachable_perform (s : System η σ) (act : Act η σ) (h : ∀ d ∈ s.devices, d.Reachable) :
    ∀ d ∈ (s.perform act).devices, d.Reachable := by
  cases act with
  | add line => exact reachable_add h line
  | remove line =>
    rw [perform, remove, system_removeWith]
    exact reachable_removeAmid h line _
  | removeAmid line requests => exact reachable_removeAmid h line requests
  | drop =>
    rw [perform, removeAll_eq]
    generalize s.table.lines = lines
    induction lines generalizing s with
    | nil => exact h
    | cons line lines ih => exact ih _ (reachable_removeAmid h line [])
  | change f => exact h
  | touch device m =>
    simp only [perform]
    split
    · exact forall_modify h fun d hd => hd.after [m]
    · exact h

/-- **Every device of a run is reachable.** -/
theorem reachable_after (host : η) (counting : Bool) (acts : List (Act η σ)) :
    ∀ d ∈ ((System.empty host counting : System η σ).after acts).devices, d.Reachable := by
  refine after_of_keeps (P := fun s => ∀ d ∈ s.devices, d.Reachable) reachable_perform ?_ acts
  simp [System.empty]

/-! ### Retired for good -/

/-- The device at a place is retired. -/
def RetiredAt (s : System η σ) (place : Nat) : Prop :=
  ∃ d, s.devices[place]? = some d ∧ d.Retired

/-- **A retired device stays retired**, whatever is done to it, to the table and by the host. -/
theorem retired_perform {place : Nat} (s : System η σ) (act : Act η σ) (h : s.RetiredAt place) :
    (s.perform act).RetiredAt place := by
  obtain ⟨d, hd, hretired⟩ := h
  have hremoved : ∀ line requests, (s.removeAmid line requests).RetiredAt place :=
    fun line requests => by
      by_cases hlive : ∃ device, s.table.slot line = .live device
      · obtain ⟨device, hs⟩ := hlive
        refine ⟨_, getElem?_removeAmid hs requests hd, ?_⟩
        split
        · exact hretired.dismantle
        · exact hretired
      · rw [removeAmid_of_not_live (not_exists.mp hlive)]
        exact ⟨d, hd, hretired⟩
  cases act with
  | add line => exact ⟨d, (s.add_keeps line).1 hd, hretired⟩
  | remove line =>
    rw [perform, remove, system_removeWith]
    exact hremoved line _
  | removeAmid line requests => exact hremoved line requests
  | drop =>
    refine ⟨_, getElem?_removeAll hd, ?_⟩
    split
    · exact hretired.dismantle
    · exact hretired
  | change f => exact ⟨d, hd, hretired⟩
  | touch device m =>
    simp only [perform]
    split
    · next hm =>
      refine ⟨if device = place then m.run d else d, ?_, ?_⟩
      · simp [modify, List.getElem?_modify, hd]
      · split
        · exact hretired.run hm
        · exact hretired
    · exact ⟨d, hd, hretired⟩

/-- The removal of a live line, whatever the host has added in the middle of it, retires its
device. -/
theorem retired_removeAmid {s : System η σ} (hreachable : ∀ d ∈ s.devices, d.Reachable)
    {line : UInt8} {device : Nat} (hs : s.table.slot line = .live device)
    (hdevice : device < s.devices.length) (requests : List UInt8) :
    (s.removeAmid line requests).RetiredAt device := by
  have hd : s.devices[device]? = some s.devices[device] := List.getElem?_eq_getElem hdevice
  have hhoused : s.devices[device].Housed :=
    (hreachable _ (List.getElem_mem hdevice)).induction Device.housed_create Device.housed_move
  refine ⟨_, getElem?_removeAmid hs requests hd, ?_⟩
  rw [if_pos rfl]
  exact Device.retired_dismantle hhoused.enabled_eq

/-- A device that was removed: it is lifeless, no line refers to it, and whatever is done to it is
done to nothing else. -/
structure Abandoned (s : System η σ) (device : Nat) : Prop where
  lifeless : ∃ d, s.devices[device]? = some d ∧ d.Lifeless
  unaddressed (line : UInt8) : s.table.slot line ≠ .live device
  apart (m : Move σ) : (s.perform (.touch device m)).table = s.table ∧
    (s.perform (.touch device m)).host = s.host ∧
    ∀ place, place ≠ device →
      (s.perform (.touch device m)).devices[place]? = s.devices[place]?

theorem RetiredAt.abandoned {s : System η σ} {device : Nat} (h : s.RetiredAt device)
    (hkept : s.Kept none) : s.Abandoned device := by
  obtain ⟨d, hd, hretired⟩ := h
  refine ⟨⟨d, hd, hretired.lifeless⟩, fun line hs => ?_, fun m => ?_⟩
  · obtain ⟨e, he, hserves⟩ := hkept.live hs
    obtain rfl := Option.some.inj (he.symm.trans hd)
    have hup := hserves.initialized
    rw [hretired.not_initialized] at hup
    cases hup
  · simp only [perform]
    split
    · exact ⟨rfl, rfl, fun place hne => by simp [modify, Ne.symm hne]⟩
    · exact ⟨rfl, rfl, fun _ _ => rfl⟩

/-- After the removal of a live line its device is abandoned for good. -/
theorem abandoned_after (host : η) (counting : Bool) {earlier : List (Act η σ)} {line : UInt8}
    {device : Nat}
    (hs : ((System.empty host counting).after earlier).table.slot line = .live device)
    (requests : List UInt8) (later : List (Act η σ)) :
    ((((System.empty host counting).after earlier).removeAmid line requests).after
      later).Abandoned device := by
  have hkept : ((System.empty host counting).after earlier : System η σ).Kept none :=
    after_of_keeps kept_perform (kept_empty host counting) earlier
  obtain ⟨d, hd, -⟩ := hkept.live hs
  obtain ⟨hdevice, -⟩ := List.getElem?_eq_some_iff.mp hd
  have hretired := retired_removeAmid (reachable_after host counting earlier) hs hdevice requests
  refine RetiredAt.abandoned ?_ (after_of_keeps kept_perform (kept_removeAmid hkept line _) later)
  exact after_of_keeps (P := fun s => s.RetiredAt device) retired_perform hretired later

/-! ### Lines have devices -/

/-- Whatever a live line refers to is there. -/
def Placed (s : System η σ) : Prop :=
  ∀ line place, s.table.slot line = .live place → place < s.devices.length

omit [Host η] in
theorem Placed.of_le {s t : System η σ} (h : s.Placed)
    (hlive : ∀ line place, t.table.slot line = .live place → s.table.slot line = .live place)
    (hlength : s.devices.length ≤ t.devices.length) : t.Placed :=
  fun line place hs => Nat.lt_of_lt_of_le (h line place (hlive line place hs)) hlength

theorem placed_add {s : System η σ} (h : s.Placed) (line : UInt8) : (s.add line).2.Placed := by
  rcases s.add_cases line with
    ⟨⟨e, ha⟩, -⟩ | ⟨info, hi, -, ⟨e, -, ha⟩ | ⟨-, ha⟩⟩ <;> rw [ha]
  · exact h
  · exact h
  · have hlt : line.toNat < lineCount := LineInfo.ofLine_eq_ok_iff.mp ⟨info, hi⟩
    intro other place ho
    simp only [LineTable.slot_put _ hlt] at ho
    simp only [List.length_append, List.length_singleton]
    split at ho
    · cases ho
      exact Nat.lt_succ_self _
    · exact Nat.lt_succ_of_lt (h other place ho)

/-- A property of the lines of a system that outlasts them: it is kept as lines go and devices come,
and as a line is added. -/
structure Lasting (P : System η σ → Prop) : Prop where
  of_le {s t : System η σ} : P s →
    (∀ line place, t.table.slot line = .live place → s.table.slot line = .live place) →
    s.devices.length ≤ t.devices.length → P t
  add {s : System η σ} : P s → ∀ line, P (s.add line).2

theorem lasting_placed : Lasting (Placed : System η σ → Prop) where
  of_le h := h.of_le
  add h := placed_add h

theorem Lasting.removeAmid {P : System η σ → Prop} (hlasting : Lasting P) {s : System η σ}
    (h : P s) (line : UInt8) (requests : List UInt8) : P (s.removeAmid line requests) := by
  by_cases hlive : ∃ device, s.table.slot line = .live device
  · obtain ⟨device, hs⟩ := hlive
    obtain ⟨info, hi, -⟩ := delisting?_of_live hs
    have hlt : line.toNat < lineCount := LineTable.toNat_lt_of_slot_ne (by rw [hs]; simp)
    have hamid : P (s.amid line requests) := by
      rw [amid_of_live hs hi]
      refine addAll_of_keeps (P := P) (fun _ line hs => hlasting.add hs line) ?_ requests
      refine hlasting.of_le h (fun other place ho => ?_) (by simp [devices_cutOffLine])
      simp only [table_cutOffLine, LineTable.slot_put _ hlt] at ho
      split at ho
      · cases ho
      · exact ho
    simp only [System.removeAmid, hs]
    refine hlasting.of_le hamid (fun other place ho => ?_)
      (by simp [vacate, releaseDevice, modify])
    simp only [vacate, LineTable.slot_vacate] at ho
    split at ho
    · cases ho
    · exact ho
  · rw [removeAmid_of_not_live (not_exists.mp hlive)]
    exact h

theorem Lasting.removeAll {P : System η σ → Prop} (hlasting : Lasting P) {s : System η σ}
    (h : P s) : P s.removeAll := by
  rw [removeAll_eq]
  generalize s.table.lines = lines
  induction lines generalizing s with
  | nil => exact h
  | cons line lines ih => exact ih (hlasting.removeAmid h line [])

end System

namespace Session

variable {s : Session} {place : Nat} {P : System RecordingHost ScriptedSink → Prop}

/-- An operation leaves the lines alone. -/
theorem lasting_operate (hlasting : System.Lasting P) (h : P s.system) (device : Nat)
    (op : Operation ScriptedSink) : P (s.operate device op).2.system := by
  simp only [operate]
  split
  · exact hlasting.of_le h (fun _ _ ho => ho) (by simp [System.modify])
  · exact h

theorem lasting_operateListed (hlasting : System.Lasting P) (h : P s.system) (line : UInt8)
    (op : Operation ScriptedSink) : P (s.operateListed line op).2.system := by
  cases hfind : s.system.host.find? line with
  | none => simpa only [operateListed, hfind] using h
  | some device =>
    rw [(operateListed_of_some hfind op).1]
    exact lasting_operate hlasting h device op

theorem lasting_step (hlasting : System.Lasting P) (h : P s.system) (st : Step) :
    P (s.step st).2.system := by
  cases st with
  | table t =>
    simp only [step]
    split
    · exact h
    · cases t with
      | add line => exact hlasting.add h line
      | remove line =>
        simp only [stepTable, System.remove, System.system_removeWith]
        exact hlasting.removeAmid h line _
      | drop => exact hlasting.removeAll h
      | onLine line op =>
        simp only [stepTable]
        split
        · exact lasting_operate hlasting h _ op
        · exact h
      | lines | isAllocated => exact h
  | host t =>
    cases t with
    | input line offset => exact lasting_operateListed hlasting h line _
    | output line offset value => exact lasting_operateListed hlasting h line _
    | _ => exact hlasting.of_le h (fun _ _ ho => ho) (Nat.le_refl _)
  | create info counting => exact hlasting.of_le h (fun _ _ ho => ho) (by simp [step])
  | onHandle handle op =>
    simp only [step]
    split
    · exact h
    · exact lasting_operate hlasting h handle op
  | letGo handle =>
    simp only [step]
    split <;> exact h

/-- **What outlasts lines and holds without any holds in every session.** -/
theorem lasting_after (hlasting : System.Lasting P)
    (hempty : ∀ s : System RecordingHost ScriptedSink,
      (∀ line place, s.table.slot line ≠ .live place) → P s)
    (counting : Bool) (steps : List Step) : P ((empty counting).after steps).system := by
  have key : ∀ {s : Session}, P s.system → P (s.after steps).system := by
    induction steps with
    | nil => exact fun h => h
    | cons st steps ih => exact fun h => ih (lasting_step hlasting h st)
  refine key (hempty _ fun line place => ?_)
  simp [empty, System.empty, LineTable.empty, LineTable.slot]

/-- In a session every live line has a device. -/
theorem placed_after_empty (counting : Bool) (steps : List Step) :
    ((empty counting).after steps).system.Placed :=
  lasting_after System.lasting_placed (fun _ hnone line place hs => absurd hs (hnone line place))
    counting steps

/-- The removal of a live line retires its device. -/
theorem retired_remove {counting : Bool} {steps : List Step} {line : UInt8}
    (h : ((empty counting).after steps).live? line = some place) :
    (((empty counting).after steps).step (.table (.remove line))).2.system.RetiredAt place := by
  generalize hs : (empty counting).after steps = s at h ⊢
  have hpresent : s.tableGone = false := by
    by_contra hgone
    simp [live?, hgone] at h
  have hslot : s.system.table.slot line = .live place := by
    rw [live?, hpresent] at h
    exact System.live?_eq_some_iff.mp h
  have hreachable : ∀ d ∈ s.system.devices, d.Reachable := by
    rw [← hs]
    exact fun d hd => reachable_of_mem hd
  have hplaced : s.system.Placed := hs ▸ placed_after_empty counting steps
  rw [step_table_of_present hpresent]
  simp only [stepTable, System.remove, System.system_removeWith]
  exact System.retired_removeAmid hreachable hslot (hplaced line place hslot) _

/-- A retired device stays retired in a session, too. -/
theorem retired_step (h : s.system.RetiredAt place) (st : Step) :
    (s.step st).2.system.RetiredAt place := by
  obtain ⟨d, hd, hretired⟩ := h
  cases haim : s.aim st with
  | none =>
    refine ⟨_, getElem?_step_unaimed haim hd, ?_⟩
    split
    · exact hretired.dismantle
    · exact hretired
  | some x =>
    obtain ⟨aimed, op⟩ := x
    obtain ⟨d', hd', hdevices, -⟩ := step_aimed haim
    by_cases hplace : aimed = place
    · subst hplace
      obtain rfl := Option.some.inj (hd'.symm.trans hd)
      refine ⟨(d'.step op).device, by simp [hdevices, hd], ?_⟩
      rw [hretired.step_eq]
      exact hretired.run (m := .operate op) rfl
    · exact ⟨d, by simp [hdevices, hplace, hd], hretired⟩

theorem retired_after (h : s.system.RetiredAt place) (steps : List Step) :
    (s.after steps).system.RetiredAt place := by
  induction steps generalizing s with
  | nil => exact h
  | cons st steps ih => exact ih (retired_step h st)

/-- What a session makes of a device that was removed: it is lifeless, a step aimed at it is the
operation alone, nothing is delivered for it, and no line is given it again. -/
structure Abandoned (s : Session) (place : Nat) (d : Device ScriptedSink) : Prop where
  device_eq : s.system.devices[place]? = some d
  lifeless : d.Lifeless
  aimed {st : Step} {op : Operation ScriptedSink} : s.aim st = some (place, op) →
    (s.step st).1.result = .reply (op.run d).reply ∧
      (s.step st).1.flushes = [] ∧ (s.step st).1.deliveries = [] ∧
      (s.step st).2.system.devices =
        s.system.devices.modify place fun _ => (op.run d).device
  undelivered (st : Step) : ∀ line iir, .delivered line iir ∉ s.told place st
  unassigned {line : UInt8} {new : Nat} :
    (s.step (.table (.add line))).1.result = .handle (.ok new) → new ≠ place

theorem abandoned_of_retired (h : s.system.RetiredAt place) : ∃ d, s.Abandoned place d := by
  obtain ⟨d, hd, hretired⟩ := h
  have haimed : ∀ {st : Step} {op : Operation ScriptedSink}, s.aim st = some (place, op) →
      (s.step st).1.result = .reply (op.run d).reply ∧
        (s.step st).1.flushes = [] ∧ (s.step st).1.deliveries = [] ∧
        (s.step st).2.system.devices =
          s.system.devices.modify place fun _ => (op.run d).device := fun haim => by
    obtain ⟨d', hd', hdevices, hresult, hflushes, hdeliveries⟩ := step_aimed haim
    obtain rfl := Option.some.inj (hd'.symm.trans hd)
    rw [hretired.step_eq] at hdevices hresult hflushes hdeliveries
    exact ⟨hresult, hflushes, hdeliveries, hdevices⟩
  refine ⟨d, hd, hretired.lifeless, haimed, fun st line iir hmem => ?_, fun {line new} hadded => ?_⟩
  · cases haim : s.aim st with
    | none => simp [told, haim] at hmem
    | some x =>
      obtain ⟨aimed, op⟩ := x
      by_cases hplace : aimed = place
      · subst hplace
        obtain ⟨hresult, -, hdeliveries, -⟩ := haimed haim
        simp only [told, haim, hresult, hdeliveries, if_true, List.map_nil, List.append_nil] at hmem
        exact (hretired.quiet (.operate op)).2 line iir hmem
      · obtain ⟨_, -, -, hresult, -⟩ := step_aimed haim
        simp only [told, haim, hresult, hplace, if_false] at hmem
        cases hmem
  · obtain ⟨hlt, -⟩ := List.getElem?_eq_some_iff.mp hd
    simp only [step] at hadded
    split at hadded
    · cases hadded
    · rcases s.system.add_cases line with
        ⟨⟨e, ha⟩, -⟩ | ⟨info, -, -, ⟨e, -, ha⟩ | ⟨-, ha⟩⟩ <;>
        simp only [stepTable, ha, Result.handle.injEq, reduceCtorEq, Except.ok.injEq] at hadded
      exact fun heq => Nat.ne_of_gt hlt (hadded.trans heq)

end Session

/-- **A removed device stays dead.** Once a live line was removed, whatever the host had added in
the middle of it and whether or not there was a failure, its device is abandoned for good: whatever
is done later, to the device, to the table and by the host, it refuses what takes an initialized
device, calls nobody, shows none of its flags and has nothing queued; only a reset, a flush and
attaching or detaching a sink still act on it, on its registers, its flush counters and its sink.
No line refers to it, so the device that a line is given later is another, and nothing that is done
to the old one reaches it. In a session all of this can be told from the answers. -/
theorem abandoned_of_removed :
    (∀ {η σ : Type} [Host η] (host : η) (counting : Bool) (earlier later : List (System.Act η σ))
      (line : UInt8) (device : Nat) (removal : System.Act η σ),
      let s := (System.empty host counting).after earlier
      s.table.slot line = .live device →
      (removal = .remove line ∨ ∃ requests, removal = .removeAmid line requests) →
      ((s.perform removal).after later).Abandoned device) ∧
    ∀ counting earlier later line place,
      let s := (Session.empty counting).after earlier
      s.live? line = some place →
      ∃ d, ((s.step (.table (.remove line))).2.after later).Abandoned place d := by
  refine ⟨fun {η σ} _ host counting earlier later line device removal => ?_,
    fun counting earlier later line place => ?_⟩
  · rintro s hs (rfl | ⟨requests, rfl⟩)
    · rw [System.perform, System.remove, System.system_removeWith]
      exact System.abandoned_after host counting hs _ later
    · exact System.abandoned_after host counting hs requests later
  · intro s hlive
    exact Session.abandoned_of_retired (Session.retired_after (Session.retired_remove hlive) later)

/-- Line 0 is removed, and as the host delists it line 1 is added; then line 0 is added once more.
It has another device, and the old one stays dead. So it is in a session in which the old device had
a consumer, a sink and a worker, and is attached and reset again. -/
theorem abandoned_of_readded :
    let s : System RecordingHost Unit := (System.empty {} true).after [.add 0]
    let t := (s.perform (.removeAmid 0 [1])).after [.add 0]
    let before : List Session.Step := [
      .table (.add 0), .onHandle 0 (.bind 1 "tty"), .onHandle 0 (.attach [[]]),
      .onHandle 0 .enableIrq]
    let later : List Session.Step := [
      .table (.add 0), .onHandle 0 (.attach [[]]), .onHandle 0 (.access .reset)]
    let u := (((Session.empty true).after before).step (.table (.remove 0))).2.after later
    t.Abandoned 0 ∧ t.table.slot 0 = .live 2 ∧
      u.live? 0 = some 1 ∧ ∃ d, u.Abandoned 0 d ∧
        ((Operation.access (.read Offset.data)).run d).reply = .failed (.notInitialized d.line) := by
  intro s t before later u
  have hslots : s.table.slot 0 = .live 0 ∧ t.table.slot 0 = .live 2 := by decide +kernel
  have hlive : ((Session.empty true).after before).live? 0 = some 0 := by decide +kernel
  have hnew : u.live? 0 = some 1 := by decide +kernel
  obtain ⟨hsystem, hsession⟩ := abandoned_of_removed
  have hold : t.Abandoned 0 :=
    hsystem (η := RecordingHost) (σ := Unit) {} true [.add 0] [.add 0] 0 0 (.removeAmid 0 [1])
      hslots.1 (Or.inr ⟨[1], rfl⟩)
  obtain ⟨d, hd⟩ := hsession true before later 0 0 hlive
  exact ⟨hold, hslots.2, hnew, d, hd, hd.lifeless.refused rfl⟩

end Uart16550
