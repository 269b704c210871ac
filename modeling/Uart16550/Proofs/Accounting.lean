import Mathlib.Algebra.Ring.Nat
import Uart16550.Proofs.LineErrors
import Uart16550.Proofs.Reception
import Uart16550.Proofs.WorkerCourse

/-!
# The counters account for every event

Counters are bumped in many places, on the way of a byte into a queue and out of it, at a refused
access, by the worker. `Device.happened` says of each counter what it stands for, as a number read
off the history of the device: the calls of consumers, the queues that departed, the bytes that
arrived and those that were lost, the accesses that no register answered, the deliveries that ended,
the looks of the worker in vain. None of these histories mentions a counter.

`Device.metrics_run` says of every move which events it counts, put together from what it notes in
these histories; a run then counts what has happened (`Device.value_after`). In a session a
delivery ends exactly if the script of the sink does not crash (`Session.interrupts_log`).
-/

namespace Uart16550

/-! ### Counters -/

namespace Metrics

/-- One of the counters of a device. -/
inductive Counter where
  | txBytes
  | txDiscarded
  | rxBytes
  | flushes (reason : FlushReason)
  | overruns
  | protocolErrors
  | interrupts
  | spuriousWakeups
  deriving DecidableEq, Repr

/-- What a counter shows. -/
def value (m : Metrics) : Counter → UInt64
  | .txBytes => m.txBytes
  | .txDiscarded => m.txDiscarded
  | .rxBytes => m.rxBytes
  | .flushes reason => m.flushes reason
  | .overruns => m.overruns
  | .protocolErrors => m.protocolErrors
  | .interrupts => m.interrupts
  | .spuriousWakeups => m.spuriousWakeups

/-- By how much an event moves a counter. -/
def Event.weight (c : Counter) : Event → Nat
  | .flush reason bytes delivered =>
    match c with
    | .txBytes => if delivered then bytes else 0
    | .txDiscarded => if delivered then 0 else bytes
    | .flushes reason' => if reason = reason' then 1 else 0
    | _ => 0
  | .received bytes => if c = .rxBytes then bytes else 0
  | .overrun => if c = .overruns then 1 else 0
  | .protocolError => if c = .protocolErrors then 1 else 0
  | .interrupt => if c = .interrupts then 1 else 0
  | .spuriousWakeup => if c = .spuriousWakeups then 1 else 0

/-- By how much a list of events moves a counter. -/
def total (c : Counter) (es : List Event) : Nat := (es.map (Event.weight c)).sum

@[simp] theorem total_nil (c : Counter) : total c [] = 0 := rfl

@[simp] theorem total_singleton (c : Counter) (e : Event) : total c [e] = e.weight c := by
  simp [total]

theorem total_cons (c : Counter) (e : Event) (es : List Event) :
    total c (e :: es) = e.weight c + total c es := by
  simp [total]

@[simp] theorem total_append (c : Counter) (es fs : List Event) :
    total c (es ++ fs) = total c es + total c fs := by
  simp [total]

theorem enabled_record (m : Metrics) (e : Event) : (m.record e).enabled = m.enabled := by
  simp only [record]
  split
  · cases e with
    | flush reason bytes delivered => cases delivered <;> cases reason <;> rfl
    | _ => rfl
  · rfl

theorem enabled_recordAll (m : Metrics) (es : List Event) :
    (m.recordAll es).enabled = m.enabled := by
  induction es generalizing m with
  | nil => rfl
  | cons e es ih => exact (ih (m.record e)).trans (m.enabled_record e)

/-- Without counting, nothing is counted. -/
theorem recordAll_of_disabled {m : Metrics} (h : m.enabled = false) (es : List Event) :
    m.recordAll es = m := by
  induction es with
  | nil => rfl
  | cons e es ih =>
    have hrecord : m.record e = m := by simp [record, h]
    rw [recordAll, List.foldl_cons, hrecord]
    exact ih

theorem value_zero (enabled : Bool) (c : Counter) : (zero enabled).value c = 0 := by
  cases c with
  | flushes reason => cases reason <;> rfl
  | _ => rfl

theorem value_record {m : Metrics} (h : m.enabled = true) (e : Event) (c : Counter) :
    (m.record e).value c = m.value c + .ofNat (e.weight c) := by
  simp only [record, h, if_true]
  cases e with
  | flush reason bytes delivered =>
    cases c with
    | flushes reason' =>
      cases delivered <;> cases reason <;> cases reason' <;>
        simp [count, countReason, value, flushes, Event.weight]
    | _ =>
      cases delivered <;> cases reason <;> simp [count, countReason, value, Event.weight]
  | _ =>
    cases c with
    | flushes reason' => cases reason' <;> simp [count, value, flushes, Event.weight]
    | _ => simp [count, value, Event.weight]

theorem value_recordAll {m : Metrics} (h : m.enabled = true) (es : List Event) (c : Counter) :
    (m.recordAll es).value c = m.value c + .ofNat (total c es) := by
  induction es generalizing m with
  | nil => simp [recordAll]
  | cons e es ih =>
    have hrest := ih ((m.enabled_record e).trans h)
    rw [recordAll, List.foldl_cons]
    rw [recordAll] at hrest
    rw [hrest, value_record h, total_cons, UInt64.ofNat_add, UInt64.add_assoc]

end Metrics

open Metrics (Event Counter total)

variable {σ : Type}

namespace Device

/-! ### What has happened -/

/-- Whether a departure was made by a flush that found no consumer. -/
def Departure.isDiscarded (x : Departure) : Bool :=
  match x.route with
  | .discarded _ => true
  | .consumed _ _ | .cleared | .reset | .released => false

/-- Whether a departure was made by a flush for a reason, consumer or not. -/
def Departure.isFlush (reason : FlushReason) (x : Departure) : Bool :=
  match x.route with
  | .consumed _ r | .discarded r => r == reason
  | .cleared | .reset | .released => false

/-- Whether an access has failed because no register answers it. -/
def unanswered {α : Type} : Except Error α → Bool
  | .error (.undefinedRegister _) | .error (.readOnlyRegister _) => true
  | _ => false

/-- An offset is not resolved only because no register answers it. -/
theorem unanswered_readDecode {offset : UInt8} {divisorAccess : Bool} {e : Error}
    (h : ReadRegister.decode offset divisorAccess = .error e) {α : Type} :
    unanswered (.error e : Except Error α) = true := by
  unfold ReadRegister.decode at h
  split at h <;> cases h
  rfl

theorem unanswered_writeDecode {offset : UInt8} {divisorAccess : Bool} {e : Error}
    (h : WriteRegister.decode offset divisorAccess = .error e) {α : Type} :
    unanswered (.error e : Except Error α) = true := by
  unfold WriteRegister.decode at h
  split at h <;> cases h <;> rfl

/-- Whether a move is a register access that no register answers. -/
def misses (d : Device σ) : Move σ → Bool
  | .operate (.access (.read offset)) | .operate (.access (.input offset)) =>
    unanswered (d.read offset).1
  | .operate (.access (.write offset value)) | .operate (.access (.output offset value)) =>
    unanswered (d.write offset value).1
  | _ => false

/-- Whether a move is the end of a delivery. -/
def Move.isReturn : Move σ → Bool
  | .handled => true
  | _ => false

/-- Whether a move is a look of the worker that finds nothing pending. -/
def wakesInVain (d : Device σ) : Move σ → Bool
  | .look =>
    d.isArmed &&
      match d.capture.1 with
      | .spurious => true
      | .stopped | .unattended | .deliver _ _ => false
  | _ => false

/-- How much of what a counter stands for has happened in the course of a list of moves. -/
def happened (d : Device σ) (ms : List (Move σ)) : Counter → Nat
  -- Bytes handed to consumers, and bytes flushed where there was none.
  | .txBytes => ((d.calls ms).flatMap (·.bytes)).length
  | .txDiscarded => (((chronicle departures d ms).filter (·.isDiscarded)).flatMap (·.bytes)).length
  -- Bytes that the receive queue took, from the wire or looped back.
  | .rxBytes => (chronicle arrived d ms).length
  | .flushes reason => (chronicle departures d ms).countP (·.isFlush reason)
  -- Data writes that found a full queue.
  | .overruns => (chronicle lost d ms).length
  | .protocolErrors => (d.moments ms).countP fun x => misses x.1 x.2
  | .interrupts => ms.countP (·.isReturn)
  | .spuriousWakeups => (d.moments ms).countP fun x => wakesInVain x.1 x.2

theorem happened_cons (d : Device σ) (m : Move σ) (ms : List (Move σ)) (c : Counter) :
    d.happened (m :: ms) c = d.happened [m] c + (m.run d).happened ms c := by
  cases c with
  | protocolErrors | interrupts | spuriousWakeups =>
    simp [happened, moments, List.countP_cons, Nat.add_comm]
  | _ => simp [happened, calls]

/-! ### The events of a move -/

/-- The event that a departure is, if a flush has made it. -/
def Departure.event? (x : Departure) : Option Event :=
  match x.route with
  | .consumed _ reason => some (.flush reason x.bytes.length true)
  | .discarded reason => some (.flush reason x.bytes.length false)
  | .cleared | .reset | .released => none

/-- The event that the arrival of bytes is. -/
def arrivalEvents (bytes : List UInt8) : List Event :=
  if bytes.isEmpty then [] else [.received bytes.length]

/-- The events of a move, as its histories have it. -/
def events (d : Device σ) (m : Move σ) : List Event :=
  (d.departures m).filterMap (·.event?) ++ arrivalEvents (d.arrived m) ++
    (if d.losesByte m then [.overrun] else []) ++
    (if d.misses m then [.protocolError] else []) ++
    (if m.isReturn then [.interrupt] else []) ++
    (if d.wakesInVain m then [.spuriousWakeup] else [])

/-- The events of an effect. -/
def Effect.events (d : Device σ) (e : Effect) : List Event :=
  (e.departures d).filterMap (·.event?) ++ arrivalEvents (e.arrived d) ++
    (if e.losesByte d then [.overrun] else []) ++
    (if e = .missed then [.protocolError] else [])

theorem event?_flushDeparture (d : Device σ) (reason : FlushReason) :
    (d.flushDeparture reason).event? = some (d.flushEvent reason) := by
  cases h : d.consumer <;> simp [flushDeparture, flushEvent, Departure.event?, h]

/-- A flush on a condition is counted on that condition. -/
theorem events_flushDepartures (d : Device σ) (condition : Bool) (reason : FlushReason) :
    (d.flushDepartures condition reason).filterMap (·.event?) =
      if condition then [d.flushEvent reason] else [] := by
  cases condition <;> simp [flushDepartures, event?_flushDeparture]

/-- A byte that is sent counts the flushes that it brings about, and an overrun if it is lost. -/
theorem transmitCounted_eq (d : Device σ) (byte : UInt8) :
    d.transmitCounted byte = (d.transmitDepartures byte).filterMap (·.event?) ++
      if d.findsRoom byte then [] else [.overrun] := by
  have hroom : (d.hold byte).roomCounted =
      (d.flushDepartures (d.tx.isFull && d.consumer.isSome) .full).filterMap (·.event?) :=
    (events_flushDepartures (d.hold byte) _ .full).symm
  rw [transmitCounted, transmitDepartures, findsRoom, List.filterMap_append, hroom]
  cases (d.hold byte).makeRoom.1.enqueue byte with
  | none => simp
  | some e =>
    have hreached : e.reachedCounted =
        (e.flushDepartures e.reachesThreshold .threshold).filterMap (·.event?) :=
      (events_flushDepartures e _ .threshold).symm
    simp [hreached]

/-- A byte that is looped back counts as received or as lost. -/
theorem receiveCounted_eq {d : Device σ} (hl : d.regs.loopback = true) (byte : UInt8) :
    d.receiveCounted = arrivalEvents (d.loopedBack byte) ++
      if d.losesData then [.overrun] else [] := by
  by_cases hfull : d.rx.toList.length = Fifo.capacity
  · have hpush : d.rx.push? byte = none := Fifo.push?_eq_none_iff.mpr hfull
    simp [receiveCounted, loopedBack, losesData, arrivalEvents, hl, hpush, hfull, Fifo.isFull_eq]
  · have hpush : (d.rx.push? byte).isSome = true :=
      Option.isSome_iff_ne_none.mpr fun hnone => hfull (Fifo.push?_eq_none_iff.mp hnone)
    rw [Fifo.length_toList] at hfull
    simp [receiveCounted, loopedBack, losesData, arrivalEvents, hl, hpush, hfull, Fifo.isFull_eq]

/-- **An access counts what the histories note of it.** -/
theorem counted_eq_events (d : Device σ) (e : Effect) : e.counted d = e.events d := by
  cases e with
  | writes register value =>
    cases register with
    | transmitHold =>
      cases hl : d.regs.loopback with
      | true =>
        have hcounted : (Effect.writes .transmitHold value).counted d = d.receiveCounted := by
          simp only [Effect.counted, writeCounted, hl, if_true]
        have hlost : (Effect.writes .transmitHold value).losesByte d = d.losesData := rfl
        rw [hcounted, receiveCounted_eq hl value, Effect.events, hlost]
        simp [Effect.departures, writeDepartures, hl, Effect.arrived]
      | false =>
        simp only [Effect.counted, writeCounted, hl, Bool.false_eq_true, if_false, Effect.events,
          Effect.departures, writeDepartures, Effect.arrived, Effect.losesByte,
          losesData_eq_not_findsRoom hl value, transmitCounted_eq]
        cases d.findsRoom value <;> simp [loopedBack, hl, arrivalEvents]
    | interruptEnable =>
      simp only [Effect.counted, writeCounted, Effect.events, Effect.departures, writeDepartures,
        maskDepartures, events_flushDepartures, Effect.arrived, Effect.losesByte]
      simp [arrivalEvents]
    | fifoControl =>
      simp only [Effect.counted, writeCounted, Effect.events, Effect.departures, writeDepartures,
        Effect.arrived, Effect.losesByte]
      split <;> simp [arrivalEvents, Departure.event?]
    | _ =>
      simp [Effect.counted, writeCounted, Effect.events, Effect.departures, writeDepartures,
        Effect.arrived, Effect.losesByte, arrivalEvents]
  | queues bytes =>
    have hle : (d.rx.pushAll bytes).1 ≤ bytes.length := by
      rw [(d.rx.pushAll_eq bytes).1]
      exact Nat.min_le_left _ _
    have hlen : (bytes.take (d.rx.pushAll bytes).1).length = (d.rx.pushAll bytes).1 := by
      rw [List.length_take, Nat.min_eq_left hle]
    simp only [Effect.counted, Effect.events, Effect.departures, Effect.arrived, Effect.losesByte,
      arrivalEvents, ← List.length_eq_zero_iff, List.isEmpty_iff, hlen]
    by_cases hpos : 0 < (d.rx.pushAll bytes).1
    · simp [hpos, Nat.pos_iff_ne_zero.mp hpos]
    · simp [Nat.eq_zero_of_not_pos hpos]
  | flushes reason =>
    simp [Effect.counted, Effect.events, Effect.departures, Effect.arrived, Effect.losesByte,
      arrivalEvents, event?_flushDeparture]
  | _ =>
    simp [Effect.counted, Effect.events, Effect.departures, Effect.arrived, Effect.losesByte,
      arrivalEvents, Departure.event?]

theorem misses_access (d : Device σ) (a : Access) :
    d.misses (.operate (.access a)) = decide (a.effect d = .missed) := by
  cases a with
  | read offset | input offset =>
    by_cases hi : d.initialized = true
    · cases hr : ReadRegister.decode offset d.regs.divisorAccess with
      | ok register => simp [misses, read, Access.effect, readEffect, hi, hr, unanswered]
      | error e =>
        simp [misses, read, Access.effect, readEffect, hi, hr,
          unanswered_readDecode hr]
    · simp [misses, read, Access.effect, readEffect, hi, unanswered]
  | write offset value | output offset value =>
    by_cases hi : d.initialized = true
    · cases hr : WriteRegister.decode offset d.regs.divisorAccess with
      | ok register => simp [misses, write, Access.effect, writeEffect, hi, hr, unanswered]
      | error e =>
        simp [misses, write, Access.effect, writeEffect, hi, hr,
          unanswered_writeDecode hr]
    · simp [misses, write, Access.effect, writeEffect, hi, unanswered]
  | inject bytes | signalBreak =>
    simp only [misses, Access.effect]
    split <;> rfl
  | flush reason | reset | detach => rfl

/-- The events of an access are those of what it comes to. -/
theorem events_access (d : Device σ) (a : Access) :
    d.events (.operate (.access a)) = (a.effect d).events d := by
  simp only [events, Effect.events, departures, arrived_access, losesByte_access, misses_access,
    Move.isReturn, wakesInVain]
  simp

/-- **Every move counts what the histories note of it**, unless it forgets what was counted. -/
theorem metrics_run (d : Device σ) {m : Move σ} (h : m ≠ .operate .resetCounters) :
    (m.run d).metrics = d.metrics.recordAll (d.events m) := by
  cases m with
  | operate op =>
    have hquiet : ∀ {op : Operation σ}, (∀ a, op ≠ .access a) → d.events (.operate op) = [] :=
      fun {op} hop => by
        cases op with
        | access a => exact absurd rfl (hop a)
        | _ => rfl
    cases op with
    | access a =>
      have hrun : (Move.operate (.access a)).run d = (a.run d).device := rfl
      rw [hrun, a.device_effect, metrics_effect, counted_eq_events, events_access]
    | resetCounters => exact absurd rfl h
    | bind threshold label =>
      rw [hquiet (by simp)]
      rcases d.bind_cases threshold label with hb | ⟨c, hb⟩ <;> exact congrArg (·.metrics) hb
    | unbind =>
      rw [hquiet (by simp)]
      rcases d.unbind_cases with hb | hb <;> exact congrArg (·.metrics) hb
    | enableIrq =>
      rw [hquiet (by simp)]
      rcases d.enableIrq_cases with ⟨e, he⟩ | ⟨-, -, he⟩ <;> exact congrArg (·.2.metrics) he
    | disableIrq =>
      rw [hquiet (by simp)]
      rcases d.disableIrq_cases with ⟨-, hd⟩ | ⟨-, hd⟩ <;> exact congrArg (·.metrics) hd
    | _ => rfl
  | look =>
    simp only [Move.run, events, departures, arrived, losesByte, lost, misses, Move.isReturn,
      wakesInVain]
    by_cases harmed : d.isArmed = true
    · obtain ⟨-, -, hstop⟩ := isArmed_iff.mp harmed
      rcases capture_cases hstop with ⟨sink, -, hs, hc⟩ | ⟨-, hc⟩ | ⟨-, hc⟩ <;>
        simp only [harmed, hc, if_true] <;> rfl
    · simp only [harmed]
      rfl
  | crashed =>
    simp only [Move.run]
    split <;> rfl
  | _ => rfl

/-! ### Every run -/

/-- What flushes count, read off the queues that departed. -/
theorem total_departures (line : UInt8) (xs : List Departure) (c : Counter) :
    total c (xs.filterMap (·.event?)) =
      match c with
      | .txBytes => ((xs.filterMap (·.call? line)).flatMap (·.bytes)).length
      | .txDiscarded => ((xs.filter (·.isDiscarded)).flatMap (·.bytes)).length
      | .flushes reason => xs.countP (·.isFlush reason)
      | _ => 0 := by
  induction xs with
  | nil => cases c <;> rfl
  | cons x xs ih =>
    obtain ⟨bytes, route⟩ := x
    rw [List.filterMap_cons]
    cases route with
    | consumed label reason =>
      rw [Departure.event?, Metrics.total_cons, ih]
      cases c with
      | flushes reason' =>
        simp [Event.weight, Departure.isFlush, List.countP_cons, Nat.add_comm]
      | _ => simp [Event.weight, Departure.call?, Departure.isDiscarded]
    | discarded reason =>
      rw [Departure.event?, Metrics.total_cons, ih]
      cases c with
      | flushes reason' =>
        simp [Event.weight, Departure.isFlush, List.countP_cons, Nat.add_comm]
      | _ => simp [Event.weight, Departure.call?, Departure.isDiscarded]
    | _ =>
      rw [Departure.event?, ih]
      cases c <;> simp [Departure.call?, Departure.isDiscarded, Departure.isFlush]

theorem total_arrivalEvents (bytes : List UInt8) (c : Counter) :
    total c (arrivalEvents bytes) = if c = .rxBytes then bytes.length else 0 := by
  cases bytes <;> simp [arrivalEvents, Event.weight]

/-- An event that is counted on a condition. -/
theorem total_ite (condition : Bool) (e : Event) (c : Counter) :
    total c (if condition then [e] else []) = if condition then e.weight c else 0 := by
  cases condition <;> simp

/-- At most one byte is lost at a move. -/
theorem length_lost (d : Device σ) (m : Move σ) :
    (d.lost m).length = if d.losesByte m then 1 else 0 := by
  have hle : (d.lost m).length ≤ 1 := by
    unfold lost
    split
    · split
      · split <;> simp
      · simp
    · simp
  rw [losesByte]
  generalize d.lost m = bytes at hle
  rcases bytes with _ | ⟨byte, _ | ⟨next, rest⟩⟩
  · rfl
  · rfl
  · simp at hle

/-- What has happened at a move is what its events count. -/
theorem happened_singleton (d : Device σ) (m : Move σ) (c : Counter) :
    d.happened [m] c = total c (d.events m) := by
  rw [events]
  simp only [Metrics.total_append, total_departures d.line, total_arrivalEvents, total_ite]
  cases c with
  | txBytes => simp [happened, calls, calls_move, Event.weight]
  | overruns => simp [happened, length_lost, Event.weight]
  | protocolErrors | interrupts | spuriousWakeups =>
    simp [happened, moments, List.countP_cons, Event.weight]
  | _ => simp [happened, Event.weight]

/-- Whether anything is counted is settled for good as a device is made. -/
theorem enabled_after (d : Device σ) (ms : List (Move σ)) :
    (d.after ms).metrics.enabled = d.metrics.enabled := by
  refine after_of_keeps (P := fun e => e.metrics.enabled = d.metrics.enabled)
    (fun e m h => ?_) rfl ms
  by_cases hm : m = .operate .resetCounters
  · subst hm
    exact h
  · rw [e.metrics_run hm, Metrics.enabled_recordAll, h]

/-- **A run counts what has happened**, unless it forgets what was counted. -/
theorem value_after {d : Device σ} (h : d.metrics.enabled = true) {ms : List (Move σ)}
    (hms : .operate .resetCounters ∉ ms) (c : Counter) :
    (d.after ms).metrics.value c = d.metrics.value c + .ofNat (d.happened ms c) := by
  induction ms generalizing d with
  | nil => cases c <;> simp [happened, calls, moments]
  | cons m ms ih =>
    obtain ⟨hm, hms⟩ := not_or.mp (mt List.mem_cons.mpr hms)
    have hmetrics := d.metrics_run (Ne.symm hm)
    have henabled : (m.run d).metrics.enabled = true := (d.enabled_after [m]).trans h
    rw [after_cons, ih henabled hms, hmetrics, Metrics.value_recordAll h, happened_cons,
      happened_singleton, UInt64.ofNat_add, UInt64.add_assoc]

/-- After these moves counting starts: there are none, or the last has reset the counters. -/
def StartsCounting (before : List (Move σ)) : Prop :=
  before = [] ∨ ∃ earlier, before = earlier ++ [.operate .resetCounters]

/-- Where counting starts, nothing was counted so far. -/
theorem StartsCounting.metrics_eq {before : List (Move σ)} (h : StartsCounting before)
    (info : LineInfo) : ((create info true : Device σ).after before).metrics = .zero true := by
  rcases h with rfl | ⟨earlier, rfl⟩
  · rfl
  · rw [after_append]
    exact congrArg Metrics.zero ((create info true).enabled_after earlier)

/-- From there on, every counter shows what has happened. -/
theorem StartsCounting.value_eq {before since : List (Move σ)} (h : StartsCounting before)
    (hsince : .operate .resetCounters ∉ since) (info : LineInfo) (c : Counter) :
    (((create info true : Device σ).after before).after since).metrics.value c =
      .ofNat (((create info true : Device σ).after before).happened since c) := by
  have hstart := h.metrics_eq info
  rw [value_after (by rw [hstart]; rfl) hsince, hstart, Metrics.value_zero, UInt64.zero_add]

/-- Without counting, every counter stays as it is made. -/
theorem metrics_after_of_disabled (info : LineInfo) (ms : List (Move σ)) :
    ((create info false : Device σ).after ms).metrics = .zero false := by
  refine after_of_keeps (P := fun e => e.metrics = .zero false) (fun e m h => ?_) rfl ms
  by_cases hm : m = .operate .resetCounters
  · subst hm
    exact congrArg Metrics.reset h
  · rw [e.metrics_run hm, h]
    exact Metrics.recordAll_of_disabled rfl _

/-! ### Received bytes, popped or discarded or still there -/

/-- The bytes that were read one by one. -/
def popped (d : Device σ) (ms : List (Move σ)) : List UInt8 :=
  ((chronicle withdrawals d ms).filter (·.cut = .read)).flatMap (·.bytes)

/-- The bytes that a clear, a reset or the end of the device took out. -/
def discarded (d : Device σ) (ms : List (Move σ)) : List UInt8 :=
  ((chronicle withdrawals d ms).filter (·.cut ≠ .read)).flatMap (·.bytes)

/-- Whatever was taken out was popped or discarded. -/
theorem length_withdrawals (ws : List Withdrawal) :
    (ws.flatMap (·.bytes)).length = ((ws.filter (·.cut = .read)).flatMap (·.bytes)).length +
      ((ws.filter (·.cut ≠ .read)).flatMap (·.bytes)).length := by
  induction ws with
  | nil => rfl
  | cons w ws ih =>
    by_cases hw : w.cut = .read
    · rw [List.filter_cons_of_pos (by simpa using hw), List.filter_cons_of_neg (by simpa using hw)]
      simp only [List.flatMap_cons, List.length_append, ih]
      omega
    · rw [List.filter_cons_of_neg (by simpa using hw), List.filter_cons_of_pos (by simpa using hw)]
      simp only [List.flatMap_cons, List.length_append, ih]
      omega

/-- From its creation on, what a device received was popped, discarded or is still queued. -/
theorem length_arrived (info : LineInfo) (counting : Bool) (ms : List (Move σ)) :
    let born : Device σ := create info counting
    (chronicle arrived born ms).length =
      (born.popped ms).length + (born.discarded ms).length + (born.after ms).rx.length := by
  intro born
  have hborn : born.rx.toList = [] := Fifo.toList_reset _
  have hall := congrArg List.length (born.conserves_arrived ms)
  rw [hborn, List.nil_append, List.length_append, length_withdrawals, Fifo.length_toList] at hall
  exact hall

end Device

/-! ### Deliveries that ended -/

/-- Whether a turn is a call of the sink. -/
def Turn.isDelivery : Turn → Bool
  | .delivered _ _ => true
  | .started | .crashed | .disabled | .removed => false

/-- From these counters to those, the deliveries among these turns were counted, except for those
that crashed. -/
structure CountsTurns (m m' : Metrics) (ts : List Turn) : Prop where
  enabled_eq : m'.enabled = m.enabled
  interrupts_eq : m.enabled = true →
    m'.interrupts + .ofNat (ts.count .crashed) = m.interrupts + .ofNat (ts.countP (·.isDelivery))

namespace CountsTurns

variable {m m' m'' : Metrics} {ts us : List Turn}

theorem refl (m : Metrics) : CountsTurns m m [] := ⟨rfl, fun _ => rfl⟩

theorem trans (h : CountsTurns m m' ts) (h' : CountsTurns m' m'' us) :
    CountsTurns m m'' (ts ++ us) where
  enabled_eq := h'.enabled_eq.trans h.enabled_eq
  interrupts_eq hm := by
    have hfirst := h.interrupts_eq hm
    have hsecond := h'.interrupts_eq (h.enabled_eq.trans hm)
    rw [List.count_append, List.countP_append, UInt64.ofNat_add, UInt64.ofNat_add]
    calc m''.interrupts + (.ofNat (ts.count .crashed) + .ofNat (us.count .crashed))
        = m''.interrupts + .ofNat (us.count .crashed) + .ofNat (ts.count .crashed) := by
          rw [UInt64.add_assoc, UInt64.add_comm (.ofNat (us.count .crashed))]
      _ = m'.interrupts + .ofNat (ts.count .crashed) + .ofNat (us.countP (·.isDelivery)) := by
          rw [hsecond, UInt64.add_assoc, UInt64.add_assoc, UInt64.add_comm (.ofNat _)]
      _ = m.interrupts + (.ofNat (ts.countP (·.isDelivery)) + .ofNat (us.countP (·.isDelivery))) := by
          rw [hfirst, UInt64.add_assoc]

/-- Turns that call nobody and crash nobody change no count. -/
theorem of_quiet (henabled : m'.enabled = m.enabled)
    (hsame : m.enabled = true → m'.interrupts = m.interrupts)
    (hquiet : ts.count .crashed = 0 ∧ ts.countP (·.isDelivery) = 0) : CountsTurns m m' ts where
  enabled_eq := henabled
  interrupts_eq hm := by rw [hsame hm, hquiet.1, hquiet.2]

end CountsTurns

namespace Device

theorem enabled_access (d : Device σ) (a : Access) :
    (a.run d).device.metrics.enabled = d.metrics.enabled := by
  rw [a.device_effect, metrics_effect, Metrics.enabled_recordAll]

/-- A script that ends is counted, and one that crashes is not. -/
theorem counts_script (d : Device σ) (script : Script) :
    (handled (script.run d)).metrics.enabled = d.metrics.enabled ∧
      (d.metrics.enabled = true → (handled (script.run d)).metrics.interrupts =
        d.metrics.interrupts + if .crash ∈ script then 0 else 1) := by
  induction script generalizing d with
  | nil =>
    refine ⟨d.metrics.enabled_record .interrupt, fun h => ?_⟩
    exact Metrics.value_record h .interrupt .interrupts
  | cons instruction rest ih =>
    cases instruction with
    | access a =>
      have hrest : handled (Script.run d (.access a :: rest)) =
          handled (Script.run (a.run d).device rest) := rfl
      obtain ⟨henabled, hinterrupts⟩ := ih (a.run d).device
      rw [hrest, henabled, d.enabled_access a]
      refine ⟨rfl, fun h => ?_⟩
      rw [hinterrupts ((d.enabled_access a).trans h), d.interrupts_access a]
      simp
    | crash =>
      refine ⟨rfl, fun _ => ?_⟩
      have hcrash : handled (Script.run d (.crash :: rest)) = { d with worker := .dead } := rfl
      rw [hcrash]
      simp

theorem counts_wake {d : Device ScriptedSink} (h : d.isArmed = true) :
    CountsTurns d.metrics d.wake.device.metrics d.lookTurns := by
  obtain ⟨-, -, hstop⟩ := isArmed_iff.mp h
  rcases capture_cases hstop with ⟨sink, -, hs, hc⟩ | ⟨-, hc⟩ | ⟨-, hc⟩
  · have hturns : d.lookTurns = .delivered d.line d.regs.iir ::
        if .crash ∈ sink.headD [] then [.crashed] else [] := by simp only [lookTurns, hc]
    obtain ⟨henabled, hinterrupts⟩ :=
      counts_script { d.disarm with sink := some sink.tail } (sink.headD [])
    rw [wake_of_deliver hc, hturns]
    refine ⟨henabled, fun hm => ?_⟩
    have hcounted : (d.disarm.serve d.regs.iir sink).device.metrics.interrupts =
        d.metrics.interrupts + if .crash ∈ sink.headD [] then 0 else 1 := hinterrupts hm
    by_cases hcrash : Instruction.crash ∈ sink.headD []
    · rw [hcounted, if_pos hcrash, if_pos hcrash]
      simp [Turn.isDelivery]
    · rw [hcounted, if_neg hcrash, if_neg hcrash]
      simp [Turn.isDelivery]
  · simp only [wake, lookTurns, hc]
    exact .refl _
  · simp only [wake, lookTurns, hc]
    refine .of_quiet (d.metrics.enabled_record _) (fun _ => ?_) ⟨rfl, rfl⟩
    exact d.metrics.interrupts_record (by simp)

theorem counts_settleWithin (d : Device ScriptedSink) (looks : Nat) :
    CountsTurns d.metrics (d.settleWithin looks).device.metrics (d.turnsWithin looks) := by
  induction looks generalizing d with
  | zero => exact .refl _
  | succ looks ih =>
    rw [turnsWithin, settleWithin]
    split
    · next h => exact (counts_wake h).trans (ih d.wake.device)
    · exact .refl _

/-- No operation is itself a call of the sink or a crash. -/
theorem turns_quiet (op : Operation σ) (reply : Reply) :
    (op.turns reply).count .crashed = 0 ∧ (op.turns reply).countP (·.isDelivery) = 0 := by
  unfold Operation.turns
  split <;> exact ⟨rfl, rfl⟩

/-- **A step counts the deliveries that end**, unless it forgets what was counted. -/
theorem counts_step (d : Device ScriptedSink) {op : Operation ScriptedSink}
    (h : op ≠ .resetCounters) :
    CountsTurns d.metrics (d.step op).device.metrics (d.turns op) := by
  have hne : Move.operate op ≠ .operate .resetCounters := fun heq => h (Move.operate.inj heq)
  have hmetrics : (op.run d).device.metrics = d.metrics.recordAll (d.events (.operate op)) :=
    d.metrics_run hne
  refine CountsTurns.trans (.of_quiet ?_ (fun hm => ?_) (turns_quiet op _))
    (counts_settleWithin _ _)
  · rw [hmetrics, Metrics.enabled_recordAll]
  · have hvalue : (d.after [.operate op]).metrics.value .interrupts = _ :=
      value_after hm (by simpa using Ne.symm hne) .interrupts
    exact hvalue.trans (UInt64.add_zero _)

end Device

namespace Session

/-- The operations of a sequence of steps that are aimed at the device at a place. -/
def operations (s : Session) (place : Nat) : List Step → List (Operation ScriptedSink)
  | [] => []
  | st :: steps =>
    (match s.aim st with
      | some (aimed, op) => if aimed = place then [op] else []
      | none => []) ++ (s.step st).2.operations place steps

variable {s : Session} {place : Nat} {d : Device ScriptedSink}

/-- The device at a place is there after a step as well, and has counted the deliveries that
ended. -/
theorem counts_of_step (hd : s.system.devices[place]? = some d) {st : Step}
    (hreset : .resetCounters ∉ s.operations place [st]) :
    ∃ e, (s.step st).2.system.devices[place]? = some e ∧
      CountsTurns d.metrics e.metrics (s.turns place st) := by
  cases haim : s.aim st with
  | none =>
    refine ⟨_, getElem?_step_unaimed haim hd, ?_⟩
    rw [turns_unaimed haim, hd]
    cases s.retires place st with
    | true =>
      have hsame : d.dismantle.metrics = d.metrics := d.metrics_dismantle
      simp only [if_true, hsame]
      exact .of_quiet rfl (fun _ => rfl) ⟨rfl, rfl⟩
    | false => exact .refl _
  | some x =>
    obtain ⟨aimed, op⟩ := x
    obtain ⟨d', hd', hdevices, -⟩ := step_aimed haim
    by_cases hplace : aimed = place
    · subst hplace
      have hsame : d' = d := Option.some.inj (hd'.symm.trans hd)
      subst hsame
      have hop : op ≠ .resetCounters := by
        rintro rfl
        simp [operations, haim] at hreset
      rw [turns_aimed haim hd]
      exact ⟨(d'.step op).device, by simp [hdevices, hd], d'.counts_step hop⟩
    · refine ⟨d, by simp [hdevices, hplace, hd], ?_⟩
      rw [turns_other haim hplace]
      exact .refl _

theorem operations_cons (s : Session) (place : Nat) (st : Step) (steps : List Step) :
    s.operations place (st :: steps) =
      s.operations place [st] ++ (s.step st).2.operations place steps := by
  simp [operations]

theorem counts_after (hd : s.system.devices[place]? = some d) {steps : List Step}
    (hreset : .resetCounters ∉ s.operations place steps) :
    ∃ e, (s.after steps).system.devices[place]? = some e ∧
      CountsTurns d.metrics e.metrics (s.log place steps) := by
  induction steps generalizing s d with
  | nil => exact ⟨d, hd, .refl _⟩
  | cons st steps ih =>
    rw [operations_cons, List.mem_append, not_or] at hreset
    obtain ⟨e, he, hfirst⟩ := counts_of_step hd hreset.1
    obtain ⟨f, hf, hrest⟩ := ih he hreset.2
    exact ⟨f, hf, hfirst.trans hrest⟩

/-- The table counts nothing. -/
theorem metrics_after_ofTable {d : Device ScriptedSink} {ms : List (Device.Move ScriptedSink)}
    (h : ∀ m ∈ ms, System.ofTable m = true) : (d.after ms).metrics = d.metrics := by
  induction ms generalizing d with
  | nil => rfl
  | cons m ms ih =>
    have hm := h m List.mem_cons_self
    have hevents : d.events m = [] := by
      cases m with
      | operate op => cases op <;> first | rfl | cases hm
      | list registered => rfl
      | release => rfl
      | _ => cases hm
    have hreset : m ≠ .operate .resetCounters := by
      rintro rfl
      cases hm
    rw [Device.after_cons, ih fun n hn => h n (List.mem_cons_of_mem _ hn), d.metrics_run hreset,
      hevents]
    rfl

/-- If no delivery was counted so far, then what is counted is the deliveries from here on, also
those of a device that is still to be created. -/
theorem exists_counts_after (hstart : ∀ d, s.system.devices[place]? = some d →
    d.metrics.interrupts = 0) {steps : List Step}
    (hreset : .resetCounters ∉ s.operations place steps) {e : Device ScriptedSink}
    (he : (s.after steps).system.devices[place]? = some e) :
    ∃ m : Metrics, m.interrupts = 0 ∧ CountsTurns m e.metrics (s.log place steps) := by
  induction steps generalizing s with
  | nil => exact ⟨e.metrics, hstart e he, .refl _⟩
  | cons st steps ih =>
    cases hd : s.system.devices[place]? with
    | some d =>
      obtain ⟨e', he', hcounts⟩ := counts_after hd hreset
      obtain rfl := Option.some.inj (he'.symm.trans he)
      exact ⟨d.metrics, hstart d hd, hcounts⟩
    | none =>
      rw [operations_cons, List.mem_append, not_or] at hreset
      have hquiet : s.turns place st = [] := by simp only [turns, hd]
      rw [log, hquiet, List.nil_append]
      refine ih (fun d hnew => ?_) hreset.2 he
      cases haim : s.aim st with
      | none =>
        obtain ⟨info, counting, ms, hms, rfl⟩ := (step_unaimed haim).1.added hd hnew
        rw [metrics_after_ofTable hms]
        rfl
      | some x =>
        obtain ⟨_, _, hdevices, -⟩ := step_aimed haim
        simp [hdevices, List.getElem?_modify, hd] at hnew

/-- After these steps counting starts at the device of a place: it is not there yet, or its
counters were reset by the last of them. -/
def StartsCounting (counting : Bool) (place : Nat) (before : List Step) : Prop :=
  ((empty counting).after before).system.devices[place]? = none ∨
    ∃ earlier st, before = earlier ++ [st] ∧
      ((empty counting).after earlier).aim st = some (place, .resetCounters)

/-- Where counting starts, no delivery was counted so far. -/
theorem StartsCounting.interrupts_eq {counting : Bool} {before : List Step}
    (h : StartsCounting counting place before)
    (hd : ((empty counting).after before).system.devices[place]? = some d) :
    d.metrics.interrupts = 0 := by
  rcases h with hnone | ⟨earlier, st, rfl, haim⟩
  · rw [hnone] at hd
    cases hd
  · obtain ⟨d', hd', hdevices, -⟩ := step_aimed haim
    have hrest : d'.isArmed = false := (comes_after_empty counting place earlier).rests hd'
    have hstep : (d'.step .resetCounters).device = { d' with metrics := d'.metrics.reset } := by
      have hidle : ({ d' with metrics := d'.metrics.reset } : Device ScriptedSink).isArmed = false :=
        hrest
      simp only [Device.step, Operation.run, Device.settle, Device.settleWithin_of_idle hidle]
    have hafter : (((empty counting).after (earlier ++ [st])).system.devices) =
        (((empty counting).after earlier).step st).2.system.devices := by
      simp only [after, List.foldl_append, List.foldl_cons, List.foldl_nil]
    rw [hafter, hdevices, List.getElem?_modify, hd', hstep] at hd
    obtain rfl : { d' with metrics := d'.metrics.reset } = d := by simpa using hd
    rfl

/-- Deliveries are counted as they end, and a crash is not an end. -/
theorem interrupts_log {counting : Bool} {before since : List Step}
    (hstart : StartsCounting counting place before)
    (hreset : .resetCounters ∉ ((empty counting).after before).operations place since)
    (hd : (((empty counting).after before).after since).system.devices[place]? = some d)
    (henabled : d.metrics.enabled = true) :
    d.metrics.interrupts +
        .ofNat ((((empty counting).after before).log place since).count .crashed) =
      .ofNat ((((empty counting).after before).log place since).countP (·.isDelivery)) := by
  obtain ⟨m, hm, hcounts⟩ := exists_counts_after (fun _ => hstart.interrupts_eq) hreset hd
  rw [hcounts.interrupts_eq (hcounts.enabled_eq.symm.trans henabled), hm, UInt64.zero_add]

end Session

open Device in
/-- **The counters account for every event.** On a device that counts, from its creation or the last
reset of the counters on, every counter shows the number of what it stands for, modulo 2^64; and
if the counters were never reset, the bytes received are those popped, those discarded and those
still queued. A device that does not count keeps every counter at zero. The devices of a session are
reachable; there the deliveries that ended are those whose script did not crash. -/
theorem metrics_of_reachable :
    (∀ {σ : Type} (info : LineInfo) (before since : List (Move σ)),
      StartsCounting before →
      Move.operate .resetCounters ∉ since →
      let start : Device σ := (create info true).after before
      let d := start.after since
      (∀ c, d.metrics.value c = .ofNat (start.happened since c)) ∧
      (before = [] → d.metrics.rxBytes = .ofNat
        ((start.popped since).length + (start.discarded since).length + d.rx.length))) ∧
    (∀ {σ : Type} (info : LineInfo) (ms : List (Move σ)),
      ((create info false : Device σ).after ms).metrics = .zero false) ∧
    ∀ counting before since place,
      let start := (Session.empty counting).after before
      (∀ d ∈ (start.after since).system.devices, d.Reachable) ∧
      (Session.StartsCounting counting place before →
        .resetCounters ∉ start.operations place since →
        ∀ d, (start.after since).system.devices[place]? = some d → d.metrics.enabled = true →
        d.metrics.interrupts + .ofNat ((start.log place since).count .crashed) =
          .ofNat ((start.log place since).countP (·.isDelivery))) := by
  refine ⟨fun {σ} info before since hbefore hsince => ?_, metrics_after_of_disabled,
    fun counting before since place => ⟨fun d hd => ?_, fun hstart hreset d hd henabled =>
      Session.interrupts_log hstart hreset hd henabled⟩⟩
  · intro start d
    have hvalue : ∀ c, d.metrics.value c = .ofNat (start.happened since c) :=
      hbefore.value_eq hsince info
    refine ⟨hvalue, fun hnone => ?_⟩
    subst hnone
    have harrived := length_arrived (σ := σ) info true since
    exact (hvalue .rxBytes).trans (congrArg UInt64.ofNat harrived)
  · have hafter : (((Session.empty counting).after before).after since) =
        (Session.empty counting).after (before ++ since) := by
      simp only [Session.after, List.foldl_append]
    rw [hafter] at hd
    exact Session.reachable_of_mem hd

open Device in
/-- Sixteen bytes wait for a consumer as one is bound that wants each byte at once. The next byte
makes two flushes, of sixteen bytes and of one. In a session, a sink returns from its first delivery
and crashes in the second. -/
theorem metrics_of_two_flushes :
    let info : LineInfo := { line := 0, ioBase := 0x3F8, irq := 4, baudBase := 115200 }
    let send : Move Unit := .operate (.access (.write Offset.data 0x41))
    let before : List (Move Unit) := [.operate (.access (.read 9)), .operate .resetCounters]
    let since : List (Move Unit) := List.replicate 16 send ++
      [.operate (.bind 1 "tty"), send, .operate (.access (.write Offset.lineStatus 0))]
    let d : Device Unit := ((create info true).after before).after since
    let steps : List Session.Step := [
      .table (.add 0), .onHandle 0 (.attach
        [[.access (.read Offset.data)], [.access (.read Offset.data), .crash]]),
      .onHandle 0 .enableIrq, .onHandle 0 (.access (.write Offset.interruptEnable 0x01)),
      .onHandle 0 (.access (.inject [0x41])), .onHandle 0 (.access (.inject [0x42]))]
    (d.metrics.value .txBytes = 17 ∧ d.metrics.value (.flushes .full) = 1 ∧
      d.metrics.value (.flushes .threshold) = 1 ∧ d.metrics.value .protocolErrors = 1) ∧
    ∃ e, ((Session.empty true).after steps).system.devices[0]? = some e ∧
      e.metrics.interrupts + 1 = 2 := by
  intro info send before since d steps
  have hbefore : StartsCounting before := Or.inr ⟨[.operate (.access (.read 9))], rfl⟩
  have hsince : .operate .resetCounters ∉ since := by decide
  have hhappened : ((create info true).after before).happened since .txBytes = 17 ∧
      ((create info true).after before).happened since (.flushes .full) = 1 ∧
      ((create info true).after before).happened since (.flushes .threshold) = 1 ∧
      ((create info true).after before).happened since .protocolErrors = 1 := by decide +kernel
  have hlog : (Session.empty true).log 0 steps =
      [.started, .delivered 0 0xC4, .delivered 0 0xC4, .crashed] := by decide +kernel
  have hreset : .resetCounters ∉ (Session.empty true).operations 0 steps := by decide +kernel
  have hdevice : ((Session.empty true).after steps).system.devices[0]?.map (·.metrics.enabled) =
      some true := by decide +kernel
  clear_value before since steps
  obtain ⟨hcounts, -, hsession⟩ := metrics_of_reachable
  obtain ⟨hvalue, -⟩ := hcounts info before since hbefore hsince
  obtain ⟨e, he, henabled⟩ := Option.map_eq_some_iff.mp hdevice
  have hended := (hsession true [] steps 0).2 (Or.inl rfl) hreset e he henabled
  refine ⟨⟨?_, ?_, ?_, ?_⟩, e, he, ?_⟩
  · exact (hvalue .txBytes).trans (congrArg UInt64.ofNat hhappened.1)
  · exact (hvalue (.flushes .full)).trans (congrArg UInt64.ofNat hhappened.2.1)
  · exact (hvalue (.flushes .threshold)).trans (congrArg UInt64.ofNat hhappened.2.2.1)
  · exact (hvalue .protocolErrors).trans (congrArg UInt64.ofNat hhappened.2.2.2)
  · rw [Session.after, List.foldl_nil, hlog] at hended
    exact hended

end Uart16550
