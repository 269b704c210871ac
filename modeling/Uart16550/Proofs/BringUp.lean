import Uart16550.Proofs.Echo
import Uart16550.Proofs.Refusal
import Uart16550.Proofs.Registry

/-!
# Bringing lines up

The limits of a configuration are checked in three places: all at once by `Config.validate`, and
one by one as lines are brought up, the number of a line by the table that adds it and the threshold
by the device that a consumer is bound to. These agree: a valid configuration is brought up
completely, and any other is refused on the way.

Nothing is pending on a new device, and nothing comes up as it is prepared, so what a preparation
leaves is known in full (`Running.readied`). With it the system is known after each line:
`Running.RisenTo` is the invariant, `Running.RisenTo.bringUp` its step and
`Running.RisenTo.bringUpAll` its run.

## Main statements

* `Running.start_of_valid`, `Running.start_of_bad_threshold`, `Running.start_of_many`: what becomes
  of every configuration with a line.
* `Running.starts_iff_valid`: a program starts exactly with a valid configuration.
-/

namespace Uart16550

/-! ### Limits -/

/-- The threshold lies within the depth of a queue. -/
def Config.Flushable (c : Config) : Prop := 0 < c.threshold ∧ c.threshold ≤ Fifo.capacity

instance (c : Config) : Decidable c.Flushable := inferInstanceAs (Decidable (_ ∧ _))

theorem Config.validate_eq_ok_iff {c : Config} (h : c.lines ≠ 0) :
    c.validate = .ok () ↔ c.lines.toNat ≤ lineCount ∧ c.Flushable := by
  unfold validate Flushable
  rw [if_neg h]
  split
  · next hmany => simp only [reduceCtorEq, false_iff, not_and]; omega
  · next hfew =>
    split
    · simp only [reduceCtorEq, false_iff, not_and]; omega
    · simp only [true_iff]; omega

/-! ### Devices with nothing pending -/

/-- The identification says that nothing is pending, and nothing is. -/
structure RegisterBank.Quiet (r : RegisterBank) : Prop where
  ident_eq : r.ident = r.iir
  cause_eq : r.cause = none

theorem RegisterBank.Quiet.not_pending {r : RegisterBank} (h : r.Quiet) :
    Interrupt.isPending r.iir = false := by
  rw [← h.ident_eq, isPending_ident, h.cause_eq]
  rfl

theorem Device.refresh_of_quiet {σ : Type} {d : Device σ} (h : d.regs.Quiet) : d.refresh = d := by
  simp only [refresh, h.ident_eq, h.not_pending, Bool.false_and, Bool.or_false]

namespace Running

open EchoSystem Device

variable {s t : EchoSystem} {c : Config} {line : UInt8} {place : Nat} {d e f : Device Unit}
  {consumer : Consumer}

/-! ### Operations that go through -/

/-- Operations go through one after another and lead from one device to another. -/
inductive Prepares : Device Unit → List (Operation Unit) → Device Unit → Prop
  | nil (d : Device Unit) : Prepares d [] d
  | cons {d e f : Device Unit} {op : Operation Unit} {ops : List (Operation Unit)}
    (hop : op.refusal d = none) (hrun : (op.run d).device = e) (h : Prepares e ops f) :
    Prepares d (op :: ops) f

theorem Prepares.append {ops more : List (Operation Unit)} (h : Prepares d ops e)
    (h' : Prepares e more f) : Prepares d (ops ++ more) f := by
  induction h with
  | nil => exact h'
  | cons hop hrun _ ih => exact .cons hop hrun (ih h')

theorem performAll_of_refusal_eq_none (h : s.Attached line place d) {op : Operation Unit}
    (hop : op.refusal d = none) (ops : List (Operation Unit)) :
    performAll s line (op :: ops) =
      performAll (s.modify place fun _ => (op.run d).device) line ops := by
  have hmeets := d.meets_run op
  rw [hop] at hmeets
  have hdone : ∀ e, (op.run d).reply ≠ .failed e := hmeets
  simp only [performAll, h.perform]

theorem performAll_of_refusal_eq_some (h : s.Attached line place d) {op : Operation Unit}
    {e : Error} (hop : op.refusal d = some e) (ops : List (Operation Unit)) :
    ∃ t, performAll s line (op :: ops) = (.error e, t) := by
  simp only [performAll, h.perform, reply_of_refusal hop]
  exact ⟨_, rfl⟩

theorem performAll_of_prepares {ops : List (Operation Unit)} (hops : Prepares d ops e)
    {s : EchoSystem} (h : s.Attached line place d) :
    performAll s line ops = (.ok (), s.modify place fun _ => e) := by
  induction hops generalizing s with
  | nil d =>
    rw [System.modify_eq_self fun e he => Option.some.inj (h.device.symm.trans he)]
    rfl
  | cons hop hrun _ ih =>
    subst hrun
    rw [performAll_of_refusal_eq_none h hop, ih (h.modify _)]
    simp only [System.modify, List.modify_modify_eq]
    rfl

/-! ### The preparation of a new device -/

/-- The registers of a device that listens for what it receives. -/
def listening (looped : Bool) : RegisterBank :=
  { RegisterBank.powerOn with
    ier := Echo.receiveInterrupts
    mcr := if looped then ModemControl.loop ||| ModemControl.out2 else ModemControl.out2 }

theorem quiet_powerOn : RegisterBank.powerOn.Quiet := ⟨rfl, rfl⟩

theorem quiet_listening (looped : Bool) : (listening looped).Quiet := by
  cases looped <;> exact ⟨by decide, by decide⟩

theorem loopback_listening (looped : Bool) : (listening looped).loopback = looped := by
  cases looped <;> decide

/-- A new device with a host attached and a consumer bound, and these registers. -/
def connected (info : LineInfo) (counting : Bool) (consumer : Consumer) (regs : RegisterBank) :
    Device Unit where
  info
  regs
  rx := Fifo.empty.reset
  tx := Fifo.empty.reset
  initialized := true
  registered := true
  consumer := some consumer
  sink := some ()
  virq := {}
  worker := .absent
  metrics := .zero counting

/-- The same device once its line is up. -/
def readied (info : LineInfo) (counting : Bool) (consumer : Consumer) (looped : Bool) :
    Device Unit :=
  { connected info counting consumer (listening looped) with
    virq := { enabled := true }
    worker := .alive }

section Preparation

variable {info : LineInfo} {counting looped : Bool}

theorem fresh_connected {regs : RegisterBank} (hslot : regs.divisorAccess = false)
    (hloop : regs.loopback = looped) :
    Fresh (connected info counting consumer regs) consumer looped :=
  ⟨rfl, rfl, hslot, hloop, Fifo.toList_reset _, Fifo.toList_reset _⟩

/-- None of the first five registers is read-only. -/
theorem refusal_write {offset value : UInt8} (h : d.initialized = true) (hlt : offset < 5) :
    (Operation.access (.write offset value)).refusal d = none := by
  have hlt : offset.toNat < 5 := hlt
  have hwritable : ¬(offset = 5 ∨ offset = 6) ∧ offset < 8 := by
    simp only [UInt8.lt_iff_toNat_lt, ← UInt8.toNat_inj, UInt8.reduceToNat]
    omega
  simp only [Operation.refusal, absence, h, if_true, if_neg hwritable.1, if_pos hwritable.2]
  rfl

theorem prepares_enable :
    Prepares (connected info counting consumer .powerOn)
      [.access (.write Offset.interruptEnable Echo.receiveInterrupts)]
      (connected info counting consumer (listening false)) := by
  refine .cons (refusal_write rfl (by decide)) ?_ (.nil _)
  have hfresh : Fresh (connected info counting consumer .powerOn) consumer false :=
    fresh_connected (by decide) (by decide)
  exact (hfresh.writeEnable _).trans (refresh_of_quiet (quiet_listening false))

theorem prepares_loop :
    Prepares (connected info counting consumer (listening false))
      (if looped then
        [.access (.write Offset.modemControl (ModemControl.loop ||| ModemControl.out2))] else [])
      (connected info counting consumer (listening looped)) := by
  cases looped with
  | false => exact .nil _
  | true =>
    refine .cons (refusal_write rfl (by decide)) ?_ (.nil _)
    have hfresh : Fresh (connected info counting consumer (listening false)) consumer false :=
      fresh_connected (by decide) (by decide)
    exact (hfresh.writeControl _).trans (refresh_of_quiet (quiet_listening true))

theorem prepares_start :
    Prepares (connected info counting consumer (listening looped)) [.enableIrq]
      (readied info counting consumer looped) := by
  refine .cons rfl ?_ (.nil _)
  exact refresh_of_quiet (d := readied info counting consumer looped) (quiet_listening looped)

theorem exists_consumer (h : c.Flushable) :
    ∃ consumer, Consumer.make stdout c.threshold = .ok consumer ∧ consumer.label = stdout ∧
      consumer.threshold = c.threshold :=
  ⟨_, dif_pos h, rfl, rfl⟩

theorem refusal_bind (h : d.initialized = true) (c : Config) :
    (Operation.bind c.threshold stdout).refusal d =
      if c.Flushable then none else some (.invalidThreshold c.threshold) := by
  by_cases hc : c.Flushable
  · have hbounds : 0 < c.threshold ∧ c.threshold ≤ Fifo.capacity := hc
    simp only [Operation.refusal, absence, h, if_true, if_pos hc, if_pos hbounds]
    rfl
  · have hbounds : ¬(0 < c.threshold ∧ c.threshold ≤ Fifo.capacity) := hc
    simp only [Operation.refusal, if_neg hc, if_neg hbounds]
    rfl

/-- Nothing is pending on a new device, and so nothing is due when the host is attached. -/
theorem attach_newcomer (s : EchoSystem) (info : LineInfo) (consumer : Consumer) :
    (s.newcomer info).attach () =
      { connected info s.table.counting consumer .powerOn with consumer := none } := by
  rw [System.newcomer, create, reset, refresh_of_quiet quiet_powerOn]
  exact refresh_of_quiet quiet_powerOn

theorem prepares_connect (s : EchoSystem) (h : c.Flushable)
    (hmake : Consumer.make stdout c.threshold = .ok consumer) :
    Prepares (s.newcomer info) [.attach (), .bind c.threshold stdout]
      (connected info s.table.counting consumer .powerOn) := by
  refine .cons rfl (attach_newcomer s info consumer) (.cons ?_ ?_ (.nil _))
  · rw [refusal_bind rfl, if_pos h]
  · simp only [Operation.run, Device.bind, hmake]
    rfl

/-- A new device is ready once its preparation is through. -/
theorem prepares_newcomer (s : EchoSystem) (h : c.Flushable)
    (hmake : Consumer.make stdout c.threshold = .ok consumer) (line : UInt8) :
    Prepares (s.newcomer info) (preparation c line)
      (readied info s.table.counting consumer (c.loopback && line == 0)) :=
  (((prepares_connect s h hmake).append prepares_enable).append prepares_loop).append
    prepares_start

end Preparation

/-! ### One line -/

/-- A free line, of which the host knows nothing, is given to a device. -/
def given (s : EchoSystem) (line : UInt8) (d : Device Unit) : EchoSystem where
  devices := s.devices ++ [d]
  table := s.table.put line (.live s.devices.length)
  host := (s.host.enter line (.device s.devices.length)).2

theorem modify_given (s : EchoSystem) (line : UInt8) (d e : Device Unit) :
    (given s line d).modify s.devices.length (fun _ => e) = given s line e := by
  simp [given, System.modify, List.modify_eq_take_drop]

/-- A line that may be added: it exists, it is free, and the host knows nothing of it. -/
structure Vacant (s : EchoSystem) (line : UInt8) : Prop where
  lt_lineCount : line.toNat < lineCount
  slot_eq : s.table.slot line = .free
  find?_eq : s.host.find? line = none

namespace Vacant

variable (h : Vacant s line)

include h

theorem exists_add : ∃ info, LineInfo.ofLine line = .ok info ∧
    s.add line = (.ok s.devices.length, given s line (s.newcomer info)) := by
  obtain ⟨info, hinfo⟩ := LineInfo.ofLine_eq_ok_iff.mpr h.lt_lineCount
  have hline : info.line = line := LineInfo.line_of_ofLine hinfo
  refine ⟨info, hinfo, ?_⟩
  have hregister : Host.register s.host info s.devices.length =
      (.ok (), (s.host.enter line (.device s.devices.length)).2) := by
    have henter : Host.register s.host info s.devices.length =
        s.host.enter info.line (.device s.devices.length) := rfl
    rw [henter, hline, EchoHost.enter_of_none h.find?_eq]
  simp only [System.add, hinfo, h.slot_eq, if_true, hregister]
  rfl

theorem attached_given (d : Device Unit) : (given s line d).Attached line s.devices.length d where
  live := System.live?_eq_some_iff.mpr (LineTable.slot_put_self _ h.lt_lineCount _)
  entry := by simp [given, EchoHost.find?_enter, h.find?_eq]
  device := by simp [given]

theorem bringUp_of_flushable (hc : c.Flushable) :
    ∃ info consumer, LineInfo.ofLine line = .ok info ∧
      consumer.label = stdout ∧ consumer.threshold = c.threshold ∧
      bringUp s c line = (.ok s.devices.length,
        given s line (readied info s.table.counting consumer (c.loopback && line == 0))) := by
  obtain ⟨info, hinfo, hadd⟩ := h.exists_add
  obtain ⟨consumer, hmake, hlabel, hthreshold⟩ := exists_consumer hc
  refine ⟨info, consumer, hinfo, hlabel, hthreshold, ?_⟩
  have hprepared := performAll_of_prepares (prepares_newcomer s hc hmake line)
    (h.attached_given (s.newcomer info))
  simp only [bringUp, hadd, hprepared, modify_given]

/-- The host is attached first, and then the consumer is refused. -/
theorem bringUp_of_not_flushable (hc : ¬c.Flushable) :
    (bringUp s c line).1 = .error (.invalidThreshold c.threshold) := by
  obtain ⟨info, -, hadd⟩ := h.exists_add
  have hbind : (Operation.bind c.threshold stdout).refusal ((s.newcomer info).attach ()) =
      some (.invalidThreshold c.threshold) := by rw [refusal_bind rfl, if_neg hc]
  have hattach : performAll (given s line (s.newcomer info)) line (preparation c line) = _ :=
    performAll_of_refusal_eq_none (h.attached_given _) rfl _
  obtain ⟨t, hrefused⟩ : ∃ t, performAll (given s line (s.newcomer info)) line
      (preparation c line) = (.error (.invalidThreshold c.threshold), t) := by
    rw [hattach]
    exact performAll_of_refusal_eq_some ((h.attached_given _).modify _) hbind _
  simp only [bringUp, hadd, hrefused]

end Vacant

theorem bringUp_of_lineCount_le (h : lineCount ≤ line.toNat) (s : EchoSystem) (c : Config) :
    bringUp s c line = (.error (.invalidLine line), s) := by
  have hinfo : LineInfo.ofLine line = .error (.invalidLine line) := dif_neg (Nat.not_lt.mpr h)
  simp only [bringUp, System.add, hinfo]

/-! ### One line after another -/

/-- A line that is up: its device is listed by the host and asks it for the interrupts of the
receiver, has a worker to tell it and a consumer to flush to, and nothing is queued or pending. -/
structure Prepared (c : Config) (line : UInt8) (d : Device Unit) : Prop where
  info_eq : LineInfo.ofLine line = .ok d.info
  initialized : d.initialized = true
  registered : d.registered = true
  consumer : ∃ consumer, d.consumer = some consumer ∧ consumer.label = stdout ∧
    consumer.threshold = c.threshold
  attached : d.sink = some ()
  ier_eq : d.regs.ier = Echo.receiveInterrupts
  loopback_eq : d.regs.loopback = (c.loopback && line == 0)
  worker_eq : d.worker = .alive
  virq_eq : d.virq = { enabled := true }
  not_pending : Interrupt.isPending d.regs.iir = false
  rx_nil : d.rx.toList = []
  tx_nil : d.tx.toList = []
  metrics_eq : d.metrics = .zero (!c.noMetrics)

/-- The lines below a number are up, each under the device at the place of the same number. All
others are free, and the host knows nothing of them. -/
structure RisenTo (c : Config) (k : Nat) (s : EchoSystem) : Prop where
  length_devices : s.devices.length = k
  counting_eq : s.table.counting = !c.noMetrics
  slot_eq : ∀ line, s.table.slot line = if line.toNat < k then .live line.toNat else .free
  find?_eq : ∀ line, s.host.find? line =
    if line.toNat < k then some (.device line.toNat) else none
  prepared : ∀ line, line.toNat < k → ∃ d, s.devices[line.toNat]? = some d ∧ Prepared c line d

theorem risenTo_empty (c : Config) : RisenTo c 0 (empty (!c.noMetrics)) where
  length_devices := rfl
  counting_eq := rfl
  slot_eq _ := rfl
  find?_eq _ := rfl
  prepared _ h := absurd h (Nat.not_lt_zero _)

namespace RisenTo

variable {k : Nat}

theorem attached (h : RisenTo c k s) (hline : line.toNat < k) :
    ∃ d, s.Attached line line.toNat d ∧ Prepared c line d := by
  obtain ⟨d, hdevice, hd⟩ := h.prepared line hline
  refine ⟨d, ⟨System.live?_eq_some_iff.mpr ?_, ?_, hdevice⟩, hd⟩
  · rw [h.slot_eq, if_pos hline]
  · rw [h.find?_eq, if_pos hline]

theorem vacant (h : RisenTo c line.toNat s) (hlt : line.toNat < lineCount) : Vacant s line where
  lt_lineCount := hlt
  slot_eq := by rw [h.slot_eq, if_neg (Nat.lt_irrefl _)]
  find?_eq := by rw [h.find?_eq, if_neg (Nat.lt_irrefl _)]

theorem lt_succ_iff {line other : UInt8} :
    other.toNat < line.toNat + 1 ↔ other = line ∨ other.toNat < line.toNat := by
  rw [Nat.lt_succ_iff_lt_or_eq, UInt8.toNat_inj, or_comm]

theorem succ_given (h : RisenTo c line.toNat s) (hlt : line.toNat < lineCount)
    (hd : Prepared c line d) : RisenTo c (line.toNat + 1) (given s line d) where
  length_devices := by simp [Running.given, h.length_devices]
  counting_eq := h.counting_eq
  slot_eq other := by
    simp only [Running.given, LineTable.slot_put _ hlt, h.slot_eq, h.length_devices,
      lt_succ_iff]
    by_cases ho : other = line <;> simp [ho]
  find?_eq other := by
    simp only [Running.given, EchoHost.find?_enter, h.find?_eq, h.length_devices, lt_succ_iff]
    by_cases ho : other = line <;> simp [ho]
  prepared other hother := by
    rcases lt_succ_iff.mp hother with rfl | hbefore
    · exact ⟨d, by simp [Running.given, ← h.length_devices], hd⟩
    · obtain ⟨e, hdevice, he⟩ := h.prepared other hbefore
      exact ⟨e, List.getElem?_append_left (h.length_devices ▸ hbefore) ▸ hdevice, he⟩

/-- **The next line comes up**, if there is one. -/
theorem bringUp (h : RisenTo c line.toNat s) (hlt : line.toNat < lineCount) (hc : c.Flushable) :
    ∃ t, bringUp s c line = (.ok line.toNat, t) ∧ RisenTo c (line.toNat + 1) t := by
  obtain ⟨info, consumer, hinfo, hlabel, hthreshold, hup⟩ := (h.vacant hlt).bringUp_of_flushable hc
  rw [h.length_devices, h.counting_eq] at hup
  refine ⟨_, hup, h.succ_given hlt ?_⟩
  exact
    { info_eq := hinfo
      initialized := rfl
      registered := rfl
      consumer := ⟨consumer, rfl, hlabel, hthreshold⟩
      attached := rfl
      ier_eq := rfl
      loopback_eq := loopback_listening _
      worker_eq := rfl
      virq_eq := rfl
      not_pending := (quiet_listening _).not_pending
      rx_nil := Fifo.toList_reset _
      tx_nil := Fifo.toList_reset _
      metrics_eq := rfl }

/-- **All lines up to a number come up**, as long as the table has room for them. -/
theorem bringUpAll (h : RisenTo c k s) (hc : c.Flushable) {n : Nat} (hle : k + n ≤ lineCount) :
    ∃ t, bringUpAll s c ((List.range' k n).map UInt8.ofNat) = (.ok (List.range' k n), t) ∧
      RisenTo c (k + n) t := by
  induction n generalizing k s with
  | zero => exact ⟨s, rfl, h⟩
  | succ n ih =>
    have hlt : k < lineCount := by omega
    -- Places are numbers of any size and lines are bytes; below the end of the table they agree.
    have hnat : (UInt8.ofNat k).toNat = k :=
      UInt8.toNat_ofNat_of_lt' (Nat.lt_trans hlt (by decide))
    obtain ⟨t, hup, ht⟩ := bringUp (hnat.symm ▸ h) (hnat.symm ▸ hlt) hc
    rw [hnat] at hup ht
    obtain ⟨u, hrest, hu⟩ := ih ht (by omega)
    refine ⟨u, ?_, by rwa [Nat.add_right_comm] at hu⟩
    simp only [List.range'_succ, List.map_cons, Running.bringUpAll, hup, hrest]

theorem lines_eq (h : RisenTo c k s) (hle : k ≤ lineCount) :
    s.table.lines = (List.range k).map UInt8.ofNat := by
  have hbelow : ∀ k ≤ lineCount, ((List.range lineCount).map UInt8.ofNat).filter
      (fun line => decide (line.toNat < k)) = (List.range k).map UInt8.ofNat := by decide
  rw [LineTable.lines, ← hbelow k hle]
  refine List.filter_congr fun line _ => ?_
  rw [h.slot_eq]
  by_cases hline : line.toNat < k <;> simp [hline]

end RisenTo

/-! ### All lines -/

/-- Lines that came up before are not touched again. -/
theorem bringUpAll_append {lines : List UInt8} {devices : List Nat}
    (h : bringUpAll s c lines = (.ok devices, t)) (more : List UInt8) :
    bringUpAll s c (lines ++ more) =
      ((bringUpAll t c more).1.map (devices ++ ·), (bringUpAll t c more).2) := by
  induction lines generalizing s devices with
  | nil =>
    obtain ⟨hnone, rfl⟩ := Prod.mk.inj h
    obtain rfl := Except.ok.inj hnone
    rw [List.nil_append]
    obtain ⟨result, u⟩ := bringUpAll s c more
    cases result <;> rfl
  | cons line lines ih =>
    simp only [bringUpAll] at h
    split at h
    · cases h
    · next device u hup =>
      split at h
      · next rest v hrest =>
        obtain ⟨hall, rfl⟩ := Prod.mk.inj h
        obtain rfl := Except.ok.inj hall
        simp only [List.cons_append, bringUpAll, hup, ih hrest]
        cases (bringUpAll v c more).1 <;> rfl
      · cases h

/-- The first line that does not come up ends it. -/
theorem bringUpAll_of_error {e : Error} (h : (bringUp s c line).1 = .error e)
    (lines : List UInt8) : (bringUpAll s c (line :: lines)).1 = .error e := by
  have hup : bringUp s c line = (.error e, (bringUp s c line).2) := Prod.ext h rfl
  rw [bringUpAll, hup]

theorem start_of_error {e : Error}
    (h : (bringUpAll (empty (!c.noMetrics)) c (linesOf c)).1 = .error e) :
    start c = .error e := by
  have hall : bringUpAll (empty (!c.noMetrics)) c (linesOf c) = (.error e, _) := Prod.ext h rfl
  rw [start, hall]

theorem linesOf_eq (c : Config) : linesOf c = (List.range' 0 c.lines.toNat).map UInt8.ofNat := by
  rw [linesOf, List.range_eq_range']

theorem lt_of_mem_linesOf (h : line ∈ linesOf c) : line.toNat < c.lines.toNat := by
  obtain ⟨i, hi, rfl⟩ := List.mem_map.mp h
  rw [UInt8.toNat_ofNat']
  exact Nat.lt_of_le_of_lt (Nat.mod_le _ _) (List.mem_range.mp hi)

/-- **A valid configuration is brought up completely.** -/
theorem start_of_valid (h : c.lines.toNat ≤ lineCount) (hc : c.Flushable) :
    ∃ t, start c = .ok { config := c, devices := List.range c.lines.toNat, system := t } ∧
      RisenTo c c.lines.toNat t := by
  obtain ⟨t, hall, ht⟩ := (risenTo_empty c).bringUpAll hc (n := c.lines.toNat) (by omega)
  rw [Nat.zero_add] at ht
  refine ⟨t, ?_, ht⟩
  rw [start, linesOf_eq, hall, List.range_eq_range']

/-- With a threshold out of range the first line is refused. -/
theorem start_of_bad_threshold (h : c.lines ≠ 0) (hc : ¬c.Flushable) :
    start c = .error (.invalidThreshold c.threshold) := by
  have hpos : c.lines.toNat = c.lines.toNat - 1 + 1 := by
    have hne : c.lines.toNat ≠ 0 := fun hzero => h (UInt8.toNat_inj.mp hzero)
    omega
  refine start_of_error ?_
  rw [linesOf_eq, hpos, List.range'_succ, List.map_cons]
  have hfirst : Vacant (empty (!c.noMetrics)) 0 := (risenTo_empty c).vacant (by decide)
  exact bringUpAll_of_error (hfirst.bringUp_of_not_flushable hc) _

/-- With too many lines those that exist come up, and the next is refused. -/
theorem start_of_many (h : lineCount < c.lines.toNat) (hc : c.Flushable) :
    start c = .error (.invalidLine 4) := by
  obtain ⟨t, hall, -⟩ := (risenTo_empty c).bringUpAll hc (n := lineCount) (by omega)
  obtain ⟨more, hmore⟩ := Nat.exists_eq_add_of_lt h
  have hsplit : List.range' 0 c.lines.toNat =
      List.range' 0 lineCount ++ lineCount :: List.range' (lineCount + 1) more := by
    rw [hmore, Nat.add_assoc, ← List.range'_append_1]
    rfl
  refine start_of_error ?_
  rw [linesOf_eq, hsplit, List.map_append, List.map_cons, bringUpAll_append hall,
    bringUpAll_of_error (congrArg Prod.fst (bringUp_of_lineCount_le (by decide) t c))]
  rfl

/-- **Validation and bringing lines up agree.** A program starts exactly with a valid configuration.
Its lines are then those that were asked for, and each of them is up: listed by the host under its
device, with no interrupt pending, and with line 0 in loopback if that was asked for. -/
theorem starts_iff_valid (c : Config) (h : c.lines ≠ 0) :
    (c.validate = .ok () ↔ ∃ r, start c = .ok r) ∧
      ∀ r, start c = .ok r →
        r.devices = List.range c.lines.toNat ∧ r.system.table.lines = linesOf c ∧
          ∀ line ∈ linesOf c, ∃ d, r.system.Attached line line.toNat d ∧ Prepared c line d := by
  rw [Config.validate_eq_ok_iff h]
  -- Validation looks at the number of lines first. Here the threshold comes first, because the very
  -- first line finds it out, however many lines are to follow.
  by_cases hc : c.Flushable
  · by_cases hfew : c.lines.toNat ≤ lineCount
    · obtain ⟨t, hstart, ht⟩ := start_of_valid hfew hc
      refine ⟨iff_of_true ⟨hfew, hc⟩ ⟨_, hstart⟩, fun r hr => ?_⟩
      obtain rfl := Except.ok.inj (hstart.symm.trans hr)
      exact ⟨rfl, ht.lines_eq hfew, fun line hline => ht.attached (lt_of_mem_linesOf hline)⟩
    · have hstart := start_of_many (Nat.not_le.mp hfew) hc
      simp [hstart, hfew]
  · have hstart := start_of_bad_threshold h hc
    simp [hstart, hc]

/-- Three lines, the first of them in loopback; and one line more than there are. -/
theorem starts_three_lines :
    let c : Config := { Config.standard with lines := 3, threshold := 5, loopback := true }
    (∃ r, start c = .ok r ∧ r.devices = [0, 1, 2] ∧ r.system.table.lines = [0, 1, 2] ∧
      ∃ d e, r.system.Attached 0 0 d ∧ d.regs.loopback = true ∧
        r.system.Attached 2 2 e ∧ e.regs.loopback = false) ∧
    ¬∃ r, start { c with lines := 5 } = .ok r := by
  intro c
  obtain ⟨hvalid, hup⟩ := starts_iff_valid c (by decide)
  obtain ⟨r, hr⟩ := hvalid.mp (by decide)
  obtain ⟨hdevices, hlines, hall⟩ := hup r hr
  obtain ⟨d, hd, hfirst⟩ := hall 0 (by decide)
  obtain ⟨e, he, hlast⟩ := hall 2 (by decide)
  refine ⟨⟨r, hr, hdevices, hlines, d, e, hd, hfirst.loopback_eq, he, hlast.loopback_eq⟩, ?_⟩
  exact (starts_iff_valid { c with lines := 5 } (by decide)).1.not.mp (by decide)

end Running

end Uart16550
