import Uart16550.Proofs.Retirement
import Uart16550.Proofs.VirtualIrq

/-!
# Additions fail without a trace and removals always end

An addition can fail in three places, and each time before anything was stored: what is left of it
is at most a host that has refused (`System.Unadded`). A removal has three places to fail and goes
on past each of them. Its answer tells the first failure (`System.result_removeWith`); what it
leaves behind does not depend on it. The line is free, the table is given up unless another line is
taken, and the device has let go of everything (`System.Vacated`). When the table goes away with
lines still live, this happens to all of them.

## Main statements

* `System.add_fst`: how an addition is answered.
* `System.vacated_removeAmid`: a removal, whatever fails and whatever the host has added meanwhile.
* `System.slot_removeAll`: no line is left when the table goes away.
-/

namespace Uart16550

variable {η σ : Type}

/-- A device that has let go of everything. -/
structure Device.LetGo (d : Device σ) : Prop where
  worker_eq : d.worker = .absent
  not_enabled : d.virq.enabled = false
  not_registered : d.registered = false
  consumer_eq : d.consumer = none
  sink_eq : d.sink = none
  rx_nil : d.rx.toList = []
  tx_nil : d.tx.toList = []
  not_initialized : d.initialized = false

theorem Device.letGo_dismantle {d : Device σ} (h : d.virq.enabled = d.holdsWorker) :
    d.dismantle.LetGo where
  worker_eq := d.worker_dismantle
  not_enabled := (retired_dismantle h).not_enabled
  not_registered := rfl
  consumer_eq := rfl
  sink_eq := rfl
  rx_nil := (retired_dismantle h).toList_eq.1
  tx_nil := (retired_dismantle h).toList_eq.2
  not_initialized := rfl

namespace System

variable [Host η] {s : System η σ}

/-! ### Additions that fail -/

/-- How an addition is answered: the line is looked at first, then its slot, and the host is asked
last. -/
theorem add_fst (s : System η σ) (line : UInt8) :
    (s.add line).1 =
      match LineInfo.ofLine line with
      | .error e => .error e
      | .ok info =>
        if s.table.slot line = .free then
          (Host.register s.host info s.devices.length).1.map fun _ => s.devices.length
        else
          .error (.alreadyInitialized line) := by
  cases hi : LineInfo.ofLine line with
  | error e => simp only [add, hi]
  | ok info =>
    by_cases hfree : s.table.slot line = .free
    · rcases hr : Host.register s.host info s.devices.length with ⟨answer, host⟩
      cases answer <;> simp only [add, hi, hfree, if_true, hr] <;> rfl
    · simp only [add, hi, hfree, if_false]

/-- What an addition that fails leaves behind. -/
structure Unadded (s : System η σ) (line : UInt8) (e : Error) : Prop where
  /-- The line does not exist, is taken, or was refused by the host. -/
  cause : lineCount ≤ line.toNat ∧ e = .invalidLine line ∨
    line.toNat < lineCount ∧ s.table.slot line ≠ .free ∧ e = .alreadyInitialized line ∨
    ∃ info, LineInfo.ofLine line = .ok info ∧ s.table.slot line = .free ∧
      (Host.register s.host info s.devices.length).1 = .error e
  devices_eq : (s.add line).2.devices = s.devices
  table_eq : (s.add line).2.table = s.table
  /-- Nothing is recorded that a host does not record when it refuses. -/
  host_eq {α : Type} (recorded : η → α) :
    (∀ (h : η) (info : LineInfo) (device : Nat) (e : Error),
      (Host.register h info device).1 = .error e →
      recorded (Host.register h info device).2 = recorded h) →
    recorded (s.add line).2.host = recorded s.host

/-- **An addition that fails leaves no trace.** -/
theorem unadded_of_error {line : UInt8} {e : Error} (h : (s.add line).1 = .error e) :
    s.Unadded line e := by
  rcases s.add_cases line with
    ⟨⟨e', ha⟩, hcause⟩ | ⟨info, hi, hfree, ⟨e', herr, ha⟩ | ⟨-, ha⟩⟩
  · refine ⟨?_, by rw [ha], by rw [ha], fun _ _ => by rw [ha]⟩
    rw [add_fst] at h
    by_cases hlt : line.toNat < lineCount
    · obtain ⟨info, hi⟩ := LineInfo.ofLine_eq_ok_iff.mpr hlt
      have htaken : s.table.slot line ≠ .free := hcause.resolve_left (by simp [hi])
      simp only [hi, if_neg htaken, Except.error.injEq] at h
      exact Or.inr (Or.inl ⟨hlt, htaken, h.symm⟩)
    · simp only [LineInfo.ofLine, hlt, dite_false, Except.error.injEq] at h
      exact Or.inl ⟨Nat.not_lt.mp hlt, h.symm⟩
  · rw [ha] at h
    obtain rfl := Except.error.inj h
    refine ⟨Or.inr (Or.inr ⟨info, hi, hfree, herr⟩), by rw [ha], by rw [ha],
      fun recorded hkeeps => ?_⟩
    rw [ha]
    exact hkeeps _ _ _ _ herr
  · rw [ha] at h
    cases h

/-! ### Removals -/

/-- **How a removal is answered.** A worker found dead is the first failure, a host that refuses the
second. -/
theorem result_removeWith (reentrant : Bool) {line : UInt8} {device : Nat} {d : Device σ}
    {info : LineInfo} (hs : s.table.slot line = .live device)
    (hd : s.devices[device]? = some d) (hi : LineInfo.ofLine line = .ok info)
    (hline : d.line = line) :
    (s.removeWith reentrant line).result =
      if d.worker = .dead then .error (.workerPanicked line)
      else (Host.unregister s.host info).1.map fun _ => () := by
  have hstopped : ((s.claim line).stopWorker device).1 =
      if d.worker = .dead then .error (.workerPanicked line) else .ok () := by
    have hd' : (s.claim line).devices[device]? = some d := hd
    cases hw : d.worker <;>
      simp [stopWorker, hd', Device.holdsWorker, Device.disableIrq_fst, hw, hline]
  have hhost : (((s.claim line).stopWorker device).2.cutOff device).host = s.host :=
    s.host_cutOffLine line device
  simp only [removeWith, hi, hs, delist, hhost, hstopped]
  by_cases hdead : d.worker = .dead
  · simp [hdead, firstFailure]
  · cases (Host.unregister s.host info).1 <;> simp [hdead, firstFailure, Except.map]

/-- What the removal of a line leaves behind. -/
structure Vacated (s : System η σ) (line : UInt8) (device : Nat) : Prop where
  slot_eq : s.table.slot line = .free
  /-- No line is stuck halfway. -/
  settled (other : UInt8) : s.table.slot other ≠ .removing
  /-- The table is given up unless another line is taken. -/
  isAllocated_iff : s.table.isAllocated = true ↔ ∃ other, s.table.slot other ≠ .free
  letGo : ∃ d, s.devices[device]? = some d ∧ d.LetGo

omit [Host η] in
/-- Between acts a line is taken only if it is live. -/
theorem Kept.isAllocated_iff (h : s.Kept none) :
    s.table.isAllocated = true ↔ ∃ line, s.table.slot line ≠ .free := by
  refine ⟨h.taken, ?_⟩
  rintro ⟨line, hne⟩
  exact LineTable.isAllocated_of_slot_ne hne

/-- **A removal always ends**, whether or not the worker had died and whatever the host answers and
has added in the middle of it. -/
theorem vacated_removeAmid (hkept : s.Kept none) (hreachable : ∀ d ∈ s.devices, d.Reachable)
    {line : UInt8} {device : Nat} (hs : s.table.slot line = .live device)
    (requests : List UInt8) : (s.removeAmid line requests).Vacated line device := by
  have hafter : (s.removeAmid line requests).Kept none := kept_removeAmid hkept line requests
  obtain ⟨d, hd, -⟩ := hkept.live hs
  have hhoused : d.Housed := Device.housed_of_reachable (hreachable d (List.mem_of_getElem? hd))
  refine ⟨slot_removeAmid_self hs requests, fun other hremoving => ?_, hafter.isAllocated_iff,
    d.dismantle, ?_, Device.letGo_dismantle hhoused.enabled_eq⟩
  · obtain ⟨_, hgoing⟩ := hafter.removing.mp hremoving
    cases hgoing
  · rw [getElem?_removeAmid hs requests hd, if_pos rfl]

/-! ### The end of the table -/

/-- Lines removed one after another are free then, and the others are as they were. -/
theorem slot_foldl_removeAmid (s : System η σ) (lines : List UInt8) (line : UInt8) :
    (lines.foldl (fun s line => s.removeAmid line []) s).table.slot line =
      if line ∈ lines ∧ s.table.slot line ≠ .removing then .free else s.table.slot line := by
  induction lines generalizing s with
  | nil => simp
  | cons first lines ih =>
    rw [List.foldl_cons, ih]
    by_cases hlive : ∃ device, s.table.slot first = .live device
    · obtain ⟨device, hs⟩ := hlive
      by_cases he : line = first
      · subst he
        simp [slot_removeAmid_self hs, hs]
      · simp [slot_removeAmid_nil hs he, he]
    · rw [removeAmid_of_not_live (not_exists.mp hlive)]
      by_cases he : line = first
      · subst he
        cases hs : s.table.slot line with
        | live device => exact absurd ⟨device, hs⟩ hlive
        | free | removing => simp
      · simp [he]

omit [Host η] in
theorem mem_lines {line : UInt8} {device : Nat} (h : s.table.slot line = .live device) :
    line ∈ s.table.lines := by
  have hlt : line.toNat < lineCount := LineTable.toNat_lt_of_slot_ne (by rw [h]; simp)
  simp only [LineTable.lines, List.mem_filter, List.mem_map, List.mem_range]
  exact ⟨⟨line.toNat, hlt, UInt8.ofNat_toNat⟩, by rw [h]⟩

/-- **When the table goes away, no line is left**, whatever fails on the way. -/
theorem slot_removeAll (hkept : s.Kept none) (line : UInt8) :
    s.removeAll.table.slot line = .free := by
  rw [removeAll_eq, slot_foldl_removeAmid]
  cases hs : s.table.slot line with
  | free => simp
  | live device => simp [mem_lines hs]
  | removing =>
    obtain ⟨_, hgoing⟩ := hkept.removing.mp hs
    cases hgoing

/-- **Additions fail without a trace and removals always end.** After any run of a table, under any
host:

* an addition that fails leaves the devices, the table and what the host records as they were;
* the removal of a line that is not live is refused, and changes nothing;
* the removal of a live line leaves the line free, the table given up unless another line is taken,
  and a device that has let go of everything. It tells of a worker found dead, else of a host that
  has refused, and succeeds if there was neither. It is the same whatever the host has added in the
  middle of it;
* if the table goes away, this happens to every live line, whatever fails. -/
theorem completes_of_reachable (host : η) (counting : Bool) (acts : List (Act η σ)) :
    let s : System η σ := (System.empty host counting).after acts
    (∀ (line : UInt8) (e : Error), (s.add line).1 = .error e → s.Unadded line e) ∧
      (∀ line : UInt8, (∀ device, s.table.slot line ≠ .live device) →
        s.remove line =
          { result := .error (if line.toNat < lineCount then .notInitialized line
              else .invalidLine line)
            readded := none
            system := s }) ∧
      (∀ (line : UInt8) (device : Nat), s.table.slot line = .live device →
        ∃ d info, s.devices[device]? = some d ∧ LineInfo.ofLine line = .ok info ∧
          (s.remove line).result =
            (if d.worker = .dead then .error (.workerPanicked line)
              else (Host.unregister s.host info).1.map fun _ => ()) ∧
          (s.remove line).system.Vacated line device ∧
          ∀ requests, (s.removeAmid line requests).Vacated line device) ∧
      (∀ line : UInt8, s.removeAll.table.slot line = .free) ∧
      s.removeAll.table.isAllocated = false ∧
      ∀ (line : UInt8) (device : Nat), s.table.slot line = .live device →
        ∃ d, s.removeAll.devices[device]? = some d ∧ d.LetGo := by
  intro s
  have hkept : s.Kept none := after_of_keeps kept_perform (kept_empty host counting) acts
  have hreachable : ∀ d ∈ s.devices, d.Reachable := reachable_after host counting acts
  have hfree : ∀ line, s.removeAll.table.slot line = .free := slot_removeAll hkept
  refine ⟨fun line e h => unadded_of_error h, fun line h => removeWith_of_not_live true h, ?_,
    hfree, ?_, ?_⟩
  · intro line device hs
    obtain ⟨d, hd, hserves⟩ := hkept.live hs
    have hvacated := vacated_removeAmid hkept hreachable hs
    have hline : d.line = line := LineInfo.line_of_ofLine hserves.info_eq
    refine ⟨d, d.info, hd, hserves.info_eq, ?_, ?_, hvacated⟩
    · exact result_removeWith true hs hd hserves.info_eq hline
    · rw [remove, system_removeWith]
      exact hvacated _
  · rw [Bool.eq_false_iff, ne_eq, (kept_removeAll hkept).isAllocated_iff]
    rintro ⟨line, hne⟩
    exact hne (hfree line)
  · intro line device hs
    obtain ⟨d, hd, -⟩ := hkept.live hs
    have hhoused : d.Housed := Device.housed_of_reachable (hreachable d (List.mem_of_getElem? hd))
    refine ⟨d.dismantle, ?_, Device.letGo_dismantle hhoused.enabled_eq⟩
    rw [getElem?_removeAll hd, if_pos ⟨line, mem_lines hs, hs⟩]

/-- Two lines are live, the worker of the first has died, and the host is about to refuse whatever
it is asked. A third line is not added and leaves no trace; one that was never added is not removed.
The first is removed all the same, also if the host has line 3 added in the middle, and so are both
as the table goes away. -/
theorem completes_of_crash :
    let refuse : RecordingHost → RecordingHost := fun h =>
      { h with refuseRegister := some "full", refuseUnregister := some "busy" }
    let s : System RecordingHost Unit := (System.empty {} true).after [
      .add 0, .add 2, .touch 0 (.operate (.attach ())), .touch 0 (.operate .enableIrq),
      .touch 0 .crashed, .change refuse]
    (s.add 1).1 = .error (.registration "full") ∧ (s.add 1).2.table = s.table ∧
      (s.add 1).2.host.entries = s.host.entries ∧
      (s.remove 1).result = .error (.notInitialized 1) ∧
      (s.remove 0).result = .error (.workerPanicked 0) ∧
      (s.remove 2).result = .error (.registration "busy") ∧
      (s.remove 0).system.Vacated 0 0 ∧ (s.removeAmid 0 [3]).Vacated 0 0 ∧
      s.removeAll.table.isAllocated = false := by
  intro refuse s
  have hslots : s.table.slot 0 = .live 0 ∧ s.table.slot 2 = .live 1 ∧ s.table.slot 1 = .free := by
    decide +kernel
  have hrefused : (s.add 1).1 = .error (.registration "full") := by decide +kernel
  have hworkers : (s.devices[0]?.map (·.worker)) = some .dead ∧
      (s.devices[1]?.map (·.worker)) = some .absent := by decide +kernel
  have hbusy : ∀ info, (Host.unregister s.host info).1 = .error (.registration "busy") := by
    intro info
    have hrefuse : s.host.refuseUnregister = some "busy" := by decide +kernel
    simp only [Host.unregister, RecordingHost.unregister, hrefuse]
  obtain ⟨hadd, hnot, hlive, -, hgone, -⟩ := completes_of_reachable (η := RecordingHost)
    (σ := Unit) {} true [.add 0, .add 2, .touch 0 (.operate (.attach ())),
      .touch 0 (.operate .enableIrq), .touch 0 .crashed, .change refuse]
  have hunadded : s.Unadded 1 (.registration "full") := hadd 1 _ hrefused
  obtain ⟨d, info, hd, -, hresult, hvacated, hamid⟩ := hlive 0 0 hslots.1
  obtain ⟨d', info', hd', -, hresult', -⟩ := hlive 2 1 hslots.2.1
  have hdead : d.worker = .dead := by simpa [s, hd] using hworkers.1
  have habsent : d'.worker = .absent := by simpa [s, hd'] using hworkers.2
  refine ⟨hrefused, hunadded.table_eq, ?_, ?_, ?_, ?_, hvacated, hamid [3], hgone⟩
  · refine hunadded.host_eq RecordingHost.entries fun h info device e herr => ?_
    cases hr : h.refuseRegister with
    | some text => simp [Host.register, RecordingHost.register, hr]
    | none => simp [Host.register, RecordingHost.register, hr] at herr
  · have hfree := hnot 1 (by rw [show _ = Slot.free from hslots.2.2]; simp)
    exact congrArg Removal.result hfree
  · exact hresult.trans (if_pos hdead)
  · rw [show (s.remove 2).result = _ from hresult', habsent, show _ = _ from hbusy info']
    rfl

end System

end Uart16550
