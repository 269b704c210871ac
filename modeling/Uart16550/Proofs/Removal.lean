import Uart16550.Proofs.Operation
import Uart16550.System.Removal

/-!
# What adding and removing a line do

`System.add` has three outcomes and `add_cases` lists them. A removal tears down one device, its
line being taken until the end, and in the middle of it the host has its say: `System.amid` is the
system at that point, with the line taken and its device cut off, after the host has had some lines
added. `System.removeAmid` is a removal with any such lines; the removals of a table are of this
kind (`system_removeWith`).

What becomes of the devices is `Device.dismantle` for the one of the line, and nothing for any other
(`getElem?_removeAmid`).
-/

namespace Uart16550

variable {η σ : Type}

namespace LineTable

/-- A line that is taken is one of the table's. -/
theorem toNat_lt_of_slot_ne {t : LineTable} {line : UInt8} (h : t.slot line ≠ .free) :
    line.toNat < lineCount := by
  by_contra hge
  refine h ?_
  cases hs : t.slots with
  | none => simp only [slot, hs]
  | some slots => simp only [slot, hs, hge, dite_false]

/-- Only an allocated table has a line that is taken. -/
theorem isAllocated_of_slot_ne {t : LineTable} {line : UInt8} (h : t.slot line ≠ .free) :
    t.isAllocated = true := by
  by_contra hnone
  refine h ?_
  have hs : t.slots = none := by simpa [isAllocated] using hnone
  simp only [slot, hs]

end LineTable

/-- The lines of the table are those that have an identity. -/
theorem LineInfo.ofLine_eq_ok_iff {line : UInt8} :
    (∃ info, ofLine line = .ok info) ↔ line.toNat < lineCount := by
  by_cases h : line.toNat < lineCount <;> simp [ofLine, h]

/-- An identity names the line that it was asked for. -/
theorem LineInfo.line_of_ofLine {line : UInt8} {info : LineInfo} (h : ofLine line = .ok info) :
    info.line = line := by
  unfold ofLine at h
  split at h
  · cases h
    rfl
  · cases h

namespace Device

/-- The device once its line is gone: no worker, not listed, and nothing kept. -/
def dismantle (d : Device σ) : Device σ :=
  ((if d.holdsWorker then d.disableIrq.2 else d).setRegistered false).release

theorem worker_disableIrq (d : Device σ) : d.disableIrq.2.worker = .absent := by
  rcases d.disableIrq_cases with ⟨habsent, hd⟩ | ⟨-, hd⟩ <;> rw [hd]
  exact habsent

/-- A worker that is not there need not be stopped. -/
theorem stop_eq_disableIrq (d : Device σ) :
    (if d.holdsWorker then d.disableIrq.2 else d) = d.disableIrq.2 := by
  split
  · rfl
  · next hnone =>
    rcases d.disableIrq_cases with ⟨-, hd⟩ | ⟨hpresent, -⟩
    · exact hd.symm
    · simp [holdsWorker, hpresent] at hnone

theorem dismantle_eq (d : Device σ) :
    d.dismantle = (d.disableIrq.2.setRegistered false).release := by
  rw [dismantle, stop_eq_disableIrq]

theorem worker_dismantle (d : Device σ) : d.dismantle.worker = .absent := by
  rw [dismantle_eq]
  exact d.worker_disableIrq

theorem initialized_dismantle (d : Device σ) : d.dismantle.initialized = false := rfl

theorem metrics_dismantle (d : Device σ) : d.dismantle.metrics = d.metrics := by
  have hmetrics : d.disableIrq.2.metrics = d.metrics := by
    rcases d.disableIrq_cases with ⟨-, hd⟩ | ⟨-, hd⟩ <;> rw [hd]
  rw [dismantle_eq]
  exact hmetrics

/-- Nothing more is lost the second time. -/
theorem dismantle_dismantle (d : Device σ) : d.dismantle.dismantle = d.dismantle := by
  have hheld : d.dismantle.holdsWorker = false := by simp [holdsWorker, worker_dismantle]
  rw [dismantle, hheld]
  rfl

end Device

namespace System

/-! ### Adding -/

/-- The device that a line is given. -/
def newcomer (s : System η σ) (info : LineInfo) : Device σ :=
  (Device.create info s.table.counting).setRegistered true

/-- **What adding a line can do.** A line that does not exist or is taken is refused on the spot; a
free one is refused by the host, which may change, or given a new device. -/
theorem add_cases [Host η] (s : System η σ) (line : UInt8) :
    ((∃ e, s.add line = (.error e, s)) ∧
        (LineInfo.ofLine line = .error (.invalidLine line) ∨ s.table.slot line ≠ .free)) ∨
      (∃ info, LineInfo.ofLine line = .ok info ∧ s.table.slot line = .free ∧
        ((∃ e, (Host.register s.host info s.devices.length).1 = .error e ∧
            s.add line =
              (.error e, { s with host := (Host.register s.host info s.devices.length).2 })) ∨
          (Host.register s.host info s.devices.length).1 = .ok () ∧
            s.add line =
              (.ok s.devices.length,
                { devices := s.devices ++ [s.newcomer info]
                  table := s.table.put line (.live s.devices.length)
                  host := (Host.register s.host info s.devices.length).2 }))) := by
  cases hi : LineInfo.ofLine line with
  | error e =>
    have he : e = .invalidLine line := by
      unfold LineInfo.ofLine at hi
      split at hi <;> cases hi
      rfl
    exact Or.inl ⟨⟨e, by simp only [add, hi]⟩, Or.inl (he ▸ rfl)⟩
  | ok info =>
    by_cases hfree : s.table.slot line = .free
    · refine Or.inr ⟨info, rfl, hfree, ?_⟩
      rcases hr : Host.register s.host info s.devices.length with ⟨answer, host⟩
      cases answer with
      | error e => exact Or.inl ⟨e, rfl, by simp only [add, hi, hfree, if_true, hr]⟩
      | ok u =>
        refine Or.inr ⟨rfl, ?_⟩
        simp only [add, hi, hfree, if_true, hr]
        rfl
    · have hrefused : s.add line = (.error (.alreadyInitialized line), s) := by
        simp only [add, hi, hfree, if_false]
      exact Or.inl ⟨⟨_, hrefused⟩, Or.inr hfree⟩

/-- A line that is taken is refused, whatever it is taken for. -/
theorem add_of_taken [Host η] {s : System η σ} {line : UInt8} (h : s.table.slot line ≠ .free) :
    (s.add line).1 = .error (.alreadyInitialized line) := by
  obtain ⟨info, hi⟩ := LineInfo.ofLine_eq_ok_iff.mpr (LineTable.toNat_lt_of_slot_ne h)
  simp only [add, hi, h, if_false]

/-- Adding a line leaves every device where it was, and every line that is taken. -/
theorem add_keeps [Host η] (s : System η σ) (line : UInt8) :
    (∀ {place : Nat} {d : Device σ}, s.devices[place]? = some d →
        (s.add line).2.devices[place]? = some d) ∧
      ∀ {other : UInt8}, s.table.slot other ≠ .free →
        (s.add line).2.table.slot other = s.table.slot other := by
  rcases s.add_cases line with
    ⟨⟨e, ha⟩, -⟩ | ⟨info, -, hfree, ⟨e, -, ha⟩ | ⟨-, ha⟩⟩ <;> rw [ha]
  · exact ⟨fun h => h, fun _ => rfl⟩
  · exact ⟨fun h => h, fun _ => rfl⟩
  · refine ⟨fun {place d} hd => ?_, fun {other} ho => ?_⟩
    · obtain ⟨hlt, -⟩ := List.getElem?_eq_some_iff.mp hd
      exact (List.getElem?_append_left hlt).trans hd
    · have hne : other ≠ line := by
        rintro rfl
        exact ho hfree
      exact LineTable.slot_put_ne _ hne _

/-- Lines added one after another. -/
def addAll [Host η] (s : System η σ) (lines : List UInt8) : System η σ :=
  lines.foldl (fun s line => (s.add line).2) s

theorem addAll_append [Host η] (s : System η σ) (lines more : List UInt8) :
    s.addAll (lines ++ more) = (s.addAll lines).addAll more :=
  List.foldl_append

/-- What every addition keeps, many keep. -/
theorem addAll_of_keeps [Host η] {P : System η σ → Prop} (keep : ∀ s line, P s → P (s.add line).2)
    {s : System η σ} (h : P s) (lines : List UInt8) : P (s.addAll lines) := by
  induction lines generalizing s with
  | nil => exact h
  | cons line lines ih => exact ih (keep s line h)

theorem getElem?_addAll [Host η] {s : System η σ} {place : Nat} {d : Device σ}
    (h : s.devices[place]? = some d) (lines : List UInt8) :
    (s.addAll lines).devices[place]? = some d :=
  addAll_of_keeps (P := fun s => s.devices[place]? = some d)
    (fun s line hs => (s.add_keeps line).1 hs) h lines

theorem slot_addAll [Host η] {s : System η σ} {line : UInt8} {x : Slot} (hx : x ≠ .free)
    (h : s.table.slot line = x) (lines : List UInt8) : (s.addAll lines).table.slot line = x :=
  addAll_of_keeps (P := fun s => s.table.slot line = x)
    (fun s other hs => ((s.add_keeps other).2 (by rw [hs]; exact hx)).trans hs) h lines

/-! ### Removing -/

/-- The system as the host is asked to delist a line: the line is taken, its device has no worker
and takes no input. -/
def cutOffLine (s : System η σ) (line : UInt8) (device : Nat) : System η σ :=
  ((s.claim line).stopWorker device).2.cutOff device

/-- What the host answers when it is asked to delist a live line. -/
def delisting? [Host η] (s : System η σ) (line : UInt8) :
    Option (Except Error (Option UInt8) × η) :=
  match LineInfo.ofLine line, s.table.slot line with
  | .ok info, .live _ => some (Host.unregister s.host info)
  | _, _ => none

/-- The system in the middle of the removal of a live line, as the host has answered and had some
lines added. -/
def amid [Host η] (s : System η σ) (line : UInt8) (requests : List UInt8) : System η σ :=
  match s.delisting? line, s.table.slot line with
  | some (_, host), .live device =>
    ({ s.cutOffLine line device with host := host } : System η σ).addAll requests
  | _, _ => s

/-- A removal in the middle of which the host has these lines added, whatever it answers. -/
def removeAmid [Host η] (s : System η σ) (line : UInt8) (requests : List UInt8) : System η σ :=
  match s.table.slot line with
  | .live device => ((s.amid line requests).releaseDevice device).vacate line
  | .free | .removing => s

/-- The line that the host asks for in the middle of a removal, if it is still able to. -/
def requested [Host η] (s : System η σ) (reentrant : Bool) (line : UInt8) : Option UInt8 :=
  if reentrant then (s.delisting? line).bind fun answer => answer.1.toOption.join else none

variable {s : System η σ} {line : UInt8} {device : Nat}

theorem delisting?_of_live [Host η] (h : s.table.slot line = .live device) :
    ∃ info, LineInfo.ofLine line = .ok info ∧
      s.delisting? line = some (Host.unregister s.host info) := by
  have hlt : line.toNat < lineCount := LineTable.toNat_lt_of_slot_ne (by rw [h]; simp)
  obtain ⟨info, hi⟩ := LineInfo.ofLine_eq_ok_iff.mpr hlt
  exact ⟨info, hi, by simp only [delisting?, hi, h]⟩

/-- What a change does is what it does to the device that is there. -/
theorem modify_congr {f g : Device σ → Device σ}
    (h : ∀ d, s.devices[device]? = some d → f d = g d) : s.modify device f = s.modify device g := by
  have hdevices : s.devices.modify device f = s.devices.modify device g := by
    refine List.ext_getElem? fun place => ?_
    by_cases hp : device = place
    · subst hp
      rw [List.getElem?_modify_eq, List.getElem?_modify_eq]
      exact Option.map_congr fun d hd => h d hd
    · rw [List.getElem?_modify_ne _ _ hp, List.getElem?_modify_ne _ _ hp]
  simp only [modify, hdevices]

/-- What leaves that device as it is changes nothing. -/
theorem modify_eq_self {f : Device σ → Device σ}
    (h : ∀ d, s.devices[device]? = some d → f d = d) : s.modify device f = s := by
  have hid : s.devices.modify device (fun d => d) = s.devices := by
    refine List.ext_getElem? fun place => ?_
    by_cases hp : device = place <;> simp [hp]
  rw [modify_congr (g := fun d => d) h]
  simp only [modify, hid]

/-- Stopping a worker changes the device alone. -/
theorem stopWorker_eq_modify (s : System η σ) (device : Nat) :
    (s.stopWorker device).2 = s.modify device (·.disableIrq.2) := by
  simp only [stopWorker]
  cases hd : s.devices[device]? with
  | none => exact (modify_eq_self fun d hnone => by rw [hd] at hnone; cases hnone).symm
  | some d =>
    cases hw : d.holdsWorker with
    | true =>
      simp only [hw, if_true]
      exact modify_congr fun e he => by rw [Option.some.inj (hd.symm.trans he)]
    | false =>
      -- There is no worker to be stopped.
      have hsame : d.disableIrq.2 = d := by rw [← d.stop_eq_disableIrq, hw]; rfl
      simp only [hw, Bool.false_eq_true, if_false]
      exact (modify_eq_self fun e he => by rw [← Option.some.inj (hd.symm.trans he), hsame]).symm

/-- Until the host is asked, only the line and its device are touched. -/
theorem cutOffLine_eq_modify (s : System η σ) (line : UInt8) (device : Nat) :
    s.cutOffLine line device =
      (s.claim line).modify device fun d => d.disableIrq.2.setRegistered false := by
  rw [cutOffLine, stopWorker_eq_modify]
  simp only [cutOff, modify, List.modify_modify_eq]
  rfl

theorem host_cutOffLine (s : System η σ) (line : UInt8) (device : Nat) :
    (s.cutOffLine line device).host = s.host := by
  rw [cutOffLine_eq_modify]
  rfl

theorem table_cutOffLine (s : System η σ) (line : UInt8) (device : Nat) :
    (s.cutOffLine line device).table = s.table.put line .removing := by
  rw [cutOffLine_eq_modify]
  rfl

theorem devices_cutOffLine (s : System η σ) (line : UInt8) (device : Nat) :
    (s.cutOffLine line device).devices =
      s.devices.modify device fun d => d.disableIrq.2.setRegistered false := by
  rw [cutOffLine_eq_modify]
  rfl

theorem amid_of_live [Host η] {info : LineInfo} (h : s.table.slot line = .live device)
    (hi : LineInfo.ofLine line = .ok info) (requests : List UInt8) :
    s.amid line requests =
      ({ s.cutOffLine line device with host := (Host.unregister s.host info).2 } :
        System η σ).addAll requests := by
  simp only [amid, delisting?, hi, h]

/-- **The removals of a table** are removals in the middle of which at most one line is added. -/
theorem system_removeWith [Host η] (reentrant : Bool) (s : System η σ) (line : UInt8) :
    (s.removeWith reentrant line).system =
      s.removeAmid line (s.requested reentrant line).toList := by
  cases hs : s.table.slot line with
  | live device =>
    obtain ⟨info, hi, hdel⟩ := delisting?_of_live hs
    have hhost : (s.cutOffLine line device).delist info =
        ((Host.unregister s.host info).1,
          { s.cutOffLine line device with host := (Host.unregister s.host info).2 }) := by
      rw [delist, host_cutOffLine]
    simp only [removeAmid, hs, amid_of_live hs hi, requested, hdel, Option.bind_some]
    simp only [removeWith, hi, hs]
    rw [show ((s.claim line).stopWorker device).2.cutOff device = s.cutOffLine line device from rfl,
      hhost]
    cases (if reentrant then (Host.unregister s.host info).1.toOption.join else none) <;> rfl
  | free | removing =>
    simp only [removeWith, removeAmid, hs]
    split <;> rfl

/-- As the table goes away, the host can no longer reach it to have lines added. -/
theorem removeAll_eq [Host η] (s : System η σ) :
    s.removeAll = s.table.lines.foldl (fun s line => s.removeAmid line []) s := by
  have hstep : ∀ (t : System η σ) line, (t.removeWith false line).system = t.removeAmid line [] :=
    fun t line => t.system_removeWith false line
  simp only [removeAll, hstep]

/-- In the middle of a removal its line is taken and the others are as they were, unless the host
has had them added. -/
theorem slot_amid_self [Host η] (h : s.table.slot line = .live device) (requests : List UInt8) :
    (s.amid line requests).table.slot line = .removing := by
  have hlt : line.toNat < lineCount := LineTable.toNat_lt_of_slot_ne (by rw [h]; simp)
  obtain ⟨info, hi, -⟩ := delisting?_of_live h
  rw [amid_of_live h hi]
  refine slot_addAll (by simp) ?_ requests
  rw [table_cutOffLine]
  exact LineTable.slot_put_self _ hlt _

theorem getElem?_amid [Host η] (h : s.table.slot line = .live device) (requests : List UInt8)
    {place : Nat} {d : Device σ} (hd : s.devices[place]? = some d) :
    (s.amid line requests).devices[place]? =
      some (if place = device then d.disableIrq.2.setRegistered false else d) := by
  obtain ⟨info, hi, -⟩ := delisting?_of_live h
  rw [amid_of_live h hi]
  refine getElem?_addAll ?_ requests
  rw [devices_cutOffLine, List.getElem?_modify, hd]
  by_cases hp : place = device
  · simp [hp]
  · simp [hp, Ne.symm hp]

/-- **A removal dismantles the device of its line** and leaves every other as it was. -/
theorem getElem?_removeAmid [Host η] (h : s.table.slot line = .live device)
    (requests : List UInt8) {place : Nat} {d : Device σ} (hd : s.devices[place]? = some d) :
    (s.removeAmid line requests).devices[place]? =
      some (if place = device then d.dismantle else d) := by
  have hamid := getElem?_amid h requests hd
  simp only [removeAmid, h, vacate, releaseDevice, modify]
  rw [List.getElem?_modify, hamid]
  by_cases hp : place = device
  · simp [hp, Device.dismantle_eq]
  · simp [hp, Ne.symm hp]

/-- A line that is not live is left alone. -/
theorem removeAmid_of_not_live [Host η] (h : ∀ device, s.table.slot line ≠ .live device)
    (requests : List UInt8) : s.removeAmid line requests = s := by
  cases hs : s.table.slot line with
  | live device => exact absurd hs (h device)
  | free | removing => simp only [removeAmid, hs]

/-- A line that is not live is refused, and nobody is asked. -/
theorem removeWith_of_not_live [Host η] (reentrant : Bool)
    (h : ∀ device, s.table.slot line ≠ .live device) :
    s.removeWith reentrant line =
      { result := .error (if line.toNat < lineCount then .notInitialized line
          else .invalidLine line)
        readded := none
        system := s } := by
  by_cases hlt : line.toNat < lineCount
  · obtain ⟨info, hi⟩ := LineInfo.ofLine_eq_ok_iff.mpr hlt
    cases hs : s.table.slot line with
    | live device => exact absurd hs (h device)
    | free | removing => simp only [removeWith, hi, hs, hlt, if_true]
  · simp [removeWith, LineInfo.ofLine, hlt]

/-- The other lines after a removal are those in the middle of it. -/
theorem slot_removeAmid_ne [Host η] {other : UInt8} (h : s.table.slot line = .live device)
    (ho : other ≠ line) (requests : List UInt8) :
    (s.removeAmid line requests).table.slot other = (s.amid line requests).table.slot other := by
  simp only [removeAmid, h]
  exact LineTable.slot_vacate_ne _ ho

theorem slot_removeAmid_self [Host η] (h : s.table.slot line = .live device)
    (requests : List UInt8) : (s.removeAmid line requests).table.slot line = .free := by
  simp only [removeAmid, h]
  exact LineTable.slot_vacate_self _ line

/-- The live lines after a removal are those in the middle of it. -/
theorem slot_removeAmid_eq_live_iff [Host η] (h : s.table.slot line = .live device)
    (requests : List UInt8) (other : UInt8) (place : Nat) :
    (s.removeAmid line requests).table.slot other = .live place ↔
      (s.amid line requests).table.slot other = .live place := by
  by_cases ho : other = line
  · rw [ho, slot_removeAmid_self h, slot_amid_self h]
    simp
  · rw [slot_removeAmid_ne h ho]

/-- The host is as it was left in the middle of the removal. -/
theorem host_removeAmid [Host η] (h : s.table.slot line = .live device) (requests : List UInt8) :
    (s.removeAmid line requests).host = (s.amid line requests).host := by
  simp only [removeAmid, h]
  rfl

/-- A removal in the middle of which nothing is added leaves the other lines alone. -/
theorem slot_removeAmid_nil [Host η] {other : UInt8} (h : s.table.slot line = .live device)
    (ho : other ≠ line) : (s.removeAmid line []).table.slot other = s.table.slot other := by
  obtain ⟨info, hi, -⟩ := delisting?_of_live h
  rw [slot_removeAmid_ne h ho, amid_of_live h hi, addAll, List.foldl_nil, table_cutOffLine]
  exact LineTable.slot_put_ne _ ho _

/-- Lines removed one after another, as the table goes away, dismantle their devices. -/
theorem getElem?_foldl_removeAmid [Host η] {s : System η σ} {place : Nat} {d : Device σ}
    (hd : s.devices[place]? = some d) (lines : List UInt8) :
    (lines.foldl (fun s line => s.removeAmid line []) s).devices[place]? =
      some (if ∃ line ∈ lines, s.table.slot line = .live place then d.dismantle else d) := by
  induction lines generalizing s d with
  | nil => simp [hd]
  | cons line lines ih =>
    rw [List.foldl_cons]
    by_cases hlive : ∃ device, s.table.slot line = .live device
    · obtain ⟨device, hs⟩ := hlive
      have hnext := getElem?_removeAmid hs [] hd
      -- The line itself is free from now on, and the others are as they were.
      have hslot (other : UInt8) : (s.removeAmid line []).table.slot other = .live place ↔
          other ≠ line ∧ s.table.slot other = .live place := by
        by_cases ho : other = line
        · rw [ho, slot_removeAmid_self hs]
          simp
        · rw [slot_removeAmid_nil hs ho]
          simp [ho]
      rw [ih hnext]
      by_cases hp : place = device
      · have hfirst : ∃ l ∈ line :: lines, s.table.slot l = .live place :=
          ⟨line, List.mem_cons_self, hp ▸ hs⟩
        simp only [hp, if_true, Device.dismantle_dismantle, ite_self]
        rw [if_pos (hp ▸ hfirst)]
      · have hiff : (∃ l ∈ lines, (s.removeAmid line []).table.slot l = .live place) ↔
            ∃ l ∈ line :: lines, s.table.slot l = .live place := by
          simp only [hslot, List.mem_cons, exists_eq_or_imp, hs, Slot.live.injEq, Ne.symm hp,
            false_or]
          refine ⟨fun ⟨l, hl, _, h⟩ => ⟨l, hl, h⟩, fun ⟨l, hl, h⟩ => ⟨l, hl, ?_, h⟩⟩
          rintro rfl
          exact hp (Slot.live.inj (h.symm.trans hs))
        simp only [hp, if_false, hiff]
    · rw [removeAmid_of_not_live (not_exists.mp hlive), ih hd]
      simp only [List.mem_cons, exists_eq_or_imp, not_exists.mp hlive, false_or]

/-- **The end of a table** dismantles the devices of its live lines and leaves every other as it
was. -/
theorem getElem?_removeAll [Host η] {s : System η σ} {place : Nat} {d : Device σ}
    (hd : s.devices[place]? = some d) :
    s.removeAll.devices[place]? =
      some (if ∃ line ∈ s.table.lines, s.table.slot line = .live place then d.dismantle
        else d) := by
  rw [removeAll_eq]
  exact getElem?_foldl_removeAmid hd s.table.lines

/-- The lines that can be addressed are the live ones. -/
theorem live?_eq_some_iff {s : System η σ} {line : UInt8} {device : Nat} :
    s.live? line = some device ↔ s.table.slot line = .live device := by
  by_cases hlt : line.toNat < lineCount
  · obtain ⟨info, hi⟩ := LineInfo.ofLine_eq_ok_iff.mpr hlt
    cases hs : s.table.slot line <;> simp [live?, LineTable.get, hi, hs]
  · have hfree : s.table.slot line = .free := by
      by_contra hne
      exact hlt (LineTable.toNat_lt_of_slot_ne hne)
    have hi : LineInfo.ofLine line = .error (.invalidLine line) := by
      simp [LineInfo.ofLine, hlt]
    simp [live?, LineTable.get, hi, hfree]

end System

end Uart16550
