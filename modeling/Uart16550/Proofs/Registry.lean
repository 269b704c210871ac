import Mathlib.Data.List.Nodup
import Uart16550.EchoSystem.Basic
import Uart16550.Proofs.Retirement

/-!
# The echo host and the table agree

The echo host keeps a list of lines of its own, and the table does not look into it: a line is
listed before it is stored as it is added, and delisted before it is freed as it is removed. Lines
may be registered with the host behind the back of the table, too. Each side has its own rule of
refusal, and together they keep the two apart: `EchoSystem.Joined` says that the host knows the live
lines by their devices, the lines registered directly as they were registered, and no line twice.

`EchoSystem.joined_perform` and `joined_enter` say that every act of the table and every direct
registration keep this, refused or not; `EchoSystem.registry_agrees` puts together what it means for
runs.
-/

namespace Uart16550

/-! ### The list of the host -/

namespace EchoHost

/-- What the host answers if a line is registered already. -/
def taken (line : UInt8) : Error := .registration s!"ttyS{line} already registered"

theorem enter_of_some {h : EchoHost} {line : UInt8} {found : EchoEntry}
    (hfind : h.find? line = some found) (entry : EchoEntry) :
    h.enter line entry = (.error (taken line), h) := by
  simp only [enter, hfind, taken]

theorem enter_of_none {h : EchoHost} {line : UInt8} (hfind : h.find? line = none)
    (entry : EchoEntry) :
    h.enter line entry = (.ok (), { h with entries := h.entries ++ [(line, entry)] }) := by
  simp only [enter, hfind]

/-- A line that is registered already keeps its entry. -/
theorem find?_enter (h : EchoHost) (line other : UInt8) (entry : EchoEntry) :
    (h.enter line entry).2.find? other =
      if other = line then some ((h.find? line).getD entry) else h.find? other := by
  cases hfind : h.find? line with
  | some found =>
    rw [enter_of_some hfind]
    split
    · next ho => rw [ho, hfind, Option.getD_some]
    · rfl
  | none =>
    have hlookup : h.entries.lookup line = none := hfind
    rw [enter_of_none hfind]
    by_cases ho : other = line
    · simp [find?, List.lookup_append, ho, hlookup]
    · have hbeq : (other == line) = false := by simpa using ho
      simp [find?, List.lookup_append, List.lookup_cons, ho, hbeq]

theorem find?_erase (h : EchoHost) (line other : UInt8) :
    (h.erase line).find? other = if other = line then none else h.find? other := by
  simp only [find?, erase]
  induction h.entries with
  | nil => simp
  | cons x xs ih =>
    obtain ⟨key, entry⟩ := x
    by_cases hkey : key = line
    · -- The entry in front goes, and further ones of the same line with it.
      rw [List.filter_cons_of_neg (by simp [hkey]), ih]
      split
      · rfl
      · next ho =>
        have hbeq : (other == key) = false := by simpa [hkey] using ho
        simp only [List.lookup_cons, hbeq]
    · rw [List.filter_cons_of_pos (by simpa using hkey)]
      cases hbeq : other == key with
      | true =>
        have ho : other ≠ line := by rw [beq_iff_eq.mp hbeq]; exact hkey
        simp only [List.lookup_cons, hbeq, ho, if_false]
      | false => simp only [List.lookup_cons, hbeq, ih]

/-- A line is in the list exactly if something is found under it. -/
theorem find?_eq_none_iff {h : EchoHost} {line : UInt8} :
    h.find? line = none ↔ line ∉ h.entries.map Prod.fst := by
  rw [find?, List.lookup_eq_none_iff]
  simp only [List.mem_map, not_exists, not_and]
  constructor
  · rintro hnone x hx rfl
    simpa using hnone x hx
  · intro hnone x hx
    simpa using fun heq => hnone x hx heq.symm

theorem nodup_enter {h : EchoHost} (hnodup : (h.entries.map Prod.fst).Nodup) (line : UInt8)
    (entry : EchoEntry) : ((h.enter line entry).2.entries.map Prod.fst).Nodup := by
  cases hfind : h.find? line with
  | some found =>
    rw [enter_of_some hfind]
    exact hnodup
  | none =>
    rw [enter_of_none hfind, List.map_append, List.map_singleton]
    exact List.nodup_append.mpr ⟨hnodup, List.nodup_singleton line, fun other ho line' hline => by
      rintro rfl
      rw [List.mem_singleton.mp hline] at ho
      exact find?_eq_none_iff.mp hfind ho⟩

theorem nodup_erase {h : EchoHost} (hnodup : (h.entries.map Prod.fst).Nodup) (line : UInt8) :
    ((h.erase line).entries.map Prod.fst).Nodup :=
  (List.filter_sublist.map Prod.fst).nodup hnodup

end EchoHost

/-! ### The handler on a released device -/

namespace Echo

variable {σ : Type} {d : Device σ}

theorem input_of_not_initialized (h : d.initialized = false) (offset : UInt8) :
    d.input offset = (0, d) := by
  simp only [Device.input, Device.read, h, Bool.false_eq_true, if_false]

theorem output_of_not_initialized (h : d.initialized = false) (offset value : UInt8) :
    d.output offset value = (d, []) := by
  simp only [Device.output, Device.write, h, Bool.false_eq_true, if_false]

/-- It reads as zero throughout, so there is nothing to be read. -/
theorem drain_of_not_initialized (h : d.initialized = false) : drain d = some ([], d) := by
  have hready : hasBit 0 LineStatus.dataReadyBit = false := by decide
  rw [drain, drainWithin, input_of_not_initialized h]
  simp only [hready, Bool.false_eq_true, if_false]

/-- The handler prints nothing and leaves the device as it was. -/
theorem deliver_of_not_initialized (h : d.initialized = false) (iir : UInt8) :
    deliver d iir = some ([], d) := by
  have hbreak : hasBit 0 LineStatus.breakInterruptBit = false := by decide
  have hloop : hasBit 0 ModemControl.loop = false := by decide
  have hempty : hasBit 0 LineStatus.holdingEmptyBit = false := by decide
  have hback : writeBack d [] = (d, []) := by
    simp only [writeBack, transmitAll, output_of_not_initialized h, input_of_not_initialized h,
      hempty, Bool.false_eq_true, if_false, List.append_nil]
  simp only [deliver]
  split
  · simp only [input_of_not_initialized h, hbreak, Bool.false_eq_true, if_false]
  · simp only [drain_of_not_initialized h, Option.map_some, input_of_not_initialized h, hloop,
      Bool.false_eq_true, if_false, hback]
    rfl
  · rw [output_of_not_initialized h]
    rfl
  · rfl

end Echo

namespace EchoSystem

open Device (Move)

/-! ### Table and host joined -/

/-- The host knows exactly the live lines, by their devices, and the lines registered directly; no
line is known twice, and none is both. -/
structure Joined (s : EchoSystem) (direct : List (UInt8 × EchoEntry)) : Prop where
  find?_eq_some_iff (line : UInt8) (entry : EchoEntry) : s.host.find? line = some entry ↔
    (∃ place, s.table.slot line = .live place ∧ entry = .device place) ∨ (line, entry) ∈ direct
  nodup : (s.host.entries.map Prod.fst).Nodup
  apart {line : UInt8} {place : Nat} : s.table.slot line = .live place →
    ∀ entry, (line, entry) ∉ direct

/-- What a direct registration adds to the lines registered directly: nothing, if it is refused. -/
def entered (s : EchoSystem) (line : UInt8) (entry : EchoEntry) : List (UInt8 × EchoEntry) :=
  match (s.host.enter line entry).1 with
  | .ok () => [(line, entry)]
  | .error _ => []

variable {s : EchoSystem} {direct : List (UInt8 × EchoEntry)}

theorem joined_empty (counting : Bool) : (empty counting).Joined [] where
  find?_eq_some_iff line entry := by
    simp [empty, System.empty, EchoHost.find?, LineTable.empty, LineTable.slot]
  nodup := List.nodup_nil
  apart h := by cases h

namespace Joined

/-- This is about the live lines alone. -/
theorem of_slots (h : s.Joined direct) {t : EchoSystem} (hhost : t.host = s.host)
    (hslots : ∀ line place, t.table.slot line = .live place ↔ s.table.slot line = .live place) :
    t.Joined direct where
  find?_eq_some_iff line entry := by
    simp only [hhost, hslots]
    exact h.find?_eq_some_iff line entry
  nodup := hhost ▸ h.nodup
  apart hs := h.apart ((hslots _ _).mp hs)

theorem find?_of_live (h : s.Joined direct) {line : UInt8} {place : Nat}
    (hs : s.table.slot line = .live place) : s.host.find? line = some (.device place) :=
  (h.find?_eq_some_iff line _).mpr (Or.inl ⟨place, hs, rfl⟩)

theorem find?_of_direct (h : s.Joined direct) {line : UInt8} {entry : EchoEntry}
    (hmem : (line, entry) ∈ direct) : s.host.find? line = some entry :=
  (h.find?_eq_some_iff line entry).mpr (Or.inr hmem)

/-- The host knows no other lines. -/
theorem find?_eq_none_iff (h : s.Joined direct) {line : UInt8} :
    s.host.find? line = none ↔
      (∀ place, s.table.slot line ≠ .live place) ∧ ∀ entry, (line, entry) ∉ direct := by
  constructor
  · intro hnone
    refine ⟨fun place hs => ?_, fun entry hmem => ?_⟩
    · rw [h.find?_of_live hs] at hnone
      cases hnone
    · rw [h.find?_of_direct hmem] at hnone
      cases hnone
  · rintro ⟨hlive, hdirect⟩
    cases hfind : s.host.find? line with
    | none => rfl
    | some entry =>
      rcases (h.find?_eq_some_iff line entry).mp hfind with ⟨place, hs, -⟩ | hmem
      · exact absurd hs (hlive place)
      · exact absurd hmem (hdirect entry)

/-- A line registered directly is not live. -/
theorem not_live (h : s.Joined direct) {line : UInt8} {entry : EchoEntry}
    (hmem : (line, entry) ∈ direct) (place : Nat) : s.table.slot line ≠ .live place :=
  fun hs => h.apart hs entry hmem

end Joined

/-! ### Direct registrations -/

theorem entered_of_some {line : UInt8} {found : EchoEntry}
    (hfind : s.host.find? line = some found) (entry : EchoEntry) : s.entered line entry = [] := by
  simp only [entered, EchoHost.enter_of_some hfind]

theorem entered_of_none {line : UInt8} (hfind : s.host.find? line = none) (entry : EchoEntry) :
    s.entered line entry = [(line, entry)] := by
  simp only [entered, EchoHost.enter_of_none hfind]

/-- A direct registration is refused and changes nothing, or the line is known from now on. -/
theorem joined_enter (h : s.Joined direct) (line : UInt8) (entry : EchoEntry) :
    Joined { s with host := (s.host.enter line entry).2 } (direct ++ s.entered line entry) := by
  cases hfind : s.host.find? line with
  | some found =>
    -- A refusal changes neither the list nor the history.
    rw [entered_of_some hfind, List.append_nil, EchoHost.enter_of_some hfind]
    exact h
  | none =>
    -- The host knows all live lines, so a line that is new to it is not live.
    obtain ⟨hlive, hdirect⟩ := h.find?_eq_none_iff.mp hfind
    rw [entered_of_none hfind]
    refine ⟨fun other found => ?_, EchoHost.nodup_enter h.nodup line entry, ?_⟩
    · rw [EchoHost.find?_enter, hfind, Option.getD_none, List.mem_append, List.mem_singleton,
        Prod.mk.injEq]
      split
      · next ho =>
        subst ho
        simp only [Option.some.injEq, hlive, hdirect, false_and, exists_false, false_or, true_and]
        exact eq_comm
      · next ho =>
        rw [h.find?_eq_some_iff]
        simp only [ho, false_and, or_false]
    · intro other place hs found hmem
      rw [List.mem_append, List.mem_singleton, Prod.mk.injEq] at hmem
      rcases hmem with hmem | ⟨rfl, -⟩
      · exact h.apart hs found hmem
      · exact hlive place hs

/-! ### Acts of the table -/

theorem joined_add (h : s.Joined direct) (line : UInt8) : Joined (s.add line).2 direct := by
  rcases s.add_cases line with
    ⟨⟨e, ha⟩, -⟩ | ⟨info, hi, hfree, hcases⟩
  · rw [ha]
    exact h
  -- What is listed is the place that the device is about to take.
  have hregister : Host.register s.host info s.devices.length =
      s.host.enter line (.device s.devices.length) := by
    rw [← LineInfo.line_of_ofLine hi]
    rfl
  rw [hregister] at hcases
  cases hfind : s.host.find? line with
  | some found =>
    rw [EchoHost.enter_of_some hfind] at hcases
    rcases hcases with ⟨e, -, ha⟩ | ⟨hok, -⟩
    · rw [ha]
      exact h
    · cases hok
  | none =>
    obtain ⟨-, hdirect⟩ := h.find?_eq_none_iff.mp hfind
    rcases hcases with ⟨e, he, -⟩ | ⟨-, ha⟩
    · rw [EchoHost.enter_of_none hfind] at he
      cases he
    rw [ha]
    have hlt : line.toNat < lineCount := LineInfo.ofLine_eq_ok_iff.mp ⟨info, hi⟩
    refine ⟨fun other entry => ?_, EchoHost.nodup_enter h.nodup line _, ?_⟩
    · simp only [EchoHost.find?_enter, LineTable.slot_put s.table hlt, hfind, Option.getD_none]
      split
      · next ho =>
        subst ho
        simp only [Option.some.injEq, Slot.live.injEq, hdirect, or_false]
        constructor
        · rintro rfl
          exact ⟨_, rfl, rfl⟩
        · rintro ⟨place, rfl, rfl⟩
          rfl
      · exact h.find?_eq_some_iff other entry
    · intro other place hs
      simp only [LineTable.slot_put s.table hlt] at hs
      split at hs
      · next ho =>
        rw [ho]
        exact hdirect
      · exact h.apart hs

/-- The host forgets a line as it is no longer live. -/
theorem joined_cutOffLine (h : s.Joined direct) {line : UInt8} {device : Nat}
    (hs : s.table.slot line = .live device) :
    Joined { s.cutOffLine line device with host := s.host.erase line } direct := by
  have hslot := LineTable.slot_put s.table
    (LineTable.toNat_lt_of_slot_ne (by rw [hs]; simp : s.table.slot line ≠ .free)) .removing
  refine ⟨fun other entry => ?_, EchoHost.nodup_erase h.nodup line, fun {other place} ho => ?_⟩
  · simp only [System.table_cutOffLine, EchoHost.find?_erase, hslot]
    split
    · next ho =>
      subst ho
      simp [h.apart hs entry]
    · exact h.find?_eq_some_iff other entry
  · simp only [System.table_cutOffLine, hslot] at ho
    split at ho
    · cases ho
    · exact h.apart ho

theorem joined_removeAmid (h : s.Joined direct) (line : UInt8) (requests : List UInt8) :
    Joined (s.removeAmid line requests) direct := by
  by_cases hlive : ∃ device, s.table.slot line = .live device
  · obtain ⟨device, hs⟩ := hlive
    obtain ⟨info, hi, -⟩ := System.delisting?_of_live hs
    have hhost : (Host.unregister s.host info).2 = s.host.erase line := by
      rw [← LineInfo.line_of_ofLine hi]
      rfl
    -- This host has no lines added as it delists one, but it would do no harm.
    have hamid : Joined (s.amid line requests) direct := by
      rw [System.amid_of_live hs hi, hhost]
      exact System.addAll_of_keeps (P := fun t => Joined t direct)
        (fun _ line ht => joined_add ht line) (joined_cutOffLine h hs) requests
    exact hamid.of_slots (System.host_removeAmid hs requests)
      (System.slot_removeAmid_eq_live_iff hs requests)
  · rw [System.removeAmid_of_not_live (not_exists.mp hlive)]
    exact h

/-- **Every act of the table keeps host and table joined**, with the same lines registered
directly. -/
theorem joined_perform (h : s.Joined direct) (a : System.Act EchoHost Unit)
    (ha : ∀ f, a ≠ .change f) : Joined (System.perform s a) direct := by
  cases a with
  | add line => exact joined_add h line
  | remove line =>
    rw [System.perform, System.remove, System.system_removeWith]
    exact joined_removeAmid h line _
  | removeAmid line requests => exact joined_removeAmid h line requests
  | drop =>
    rw [System.perform, System.removeAll_eq]
    generalize s.table.lines = lines
    induction lines generalizing s with
    | nil => exact h
    | cons line lines ih => exact ih (joined_removeAmid h line [])
  | change f => exact absurd rfl (ha f)
  | touch device m =>
    rw [System.perform]
    split
    · exact h.of_slots rfl fun _ _ => Iff.rfl
    · exact h

/-! ### Runs -/

/-- Something done to the table, to a device or to the host. -/
inductive Deed where
  | add (line : UInt8)
  | remove (line : UInt8)
  /-- The table goes away with all its lines. -/
  | drop
  /-- A holder of a device, a handler or the worker does something to it. -/
  | touch (device : Nat) (m : Move Unit)
  /-- The host is asked directly, under any identity, for a line. -/
  | register (info : LineInfo) (entry : EchoEntry)

/-- The system after a deed. -/
def Deed.run (s : EchoSystem) : Deed → EchoSystem
  | .add line => (s.add line).2
  | .remove line => (s.remove line).system
  | .drop => s.removeAll
  | .touch device m => System.perform s (.touch device m)
  | .register info entry => { s with host := (s.host.enter info.line entry).2 }

/-- The lines that a deed registers directly. -/
def Deed.enters (s : EchoSystem) : Deed → List (UInt8 × EchoEntry)
  | .register info entry => s.entered info.line entry
  | _ => []

/-- The system after a list of deeds. -/
def afterAll (s : EchoSystem) (deeds : List Deed) : EchoSystem := deeds.foldl Deed.run s

/-- The lines registered directly in the course of a list of deeds. -/
def directly (s : EchoSystem) : List Deed → List (UInt8 × EchoEntry)
  | [] => []
  | deed :: deeds => deed.enters s ++ directly (deed.run s) deeds

/-- Table and host are in order, each by itself and together. -/
structure InStep (s : EchoSystem) (direct : List (UInt8 × EchoEntry)) : Prop where
  joined : s.Joined direct
  kept : s.Kept none
  reachable : ∀ d ∈ s.devices, d.Reachable

theorem inStep_empty (counting : Bool) : (empty counting).InStep [] where
  joined := joined_empty counting
  kept := System.kept_empty _ counting
  reachable := by simp [empty, System.empty]

namespace InStep

theorem perform (h : s.InStep direct) (a : System.Act EchoHost Unit) (ha : ∀ f, a ≠ .change f) :
    InStep (System.perform s a) direct where
  joined := joined_perform h.joined a ha
  kept := System.kept_perform s a h.kept
  reachable := System.reachable_perform s a h.reachable

theorem enter (h : s.InStep direct) (line : UInt8) (entry : EchoEntry) :
    InStep { s with host := (s.host.enter line entry).2 } (direct ++ s.entered line entry) where
  joined := joined_enter h.joined line entry
  kept := h.kept.of_eq rfl rfl
  reachable := h.reachable

theorem run (h : s.InStep direct) (deed : Deed) :
    InStep (deed.run s) (direct ++ deed.enters s) := by
  -- Everything but a direct registration is an act of the table or of a holder.
  have hact {t : EchoSystem} {a : System.Act EchoHost Unit} (ha : ∀ f, a ≠ .change f)
      (ht : t = System.perform s a) : InStep t (direct ++ []) := by
    rw [ht, List.append_nil]
    exact h.perform a ha
  cases deed with
  | add line => exact hact (a := .add line) (by simp) rfl
  | remove line => exact hact (a := .remove line) (by simp) rfl
  | drop => exact hact (a := .drop) (by simp) rfl
  | touch device m => exact hact (a := .touch device m) (by simp) rfl
  | register info entry => exact h.enter info.line entry

theorem afterAll (h : s.InStep direct) (deeds : List Deed) :
    InStep (s.afterAll deeds) (direct ++ s.directly deeds) := by
  induction deeds generalizing s direct with
  | nil =>
    rw [directly, List.append_nil]
    exact h
  | cons deed deeds ih =>
    rw [directly, ← List.append_assoc]
    exact ih (h.run deed)

end InStep

theorem inStep_afterAll (counting : Bool) (deeds : List Deed) :
    InStep ((empty counting).afterAll deeds) ((empty counting).directly deeds) :=
  (inStep_empty counting).afterAll deeds

/-! ### Lines registered directly -/

/-- A line that the host knows and that is free for the table is refused by the host. -/
theorem add_of_found {line : UInt8} {found : EchoEntry} (hfind : s.host.find? line = some found)
    (hlt : line.toNat < lineCount) (hfree : s.table.slot line = .free) :
    s.add line = (.error (EchoHost.taken line), s) := by
  obtain ⟨info, hi⟩ := LineInfo.ofLine_eq_ok_iff.mpr hlt
  have hregister : Host.register s.host info s.devices.length =
      (.error (EchoHost.taken line), s.host) := by
    have hline := LineInfo.line_of_ofLine hi
    subst hline
    exact EchoHost.enter_of_some hfind _
  simp only [System.add, hi, hfree, if_true, hregister]

/-- A line registered directly is refused as it is added: by the host if the table has such a line,
and otherwise by the table, which never comes to ask the host. -/
theorem InStep.add_of_direct (h : s.InStep direct) {line : UInt8} {entry : EchoEntry}
    (hmem : (line, entry) ∈ direct) :
    s.add line =
      (.error (if line.toNat < lineCount then EchoHost.taken line else .invalidLine line), s) := by
  by_cases hlt : line.toNat < lineCount
  · have hfree : s.table.slot line = .free := by
      cases hs : s.table.slot line with
      | free => rfl
      | live place => exact absurd hs (h.joined.not_live hmem place)
      | removing =>
        -- Between steps no line is being removed.
        obtain ⟨place, hgoing⟩ := h.kept.removing.mp hs
        cases hgoing
    rw [if_pos hlt]
    exact add_of_found (h.joined.find?_of_direct hmem) hlt hfree
  · simp only [System.add, LineInfo.ofLine, hlt, dite_false, if_false]

/-! ### Released devices -/

/-- Devices that are not initialized stay as they are. -/
def Spares (s t : EchoSystem) : Prop :=
  ∀ (place : Nat) (d : Device Unit),
    s.devices[place]? = some d → d.initialized = false → t.devices[place]? = some d

theorem spares_modify {place : Nat} {d e : Device Unit} (hd : s.devices[place]? = some d)
    (he : d.initialized = false → e = d) : s.Spares (s.modify place fun _ => e) := by
  intro other f hf hinit
  by_cases hp : place = other
  · -- Two looks at the same place find the same device.
    subst hp
    obtain rfl := Option.some.inj (hd.symm.trans hf)
    simp [System.modify, hd, he hinit]
  · simpa [System.modify, hp] using hf

/-- A delivery, on whatever line, spares what was released. -/
theorem spares_deliver {line iir : UInt8} {printed : List UInt8} {t : EchoSystem}
    (h : s.deliver line iir = some (printed, t)) : s.Spares t := by
  simp only [deliver, registered?] at h
  split at h
  · next place d hregistered =>
    split at hregistered
    · obtain ⟨e, he, hpair⟩ := Option.map_eq_some_iff.mp hregistered
      obtain ⟨rfl, rfl⟩ := Prod.mk.inj hpair
      obtain ⟨⟨out, f⟩, hf, hresult⟩ := Option.map_eq_some_iff.mp h
      obtain ⟨-, rfl⟩ := Prod.mk.inj hresult
      refine spares_modify he fun hinit => ?_
      rw [Echo.deliver_of_not_initialized hinit] at hf
      exact (Prod.mk.inj (Option.some.inj hf)).2.symm
    · cases hregistered
    · cases hregistered
  · obtain ⟨-, rfl⟩ := Prod.mk.inj (Option.some.inj h)
    exact fun _ _ hd _ => hd

/-- And so does a drain. -/
theorem spares_drain {line : UInt8} {bytes : Option (List UInt8)} {t : EchoSystem}
    (h : s.drain line = some (bytes, t)) : s.Spares t := by
  have hsame {r : Option (List UInt8)} (hr : some (r, s) = some (bytes, t)) : s.Spares t := by
    obtain ⟨-, rfl⟩ := Prod.mk.inj (Option.some.inj hr)
    exact fun _ _ hd _ => hd
  unfold drain at h
  split at h
  · exact hsame h
  · exact hsame h
  · split at h
    · next place _ d hd =>
      obtain ⟨⟨out, f⟩, hf, hresult⟩ := Option.map_eq_some_iff.mp h
      obtain ⟨-, rfl⟩ := Prod.mk.inj hresult
      refine spares_modify hd fun hinit => ?_
      rw [Echo.drain_of_not_initialized hinit] at hf
      exact (Prod.mk.inj (Option.some.inj hf)).2.symm
    · exact hsame h

/-! ### The agreement -/

/-- **Table and host agree**, after any run of additions, removals and direct registrations. The
host knows the live lines by their devices and the lines registered directly, each once. A direct
registration is refused, and changes nothing, exactly if the line is live or was registered
directly. The table can neither add nor remove a line registered directly, and either attempt
changes nothing. Adding it fails in the host only if the table has such a line: the host lists any
line that it is asked for, and one of those that the table does not have is invalid when it is
added. The device that the host reaches under a live line is that of the line, initialized and
listed; and a delivery or a drain, on any line, leaves every released device as it was. -/
theorem registry_agrees (counting : Bool) (deeds : List Deed) :
    let s := (empty counting).afterAll deeds
    let direct := (empty counting).directly deeds
    s.Joined direct ∧
      (∀ (info : LineInfo) (entry : EchoEntry),
        (∃ place, s.table.slot info.line = .live place) ∨ (∃ found, (info.line, found) ∈ direct) →
          s.host.enter info.line entry = (.error (EchoHost.taken info.line), s.host) ∧
            Deed.run s (.register info entry) = s) ∧
      (∀ (info : LineInfo) (entry : EchoEntry),
        (∀ place, s.table.slot info.line ≠ .live place) → (∀ found, (info.line, found) ∉ direct) →
          Deed.enters s (.register info entry) = [(info.line, entry)]) ∧
      (∀ line entry, (line, entry) ∈ direct →
        s.add line =
            (.error (if line.toNat < lineCount then EchoHost.taken line else .invalidLine line),
              s) ∧
          s.remove line =
            { result := .error (if line.toNat < lineCount then .notInitialized line
                else .invalidLine line)
              readded := none
              system := s }) ∧
      (∀ line place, s.table.slot line = .live place →
        ∃ d, s.registered? line = some (place, d) ∧ d.Reachable ∧ System.Serves d line) ∧
      (∀ line iir printed t, s.deliver line iir = some (printed, t) → s.Spares t) ∧
      ∀ line bytes t, s.drain line = some (bytes, t) → s.Spares t := by
  intro s direct
  have h : s.InStep direct := inStep_afterAll counting deeds
  refine ⟨h.joined, fun info entry hknown => ?_, fun info entry hlive hdirect => ?_,
    fun line entry hmem => ⟨h.add_of_direct hmem,
      System.removeWith_of_not_live true (h.joined.not_live hmem)⟩, fun line place hs => ?_,
    fun _ _ _ _ ht => spares_deliver ht, fun _ _ _ ht => spares_drain ht⟩
  · obtain ⟨found, hfind⟩ : ∃ found, s.host.find? info.line = some found := by
      rcases hknown with ⟨place, hs⟩ | ⟨found, hmem⟩
      · exact ⟨_, h.joined.find?_of_live hs⟩
      · exact ⟨_, h.joined.find?_of_direct hmem⟩
    have hrefused := EchoHost.enter_of_some hfind entry
    refine ⟨hrefused, ?_⟩
    simp only [Deed.run, hrefused]
  · exact entered_of_none (h.joined.find?_eq_none_iff.mpr ⟨hlive, hdirect⟩) entry
  · obtain ⟨d, hd, hserves⟩ := h.kept.live hs
    refine ⟨d, ?_, h.reachable d (List.mem_of_getElem? hd), hserves⟩
    simp only [registered?, h.joined.find?_of_live hs, hd, Option.map_some]

/-- Lines 1 and 200 are registered directly, so they can be neither added nor removed; what the one
is refused by the host, the other is refused by the table, which has no such line. Line 0 is added,
removed and added again, and cannot be registered directly then. A drain of line 0 reads what its
second device has received, and leaves the first, which was let go of, as it was, as does a
delivery. -/
theorem registry_agrees_behind_table :
    let legacy : UInt8 → LineInfo := fun line => { line, ioBase := 0, irq := 0, baudBase := 0 }
    let deeds : List Deed := [.register (legacy 1) .silent, .register (legacy 200) .silent, .add 0,
      .add 1, .add 200, .remove 1, .remove 200, .remove 0, .add 0, .register (legacy 0) .silent,
      .touch 1 (.operate (.access (.inject [65])))]
    let s := (empty true).afterAll deeds
    s.Joined [(1, .silent), (200, .silent)] ∧ s.table.slot 0 = .live 1 ∧
      s.host.enter 0 .silent = (.error (EchoHost.taken 0), s.host) ∧
      Deed.enters s (.register (legacy 2) .silent) = [(2, .silent)] ∧
      (s.add 1).1 = .error (EchoHost.taken 1) ∧ (s.remove 1).result = .error (.notInitialized 1) ∧
      (s.add 200).1 = .error (.invalidLine 200) ∧
      (s.remove 200).result = .error (.invalidLine 200) ∧
      (∃ d, s.registered? 0 = some (1, d) ∧ d.initialized = true) ∧
      (∃ t, s.drain 0 = some (some [65], t) ∧ s.Spares t) ∧
      (∃ t, s.deliver 0 4 = some ([], t) ∧ s.Spares t) ∧
      ∃ d, s.devices[0]? = some d ∧ d.initialized = false := by
  intro legacy deeds s
  have hdirect : (empty true).directly deeds = [(1, .silent), (200, .silent)] := by decide +kernel
  have hslots : s.table.slot 0 = .live 1 ∧ s.table.slot 2 = .free := by decide +kernel
  obtain ⟨hjoined, hrefused, haccepted, hwithheld, hreached, hdeliver, hdrain⟩ :=
    registry_agrees true deeds
  rw [hdirect] at hjoined hrefused haccepted hwithheld
  obtain ⟨hadd, hremove⟩ := hwithheld 1 .silent (by simp)
  obtain ⟨hadd', hremove'⟩ := hwithheld 200 .silent (by simp)
  obtain ⟨d, hd, -, hserves⟩ := hreached 0 1 hslots.1
  have hdrained : (s.drain 0).map (·.1) = some (some [65]) := by decide +kernel
  have hdelivered : (s.deliver 0 4).map (·.1) = some [] := by decide +kernel
  have hreleased : s.devices[0]?.map (·.initialized) = some false := by decide +kernel
  obtain ⟨⟨bytes, t⟩, ht, rfl : bytes = some [65]⟩ := Option.map_eq_some_iff.mp hdrained
  obtain ⟨⟨printed, u⟩, hu, rfl : printed = []⟩ := Option.map_eq_some_iff.mp hdelivered
  exact ⟨hjoined, hslots.1, (hrefused (legacy 0) .silent (.inl ⟨1, hslots.1⟩)).1,
    haccepted (legacy 2) .silent (fun place => by rw [hslots.2]; simp) (by simp [legacy]),
    congrArg Prod.fst hadd, congrArg System.Removal.result hremove, congrArg Prod.fst hadd',
    congrArg System.Removal.result hremove', ⟨d, hd, hserves.initialized⟩,
    ⟨t, ht, hdrain 0 _ t ht⟩, ⟨u, hu, hdeliver 0 4 _ u hu⟩, Option.map_eq_some_iff.mp hreleased⟩

/-- The host takes line 200, which the table does not have. Adding the line is refused, but the host
is not what refuses it. -/
theorem added_beyond_table :
    let info : LineInfo := { line := 200, ioBase := 0, irq := 0, baudBase := 0 }
    let deeds : List Deed := [.register info .silent]
    let s := (empty true).afterAll deeds
    (200, .silent) ∈ (empty true).directly deeds ∧ s.host.find? 200 = some .silent ∧
      (s.add 200).1 = .error (.invalidLine 200) ∧
      (s.add 200).1 ≠ .error (EchoHost.taken 200) := by
  decide +kernel

end EchoSystem

end Uart16550
