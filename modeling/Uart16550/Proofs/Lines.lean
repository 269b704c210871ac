import Uart16550.Proofs.Removal

/-!
# The lines of a table

Between steps a table is in order (`System.Orderly`): it is allocated exactly while some line is
live, every live line has a device of its own, listed and initialized, and every other device was
let go of. In the middle of a removal this does not hold, and that is when the host may have lines
added; so the invariant `System.Kept` names the line that is going and its device, and everything
else about the table is as between steps.

What the host can have added in the middle of a removal, and that it outlives the removal, is
`System.Readmits`.
-/

namespace Uart16550

variable {η σ : Type}

namespace LineTable

theorem slot_put (t : LineTable) {line : UInt8} (h : line.toNat < lineCount) (x : Slot)
    (other : UInt8) :
    (t.put line x).slot other = if other = line then x else t.slot other := by
  split
  · next he => rw [he, slot_put_self t h]
  · next hne => exact slot_put_ne t hne x

theorem slot_vacate (t : LineTable) (line other : UInt8) :
    (t.vacate line).slot other = if other = line then .free else t.slot other := by
  split
  · next he => rw [he, slot_vacate_self]
  · next hne => exact slot_vacate_ne t hne

/-- A table that is still allocated after a line was freed has another that is taken. -/
theorem exists_slot_of_isAllocated_vacate {t : LineTable} {line : UInt8}
    (h : (t.vacate line).isAllocated = true) : ∃ other, (t.vacate line).slot other ≠ .free := by
  cases hs : t.slots with
  | none => simp [vacate, isAllocated, hs] at h
  | some slots =>
    by_cases hall : (setIn slots line .free).toList.all (· == .free) = true
    · simp only [vacate, isAllocated, hs, hall, if_true] at h
      cases h
    · obtain ⟨i, hlt, hi⟩ : ∃ i, ∃ h : i < lineCount, (setIn slots line .free)[i] ≠ .free := by
        simpa using hall
      have hnat : (UInt8.ofNat i).toNat = i :=
        UInt8.toNat_ofNat_of_lt' (Nat.lt_trans hlt (by decide))
      refine ⟨UInt8.ofNat i, ?_⟩
      simpa [vacate, slot, hs, hall, hnat, hlt] using hi

end LineTable

namespace System

/-! ### The invariant -/

/-- The device serves this line: it has the line's identity, is initialized and listed. -/
structure Serves (d : Device σ) (line : UInt8) : Prop where
  info_eq : LineInfo.ofLine line = .ok d.info
  initialized : d.initialized = true
  registered : d.registered = true

/-- The device was let go of. -/
structure Idle (d : Device σ) : Prop where
  not_initialized : d.initialized = false
  not_registered : d.registered = false

/-- The table in the middle of a removal, or between steps. `going` is the line that is being
removed, with its device. -/
structure Kept (s : System η σ) (going : Option (UInt8 × Nat)) : Prop where
  taken : s.table.isAllocated = true → ∃ line, s.table.slot line ≠ .free
  removing {line : UInt8} : s.table.slot line = .removing ↔ ∃ device, going = some (line, device)
  live {line : UInt8} {device : Nat} : s.table.slot line = .live device →
    ∃ d, s.devices[device]? = some d ∧ Serves d line
  distinct {line other : UInt8} {device : Nat} : s.table.slot line = .live device →
    s.table.slot other = .live device → line = other
  apart {line other : UInt8} {device : Nat} : going = some (line, device) →
    s.table.slot other ≠ .live device
  idle {device : Nat} {d : Device σ} : s.devices[device]? = some d →
    (∀ line, s.table.slot line ≠ .live device) → (∀ line, going ≠ some (line, device)) → Idle d
  place {line : UInt8} {device : Nat} : going = some (line, device) → device < s.devices.length

theorem kept_empty (host : η) (counting : Bool) :
    (System.empty host counting : System η σ).Kept none where
  taken h := by cases h
  removing := by simp [System.empty, LineTable.empty, LineTable.slot]
  live h := by cases h
  distinct h := by cases h
  apart h := by cases h
  idle h := by simp [System.empty] at h
  place h := by cases h

/-- The invariant does not look at the host. -/
theorem Kept.of_eq {s t : System η σ} {going : Option (UInt8 × Nat)} (h : s.Kept going)
    (hdevices : t.devices = s.devices) (htable : t.table = s.table) : t.Kept going := by
  obtain ⟨devices, table, host⟩ := t
  simp only at hdevices htable
  subst hdevices htable
  exact ⟨h.taken, h.removing, h.live, h.distinct, h.apart, h.idle, h.place⟩

/-- A change of a device that leaves alone what its line depends on. -/
theorem Kept.modify {s : System η σ} {going : Option (UInt8 × Nat)} (h : s.Kept going)
    {place : Nat} {f : Device σ → Device σ}
    (hf : ∀ d, (f d).info = d.info ∧ (f d).initialized = d.initialized ∧
      (f d).registered = d.registered) : (s.modify place f).Kept going where
  taken := h.taken
  removing := h.removing
  live {line device} hs := by
    obtain ⟨d, hd, hserves⟩ := h.live hs
    obtain ⟨hinfo, hinit, hreg⟩ := hf d
    have hf' : Serves (f d) line :=
      ⟨hinfo ▸ hserves.info_eq, hinit.trans hserves.initialized, hreg.trans hserves.registered⟩
    refine ⟨if place = device then f d else d, ?_, ?_⟩
    · simp [System.modify, List.getElem?_modify, hd]
    · split
      · exact hf'
      · exact hserves
  distinct := h.distinct
  apart := h.apart
  idle {device e} he hlive hgoing := by
    simp only [System.modify, List.getElem?_modify] at he
    obtain ⟨d, hd, rfl⟩ := Option.map_eq_some_iff.mp he
    have hidle := h.idle hd hlive hgoing
    obtain ⟨-, hinit, hreg⟩ := hf d
    split
    · exact ⟨hinit.trans hidle.not_initialized, hreg.trans hidle.not_registered⟩
    · exact hidle
  place hg := by
    simp only [System.modify, List.length_modify]
    exact h.place hg

/-- Any change of the device that is going. -/
theorem Kept.modify_going {s : System η σ} {line : UInt8} {device : Nat}
    (h : s.Kept (some (line, device))) (f : Device σ → Device σ) :
    (s.modify device f).Kept (some (line, device)) where
  taken := h.taken
  removing := h.removing
  live {other place} hs := by
    obtain ⟨d, hd, hserves⟩ := h.live hs
    have hne : device ≠ place := by
      rintro rfl
      exact h.apart rfl hs
    exact ⟨d, by simp [System.modify, hd, hne], hserves⟩
  distinct := h.distinct
  apart := h.apart
  idle {place e} he hlive hgoing := by
    have hne : device ≠ place := by
      rintro rfl
      exact hgoing line rfl
    refine h.idle ?_ hlive hgoing
    simpa [System.modify, List.getElem?_modify, hne] using he
  place hg := by
    simp only [System.modify, List.length_modify]
    exact h.place hg

/-! ### Adding -/

/-- Adding a line keeps the table in order, in the middle of a removal too. -/
theorem kept_add [Host η] {s : System η σ} {going : Option (UInt8 × Nat)} (h : s.Kept going)
    (line : UInt8) : (s.add line).2.Kept going := by
  rcases s.add_cases line with
    ⟨⟨e, ha⟩, -⟩ | ⟨info, hi, hfree, ⟨e, -, ha⟩ | ⟨-, ha⟩⟩ <;> rw [ha]
  · exact h
  · exact h.of_eq rfl rfl
  have hlt : line.toNat < lineCount := LineInfo.ofLine_eq_ok_iff.mp ⟨info, hi⟩
  have hslot := LineTable.slot_put s.table hlt (.live s.devices.length)
  -- The new device takes a place that no line refers to yet.
  have hnew : ∀ other, s.table.slot other ≠ .live s.devices.length := by
    intro other ho
    obtain ⟨d, hd, -⟩ := h.live ho
    simp at hd
  have hserves : Serves (s.newcomer info : Device σ) line := ⟨hi, rfl, rfl⟩
  refine ⟨fun _ => ⟨line, ?_⟩, ?_, ?_, ?_, ?_, ?_, ?_⟩
  · simp only [hslot, if_true]
    exact Slot.noConfusion
  · intro other
    simp only [hslot]
    split
    · next he =>
      rw [← h.removing, he, hfree]
      simp
    · exact h.removing
  · intro other place ho
    simp only [hslot] at ho
    split at ho
    · next he =>
      cases ho
      subst he
      exact ⟨_, List.getElem?_concat_length, hserves⟩
    · obtain ⟨d, hd, hd'⟩ := h.live ho
      obtain ⟨hlt', -⟩ := List.getElem?_eq_some_iff.mp hd
      exact ⟨d, (List.getElem?_append_left hlt').trans hd, hd'⟩
  · intro first second place h₁ h₂
    simp only [hslot] at h₁ h₂
    split at h₁ <;> split at h₂
    · next e₁ e₂ => rw [e₁, e₂]
    · cases h₁
      exact absurd h₂ (hnew second)
    · cases h₂
      exact absurd h₁ (hnew first)
    · exact h.distinct h₁ h₂
  · intro gone other place hg ho
    simp only [hslot] at ho
    split at ho
    · cases ho
      exact absurd (h.place hg) (Nat.lt_irrefl _)
    · exact h.apart hg ho
  · intro place d hd hlive hgoing
    have hold : ∀ other, s.table.slot other ≠ .live place := by
      intro other ho
      have hne : other ≠ line := by
        rintro rfl
        rw [hfree] at ho
        cases ho
      exact hlive other (by simp only [hslot, if_neg hne, ho])
    have hne : place ≠ s.devices.length := by
      rintro rfl
      exact hlive line (by simp only [hslot, if_true])
    rcases Nat.lt_or_gt_of_ne hne with hless | hmore
    · exact h.idle ((List.getElem?_append_left hless).symm.trans hd) hold hgoing
    · rw [List.getElem?_eq_none (by simp; omega)] at hd
      cases hd
  · intro gone place hg
    have hold := h.place hg
    simp only [List.length_append, List.length_singleton]
    omega

theorem kept_addAll [Host η] {s : System η σ} {going : Option (UInt8 × Nat)} (h : s.Kept going)
    (lines : List UInt8) : (s.addAll lines).Kept going :=
  addAll_of_keeps (P := fun s => s.Kept going) (fun _ line hs => kept_add hs line) h lines

/-! ### Removing -/

/-- As its removal begins, a line is no longer live, but it is taken and its device is going. -/
theorem kept_cutOffLine {s : System η σ} {line : UInt8} {device : Nat} (h : s.Kept none)
    (hs : s.table.slot line = .live device) :
    (s.cutOffLine line device).Kept (some (line, device)) := by
  have hlt : line.toNat < lineCount := LineTable.toNat_lt_of_slot_ne (by rw [hs]; simp)
  have hslot := LineTable.slot_put s.table hlt .removing
  obtain ⟨d₀, hd₀, -⟩ := h.live hs
  obtain ⟨hplace, -⟩ := List.getElem?_eq_some_iff.mp hd₀
  have hclaimed : (s.claim line).Kept (some (line, device)) := by
    refine ⟨fun _ => ⟨line, ?_⟩, ?_, ?_, ?_, ?_, ?_, ?_⟩
    · simp only [claim, hslot, if_true]
      exact Slot.noConfusion
    · intro other
      simp only [claim, hslot, Option.some.injEq, Prod.mk.injEq]
      split
      · next he => simp [he]
      · next hne =>
        rw [h.removing]
        simp [Ne.symm hne]
    · intro other place ho
      simp only [claim, hslot] at ho
      split at ho
      · cases ho
      · exact h.live ho
    · intro first second place h₁ h₂
      simp only [claim, hslot] at h₁ h₂
      split at h₁ <;> split at h₂
      · cases h₁
      · cases h₁
      · cases h₂
      · exact h.distinct h₁ h₂
    · intro gone other place hg ho
      cases hg
      simp only [claim, hslot] at ho
      split at ho
      · cases ho
      · next hne => exact hne (h.distinct ho hs)
    · intro place d hd hlive hgoing
      refine h.idle hd (fun other ho => ?_) (by simp)
      by_cases he : other = line
      · subst he
        rw [hs] at ho
        cases ho
        exact hgoing other rfl
      · exact hlive other (by simp only [claim, hslot, if_neg he, ho])
    · intro gone place hg
      cases hg
      exact hplace
  rw [cutOffLine_eq_modify]
  exact hclaimed.modify_going fun d => d.disableIrq.2.setRegistered false

theorem kept_amid [Host η] {s : System η σ} {line : UInt8} {device : Nat} (h : s.Kept none)
    (hs : s.table.slot line = .live device) (requests : List UInt8) :
    (s.amid line requests).Kept (some (line, device)) := by
  obtain ⟨info, hi, -⟩ := delisting?_of_live hs
  rw [amid_of_live hs hi]
  refine kept_addAll ?_ requests
  exact (kept_cutOffLine h hs).of_eq rfl rfl

/-- Once its device was let go of, the line is free and the table is as between steps. -/
theorem kept_vacate {s : System η σ} {line : UInt8} {device : Nat}
    (h : s.Kept (some (line, device)))
    (hidle : ∀ d, s.devices[device]? = some d → Idle d) : (s.vacate line).Kept none := by
  have hslot := s.table.slot_vacate line
  refine ⟨LineTable.exists_slot_of_isAllocated_vacate, ?_, ?_, ?_, ?_, ?_, ?_⟩
  · intro other
    simp only [vacate, hslot]
    split
    · simp
    · next hne =>
      rw [h.removing]
      simp [Ne.symm hne]
  · intro other place ho
    simp only [vacate, hslot] at ho
    split at ho
    · cases ho
    · exact h.live ho
  · intro first second place h₁ h₂
    simp only [vacate, hslot] at h₁ h₂
    split at h₁ <;> split at h₂
    · cases h₁
    · cases h₁
    · cases h₂
    · exact h.distinct h₁ h₂
  · intro _ _ _ hg
    cases hg
  · intro place d hd hlive _
    by_cases hp : place = device
    · subst hp
      exact hidle d hd
    · refine h.idle hd (fun other ho => ?_) (fun other hg => hp (by cases hg; rfl))
      have hremoving : s.table.slot line = .removing := h.removing.mpr ⟨device, rfl⟩
      by_cases he : other = line
      · rw [he, hremoving] at ho
        cases ho
      · exact hlive other (by simp only [vacate, hslot, if_neg he, ho])
  · intro _ _ hg
    cases hg

theorem kept_removeAmid [Host η] {s : System η σ} (h : s.Kept none) (line : UInt8)
    (requests : List UInt8) : (s.removeAmid line requests).Kept none := by
  by_cases hlive : ∃ device, s.table.slot line = .live device
  · obtain ⟨device, hs⟩ := hlive
    simp only [removeAmid, hs]
    refine kept_vacate ((kept_amid h hs requests).modify_going (·.release)) fun d hd => ?_
    have hgone : ((s.amid line requests).devices.modify device (·.release))[device]? = some d := hd
    rw [List.getElem?_modify] at hgone
    obtain ⟨e, -, rfl⟩ := Option.map_eq_some_iff.mp hgone
    rw [if_pos rfl]
    exact ⟨rfl, rfl⟩
  · rw [removeAmid_of_not_live (not_exists.mp hlive)]
    exact h

/-- A table that goes away removes its lines one after another. -/
theorem kept_removeAll [Host η] {s : System η σ} (h : s.Kept none) : s.removeAll.Kept none := by
  rw [removeAll_eq]
  generalize s.table.lines = lines
  induction lines generalizing s with
  | nil => exact h
  | cons line lines ih => exact ih (kept_removeAmid h line [])

/-! ### Between steps -/

/-- **A table in order.** It is allocated exactly while some line is live; every live line has a
device that serves it, and no two the same; every other device was let go of. -/
structure Orderly (s : System η σ) : Prop where
  isAllocated_iff : s.table.isAllocated = true ↔ ∃ line device, s.table.slot line = .live device
  live {line : UInt8} {device : Nat} : s.table.slot line = .live device →
    ∃ d, s.devices[device]? = some d ∧ Serves d line
  distinct {line other : UInt8} {device : Nat} : s.table.slot line = .live device →
    s.table.slot other = .live device → line = other
  idle {device : Nat} {d : Device σ} : s.devices[device]? = some d →
    (∀ line, s.table.slot line ≠ .live device) → Idle d

theorem Kept.orderly {s : System η σ} (h : s.Kept none) : s.Orderly where
  isAllocated_iff := by
    constructor
    · intro ha
      obtain ⟨line, hne⟩ := h.taken ha
      cases hs : s.table.slot line with
      | free => exact absurd hs hne
      | live device => exact ⟨line, device, hs⟩
      | removing =>
        obtain ⟨_, hg⟩ := h.removing.mp hs
        cases hg
    · rintro ⟨line, device, hs⟩
      exact LineTable.isAllocated_of_slot_ne (by rw [hs]; simp)
  live := h.live
  distinct := h.distinct
  idle hd hlive := h.idle hd hlive (by simp)

/-! ### In the middle of a removal -/

/-- **What the host can have added while it is asked to delist a line.** Whatever it has had added
before: the line itself is refused; any other that is valid and free is added if the host accepts
it, and outlives the removal. -/
structure Readmits [Host η] (s : System η σ) (line : UInt8) : Prop where
  refused (earlier : List UInt8) :
    ((s.amid line earlier).add line).1 = .error (.alreadyInitialized line)
  slot_eq {other : UInt8} : other ≠ line →
    (s.amid line []).table.slot other = s.table.slot other
  admitted (earlier later : List UInt8) {other : UInt8} {info : LineInfo} :
    other ≠ line → LineInfo.ofLine other = .ok info →
    (s.amid line earlier).table.slot other = .free →
    (Host.register (s.amid line earlier).host info (s.amid line earlier).devices.length).1 =
      .ok () →
    ((s.amid line earlier).add other).1 = .ok (s.amid line earlier).devices.length ∧
      (s.removeAmid line (earlier ++ other :: later)).table.slot other =
        .live (s.amid line earlier).devices.length ∧
      ∃ d, (s.removeAmid line (earlier ++ other :: later)).devices[
          (s.amid line earlier).devices.length]? = some d ∧ Serves d other
  readded_eq : (s.remove line).readded =
    (s.requested true line).map fun other => (other, ((s.amid line []).add other).1)

theorem amid_append [Host η] {s : System η σ} {line : UInt8} {device : Nat}
    (hs : s.table.slot line = .live device) (earlier later : List UInt8) :
    s.amid line (earlier ++ later) = (s.amid line earlier).addAll later := by
  obtain ⟨info, hi, -⟩ := delisting?_of_live hs
  rw [amid_of_live hs hi, amid_of_live hs hi, addAll_append]

theorem readmits [Host η] {s : System η σ} (h : s.Kept none) {line : UInt8} {device : Nat}
    (hs : s.table.slot line = .live device) : s.Readmits line where
  refused earlier := add_of_taken (by rw [slot_amid_self hs]; simp)
  slot_eq {other} ho := by
    obtain ⟨info, hi, -⟩ := delisting?_of_live hs
    rw [amid_of_live hs hi]
    simp only [addAll, List.foldl_nil, table_cutOffLine]
    exact LineTable.slot_put_ne _ ho _
  admitted earlier later {other info} ho hi hfree hreg := by
    rcases (s.amid line earlier).add_cases other with
      ⟨-, hbad | hbad⟩ | ⟨info', hi', -, ⟨e, herr, -⟩ | ⟨-, ha⟩⟩
    · rw [hi] at hbad
      cases hbad
    · exact absurd hfree hbad
    · rw [hi] at hi'
      cases hi'
      rw [hreg] at herr
      cases herr
    have hlt : other.toNat < lineCount := LineInfo.ofLine_eq_ok_iff.mp ⟨info, hi⟩
    have hall : s.amid line (earlier ++ other :: later) =
        ((s.amid line earlier).add other).2.addAll later := amid_append hs earlier (other :: later)
    have hslot : (s.removeAmid line (earlier ++ other :: later)).table.slot other =
        .live (s.amid line earlier).devices.length := by
      rw [slot_removeAmid_ne hs ho, hall]
      refine slot_addAll (by simp) ?_ later
      rw [ha]
      exact LineTable.slot_put_self _ hlt _
    exact ⟨by rw [ha], hslot, (kept_removeAmid h line _).live hslot⟩
  readded_eq := by
    obtain ⟨info, hi, hdel⟩ := delisting?_of_live hs
    have hdelist : (s.cutOffLine line device).delist info =
        ((Host.unregister s.host info).1, s.amid line []) := by
      rw [delist, host_cutOffLine, amid_of_live hs hi]
      rfl
    simp only [remove, removeWith, hi, hs, requested, hdel, if_true, Option.bind_some]
    rw [show ((s.claim line).stopWorker device).2.cutOff device = s.cutOffLine line device from rfl,
      hdelist]
    cases (Host.unregister s.host info).1.toOption.join <;> rfl

end System

end Uart16550
