import Uart16550.Host.Recording
import Uart16550.Proofs.Lines
import Uart16550.Proofs.Move

/-!
# Runs of a table

A table is used by adding and removing lines, and in the end it goes away; in the meantime the host
changes as it likes, and the holders of devices do what they like (`System.Act`). Between any two
acts of a run the table is in order.

A host that lists what it accepts and delists what it is told to (`Host.Lists`) is in agreement with
the table (`System.Agrees`) for as long as it has never refused to delist a line. What it has
answered in a run is `System.delistingsOf`.
-/

namespace Uart16550

variable {η σ : Type}

namespace Device

/-- Whether a move is none of the table's: anything but listing and releasing. -/
def Move.ofHolder : Move σ → Bool
  | .list _ | .release => false
  | _ => true

/-- Nothing but the table changes what a line depends on. -/
theorem flags_run (d : Device σ) {m : Move σ} (h : m.ofHolder = true) :
    (m.run d).info = d.info ∧ (m.run d).initialized = d.initialized ∧
      (m.run d).registered = d.registered := by
  cases m with
  | operate op =>
    have hrun : (Move.operate op).run d = (op.run d).device := rfl
    rw [hrun]
    by_cases hop : ∃ a, op = .access a
    · obtain ⟨a, rfl⟩ := hop
      have hlife : (a.run d).device.registered = d.registered := by
        rcases d.lifecycle_access a with hl | hl <;> exact congrArg Lifecycle.registered hl
      exact ⟨d.info_access a, d.initialized_access a, hlife⟩
    · rcases d.operate_cases (not_exists.mp hop) with
        ⟨⟨c, m, hd⟩, -⟩ | ⟨sink, rfl⟩ | ⟨hd, -⟩ | ⟨hd, -⟩
      · rw [hd]
        exact ⟨rfl, rfl, rfl⟩
      · exact ⟨rfl, rfl, rfl⟩
      · rw [hd]
        exact ⟨rfl, rfl, rfl⟩
      · rw [hd]
        exact ⟨rfl, rfl, rfl⟩
  | look =>
    simp only [Move.run, capture]
    split_ifs
    · exact ⟨rfl, rfl, rfl⟩
    · split <;> exact ⟨rfl, rfl, rfl⟩
    · exact ⟨rfl, rfl, rfl⟩
    · exact ⟨rfl, rfl, rfl⟩
  | crashed =>
    simp only [Move.run]
    split <;> exact ⟨rfl, rfl, rfl⟩
  | advance sink => exact ⟨rfl, rfl, rfl⟩
  | handled => exact ⟨rfl, rfl, rfl⟩
  | list registered => cases h
  | release => cases h

end Device

namespace System

/-- One thing that happens to a system. -/
inductive Act (η σ : Type) where
  | add (line : UInt8)
  | remove (line : UInt8)
  /-- A removal in the middle of which the host, whatever it answers, has lines added. -/
  | removeAmid (line : UInt8) (requests : List UInt8)
  /-- The table goes away with all its lines. -/
  | drop
  /-- The host changes by itself. -/
  | change (f : η → η)
  /-- A holder of a device, a handler or the worker does something to it. -/
  | touch (device : Nat) (m : Device.Move σ)

/-- The system after an act. -/
def perform [Host η] (s : System η σ) : Act η σ → System η σ
  | .add line => (s.add line).2
  | .remove line => (s.remove line).system
  | .removeAmid line requests => s.removeAmid line requests
  | .drop => s.removeAll
  | .change f => { s with host := f s.host }
  | .touch device m => if m.ofHolder then s.modify device (m.run ·) else s

/-- The system after a sequence of acts. -/
def after [Host η] (s : System η σ) (acts : List (Act η σ)) : System η σ := acts.foldl perform s

/-- What every act keeps, a run keeps. -/
theorem after_of_keeps [Host η] {P : System η σ → Prop} (keep : ∀ s act, P s → P (perform s act))
    {s : System η σ} (h : P s) (acts : List (Act η σ)) : P (s.after acts) := by
  induction acts generalizing s with
  | nil => exact h
  | cons act acts ih => exact ih (keep s act h)

/-- Every act keeps the table in order. -/
theorem kept_perform [Host η] (s : System η σ) (act : Act η σ) (h : s.Kept none) :
    (s.perform act).Kept none := by
  cases act with
  | add line => exact kept_add h line
  | remove line =>
    rw [perform, remove, system_removeWith]
    exact kept_removeAmid h line _
  | removeAmid line requests => exact kept_removeAmid h line requests
  | drop => exact kept_removeAll h
  | change f => exact h.of_eq rfl rfl
  | touch device m =>
    simp only [perform]
    split
    · next hm => exact h.modify fun d => d.flags_run hm
    · exact h

end System

/-! ### The host's list -/

/-- What a host that lists devices promises: it lists a device when it accepts it, lists nothing
when it refuses, and delists a line when it agrees to. The order of its list is its own. -/
structure Host.Lists [Host η] (entries : η → List (LineInfo × Nat)) : Prop where
  register_ok {h : η} {info : LineInfo} {device : Nat} :
    (Host.register h info device).1 = .ok () →
    (entries (Host.register h info device).2).Perm ((info, device) :: entries h)
  register_error {h : η} {info : LineInfo} {device : Nat} {e : Error} :
    (Host.register h info device).1 = .error e →
    (entries (Host.register h info device).2).Perm (entries h)
  unregister_ok {h : η} {info : LineInfo} {request : Option UInt8} :
    (Host.unregister h info).1 = .ok request →
    (entries (Host.unregister h info).2).Perm ((entries h).filter (·.1.line != info.line))

theorem RecordingHost.lists : Host.Lists RecordingHost.entries where
  register_ok {h info device} hok := by
    cases hr : h.refuseRegister with
    | some text => simp [Host.register, RecordingHost.register, hr] at hok
    | none =>
      simp only [Host.register, RecordingHost.register, hr]
      exact List.perm_append_singleton _ _
  register_error {h info device e} herr := by
    cases hr : h.refuseRegister with
    | some text =>
      simp only [Host.register, RecordingHost.register, hr]
      exact List.Perm.refl _
    | none => simp [Host.register, RecordingHost.register, hr] at herr
  unregister_ok {h info request} hok := by
    cases hr : h.refuseUnregister with
    | some text => simp [Host.unregister, RecordingHost.unregister, hr] at hok
    | none =>
      simp only [Host.unregister, RecordingHost.unregister, hr]
      exact List.Perm.refl _

namespace System

/-- **A host in agreement with the table.** It lists exactly the live lines, each once, with its
identity and its device. -/
structure Agrees (s : System η σ) (entries : List (LineInfo × Nat)) : Prop where
  nodup : (entries.map (·.1.line)).Nodup
  mem_iff {info : LineInfo} {device : Nat} : (info, device) ∈ entries ↔
    LineInfo.ofLine info.line = .ok info ∧ s.table.slot info.line = .live device

theorem Agrees.perm {s : System η σ} {entries entries' : List (LineInfo × Nat)}
    (h : s.Agrees entries) (hp : entries'.Perm entries) : s.Agrees entries' where
  nodup := (hp.map _).nodup_iff.mpr h.nodup
  mem_iff := hp.mem_iff.trans h.mem_iff

/-- Agreement is about the live lines alone. -/
theorem Agrees.of_slots {s t : System η σ} {entries : List (LineInfo × Nat)}
    (h : s.Agrees entries)
    (hslots : ∀ line device, t.table.slot line = .live device ↔ s.table.slot line = .live device) :
    t.Agrees entries where
  nodup := h.nodup
  mem_iff := by
    intro info device
    rw [hslots]
    exact h.mem_iff

variable [Host η] {entries : η → List (LineInfo × Nat)}

/-- Adding a line keeps the host in agreement, whether it accepts or not. -/
theorem agrees_add (hlists : Host.Lists entries) {s : System η σ} (h : s.Agrees (entries s.host))
    (line : UInt8) : (s.add line).2.Agrees (entries (s.add line).2.host) := by
  rcases s.add_cases line with
    ⟨⟨e, ha⟩, -⟩ | ⟨info, hi, hfree, ⟨e, herr, ha⟩ | ⟨hok, ha⟩⟩ <;> rw [ha]
  · exact h
  · exact (h.perm (hlists.register_error herr)).of_slots fun _ _ => Iff.rfl
  have hline : info.line = line := LineInfo.line_of_ofLine hi
  have hlt : line.toNat < lineCount := LineInfo.ofLine_eq_ok_iff.mp ⟨info, hi⟩
  have hslot := LineTable.slot_put s.table hlt (.live s.devices.length)
  refine Agrees.perm ?_ (hlists.register_ok hok)
  constructor
  · rw [List.map_cons, List.nodup_cons]
    refine ⟨fun hmem => ?_, h.nodup⟩
    obtain ⟨⟨info', device⟩, hentry, hsame⟩ := List.mem_map.mp hmem
    simp only [hline] at hsame
    rw [h.mem_iff, hsame, hfree] at hentry
    cases hentry.2
  · intro info' device
    rw [List.mem_cons, h.mem_iff]
    simp only [hslot]
    by_cases he : info'.line = line
    · simp only [he, hi, hfree, if_true]
      constructor
      · rintro (heq | ⟨-, hbad⟩)
        · cases heq
          exact ⟨rfl, rfl⟩
        · cases hbad
      · rintro ⟨hinfo, hdevice⟩
        cases hinfo
        cases hdevice
        exact Or.inl rfl
    · simp only [he, if_false]
      refine or_iff_right fun heq => he ?_
      cases heq
      exact hline

theorem agrees_addAll (hlists : Host.Lists entries) {s : System η σ}
    (h : s.Agrees (entries s.host)) (lines : List UInt8) :
    (s.addAll lines).Agrees (entries (s.addAll lines).host) :=
  addAll_of_keeps (P := fun s => s.Agrees (entries s.host))
    (fun _ line hs => agrees_add hlists hs line) h lines

/-- What the host answers as it is asked to delist a line, if the line is live. -/
def delistingAnswer (s : System η σ) (line : UInt8) : List (Except Error (Option UInt8)) :=
  ((s.delisting? line).map (·.1)).toList

/-- A removal that the host does not refuse keeps it in agreement. -/
theorem agrees_removeAmid (hlists : Host.Lists entries) {s : System η σ}
    (h : s.Agrees (entries s.host)) (line : UInt8) (requests : List UInt8)
    (hok : ∀ answer ∈ s.delistingAnswer line, ∃ request, answer = .ok request) :
    (s.removeAmid line requests).Agrees (entries (s.removeAmid line requests).host) := by
  by_cases hlive : ∃ device, s.table.slot line = .live device
  · obtain ⟨device, hs⟩ := hlive
    obtain ⟨info, hi, hdel⟩ := delisting?_of_live hs
    obtain ⟨request, hrequest⟩ : ∃ request, (Host.unregister s.host info).1 = .ok request := by
      refine hok _ ?_
      simp only [delistingAnswer, hdel]
      exact List.mem_singleton_self _
    have hline : info.line = line := LineInfo.line_of_ofLine hi
    have hlt : line.toNat < lineCount := LineInfo.ofLine_eq_ok_iff.mp ⟨info, hi⟩
    have hslot := LineTable.slot_put s.table hlt .removing
    -- The host has forgotten the line, and the line is no longer live.
    have hmid : (s.amid line requests).Agrees (entries (s.amid line requests).host) := by
      rw [amid_of_live hs hi]
      refine agrees_addAll hlists (Agrees.perm ?_ (hlists.unregister_ok hrequest)) requests
      constructor
      · exact h.nodup.sublist (List.filter_sublist.map _)
      · intro info' place
        simp only [List.mem_filter, h.mem_iff, table_cutOffLine, hslot, hline, bne_iff_ne]
        by_cases he : info'.line = line <;> simp [he]
    rw [host_removeAmid hs]
    exact hmid.of_slots (slot_removeAmid_eq_live_iff hs requests)
  · rw [removeAmid_of_not_live (not_exists.mp hlive)]
    exact h

/-- What the host answers as lines are removed one after another, when the table goes away. -/
def delistingsAll (s : System η σ) : List UInt8 → List (Except Error (Option UInt8))
  | [] => []
  | line :: lines => s.delistingAnswer line ++ (s.removeAmid line []).delistingsAll lines

/-- What the host answers to the delistings of an act. -/
def delistings (s : System η σ) : Act η σ → List (Except Error (Option UInt8))
  | .remove line | .removeAmid line _ => s.delistingAnswer line
  | .drop => s.delistingsAll s.table.lines
  | _ => []

/-- What the host answers to the delistings of a run, in order. -/
def delistingsOf (s : System η σ) : List (Act η σ) → List (Except Error (Option UInt8))
  | [] => []
  | act :: acts => s.delistings act ++ (s.perform act).delistingsOf acts

theorem agrees_removeAll (hlists : Host.Lists entries) {s : System η σ}
    (h : s.Agrees (entries s.host))
    (hok : ∀ answer ∈ s.delistingsAll s.table.lines, ∃ request, answer = .ok request) :
    s.removeAll.Agrees (entries s.removeAll.host) := by
  rw [removeAll_eq]
  generalize s.table.lines = lines at hok ⊢
  induction lines generalizing s with
  | nil => exact h
  | cons line lines ih =>
    rw [delistingsAll, List.forall_mem_append] at hok
    exact ih (agrees_removeAmid hlists h line [] hok.1) hok.2

/-- Every act keeps the host in agreement, unless the host refuses to delist a line or changes its
list by itself. -/
theorem agrees_perform (hlists : Host.Lists entries) {s : System η σ}
    (h : s.Agrees (entries s.host)) (act : Act η σ)
    (hchange : ∀ f, act = .change f → ∀ host, (entries (f host)).Perm (entries host))
    (hok : ∀ answer ∈ s.delistings act, ∃ request, answer = .ok request) :
    (s.perform act).Agrees (entries (s.perform act).host) := by
  cases act with
  | add line => exact agrees_add hlists h line
  | remove line =>
    rw [perform, remove, system_removeWith]
    exact agrees_removeAmid hlists h line _ hok
  | removeAmid line requests => exact agrees_removeAmid hlists h line requests hok
  | drop => exact agrees_removeAll hlists h hok
  | change f => exact (h.perm (hchange f rfl _)).of_slots fun _ _ => Iff.rfl
  | touch device m =>
    simp only [perform]
    split
    · exact h.of_slots fun _ _ => Iff.rfl
    · exact h

theorem agrees_after (hlists : Host.Lists entries) {s : System η σ}
    (h : s.Agrees (entries s.host)) (acts : List (Act η σ))
    (hchange : ∀ f, .change f ∈ acts → ∀ host, (entries (f host)).Perm (entries host))
    (hok : ∀ answer ∈ s.delistingsOf acts, ∃ request, answer = .ok request) :
    (s.after acts).Agrees (entries (s.after acts).host) := by
  induction acts generalizing s with
  | nil => exact h
  | cons act acts ih =>
    rw [delistingsOf, List.forall_mem_append] at hok
    have hfirst := agrees_perform hlists h act
      (fun f hf => hchange f (hf ▸ List.mem_cons_self)) hok.1
    exact ih hfirst (fun f hf => hchange f (List.mem_cons_of_mem _ hf)) hok.2

/-- **The lines of a table.** After any run the table is in order: allocated exactly while a line
is live, each live line with a device of its own, listed and initialized under the line's identity,
and every other device let go of. In the middle of the removal of a live line the host is refused
that line, and given any other that is free and that it accepts, for good. And if the host lists
what it accepts, began with nothing listed, has not touched its list by itself and has delisted
whatever it was told to, then it lists exactly the live lines, once each, with their devices. -/
theorem orderly_after (host : η) (counting : Bool) (acts : List (Act η σ)) :
    let born : System η σ := System.empty host counting
    let s := born.after acts
    s.Orderly ∧
      (∀ line device, s.table.slot line = .live device → s.Readmits line) ∧
      ∀ entries : η → List (LineInfo × Nat), Host.Lists entries → entries host = [] →
        (∀ f, .change f ∈ acts → ∀ h, (entries (f h)).Perm (entries h)) →
        (∀ answer ∈ born.delistingsOf acts, ∃ request, answer = .ok request) →
        s.Agrees (entries s.host) := by
  intro born s
  have hkept : s.Kept none := after_of_keeps kept_perform (kept_empty host counting) acts
  refine ⟨hkept.orderly, fun line device hs => readmits hkept hs,
    fun entries hlists hnone hchange hok => agrees_after hlists ?_ acts hchange hok⟩
  have hborn : born.host = host := rfl
  rw [hborn, hnone]
  refine ⟨List.nodup_nil, fun {info device} => ?_⟩
  simp [born, System.empty, LineTable.empty, LineTable.slot]

/-- Two lines are added, and as the first is removed the host has line 1 added. It lists the two
lines that are live then; as the second is removed it may have line 3 added, but not line 2. -/
theorem orderly_after_readding :
    let born : System RecordingHost Unit := System.empty {} true
    let ask : RecordingHost → RecordingHost := fun h => { h with request := some 1 }
    let s := born.after [.add 0, .add 2, .change ask, .remove 0]
    s.Orderly ∧ s.Agrees s.host.entries ∧
      s.table.slot 1 = .live 2 ∧ s.table.slot 2 = .live 1 ∧
      ((s.amid 2 []).add 3).1 = .ok 3 ∧ (s.removeAmid 2 [3]).table.slot 3 = .live 3 ∧
      ((s.amid 2 [3]).add 2).1 = .error (.alreadyInitialized 2) := by
  intro born ask s
  have hslots : s.table.slot 1 = .live 2 ∧ s.table.slot 2 = .live 1 := by decide +kernel
  have hfree : (s.amid 2 []).table.slot 3 = .free ∧ (s.amid 2 []).devices.length = 3 := by
    decide +kernel
  obtain ⟨info, hi⟩ : ∃ info, LineInfo.ofLine 3 = .ok info := ⟨_, rfl⟩
  have haccepts : (Host.register (s.amid 2 []).host info (s.amid 2 []).devices.length).1 =
      .ok () := by
    cases hi
    decide +kernel
  have hanswers : born.delistingsOf [.add 0, .add 2, .change ask, .remove 0] = [.ok (some 1)] := by
    decide +kernel
  obtain ⟨horderly, hreadmits, hagrees⟩ :=
    orderly_after (η := RecordingHost) (σ := Unit) {} true [.add 0, .add 2, .change ask, .remove 0]
  have hsecond : s.Readmits 2 := hreadmits 2 1 hslots.2
  obtain ⟨hadded, hstays, -⟩ := hsecond.admitted [] [] (by decide) hi hfree.1 haccepts
  rw [hfree.2] at hadded hstays
  refine ⟨horderly, hagrees _ RecordingHost.lists rfl ?_ ?_, hslots.1, hslots.2, hadded, hstays,
    hsecond.refused [3]⟩
  · intro f hf h
    simp only [List.mem_cons, reduceCtorEq, Act.change.injEq, List.not_mem_nil, or_false,
      false_or] at hf
    subst hf
    exact List.Perm.refl _
  · intro answer ha
    have hanswer : answer ∈ [.ok (some 1)] := hanswers ▸ ha
    exact ⟨some 1, List.mem_singleton.mp hanswer⟩

end System

end Uart16550
