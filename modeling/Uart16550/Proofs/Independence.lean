import Uart16550.Proofs.Retirement

/-!
# Lines do not get in each other's way

Two steps that operate on different devices commute: in either order each is answered the same, with
the same calls of consumers and sinks and the same view of its device, and the session is the same
afterwards. It is enough to see what a single operation touches. It replaces one device
(`exists_change_step`), and it cannot tell whether a device that it has nothing to do with was
replaced before (`step_change`). An operation that a host makes is about two devices, because its
answer shows the device of the live line, which need not be the one that the host has listed.

The other half is a frame: a step leaves every device as it was that it is not about, and what adds
and removes lines is about no device but those of the lines that go.

## Main statements

* `System.Single`: no two live lines have one device.
* `Session.commute_of_disjoint`: operations on different devices commute.
* `System.getElem?_perform`, `Session.getElem?_step`: the frame, for any host and for a session.
-/

namespace Uart16550

namespace System

variable {η σ : Type}

/-! ### No line shares its device -/

/-- Whatever a live line refers to is there, and no other line refers to it. -/
structure Single (s : System η σ) : Prop where
  placed : s.Placed
  unique {line other : UInt8} {place : Nat} :
    s.table.slot line = .live place → s.table.slot other = .live place → line = other

theorem lasting_single [Host η] : Lasting (Single : System η σ → Prop) where
  of_le h hlive hlength :=
    ⟨h.placed.of_le hlive hlength, fun hline hother =>
      h.unique (hlive _ _ hline) (hlive _ _ hother)⟩
  add {s} h line := by
    refine ⟨placed_add h.placed line, ?_⟩
    rcases s.add_cases line with
      ⟨⟨e, ha⟩, -⟩ | ⟨info, hi, -, ⟨e, -, ha⟩ | ⟨-, ha⟩⟩ <;> rw [ha]
    · exact h.unique
    · exact h.unique
    · have hlt : line.toNat < lineCount := LineInfo.ofLine_eq_ok_iff.mp ⟨info, hi⟩
      intro one other place hone hother
      -- The new place is beyond those that were given to lines before.
      simp only [LineTable.slot_put _ hlt] at hone hother
      split at hone <;> split at hother
      · next h₁ h₂ => rw [h₁, h₂]
      · cases hone
        exact absurd (h.placed other _ hother) (Nat.lt_irrefl _)
      · cases hother
        exact absurd (h.placed one _ hone) (Nat.lt_irrefl _)
      · exact h.unique hone hother

/-! ### What an act is about -/

/-- Whether an act is about the device at a place: it is done to the device, or removes its line. -/
def IsAbout (s : System η σ) (place : Nat) : Act η σ → Prop
  | .add _ | .change _ => False
  | .remove line | .removeAmid line _ => s.table.slot line = .live place
  | .drop => ∃ line ∈ s.table.lines, s.table.slot line = .live place
  | .touch device _ => device = place

variable [Host η]

/-- A removal leaves every device as it was but that of the line. -/
theorem getElem?_removeAmid_of_ne {s : System η σ} {line : UInt8} {place : Nat} {d : Device σ}
    (hd : s.devices[place]? = some d) (h : s.table.slot line ≠ .live place)
    (requests : List UInt8) : (s.removeAmid line requests).devices[place]? = some d := by
  by_cases hlive : ∃ device, s.table.slot line = .live device
  · obtain ⟨device, hs⟩ := hlive
    have hne : place ≠ device := by
      rintro rfl
      exact h hs
    rw [getElem?_removeAmid hs requests hd, if_neg hne]
  · rw [removeAmid_of_not_live (not_exists.mp hlive), hd]

/-- **An act leaves every device as it was that it is not about.** -/
theorem getElem?_perform {s : System η σ} {act : Act η σ} {place : Nat} {d : Device σ}
    (hd : s.devices[place]? = some d) (h : ¬s.IsAbout place act) :
    (s.perform act).devices[place]? = some d := by
  cases act with
  | add line => exact (s.add_keeps line).1 hd
  | remove line =>
    rw [perform, remove, system_removeWith]
    exact getElem?_removeAmid_of_ne hd h _
  | removeAmid line requests => exact getElem?_removeAmid_of_ne hd h requests
  | drop =>
    rw [perform, getElem?_removeAll hd]
    exact congrArg some (if_neg h)
  | change f => exact hd
  | touch device m =>
    simp only [perform]
    split
    · simpa [modify, show device ≠ place from h] using hd
    · exact hd

omit [Host η] in
theorem modify_comm (s : System η σ) {place other : Nat} (h : place ≠ other)
    (f g : Device σ → Device σ) :
    (s.modify place f).modify other g = (s.modify other g).modify place f := by
  have hdevices : (s.devices.modify place f).modify other g =
      (s.devices.modify other g).modify place f := by
    apply List.ext_getElem?
    intro i
    by_cases hp : place = i <;> by_cases ho : other = i
    · exact absurd (hp.trans ho.symm) h
    all_goals simp [hp, ho]
  simp only [modify, hdevices]

/-- What is done to two devices, by holders, handlers and workers, can be done in either order. -/
theorem perform_touch_comm (s : System η σ) {place other : Nat} (h : place ≠ other)
    (m n : Device.Move σ) :
    (s.perform (.touch place m)).perform (.touch other n) =
      (s.perform (.touch other n)).perform (.touch place m) := by
  simp only [perform]
  split <;> split
  · exact s.modify_comm h _ _
  all_goals rfl

end System

namespace Session

/-! ### Operations -/

/-- Whether a step is an operation on a device: through a line, through the host or through a
handle. -/
def Step.isOperation : Step → Bool
  | .table (.onLine _ _) | .host (.input _ _) | .host (.output _ _ _) | .onHandle _ _ => true
  | _ => false

/-- The places that an operation is about: that of the device on which it is made, and that of the
device which its answer shows. -/
def places (s : Session) : Step → List Nat
  | .table (.onLine line _) => (s.live? line).toList
  | .host (.input line _) | .host (.output line _ _) =>
    (s.system.host.find? line).toList ++ (s.live? line).toList
  | .onHandle handle _ => if handle ∈ s.letGo then [] else [handle]
  | _ => []

/-- The session with another device at a place, if one is named. -/
def change (s : Session) : Option (Nat × Device ScriptedSink) → Session
  | some (place, d) => { s with system := s.system.modify place fun _ => d }
  | none => s

variable {s : Session} {x y : Option (Nat × Device ScriptedSink)} {place : Nat}

theorem table_change (s : Session) (x : Option (Nat × Device ScriptedSink)) :
    (s.change x).system.table = s.system.table := by
  cases x <;> rfl

theorem host_change (s : Session) (x : Option (Nat × Device ScriptedSink)) :
    (s.change x).system.host = s.system.host := by
  cases x <;> rfl

theorem tableGone_change (s : Session) (x : Option (Nat × Device ScriptedSink)) :
    (s.change x).tableGone = s.tableGone := by
  cases x <;> rfl

theorem letGo_change (s : Session) (x : Option (Nat × Device ScriptedSink)) :
    (s.change x).letGo = s.letGo := by
  cases x <;> rfl

theorem live?_change (s : Session) (x : Option (Nat × Device ScriptedSink)) (line : UInt8) :
    (s.change x).live? line = s.live? line := by
  cases x <;> rfl

/-- A change elsewhere leaves a device as it was. -/
theorem getElem?_change (h : ∀ a ∈ x, a.1 ≠ place) :
    (s.change x).system.devices[place]? = s.system.devices[place]? := by
  cases x with
  | none => rfl
  | some a =>
    have hne : a.1 ≠ place := h a rfl
    simp [change, System.modify, hne]

/-- It cannot be seen there either. -/
theorem view_change (h : ∀ a ∈ x, a.1 ≠ place) : (s.change x).view place = s.view place := by
  simp only [view, letGo_change, getElem?_change h]

/-- Changes at different places can be made in either order. -/
theorem change_comm (h : ∀ a ∈ x, ∀ b ∈ y, a.1 ≠ b.1) :
    (s.change x).change y = (s.change y).change x := by
  cases x with
  | none => rfl
  | some a =>
    cases y with
    | none => rfl
    | some b =>
      have hne : a.1 ≠ b.1 := h a rfl b rfl
      simp only [change, s.system.modify_comm hne]

theorem bind_view_change {shown : Option Nat} (h : ∀ a ∈ x, a.1 ∉ shown) :
    shown.bind (s.change x).view = shown.bind s.view := by
  cases shown with
  | none => rfl
  | some place => exact view_change fun a ha heq => h a ha (by rw [heq]; rfl)

/-! ### What an operation does and what it sees -/

/-- An operation replaces the device on which it is made, and shows it. -/
theorem operate_of_some {d : Device ScriptedSink} (hd : s.system.devices[place]? = some d)
    (op : Operation ScriptedSink) :
    s.operate place op =
      let r := d.step op
      let s' := s.change (some (place, r.device))
      ({ result := .reply r.reply, flushes := r.flushes, deliveries := r.deliveries,
         state := s'.view place }, s') := by
  simp only [operate, hd]
  rfl

theorem exists_change_operate (s : Session) (place : Nat) (op : Operation ScriptedSink) :
    ∃ x, (∀ a ∈ x, a.1 = place) ∧ (s.operate place op).2 = s.change x := by
  cases hd : s.system.devices[place]? with
  | none => exact ⟨none, by simp, (operate_of_none hd op).1⟩
  | some d => exact ⟨some (place, (d.step op).device), by simp, by rw [operate_of_some hd]⟩

/-- It takes no notice of a change elsewhere, and leaves it as it is. -/
theorem operate_change (h : ∀ a ∈ x, a.1 ≠ place) (op : Operation ScriptedSink) :
    (s.change x).operate place op = ((s.operate place op).1, (s.operate place op).2.change x) := by
  cases hd : s.system.devices[place]? with
  | none =>
    have hd' : (s.change x).system.devices[place]? = none := (getElem?_change h).trans hd
    simp only [operate, hd, hd']
  | some d =>
    have hd' : (s.change x).system.devices[place]? = some d := (getElem?_change h).trans hd
    have hcomm : (s.change x).change (some (place, (d.step op).device)) =
        (s.change (some (place, (d.step op).device))).change x :=
      change_comm fun a ha b hb => by
        cases hb
        exact h a ha
    rw [operate_of_some hd, operate_of_some hd']
    simp only [hcomm, view_change h]

/-- **An operation replaces at most one device**, and one that it is about. -/
theorem exists_change_step {st : Step} (h : st.isOperation = true) :
    ∃ x, (∀ a ∈ x, a.1 ∈ s.places st) ∧ (s.step st).2 = s.change x := by
  have hlisted : ∀ line op, ∃ x, (∀ a ∈ x, a.1 ∈ s.system.host.find? line) ∧
      (s.operateListed line op).2 = s.change x := fun line op => by
    cases hfind : s.system.host.find? line with
    | none => exact ⟨none, by simp, by simp only [operateListed, hfind]; rfl⟩
    | some device =>
      obtain ⟨x, hx, hsession⟩ := s.exists_change_operate device op
      refine ⟨x, fun a ha => ?_, (operateListed_of_some hfind op).1.trans hsession⟩
      rw [hx a ha]
      rfl
  cases st with
  | table t =>
    cases t with
    | onLine line op =>
      cases hgone : s.tableGone with
      | true => exact ⟨none, by simp, by rw [step_table_of_gone hgone]; rfl⟩
      | false =>
        rw [step_table_of_present hgone]
        cases hget : s.system.table.get line with
        | error e => exact ⟨none, by simp, by simp only [stepTable, hget]; rfl⟩
        | ok device =>
          obtain ⟨x, hx, hsession⟩ := s.exists_change_operate device op
          refine ⟨x, fun a ha => ?_, by simpa only [stepTable, hget] using hsession⟩
          simp [places, live?, System.live?, hgone, hget, hx a ha]
    | _ => cases h
  | host t =>
    cases t with
    | input line offset | output line offset value =>
      obtain ⟨x, hx, hsession⟩ := hlisted line _
      refine ⟨x, fun a ha => ?_, hsession⟩
      exact List.mem_append_left _ (Option.mem_toList.mpr (hx a ha))
    | _ => cases h
  | onHandle handle op =>
    simp only [step, places]
    split
    · exact ⟨none, by simp, rfl⟩
    · obtain ⟨x, hx, hsession⟩ := s.exists_change_operate handle op
      exact ⟨x, fun a ha => by simp [hx a ha], hsession⟩
  | create info counting => cases h
  | letGo handle => cases h

theorem operateListed_change {line : UInt8} (hfind : ∀ a ∈ x, a.1 ∉ s.system.host.find? line)
    (hlive : ∀ a ∈ x, a.1 ∉ s.live? line) (op : Operation ScriptedSink) :
    (s.change x).operateListed line op =
      ((s.operateListed line op).1, (s.operateListed line op).2.change x) := by
  have hview := fun s' => bind_view_change (s := s') hlive
  cases hf : s.system.host.find? line with
  | none => simp only [operateListed, host_change, hf, viewLive, live?_change, hview]
  | some device =>
    have hne : ∀ a ∈ x, a.1 ≠ device := by simpa [hf, eq_comm] using hfind
    simp only [operateListed, host_change, hf, operate_change hne, live?_change, hview]

/-- **An operation takes no notice of a change that it is not about**, and leaves it as it is. -/
theorem step_change {st : Step} (h : st.isOperation = true) (hx : ∀ a ∈ x, a.1 ∉ s.places st) :
    (s.change x).step st = ((s.step st).1, (s.step st).2.change x) := by
  have hlisted : ∀ line op, (∀ a ∈ x, a.1 ∉ s.system.host.find? line ∧ a.1 ∉ s.live? line) →
      (s.change x).operateListed line op =
        ((s.operateListed line op).1, (s.operateListed line op).2.change x) :=
    fun line op ha => operateListed_change (fun a hm => (ha a hm).1) (fun a hm => (ha a hm).2) op
  cases st with
  | table t =>
    cases t with
    | onLine line op =>
      cases hgone : s.tableGone with
      | true =>
        rw [step_table_of_gone hgone, step_table_of_gone ((s.tableGone_change x).trans hgone)]
      | false =>
        rw [step_table_of_present hgone,
          step_table_of_present ((s.tableGone_change x).trans hgone)]
        cases hget : s.system.table.get line with
        | error e => simp only [stepTable, table_change, hget]
        | ok device =>
          have hne : ∀ a ∈ x, a.1 ≠ device := fun a ha => by
            simpa [places, live?, System.live?, hgone, hget, eq_comm] using hx a ha
          simp only [stepTable, table_change, hget, operate_change hne]
    | _ => cases h
  | host t =>
    cases t with
    | input line offset | output line offset value =>
      refine hlisted line _ fun a ha => ?_
      simpa [places] using hx a ha
    | _ => cases h
  | onHandle handle op =>
    simp only [step, letGo_change]
    split
    · rfl
    · next hheld =>
      refine operate_change (fun a ha => ?_) op
      simpa [places, hheld] using hx a ha
  | create info counting => cases h
  | letGo handle => cases h

/-! ### Operations commute -/

/-- Two steps that can be made in either order: each is answered the same, first or last, and the
session is the same when both are done. -/
structure Commute (s : Session) (st₁ st₂ : Step) : Prop where
  first : (s.step st₁).1 = ((s.step st₂).2.step st₁).1
  second : ((s.step st₁).2.step st₂).1 = (s.step st₂).1
  session : ((s.step st₁).2.step st₂).2 = ((s.step st₂).2.step st₁).2

/-- **Operations on different devices commute.** -/
theorem commute_of_disjoint {st₁ st₂ : Step} (h₁ : st₁.isOperation = true)
    (h₂ : st₂.isOperation = true) (h : (s.places st₁).Disjoint (s.places st₂)) :
    s.Commute st₁ st₂ := by
  obtain ⟨x, hx, hs₁⟩ := s.exists_change_step h₁
  obtain ⟨y, hy, hs₂⟩ := s.exists_change_step h₂
  have hafter₁ : (s.change x).step st₂ = ((s.step st₂).1, (s.change y).change x) := by
    rw [step_change h₂ fun a ha hmem => h (hx a ha) hmem, hs₂]
  have hafter₂ : (s.change y).step st₁ = ((s.step st₁).1, (s.change x).change y) := by
    rw [step_change h₁ fun b hb hmem => h hmem (hy b hb), hs₁]
  refine ⟨?_, ?_, ?_⟩
  · rw [hs₂, hafter₂]
  · rw [hs₁, hafter₁]
  · rw [hs₁, hs₂, hafter₁, hafter₂]
    refine change_comm fun b hb a ha heq => ?_
    exact h (hx a ha) (heq ▸ hy b hb)

/-- In a session no two live lines have one device. -/
theorem single_after_empty (counting : Bool) (steps : List Step) :
    ((empty counting).after steps).system.Single :=
  lasting_after System.lasting_single
    (fun _ hnone => ⟨fun line place hs => absurd hs (hnone line place),
      fun hs => absurd hs (hnone _ _)⟩)
    counting steps

/-- So operations on different lines are about different devices. -/
theorem disjoint_lines (h : s.system.Single) {line other : UInt8} (hne : line ≠ other)
    (op op' : Operation ScriptedSink) :
    (s.places (.table (.onLine line op))).Disjoint (s.places (.table (.onLine other op'))) := by
  intro place hp ho
  simp only [places, Option.mem_toList, live?] at hp ho
  split at hp
  · cases hp
  · rw [if_neg ‹_›] at ho
    exact hne (h.unique (System.live?_eq_some_iff.mp hp) (System.live?_eq_some_iff.mp ho))

/-! ### The frame -/

/-- Whether a step is about the device at a place: it operates on the device, or takes it out of
service. -/
def IsAbout (s : Session) (place : Nat) (st : Step) : Prop :=
  (∃ op, s.aim st = some (place, op)) ∨ s.retires place st = true

/-- **A step leaves every device as it was that it is not about.** -/
theorem getElem?_step {d : Device ScriptedSink} (hd : s.system.devices[place]? = some d)
    {st : Step} (h : ¬s.IsAbout place st) : (s.step st).2.system.devices[place]? = some d := by
  obtain ⟨haimed, hretires⟩ := not_or.mp h
  cases haim : s.aim st with
  | none => rw [getElem?_step_unaimed haim hd, if_neg hretires]
  | some a =>
    obtain ⟨aimed, op⟩ := a
    obtain ⟨d', -, hdevices, -⟩ := step_aimed haim
    have hne : aimed ≠ place := by
      rintro rfl
      exact haimed ⟨op, haim⟩
    rw [hdevices]
    simpa [hne] using hd

end Session

/-- **Lines are independent.** In a session, two operations that are about different devices can be
made in either order: each is answered the same, with the same calls of consumers and sinks and the
same view of its device, and the session is the same afterwards. Two operations on different lines
are about different devices. No step changes a device that it is not about.

Under any host, whatever two holders, handlers and workers do to different devices can be done in
either order, and no act changes a device that it is not about: neither the addition of a line, nor
the removal of another, whatever is added in the middle of it. -/
theorem independent_of_reachable :
    (∀ (counting : Bool) (steps : List Session.Step),
      let s := (Session.empty counting).after steps
      (∀ st₁ st₂ : Session.Step, st₁.isOperation = true → st₂.isOperation = true →
        (s.places st₁).Disjoint (s.places st₂) → s.Commute st₁ st₂) ∧
      (∀ (line other : UInt8) (op op' : Operation ScriptedSink), line ≠ other →
        s.Commute (.table (.onLine line op)) (.table (.onLine other op'))) ∧
      ∀ (place : Nat) (d : Device ScriptedSink) (st : Session.Step),
        s.system.devices[place]? = some d → ¬s.IsAbout place st →
          (s.step st).2.system.devices[place]? = some d) ∧
    ∀ {η σ : Type} [Host η] (host : η) (counting : Bool) (acts : List (System.Act η σ)),
      let s := (System.empty host counting).after acts
      (∀ (place other : Nat) (m n : Device.Move σ), place ≠ other →
        (s.perform (.touch place m)).perform (.touch other n) =
          (s.perform (.touch other n)).perform (.touch place m)) ∧
      ∀ (place : Nat) (d : Device σ) (act : System.Act η σ),
        s.devices[place]? = some d → ¬s.IsAbout place act →
          (s.perform act).devices[place]? = some d := by
  refine ⟨fun counting steps => ⟨?_, ?_, ?_⟩, fun {η σ} _ host counting acts => ⟨?_, ?_⟩⟩
  · exact fun st₁ st₂ h₁ h₂ h => Session.commute_of_disjoint h₁ h₂ h
  · intro line other op op' hne
    have hsingle := Session.single_after_empty counting steps
    exact Session.commute_of_disjoint rfl rfl (Session.disjoint_lines hsingle hne op op')
  · exact fun place d st hd h => Session.getElem?_step hd h
  · exact fun place other m n hne => System.perform_touch_comm _ hne m n
  · exact fun place d act hd h => System.getElem?_perform hd h

/-- Line 0 has a sink that reads the byte which interrupted it, and line 2 a consumer. A byte that
comes in on line 0 and one that is written through the handle of line 2 do not get in each other's
way, though the one is delivered and the other handed over. As line 0 is removed, and line 1 added
in the middle of that, the device of line 2 stays as it is. -/
theorem independent_of_two_lines :
    let steps : List Session.Step := [
      .table (.add 0), .table (.add 2),
      .onHandle 0 (.attach [[.access (.read Offset.data)]]), .onHandle 0 .enableIrq,
      .onHandle 0 (.access (.write Offset.interruptEnable InterruptEnable.receivedData)),
      .onHandle 1 (.bind 1 "tty"), .host (.request 1)]
    let s := (Session.empty true).after steps
    let arrives : Session.Step := .table (.onLine 0 (.access (.inject [0x41])))
    let sends : Session.Step := .onHandle 1 (.access (.write Offset.data 0x42))
    let removes : Session.Step := .table (.remove 0)
    s.Commute arrives sends ∧
      ((s.step sends).2.step arrives).1.deliveries =
        [{ line := 0, iir := 0xC4, replies := [.byte 0x41] }] ∧
      ((s.step arrives).2.step sends).1.flushes =
        [{ label := "tty", line := 2, bytes := [0x42], reason := .threshold }] ∧
      (s.step removes).1.result = .removed (.ok ()) (some (1, .ok 2)) ∧
      ∃ d, s.system.devices[1]? = some d ∧ (s.step removes).2.system.devices[1]? = some d := by
  intro steps s arrives sends removes
  have hplaces : s.places arrives = [0] ∧ s.places sends = [1] := by decide +kernel
  have hcalled : ((s.step sends).2.step arrives).1.deliveries =
        [{ line := 0, iir := 0xC4, replies := [.byte 0x41] }] ∧
      ((s.step arrives).2.step sends).1.flushes =
        [{ label := "tty", line := 2, bytes := [0x42], reason := .threshold }] ∧
      (s.step removes).1.result = .removed (.ok ()) (some (1, .ok 2)) := by decide +kernel
  have hthere : s.system.devices.length = 2 := by decide +kernel
  have hstays : s.retires 1 removes = false := by decide +kernel
  obtain ⟨d, hd⟩ : ∃ d, s.system.devices[1]? = some d :=
    ⟨_, List.getElem?_eq_getElem (hthere ▸ Nat.lt_succ_self 1)⟩
  clear_value steps
  obtain ⟨hcommute, -, hframe⟩ := independent_of_reachable.1 true steps
  refine ⟨hcommute arrives sends rfl rfl ?_, hcalled.1, hcalled.2.1, hcalled.2.2, d, hd, ?_⟩
  · rw [hplaces.1, hplaces.2]
    simp
  · refine hframe 1 d removes hd ?_
    rintro (⟨op, haim⟩ | hretires)
    · cases haim
    · rw [hstays] at hretires
      cases hretires

end Uart16550
