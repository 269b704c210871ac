import Uart16550.Proofs.Worker
import Uart16550.Session

/-!
# The devices of a session

Whatever the steps of a session do to its devices, they do by moves. A step that is aimed at a
device performs an operation on it and leaves every other device alone (`step_aimed`); any other
step leaves devices to the table, which lists them, stops their workers and releases them, and calls
nobody meanwhile (`step_unaimed`). So each device of a session has come from its creation by a list
of moves, on which the sinks were told exactly what the answers of the session tell
(`Session.exists_moves`).
-/

namespace Uart16550

variable {η σ : Type}

namespace System

open Device (Move)

/-! ### What the table does -/

/-- The moves that a table makes: it lists devices, stops their workers and releases them. -/
def ofTable : Move σ → Bool
  | .operate .disableIrq | .list _ | .release => true
  | _ => false

/-- The devices of a system before and after its table has had its way: those that were there have
made moves of the table, and those that were not were created. -/
structure Tends (ds ds' : List (Device σ)) : Prop where
  kept {place : Nat} {d : Device σ} : ds[place]? = some d →
    ∃ ms, (∀ m ∈ ms, ofTable m = true) ∧ ds'[place]? = some (d.after ms)
  added {place : Nat} {d : Device σ} : ds[place]? = none → ds'[place]? = some d →
    ∃ info counting ms, (∀ m ∈ ms, ofTable m = true) ∧ d = (Device.create info counting).after ms

theorem Tends.refl (ds : List (Device σ)) : Tends ds ds where
  kept h := ⟨[], by simp, h⟩
  added h h' := by
    rw [h] at h'
    cases h'

theorem Tends.trans {ds ds' ds'' : List (Device σ)} (h : Tends ds ds') (h' : Tends ds' ds'') :
    Tends ds ds'' where
  kept hd := by
    obtain ⟨ms, hms, hd'⟩ := h.kept hd
    obtain ⟨ms', hms', hd''⟩ := h'.kept hd'
    refine ⟨ms ++ ms', List.forall_mem_append.mpr ⟨hms, hms'⟩, ?_⟩
    rw [Device.after_append]
    exact hd''
  added {place e} hnone hsome := by
    cases hd' : ds'[place]? with
    | none => exact h'.added hd' hsome
    | some d' =>
      obtain ⟨info, counting, ms, hms, rfl⟩ := h.added hnone hd'
      obtain ⟨ms', hms', hd''⟩ := h'.kept hd'
      refine ⟨info, counting, ms ++ ms', List.forall_mem_append.mpr ⟨hms, hms'⟩, ?_⟩
      rw [Device.after_append]
      exact Option.some.inj (hsome.symm.trans hd'')

/-- The device at a place makes moves of the table. -/
theorem tends_modify {ds : List (Device σ)} {place : Nat} {f : Device σ → Device σ}
    (hf : ∀ d, ds[place]? = some d → ∃ ms, (∀ m ∈ ms, ofTable m = true) ∧ f d = d.after ms) :
    Tends ds (ds.modify place f) where
  kept {other d} hd := by
    by_cases h : place = other
    · obtain ⟨ms, hms, hfd⟩ := hf d (h ▸ hd)
      exact ⟨ms, hms, by simp [h, hd, hfd]⟩
    · exact ⟨[], by simp, by simp [h, hd]⟩
  added {other d} hnone hsome := by simp [List.getElem?_modify, hnone] at hsome

/-- A device that is created. -/
theorem tends_append (ds : List (Device σ)) (info : LineInfo) (counting : Bool)
    (ms : List (Move σ)) (hms : ∀ m ∈ ms, ofTable m = true) :
    Tends ds (ds ++ [(Device.create info counting).after ms]) where
  kept {place d} hd := by
    obtain ⟨hlt, -⟩ := List.getElem?_eq_some_iff.mp hd
    exact ⟨[], by simp, by rw [List.getElem?_append_left hlt]; exact hd⟩
  added {place d} hnone hsome := by
    rw [List.getElem?_append_right (List.getElem?_eq_none_iff.mp hnone)] at hsome
    have hmem := List.mem_of_getElem? hsome
    exact ⟨info, counting, ms, hms, List.mem_singleton.mp hmem⟩

theorem tends_add [Host η] (s : System η σ) (line : UInt8) :
    Tends s.devices (s.add line).2.devices := by
  simp only [add]
  split
  · exact .refl _
  · next info _ =>
    split
    · split
      · exact .refl _
      · exact tends_append s.devices info s.table.counting [.list true] (by simp [ofTable])
    · exact .refl _

theorem tends_stopWorker (s : System η σ) (device : Nat) :
    Tends s.devices (s.stopWorker device).2.devices := by
  simp only [stopWorker]
  split
  · next d hd =>
    split
    · refine tends_modify fun e he => ⟨[.operate .disableIrq], by simp [ofTable], ?_⟩
      rw [hd] at he
      cases he
      rfl
    · exact .refl _
  · exact .refl _

theorem tends_cutOff (s : System η σ) (device : Nat) :
    Tends s.devices (s.cutOff device).devices :=
  tends_modify fun _ _ => ⟨[.list false], by simp [ofTable], rfl⟩

theorem tends_readd [Host η] (s : System η σ) (requested : Option UInt8) :
    Tends s.devices (s.readd requested).2.devices := by
  cases requested with
  | none => exact .refl _
  | some line => exact s.tends_add line

theorem tends_releaseDevice (s : System η σ) (device : Nat) :
    Tends s.devices (s.releaseDevice device).devices :=
  tends_modify fun _ _ => ⟨[.release], by simp [ofTable], rfl⟩

/-- A removal leaves devices to the table. -/
theorem tends_removeWith [Host η] (reentrant : Bool) (s : System η σ) (line : UInt8) :
    Tends s.devices (s.removeWith reentrant line).system.devices := by
  simp only [removeWith]
  split
  · exact .refl _
  · split
    · next device _ =>
      refine Tends.trans ?_ (tends_releaseDevice _ device)
      refine Tends.trans ?_ (tends_readd _ _)
      exact ((s.claim line).tends_stopWorker device).trans (tends_cutOff _ device)
    · exact .refl _
    · exact .refl _

/-- So does the end of the table. -/
theorem tends_removeAll [Host η] (s : System η σ) : Tends s.devices s.removeAll.devices := by
  simp only [removeAll]
  generalize s.table.lines = lines
  induction lines generalizing s with
  | nil => exact .refl _
  | cons line lines ih => exact (s.tends_removeWith false line).trans (ih _)

/-- A move of the table calls nobody, tells nobody and leaves a worker at rest. -/
theorem quiet_ofTable {d : Device σ} {m : Move σ} (h : ofTable m = true) :
    m.flushes d = [] ∧ m.notices d = [] ∧ (d.isArmed = false → (m.run d).isArmed = false) := by
  cases m with
  | operate op =>
    cases op with
    | disableIrq =>
      refine ⟨rfl, rfl, fun hrest => ?_⟩
      have hrun : (Move.operate .disableIrq).run d = d.disableIrq.2 := rfl
      rw [hrun]
      rcases d.disableIrq_cases with ⟨-, hd⟩ | ⟨-, hd⟩
      · rw [hd]
        exact hrest
      · rw [hd]
        rfl
    | _ => cases h
  | list registered => exact ⟨rfl, rfl, fun hrest => hrest⟩
  | release => exact ⟨rfl, rfl, fun hrest => hrest⟩
  | _ => cases h

theorem leads_ofTable {d : Device σ} {ms : List (Move σ)} (h : ∀ m ∈ ms, ofTable m = true) :
    d.Leads (d.after ms) [] [] ∧ (d.isArmed = false → (d.after ms).isArmed = false) := by
  induction ms generalizing d with
  | nil => exact ⟨.refl d, fun hrest => hrest⟩
  | cons m ms ih =>
    obtain ⟨hflushes, hnotices, hrest⟩ := quiet_ofTable (d := d) (h m (by simp))
    obtain ⟨hleads, hrests⟩ := ih (d := m.run d) fun n hn => h n (by simp [hn])
    have hfirst := d.leads_run m
    rw [hflushes, hnotices] at hfirst
    exact ⟨hfirst.trans hleads, fun hd => hrests (hrest hd)⟩

end System

namespace Session

/-! ### Steps -/

/-- The session after a sequence of steps. -/
def after (s : Session) (steps : List Step) : Session :=
  steps.foldl (fun s st => (s.step st).2) s

/-- An operation on the device at a place, if there is one. -/
def aimAt (s : Session) (op : Operation ScriptedSink) (place : Nat) :
    Option (Nat × Operation ScriptedSink) :=
  if place < s.system.devices.length then some (place, op) else none

/-- An operation on the device that the host listed first under a line. -/
def aimListed (s : Session) (line : UInt8) (op : Operation ScriptedSink) :
    Option (Nat × Operation ScriptedSink) :=
  (s.system.host.find? line).bind (s.aimAt op)

/-- The place of the device that a step operates on, and the operation: through the line of a live
device, through the host, or through a handle. -/
def aim (s : Session) : Step → Option (Nat × Operation ScriptedSink)
  | .table (.onLine line op) =>
    if s.tableGone then none else (s.system.table.get line).toOption.bind (s.aimAt op)
  | .host (.input line offset) => s.aimListed line (.access (.input offset))
  | .host (.output line offset value) => s.aimListed line (.access (.output offset value))
  | .onHandle handle op => if handle ∈ s.letGo then none else s.aimAt op handle
  | _ => none

theorem aimAt_eq_some_iff {s : Session} {op op' : Operation ScriptedSink} {place place' : Nat} :
    s.aimAt op place = some (place', op') ↔
      place < s.system.devices.length ∧ place = place' ∧ op = op' := by
  simp [aimAt]

theorem aimAt_eq_none_iff {s : Session} {op : Operation ScriptedSink} {place : Nat} :
    s.aimAt op place = none ↔ s.system.devices[place]? = none := by
  simp [aimAt]

/-- An operation on the device at a place is a step of that device. -/
theorem operate_of_lt {s : Session} {place : Nat} (h : place < s.system.devices.length)
    (op : Operation ScriptedSink) :
    ∃ d, s.system.devices[place]? = some d ∧
      (s.operate place op).2.system.devices =
        s.system.devices.modify place (fun _ => (d.step op).device) ∧
      (s.operate place op).1.result = .reply (d.step op).reply ∧
      (s.operate place op).1.flushes = (d.step op).flushes ∧
      (s.operate place op).1.deliveries = (d.step op).deliveries := by
  have hd : s.system.devices[place]? = some s.system.devices[place] := List.getElem?_eq_getElem h
  refine ⟨_, hd, ?_⟩
  simp only [operate, hd]
  exact ⟨rfl, trivial, trivial, trivial⟩

/-- An operation on no device changes nothing and calls nobody. -/
theorem operate_of_none {s : Session} {place : Nat} (h : s.system.devices[place]? = none)
    (op : Operation ScriptedSink) :
    (s.operate place op).2 = s ∧ (s.operate place op).1.flushes = [] ∧
      (s.operate place op).1.deliveries = [] := by
  simp only [operate, h]
  exact ⟨trivial, trivial, trivial⟩

theorem operateListed_of_some {s : Session} {line : UInt8} {device : Nat}
    (h : s.system.host.find? line = some device) (op : Operation ScriptedSink) :
    (s.operateListed line op).2 = (s.operate device op).2 ∧
      (s.operateListed line op).1.result = (s.operate device op).1.result ∧
      (s.operateListed line op).1.flushes = (s.operate device op).1.flushes ∧
      (s.operateListed line op).1.deliveries = (s.operate device op).1.deliveries := by
  simp only [operateListed, h]
  exact ⟨trivial, trivial, trivial, trivial⟩

/-- An operation through the host that finds a device is a step of that device. -/
theorem operateListed_aimed {s : Session} {line : UInt8} {op : Operation ScriptedSink}
    {place : Nat} (op' : Operation ScriptedSink) (h : s.aimListed line op' = some (place, op)) :
    ∃ d, s.system.devices[place]? = some d ∧
      (s.operateListed line op').2.system.devices =
        s.system.devices.modify place (fun _ => (d.step op).device) ∧
      (s.operateListed line op').1.result = .reply (d.step op).reply ∧
      (s.operateListed line op').1.flushes = (d.step op).flushes ∧
      (s.operateListed line op').1.deliveries = (d.step op).deliveries := by
  obtain ⟨device, hfind, haim⟩ := Option.bind_eq_some_iff.mp h
  obtain ⟨hlt, rfl, rfl⟩ := aimAt_eq_some_iff.mp haim
  obtain ⟨hsession, hresult, hflushes, hdeliveries⟩ := operateListed_of_some hfind op'
  rw [hsession, hresult, hflushes, hdeliveries]
  exact operate_of_lt hlt op'

/-- One that finds none changes nothing and calls nobody. -/
theorem operateListed_unaimed {s : Session} {line : UInt8} (op : Operation ScriptedSink)
    (h : s.aimListed line op = none) :
    (s.operateListed line op).2 = s ∧ (s.operateListed line op).1.flushes = [] ∧
      (s.operateListed line op).1.deliveries = [] := by
  cases hfind : s.system.host.find? line with
  | none =>
    simp only [operateListed, hfind]
    exact ⟨trivial, trivial, trivial⟩
  | some device =>
    obtain ⟨hsession, -, hflushes, hdeliveries⟩ := operateListed_of_some hfind op
    simp only [aimListed, hfind, Option.bind_some] at h
    rw [hsession, hflushes, hdeliveries]
    exact operate_of_none (aimAt_eq_none_iff.mp h) op

/-- **A step that is aimed at a device** is a step of that device, and of no other. -/
theorem step_aimed {s : Session} {st : Step} {place : Nat} {op : Operation ScriptedSink}
    (h : s.aim st = some (place, op)) :
    ∃ d, s.system.devices[place]? = some d ∧
      (s.step st).2.system.devices =
        s.system.devices.modify place (fun _ => (d.step op).device) ∧
      (s.step st).1.result = .reply (d.step op).reply ∧
      (s.step st).1.flushes = (d.step op).flushes ∧
      (s.step st).1.deliveries = (d.step op).deliveries := by
  cases st with
  | table t =>
    cases t with
    | onLine line op' =>
      simp only [aim] at h
      split at h
      · cases h
      · next hgone =>
        cases hget : s.system.table.get line with
        | error e =>
          rw [hget] at h
          cases h
        | ok device =>
          rw [hget] at h
          obtain ⟨hlt, rfl, rfl⟩ := aimAt_eq_some_iff.mp h
          have hstep : s.step (.table (.onLine line op')) = s.operate device op' := by
            simp only [step, hgone, stepTable, hget, Bool.false_eq_true, if_false]
          rw [hstep]
          exact operate_of_lt hlt op'
    | _ => cases h
  | host t =>
    cases t with
    | input line offset => exact operateListed_aimed (.access (.input offset)) h
    | output line offset value =>
      exact operateListed_aimed (.access (.output offset value)) h
    | _ => cases h
  | onHandle handle op' =>
    simp only [aim] at h
    split at h
    · cases h
    · next hheld =>
      obtain ⟨hlt, rfl, rfl⟩ := aimAt_eq_some_iff.mp h
      simp only [step, hheld, if_false]
      exact operate_of_lt hlt op'
  | create info counting => cases h
  | letGo handle => cases h

/-- Whatever goes through the table once the table is gone. -/
theorem step_table_of_gone {s : Session} (h : s.tableGone = true) (t : TableStep) :
    s.step (.table t) = ({ result := .noTable }, s) := by
  simp only [step, h, if_true]

theorem step_table_of_present {s : Session} (h : s.tableGone = false) (t : TableStep) :
    s.step (.table t) = s.stepTable t := by
  simp only [step, h, Bool.false_eq_true, if_false]

/-- **Any other step** calls nobody. It leaves every device as it was, unless a device is created or
there is a table and lines come or go. -/
theorem step_unaimed_cases {s : Session} {st : Step} (h : s.aim st = none) :
    ((s.step st).1.flushes = [] ∧ (s.step st).1.deliveries = []) ∧
      ((s.step st).2.system.devices = s.system.devices ∨
        (∃ info counting, st = .create info counting) ∨
        s.tableGone = false ∧
          ((∃ line, st = .table (.add line)) ∨ (∃ line, st = .table (.remove line)) ∨
            st = .table .drop)) := by
  cases st with
  | table t =>
    by_cases hgone : s.tableGone = true
    · rw [step_table_of_gone hgone]
      exact ⟨⟨rfl, rfl⟩, Or.inl rfl⟩
    · have hpresent : s.tableGone = false := by simpa using hgone
      rw [step_table_of_present hpresent]
      cases t with
      | add line => exact ⟨⟨rfl, rfl⟩, Or.inr (Or.inr ⟨hpresent, Or.inl ⟨line, rfl⟩⟩)⟩
      | remove line =>
        exact ⟨⟨rfl, rfl⟩, Or.inr (Or.inr ⟨hpresent, Or.inr (Or.inl ⟨line, rfl⟩)⟩)⟩
      | drop => exact ⟨⟨rfl, rfl⟩, Or.inr (Or.inr ⟨hpresent, Or.inr (Or.inr rfl)⟩)⟩
      | onLine line op =>
        cases hget : s.system.table.get line with
        | error e =>
          simp only [stepTable, hget]
          exact ⟨⟨trivial, trivial⟩, Or.inl trivial⟩
        | ok device =>
          simp only [aim, hgone, hget] at h
          obtain ⟨hsame, hquiet⟩ := operate_of_none (aimAt_eq_none_iff.mp h) op
          simp only [stepTable, hget, hsame]
          exact ⟨hquiet, Or.inl trivial⟩
      | lines => exact ⟨⟨rfl, rfl⟩, Or.inl rfl⟩
      | isAllocated => exact ⟨⟨rfl, rfl⟩, Or.inl rfl⟩
  | host t =>
    cases t with
    | input line offset =>
      obtain ⟨hsame, hquiet⟩ := operateListed_unaimed (.access (.input offset)) h
      exact ⟨hquiet, Or.inl (congrArg (·.system.devices) hsame)⟩
    | output line offset value =>
      obtain ⟨hsame, hquiet⟩ := operateListed_unaimed (.access (.output offset value)) h
      exact ⟨hquiet, Or.inl (congrArg (·.system.devices) hsame)⟩
    | _ => exact ⟨⟨rfl, rfl⟩, Or.inl rfl⟩
  | onHandle handle op =>
    by_cases hheld : handle ∈ s.letGo
    · simp only [step, hheld, if_true]
      exact ⟨⟨trivial, trivial⟩, Or.inl trivial⟩
    · simp only [aim, hheld, if_false] at h
      obtain ⟨hsame, hquiet⟩ := operate_of_none (aimAt_eq_none_iff.mp h) op
      simp only [step, hheld, if_false, hsame]
      exact ⟨hquiet, Or.inl trivial⟩
  | create info counting => exact ⟨⟨rfl, rfl⟩, Or.inr (Or.inl ⟨info, counting, rfl⟩)⟩
  | letGo handle =>
    simp only [step]
    split <;> exact ⟨⟨rfl, rfl⟩, Or.inl rfl⟩

/-- So such a step leaves the devices to the table. -/
theorem step_unaimed {s : Session} {st : Step} (h : s.aim st = none) :
    System.Tends s.system.devices (s.step st).2.system.devices ∧
      (s.step st).1.flushes = [] ∧ (s.step st).1.deliveries = [] := by
  obtain ⟨hquiet, hcases⟩ := step_unaimed_cases h
  refine ⟨?_, hquiet⟩
  rcases hcases with
    hsame | ⟨info, counting, rfl⟩ | ⟨hpresent, ⟨line, rfl⟩ | ⟨line, rfl⟩ | rfl⟩
  · rw [hsame]
    exact .refl _
  · exact System.tends_append s.system.devices info counting [] (by simp)
  all_goals rw [step_table_of_present hpresent]
  · exact s.system.tends_add line
  · exact s.system.tends_removeWith true line
  · exact s.system.tends_removeAll

/-! ### Runs -/

/-- What the device at a place is told of its interrupts in a step, as the answer has it. -/
def told (s : Session) (place : Nat) (st : Step) : List Notice :=
  match s.aim st, (s.step st).1.result with
  | some (aimed, op), .reply r =>
    if aimed = place then
      op.notices r ++ (s.step st).1.deliveries.map Delivery.notice
    else
      []
  | _, _ => []

/-- What the device at a place is told of its interrupts in the course of a sequence of steps. -/
def notices (s : Session) (place : Nat) : List Step → List Notice
  | [] => []
  | st :: steps => s.told place st ++ (s.step st).2.notices place steps

/-- The device at a place has come from its creation by a list of moves, has been told this on the
way, and its worker is at rest. A device that is not there has been told nothing. -/
structure Comes (s : Session) (place : Nat) (ns : List Notice) : Prop where
  leads {d : Device ScriptedSink} : s.system.devices[place]? = some d →
    ∃ info counting flushes, (Device.create info counting).Leads d flushes ns
  rests {d : Device ScriptedSink} : s.system.devices[place]? = some d → d.isArmed = false
  absent : s.system.devices[place]? = none → ns = []

theorem comes_empty (counting : Bool) (place : Nat) : (empty counting).Comes place [] where
  leads h := by simp [empty, System.empty] at h
  rests h := by simp [empty, System.empty] at h
  absent _ := rfl

/-- The account of a device that is there. -/
theorem Comes.of_device {s : Session} {place : Nat} {ns : List Notice} {d : Device ScriptedSink}
    (hd : s.system.devices[place]? = some d)
    (hleads : ∃ info counting flushes, (Device.create info counting).Leads d flushes ns)
    (hrest : d.isArmed = false) : s.Comes place ns := by
  refine ⟨fun {e} he => ?_, fun {e} he => ?_, fun hnone => ?_⟩
  · rw [hd] at he
    cases he
    exact hleads
  · rw [hd] at he
    cases he
    exact hrest
  · rw [hd] at hnone
    cases hnone

/-- What the table does keeps the account of every device. -/
theorem Comes.tends {s s' : Session} {place : Nat} {ns : List Notice} (h : s.Comes place ns)
    (htends : System.Tends s.system.devices s'.system.devices) : s'.Comes place ns := by
  cases hd : s.system.devices[place]? with
  | some d =>
    -- The device goes on by moves of the table, which say nothing.
    obtain ⟨ms, hms, hd'⟩ := htends.kept hd
    obtain ⟨hleads, hrests⟩ := System.leads_ofTable (d := d) hms
    obtain ⟨info, counting, flushes, hborn⟩ := h.leads hd
    refine .of_device hd' ⟨info, counting, flushes ++ [], ?_⟩ (hrests (h.rests hd))
    rw [← List.append_nil ns]
    exact hborn.trans hleads
  | none =>
    -- Nobody has been told anything, and so it is as the device is created.
    rw [h.absent hd]
    refine ⟨fun {e} he => ?_, fun {e} he => ?_, fun _ => rfl⟩
    · obtain ⟨info, counting, ms, hms, rfl⟩ := htends.added hd he
      exact ⟨info, counting, [], (System.leads_ofTable hms).1⟩
    · obtain ⟨info, counting, ms, hms, rfl⟩ := htends.added hd he
      exact (System.leads_ofTable hms).2 rfl

/-- Every step keeps the account of every device. -/
theorem Comes.step {s : Session} {place : Nat} {ns : List Notice} (h : s.Comes place ns)
    (st : Step) : (s.step st).2.Comes place (ns ++ s.told place st) := by
  cases haim : s.aim st with
  | none =>
    obtain ⟨htends, -, -⟩ := step_unaimed haim
    have htold : s.told place st = [] := by simp only [told, haim]
    rw [htold, List.append_nil]
    exact h.tends htends
  | some x =>
    obtain ⟨aimed, op⟩ := x
    obtain ⟨d, hd, hdevices, hresult, -, hdeliveries⟩ := step_aimed haim
    by_cases hplace : aimed = place
    · subst hplace
      have htold : s.told aimed st =
          op.notices (d.step op).reply ++ (d.step op).deliveries.map Delivery.notice := by
        simp only [told, haim, hresult, hdeliveries, if_true]
      have hnew : (s.step st).2.system.devices[aimed]? = some (d.step op).device := by
        simp [hdevices, hd]
      obtain ⟨info, counting, flushes, hleads⟩ := h.leads hd
      rw [htold]
      exact .of_device hnew ⟨info, counting, _, hleads.trans (d.leads_step op)⟩ (d.isArmed_step op)
    -- The step is aimed at another device, so this one stays as it was.
    · have htold : s.told place st = [] := by simp only [told, haim, hresult, hplace, if_false]
      have hsame : (s.step st).2.system.devices[place]? = s.system.devices[place]? := by
        simp [hdevices, hplace]
      rw [htold, List.append_nil]
      refine ⟨?_, ?_, ?_⟩ <;> rw [hsame]
      · exact h.leads
      · exact h.rests
      · exact h.absent

theorem Comes.after {s : Session} {place : Nat} {ns : List Notice} (h : s.Comes place ns)
    (steps : List Step) : (s.after steps).Comes place (ns ++ s.notices place steps) := by
  induction steps generalizing s ns with
  | nil =>
    rw [notices, List.append_nil]
    exact h
  | cons st steps ih =>
    rw [notices, ← List.append_assoc]
    exact ih (h.step st)

/-- **Every device of a session has come from its creation by moves.** On the way it was told what
the answers of the session tell, and its worker is at rest. -/
theorem comes_after_empty (counting : Bool) (place : Nat) (steps : List Step) :
    ((empty counting).after steps).Comes place ((empty counting).notices place steps) :=
  (comes_empty counting place).after steps

end Session

end Uart16550
