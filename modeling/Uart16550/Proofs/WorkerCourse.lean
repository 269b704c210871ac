import Uart16550.Proofs.Removal
import Uart16550.Proofs.Tally
import Uart16550.Proofs.Trail

/-!
# The course of a worker

What happens to the worker of one device is a list of turns: it is started, it calls the attached
sink, the sink crashes and takes the worker with it, it is asked to end, its line is removed.
`Course` is the small machine that says in which order turns may come; what never happens before
something else is read off it, without a device in sight (`Course.silent_after`,
`Course.disabled_mem`, `Course.dead_iff`).

`Session.turns` is what happens to the worker of a device in the course of a session, told by the
operations, by their replies and by the scripts that the sink runs, never by the state of the worker
afterwards. `Session.follows_after_empty` says that these turns are a course, and that it leads from
no worker to the one that the device holds.
-/

namespace Uart16550

/-! ### Courses -/

/-- What happens to the worker of a device. -/
inductive Turn where
  | started
  /-- It called the attached sink on behalf of this line, with this identification. -/
  | delivered (line iir : UInt8)
  /-- The sink crashed as it was called. -/
  | crashed
  /-- It was asked to end, whether or not there was one. -/
  | disabled
  /-- The line of the device was removed, or the table with all its lines. -/
  | removed
  deriving DecidableEq, Repr

/-- The notice that the sink has of a turn. -/
def Turn.notice? : Turn → Option Notice
  | .started => some .enabled
  | .delivered line iir => some (.delivered line iir)
  | .crashed | .disabled | .removed => none

/-- Whether a turn leaves nobody to call the sink. -/
def Turn.isEnd : Turn → Bool
  | .crashed | .disabled | .removed => true
  | .started | .delivered _ _ => false

/-- A sink crashed, and no worker was started since. -/
def CrashedSince (ts : List Turn) : Prop :=
  ∃ before since, ts = before ++ .crashed :: since ∧ .started ∉ since

theorem CrashedSince.cons {ts : List Turn} (h : CrashedSince ts) (t : Turn) :
    CrashedSince (t :: ts) := by
  obtain ⟨before, since, rfl, hsince⟩ := h
  exact ⟨t :: before, since, rfl, hsince⟩

/-- These turns lead from one state of the worker to another. The flags tell whether the device is
initialized, before and after. -/
inductive Course : Worker → Bool → List Turn → Worker → Bool → Prop where
  | rest (w : Worker) (up : Bool) : Course w up [] w up
  | started {ts : List Turn} {w : Worker} {up : Bool} :
    Course .alive true ts w up → Course .absent true (.started :: ts) w up
  | delivered {up up' : Bool} {ts : List Turn} {w : Worker} (line iir : UInt8) :
    Course .alive up ts w up' → Course .alive up (.delivered line iir :: ts) w up'
  | crashed {up up' : Bool} {ts : List Turn} {w : Worker} :
    Course .dead up ts w up' → Course .alive up (.crashed :: ts) w up'
  | disabled {up up' : Bool} {ts : List Turn} {w w' : Worker} :
    Course .absent up ts w' up' → Course w up (.disabled :: ts) w' up'
  | removed {up up' : Bool} {ts : List Turn} {w w' : Worker} :
    Course .absent false ts w' up' → Course w up (.removed :: ts) w' up'

namespace Course

variable {w w' w'' : Worker} {up up' up'' : Bool} {ts us : List Turn}

theorem trans (h : Course w up ts w' up') (h' : Course w' up' us w'' up'') :
    Course w up (ts ++ us) w'' up'' := by
  induction h with
  | rest w up => exact h'
  | started _ ih => exact .started (ih h')
  | delivered line iir _ ih => exact .delivered line iir (ih h')
  | crashed _ ih => exact .crashed (ih h')
  | disabled _ ih => exact .disabled (ih h')
  | removed _ ih => exact .removed (ih h')

/-- A course can be interrupted anywhere. -/
theorem of_append (h : Course w up (ts ++ us) w'' up'') :
    ∃ w' up', Course w up ts w' up' ∧ Course w' up' us w'' up'' := by
  induction ts generalizing w up with
  | nil => exact ⟨w, up, .rest w up, h⟩
  | cons t ts ih =>
    cases h with
    | started h =>
      obtain ⟨w', up', hts, hus⟩ := ih h
      exact ⟨w', up', .started hts, hus⟩
    | delivered line iir h =>
      obtain ⟨w', up', hts, hus⟩ := ih h
      exact ⟨w', up', .delivered line iir hts, hus⟩
    | crashed h =>
      obtain ⟨w', up', hts, hus⟩ := ih h
      exact ⟨w', up', .crashed hts, hus⟩
    | disabled h =>
      obtain ⟨w', up', hts, hus⟩ := ih h
      exact ⟨w', up', .disabled hts, hus⟩
    | removed h =>
      obtain ⟨w', up', hts, hus⟩ := ih h
      exact ⟨w', up', .removed hts, hus⟩

/-- After its end there is no worker that could call anybody. -/
theorem ne_alive_of_isEnd {t : Turn} (ht : t.isEnd = true) (h : Course w up (t :: ts) w' up') :
    ∃ v vp, v ≠ .alive ∧ Course v vp ts w' up' := by
  cases h with
  | started h => cases ht
  | delivered line iir h => cases ht
  | crashed h => exact ⟨.dead, up, by simp, h⟩
  | disabled h => exact ⟨.absent, up, by simp, h⟩
  | removed h => exact ⟨.absent, false, by simp, h⟩

/-- Only a start makes a worker live. -/
theorem ne_alive (h : Course w up ts w' up') (hw : w ≠ .alive) (hts : .started ∉ ts) :
    w' ≠ .alive := by
  induction h with
  | rest w up => exact hw
  | started _ _ => exact absurd List.mem_cons_self hts
  | delivered line iir _ _ => exact absurd rfl hw
  | crashed _ _ => exact absurd rfl hw
  | disabled _ ih => exact ih (by simp) fun hmem => hts (List.mem_cons_of_mem _ hmem)
  | removed _ ih => exact ih (by simp) fun hmem => hts (List.mem_cons_of_mem _ hmem)

/-- **After its end a worker calls nobody** until it has been started again. -/
theorem silent_after {before between rest : List Turn} {t : Turn} {line iir : UInt8}
    (h : Course w up (before ++ t :: between ++ .delivered line iir :: rest) w' up')
    (ht : t.isEnd = true) : .started ∈ between := by
  by_contra hnone
  rw [List.append_assoc] at h
  obtain ⟨v, vp, -, hend⟩ := h.of_append
  obtain ⟨u, upu, hu, hbetween⟩ := ne_alive_of_isEnd ht hend
  obtain ⟨x, xp, hquiet, hdelivered⟩ := hbetween.of_append
  -- Without a start nobody is alive to call the sink.
  have hx : x ≠ .alive := hquiet.ne_alive hu hnone
  cases hdelivered with
  | delivered _ _ _ => exact hx rfl

/-- Only a request to end takes the worker from an initialized device. -/
theorem held_or_down (h : Course w up ts w' up') (hw : w ≠ .absent ∨ up = false)
    (hts : .disabled ∉ ts) : w' ≠ .absent ∨ up' = false := by
  induction h with
  | rest w up => exact hw
  | started _ ih => exact ih (Or.inl (by simp)) fun hmem => hts (List.mem_cons_of_mem _ hmem)
  | delivered line iir _ ih =>
    exact ih (Or.inl (by simp)) fun hmem => hts (List.mem_cons_of_mem _ hmem)
  | crashed _ ih => exact ih (Or.inl (by simp)) fun hmem => hts (List.mem_cons_of_mem _ hmem)
  | disabled _ _ => exact absurd List.mem_cons_self hts
  | removed _ ih => exact ih (Or.inr rfl) fun hmem => hts (List.mem_cons_of_mem _ hmem)

/-- **After a crash a worker is started** only once the dead one was asked to end. -/
theorem disabled_mem {before between rest : List Turn}
    (h : Course w up (before ++ .crashed :: between ++ .started :: rest) w' up') :
    .disabled ∈ between := by
  by_contra hnone
  rw [List.append_assoc] at h
  obtain ⟨v, vp, -, hcrashed⟩ := h.of_append
  cases hcrashed with
  | crashed hdead =>
    obtain ⟨x, xp, hbetween, hstarted⟩ := hdead.of_append
    have hx : x ≠ .absent ∨ xp = false := hbetween.held_or_down (Or.inl (by simp)) hnone
    cases hstarted with
    | started _ => simp at hx

/-- A worker is dead from the start, or since the last crash. -/
theorem crashedSince (h : Course w up ts w' up') (hw' : w' = .dead) :
    (w = .dead ∧ .started ∉ ts) ∨ CrashedSince ts := by
  induction h with
  | rest w up => exact Or.inl ⟨hw', by simp⟩
  | started _ ih => exact Or.inr (((ih hw').resolve_left (by simp)).cons _)
  | delivered line iir _ ih => exact Or.inr (((ih hw').resolve_left (by simp)).cons _)
  | @crashed _ _ ts _ _ ih =>
    rcases ih hw' with ⟨-, hts⟩ | hcrashed
    · exact Or.inr ⟨[], ts, rfl, hts⟩
    · exact Or.inr (hcrashed.cons _)
  | disabled _ ih => exact Or.inr (((ih hw').resolve_left (by simp)).cons _)
  | removed _ ih => exact Or.inr (((ih hw').resolve_left (by simp)).cons _)

/-- After its end, and without a start since, no worker is alive. -/
theorem ne_alive_since {before since : List Turn} {t : Turn}
    (h : Course w up (before ++ t :: since) w' up') (ht : t.isEnd = true)
    (hsince : .started ∉ since) : w' ≠ .alive := by
  obtain ⟨v, vp, -, hend⟩ := h.of_append
  obtain ⟨u, upu, hu, hrest⟩ := ne_alive_of_isEnd ht hend
  exact hrest.ne_alive hu hsince

/-- **A worker that is held is dead** exactly if a sink has crashed since it was started. -/
theorem dead_iff (h : Course .absent up ts w' up') (hheld : w' ≠ .absent) :
    w' = .dead ↔ CrashedSince ts := by
  constructor
  · exact fun hdead => (h.crashedSince hdead).resolve_left (by simp)
  · rintro ⟨before, since, rfl, hsince⟩
    have hne : w' ≠ .alive := h.ne_alive_since rfl hsince
    cases w' with
    | absent => exact absurd rfl hheld
    | alive => exact absurd rfl hne
    | dead => rfl

end Course

/-! ### The turns of a step -/

/-- What an operation has done to a worker, given its reply. -/
def Operation.turns {σ : Type} (op : Operation σ) (reply : Reply) : List Turn :=
  match op, reply with
  | .enableIrq, .done => [.started]
  | .disableIrq, _ => [.disabled]
  | _, _ => []

namespace Device

/-- What happens to a worker in a look: if the sink is called and the script that it runs crashes,
then the worker is gone with it. -/
def lookTurns (d : Device ScriptedSink) : List Turn :=
  match d.capture.1 with
  | .deliver iir sink =>
    .delivered d.line iir :: if .crash ∈ sink.headD [] then [.crashed] else []
  | .stopped | .spurious | .unattended => []

/-- What happens to a worker in the course of at most `looks` looks. -/
def turnsWithin (d : Device ScriptedSink) : (looks : Nat) → List Turn
  | 0 => []
  | looks + 1 => if d.isArmed then d.lookTurns ++ d.wake.device.turnsWithin looks else []

/-- What happens to a worker in a step. -/
def turns (d : Device ScriptedSink) (op : Operation ScriptedSink) : List Turn :=
  op.turns (op.run d).reply ++
    (op.run d).device.turnsWithin ((op.run d).device.scriptsLeft + 1)

/-- The accesses of a script leave the worker to itself; a crash at its end does not. -/
theorem life_script {σ : Type} (d : Device σ) (script : Script) :
    (handled (script.run d)).worker = (if .crash ∈ script then .dead else d.worker) ∧
      (handled (script.run d)).initialized = d.initialized := by
  induction script generalizing d with
  | nil => exact ⟨rfl, rfl⟩
  | cons instruction rest ih =>
    cases instruction with
    | access a =>
      have hrest : handled (Script.run d (.access a :: rest)) =
          handled (Script.run (a.run d).device rest) := rfl
      obtain ⟨hworker, hup⟩ := ih (a.run d).device
      rw [hrest, hworker, hup, worker_access, initialized_access]
      simp
    | crash => exact ⟨by simp [Script.run, handled], rfl⟩

/-- A look of an armed worker is part of its course. -/
theorem course_wake {d : Device ScriptedSink} (h : d.isArmed = true) :
    Course .alive d.initialized d.lookTurns d.wake.device.worker d.wake.device.initialized := by
  obtain ⟨hw, -, hstop⟩ := isArmed_iff.mp h
  rcases capture_cases hstop with ⟨sink, -, hs, hc⟩ | ⟨-, hc⟩ | ⟨-, hc⟩
  · have hturns : d.lookTurns = .delivered d.line d.regs.iir ::
        if .crash ∈ sink.headD [] then [.crashed] else [] := by simp only [lookTurns, hc]
    obtain ⟨hworker, hup⟩ :=
      life_script { d.disarm with sink := some sink.tail } (sink.headD [])
    have hworker' : (d.disarm.serve d.regs.iir sink).device.worker =
        if .crash ∈ sink.headD [] then .dead else .alive := hw ▸ hworker
    have hup' : (d.disarm.serve d.regs.iir sink).device.initialized = d.initialized := hup
    rw [wake_of_deliver hc, hturns, hworker', hup']
    refine .delivered _ _ ?_
    split
    · exact .crashed (.rest _ _)
    · exact .rest _ _
  all_goals
    simp only [wake, lookTurns, hc]
    rw [← hw]
    exact .rest _ _

theorem course_settleWithin (d : Device ScriptedSink) (looks : Nat) :
    Course d.worker d.initialized (d.turnsWithin looks) (d.settleWithin looks).device.worker
      (d.settleWithin looks).device.initialized := by
  induction looks generalizing d with
  | zero => exact .rest _ _
  | succ looks ih =>
    rw [turnsWithin, settleWithin]
    split
    · next h =>
      obtain ⟨hw, -⟩ := isArmed_iff.mp h
      rw [hw]
      exact (course_wake h).trans (ih d.wake.device)
    · exact .rest _ _

theorem course_operate {σ : Type} (d : Device σ) (op : Operation σ) :
    Course d.worker d.initialized (op.turns (op.run d).reply) (op.run d).device.worker
      (op.run d).device.initialized := by
  cases op with
  | access a =>
    have hrun : (Operation.access a).run d = a.run d := rfl
    rw [hrun, d.worker_access a, d.initialized_access a]
    exact .rest _ _
  | bind threshold label =>
    have hrun : ((Operation.bind threshold label).run d).device = (d.bind threshold label).2 := rfl
    rw [hrun]
    rcases d.bind_cases threshold label with h | ⟨c, h⟩ <;> rw [h] <;> exact .rest _ _
  | unbind =>
    have hrun : (Operation.unbind.run d).device = d.unbind.2 := rfl
    rw [hrun]
    rcases d.unbind_cases with h | h <;> rw [h] <;> exact .rest _ _
  | enableIrq =>
    have hrun : Operation.enableIrq.run d = .ofResult (fun _ => .done) d.enableIrq := rfl
    rw [hrun]
    rcases d.enableIrq_cases with ⟨e, h⟩ | ⟨hheld, hup, h⟩ <;> rw [h]
    · exact .rest _ _
    · have habsent : d.worker = .absent := by simpa [holdsWorker] using hheld
      rw [habsent, hup]
      refine .started ?_
      rw [← hup]
      exact .rest _ _
  | disableIrq =>
    refine .disabled ?_
    have hrun : (Operation.disableIrq.run d).device = d.disableIrq.2 := rfl
    rw [hrun]
    rcases d.disableIrq_cases with ⟨habsent, h⟩ | ⟨-, h⟩ <;> rw [h]
    · rw [← habsent]
      exact .rest _ _
    · exact .rest _ _
  | _ => exact .rest _ _

/-- **What happens to a worker in a step is a course** from the worker before to the one after. -/
theorem course_step (d : Device ScriptedSink) (op : Operation ScriptedSink) :
    Course d.worker d.initialized (d.turns op) (d.step op).device.worker
      (d.step op).device.initialized :=
  (d.course_operate op).trans (course_settleWithin _ _)

/-! ### The turns that the sink knows of -/

/-- What a sink is told in the looks of its worker is what is answered of them. -/
theorem notice?_turnsWithin (d : Device ScriptedSink) (looks : Nat) :
    (d.turnsWithin looks).filterMap Turn.notice? =
      (d.settleWithin looks).deliveries.map Delivery.notice := by
  induction looks generalizing d with
  | zero => rfl
  | succ looks ih =>
    rw [turnsWithin, settleWithin]
    split
    · next h =>
      obtain ⟨-, -, hstop⟩ := isArmed_iff.mp h
      have hfirst : d.lookTurns.filterMap Turn.notice? = d.wake.deliveries.map Delivery.notice := by
        rcases capture_cases hstop with ⟨sink, -, -, hc⟩ | ⟨-, hc⟩ | ⟨-, hc⟩
        · simp only [wake, lookTurns, hc]
          split <;> rfl
        all_goals simp only [wake, lookTurns, hc]; rfl
      simp only [List.filterMap_append, List.map_append, hfirst, ih]
    · rfl

/-- A step tells the sink of its turns, and else only that it was attached. -/
theorem notice?_turns (d : Device ScriptedSink) (op : Operation ScriptedSink) :
    (d.turns op).filterMap Turn.notice? =
      (op.notices (d.step op).reply ++ (d.step op).deliveries.map Delivery.notice).filter
        (· ≠ .attached) := by
  have hop : (op.turns (op.run d).reply).filterMap Turn.notice? =
      (op.notices (op.run d).reply).filter (· ≠ .attached) := by
    cases op with
    | enableIrq => cases (Operation.enableIrq.run d).reply <;> rfl
    | _ => rfl
  have hdelivered : ((d.step op).deliveries.map Delivery.notice).filter (· ≠ .attached) =
      (d.step op).deliveries.map Delivery.notice :=
    List.filter_eq_self.mpr fun n hn => by
      obtain ⟨x, -, rfl⟩ := List.mem_map.mp hn
      rfl
  rw [turns, List.filterMap_append, notice?_turnsWithin, hop, List.filter_append, hdelivered]
  rfl

/-! ### Deliveries that are counted -/

/-- Where no worker is alive and none is started, no delivery is counted. -/
theorem interrupts_step {d : Device ScriptedSink} {op : Operation ScriptedSink}
    (hw : d.worker ≠ .alive) (hop : .started ∉ d.turns op) :
    (d.step op).device.metrics.interrupts = d.metrics.interrupts ∨
      (d.step op).device.metrics.interrupts = 0 := by
  have hidle : (op.run d).device.isArmed = false := by
    by_contra harmed
    obtain ⟨halive, -⟩ := isArmed_iff.mp (by simpa using harmed)
    refine (d.course_operate op).ne_alive hw (fun hmem => hop ?_) halive
    exact List.mem_append_left _ hmem
  have hsettle : (d.step op).device = (op.run d).device := by
    simp only [step, settle, settleWithin_of_idle hidle]
  rw [hsettle]
  exact d.interrupts_operate op

end Device

namespace Session

/-! ### The turns of a session -/

/-- Whether a step takes the device at a place out of service: it removes the live line of the
device, or the table with all its lines. -/
def retires (s : Session) (place : Nat) : Step → Bool
  | .table (.remove line) => s.live? line == some place
  | .table .drop => s.system.table.lines.any fun line => s.live? line == some place
  | .table (.add _) | .table (.onLine _ _) | .table .lines | .table .isAllocated | .host _ |
    .create _ _ | .onHandle _ _ | .letGo _ => false

/-- What happens in a step to the worker of the device at a place. -/
def turns (s : Session) (place : Nat) (st : Step) : List Turn :=
  match s.system.devices[place]?, s.aim st with
  | some d, some (aimed, op) => if aimed = place then d.turns op else []
  | some _, none => if s.retires place st then [.removed] else []
  | none, _ => []

/-- What happens in the course of a sequence of steps to the worker of the device at a place. -/
def log (s : Session) (place : Nat) : List Step → List Turn
  | [] => []
  | st :: steps => s.turns place st ++ (s.step st).2.log place steps

theorem turns_unaimed {s : Session} {place : Nat} {st : Step} (h : s.aim st = none) :
    s.turns place st =
      if s.system.devices[place]?.isSome && s.retires place st then [.removed] else [] := by
  cases hd : s.system.devices[place]? <;> simp [turns, hd, h]

theorem turns_aimed {s : Session} {place : Nat} {st : Step} {op : Operation ScriptedSink}
    {d : Device ScriptedSink} (h : s.aim st = some (place, op))
    (hd : s.system.devices[place]? = some d) : s.turns place st = d.turns op := by
  simp [turns, hd, h]

theorem turns_other {s : Session} {place aimed : Nat} {st : Step} {op : Operation ScriptedSink}
    (h : s.aim st = some (aimed, op)) (hne : aimed ≠ place) : s.turns place st = [] := by
  cases hd : s.system.devices[place]? <;> simp [turns, hd, h, hne]

theorem retires_remove_iff {s : Session} (h : s.tableGone = false) {place : Nat} {line : UInt8} :
    s.retires place (.table (.remove line)) = true ↔ s.system.table.slot line = .live place := by
  simp [retires, live?, h, System.live?_eq_some_iff]

theorem retires_drop_iff {s : Session} (h : s.tableGone = false) {place : Nat} :
    s.retires place (.table .drop) = true ↔
      ∃ line ∈ s.system.table.lines, s.system.table.slot line = .live place := by
  simp [retires, live?, h, System.live?_eq_some_iff]

/-- Only a table that is there takes devices out of service. -/
theorem retires_cases {s : Session} {place : Nat} {st : Step} (h : s.retires place st = true) :
    s.tableGone = false ∧ ((∃ line, st = .table (.remove line)) ∨ st = .table .drop) := by
  unfold retires at h
  split at h
  · next line => exact ⟨by_contra fun hgone => by simp [live?, hgone] at h, Or.inl ⟨line, rfl⟩⟩
  · exact ⟨by_contra fun hgone => by simp [live?, hgone] at h, Or.inr rfl⟩
  all_goals cases h

variable {s : Session} {place : Nat} {d : Device ScriptedSink}

theorem getElem?_step_remove (hpresent : s.tableGone = false)
    (hd : s.system.devices[place]? = some d) (line : UInt8) :
    (s.step (.table (.remove line))).2.system.devices[place]? =
      some (if s.retires place (.table (.remove line)) then d.dismantle else d) := by
  have hstep : (s.step (.table (.remove line))).2.system =
      s.system.removeAmid line (s.system.requested true line).toList := by
    rw [step_table_of_present hpresent]
    exact s.system.system_removeWith true line
  have hiff : s.retires place (.table (.remove line)) = true ↔
      s.system.table.slot line = .live place := retires_remove_iff hpresent
  rw [hstep]
  by_cases hlive : ∃ device, s.system.table.slot line = .live device
  · obtain ⟨device, hs⟩ := hlive
    simp only [System.getElem?_removeAmid hs _ hd, hiff, hs, Slot.live.injEq, eq_comm]
  · rw [System.removeAmid_of_not_live (not_exists.mp hlive), hd]
    simp only [hiff, not_exists.mp hlive, if_false]

theorem getElem?_step_drop (hpresent : s.tableGone = false)
    (hd : s.system.devices[place]? = some d) :
    (s.step (.table .drop)).2.system.devices[place]? =
      some (if s.retires place (.table .drop) then d.dismantle else d) := by
  rw [step_table_of_present hpresent]
  simp only [stepTable, System.getElem?_removeAll hd, retires_drop_iff hpresent]

/-- **A step that is not aimed at any device** takes the device at a place out of service or leaves
it as it was. -/
theorem getElem?_step_unaimed {st : Step} (h : s.aim st = none)
    (hd : s.system.devices[place]? = some d) :
    (s.step st).2.system.devices[place]? =
      some (if s.retires place st then d.dismantle else d) := by
  cases hret : s.retires place st with
  | true =>
    obtain ⟨hpresent, ⟨line, rfl⟩ | rfl⟩ := retires_cases hret
    · rw [getElem?_step_remove hpresent hd, hret]
    · rw [getElem?_step_drop hpresent hd, hret]
  | false =>
    rcases (step_unaimed_cases h).2 with
      hsame | ⟨info, counting, rfl⟩ | ⟨hpresent, ⟨line, rfl⟩ | ⟨line, rfl⟩ | rfl⟩
    · rw [hsame, hd]
      rfl
    · obtain ⟨hlt, -⟩ := List.getElem?_eq_some_iff.mp hd
      exact (List.getElem?_append_left hlt).trans hd
    · rw [step_table_of_present hpresent]
      exact (s.system.add_keeps line).1 hd
    · rw [getElem?_step_remove hpresent hd, hret]
    · rw [getElem?_step_drop hpresent hd, hret]

/-! ### Every session is a course -/

/-- A device that the table has just created holds no worker. -/
theorem worker_after_ofTable {d : Device ScriptedSink} {ms : List (Device.Move ScriptedSink)}
    (h : ∀ m ∈ ms, System.ofTable m = true) (hw : d.worker = .absent) :
    (d.after ms).worker = .absent := by
  induction ms generalizing d with
  | nil => exact hw
  | cons m ms ih =>
    refine ih (fun n hn => h n (List.mem_cons_of_mem _ hn)) ?_
    have hm := h m List.mem_cons_self
    cases m with
    | operate op =>
      cases op with
      | disableIrq =>
        have hrun : (Device.Move.operate .disableIrq).run d = d.disableIrq.2 := rfl
        rw [hrun]
        rcases d.disableIrq_cases with ⟨-, hd⟩ | ⟨-, hd⟩ <;> rw [hd]
        exact hw
      | _ => cases hm
    | list registered => exact hw
    | release => exact hw
    | _ => cases hm

/-- In a step, the device at a place goes through a course; and a step that neither finds a worker
alive nor starts one counts no delivery. -/
theorem course_of_step (hd : s.system.devices[place]? = some d) (st : Step) :
    ∃ e, (s.step st).2.system.devices[place]? = some e ∧
      Course d.worker d.initialized (s.turns place st) e.worker e.initialized ∧
      (d.worker ≠ .alive → .started ∉ s.turns place st →
        e.metrics.interrupts = d.metrics.interrupts ∨ e.metrics.interrupts = 0) := by
  cases haim : s.aim st with
  | none =>
    refine ⟨_, getElem?_step_unaimed haim hd, ?_⟩
    rw [turns_unaimed haim, hd]
    cases s.retires place st with
    | true =>
      refine ⟨.removed ?_, fun _ _ => Or.inl (by simp [d.metrics_dismantle])⟩
      simp only [if_true, d.worker_dismantle, d.initialized_dismantle]
      exact .rest _ _
    | false => exact ⟨.rest _ _, fun _ _ => Or.inl rfl⟩
  | some x =>
    obtain ⟨aimed, op⟩ := x
    obtain ⟨d', hd', hdevices, -⟩ := step_aimed haim
    by_cases hplace : aimed = place
    · subst hplace
      have hsame : d' = d := Option.some.inj (hd'.symm.trans hd)
      subst hsame
      rw [turns_aimed haim hd]
      exact ⟨(d'.step op).device, by simp [hdevices, hd], d'.course_step op,
        Device.interrupts_step⟩
    · refine ⟨d, by simp [hdevices, hplace, hd], ?_⟩
      rw [turns_other haim hplace]
      exact ⟨.rest _ _, fun _ _ => Or.inl rfl⟩

/-- The turns of the device at a place are a course that leads from no worker to the one that it
holds. A device that is not there has had no turns. -/
structure Follows (s : Session) (place : Nat) (ts : List Turn) : Prop where
  course {d : Device ScriptedSink} : s.system.devices[place]? = some d →
    ∃ up, Course .absent up ts d.worker d.initialized
  absent : s.system.devices[place]? = none → ts = []

theorem follows_empty (counting : Bool) (place : Nat) : (empty counting).Follows place [] where
  course h := by simp [empty, System.empty] at h
  absent _ := rfl

theorem Follows.step {ts : List Turn} (h : s.Follows place ts) (st : Step) :
    (s.step st).2.Follows place (ts ++ s.turns place st) := by
  cases hd : s.system.devices[place]? with
  | some d =>
    obtain ⟨up, hcourse⟩ := h.course hd
    obtain ⟨e, he, hnext, -⟩ := course_of_step hd st
    refine ⟨fun {e'} he' => ⟨up, ?_⟩, fun hnone => ?_⟩
    · have hsame : e = e' := Option.some.inj (he.symm.trans he')
      exact hsame ▸ hcourse.trans hnext
    · rw [he] at hnone
      cases hnone
  | none =>
    -- Nothing has happened to a device that is not there, and nothing does as it is created.
    have hquiet : s.turns place st = [] := by simp only [turns, hd]
    rw [h.absent hd, hquiet]
    refine ⟨fun {e} he => ⟨e.initialized, ?_⟩, fun _ => rfl⟩
    have habsent : e.worker = .absent := by
      cases haim : s.aim st with
      | none =>
        obtain ⟨info, counting, ms, hms, rfl⟩ := (step_unaimed haim).1.added hd he
        exact worker_after_ofTable hms rfl
      | some x =>
        obtain ⟨_, _, hdevices, -⟩ := step_aimed haim
        simp [hdevices, List.getElem?_modify, hd] at he
    rw [habsent]
    exact .rest _ _

/-- **The turns of every device of a session are a course** from no worker to the one that it
holds. -/
theorem follows_after_empty (counting : Bool) (place : Nat) (steps : List Step) :
    ((empty counting).after steps).Follows place ((empty counting).log place steps) := by
  have key : ∀ {s : Session} {ts : List Turn}, s.Follows place ts →
      (s.after steps).Follows place (ts ++ s.log place steps) := by
    induction steps with
    | nil =>
      intro s ts h
      rw [log, List.append_nil]
      exact h
    | cons st steps ih =>
      intro s ts h
      rw [log, ← List.append_assoc]
      exact ih (h.step st)
  exact key (follows_empty counting place)

/-- In the course of a sequence of steps that neither finds a worker alive nor starts one, no
delivery is counted. -/
theorem interrupts_after (hd : s.system.devices[place]? = some d) (hw : d.worker ≠ .alive)
    {more : List Step} (hmore : .started ∉ s.log place more) :
    ∃ e, (s.after more).system.devices[place]? = some e ∧
      (e.metrics.interrupts = d.metrics.interrupts ∨ e.metrics.interrupts = 0) := by
  induction more generalizing s d with
  | nil => exact ⟨d, hd, Or.inl rfl⟩
  | cons st more ih =>
    rw [log, List.mem_append, not_or] at hmore
    obtain ⟨e, he, hcourse, hcounted⟩ := course_of_step hd st
    obtain ⟨f, hf, hrest⟩ := ih he (hcourse.ne_alive hw hmore.1) hmore.2
    refine ⟨f, hf, ?_⟩
    rcases hrest with hrest | hrest
    · rw [hrest]
      exact hcounted hw hmore.1
    · exact Or.inr hrest

/-- The sink of a device is told of its turns, and else only that it was attached. -/
theorem notice?_step (s : Session) (place : Nat) (st : Step) :
    (s.turns place st).filterMap Turn.notice? = (s.told place st).filter (· ≠ .attached) := by
  cases haim : s.aim st with
  | none =>
    have htold : s.told place st = [] := by simp only [told, haim]
    rw [turns_unaimed haim, htold]
    split <;> rfl
  | some x =>
    obtain ⟨aimed, op⟩ := x
    obtain ⟨d, hd, -, hresult, -, hdeliveries⟩ := step_aimed haim
    by_cases hplace : aimed = place
    · subst hplace
      rw [turns_aimed haim hd]
      simp only [told, haim, hresult, hdeliveries, if_true]
      exact d.notice?_turns op
    · rw [turns_other haim hplace]
      simp only [told, haim, hresult, hplace, if_false]
      rfl

theorem notice?_log (s : Session) (place : Nat) (steps : List Step) :
    (s.log place steps).filterMap Turn.notice? =
      (s.notices place steps).filter (· ≠ .attached) := by
  induction steps generalizing s with
  | nil => rfl
  | cons st steps ih =>
    rw [log, notices, List.filterMap_append, List.filter_append, notice?_step, ih]

end Session

end Uart16550
