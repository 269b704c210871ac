import Uart16550.Device.Script
import Uart16550.Proofs.Move

/-!
# What the worker does

`Device.step` performs an operation and then everything that its interrupts bring about: looks of
the worker, deliveries, and whatever the scripts of the sink do. All of this is a list of moves, one
after another on the same device: `leads_step` says so, with the calls of consumers and all that the
sinks were told on the way.

A sink has been told of something by a `Notice`: that it was attached, that the worker was started,
and each delivery. After a step the worker is at rest (`isArmed_step`): a look that arms it again
runs a script, and each script is run once. `Device.Rests` lists the looks on the way there, and
every delivery was found by one of them (`Rests.exists_look`).
-/

namespace Uart16550

/-- The notice that a delivery is. -/
def Delivery.notice (x : Delivery) : Notice := .delivered x.line x.iir

variable {σ : Type}

namespace Device

/-- What a move has to say about deliveries. -/
def Move.notices (d : Device σ) : Move σ → List Notice
  | .operate op => op.notices (op.run d).reply
  | .look =>
    if d.isArmed then
      match d.capture.1 with
      | .deliver iir _ => [.delivered d.line iir]
      | .stopped | .spurious | .unattended => []
    else
      []
  | _ => []

/-- A delivery is found by a look of an armed worker. -/
theorem look_of_delivered {d : Device σ} {m : Move σ} {line iir : UInt8}
    (h : .delivered line iir ∈ m.notices d) :
    m = .look ∧ d.isArmed = true ∧ line = d.line ∧ ∃ sink, d.capture.1 = .deliver iir sink := by
  cases m with
  | look =>
    simp only [Move.notices] at h
    split at h
    · next harmed =>
      split at h
      · next found sink hc =>
        obtain ⟨rfl, rfl⟩ := Notice.delivered.inj (List.mem_singleton.mp h)
        exact ⟨rfl, harmed, rfl, sink, hc⟩
      all_goals cases h
    · cases h
  | operate op =>
    simp only [Move.notices, Operation.notices] at h
    split at h <;> simp at h
  | _ => cases h

/-! ### Runs with what they leave behind -/

/-- Some list of moves leads from one device to another, with these calls of consumers and these
notices on the way. -/
def Leads (d e : Device σ) (flushes : List Flush) (notices : List Notice) : Prop :=
  ∃ ms, d.after ms = e ∧ d.calls ms = flushes ∧ chronicle (fun d m => m.notices d) d ms = notices

theorem Leads.refl (d : Device σ) : Leads d d [] [] := ⟨[], rfl, rfl, rfl⟩

theorem leads_run (d : Device σ) (m : Move σ) :
    Leads d (m.run d) (m.flushes d) (m.notices d) :=
  ⟨[m], rfl, List.append_nil _, List.append_nil _⟩

theorem Leads.trans {d e f : Device σ} {fs gs : List Flush} {ns os : List Notice}
    (h : Leads d e fs ns) (h' : Leads e f gs os) : Leads d f (fs ++ gs) (ns ++ os) := by
  obtain ⟨ms, rfl, rfl, rfl⟩ := h
  obtain ⟨ms', rfl, rfl, rfl⟩ := h'
  exact ⟨ms ++ ms', after_append d ms ms', chronicle_append _ d ms ms', chronicle_append _ d ms ms'⟩

/-! ### Looks -/

/-- The device with its worker no longer armed. -/
def disarm (d : Device σ) : Device σ := { d with virq.signaled := false }

theorem isArmed_iff {d : Device σ} :
    d.isArmed = true ↔ d.worker = .alive ∧ d.virq.signaled = true ∧ d.virq.stop = false := by
  simp [isArmed, and_assoc]

/-- What a worker finds that was not asked to end: an interrupt for the attached sink, one for
nobody, or none. -/
theorem capture_cases {d : Device σ} (h : d.virq.stop = false) :
    (∃ sink, Interrupt.isPending d.regs.iir = true ∧ d.sink = some sink ∧
      d.capture = (.deliver d.regs.iir sink, d.disarm)) ∨
    (d.sink = none ∧ d.capture = (.unattended, d.disarm)) ∨
    (Interrupt.isPending d.regs.iir = false ∧
      d.capture = (.spurious, d.disarm.record .spuriousWakeup)) := by
  generalize hc : d.capture = found
  rw [capture, if_neg (by simp [h])] at hc
  dsimp only at hc
  split at hc
  · next hp =>
    split at hc
    · next sink hs => exact Or.inl ⟨sink, hp, hs, hc.symm⟩
    · next hs => exact Or.inr (Or.inl ⟨hs, hc.symm⟩)
  · next hp => exact Or.inr (Or.inr ⟨by simpa using hp, hc.symm⟩)

/-! ### Deliveries -/

/-- A look that finds an interrupt for a sink serves the sink. -/
theorem wake_of_deliver {d e : Device ScriptedSink} {iir : UInt8} {sink : ScriptedSink}
    (h : d.capture = (.deliver iir sink, e)) : d.wake = e.serve iir sink := by
  simp only [wake, h]

/-- What a look of an armed worker delivers is what it has found for the sink. -/
theorem look_of_mem_wake {d : Device ScriptedSink} (h : d.isArmed = true) {x : Delivery}
    (hx : x ∈ d.wake.deliveries) : d.line = x.line ∧ ∃ sink, d.capture.1 = .deliver x.iir sink := by
  obtain ⟨-, -, hstop⟩ := isArmed_iff.mp h
  rcases capture_cases hstop with ⟨sink, -, -, hc⟩ | ⟨-, hc⟩ | ⟨-, hc⟩
  · rw [wake_of_deliver hc] at hx
    obtain rfl := List.mem_singleton.mp hx
    exact ⟨rfl, sink, by rw [hc]⟩
  all_goals
    simp only [wake, hc] at hx
    cases hx

/-- The device once a script has ended: the delivery is counted, or the worker is dead. -/
def handled (h : Handling σ) : Device σ :=
  if h.crashed then { h.device with worker := .dead } else h.device.record .interrupt

/-- The accesses of a script are moves, and so is its end. -/
theorem leads_script {d : Device σ} (hw : d.worker = .alive) (script : Script) :
    Leads d (handled (script.run d)) (script.run d).flushes [] := by
  induction script generalizing d with
  | nil => exact d.leads_run .handled
  | cons instruction rest ih =>
    cases instruction with
    | access a =>
      have hwork : (a.run d).device.worker = .alive := (d.worker_access a).trans hw
      exact (d.leads_run (.operate (.access a))).trans (ih hwork)
    | crash =>
      have hrun : Move.crashed.run d = { d with worker := .dead } := if_pos hw
      have hdead : Leads d (Move.crashed.run d) [] [] := d.leads_run .crashed
      rw [hrun] at hdead
      exact hdead

/-- A look of an armed worker and what comes of it are moves, and the sink is told of the
delivery. -/
theorem leads_wake {d : Device ScriptedSink} (h : d.isArmed = true) :
    Leads d d.wake.device d.wake.flushes (d.wake.deliveries.map Delivery.notice) := by
  obtain ⟨hw, -, hstop⟩ := isArmed_iff.mp h
  have hlook := d.leads_run .look
  rcases capture_cases hstop with ⟨sink, -, hs, hc⟩ | ⟨-, hc⟩ | ⟨-, hc⟩
  · simp only [Move.run, Move.flushes, Move.notices, h, hc, if_true] at hlook
    have hadvance := d.disarm.leads_run (.advance sink.tail)
    have hrun : (Move.advance sink.tail).run d.disarm =
        { d.disarm with sink := some sink.tail } := by
      have hs' : d.disarm.sink = some sink := hs
      simp only [Move.run, hs', Option.map_some]
    rw [hrun] at hadvance
    have hscript := leads_script (d := { d.disarm with sink := some sink.tail }) hw (sink.headD [])
    rw [wake_of_deliver hc]
    exact (hlook.trans hadvance).trans hscript
  all_goals
    simp only [Move.run, Move.flushes, Move.notices, h, hc, if_true] at hlook
    simpa only [wake, hc, List.map_nil] using hlook

theorem leads_settleWithin (d : Device ScriptedSink) (looks : Nat) :
    Leads d (d.settleWithin looks).device (d.settleWithin looks).flushes
      ((d.settleWithin looks).deliveries.map Delivery.notice) := by
  induction looks generalizing d with
  | zero => exact .refl d
  | succ looks ih =>
    rw [settleWithin]
    split
    · next h =>
      simp only [List.map_append]
      exact (leads_wake h).trans (ih _)
    · exact .refl d

/-- **A step is a list of moves**: those calls of consumers and those deliveries are all that
happens on the way. -/
theorem leads_step (d : Device ScriptedSink) (op : Operation ScriptedSink) :
    Leads d (d.step op).device (d.step op).flushes
      (op.notices (d.step op).reply ++ (d.step op).deliveries.map Delivery.notice) :=
  (d.leads_run (.operate op)).trans (leads_settleWithin _ _)

/-! ### Rest -/

/-- A script leaves the sink as it was or detaches it. -/
theorem sink_script (d : Device σ) (script : Script) :
    (handled (script.run d)).sink = d.sink ∨ (handled (script.run d)).sink = none := by
  induction script generalizing d with
  | nil => exact Or.inl rfl
  | cons instruction rest ih =>
    cases instruction with
    | access a =>
      have hrest : handled (Script.run d (.access a :: rest)) =
          handled (Script.run (a.run d).device rest) := rfl
      rw [hrest]
      rcases ih (a.run d).device with h | h
      · rw [h]
        exact d.sink_access a
      · exact Or.inr h
    | crash => exact Or.inl rfl

theorem scriptsLeft_script (d : Device ScriptedSink) (script : Script) :
    (handled (script.run d)).scriptsLeft ≤ d.scriptsLeft := by
  rcases d.sink_script script with h | h <;> simp [scriptsLeft, h]

/-- A look disarms the worker for good or takes a script off the sink. -/
theorem scriptsLeft_wake {d : Device ScriptedSink} (h : d.isArmed = true) :
    d.wake.device.isArmed = false ∨ d.wake.device.scriptsLeft < d.scriptsLeft := by
  obtain ⟨-, -, hstop⟩ := isArmed_iff.mp h
  have hdisarmed : d.disarm.isArmed = false := by simp [isArmed, disarm]
  rcases capture_cases hstop with ⟨sink, -, hs, hc⟩ | ⟨-, hc⟩ | ⟨-, hc⟩
  · rw [wake_of_deliver hc]
    cases sink with
    -- Without a script nothing arms the worker again.
    | nil => exact Or.inl (by simp [serve, Script.run, record, isArmed, disarm])
    | cons script rest =>
      refine Or.inr (Nat.lt_of_le_of_lt (scriptsLeft_script _ script) ?_)
      simp [scriptsLeft, hs]
  · have hwake : d.wake.device = d.disarm := by simp only [wake, hc]
    exact Or.inl (hwake ▸ hdisarmed)
  · have hwake : d.wake.device = d.disarm.record .spuriousWakeup := by simp only [wake, hc]
    exact Or.inl (hwake ▸ hdisarmed)

/-- An idle worker takes no look, however many are left. -/
theorem settleWithin_of_idle {d : Device ScriptedSink} (h : d.isArmed = false) (looks : Nat) :
    d.settleWithin looks = { device := d, deliveries := [], flushes := [] } := by
  cases looks with
  | zero => rfl
  | succ looks => rw [settleWithin, if_neg (by simp [h])]

/-- One look more than there are scripts is enough. -/
theorem isArmed_settleWithin (d : Device ScriptedSink) (looks : Nat) (h : d.scriptsLeft < looks) :
    (d.settleWithin looks).device.isArmed = false := by
  induction looks generalizing d with
  | zero => exact absurd h (Nat.not_lt_zero _)
  | succ looks ih =>
    rw [settleWithin]
    split
    · next harmed =>
      rcases scriptsLeft_wake harmed with hidle | hless
      · simpa only [settleWithin_of_idle hidle] using hidle
      · exact ih d.wake.device (by omega)
    · next hidle => simpa using hidle

/-- More looks than that are never taken. -/
theorem settleWithin_eq_settle {d : Device ScriptedSink} {looks : Nat} (h : d.scriptsLeft < looks) :
    d.settleWithin looks = d.settle := by
  suffices hall : ∀ (d : Device ScriptedSink) (m n : Nat), d.scriptsLeft < m → d.scriptsLeft < n →
      d.settleWithin m = d.settleWithin n from hall d looks _ h (Nat.lt_succ_self _)
  clear h
  intro d m
  induction m generalizing d with
  | zero => exact fun n hm => absurd hm (Nat.not_lt_zero _)
  | succ m ih =>
    intro n hm hn
    obtain ⟨n, rfl⟩ := Nat.exists_eq_succ_of_ne_zero (Nat.ne_zero_of_lt hn)
    by_cases harmed : d.isArmed = true
    · have hrest : d.wake.device.settleWithin m = d.wake.device.settleWithin n := by
        rcases scriptsLeft_wake harmed with hidle | hless
        · rw [settleWithin_of_idle hidle, settleWithin_of_idle hidle]
        · exact ih d.wake.device n (by omega) (by omega)
      simp only [settleWithin, harmed, if_true, hrest]
    · have hidle : d.isArmed = false := by simpa using harmed
      rw [settleWithin_of_idle hidle, settleWithin_of_idle hidle]

/-- **After a step the worker is at rest.** -/
theorem isArmed_step (d : Device ScriptedSink) (op : Operation ScriptedSink) :
    (d.step op).device.isArmed = false :=
  isArmed_settleWithin _ _ (Nat.lt_succ_self _)

/-! ### Looks until there is rest -/

/-- The worker looks at these devices, one after another, and is at rest then. -/
inductive Rests : Device ScriptedSink → List (Device ScriptedSink) → Device ScriptedSink → Prop
  | idle {d : Device ScriptedSink} (h : d.isArmed = false) : Rests d [] d
  | look {d e : Device ScriptedSink} {ls : List (Device ScriptedSink)} (h : d.isArmed = true)
      (rest : Rests d.wake.device ls e) : Rests d (d :: ls) e

/-- **The worker comes to rest**: it looks once for each script at most, and once more. -/
theorem exists_rests (d : Device ScriptedSink) {looks : Nat} (h : d.scriptsLeft < looks) :
    ∃ ls, d.Rests ls (d.settleWithin looks).device ∧ ls.length ≤ d.scriptsLeft + 1 ∧
      (d.settleWithin looks).deliveries = ls.flatMap (·.wake.deliveries) := by
  induction looks generalizing d with
  | zero => exact absurd h (Nat.not_lt_zero _)
  | succ looks ih =>
    cases harmed : d.isArmed with
    | false =>
      rw [settleWithin_of_idle harmed]
      exact ⟨[], .idle harmed, Nat.zero_le _, rfl⟩
    | true =>
      rw [settleWithin, if_pos harmed]
      dsimp only
      rcases scriptsLeft_wake harmed with hidle | hless
      · rw [settleWithin_of_idle hidle]
        exact ⟨[d], .look harmed (.idle hidle), by simp, by simp⟩
      · obtain ⟨ls, hrests, hlength, hdeliveries⟩ := ih d.wake.device (by omega)
        refine ⟨d :: ls, .look harmed hrests, ?_, ?_⟩
        · rw [List.length_cons]
          omega
        · rw [List.flatMap_cons, ← hdeliveries]

namespace Rests

variable {d e : Device ScriptedSink} {ls : List (Device ScriptedSink)}

theorem isArmed_eq (h : d.Rests ls e) : e.isArmed = false := by
  induction h with
  | idle hidle => exact hidle
  | look _ _ ih => exact ih

/-- The first look is at the device itself, and every other at what the look before it has left. -/
theorem consecutive (h : d.Rests ls e) {before after : List (Device ScriptedSink)}
    {x : Device ScriptedSink} (hls : ls = before ++ x :: after) :
    x.isArmed = true ∧
      (before = [] ∧ x = d ∨
        ∃ earlier y, before = earlier ++ [y] ∧ y.isArmed = true ∧ x = y.wake.device) := by
  induction h generalizing before with
  | idle _ => simp at hls
  | look harmed _ ih =>
    cases before with
    | nil =>
      obtain ⟨rfl, -⟩ := List.cons.inj hls
      exact ⟨harmed, Or.inl ⟨rfl, rfl⟩⟩
    | cons z before =>
      obtain ⟨rfl, hrest⟩ := List.cons.inj hls
      obtain ⟨hx, ⟨rfl, hfirst⟩ | ⟨earlier, y, rfl, hy, hxy⟩⟩ := ih hrest
      · exact ⟨hx, Or.inr ⟨[], _, rfl, harmed, hfirst⟩⟩
      · exact ⟨hx, Or.inr ⟨_ :: earlier, y, rfl, hy, hxy⟩⟩

theorem isArmed_of_mem (h : d.Rests ls e) {c : Device ScriptedSink} (hc : c ∈ ls) :
    c.isArmed = true := by
  obtain ⟨before, after, hls⟩ := List.append_of_mem hc
  exact (h.consecutive hls).1

/-- Every delivery was found by one of the looks. -/
theorem exists_look (h : d.Rests ls e) {x : Delivery} (hx : x ∈ ls.flatMap (·.wake.deliveries)) :
    ∃ c ∈ ls, c.isArmed = true ∧ c.line = x.line ∧ ∃ sink, c.capture.1 = .deliver x.iir sink := by
  obtain ⟨c, hc, hx⟩ := List.mem_flatMap.mp hx
  have harmed := h.isArmed_of_mem hc
  exact ⟨c, hc, harmed, look_of_mem_wake harmed hx⟩

/-- Every look is at a reachable device, and so is the device at rest. -/
theorem reachable (h : d.Rests ls e) (hd : d.Reachable) :
    (∀ x ∈ ls, x.Reachable) ∧ e.Reachable := by
  induction h with
  | idle _ => exact ⟨by simp, hd⟩
  | look harmed _ ih =>
    obtain ⟨ms, hms, -, -⟩ := leads_wake harmed
    obtain ⟨hlooks, hend⟩ := ih (hms ▸ hd.after ms)
    exact ⟨List.forall_mem_cons.mpr ⟨hd, hlooks⟩, hend⟩

end Rests

end Device

end Uart16550
