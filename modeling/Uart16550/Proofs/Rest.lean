import Uart16550.Proofs.Accounting
import Uart16550.Proofs.VirtualIrq

/-!
# The worker comes to rest

An operation may arm the worker, and what the worker delivers may arm it again. Nothing else does:
an operation arms it exactly if it refreshes the device and leaves an interrupt pending for a living
worker (`isArmed_run_iff`), and a delivery exactly if its script does so at some access and does not
crash (`isArmed_wake_iff`). A look that delivers nothing leaves the worker idle.

So a worker that is armed by an operation looks once for each script at most and once more, and a
look that finds nothing pending follows a delivery whose script had an interrupt pending and took it
back.

`rest_of_reachable` puts this together: from every reachable device at rest, every operation leads
to rest again.
-/

namespace Uart16550

variable {σ : Type}

namespace Device

/-! ### What only a refresh does -/

theorem Accesses.virq_eq {d e : Device σ} (h : d.Accesses e) : e.virq = d.virq := by
  obtain ⟨⟨_, _, _, _, _, rfl⟩, -⟩ := h
  rfl

/-- A refresh arms an enabled worker for whatever is pending then. -/
theorem signaled_refresh {d e : Device σ} (h : e.virq = d.virq) :
    e.refresh.virq.signaled =
      (d.virq.signaled || (Interrupt.isPending e.refresh.regs.iir && d.virq.enabled)) := by
  rw [← h]
  rfl

/-- **Nothing but a refresh arms the worker**, and only for what it leaves pending. -/
theorem signaled_effect (d : Device σ) (e : Effect) :
    (e.run d).1.virq.signaled =
      (d.virq.signaled ||
        (e.refreshes && Interrupt.isPending (e.run d).1.regs.iir && d.virq.enabled)) := by
  rcases e.cases_refreshes with rfl | rfl | h
  · simp [Effect.run, Effect.refreshes]
  · simp [Effect.run, Effect.refreshes, detach]
  · obtain ⟨c, hc, hrun⟩ := d.exists_accesses h
    rw [hrun, h, Bool.true_and]
    exact signaled_refresh hc.virq_eq

end Device

open Device

/-! ### What arms the worker -/

/-- Whether an access derives the interrupt identification again. -/
def Access.refreshes (d : Device σ) (a : Access) : Bool := (a.effect d).refreshes

/-- Whether an operation does. -/
def Operation.refreshes (d : Device σ) : Operation σ → Bool
  | .access a => a.refreshes d
  | .attach _ => true
  | .enableIrq => !d.holdsWorker && d.initialized
  | .bind _ _ | .unbind | .disableIrq | .irqEnabled | .info | .counters | .report |
    .resetCounters => false

namespace Device

theorem Housed.enabled {d : Device σ} (h : d.Housed) (hw : d.worker = .alive) :
    d.virq.enabled = true := by
  rw [h.enabled_eq, holdsWorker, hw]
  rfl

theorem Housed.access {d : Device σ} (h : d.Housed) (a : Access) : (a.run d).device.Housed :=
  h.of_lifecycle (d.lifecycle_access a)

/-- An access signals a living worker exactly if it refreshes and leaves an interrupt pending, or
the worker was signaled already. -/
theorem signaled_access {d : Device σ} (h : d.Housed) (hw : d.worker = .alive) (a : Access) :
    (a.run d).device.virq.signaled =
      (d.virq.signaled ||
        (a.refreshes d && Interrupt.isPending (a.run d).device.regs.iir)) := by
  rw [a.device_effect, signaled_effect, h.enabled hw, Bool.and_true]
  rfl

/-- A worker at rest that stays the same is armed by what signals it. -/
theorem isArmed_iff_of_signaled {d e : Device σ} {refreshed : Bool} (h : d.Housed)
    (hrest : d.isArmed = false) (he : e.Housed) (hworker : e.worker = d.worker)
    (hsignaled : d.worker = .alive → e.virq.signaled =
      (d.virq.signaled || (refreshed && Interrupt.isPending e.regs.iir))) :
    e.isArmed = true ↔
      refreshed = true ∧ Interrupt.isPending e.regs.iir = true ∧ e.worker = .alive := by
  rw [isArmed_iff, hworker]
  by_cases hw : d.worker = .alive
  · have hidle : d.virq.signaled = false := by simpa [isArmed, hw, h.not_stop] using hrest
    simp [hw, hsignaled hw, hidle, he.not_stop]
  · simp [hw]

/-- **An operation on a device at rest arms the worker** exactly if it refreshes the device and
leaves an interrupt pending for a living worker. -/
theorem isArmed_run_iff {d : Device σ} (h : d.Housed) (hrest : d.isArmed = false)
    (op : Operation σ) :
    (op.run d).device.isArmed = true ↔
      op.refreshes d = true ∧ Interrupt.isPending (op.run d).device.regs.iir = true ∧
        (op.run d).device.worker = .alive := by
  -- What does not refresh leaves the worker at rest.
  have hquiet (hsame : (op.run d).device.isArmed = false) (hrefreshes : op.refreshes d = false) :
      (op.run d).device.isArmed = true ↔
        op.refreshes d = true ∧ Interrupt.isPending (op.run d).device.regs.iir = true ∧
          (op.run d).device.worker = .alive := by
    simp [hsame, hrefreshes]
  cases op with
  | access a =>
    exact isArmed_iff_of_signaled h hrest (h.access a) (d.worker_access a)
      fun hw => signaled_access h hw a
  | attach sink =>
    refine isArmed_iff_of_signaled h hrest (housed_move d (.operate (.attach sink)) h) rfl
      fun hw => ?_
    have hsignaled := signaled_refresh (d := d) (e := { d with sink := some sink }) rfl
    rw [h.enabled hw, Bool.and_true] at hsignaled
    exact hsignaled
  | bind threshold label =>
    refine hquiet ?_ rfl
    have hrun : ((Operation.bind threshold label).run d).device = (d.bind threshold label).2 := rfl
    rcases d.bind_cases threshold label with hb | ⟨c, hb⟩ <;> rw [hrun, hb] <;> exact hrest
  | unbind =>
    refine hquiet ?_ rfl
    have hrun : (Operation.unbind.run d).device = d.unbind.2 := rfl
    rcases d.unbind_cases with hb | hb <;> rw [hrun, hb] <;> exact hrest
  | enableIrq =>
    have hrun : (Operation.enableIrq.run d).device = d.enableIrq.2 := rfl
    rcases d.enableIrq_cases with ⟨e, he⟩ | ⟨hw, hi, he⟩
    · have hsame : (Operation.enableIrq.run d).device = d := hrun.trans (congrArg Prod.snd he)
      refine hquiet (by rw [hsame, hrest]) ?_
      cases hw : d.holdsWorker <;> cases hi : d.initialized <;>
        simp [Operation.refreshes, enableIrq, hw, hi] at he ⊢
    · rw [hrun, he, isArmed_iff]
      simp [refresh, Operation.refreshes, hw, hi]
  | disableIrq =>
    refine hquiet ?_ rfl
    have hrun : (Operation.disableIrq.run d).device = d.disableIrq.2 := rfl
    rcases d.disableIrq_cases with ⟨-, hd⟩ | ⟨-, hd⟩ <;> rw [hrun, hd]
    · exact hrest
    · rfl
  | _ => exact hquiet hrest rfl

end Device

/-! ### What a delivery arms -/

/-- Whether a script refreshes the device at some access and leaves an interrupt pending there. -/
def Script.signals (d : Device σ) : Script → Bool
  | [] | .crash :: _ => false
  | .access a :: rest =>
    (a.refreshes d && Interrupt.isPending (a.run d).device.regs.iir) ||
      signals (a.run d).device rest

namespace Device

/-- A script leaves the worker armed exactly if it signals the worker, or found it signaled, and
does not crash. -/
theorem isArmed_script {d : Device σ} (h : d.Housed) (hw : d.worker = .alive) (script : Script) :
    (handled (script.run d)).isArmed = true ↔
      (script.run d).crashed = false ∧ (d.virq.signaled = true ∨ script.signals d = true) := by
  induction script generalizing d with
  | nil =>
    have hend : handled (Script.run d []) = d.record .interrupt := rfl
    rw [hend, isArmed_iff]
    simp [record, hw, h.not_stop, Script.run, Script.signals]
  | cons instruction rest ih =>
    cases instruction with
    | access a =>
      have hrest : handled (Script.run d (.access a :: rest)) =
          handled (Script.run (a.run d).device rest) := rfl
      have hcrashed : (Script.run d (.access a :: rest)).crashed =
          (Script.run (a.run d).device rest).crashed := rfl
      rw [hrest, hcrashed, ih (h.access a) ((d.worker_access a).trans hw), signaled_access h hw,
        Script.signals, Bool.or_eq_true, Bool.or_eq_true, or_assoc]
    | crash =>
      have hend : handled (Script.run d (.crash :: rest)) = { d with worker := .dead } := rfl
      rw [hend, isArmed_iff]
      simp [Script.run]

/-- The device as a sink begins to run a script. -/
def taken (d : Device ScriptedSink) (sink : ScriptedSink) : Device ScriptedSink :=
  { d.disarm with sink := some sink.tail }

theorem device_wake_of_deliver {d : Device ScriptedSink} {iir : UInt8} {sink : ScriptedSink}
    (h : d.capture = (.deliver iir sink, d.disarm)) :
    d.wake.device = handled ((sink.headD []).run (d.taken sink)) :=
  congrArg Settled.device (wake_of_deliver h)

/-- **A look arms the worker again** exactly if it delivers, and the script signals the worker and
does not crash. -/
theorem isArmed_wake_iff {d : Device ScriptedSink} (h : d.Housed) (harmed : d.isArmed = true) :
    d.wake.device.isArmed = true ↔
      ∃ iir sink, d.capture.1 = .deliver iir sink ∧
        (sink.headD []).signals (d.taken sink) = true ∧
        ((sink.headD []).run (d.taken sink)).crashed = false := by
  obtain ⟨hw, -, hstop⟩ := isArmed_iff.mp harmed
  rcases capture_cases hstop with ⟨sink, -, -, hc⟩ | ⟨-, hc⟩ | ⟨-, hc⟩
  · have htaken : (d.taken sink).Housed := ⟨h.enabled_eq, h.not_stop⟩
    have hidle : (d.taken sink).virq.signaled = false := rfl
    rw [device_wake_of_deliver hc, isArmed_script htaken hw, hc]
    constructor
    · rintro ⟨hcrashed, hsignaled | hsignals⟩
      · rw [hidle] at hsignaled
        cases hsignaled
      · exact ⟨_, _, rfl, hsignals, hcrashed⟩
    · rintro ⟨iir, sink', hdeliver, hsignals, hcrashed⟩
      obtain ⟨rfl, rfl⟩ := Capture.deliver.inj hdeliver
      exact ⟨hcrashed, Or.inr hsignals⟩
  all_goals
    have hidle : d.wake.device.isArmed = false := by
      simp only [wake, hc]
      simp [isArmed, disarm, record]
    simp [hidle, hc]

/-- A look of an armed worker is in vain exactly if nothing is pending. -/
theorem wakesInVain_iff {d : Device σ} (harmed : d.isArmed = true) :
    d.wakesInVain .look = true ↔ Interrupt.isPending d.regs.iir = false := by
  obtain ⟨-, -, hstop⟩ := isArmed_iff.mp harmed
  simp only [wakesInVain, harmed, capture, hstop, Bool.false_eq_true, if_false, Bool.true_and]
  cases hp : Interrupt.isPending d.regs.iir with
  | true => cases hs : d.sink <;> simp
  | false => simp

/-- Whether a look delivers and the script takes back what it has signaled: an interrupt is pending
at one of its refreshes, and none is at its end. -/
def TakesBack (d : Device ScriptedSink) : Prop :=
  ∃ iir sink, d.capture.1 = .deliver iir sink ∧
    (sink.headD []).signals (d.taken sink) = true ∧
    ((sink.headD []).run (d.taken sink)).crashed = false ∧
    Interrupt.isPending ((sink.headD []).run (d.taken sink)).device.regs.iir = false

theorem takesBack_of_vain {d : Device ScriptedSink} (h : d.Housed) (harmed : d.isArmed = true)
    (hwake : d.wake.device.isArmed = true) (hvain : d.wake.device.wakesInVain .look = true) :
    d.TakesBack := by
  obtain ⟨iir, sink, hdeliver, hsignals, hcrashed⟩ := (isArmed_wake_iff h harmed).mp hwake
  refine ⟨iir, sink, hdeliver, hsignals, hcrashed, ?_⟩
  have hdisarm : d.capture = (.deliver iir sink, d.disarm) := by
    obtain ⟨-, -, hstop⟩ := isArmed_iff.mp harmed
    rcases capture_cases hstop with ⟨s, -, -, hc⟩ | ⟨-, hc⟩ | ⟨-, hc⟩ <;>
      rw [hc] at hdeliver ⊢ <;> cases hdeliver
    rfl
  have hregs : d.wake.device.regs = ((sink.headD []).run (d.taken sink)).device.regs := by
    rw [device_wake_of_deliver hdisarm, handled, hcrashed]
    rfl
  rw [← hregs]
  exact (wakesInVain_iff hwake).mp hvain

namespace Rests

variable {d e : Device ScriptedSink} {ls : List (Device ScriptedSink)}

/-- A look in vain is the first, or follows a delivery that takes back. -/
theorem takesBack (h : d.Rests ls e) (hd : d.Reachable) {before after : List (Device ScriptedSink)}
    {x : Device ScriptedSink} (hls : ls = before ++ x :: after)
    (hvain : x.wakesInVain .look = true) :
    before = [] ∧ x = d ∨
      ∃ earlier y, before = earlier ++ [y] ∧ x = y.wake.device ∧ y.TakesBack := by
  obtain ⟨hx, hfirst | ⟨earlier, y, rfl, hy, rfl⟩⟩ := h.consecutive hls
  · exact Or.inl hfirst
  · have hreachable : y.Reachable := (h.reachable hd).1 y (by simp [hls])
    exact Or.inr ⟨earlier, y, rfl, rfl,
      takesBack_of_vain (housed_of_reachable hreachable) hy hx hvain⟩

end Rests

/-! ### Looks in vain are counted -/

/-- No access counts a look of the worker. -/
theorem spuriousWakeups_access (d : Device σ) (a : Access) :
    (a.run d).device.metrics.spuriousWakeups = d.metrics.spuriousWakeups := by
  have hmetrics : (a.run d).device.metrics = d.metrics.recordAll (d.events (.operate (.access a))) :=
    d.metrics_run (m := .operate (.access a)) (by simp)
  cases hm : d.metrics.enabled with
  | false => rw [hmetrics, Metrics.recordAll_of_disabled hm]
  | true =>
    have hvalue : (d.after [.operate (.access a)]).metrics.value .spuriousWakeups = _ :=
      value_after hm (by simp) .spuriousWakeups
    exact hvalue.trans (UInt64.add_zero _)

theorem spuriousWakeups_script (d : Device σ) (script : Script) :
    (handled (script.run d)).metrics.spuriousWakeups = d.metrics.spuriousWakeups := by
  induction script generalizing d with
  | nil =>
    have hend : handled (Script.run d []) = d.record .interrupt := rfl
    rw [hend]
    cases hm : d.metrics.enabled <;> simp [record, Metrics.record, hm, Metrics.count]
  | cons instruction rest ih =>
    cases instruction with
    | access a => exact (ih (a.run d).device).trans (d.spuriousWakeups_access a)
    | crash => rfl

/-- Between two moments so many looks in vain were counted, if anything is. -/
structure CountsVain (m m' : Metrics) (n : Nat) : Prop where
  enabled_eq : m'.enabled = m.enabled
  spuriousWakeups_eq :
    m'.spuriousWakeups = m.spuriousWakeups + if m.enabled then .ofNat n else 0

theorem countsVain_wake {d : Device ScriptedSink} (harmed : d.isArmed = true) :
    CountsVain d.metrics d.wake.device.metrics (if d.wakesInVain .look then 1 else 0) := by
  obtain ⟨-, -, hstop⟩ := isArmed_iff.mp harmed
  rcases capture_cases hstop with ⟨sink, -, -, hc⟩ | ⟨-, hc⟩ | ⟨-, hc⟩
  · have hquiet : d.wakesInVain .look = false := by simp [wakesInVain, hc]
    rw [device_wake_of_deliver hc, hquiet]
    refine ⟨(counts_script (d.taken sink) _).1, ?_⟩
    rw [spuriousWakeups_script]
    simp [taken, disarm]
  · have hsame : d.wake.device = d.disarm := by simp only [wake, hc]
    have hquiet : d.wakesInVain .look = false := by simp [wakesInVain, hc]
    rw [hsame, hquiet]
    exact ⟨rfl, by simp [disarm]⟩
  · have hcounted : d.wake.device = d.disarm.record .spuriousWakeup := by simp only [wake, hc]
    have hvain : d.wakesInVain .look = true := by simp [wakesInVain, harmed, hc]
    rw [hcounted, hvain]
    refine ⟨d.metrics.enabled_record _, ?_⟩
    cases hm : d.metrics.enabled <;> simp [record, disarm, Metrics.record, hm, Metrics.count]

theorem Rests.countsVain {d e : Device ScriptedSink} {ls : List (Device ScriptedSink)}
    (h : d.Rests ls e) :
    CountsVain d.metrics e.metrics (ls.countP (·.wakesInVain .look)) := by
  induction h with
  | idle _ => exact ⟨rfl, by simp⟩
  | @look d e ls harmed _ ih =>
    obtain ⟨henabled, hcount⟩ := countsVain_wake harmed
    refine ⟨ih.enabled_eq.trans henabled, ?_⟩
    rw [ih.spuriousWakeups_eq, hcount, henabled, List.countP_cons]
    cases d.metrics.enabled with
    | false => simp
    | true => simp [UInt64.ofNat_add, UInt64.add_assoc, UInt64.add_comm]

/-! ### Idle or dead -/

/-- Only an enabled worker is ever signaled. -/
theorem enabled_of_signaled {d : Device σ} (h : d.Reachable) :
    d.virq.signaled = true → d.virq.enabled = true := by
  refine h.induction (P := fun d => d.virq.signaled = true → d.virq.enabled = true) (fun _ _ => ?_)
    fun d m ih => ?_
  · simp [create, reset, refresh]
  cases m with
  | operate op =>
    have hrun : (Move.operate op).run d = (op.run d).device := rfl
    rw [hrun]
    by_cases hop : ∃ a, op = .access a
    · obtain ⟨a, rfl⟩ := hop
      have henabled : (a.run d).device.virq.enabled = d.virq.enabled := by
        rcases d.lifecycle_access a with hl | hl <;> exact congrArg Lifecycle.irqEnabled hl
      have haccess : (Operation.access a).run d = a.run d := rfl
      rw [haccess, henabled, a.device_effect, signaled_effect, Bool.or_eq_true, Bool.and_eq_true]
      rintro (hsignaled | ⟨-, hd⟩)
      · exact ih hsignaled
      · exact hd
    · rcases d.operate_cases (not_exists.mp hop) with
        ⟨⟨c, m, hd⟩, -⟩ | ⟨sink, rfl⟩ | ⟨hd, -⟩ | ⟨hd, -⟩
      · rw [hd]
        exact ih
      · intro hsignaled
        have hsink := (signaled_refresh (d := d) (e := { d with sink := some sink }) rfl).symm.trans
          hsignaled
        rw [Bool.or_eq_true, Bool.and_eq_true] at hsink
        rcases hsink with hold | ⟨-, hd⟩
        · exact ih hold
        · exact hd
      · rw [hd]
        exact fun _ => rfl
      · rw [hd]
        intro hsignaled
        cases hsignaled
  | look =>
    simp only [Move.run]
    split
    · next harmed =>
      obtain ⟨-, -, hstop⟩ := isArmed_iff.mp harmed
      intro hsignaled
      rcases capture_cases hstop with ⟨sink, -, -, hc⟩ | ⟨-, hc⟩ | ⟨-, hc⟩ <;>
        rw [hc] at hsignaled <;> cases hsignaled
    · exact ih
  | crashed =>
    simp only [Move.run]
    split <;> exact ih
  | _ => exact ih

/-- A worker at rest is not signaled, or it has died. -/
theorem idle_or_dead {d : Device σ} (h : d.Reachable) (hrest : d.isArmed = false) :
    d.virq.signaled = false ∨ d.worker = .dead := by
  by_contra hboth
  obtain ⟨hsignaled, hdead⟩ := not_or.mp hboth
  rw [Bool.not_eq_false] at hsignaled
  have hhoused := housed_of_reachable h
  have hheld : d.holdsWorker = true := hhoused.enabled_eq ▸ enabled_of_signaled h hsignaled
  have halive : d.worker = .alive := by
    cases hw : d.worker with
    | absent => simp [holdsWorker, hw] at hheld
    | alive => rfl
    | dead => exact absurd hw hdead
  have harmed : d.isArmed = true := isArmed_iff.mpr ⟨halive, hsignaled, hhoused.not_stop⟩
  rw [hrest] at harmed
  cases harmed

/-! ### Without scripts -/

/-- The call of a sink that runs nothing, for what is pending now. -/
def soleDelivery (d : Device ScriptedSink) : Delivery :=
  { line := d.line, iir := d.regs.iir, replies := [] }

/-- An armed worker for which an interrupt is pending calls an attached sink that runs nothing. -/
theorem deliveries_settle_of_noScripts {d : Device ScriptedSink} (harmed : d.isArmed = true)
    (hpending : Interrupt.isPending d.regs.iir = true) (hscripts : d.scriptsLeft = 0) :
    d.settle.deliveries = if d.sink.isSome then [d.soleDelivery] else [] := by
  have hidle : d.wake.device.isArmed = false := by
    rcases scriptsLeft_wake harmed with hidle | hless
    · exact hidle
    · omega
  rw [settle, settleWithin, if_pos harmed]
  dsimp only
  rw [settleWithin_of_idle hidle, List.append_nil]
  obtain ⟨-, -, hstop⟩ := isArmed_iff.mp harmed
  rcases capture_cases hstop with ⟨sink, -, hs, hc⟩ | ⟨hs, hc⟩ | ⟨hnone, -⟩
  · have hempty : sink = [] := by simpa [scriptsLeft, hs] using hscripts
    rw [wake_of_deliver hc, hs, hempty]
    rfl
  · simp [wake, hc, hs]
  · rw [hpending] at hnone
    cases hnone

/-! ### Steps -/

/-- How an operation on a device ends: the worker has looked at these devices. -/
structure Calms (d : Device ScriptedSink) (op : Operation ScriptedSink)
    (ls : List (Device ScriptedSink)) : Prop where
  /-- These are the looks, and there is rest after them. -/
  rests : (op.run d).device.Rests ls (d.step op).device
  /-- There is one look for each script at most, and one more. -/
  length_le : ls.length ≤ (op.run d).device.scriptsLeft + 1
  /-- The worker is idle then, or it has died. -/
  idle_or_dead : (d.step op).device.virq.signaled = false ∨ (d.step op).device.worker = .dead
  deliveries_eq : (d.step op).deliveries = ls.flatMap (·.wake.deliveries)
  /-- The looks in vain are all that is counted as spurious. -/
  counted : CountsVain (op.run d).device.metrics (d.step op).device.metrics
    (ls.countP (·.wakesInVain .look))
  /-- A look in vain follows a delivery whose script takes back what it has signaled. -/
  vain {before after : List (Device ScriptedSink)} {x : Device ScriptedSink} :
    ls = before ++ x :: after → x.wakesInVain .look = true →
      ∃ earlier y, before = earlier ++ [y] ∧ x = y.wake.device ∧ y.TakesBack
  /-- Without scripts there is one delivery, if the operation refreshes the device and leaves an
  interrupt pending for an enabled worker that lives and for an attached sink. -/
  alone : (op.run d).device.scriptsLeft = 0 →
    (d.step op).deliveries =
      if op.refreshes d = true ∧ Interrupt.isPending (op.run d).device.regs.iir = true ∧
          (op.run d).device.virq.enabled = true ∧ (op.run d).device.worker = .alive ∧
          (op.run d).device.sink.isSome = true then
        [(op.run d).device.soleDelivery]
      else
        []
  /-- And no look is in vain. -/
  attentive : (op.run d).device.scriptsLeft = 0 → ∀ x ∈ ls, x.wakesInVain .look = false

theorem exists_calms {d : Device ScriptedSink} (hd : d.Reachable) (hrest : d.isArmed = false)
    (op : Operation ScriptedSink) : ∃ ls, d.Calms op ls := by
  have hreachable : (op.run d).device.Reachable := hd.after [.operate op]
  have harmed := isArmed_run_iff (housed_of_reachable hd) hrest op
  obtain ⟨ls, hrests, hlength, hdeliveries⟩ :=
    exists_rests (op.run d).device (Nat.lt_succ_self _)
  -- The first look finds what has armed the worker.
  have hvain {before after : List (Device ScriptedSink)} {x : Device ScriptedSink}
      (hls : ls = before ++ x :: after) (hx : x.wakesInVain .look = true) :
      ∃ earlier y, before = earlier ++ [y] ∧ x = y.wake.device ∧ y.TakesBack := by
    rcases hrests.takesBack hreachable hls hx with ⟨-, rfl⟩ | hfollows
    · obtain ⟨hfirst, -⟩ := hrests.consecutive hls
      have hpending := (harmed.mp hfirst).2.1
      rw [(wakesInVain_iff hfirst).mp hx] at hpending
      cases hpending
    · exact hfollows
  refine ⟨ls, {
    rests := hrests
    length_le := hlength
    idle_or_dead := Device.idle_or_dead (hrests.reachable hreachable).2 hrests.isArmed_eq
    deliveries_eq := hdeliveries
    counted := hrests.countsVain
    vain := hvain
    alone := fun hscripts => ?_
    attentive := fun hscripts x hx => ?_ }⟩
  · have hsettle : (d.step op).deliveries = (op.run d).device.settle.deliveries := rfl
    have hhoused := housed_of_reachable hreachable
    rw [hsettle]
    by_cases h : (op.run d).device.isArmed = true
    · obtain ⟨hrefreshes, hpending, halive⟩ := harmed.mp h
      rw [deliveries_settle_of_noScripts h hpending hscripts]
      simp [hrefreshes, hpending, halive, hhoused.enabled halive]
    · have hidle : (op.run d).device.isArmed = false := by simpa using h
      have hnot : ¬(op.refreshes d = true ∧ Interrupt.isPending (op.run d).device.regs.iir = true ∧
          (op.run d).device.virq.enabled = true ∧ (op.run d).device.worker = .alive ∧
          (op.run d).device.sink.isSome = true) :=
        fun ⟨hrefreshes, hpending, _, halive, _⟩ => h (harmed.mpr ⟨hrefreshes, hpending, halive⟩)
      rw [settle, settleWithin_of_idle hidle, if_neg hnot]
  · -- There is at most one look, and it does not follow another.
    by_contra hx'
    rw [Bool.not_eq_false] at hx'
    obtain ⟨before, after, hls⟩ := List.append_of_mem hx
    obtain ⟨earlier, y, rfl, -, -⟩ := hvain hls hx'
    have htwo : ls.length = earlier.length + (after.length + 1 + 1) := by simp [hls]
    omega

end Device

/-- **The worker always comes to rest.** On every reachable device at rest, every operation leads to
rest again: the worker looks at most once for each script that the attached sink has left, and once
more, and is idle or dead then. A sink without scripts is called exactly once if the operation
refreshes the device and leaves an interrupt pending for a living worker, and never in vain; a look
in vain follows a script that had an interrupt pending and took it back, and only such looks are
counted as spurious. The steps of a session are such operations on such devices, and any other step
delivers nothing. -/
theorem rest_of_reachable :
    (∀ d : Device ScriptedSink, d.Reachable → d.isArmed = false → ∀ op, ∃ ls, d.Calms op ls) ∧
    ∀ counting steps st, let s := (Session.empty counting).after steps
      (∀ place op, s.aim st = some (place, op) →
        ∃ d, s.system.devices[place]? = some d ∧ d.Reachable ∧ d.isArmed = false ∧
          (s.step st).2.system.devices[place]? = some (d.step op).device ∧
          (s.step st).1.deliveries = (d.step op).deliveries) ∧
      (s.aim st = none → (s.step st).1.deliveries = []) := by
  refine ⟨fun d hd hrest op => Device.exists_calms hd hrest op, fun counting steps st => ?_⟩
  intro s
  refine ⟨fun place op haim => ?_, fun haim => (Session.step_unaimed haim).2.2⟩
  obtain ⟨d, hd, hdevices, -, -, hdeliveries⟩ := Session.step_aimed haim
  exact ⟨d, hd, Session.reachable_of_mem (List.mem_of_getElem? hd),
    (Session.comes_after_empty counting place steps).rests hd, by simp [hdevices, hd], hdeliveries⟩

/-- A byte arrives for a sink whose script takes in another and reads both: the worker is armed again
and then looks in vain. -/
theorem rest_of_taking_back :
    let steps : List Session.Step := [
      .table (.add 0),
      .onHandle 0 (.attach [[.access (.inject [0x42]), .access (.read Offset.data),
        .access (.read Offset.data)]]),
      .onHandle 0 .enableIrq, .onHandle 0 (.access (.write Offset.interruptEnable 0x01))]
    ∃ d, ((Session.empty true).after steps).system.devices[0]? = some d ∧
      ∃ ls, d.Calms (.access (.inject [0x41])) ls ∧ ls.length ≤ 2 ∧
        ∃ y ∈ ls, y.TakesBack := by
  intro steps
  have hdevice : ((Session.empty true).after steps).system.devices[0]?.map (fun d =>
      (((Operation.access (.inject [0x41])).run d).device.scriptsLeft,
        ((Operation.access (.inject [0x41])).run d).device.metrics.spuriousWakeups,
        (d.step (.access (.inject [0x41]))).device.metrics.spuriousWakeups)) =
      some (1, 0, 1) := by decide +kernel
  have haim : ((Session.empty true).after steps).aim (.onHandle 0 (.access (.inject [0x41]))) =
      some (0, .access (.inject [0x41])) := by decide +kernel
  clear_value steps
  obtain ⟨hcalms, hsession⟩ := rest_of_reachable
  obtain ⟨d, hd, hreachable, hrest, -⟩ := (hsession true steps _).1 _ _ haim
  refine ⟨d, hd, ?_⟩
  simp only [hd, Option.map_some, Option.some.injEq, Prod.mk.injEq] at hdevice
  obtain ⟨hscripts, hbefore, hafter⟩ := hdevice
  obtain ⟨ls, h⟩ := hcalms d hreachable hrest (.access (.inject [0x41]))
  have hlength : ls.length ≤ 2 := Nat.le_trans h.length_le (by rw [hscripts])
  refine ⟨ls, h, hlength, ?_⟩
  -- One wakeup was counted as spurious, so some look was in vain.
  have hpos : 0 < ls.countP (·.wakesInVain .look) := by
    by_contra hnone
    have hsame := h.counted.spuriousWakeups_eq
    rw [Nat.eq_zero_of_not_pos hnone, hbefore, hafter] at hsame
    split at hsame <;> cases hsame
  obtain ⟨x, hx, hvain⟩ := List.countP_pos_iff.mp hpos
  obtain ⟨before, rest, hls⟩ := List.append_of_mem hx
  obtain ⟨earlier, y, rfl, -, hy⟩ := h.vain hls hvain
  exact ⟨y, by simp [hls], hy⟩

end Uart16550
