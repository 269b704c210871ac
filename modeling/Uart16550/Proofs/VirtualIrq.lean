import Uart16550.Proofs.Delivery
import Uart16550.Proofs.Identification
import Uart16550.Proofs.WorkerCourse

/-!
# The life of a virtual interrupt

A worker is held in two places, which agree on every reachable device, whatever its sinks are and
also in the middle of a delivery. So the answers to enabling and disabling can be read off what is
seen of the device from outside (`Device.Answers`). A sink that stops the very worker by which it is
called is left out: that worker cannot wait for itself.

Over a session, the turns of a worker are a course (`Session.follows_after_empty`), and what a
session may rely on is read off that (`Session.Regular`): once a worker was asked to end, died in a
crash of its sink or lost its line, it calls nobody and no delivery is counted until a start; a dead
worker must be asked to end before that; and a start delivers at once what is pending.
-/

namespace Uart16550

variable {σ : Type}

namespace Device

/-! ### Answers -/

/-- What is seen of the worker, and what enabling and disabling answer. -/
structure Answers (d : Device σ) : Prop where
  holdsWorker_eq : d.holdsWorker = d.snapshot.virqEnabled
  asked : (Operation.irqEnabled.run d).reply = .flag d.snapshot.virqEnabled
  enabled_iff : (Operation.enableIrq.run d).reply = .done ↔
    d.holdsWorker = false ∧ d.initialized = true
  alreadyEnabled_iff :
    (Operation.enableIrq.run d).reply = .failed (.virtualIrqAlreadyEnabled d.line) ↔
      d.holdsWorker = true
  notInitialized_iff : (Operation.enableIrq.run d).reply = .failed (.notInitialized d.line) ↔
    d.holdsWorker = false ∧ d.initialized = false
  /-- An attempt that fails leaves the device as it was. -/
  enable_failed : (Operation.enableIrq.run d).reply ≠ .done →
    (Operation.enableIrq.run d).device = d
  notEnabled_iff : (Operation.disableIrq.run d).reply = .failed (.virtualIrqNotEnabled d.line) ↔
    d.holdsWorker = false
  /-- Whatever disabling answers, no worker is held afterwards. -/
  disabled : (Operation.disableIrq.run d).device.worker = .absent ∧
    (Operation.disableIrq.run d).device.snapshot.virqEnabled = false

theorem enableIrq_fst (d : Device σ) :
    d.enableIrq.1 =
      if d.holdsWorker then .error (.virtualIrqAlreadyEnabled d.line)
      else if d.initialized then .ok () else .error (.notInitialized d.line) := by
  cases hheld : d.holdsWorker <;> cases hup : d.initialized <;> simp [enableIrq, hheld, hup]

theorem disableIrq_fst (d : Device σ) :
    d.disableIrq.1 =
      match d.worker with
      | .absent => .error (.virtualIrqNotEnabled d.line)
      | .alive => .ok ()
      | .dead => .error (.workerPanicked d.line) := by
  cases hw : d.worker <;> simp [disableIrq, hw]

theorem Housed.answers {d : Device σ} (h : d.Housed) : d.Answers := by
  have henable : (Operation.enableIrq.run d).reply = .ofExcept (fun _ => .done) d.enableIrq.1 := rfl
  have hdisable :
      (Operation.disableIrq.run d).reply = .ofExcept (fun _ => .done) d.disableIrq.1 := rfl
  have hgone : (Operation.disableIrq.run d).device = d.disableIrq.2 := rfl
  constructor
  case holdsWorker_eq => exact h.enabled_eq.symm
  case asked => exact congrArg Reply.flag h.enabled_eq.symm
  case enable_failed =>
    intro hfailed
    have hdevice : (Operation.enableIrq.run d).device = d.enableIrq.2 := rfl
    rcases d.enableIrq_cases with ⟨e, he⟩ | ⟨-, -, he⟩
    · rw [hdevice, he]
    · rw [henable, he] at hfailed
      exact absurd rfl hfailed
  case notEnabled_iff =>
    rw [hdisable, disableIrq_fst, holdsWorker]
    cases d.worker <;> simp [Reply.ofExcept]
  case disabled =>
    rw [hgone]
    rcases d.disableIrq_cases with ⟨habsent, hd⟩ | ⟨-, hd⟩ <;> rw [hd]
    · refine ⟨habsent, h.enabled_eq.trans ?_⟩
      simp [holdsWorker, habsent]
    · exact ⟨rfl, rfl⟩
  all_goals
    rw [henable, enableIrq_fst]
    cases d.holdsWorker <;> cases d.initialized <;> simp [Reply.ofExcept]

theorem housed_of_reachable {d : Device σ} (h : d.Reachable) : d.Housed :=
  h.induction housed_create housed_move

/-! ### A start with an interrupt pending -/

/-- The first thing that a look of an armed worker does with an interrupt for a sink is to call
it. -/
theorem deliveries_settle {d : Device ScriptedSink} (harmed : d.isArmed = true)
    (hpending : Interrupt.isPending d.regs.iir = true) (hsink : d.sink.isSome = true) :
    ∃ x xs, d.settle.deliveries = x :: xs ∧ x.line = d.line ∧ x.iir = d.regs.iir := by
  obtain ⟨-, -, hstop⟩ := isArmed_iff.mp harmed
  obtain ⟨sink, hs⟩ := Option.isSome_iff_exists.mp hsink
  rcases capture_cases hstop with ⟨sink', -, -, hc⟩ | ⟨hnone, -⟩ | ⟨hidle, -⟩
  · have hsettle : d.settle.deliveries =
        d.wake.deliveries ++ (d.wake.device.settleWithin d.scriptsLeft).deliveries := by
      rw [settle, settleWithin, if_pos harmed]
    rw [hsettle, wake_of_deliver hc]
    exact ⟨_, _, rfl, rfl, rfl⟩
  · rw [hs] at hnone
    cases hnone
  · rw [hpending] at hidle
    cases hidle

/-- A worker that is started while an interrupt is pending calls the attached sink at once. -/
theorem deliveries_enableIrq {d : Device ScriptedSink} (hd : d.Reachable)
    (hdone : (d.step .enableIrq).reply = .done) (hpending : Interrupt.isPending d.regs.iir = true)
    (hsink : d.sink.isSome = true) :
    ∃ x xs, (d.step .enableIrq).deliveries = x :: xs ∧ x.line = d.line ∧ x.iir = d.regs.iir := by
  have hident : d.regs.iir = d.regs.ident := identified_of_reachable hd
  have hstarted : (Operation.enableIrq.run d).device = d.started.refresh := by
    rcases d.enableIrq_cases with ⟨e, he⟩ | ⟨-, -, he⟩
    · have hreply : (d.step .enableIrq).reply = .ofExcept (fun _ => .done) d.enableIrq.1 := rfl
      rw [hreply, he] at hdone
      cases hdone
    · exact congrArg Prod.snd he
  have harmed : d.started.refresh.isArmed = true := by
    refine isArmed_iff.mpr ⟨rfl, ?_, rfl⟩
    simp [refresh, started, ← hident, hpending]
  have hiir : d.started.refresh.regs.iir = d.regs.iir := hident.symm
  have hdeliveries : (d.step .enableIrq).deliveries = d.started.refresh.settle.deliveries := by
    rw [← hstarted]
    rfl
  obtain ⟨x, xs, hx, hline, hxiir⟩ := deliveries_settle harmed (hiir ▸ hpending) hsink
  exact ⟨x, xs, hdeliveries.trans hx, hline, hxiir.trans hiir⟩

end Device

namespace Session

/-! ### Sessions -/

/-- What a session may rely on about the worker of the device at a place, after some steps. -/
structure Regular (counting : Bool) (place : Nat) (steps : List Step) : Prop where
  /-- The turns that concern the sink are those that the answers of the session tell. -/
  told : ((empty counting).log place steps).filterMap Turn.notice? =
    ((empty counting).notices place steps).filter (· ≠ .attached)
  /-- After a crash, a request to end or the loss of the line, nothing is delivered before the next
  start. -/
  silent {before between rest : List Turn} {t : Turn} {line iir : UInt8} :
    (empty counting).log place steps =
      before ++ t :: between ++ .delivered line iir :: rest →
    t.isEnd = true → .started ∈ between
  /-- After a crash, no worker is started before it was asked to end. -/
  disabled {before between rest : List Turn} :
    (empty counting).log place steps = before ++ .crashed :: between ++ .started :: rest →
    .disabled ∈ between
  /-- Meanwhile no delivery is counted, though what was counted may be forgotten. -/
  uncounted {before since : List Turn} {t : Turn} {d : Device ScriptedSink} {more : List Step} :
    (empty counting).log place steps = before ++ t :: since → t.isEnd = true →
    .started ∉ since → ((empty counting).after steps).system.devices[place]? = some d →
    .started ∉ ((empty counting).after steps).log place more →
    ∃ e, (((empty counting).after steps).after more).system.devices[place]? = some e ∧
      (e.metrics.interrupts = d.metrics.interrupts ∨ e.metrics.interrupts = 0)
  /-- Disabling a worker that is held reports exactly whether the sink has crashed. -/
  panicked_iff {d : Device ScriptedSink} :
    ((empty counting).after steps).system.devices[place]? = some d → d.holdsWorker = true →
    ((d.step .disableIrq).reply = .failed (.workerPanicked d.line) ↔
      CrashedSince ((empty counting).log place steps))
  /-- A worker that is started while an interrupt is pending calls the attached sink. -/
  delivered {d : Device ScriptedSink} :
    ((empty counting).after steps).system.devices[place]? = some d →
    (d.step .enableIrq).reply = .done → Interrupt.isPending d.regs.iir = true →
    d.sink.isSome = true →
    ∃ x xs, (d.step .enableIrq).deliveries = x :: xs ∧ x.line = d.line ∧ x.iir = d.regs.iir

theorem exists_course {counting : Bool} {place : Nat} {steps : List Step} {t : Turn}
    (h : t ∈ (empty counting).log place steps) :
    ∃ w up up', Course .absent up ((empty counting).log place steps) w up' := by
  have hfollows := follows_after_empty counting place steps
  cases hd : ((empty counting).after steps).system.devices[place]? with
  | some d =>
    obtain ⟨up, hcourse⟩ := hfollows.course hd
    exact ⟨_, up, _, hcourse⟩
  | none =>
    rw [hfollows.absent hd] at h
    cases h

theorem regular (counting : Bool) (place : Nat) (steps : List Step) :
    Regular counting place steps where
  told := (empty counting).notice?_log place steps
  silent {before between rest t line iir} hlog ht := by
    obtain ⟨w, up, up', hcourse⟩ := exists_course (t := t) (by rw [hlog]; simp)
    rw [hlog] at hcourse
    exact hcourse.silent_after ht
  disabled {before between rest} hlog := by
    obtain ⟨w, up, up', hcourse⟩ := exists_course (t := .crashed) (by rw [hlog]; simp)
    rw [hlog] at hcourse
    exact hcourse.disabled_mem
  uncounted {before since t d more} hlog ht hsince hd hmore := by
    obtain ⟨up, hcourse⟩ := (follows_after_empty counting place steps).course hd
    rw [hlog] at hcourse
    exact interrupts_after hd (hcourse.ne_alive_since ht hsince) hmore
  panicked_iff {d} hd hheld := by
    obtain ⟨up, hcourse⟩ := (follows_after_empty counting place steps).course hd
    have hne : d.worker ≠ .absent := by simpa [Device.holdsWorker] using hheld
    have hreply : (d.step .disableIrq).reply = .ofExcept (fun _ => .done) d.disableIrq.1 := rfl
    rw [← hcourse.dead_iff hne, hreply, Device.disableIrq_fst]
    cases d.worker <;> simp [Reply.ofExcept]
  delivered hd hdone hpending hsink :=
    Device.deliveries_enableIrq (reachable_of_mem (List.mem_of_getElem? hd)) hdone hpending hsink

end Session

/-- **The life of a virtual interrupt.** On every reachable device, whatever its sinks are and also
in the middle of a delivery, but with nobody disabling or removing it from inside a delivery of its
own, a worker is held exactly if the device shows it; it can be enabled exactly if none is held and
the device is initialized; and disabling leaves none, failing for want of one exactly if none was
held. The devices of a session are reachable, and a session may rely on
the rest: after a crash, a request to end or the loss of the line, nothing is delivered or counted
before the next start, which after a crash takes a request to end; that request reports the crash;
and the start delivers what is pending. -/
theorem virtualIrq_of_reachable :
    (∀ {σ : Type} (d : Device σ), d.Reachable → d.Answers) ∧
    ∀ counting steps,
      (∀ d ∈ ((Session.empty counting).after steps).system.devices, d.Reachable) ∧
      ∀ place, Session.Regular counting place steps :=
  ⟨fun _ hd => (Device.housed_of_reachable hd).answers, fun counting steps =>
    ⟨fun _ hd => Session.reachable_of_mem hd, fun place => Session.regular counting place steps⟩⟩

/-- A sink crashes as a byte arrives. Disabling reports it, and enabling after that tells the sink
of the byte once more. -/
theorem virtualIrq_of_crash :
    let steps : List Session.Step := [
      .table (.add 0), .onHandle 0 (.attach [[.access (.read Offset.data), .crash]]),
      .onHandle 0 .enableIrq, .onHandle 0 (.access (.write Offset.interruptEnable 0x01)),
      .onHandle 0 (.access (.inject [0x41, 0x42]))]
    (∃ d, ((Session.empty true).after steps).system.devices[0]? = some d ∧
      d.snapshot.virqEnabled = true ∧
      (d.step .disableIrq).reply = .failed (.workerPanicked d.line)) ∧
    ∃ d, ((Session.empty true).after (steps ++ [.onHandle 0 .disableIrq])).system.devices[0]? =
        some d ∧
      (d.step .enableIrq).reply = .done ∧
      ∃ x xs, (d.step .enableIrq).deliveries = x :: xs ∧ x.iir = d.regs.iir := by
  intro steps
  have hlog : (Session.empty true).log 0 steps = [.started, .delivered 0 0xC4, .crashed] := by
    decide +kernel
  have hheld : ((Session.empty true).after steps).system.devices[0]?.map (·.holdsWorker) =
      some true := by decide +kernel
  have hfree : ((Session.empty true).after
      (steps ++ [.onHandle 0 .disableIrq])).system.devices[0]?.map (fun d =>
        (d.holdsWorker, d.initialized, Interrupt.isPending d.regs.iir, d.sink.isSome)) =
      some (false, true, true, true) := by decide +kernel
  clear_value steps
  obtain ⟨hanswers, hsession⟩ := virtualIrq_of_reachable
  refine ⟨?_, ?_⟩
  · obtain ⟨d, hd, hheld⟩ := Option.map_eq_some_iff.mp hheld
    obtain ⟨hreachable, hregular⟩ := hsession true steps
    have hdevice := hanswers d (hreachable d (List.mem_of_getElem? hd))
    have hcrashed : CrashedSince ((Session.empty true).log 0 steps) := by
      rw [hlog]
      exact ⟨[.started, .delivered 0 0xC4], [], rfl, by simp⟩
    exact ⟨d, hd, hdevice.holdsWorker_eq ▸ hheld,
      ((hregular 0).panicked_iff hd hheld).mpr hcrashed⟩
  · obtain ⟨d, hd, hfacts⟩ := Option.map_eq_some_iff.mp hfree
    simp only [Prod.mk.injEq] at hfacts
    obtain ⟨hheld, hup, hpending, hsink⟩ := hfacts
    obtain ⟨hreachable, hregular⟩ := hsession true (steps ++ [.onHandle 0 .disableIrq])
    have hdevice := hanswers d (hreachable d (List.mem_of_getElem? hd))
    have hdone : (d.step .enableIrq).reply = .done := hdevice.enabled_iff.mpr ⟨hheld, hup⟩
    obtain ⟨x, xs, hx, -, hiir⟩ := (hregular 0).delivered hd hdone hpending hsink
    exact ⟨d, hd, hdone, x, xs, hx, hiir⟩

end Uart16550
