import Uart16550.Proofs.Trail

/-!
# No interrupt is lost and none is left stale

A worker that is at rest has told its sink of whatever is pending: since the sink was attached and
the worker started it has delivered at least once, and the last time exactly the identification that
the register holds now. A single bit stands between the two: it is raised by every refresh that
finds an interrupt pending, taken back by a look of the worker, and forgotten as a worker ends.

The invariant is `Informed`: unless the bit is up, what is pending for an attached sink of a living
worker is what the last notice was about. It does not speak of what happens between a refresh and
the next look, and so a handler may do anything between a delivery and its end.
-/

namespace Uart16550

variable {σ : Type}

/-- The identifications that were delivered since a sink was attached or a worker started last. -/
def deliveredSince (ns : List Notice) : List UInt8 :=
  ns.foldl (fun iirs n =>
    match n with
    | .delivered _ iir => iirs ++ [iir]
    | .attached | .enabled => []) []

/-- If the last notice is a delivery, then it is the last of those since the start. -/
theorem getLast?_deliveredSince {ns : List Notice} {line iir : UInt8}
    (h : ns.getLast? = some (.delivered line iir)) : (deliveredSince ns).getLast? = some iir := by
  obtain ⟨init, rfl⟩ := List.getLast?_eq_some_iff.mp h
  rw [deliveredSince, List.foldl_append]
  exact List.getLast?_concat

namespace Device

/-! ### The worker and its device agree -/

/-- The two places in which a worker is held agree, and nobody has asked it to end. -/
structure Housed (d : Device σ) : Prop where
  enabled_eq : d.virq.enabled = d.holdsWorker
  not_stop : d.virq.stop = false

theorem Housed.of_lifecycle {d e : Device σ} (h : d.Housed)
    (hlife : e.lifecycle = d.lifecycle ∨ e.lifecycle = d.detach.lifecycle) : e.Housed := by
  have hworker : e.worker = d.worker := by
    rcases hlife with hl | hl <;> exact congrArg Lifecycle.worker hl
  have henabled : e.virq.enabled = d.virq.enabled := by
    rcases hlife with hl | hl <;> exact congrArg Lifecycle.irqEnabled hl
  have hstop : e.virq.stop = d.virq.stop := by
    rcases hlife with hl | hl <;> exact congrArg Lifecycle.stopping hl
  exact ⟨by rw [henabled, h.enabled_eq, holdsWorker, holdsWorker, hworker], hstop.trans h.not_stop⟩

/-- Every move keeps the two places in agreement. -/
theorem housed_move (d : Device σ) (m : Move σ) (h : d.Housed) : (m.run d).Housed := by
  cases m with
  | operate op =>
    have hrun : (Move.operate op).run d = (op.run d).device := rfl
    rw [hrun]
    by_cases hop : ∃ a, op = .access a
    · obtain ⟨a, rfl⟩ := hop
      exact h.of_lifecycle (d.lifecycle_access a)
    · rcases d.operate_cases (not_exists.mp hop) with
        ⟨⟨c, m, hd⟩, -⟩ | ⟨sink, rfl⟩ | ⟨hd, -⟩ | ⟨hd, -⟩
      · rw [hd]
        exact ⟨h.enabled_eq, h.not_stop⟩
      · exact ⟨h.enabled_eq, h.not_stop⟩
      · rw [hd]
        exact ⟨rfl, rfl⟩
      · rw [hd]
        exact ⟨rfl, rfl⟩
  | look =>
    simp only [Move.run]
    split
    · rcases capture_cases h.not_stop with ⟨_, -, -, hc⟩ | ⟨-, hc⟩ | ⟨-, hc⟩ <;> rw [hc] <;>
        exact ⟨h.enabled_eq, h.not_stop⟩
    · exact h
  | crashed =>
    simp only [Move.run]
    split
    · next halive =>
      have henabled : d.virq.enabled = true := by rw [h.enabled_eq, holdsWorker, halive]; rfl
      exact ⟨henabled, h.not_stop⟩
    · exact h
  | _ => exact ⟨h.enabled_eq, h.not_stop⟩

theorem housed_create (info : LineInfo) (counting : Bool) :
    (create info counting : Device σ).Housed := ⟨rfl, rfl⟩

/-! ### The sink is informed -/

/-- Unless the worker is about to look again, what is pending for the sink is what it was told
last. -/
def Informed (d : Device σ) (ns : List Notice) : Prop :=
  d.virq.enabled = true → d.worker ≠ .dead → d.virq.signaled = false → d.sink.isSome = true →
    Interrupt.isPending d.regs.iir = true → ns.getLast? = some (.delivered d.line d.regs.iir)

/-- After a refresh nothing is pending, or the worker is about to look. -/
theorem informed_refresh (d : Device σ) (ns : List Notice) : d.refresh.Informed ns := by
  intro henabled _ hsignaled _ hpending
  have hen : d.virq.enabled = true := henabled
  have hpen : Interrupt.isPending d.regs.ident = true := hpending
  simp [refresh, hen, hpen] at hsignaled

theorem informed_create (info : LineInfo) (counting : Bool) :
    (create info counting : Device σ).Informed [] :=
  informed_refresh _ []

/-- A move keeps the sink informed. -/
theorem informed_move {d : Device σ} {ns : List Notice} (h : d.Informed ns) (m : Move σ) :
    (m.run d).Informed (ns ++ m.notices d) := by
  cases m with
  | operate op =>
    have hrun : (Move.operate op).run d = (op.run d).device := rfl
    have hnotices : (Move.operate op).notices d = op.notices (op.run d).reply := rfl
    rw [hrun, hnotices]
    by_cases hop : ∃ a, op = .access a
    · obtain ⟨a, rfl⟩ := hop
      have haccess : (Operation.access a).run d = a.run d := rfl
      have hquiet : (Operation.access a : Operation σ).notices (a.run d).reply = [] := rfl
      rw [haccess, hquiet, List.append_nil]
      -- Whatever has changed a register has also refreshed.
      rcases d.refresh_access a with ha | ha | ⟨e, ha⟩ <;> rw [ha]
      · exact h
      · intro _ _ _ hsink
        cases hsink
      · exact informed_refresh e ns
    · rcases d.operate_cases (not_exists.mp hop) with
        ⟨⟨c, m, hd⟩, hn⟩ | ⟨sink, rfl⟩ | ⟨hd, -⟩ | ⟨hd, -⟩
      · rw [hn, List.append_nil, hd]
        exact h
      · exact informed_refresh _ _
      · rw [hd]
        exact informed_refresh _ _
      · rw [hd]
        intro henabled
        cases henabled
  | look =>
    by_cases harmed : d.isArmed = true
    · obtain ⟨-, -, hstop⟩ := isArmed_iff.mp harmed
      simp only [Move.run, Move.notices, harmed, if_true]
      -- Only a look takes the bit back, and it delivers whatever is pending for a sink.
      rcases capture_cases hstop with ⟨sink, -, -, hc⟩ | ⟨hs, hc⟩ | ⟨hp, hc⟩ <;> simp only [hc]
      · intro _ _ _ _ _
        exact List.getLast?_concat
      · intro _ _ _ hsink _
        have hnone : d.disarm.sink = none := hs
        rw [hnone] at hsink
        cases hsink
      · intro _ _ _ _ hpending
        have hidle : Interrupt.isPending (d.disarm.record .spuriousWakeup).regs.iir = false := hp
        rw [hidle] at hpending
        cases hpending
    · simp only [Move.run, Move.notices, harmed, Bool.false_eq_true, if_false, List.append_nil]
      exact h
  | crashed =>
    have hquiet : Move.crashed.notices d = [] := rfl
    rw [hquiet, List.append_nil, Move.run]
    split
    · intro _ hworker
      exact absurd rfl hworker
    · exact h
  | advance sink =>
    have hquiet : (Move.advance sink).notices d = [] := rfl
    rw [hquiet, List.append_nil]
    intro henabled hworker hsignaled hsink hpending
    have hsome : d.sink.isSome = true := by simpa [Move.run] using hsink
    exact h henabled hworker hsignaled hsome hpending
  | handled =>
    have hquiet : Move.handled.notices d = [] := rfl
    rw [hquiet, List.append_nil]
    exact h
  | list registered =>
    have hquiet : (Move.list registered).notices d = [] := rfl
    rw [hquiet, List.append_nil]
    exact h
  | release =>
    intro _ _ _ hsink
    cases hsink

/-- A run keeps the sink informed. -/
theorem Informed.leads {d e : Device σ} {ns os : List Notice} {flushes : List Flush}
    (h : d.Informed ns) (hleads : d.Leads e flushes os) : e.Informed (ns ++ os) := by
  obtain ⟨ms, rfl, -, rfl⟩ := hleads
  induction ms generalizing d ns with
  | nil => simpa using h
  | cons m ms ih =>
    rw [chronicle_cons, after_cons, ← List.append_assoc]
    exact ih (informed_move h m)

theorem Housed.leads {d e : Device σ} {ns : List Notice} {flushes : List Flush}
    (h : d.Housed) (hleads : d.Leads e flushes ns) : e.Housed := by
  obtain ⟨ms, rfl, -, -⟩ := hleads
  exact after_of_keeps housed_move h ms

end Device

namespace Session

/-- **No interrupt is lost and none is left stale.** After any sequence of steps, take any device
whose worker is started and alive. The worker has nothing left to do; and if an interrupt is pending
and a sink attached, then the sink was told of interrupts since it was attached and the worker
started, and the last time of exactly the one that is pending now. -/
theorem delivered_of_pending (counting : Bool) (steps : List Step) {place : Nat}
    {d : Device ScriptedSink}
    (hd : ((empty counting).after steps).system.devices[place]? = some d)
    (henabled : d.virq.enabled = true) (hworker : d.worker ≠ .dead) :
    d.virq.signaled = false ∧
      (d.sink.isSome = true → Interrupt.isPending d.regs.iir = true →
        (deliveredSince ((empty counting).notices place steps)).getLast? = some d.regs.iir) := by
  have hcomes := comes_after_empty counting place steps
  obtain ⟨info, counting', flushes, hleads⟩ := hcomes.leads hd
  have hhoused : d.Housed := (Device.housed_create info counting').leads hleads
  have hinformed : d.Informed ((empty counting).notices place steps) :=
    (Device.informed_create info counting').leads hleads
  -- A worker that is started and not dead is alive, and at rest it is not about to look.
  have halive : d.worker = .alive := by
    have hholds : d.holdsWorker = true := hhoused.enabled_eq ▸ henabled
    cases hw : d.worker with
    | alive => rfl
    | absent => simp [Device.holdsWorker, hw] at hholds
    | dead => exact absurd hw hworker
  have hidle : d.virq.signaled = false := by
    have hrest := hcomes.rests hd
    simpa [Device.isArmed, halive, hhoused.not_stop] using hrest
  exact ⟨hidle, fun hsink hpending =>
    getLast?_deliveredSince (hinformed henabled hworker hidle hsink hpending)⟩

/-- A byte arrives for a sink whose handler injects another: after two deliveries the sink was told
last of what is pending. -/
theorem delivered_of_injected :
    let steps : List Step := [
      .table (.add 0), .onHandle 0 (.attach [[.access (.inject [0x42])]]), .onHandle 0 .enableIrq,
      .onHandle 0 (.access (.write Offset.interruptEnable 0x01)),
      .onHandle 0 (.access (.inject [0x41]))]
    ∃ d, ((empty true).after steps).system.devices[0]? = some d ∧ d.virq.enabled = true ∧
      d.worker ≠ .dead ∧ d.sink.isSome = true ∧ Interrupt.isPending d.regs.iir = true ∧
      d.virq.signaled = false ∧
      (deliveredSince ((empty true).notices 0 steps)).getLast? = some d.regs.iir := by
  intro steps
  have hfacts : ((empty true).after steps).system.devices[0]?.map (fun d =>
      (d.virq.enabled, d.worker, d.sink.isSome, Interrupt.isPending d.regs.iir)) =
        some (true, .alive, true, true) := by decide +kernel
  clear_value steps
  obtain ⟨d, hd, hfacts⟩ := Option.map_eq_some_iff.mp hfacts
  simp only [Prod.mk.injEq] at hfacts
  obtain ⟨henabled, halive, hsink, hpending⟩ := hfacts
  have hworker : d.worker ≠ .dead := by simp [halive]
  obtain ⟨hidle, htold⟩ := delivered_of_pending true steps hd henabled hworker
  exact ⟨d, hd, henabled, hworker, hsink, hpending, hidle, htold hsink hpending⟩

end Session

end Uart16550
