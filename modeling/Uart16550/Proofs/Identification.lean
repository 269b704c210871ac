import Uart16550.Proofs.Trail

/-!
# The interrupt identification is never stale

Interrupt enable and line status change in many places, and the identification register holds a
function of the two. In every reachable state it holds the right value (`identified_of_reachable`),
because an access that changes anything ends in a refresh, and so does every other operation that
touches the registers. What the register says is the highest-ranking condition that is met and
enabled, so a read returns the cause that held just before it and a sink is only ever called for an
interrupt that is pending as the worker looks. In a session, `Session.FoundAt` says of a delivery
which look that was, on which device and on the way from which step.
-/

namespace Uart16550

/-! ### Ranks -/

/-- The causes, highest rank first. -/
def Cause.ranked : List Cause := [.lineStatus, .receivedData, .transmitterEmpty]

/-- Whether a condition is met and enabled. -/
def RegisterBank.raises (r : RegisterBank) : Cause → Bool
  | .lineStatus => hasBit r.ier InterruptEnable.lineStatus && r.lsr.hasError
  | .receivedData => hasBit r.ier InterruptEnable.receivedData && r.lsr.dataReady
  | .transmitterEmpty => hasBit r.ier InterruptEnable.transmitterEmpty && r.lsr.holdingEmpty

/-- The cause is the first by rank of the conditions that are met and enabled. -/
theorem RegisterBank.cause_eq_find? (r : RegisterBank) : r.cause = Cause.ranked.find? r.raises := by
  simp only [cause, Cause.ranked, List.find?_cons, List.find?_nil, raises]
  cases hasBit r.ier InterruptEnable.lineStatus && r.lsr.hasError <;>
    cases hasBit r.ier InterruptEnable.receivedData && r.lsr.dataReady <;>
      cases hasBit r.ier InterruptEnable.transmitterEmpty && r.lsr.holdingEmpty <;> rfl

variable {σ : Type}

namespace Device

/-! ### The register is up to date -/

/-- The identification register holds what belongs to the present registers. -/
def Identified (d : Device σ) : Prop := d.regs.iir = d.regs.ident

theorem identified_refresh (d : Device σ) : d.refresh.Identified := rfl

theorem Identified.of_regs {d e : Device σ} (h : d.Identified) (he : e.regs = d.regs) :
    e.Identified := by
  rw [Identified, he]
  exact h

/-- Every move keeps the identification up to date. -/
theorem identified_move (d : Device σ) (m : Move σ) (h : d.Identified) : (m.run d).Identified := by
  cases m with
  | operate op =>
    have hrun : (Move.operate op).run d = (op.run d).device := rfl
    rw [hrun]
    by_cases hop : ∃ a, op = .access a
    · obtain ⟨a, rfl⟩ := hop
      have haccess : (Operation.access a).run d = a.run d := rfl
      rw [haccess]
      -- An access that changes a register ends in a refresh, on every path through it.
      rcases d.refresh_access a with ha | ha | ⟨e, ha⟩ <;> rw [ha]
      · exact h
      · exact h
      · exact identified_refresh e
    · rcases d.operate_cases (not_exists.mp hop) with
        ⟨⟨c, m, hd⟩, -⟩ | ⟨sink, rfl⟩ | ⟨hd, -⟩ | ⟨hd, -⟩
      · rw [hd]
        exact h
      · exact identified_refresh _
      · rw [hd]
        exact identified_refresh _
      · rw [hd]
        exact h
  | release => exact h
  | _ => exact h.of_regs (d.run_keeps (by simp) (by simp)).1

theorem identified_of_reachable {d : Device σ} (h : d.Reachable) : d.Identified :=
  h.induction (fun _ _ => identified_refresh _) identified_move

/-! ### Reads and deliveries -/

/-- Whether an access reads the interrupt identification register: a read at offset 2 of an
initialized device, whatever the divisor latch access bit. -/
def isIdentRead (d : Device σ) : Access → Bool
  | .read offset | .input offset => d.initialized && offset == 2
  | _ => false

/-- A read of the identification register answers with what is stored. -/
theorem run_identRead {d : Device σ} {a : Access} (h : d.isIdentRead a = true) :
    (a.run d).reply = .byte d.regs.iir := by
  have hread (hi : d.initialized = true) : (d.read 2).1 = .ok d.regs.iir := by
    rw [read, if_pos hi]
    rfl
  cases a with
  | read offset =>
    simp only [isIdentRead, Bool.and_eq_true, beq_iff_eq] at h
    obtain ⟨hi, rfl⟩ := h
    simp only [Access.run, Outcome.ofResult, hread hi, Reply.ofExcept]
  | input offset =>
    simp only [isIdentRead, Bool.and_eq_true, beq_iff_eq] at h
    obtain ⟨hi, rfl⟩ := h
    have hin : (d.input 2).1 = d.regs.iir := by
      have hfst := hread hi
      rcases hr : d.read 2 with ⟨r, e⟩
      rw [hr] at hfst
      simp only at hfst
      simp only [input, hr, hfst]
    simp only [Access.run, hin]
  | _ => cases h

/-- What a look finds for a sink is the stored identification, and an interrupt is pending. -/
theorem capture_deliver {d : Device σ} {iir : UInt8} {sink : σ}
    (h : d.capture.1 = .deliver iir sink) :
    iir = d.regs.iir ∧ Interrupt.isPending iir = true := by
  cases hstop : d.virq.stop with
  | true =>
    simp only [capture, hstop, if_true] at h
    cases h
  | false =>
    rcases capture_cases hstop with ⟨s, hp, -, hc⟩ | ⟨-, hc⟩ | ⟨-, hc⟩ <;> rw [hc] at h <;> cases h
    exact ⟨rfl, hp⟩

end Device

namespace Session

/-! ### Sessions -/

/-- Every answer is that of a step after the steps before it. -/
theorem getElem?_run (s : Session) (steps : List Step) (i : Nat) :
    (s.run steps)[i]? = steps[i]?.map fun st => ((s.after (steps.take i)).step st).1 := by
  induction steps generalizing s i with
  | nil => simp [run]
  | cons st steps ih =>
    cases i with
    | zero => rfl
    | succ i => exact ih (s.step st).2 i

/-- Every device of a session is reachable. -/
theorem reachable_of_mem {counting : Bool} {steps : List Step} {d : Device ScriptedSink}
    (h : d ∈ ((empty counting).after steps).system.devices) : d.Reachable := by
  obtain ⟨place, hplace⟩ := List.mem_iff_getElem?.mp h
  have hcomes := comes_after_empty counting place steps
  obtain ⟨info, counting', -, ms, hms, -, -⟩ := hcomes.leads hplace
  exact ⟨info, counting', ms, hms.symm⟩

/-- The delivery was found by a look at this device: the step performs an operation on a device of
the session, and this is how the worker of that device finds it on the way to rest. -/
structure FoundAt (s : Session) (st : Step) (x : Delivery) (c : Device ScriptedSink) : Prop where
  on_way : ∃ place op d ls e, s.aim st = some (place, op) ∧ s.system.devices[place]? = some d ∧
    (op.run d).device.Rests ls e ∧ (s.step st).2.system.devices[place]? = some e ∧ c ∈ ls
  isArmed_eq : c.isArmed = true
  line_eq : c.line = x.line
  /-- The sink is told what the look has found. -/
  capture_eq : ∃ sink, c.capture.1 = .deliver x.iir sink

/-- **Every delivery that a step tells of was found by a look** at the device of the step. -/
theorem exists_foundAt {counting : Bool} {steps : List Step} {st : Step} {x : Delivery}
    (hx : x ∈ (((empty counting).after steps).step st).1.deliveries) :
    ∃ c, c.Reachable ∧ ((empty counting).after steps).FoundAt st x c := by
  cases haim : ((empty counting).after steps).aim st with
  | none =>
    rw [(step_unaimed haim).2.2] at hx
    cases hx
  | some aimed =>
    obtain ⟨place, op⟩ := aimed
    obtain ⟨d, hd, hdevices, -, -, hdeliveries⟩ := step_aimed haim
    obtain ⟨ls, hrests, -, hlooks⟩ := (op.run d).device.exists_rests (Nat.lt_succ_self _)
    have hfound : (d.step op).deliveries = ls.flatMap (·.wake.deliveries) := hlooks
    rw [hdeliveries, hfound] at hx
    obtain ⟨c, hc, harmed, hline, hcapture⟩ := hrests.exists_look hx
    have hreachable : d.Reachable := reachable_of_mem (List.mem_of_getElem? hd)
    have hrest : (((empty counting).after steps).step st).2.system.devices[place]? =
        some (d.step op).device := by simp [hdevices, hd]
    exact ⟨c, (hrests.reachable (hreachable.after [.operate op])).1 c hc,
      ⟨place, op, d, ls, _, haim, hd, hrests, hrest, hc⟩, harmed, hline, hcapture⟩

end Session

/-- **The interrupt identification is never stale.** On every reachable device the stored
identification belongs to the present registers and names the highest-ranking condition that is met
and enabled. So a read of it returns the cause that held just before the read, and what a look of
the worker finds for a sink is pending and belongs to the registers at that moment. The devices of a
session are reachable, and each delivery of a session was found by a look of the worker of the very
device on which its step was performed, and belongs to the registers of that device as the worker
looked. -/
theorem ident_of_reachable :
    (∀ {σ : Type} (d : Device σ), d.Reachable →
      d.regs.iir = d.regs.ident ∧
      Cause.ofIdent d.regs.iir = Cause.ranked.find? d.regs.raises ∧
      (∀ a, d.isIdentRead a = true → ∃ iir, (a.run d).reply = .byte iir ∧ iir = d.regs.ident ∧
        Cause.ofIdent iir = Cause.ranked.find? d.regs.raises) ∧
      d.capture.2.regs.iir = d.capture.2.regs.ident ∧
      ∀ iir sink, d.capture.1 = .deliver iir sink →
        Interrupt.isPending iir = true ∧ iir = d.capture.2.regs.ident) ∧
    ∀ counting steps,
      (∀ d ∈ ((Session.empty counting).after steps).system.devices, d.Reachable) ∧
      ∀ i answer, ((Session.empty counting).run steps)[i]? = some answer →
        ∃ st, steps[i]? = some st ∧ ∀ x ∈ answer.deliveries,
          ∃ c, ((Session.empty counting).after (steps.take i)).FoundAt st x c ∧ c.Reachable ∧
            Interrupt.isPending x.iir = true ∧ x.iir = c.regs.ident := by
  refine ⟨fun {σ} d hd => ?_, fun counting steps => ⟨fun d hd => Session.reachable_of_mem hd,
    fun i answer ha => ?_⟩⟩
  case refine_2 =>
    rw [Session.getElem?_run] at ha
    obtain ⟨st, hst, rfl⟩ := Option.map_eq_some_iff.mp ha
    refine ⟨st, hst, fun x hx => ?_⟩
    obtain ⟨c, hc, hfound⟩ := Session.exists_foundAt hx
    obtain ⟨sink, hcapture⟩ := hfound.capture_eq
    obtain ⟨hiir, hpending⟩ := Device.capture_deliver hcapture
    exact ⟨c, hfound, hc, hpending, hiir.trans (Device.identified_of_reachable hc)⟩
  have hident : d.regs.iir = d.regs.ident := Device.identified_of_reachable hd
  have hcause : Cause.ofIdent d.regs.iir = Cause.ranked.find? d.regs.raises := by
    rw [hident, RegisterBank.ofIdent_ident, RegisterBank.cause_eq_find?]
  have hregs : d.capture.2.regs = d.regs := d.capture_keeps.1
  refine ⟨hident, hcause, fun a ha => ⟨d.regs.iir, Device.run_identRead ha, hident, hcause⟩,
    by rw [hregs, hident], fun iir sink hc => ?_⟩
  obtain ⟨hiir, hpending⟩ := Device.capture_deliver hc
  exact ⟨hpending, by rw [hiir, hregs, hident]⟩

/-- A byte arrives for an attached sink: the register names it, and so does the delivery, which the
worker of the line's device has found on the way to rest. -/
theorem ident_of_received_byte :
    let arrival : Session.Step := .onHandle 0 (.access (.inject [0x41]))
    let before : List Session.Step := [
      .table (.add 0), .onHandle 0 (.attach []), .onHandle 0 .enableIrq,
      .onHandle 0 (.access (.write Offset.interruptEnable 0x01))]
    let s := (Session.empty true).after before
    s.aim arrival = some (0, .access (.inject [0x41])) ∧
    (∃ d ∈ (s.step arrival).2.system.devices,
      Cause.ranked.find? d.regs.raises = some .receivedData ∧
      ∃ iir, ((Access.read 2).run d).reply = .byte iir ∧ Cause.ofIdent iir = some .receivedData) ∧
    ∃ x c, (s.step arrival).1.deliveries = [x] ∧ s.FoundAt arrival x c ∧ x.line = 0 ∧
      Cause.ofIdent x.iir = some .receivedData ∧ Interrupt.isPending x.iir = true ∧
      x.iir = c.regs.ident := by
  intro arrival before s
  have haim : s.aim arrival = some (0, .access (.inject [0x41])) := by decide +kernel
  have hdevice : (s.step arrival).2.system.devices[0]?.map (fun d =>
      (d.isIdentRead (.read 2), Cause.ranked.find? d.regs.raises)) =
        some (true, some .receivedData) := by decide +kernel
  have hdeliveries : (s.step arrival).1.deliveries =
      [{ line := 0, iir := 0xC4, replies := [] }] := by decide +kernel
  have hsteps : (before ++ [arrival])[4]? = some arrival := rfl
  have hafter : (Session.empty true).after (before ++ [arrival]) = (s.step arrival).2 := rfl
  have hrun : ((Session.empty true).run (before ++ [arrival]))[4]? = some (s.step arrival).1 := rfl
  obtain ⟨hgeneral, hsession⟩ := ident_of_reachable
  obtain ⟨hreachable, hfound⟩ := hsession true (before ++ [arrival])
  refine ⟨haim, ?_, ?_⟩
  · obtain ⟨d, hd, hfacts⟩ := Option.map_eq_some_iff.mp hdevice
    obtain ⟨hread, hcause⟩ := Prod.mk.inj hfacts
    have hmem := List.mem_of_getElem? hd
    obtain ⟨-, -, hreply, -⟩ := hgeneral d (hreachable d (hafter ▸ hmem))
    obtain ⟨iir, hbyte, -, hiir⟩ := hreply _ hread
    exact ⟨d, hmem, hcause, iir, hbyte, hiir.trans hcause⟩
  · obtain ⟨st, hst, hall⟩ := hfound 4 _ hrun
    obtain rfl := Option.some.inj (hsteps.symm.trans hst)
    obtain ⟨c, hc, -, hpending, hiir⟩ :=
      hall _ (by rw [hdeliveries]; exact List.mem_singleton_self _)
    exact ⟨_, c, hdeliveries, hc, rfl, by decide, hpending, hiir⟩

end Uart16550
