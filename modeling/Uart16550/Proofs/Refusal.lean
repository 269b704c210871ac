import Uart16550.Proofs.Identification
import Uart16550.Proofs.Removal

/-!
# Operations that fail

`Operation.refusal` says which operations a device refuses and why, with the order in which the
reasons are looked for: a removed device refuses before it looks at an offset or at the length of a
batch, but after it has looked at a threshold or at its worker.

What a refusal leaves behind depends on the error alone (`run_of_failed`). Nearly always it is the
device as it was. An access that no register answers goes on to derive the interrupt identification,
which changes nothing because the identification is never stale, so that one count and the armed
worker are all that is left of it. Who asks a dead worker to end is told of its death, and the
worker is gone all the same.

* `refused_of_reachable`: on every reachable device a failed operation leaves the state as it was.
-/

namespace Uart16550

/-! ### Offsets that no register answers -/

/-- Every offset below eight can be read, and no other. -/
theorem ReadRegister.decode_cases (offset : UInt8) (divisorAccess : Bool) :
    (offset < 8 ∧ ∃ register, ReadRegister.decode offset divisorAccess = .ok register) ∨
      ¬offset < 8 ∧
        ReadRegister.decode offset divisorAccess = .error (.undefinedRegister offset) := by
  have hlt : offset < 8 ↔ offset.toNat < 8 := UInt8.lt_iff_toNat_lt
  rw [hlt, decode]
  split
  case h_9 =>
    refine Or.inr ⟨?_, rfl⟩
    simp only [imp_false] at *
    omega
  all_goals exact Or.inl ⟨by omega, _, rfl⟩

/-- So it is with writes, except for the two status registers. -/
theorem WriteRegister.decode_cases (offset : UInt8) (divisorAccess : Bool) :
    ((offset = 5 ∨ offset = 6) ∧
      WriteRegister.decode offset divisorAccess = .error (.readOnlyRegister offset)) ∨
    (¬(offset = 5 ∨ offset = 6) ∧ offset < 8 ∧
      ∃ register, WriteRegister.decode offset divisorAccess = .ok register) ∨
    ¬(offset = 5 ∨ offset = 6) ∧ ¬offset < 8 ∧
      WriteRegister.decode offset divisorAccess = .error (.undefinedRegister offset) := by
  have hlt : offset < 8 ↔ offset.toNat < 8 := UInt8.lt_iff_toNat_lt
  have h5 : offset = 5 ↔ offset.toNat = 5 := UInt8.toNat_inj.symm
  have h6 : offset = 6 ↔ offset.toNat = 6 := UInt8.toNat_inj.symm
  rw [hlt, h5, h6, decode]
  split
  case h_9 =>
    refine Or.inr (Or.inr ⟨?_, ?_, rfl⟩) <;>
      · simp only [imp_false] at *
        omega
  case h_6 | h_7 => exact Or.inl ⟨by omega, rfl⟩
  all_goals exact Or.inr (Or.inl ⟨by omega, by omega, _, rfl⟩)

/-- A reply with something else in place of a failure. -/
def Reply.recover (r otherwise : Reply) : Reply :=
  match r with
  | .failed _ => otherwise
  | r => r

variable {σ : Type}

/-! ### Reasons -/

/-- The complaint of a device that was removed from its line. -/
def Device.absence (d : Device σ) : Option Error :=
  if d.initialized then none else some (.notInitialized d.line)

/-- Why a device refuses an operation: the first reason in the order of the checks. -/
def Operation.refusal (d : Device σ) : Operation σ → Option Error
  | .access (.read offset) =>
    d.absence.or (if offset < 8 then none else some (.undefinedRegister offset))
  | .access (.write offset _) =>
    d.absence.or (
      if offset = 5 ∨ offset = 6 then some (.readOnlyRegister offset)
      else if offset < 8 then none
      else some (.undefinedRegister offset))
  | .access (.inject bytes) =>
    d.absence.or (
      if bytes.length ≤ Fifo.capacity then none
      else some (.capacityExceeded bytes.length Fifo.capacity))
  | .access .signalBreak | .unbind => d.absence
  | .bind threshold _ =>
    Option.or
      (if 0 < threshold ∧ threshold ≤ Fifo.capacity then none
        else some (.invalidThreshold threshold))
      d.absence
  | .enableIrq =>
    Option.or (if d.holdsWorker then some (.virtualIrqAlreadyEnabled d.line) else none) d.absence
  | .disableIrq =>
    match d.worker with
    | .absent => some (.virtualIrqNotEnabled d.line)
    | .alive => none
    | .dead => some (.workerPanicked d.line)
  | .access (.input _) | .access (.output _ _) | .access (.flush _) | .access .reset |
    .access .detach | .attach _ | .irqEnabled | .info | .counters | .report | .resetCounters => none

namespace Device

/-- The device after an operation that has failed. -/
def afterFailure (d : Device σ) : Error → Device σ
  | .undefinedRegister _ | .readOnlyRegister _ => d.refresh.record .protocolError
  | .workerPanicked _ => d.stopped
  | _ => d

/-- An outcome is as it should be: a failure for the given reason, or no failure. -/
def Meets (d : Device σ) (o : Outcome σ) : Option Error → Prop
  | some e => o = { reply := .failed e, device := d.afterFailure e, flushes := [] }
  | none => ∀ e, o.reply ≠ .failed e

theorem meets_read (d : Device σ) (offset : UInt8) :
    d.Meets ((Access.read offset).run d) ((Operation.access (.read offset)).refusal d) := by
  simp only [Operation.refusal, absence, Access.run, Outcome.ofResult, read]
  cases d.initialized with
  | false => rfl
  | true =>
    rcases ReadRegister.decode_cases offset d.regs.divisorAccess with ⟨h, r, hr⟩ | ⟨h, hr⟩
    · simp [h, hr, Meets, Reply.ofExcept]
    · simp only [h, hr, if_true, if_false]
      rfl

theorem meets_write (d : Device σ) (offset value : UInt8) :
    d.Meets ((Access.write offset value).run d)
      ((Operation.access (.write offset value)).refusal d) := by
  simp only [Operation.refusal, absence, Access.run, write]
  cases d.initialized with
  | false => rfl
  | true =>
    rcases WriteRegister.decode_cases offset d.regs.divisorAccess with
      ⟨h, hr⟩ | ⟨h, hlt, r, hr⟩ | ⟨h, hlt, hr⟩
    · simp only [h, hr, if_true]
      rfl
    · simp [h, hlt, hr, Meets, Reply.ofExcept]
    · simp only [h, hlt, hr, if_true, if_false]
      rfl

theorem meets_inject (d : Device σ) (bytes : List UInt8) :
    d.Meets ((Access.inject bytes).run d) ((Operation.access (.inject bytes)).refusal d) := by
  simp only [Operation.refusal, absence, Access.run, Outcome.ofResult]
  cases hi : d.initialized with
  | false =>
    simp only [inject, hi]
    rfl
  | true =>
    by_cases hn : bytes.length ≤ Fifo.capacity
    · rw [inject_eq hi hn, if_pos hn]
      split <;> simp [Meets, Reply.ofExcept]
    · have hlong : Fifo.capacity < bytes.length := Nat.not_le.mp hn
      simp only [inject, hi, hlong, hn, Bool.not_true, Bool.false_eq_true, if_true, if_false]
      rfl

theorem meets_bind (d : Device σ) (threshold : Nat) (label : String) :
    d.Meets ((Operation.bind threshold label).run d) ((Operation.bind threshold label).refusal d) := by
  simp only [Operation.refusal, absence, Operation.run, Outcome.ofResult, bind]
  by_cases h : 0 < threshold ∧ threshold ≤ Fifo.capacity
  · have hmake : ∃ c, Consumer.make label threshold = .ok c := ⟨_, dif_pos h⟩
    obtain ⟨c, hc⟩ := hmake
    cases d.initialized with
    | false =>
      simp only [hc, h]
      rfl
    | true => simp [hc, h, Meets, Reply.ofExcept]
  · have hmake : Consumer.make label threshold = .error (.invalidThreshold threshold) := dif_neg h
    simp only [hmake, h, if_false]
    rfl

/-- **Every operation meets its refusal**: it fails for the reason given and leaves what the reason
tells, or it does not fail. -/
theorem meets_run (d : Device σ) (op : Operation σ) : d.Meets (op.run d) (op.refusal d) := by
  cases op with
  | access a =>
    cases a with
    | read offset => exact d.meets_read offset
    | write offset value => exact d.meets_write offset value
    | inject bytes => exact d.meets_inject bytes
    | signalBreak =>
      simp only [Operation.refusal, absence, Operation.run, Access.run, Outcome.ofResult,
        signalBreak]
      cases d.initialized with
      | false => rfl
      | true => cases d.regs.loopback <;> simp [Meets, Reply.ofExcept]
    | _ => simp [Operation.refusal, Operation.run, Access.run, Meets]
  | bind threshold label => exact d.meets_bind threshold label
  | unbind =>
    simp only [Operation.refusal, absence, Operation.run, Outcome.ofResult, unbind]
    cases d.initialized with
    | false => rfl
    | true => simp [Meets, Reply.ofExcept]
  | enableIrq =>
    simp only [Operation.refusal, absence, Operation.run, Outcome.ofResult, enableIrq]
    cases d.holdsWorker with
    | true => rfl
    | false =>
      cases d.initialized with
      | false => rfl
      | true => simp [Meets, Reply.ofExcept]
  | disableIrq =>
    simp only [Operation.refusal, Operation.run, Outcome.ofResult, disableIrq]
    cases d.worker with
    | absent | dead => rfl
    | alive => simp [Meets, Reply.ofExcept]
  | _ => simp [Operation.refusal, Operation.run, Meets]

/-- An operation fails exactly for a reason, and what it leaves depends on the reason alone. -/
theorem run_of_failed {d : Device σ} {op : Operation σ} {e : Error}
    (h : (op.run d).reply = .failed e) :
    op.refusal d = some e ∧
      op.run d = { reply := .failed e, device := d.afterFailure e, flushes := [] } := by
  have hmeets := d.meets_run op
  cases hr : op.refusal d with
  | none =>
    rw [hr] at hmeets
    exact absurd h (hmeets e)
  | some e' =>
    rw [hr] at hmeets
    have hrun : op.run d = { reply := .failed e', device := d.afterFailure e', flushes := [] } :=
      hmeets
    rw [hrun] at h
    obtain rfl := Reply.failed.inj h
    exact ⟨rfl, hrun⟩

theorem reply_of_refusal {d : Device σ} {op : Operation σ} {e : Error}
    (h : op.refusal d = some e) : (op.run d).reply = .failed e := by
  have hmeets := d.meets_run op
  rw [h] at hmeets
  exact congrArg Outcome.reply hmeets

/-! ### What a failure leaves behind -/

/-- What is left of an access that no register answers: one more protocol error, if anything is
counted, and an armed worker, if one is to be told of a pending interrupt. -/
def astray (d : Device σ) : Device σ :=
  { d with
    metrics.protocolErrors :=
      if d.metrics.enabled then d.metrics.protocolErrors + 1 else d.metrics.protocolErrors
    virq.signaled := d.virq.signaled || (Interrupt.isPending d.regs.iir && d.virq.enabled) }

/-- The identification is derived again, but it was not stale. -/
theorem Identified.astray_eq {d : Device σ} (h : d.Identified) :
    d.refresh.record .protocolError = d.astray := by
  have hident : d.regs.ident = d.regs.iir := h.symm
  simp only [refresh, record, astray, hident, Metrics.record]
  split_ifs <;> rfl

/-- A failure other than a protocol error or the report of a death leaves nothing behind. -/
theorem afterFailure_eq (d : Device σ) {e : Error} (hbug : e.isBug = false)
    (hpanic : ∀ line, e ≠ .workerPanicked line) : d.afterFailure e = d := by
  cases e with
  | undefinedRegister offset | readOnlyRegister offset => cases hbug
  | workerPanicked line => exact absurd rfl (hpanic line)
  | _ => rfl

theorem afterFailure_of_isBug (d : Device σ) {e : Error} (h : e.isBug = true) :
    d.afterFailure e = d.refresh.record .protocolError := by
  cases e with
  | undefinedRegister offset | readOnlyRegister offset => rfl
  | _ => cases h

/-- A death is reported to the request to end alone. -/
theorem dead_of_refusal {d : Device σ} {op : Operation σ} {line : UInt8}
    (h : op.refusal d = some (.workerPanicked line)) : op = .disableIrq ∧ d.worker = .dead := by
  have habsence : d.absence ≠ some (.workerPanicked line) := by
    rw [absence]
    split <;> simp
  cases op with
  | disableIrq => cases hw : d.worker <;> simp [Operation.refusal, hw] at h ⊢
  | access a =>
    cases a <;> simp only [Operation.refusal, Option.or_eq_some_iff, habsence, false_or,
      reduceCtorEq] at h <;> split_ifs at h <;> simp at h
  | unbind => exact absurd h habsence
  | bind threshold label | enableIrq =>
    simp only [Operation.refusal, Option.or_eq_some_iff, habsence, and_false, or_false] at h
    split_ifs at h
    simp at h
  | _ => cases h

/-- Failed operations leave the state of a device as it was. -/
structure Unharmed (d : Device σ) : Prop where
  /-- An operation fails for a reason, and of several reasons the first is given. -/
  failed_iff (op : Operation σ) (e : Error) :
    (op.run d).reply = .failed e ↔ op.refusal d = some e
  /-- No consumer is called. -/
  quiet {op : Operation σ} {e : Error} : (op.run d).reply = .failed e → (op.run d).flushes = []
  /-- A protocol error is counted and arms the worker that is to be told of a pending interrupt. -/
  counted {op : Operation σ} {e : Error} :
    (op.run d).reply = .failed e → e.isBug = true → (op.run d).device = d.astray
  /-- A worker that has died is gone once its death was reported. -/
  collected {op : Operation σ} {line : UInt8} :
    (op.run d).reply = .failed (.workerPanicked line) →
      op = .disableIrq ∧ d.worker = .dead ∧ (op.run d).device = d.stopped
  /-- Any other failure leaves nothing behind, not even a count. -/
  same {op : Operation σ} {e : Error} :
    (op.run d).reply = .failed e → e.isBug = false → (∀ line, e ≠ .workerPanicked line) →
      (op.run d).device = d
  /-- On a bus that cannot report errors a read does the same, and answers zero where it fails. -/
  input (offset : UInt8) :
    (Access.input offset).run d =
      { (Access.read offset).run d with
        reply := ((Access.read offset).run d).reply.recover (.byte 0) }
  /-- So does a write, and says nothing of it. -/
  output (offset value : UInt8) :
    (Access.output offset value).run d =
      { (Access.write offset value).run d with
        reply := ((Access.write offset value).run d).reply.recover .done }

theorem Identified.unharmed {d : Device σ} (h : d.Identified) : d.Unharmed where
  failed_iff op e := ⟨fun hfailed => (run_of_failed hfailed).1, reply_of_refusal⟩
  quiet hfailed := by rw [(run_of_failed hfailed).2]
  counted hfailed hbug := by
    rw [(run_of_failed hfailed).2]
    exact (d.afterFailure_of_isBug hbug).trans h.astray_eq
  collected hfailed := by
    obtain ⟨hrefusal, hrun⟩ := run_of_failed hfailed
    obtain ⟨hop, hdead⟩ := dead_of_refusal hrefusal
    exact ⟨hop, hdead, congrArg Outcome.device hrun⟩
  same hfailed hbug hpanic := by
    rw [(run_of_failed hfailed).2]
    exact d.afterFailure_eq hbug hpanic
  input offset := by
    simp only [Access.run, Outcome.ofResult, input]
    rcases d.read offset with ⟨r, e⟩
    cases r <;> rfl
  output offset value := by
    simp only [Access.run, output]
    rcases d.write offset value with ⟨r, e, flushes⟩
    cases r <;> rfl

/-- A device at rest goes nowhere from an operation that leaves it as it was. -/
theorem step_of_same {d : Device ScriptedSink} {op : Operation ScriptedSink}
    (hrest : d.isArmed = false) (hflushes : (op.run d).flushes = [])
    (hdevice : (op.run d).device = d) :
    d.step op = { reply := (op.run d).reply, device := d, flushes := [], deliveries := [] } := by
  simp only [step, hdevice, hflushes, settle, settleWithin_of_idle hrest, List.nil_append]

end Device

namespace Session

/-! ### Sessions -/

/-- A failure that leaves the device as it was leaves everything as it was. -/
theorem operate_of_failed {s : Session} {place : Nat} {op : Operation ScriptedSink} {e : Error}
    (hdevices : ∀ d, s.system.devices[place]? = some d → d.Unharmed ∧ d.isArmed = false)
    (h : (s.operate place op).1.result = .reply (.failed e)) (hbug : e.isBug = false)
    (hpanic : ∀ line, e ≠ .workerPanicked line) :
    (s.operate place op).2 = s ∧ (s.operate place op).1.flushes = [] ∧
      (s.operate place op).1.deliveries = [] := by
  cases hd : s.system.devices[place]? with
  | none => exact operate_of_none hd op
  | some d =>
    obtain ⟨hunharmed, hrest⟩ := hdevices d hd
    simp only [operate, hd] at h ⊢
    have hfailed : (op.run d).reply = .failed e := Result.reply.inj h
    have hstep := Device.step_of_same hrest (hunharmed.quiet hfailed)
      (hunharmed.same hfailed hbug hpanic)
    have hmodify : (s.system.modify place fun _ => d) = s.system :=
      System.modify_eq_self fun e he => Option.some.inj (hd.symm.trans he)
    rw [hstep]
    exact ⟨by rw [hmodify], rfl, rfl⟩

/-- So does a step that fails like this. -/
theorem step_of_failed {s : Session} {st : Step} {e : Error}
    (hdevices : ∀ d ∈ s.system.devices, d.Unharmed ∧ d.isArmed = false)
    (h : (s.step st).1.result = .reply (.failed e)) (hbug : e.isBug = false)
    (hpanic : ∀ line, e ≠ .workerPanicked line) :
    (s.step st).2 = s ∧ (s.step st).1.flushes = [] ∧ (s.step st).1.deliveries = [] := by
  have hplace (place : Nat) (d : Device ScriptedSink) (hd : s.system.devices[place]? = some d) :=
    hdevices d (List.mem_of_getElem? hd)
  cases st with
  | table t =>
    cases hgone : s.tableGone with
    | true =>
      rw [step_table_of_gone hgone] at h
      cases h
    | false =>
      rw [step_table_of_present hgone] at h ⊢
      cases t with
      | onLine line op =>
        cases hget : s.system.table.get line with
        | error e =>
          simp only [stepTable, hget]
          exact ⟨trivial, trivial, trivial⟩
        | ok device =>
          simp only [stepTable, hget] at h ⊢
          exact operate_of_failed (hplace device) h hbug hpanic
      | _ => cases h
  | host t =>
    cases t with
    | input line offset | output line offset value =>
      cases hfind : s.system.host.find? line with
      | none =>
        simp only [step, stepHost, operateListed, hfind] at h
        cases h
      | some device =>
        simp only [step, stepHost] at h ⊢
        obtain ⟨hsession, hresult, hflushes, hdeliveries⟩ := operateListed_of_some hfind _
        rw [hresult] at h
        rw [hsession, hflushes, hdeliveries]
        exact operate_of_failed (hplace device) h hbug hpanic
    | _ => cases h
  | onHandle handle op =>
    simp only [step] at h ⊢
    split at h
    · cases h
    · next hheld =>
      rw [if_neg hheld]
      exact operate_of_failed (hplace handle) h hbug hpanic
  | create info counting => cases h
  | letGo handle =>
    simp only [step] at h
    split at h <;> cases h

end Session

/-- **Failed operations leave the state as it was.** On every reachable device an operation fails
for the first of its reasons. A protocol error changes no register, queue or binding: it is counted,
and it arms a worker for which an interrupt is pending. A worker found dead is collected. After any
other failure the device is the same, with its counters. The accesses of a bus that cannot report
errors do the same to the device as those that report them. The devices of a session are reachable,
and a step that fails in this way leaves the whole session as it was and calls nobody. -/
theorem refused_of_reachable :
    (∀ {σ : Type} (d : Device σ), d.Reachable → d.Unharmed) ∧
    ∀ counting steps, let s := (Session.empty counting).after steps
      (∀ d ∈ s.system.devices, d.Reachable) ∧
      ∀ st e, (s.step st).1.result = .reply (.failed e) → e.isBug = false →
        (∀ line, e ≠ .workerPanicked line) →
        (s.step st).2 = s ∧ (s.step st).1.flushes = [] ∧ (s.step st).1.deliveries = [] := by
  refine ⟨fun d hd => (Device.identified_of_reachable hd).unharmed, fun counting steps => ?_⟩
  intro s
  have hreachable (d : Device ScriptedSink) (hd : d ∈ s.system.devices) : d.Reachable :=
    Session.reachable_of_mem hd
  refine ⟨hreachable, fun st e h hbug hpanic => Session.step_of_failed (fun d hd => ?_) h hbug hpanic⟩
  obtain ⟨place, hplace⟩ := List.mem_iff_getElem?.mp hd
  exact ⟨(Device.identified_of_reachable (hreachable d hd)).unharmed,
    (Session.comes_after_empty counting place steps).rests hplace⟩

/-- A byte is pending and a consumer is bound. A read past the last offset arms the worker; a batch
that is too long, a threshold that is never reached and a second worker are refused and leave the
device as it was. -/
theorem refused_of_pending_byte :
    let steps : List Session.Step := [
      .table (.add 0), .onHandle 0 (.attach []), .onHandle 0 (.bind 4 "printer"),
      .onHandle 0 .enableIrq, .onHandle 0 (.access (.write Offset.interruptEnable 0x01)),
      .onHandle 0 (.access (.inject [0x41]))]
    let s := (Session.empty true).after steps
    (∃ d ∈ s.system.devices, Interrupt.isPending d.regs.iir = true ∧
      ((Operation.access (.read 9)).run d).device = d.astray ∧ d.astray.isArmed = true ∧
      ∀ op ∈ [Operation.access (.inject (List.replicate 17 0x41)), .bind 17 "other", .enableIrq],
        (∃ e, (op.run d).reply = .failed e) ∧ (op.run d).device = d) ∧
    (s.step (.onHandle 0 (.bind 0 "other"))).2 = s := by
  intro steps s
  have hdevice : s.system.devices[0]?.map (fun d =>
      (Interrupt.isPending d.regs.iir, d.astray.isArmed,
        [Operation.access (.read 9), .access (.inject (List.replicate 17 0x41)), .bind 17 "other",
          .enableIrq].map (·.refusal d))) =
      some (true, true, [some (.undefinedRegister 9), some (.capacityExceeded 17 16),
        some (.invalidThreshold 17), some (.virtualIrqAlreadyEnabled 0)]) := by decide +kernel
  have hresult : (s.step (.onHandle 0 (.bind 0 "other"))).1.result =
      .reply (.failed (.invalidThreshold 0)) := by decide +kernel
  obtain ⟨hunharmed, hsession⟩ := refused_of_reachable
  obtain ⟨hreachable, hsteps⟩ := hsession true steps
  refine ⟨?_, (hsteps _ _ hresult rfl (by simp)).1⟩
  obtain ⟨d, hd, hfacts⟩ := Option.map_eq_some_iff.mp hdevice
  simp only [Prod.mk.injEq, List.map_cons, List.map_nil, List.cons.injEq, and_true] at hfacts
  obtain ⟨hpending, harmed, hread, hinject, hbind, hirq⟩ := hfacts
  have hmem := List.mem_of_getElem? hd
  have h := hunharmed d (hreachable d hmem)
  refine ⟨d, hmem, hpending, h.counted ((h.failed_iff _ _).mpr hread) rfl, harmed, ?_⟩
  have hsame {op : Operation ScriptedSink} {e : Error} (hop : op.refusal d = some e)
      (hbug : e.isBug = false) (hpanic : ∀ line, e ≠ .workerPanicked line) :
      (∃ e, (op.run d).reply = .failed e) ∧ (op.run d).device = d := by
    have hfailed := (h.failed_iff op e).mpr hop
    exact ⟨⟨e, hfailed⟩, h.same hfailed hbug hpanic⟩
  simp only [List.forall_mem_cons, List.not_mem_nil, false_imp_iff, implies_true, and_true]
  exact ⟨hsame hinject rfl (by simp), hsame hbind rfl (by simp), hsame hirq rfl (by simp)⟩

end Uart16550
