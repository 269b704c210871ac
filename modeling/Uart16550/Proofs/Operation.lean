import Uart16550.Proofs.Effect

/-!
# Operations other than accesses

The holder of a device may do more than a handler: bind a consumer, attach a sink, start and stop
the worker. None of this touches a queue or calls a consumer, and `operate_cases` is all that it can
do. What it has to say about deliveries is a `Notice`: a sink was attached or a worker started.
-/

namespace Uart16550

/-! ### Notices -/

/-- What happens to the deliveries of a device. -/
inductive Notice where
  /-- A sink was attached. -/
  | attached
  /-- A worker was started. -/
  | enabled
  /-- The attached sink was called. -/
  | delivered (line iir : UInt8)
  deriving DecidableEq, Repr

variable {σ : Type}

/-- What an operation has to say about deliveries, given its reply. -/
def Operation.notices (op : Operation σ) (reply : Reply) : List Notice :=
  match op, reply with
  | .attach _, _ => [.attached]
  | .enableIrq, .done => [.enabled]
  | _, _ => []

namespace Device

/-- The device with a worker that was just started. -/
def started (d : Device σ) : Device σ := { d with virq := { enabled := true }, worker := .alive }

/-- The device with its worker gone. -/
def stopped (d : Device σ) : Device σ := { d with virq := {}, worker := .absent }

/-- Binding a consumer changes the consumer alone, if anything. -/
theorem bind_cases (d : Device σ) (threshold : Nat) (label : String) :
    (d.bind threshold label).2 = d ∨
      ∃ c, (d.bind threshold label).2 = { d with consumer := some c } := by
  simp only [bind]
  split
  · exact Or.inl rfl
  · next c _ =>
    split
    · exact Or.inr ⟨c, rfl⟩
    · exact Or.inl rfl

/-- So does letting go of it. -/
theorem unbind_cases (d : Device σ) :
    d.unbind.2 = d ∨ d.unbind.2 = { d with consumer := none } := by
  simp only [unbind]
  split
  · exact Or.inr rfl
  · exact Or.inl rfl

/-- A binding that does not fail binds a consumer of the given name. -/
theorem device_bind_of_ne_failed {d : Device σ} {threshold : Nat} {label : String}
    (h : ∀ e, ((Operation.bind threshold label).run d).reply ≠ .failed e) :
    ∃ c, c.label = label ∧
      ((Operation.bind threshold label).run d).device = { d with consumer := some c } := by
  cases hc : Consumer.make label threshold with
  | error e =>
    refine absurd ?_ (h e)
    simp only [Operation.run, Outcome.ofResult, bind, hc, Reply.ofExcept]
  | ok c =>
    have hlabel : c.label = label := by
      unfold Consumer.make at hc
      split at hc
      · cases hc
        rfl
      · cases hc
    cases hi : d.initialized with
    | true =>
      refine ⟨c, hlabel, ?_⟩
      simp only [Operation.run, Outcome.ofResult, bind, hc, hi, if_true]
    | false =>
      refine absurd ?_ (h (.notInitialized d.line))
      simp only [Operation.run, Outcome.ofResult, bind, hc, hi, Bool.false_eq_true, if_false,
        Reply.ofExcept]

/-- A worker is started afresh, or the device stays as it was and an error says why. -/
theorem enableIrq_cases (d : Device σ) :
    (∃ e, d.enableIrq = (.error e, d)) ∨
      d.holdsWorker = false ∧ d.initialized = true ∧
        d.enableIrq =
          (.ok (), refresh { d with virq := { enabled := true }, worker := .alive }) := by
  simp only [enableIrq]
  split
  · exact Or.inl ⟨_, rfl⟩
  · split
    · exact Or.inl ⟨_, rfl⟩
    · next hw hi => exact Or.inr ⟨by simpa using hw, by simpa using hi, rfl⟩

/-- A worker that is held is gone afterwards, with everything that it shared with the device. -/
theorem disableIrq_cases (d : Device σ) :
    d.worker = .absent ∧ d.disableIrq.2 = d ∨
      d.worker ≠ .absent ∧ d.disableIrq.2 = { d with worker := .absent, virq := {} } := by
  cases h : d.worker with
  | absent => exact Or.inl ⟨rfl, by simp only [disableIrq, h]⟩
  | alive => exact Or.inr ⟨by simp, by simp only [disableIrq, h]; rfl⟩
  | dead => exact Or.inr ⟨by simp, by simp only [disableIrq, h]; rfl⟩

/-- **Whatever is not an access** changes nothing but the consumer and the counters, or attaches a
sink, or starts a worker, or ends it. -/
theorem operate_cases (d : Device σ) {op : Operation σ} (h : ∀ a, op ≠ .access a) :
    ((∃ c m, (op.run d).device = { d with consumer := c, metrics := m }) ∧
        op.notices (op.run d).reply = []) ∨
      (∃ sink, op = .attach sink) ∨
      ((op.run d).device = d.started.refresh ∧ op.notices (op.run d).reply = [.enabled]) ∨
      (op.run d).device = d.stopped ∧ op.notices (op.run d).reply = [] := by
  cases op with
  | access a => exact absurd rfl (h a)
  | attach sink => exact Or.inr (Or.inl ⟨sink, rfl⟩)
  | bind threshold label =>
    have hrun : ((Operation.bind threshold label).run d).device = (d.bind threshold label).2 := rfl
    rw [hrun]
    rcases d.bind_cases threshold label with hb | ⟨c, hb⟩ <;> rw [hb] <;>
      exact Or.inl ⟨⟨_, _, rfl⟩, rfl⟩
  | unbind =>
    have hrun : (Operation.unbind.run d).device = d.unbind.2 := rfl
    rw [hrun]
    rcases d.unbind_cases with hb | hb <;> rw [hb] <;> exact Or.inl ⟨⟨_, _, rfl⟩, rfl⟩
  | enableIrq =>
    have hrun : Operation.enableIrq.run d = .ofResult (fun _ => .done) d.enableIrq := rfl
    rw [hrun]
    rcases d.enableIrq_cases with ⟨e, he⟩ | ⟨-, -, he⟩ <;> rw [he]
    · exact Or.inl ⟨⟨_, _, rfl⟩, rfl⟩
    · exact Or.inr (Or.inr (Or.inl ⟨rfl, rfl⟩))
  | disableIrq =>
    have hrun : (Operation.disableIrq.run d).device = d.disableIrq.2 := rfl
    rw [hrun]
    rcases d.disableIrq_cases with ⟨-, hd⟩ | ⟨-, hd⟩ <;> rw [hd]
    · exact Or.inl ⟨⟨_, _, rfl⟩, rfl⟩
    · exact Or.inr (Or.inr (Or.inr ⟨rfl, rfl⟩))
  | _ => exact Or.inl ⟨⟨_, _, rfl⟩, rfl⟩

/-- Only an access hands bytes to a consumer. -/
theorem flushes_operate (d : Device σ) {op : Operation σ} (h : ∀ a, op ≠ .access a) :
    (op.run d).flushes = [] := by
  cases op with
  | access a => exact absurd rfl (h a)
  | _ => rfl

/-- Whatever is not an access leaves both queues and their flags alone. -/
theorem sides_operate (d : Device σ) {op : Operation σ} (h : ∀ a, op ≠ .access a) :
    (op.run d).device.receiver = d.receiver ∧ (op.run d).device.transmitter = d.transmitter ∧
      (op.run d).device.info = d.info ∧ (op.run d).device.initialized = d.initialized := by
  rcases d.operate_cases h with ⟨⟨c, m, hd⟩, -⟩ | ⟨sink, rfl⟩ | ⟨hd, -⟩ | ⟨hd, -⟩
  · rw [hd]
    exact ⟨rfl, rfl, rfl, rfl⟩
  · exact ⟨rfl, rfl, rfl, rfl⟩
  · rw [hd]
    exact ⟨rfl, rfl, rfl, rfl⟩
  · rw [hd]
    exact ⟨rfl, rfl, rfl, rfl⟩

end Device

end Uart16550
