import Uart16550.Proofs.Move

/-!
# The settings of a device

The settings are what the device only stores: the registers that a host writes and reads back, and
the consumer that is bound, by its name and threshold. Bytes that come and go leave all of them as
they were; `Effect.set` is the whole list of what changes them, and `settings_effect` says that
every access changes them by its effect and no further.
-/

namespace Uart16550

/-- A consumer that is made has the name and the threshold asked for. -/
theorem Consumer.make_eq_ok {label : String} {threshold : Nat} {c : Consumer}
    (h : Consumer.make label threshold = .ok c) : c.label = label ∧ c.threshold = threshold := by
  unfold Consumer.make at h
  split at h
  · cases h
    exact ⟨rfl, rfl⟩
  · cases h

namespace Device

variable {σ : Type}

/-- What a device only stores. -/
structure Settings where
  interruptEnable : UInt8
  lineControl : UInt8
  modemControl : UInt8
  scratch : UInt8
  divisorLow : UInt8
  divisorHigh : UInt8
  /-- The name and the threshold of the consumer that is bound. -/
  binding : Option (String × Nat)
  deriving DecidableEq, Repr

def settings (d : Device σ) : Settings where
  interruptEnable := d.regs.ier
  lineControl := d.regs.lcr
  modemControl := d.regs.mcr
  scratch := d.regs.scr
  divisorLow := d.regs.dll
  divisorHigh := d.regs.dlm
  binding := d.consumer.map fun c => (c.label, c.threshold)

/-! ### Bytes that come and go -/

theorem Sends.settings_eq {d e : Device σ} (h : d.Sends e) : e.settings = d.settings := by
  -- Of all the settings, sending comes near the consumer alone, and it keeps its name and threshold.
  obtain ⟨⟨_, rfl⟩, hbinding⟩ := h
  exact congrArg (fun b => { d.settings with binding := b }) hbinding

theorem Receives.settings_eq {d e : Device σ} (h : d.Receives e) : e.settings = d.settings := by
  obtain ⟨⟨_, rfl⟩, -⟩ := h
  rfl

theorem settings_writeData (d : Device σ) (value : UInt8) :
    (d.writeData value).1.settings = d.settings := by
  simp only [writeData]
  split
  · exact ((d.hold value).receives_receive value).settings_eq
  · exact (d.sends_transmit value).settings_eq

theorem settings_writeInterruptEnable (d : Device σ) (value : UInt8) :
    (d.writeInterruptEnable value).1.settings =
      { d.settings with interruptEnable := value &&& InterruptEnable.implemented } :=
  congrArg (fun s : Settings => { s with interruptEnable := value &&& InterruptEnable.implemented })
    (d.sends_flushIf _ .idle).settings_eq

/-! ### Effects -/

/-- What an effect makes of the settings. -/
def Effect.set (s : Settings) : Effect → Settings
  | .writes .interruptEnable value =>
    { s with interruptEnable := value &&& InterruptEnable.implemented }
  | .writes .lineControl value => { s with lineControl := value }
  | .writes .modemControl value =>
    { s with modemControl := value &&& ModemControl.implemented }
  | .writes .scratch value => { s with scratch := value }
  | .writes .divisorLow value => { s with divisorLow := value }
  | .writes .divisorHigh value => { s with divisorHigh := value }
  | .resets =>
    { interruptEnable := 0, lineControl := 0, modemControl := ModemControl.out2, scratch := 0,
      divisorLow := 0, divisorHigh := 0, binding := s.binding }
  | .refused | .missed | .reads _ | .writes .transmitHold _ | .writes .fifoControl _ | .queues _ |
    .breaks | .flushes _ | .detaches => s

/-- **An access changes the settings by its effect** and no further. -/
theorem settings_effect (d : Device σ) (e : Effect) : (e.run d).1.settings = e.set d.settings := by
  cases e with
  | reads register => exact (d.receives_readRegister register).settings_eq
  | writes register value =>
    cases register with
    | transmitHold => exact d.settings_writeData value
    | interruptEnable => exact d.settings_writeInterruptEnable value
    | fifoControl =>
      simp only [Effect.run, writeRegister, writeFifoControl]
      split_ifs <;> rfl
    | _ => rfl
  | queues bytes => exact (d.receives_queue bytes).settings_eq
  | flushes reason => exact (d.sends_flush reason).settings_eq
  | _ => rfl

/-- No effect changes the binding. -/
theorem binding_set (s : Settings) (e : Effect) : (e.set s).binding = s.binding := by
  cases e with
  | writes register value => cases register <;> rfl
  | _ => rfl

theorem settings_access (d : Device σ) (a : Access) :
    (a.run d).device.settings = (a.effect d).set d.settings := by
  rw [a.device_effect]
  exact d.settings_effect (a.effect d)

/-! ### Bindings -/

variable {d : Device σ}

/-- The binding that a device shows is that of its consumer. -/
theorem binding_eq_some_iff {label : String} {threshold : Nat} :
    d.settings.binding = some (label, threshold) ↔
      ∃ c, d.consumer = some c ∧ c.label = label ∧ c.threshold = threshold := by
  simp [settings]

/-- Whether a move binds a consumer: it asks for it and is not refused. -/
def binds (d : Device σ) : Move σ → Bool
  | .operate (.bind threshold label) => ((Operation.bind threshold label).run d).reply == .done
  | _ => false

theorem exists_of_binds {m : Move σ} (h : d.binds m = true) :
    ∃ threshold label, m = .operate (.bind threshold label) := by
  cases m with
  | operate op =>
    cases op with
    | bind threshold label => exact ⟨threshold, label, rfl⟩
    | _ => cases h
  | _ => cases h

/-- A binding is refused and changes nothing, or a consumer of the name and threshold asked for is
bound to an initialized device. -/
theorem binds_cases (d : Device σ) (threshold : Nat) (label : String) :
    let m : Move σ := .operate (.bind threshold label)
    d.binds m = false ∧ m.run d = d ∨
      d.binds m = true ∧ d.initialized = true ∧ ∃ c : Consumer,
        c.label = label ∧ c.threshold = threshold ∧ m.run d = { d with consumer := some c } := by
  intro m
  have hbinds : d.binds m = (Reply.ofExcept (fun _ => .done) (d.bind threshold label).1 == .done) :=
    rfl
  have hrun : m.run d = (d.bind threshold label).2 := rfl
  rw [hbinds, hrun, bind]
  cases hc : Consumer.make label threshold with
  | error e => exact Or.inl ⟨rfl, rfl⟩
  | ok c =>
    obtain ⟨hlabel, hthreshold⟩ := Consumer.make_eq_ok hc
    cases hi : d.initialized with
    | false => exact Or.inl ⟨rfl, rfl⟩
    | true => exact Or.inr ⟨rfl, rfl, c, hlabel, hthreshold, rfl⟩

/-- A binding that is not refused leaves the queue alone. -/
theorem run_binds {threshold : Nat} {label : String}
    (h : d.binds (.operate (.bind threshold label)) = true) :
    (Move.run d (.operate (.bind threshold label))).settings.binding = some (label, threshold) ∧
      (Move.run d (.operate (.bind threshold label))).tx = d.tx := by
  obtain ⟨hrefused, -⟩ | ⟨-, -, c, hlabel, hthreshold, hrun⟩ := d.binds_cases threshold label
  · rw [h] at hrefused
    cases hrefused
  · rw [hrun]
    exact ⟨binding_eq_some_iff.mpr ⟨c, rfl, hlabel, hthreshold⟩, rfl⟩

theorem initialized_of_binds {m : Move σ} (h : d.binds m = true) : d.initialized = true := by
  obtain ⟨threshold, label, rfl⟩ := exists_of_binds h
  obtain ⟨hrefused, -⟩ | ⟨-, hinit, -⟩ := d.binds_cases threshold label
  · rw [h] at hrefused
    cases hrefused
  · exact hinit

/-- Whatever does not bind a consumer leaves the binding as it was, or nobody bound. -/
theorem binding_run {m : Move σ} (h : d.binds m = false) :
    (m.run d).settings.binding = d.settings.binding ∨ (m.run d).settings.binding = none := by
  cases m with
  | operate op =>
    cases op with
    | access a =>
      refine Or.inl ?_
      rw [Move.run, Operation.run, settings_access, binding_set]
    | bind threshold label =>
      obtain ⟨-, hrun⟩ | ⟨hbound, -⟩ := d.binds_cases threshold label
      · exact Or.inl (congrArg (·.settings.binding) hrun)
      · rw [h] at hbound
        cases hbound
    | unbind =>
      rcases d.unbind_cases with hu | hu
      · exact Or.inl (congrArg (·.settings.binding) hu)
      · exact Or.inr (congrArg (·.settings.binding) hu)
    | enableIrq =>
      have hrun : Move.run d (.operate .enableIrq) = d.enableIrq.2 := rfl
      rw [hrun]
      rcases d.enableIrq_cases with ⟨e, he⟩ | ⟨-, -, he⟩ <;> rw [he] <;> exact Or.inl rfl
    | disableIrq =>
      have hrun : Move.run d (.operate .disableIrq) = d.disableIrq.2 := rfl
      rw [hrun]
      rcases d.disableIrq_cases with ⟨-, hd⟩ | ⟨-, hd⟩ <;> rw [hd] <;> exact Or.inl rfl
    | _ => exact Or.inl rfl
  | look =>
    refine Or.inl ?_
    simp only [Move.run, capture]
    split_ifs
    · rfl
    · cases d.sink <;> rfl
    · rfl
    · rfl
  | crashed =>
    refine Or.inl ?_
    simp only [Move.run]
    split <;> rfl
  | release => exact Or.inr rfl
  | _ => exact Or.inl rfl

end Device

end Uart16550
