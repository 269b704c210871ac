import Uart16550.Proofs.LineErrors
import Uart16550.Proofs.Settings

/-!
# When a consumer is called

A bound consumer gets its bytes in batches. A byte that is sent goes behind what is queued, and the
batch is handed over once the queue holds as many bytes as the consumer waits for
(`Consumer.called`). A queue that is full already has to go first, and this is a different call. It
is rare: while a consumer is bound, every byte that is sent leaves fewer queued than it waits for,
so a queue can only be full under a consumer that was bound to it full
(`raisedSince_bindsFull`). A consumer bound to an empty queue is below its threshold from then on
and gets batches of exactly that size (`Device.Below`). The third reason for a call has nothing to
do with bytes: the host masks the transmitter interrupt with some still queued.

## Main statements

* `sends_of_bound`: everything that a byte does that is sent to a bound consumer.
* `Below.run`: what keeps batches at the size of the threshold, move by move.
* `idle_iff`: which register accesses flush because the transmitter interrupt is masked.
* `called_by_policy`: the policy, for every run of a device.
-/

namespace Uart16550

theorem WriteRegister.decode_eq_interruptEnable_iff {offset : UInt8} {divisorAccess : Bool} :
    WriteRegister.decode offset divisorAccess = .ok .interruptEnable ↔
      offset = Offset.interruptEnable ∧ divisorAccess = false := by
  constructor
  · intro h
    obtain rfl := WriteRegister.eq_offset_of_decode h
    cases divisorAccess <;> cases h
    exact ⟨rfl, rfl⟩
  · rintro ⟨rfl, rfl⟩
    rfl

/-- An access of a register, by a host that reports failures or by one that cannot. -/
def Access.isRegister : Access → Bool
  | .read _ | .write _ _ | .input _ | .output _ _ => true
  | .inject _ | .signalBreak | .flush _ | .reset | .detach => false

/-! ### The policy -/

/-- A call of the consumer with a batch. -/
def Consumer.call (c : Consumer) (line : UInt8) (bytes : List UInt8) (reason : FlushReason) :
    Flush where
  label := c.label
  line := line
  bytes := bytes
  reason := reason

/-- The calls of the consumer as a byte is sent behind what is queued. A full queue goes first, and
then the byte alone may be all that the consumer waits for. -/
def Consumer.called (c : Consumer) (line : UInt8) (queued : List UInt8) (byte : UInt8) :
    List Flush :=
  if queued.length = Fifo.capacity then
    c.call line queued .full ::
      (if c.threshold = 1 then [c.call line [byte] .threshold] else [])
  else if c.threshold ≤ queued.length + 1 then
    [c.call line (queued ++ [byte]) .threshold]
  else
    []

/-- The three calls of the policy. -/
theorem Consumer.mem_called {c : Consumer} {line : UInt8} {queued : List UInt8} {byte : UInt8}
    {f : Flush} (hf : f ∈ c.called line queued byte) :
    f = c.call line queued .full ∧ queued.length = Fifo.capacity ∨
      f = c.call line [byte] .threshold ∧ c.threshold = 1 ∨
      f = c.call line (queued ++ [byte]) .threshold ∧ c.threshold ≤ queued.length + 1 := by
  unfold called at hf
  split_ifs at hf with hfull hone hreached
  · rcases List.mem_cons.mp hf with rfl | hf
    · exact Or.inl ⟨rfl, hfull⟩
    · exact Or.inr (Or.inl ⟨List.mem_singleton.mp hf, hone⟩)
  · exact Or.inl ⟨List.mem_singleton.mp hf, hfull⟩
  · exact Or.inr (Or.inr ⟨List.mem_singleton.mp hf, hreached⟩)
  · cases hf

variable {σ : Type}

namespace Device

variable {d : Device σ}

/-! ### A byte that is sent -/

/-- What a flush on a condition says to the consumer, if one is bound. -/
theorem calls_flushIf (d : Device σ) (line : UInt8) (condition : Bool) (reason : FlushReason) :
    (d.flushDepartures condition reason).filterMap (·.call? line) =
      if condition then d.consumer.toList.map (·.call line d.tx.toList reason) else [] := by
  cases condition <;> cases hc : d.consumer <;>
    simp [flushDepartures, flushDeparture, hc, Departure.call?, Consumer.call]

theorem calls_of_bound {c : Consumer} (h : d.settings.binding = some (c.label, c.threshold))
    (line : UInt8) (condition : Bool) (reason : FlushReason) :
    (d.flushDepartures condition reason).filterMap (·.call? line) =
      if condition then [c.call line d.tx.toList reason] else [] := by
  -- The consumer may have another buffer by now, which no call shows.
  obtain ⟨c', hc, hlabel, -⟩ := binding_eq_some_iff.mp h
  rw [calls_flushIf, hc]
  simp [Consumer.call, hlabel]

/-- With a consumer bound there is always room: a full queue has gone before the byte is queued, and
a queue with room has not. -/
theorem enqueue_of_bound {c : Consumer} (h : d.consumer = some c) (byte : UInt8) :
    ∃ e, (d.hold byte).makeRoom.1.enqueue byte = some e ∧
      e.tx.toList = (if d.tx.toList.length = Fifo.capacity then [] else d.tx.toList) ++ [byte] ∧
      e.settings.binding = some (c.label, c.threshold) := by
  have hroom : (d.hold byte).makeRoom.1.tx.toList =
      if d.tx.toList.length = Fifo.capacity then [] else d.tx.toList := by
    rw [toList_tx_makeRoom, Fifo.isFull_eq]
    simp [hold, h]
  cases he : (d.hold byte).makeRoom.1.enqueue byte with
  | none =>
    -- The queue would have to be full still.
    rw [enqueue_eq_none_iff, hroom] at he
    split at he
    · cases he
    · contradiction
  | some e =>
    refine ⟨e, rfl, ?_, ?_⟩
    · rw [(toList_tx_enqueue he).1, hroom]
    · have hset : e.settings = (d.hold byte).settings :=
        ((sends_makeRoom _).trans (sends_enqueue he)).settings_eq
      rw [hset, binding_eq_some_iff]
      exact ⟨c, h, rfl, rfl⟩

theorem reachesThreshold_eq {label : String} {threshold : Nat}
    (h : d.settings.binding = some (label, threshold)) :
    d.reachesThreshold = decide (threshold ≤ d.tx.toList.length) := by
  obtain ⟨c, hc, -, rfl⟩ := binding_eq_some_iff.mp h
  simp [reachesThreshold, hc]

/-- The consumer is called by the policy. -/
theorem transmit_called {c : Consumer} (h : d.consumer = some c) (byte : UInt8) :
    (d.transmit byte).2 = c.called d.line d.tx.toList byte := by
  obtain ⟨e, he, hqueued, hbound⟩ := enqueue_of_bound h byte
  have hd : d.settings.binding = some (c.label, c.threshold) :=
    binding_eq_some_iff.mpr ⟨c, h, rfl, rfl⟩
  have hpos := c.threshold_pos
  rw [calls_transmit, transmitDepartures, he, List.filterMap_append, calls_of_bound hd,
    calls_of_bound hbound, reachesThreshold_eq hbound, hqueued, Fifo.isFull_eq, Consumer.called]
  by_cases hfull : d.tx.toList.length = Fifo.capacity
  · -- The byte is alone in the queue then.
    have hone : c.threshold ≤ 1 ↔ c.threshold = 1 := by omega
    simp [hfull, h, hone]
  · rw [Fifo.length_toList] at hfull
    simp [hfull]

/-- Without a consumer nobody is called. -/
theorem transmit_uncalled (h : d.consumer = none) (byte : UInt8) : (d.transmit byte).2 = [] := by
  have hroom : (d.hold byte).makeRoom.1.consumer = none := by simp [makeRoom, hold, h]
  rw [calls_transmit, transmitDepartures, List.filterMap_append, calls_flushIf, h]
  cases he : (d.hold byte).makeRoom.1.enqueue byte with
  | none => simp
  | some e =>
    have hqueued : e.consumer = none := (toList_tx_enqueue he).2.trans hroom
    simp [calls_flushIf, hqueued]

/-- Fewer bytes stay queued than the consumer waits for. -/
theorem length_tx_transmit {c : Consumer} (h : d.consumer = some c) (byte : UInt8) :
    (d.transmit byte).1.tx.toList.length < c.threshold := by
  obtain ⟨e, he, -, hbound⟩ := enqueue_of_bound h byte
  rw [transmit_of_some he, flushReached, reachesThreshold_eq hbound]
  split
  · rw [toList_tx_flush]
    exact c.threshold_pos
  · next hlt => simpa using hlt

/-- Everything that a byte does that is sent to a bound consumer. -/
structure SendsTo (d : Device σ) (c : Consumer) (byte : UInt8) (o : Outcome σ) : Prop where
  /-- The consumer is called by the policy. -/
  flushes_eq : o.flushes = c.called d.line d.tx.toList byte
  /-- Fewer bytes stay queued than the consumer waits for. -/
  below : o.device.tx.toList.length < c.threshold
  thr_eq : o.device.regs.thr = byte
  /-- Nothing is lost. -/
  overrun_eq : o.device.regs.lsr.overrun = d.regs.lsr.overrun
  /-- The consumer stays bound. -/
  binding_eq : o.device.settings.binding = some (c.label, c.threshold)

/-- What a data write comes to outside loopback. -/
theorem run_dataWrite {a : Access} {byte : UInt8} (hw : d.dataWrite? a = some byte)
    (hl : d.regs.loopback = false) :
    (a.run d).device = (d.transmit byte).1.refresh ∧ (a.run d).flushes = (d.transmit byte).2 := by
  rw [a.device_effect, a.flushes_effect, dataWrite?_eq_some_iff.mp hw]
  simp only [Effect.run, writeRegister, writeData, hl, Bool.false_eq_true, if_false]
  exact ⟨trivial, trivial⟩

/-- **A byte sent to a bound consumer.** -/
theorem sends_of_bound {a : Access} {byte : UInt8} {c : Consumer}
    (hw : d.dataWrite? a = some byte) (hl : d.regs.loopback = false) (hc : d.consumer = some c) :
    d.SendsTo c byte (a.run d) := by
  obtain ⟨hdevice, hflushes⟩ := run_dataWrite hw hl
  have hroom : d.findsRoom byte = true := by
    obtain ⟨e, he, -⟩ := enqueue_of_bound hc byte
    rw [findsRoom, he]
    rfl
  refine ⟨hflushes.trans (transmit_called hc byte), ?_, ?_, ?_, ?_⟩
  · rw [hdevice]
    exact length_tx_transmit hc byte
  · obtain ⟨lsr, hregs⟩ := (d.sends_transmit byte).exists_regs
    rw [hdevice]
    exact congrArg RegisterBank.thr hregs
  · have herrors := congrArg Prod.fst (d.errors_transmit byte)
    rw [hdevice]
    exact herrors.trans (by simp [hroom])
  · have hset : (a.run d).device.settings = d.settings := by
      rw [hdevice]
      exact (d.sends_transmit byte).settings_eq
    rw [hset]
    exact binding_eq_some_iff.mpr ⟨c, hc, rfl, rfl⟩

/-! ### Moves that send a byte -/

/-- Whether a move sends a byte: it writes the data slot outside loopback. -/
def sends (d : Device σ) : Move σ → Bool
  | .operate (.access a) => (d.dataWrite? a).isSome && !d.regs.loopback
  | _ => false

theorem sends_iff {m : Move σ} :
    d.sends m = true ↔ ∃ a byte, m = .operate (.access a) ∧ d.dataWrite? a = some byte ∧
      d.regs.loopback = false := by
  constructor
  · intro h
    cases m with
    | operate op =>
      cases op with
      | access a =>
        simp only [sends, Bool.and_eq_true, Option.isSome_iff_exists, Bool.not_eq_true'] at h
        obtain ⟨⟨byte, hw⟩, hl⟩ := h
        exact ⟨a, byte, rfl, hw, hl⟩
      | _ => cases h
    | _ => cases h
  · rintro ⟨a, byte, rfl, hw, hl⟩
    simp [sends, hw, hl]

/-- Whatever does not send a byte queues none. -/
theorem length_tx_run {m : Move σ} (h : d.sends m = false) :
    (m.run d).tx.toList.length ≤ d.tx.toList.length := by
  have hsent : d.sent m = [] := by
    cases m with
    | operate op =>
      cases op with
      | access a =>
        simp only [sends, Bool.and_eq_false_iff, Option.isSome_eq_false_iff,
          Option.isNone_iff_eq_none, Bool.not_eq_false'] at h
        rcases h with hw | hl
        · simp only [sent, hw]
        · simp only [sent, hl]
          split <;> rfl
      | _ => rfl
    | _ => rfl
  have hbalance := d.balance_move m
  rw [hsent, List.append_nil] at hbalance
  rw [hbalance, List.length_append]
  exact Nat.le_add_left _ _

/-! ### Batches of the size of the threshold -/

/-- Nobody is bound but a consumer with this threshold, and fewer bytes are queued than that. -/
def Below (d : Device σ) (threshold : Nat) : Prop :=
  ∀ b, d.settings.binding = some b → b.2 = threshold ∧ d.tx.toList.length < threshold

/-- **Occupancy stays below the threshold** whatever happens, except that a consumer is bound. -/
theorem Below.run {threshold : Nat} (h : d.Below threshold) {m : Move σ} (hm : d.binds m = false) :
    (m.run d).Below threshold := by
  intro b hb
  have hbinding : d.settings.binding = some b := by
    rcases binding_run hm with hkept | hnone
    · rw [← hkept, hb]
    · rw [hnone] at hb
      cases hb
  obtain ⟨hthreshold, hlength⟩ := h b hbinding
  refine ⟨hthreshold, ?_⟩
  cases hs : d.sends m with
  | false => exact Nat.lt_of_le_of_lt (length_tx_run hs) hlength
  | true =>
    obtain ⟨a, byte, rfl, hw, hl⟩ := sends_iff.mp hs
    obtain ⟨c, hc, -, hct⟩ := binding_eq_some_iff.mp hbinding
    rw [← hthreshold, ← hct]
    exact (sends_of_bound hw hl hc).below

theorem Below.after {threshold : Nat} (h : d.Below threshold) {ms : List (Move σ)}
    (hms : ∀ x ∈ d.moments ms, x.1.binds x.2 = false) : (d.after ms).Below threshold := by
  induction ms generalizing d with
  | nil => exact h
  | cons m ms ih =>
    rw [moments, List.forall_mem_cons] at hms
    exact ih (h.run hms.1) hms.2

/-- A consumer that is bound to an empty queue is below its threshold. -/
theorem below_of_binds {threshold : Nat} {label : String} (hempty : d.tx.toList = [])
    (h : d.binds (.operate (.bind threshold label)) = true) :
    (Move.run d (.operate (.bind threshold label))).Below threshold := by
  obtain ⟨hbinding, htx⟩ := run_binds h
  intro b hb
  rw [hbinding, Option.some.injEq] at hb
  obtain ⟨c, -, -, hc⟩ := binding_eq_some_iff.mp hbinding
  rw [← hb, htx, hempty, ← hc]
  exact ⟨rfl, c.threshold_pos⟩

/-! ### A full queue -/

/-- Whether a move binds a consumer to a full queue. -/
def bindsFull (d : Device σ) (m : Move σ) : Bool :=
  d.binds m && d.tx.toList.length == Fifo.capacity

/-- **A queue is full under a consumer only if it was when the consumer was bound**, and nothing has
been sent since. -/
theorem raisedSince_bindsFull (hempty : d.tx.toList = []) (ms : List (Move σ))
    (hbound : (d.after ms).settings.binding.isSome = true)
    (hfull : (d.after ms).tx.toList.length = Fifo.capacity) :
    RaisedSince bindsFull sends d ms := by
  induction ms using List.reverseRecOn with
  | nil =>
    rw [after_nil, hempty] at hfull
    cases hfull
  | append_singleton ms m ih =>
    rw [after_append, after_cons, after_nil] at hbound hfull
    rw [raisedSince_concat]
    cases hb : (d.after ms).binds m with
    | true =>
      refine Or.inl ?_
      obtain ⟨threshold, label, rfl⟩ := exists_of_binds hb
      rw [(run_binds hb).2] at hfull
      simp [bindsFull, hb, hfull]
    | false =>
      have hbefore : (d.after ms).settings.binding.isSome = true := by
        rcases binding_run hb with hkept | hnone
        · rw [← hkept, hbound]
        · rw [hnone] at hbound
          cases hbound
      cases hs : (d.after ms).sends m with
      | true =>
        -- The consumer was bound to what it was sent, so the queue cannot be full.
        obtain ⟨a, byte, rfl, hw, hl⟩ := sends_iff.mp hs
        obtain ⟨b, hb'⟩ := Option.isSome_iff_exists.mp hbefore
        obtain ⟨c, hc, -⟩ := binding_eq_some_iff.mp hb'
        have hbelow := (sends_of_bound hw hl hc).below
        have hle := c.threshold_le
        rw [Move.run, Operation.run] at hfull
        omega
      | false =>
        have hle := length_tx_run hs
        have hcap := (d.after ms).tx.length_toList_le
        exact Or.inr ⟨ih hbefore (by omega), rfl⟩

/-! ### The calls of a register access -/

/-- The value that an access writes to the interrupt enable register of an initialized device whose
divisor latch access bit is clear. -/
def enableWrite? (d : Device σ) : Access → Option UInt8
  | .write offset value | .output offset value =>
    if d.initialized = true ∧ offset = Offset.interruptEnable ∧ d.regs.divisorAccess = false then
      some value
    else
      none
  | _ => none

/-- Such an access comes to a write of the interrupt enable register. -/
theorem enableWrite?_eq_some_iff {a : Access} {value : UInt8} :
    d.enableWrite? a = some value ↔ a.effect d = .writes .interruptEnable value := by
  cases a with
  | write offset byte | output offset byte =>
    rw [Access.effect, writeEffect_eq_writes_iff, WriteRegister.decode_eq_interruptEnable_iff]
    simp [enableWrite?, and_assoc]
  | read offset | input offset =>
    simp only [enableWrite?, Access.effect, reduceCtorEq, false_iff]
    rcases d.readEffect_cases offset with h | h | ⟨_, h⟩ <;> simp [h]
  | inject bytes | signalBreak =>
    simp only [enableWrite?, Access.effect, reduceCtorEq, false_iff]
    split_ifs <;> simp
  | flush reason | reset | detach => simp [enableWrite?, Access.effect]

/-- Whether an access masks the transmitter interrupt with bytes queued: it writes the interrupt
enable register and clears the bit of this interrupt, which was set. -/
def MasksQueued (d : Device σ) (a : Access) (value : UInt8) : Prop :=
  d.enableWrite? a = some value ∧
    hasBit d.regs.ier InterruptEnable.transmitterEmpty = true ∧
    hasBit value InterruptEnable.transmitterEmpty = false ∧ d.tx.toList ≠ []

/-- What a write of the interrupt enable register says to the consumer, if one is bound. -/
theorem calls_writeInterruptEnable (d : Device σ) (value : UInt8) :
    (d.writeInterruptEnable value).2 =
      if hasBit d.regs.ier InterruptEnable.transmitterEmpty = true ∧
          hasBit value InterruptEnable.transmitterEmpty = false ∧ d.tx.toList ≠ [] then
        d.consumer.toList.map (·.call d.line d.tx.toList .idle)
      else
        [] := by
  have hcalls : (d.writeInterruptEnable value).2 =
      (d.maskDepartures value).filterMap (·.call? d.line) := d.calls_flushDepartures _ .idle
  rw [hcalls, maskDepartures, calls_flushIf]
  simp [Fifo.isEmpty_eq, and_assoc]

/-- **A call of a consumer by a register access** is one of the policy, because the access sends a
byte, or is made because the access masks the transmitter interrupt with bytes queued. -/
theorem call_cases {a : Access} (ha : a.isRegister = true) {f : Flush}
    (hf : f ∈ (a.run d).flushes) :
    ∃ c, d.consumer = some c ∧
      ((∃ byte, d.dataWrite? a = some byte ∧ d.regs.loopback = false ∧
          f ∈ c.called d.line d.tx.toList byte) ∨
        ∃ value, d.MasksQueued a value ∧ f = c.call d.line d.tx.toList .idle) := by
  rw [a.flushes_effect] at hf
  cases a with
  | read offset | input offset =>
    have hnil : ((d.readEffect offset).run d).2 = [] := d.flushes_readEffect offset
    rw [Access.effect, hnil] at hf
    cases hf
  | write offset value | output offset value =>
    rw [Access.effect] at hf
    rcases d.writeEffect_cases offset value with h | h | ⟨register, h⟩
    · rw [h] at hf
      cases hf
    · rw [h] at hf
      cases hf
    · rw [h] at hf
      cases register with
      | transmitHold =>
        have hw := dataWrite?_eq_some_iff (a := .write offset value).mpr h
        cases hl : d.regs.loopback with
        | true => simp [Effect.run, writeRegister, writeData, hl] at hf
        | false =>
          simp only [Effect.run, writeRegister, writeData, hl, Bool.false_eq_true, if_false] at hf
          cases hc : d.consumer with
          | none =>
            rw [transmit_uncalled hc] at hf
            cases hf
          | some c =>
            rw [transmit_called hc] at hf
            exact ⟨c, rfl, Or.inl ⟨value, hw, rfl, hf⟩⟩
      | interruptEnable =>
        have hw := enableWrite?_eq_some_iff (a := .write offset value).mpr h
        rw [Effect.run, writeRegister, calls_writeInterruptEnable] at hf
        split_ifs at hf with hmask
        · obtain ⟨c, hc, rfl⟩ := List.mem_map.mp hf
          exact ⟨c, Option.mem_toList.mp hc, Or.inr ⟨value, ⟨hw, hmask⟩, rfl⟩⟩
        · cases hf
      | _ => cases hf
  | _ => cases ha

/-- Below the threshold no call is made because the queue is full, and each that reaches the
threshold hands over exactly that many bytes. -/
theorem Below.call {threshold : Nat} (h : d.Below threshold) {a : Access}
    (ha : a.isRegister = true) {f : Flush} (hf : f ∈ (a.run d).flushes) :
    f.reason ≠ .full ∧ (f.reason = .threshold → f.bytes.length = threshold) := by
  obtain ⟨c, hc, hcall⟩ := call_cases ha hf
  obtain ⟨hthreshold, hlength⟩ := h _ (binding_eq_some_iff.mpr ⟨c, hc, rfl, rfl⟩)
  simp only at hthreshold
  have hle := c.threshold_le
  obtain ⟨byte, -, -, hcalled⟩ | ⟨value, -, rfl⟩ := hcall
  · obtain ⟨rfl, hfull⟩ | ⟨rfl, hone⟩ | ⟨rfl, hreached⟩ := Consumer.mem_called hcalled
    · omega
    · exact ⟨by simp [Consumer.call], fun _ => by simp [Consumer.call]; omega⟩
    · refine ⟨by simp [Consumer.call], fun _ => ?_⟩
      simp only [Consumer.call, List.length_append, List.length_singleton]
      omega
  · exact ⟨by simp [Consumer.call], fun hreason => by cases hreason⟩

/-- Masking the transmitter interrupt with bytes queued leaves nothing queued and the register as it
was written. -/
theorem MasksQueued.run {a : Access} {value : UInt8} (h : d.MasksQueued a value) :
    (a.run d).device.tx.toList = [] ∧
      (a.run d).device.regs.ier = value &&& InterruptEnable.implemented ∧
      (a.run d).flushes = d.consumer.toList.map (·.call d.line d.tx.toList .idle) := by
  obtain ⟨hw, hmask⟩ := h
  have hbalance : d.tx.toList = (d.maskDepartures value).flatMap (·.bytes) ++
      (d.writeInterruptEnable value).1.tx.toList := d.balance_flush _ .idle
  have hdepart : d.maskDepartures value = [d.flushDeparture .idle] := by
    simp [maskDepartures, flushDepartures, hmask.1, hmask.2.1, Fifo.isEmpty_eq, hmask.2.2]
  rw [a.device_effect, a.flushes_effect, enableWrite?_eq_some_iff.mp hw]
  refine ⟨?_, ?_, ?_⟩
  · rw [hdepart] at hbalance
    simpa [flushDeparture, Effect.run, writeRegister, refresh] using hbalance
  · exact congrArg Settings.interruptEnable (d.settings_writeInterruptEnable value)
  · exact (d.calls_writeInterruptEnable value).trans (if_pos hmask)

/-! ### The policy over runs -/

/-- **When a consumer is called.** After any run of a device, a byte sent to a bound consumer makes
exactly the calls of the policy; fewer bytes than the consumer waits for stay queued, and none is
lost. Of the register accesses:

* a call because the queue is full is made by the first byte sent since a consumer was bound to the
  queue full as it is;
* from the binding of a consumer to an empty queue to the next binding, no call is made because the
  queue is full, and each that reaches the threshold hands over exactly that many bytes;
* a call because the transmitter is idle is made exactly by a write which masks the transmitter
  interrupt with bytes queued, and such a write leaves nothing queued and the register written. -/
theorem called_by_policy (info : LineInfo) (counting : Bool) (ms : List (Move σ)) :
    let born : Device σ := create info counting
    let d := born.after ms
    (∀ (a : Access) (byte : UInt8) (c : Consumer), d.dataWrite? a = some byte →
        d.regs.loopback = false → d.consumer = some c → d.SendsTo c byte (a.run d)) ∧
      (∀ a : Access, a.isRegister = true → ∀ f ∈ (a.run d).flushes, f.reason = .full →
        d.sends (.operate (.access a)) = true ∧ f.bytes = d.tx.toList ∧
          RaisedSince bindsFull sends born ms) ∧
      (∀ (threshold : Nat) (label : String) (ns : List (Move σ)),
        let e := Move.run d (.operate (.bind threshold label))
        d.binds (.operate (.bind threshold label)) = true → d.tx.toList = [] →
          (∀ x ∈ e.moments ns, x.1.binds x.2 = false) →
          ∀ a : Access, a.isRegister = true → ∀ f ∈ (a.run (e.after ns)).flushes,
            f.reason ≠ .full ∧ (f.reason = .threshold → f.bytes.length = threshold)) ∧
      ∀ a : Access, a.isRegister = true →
        ((∃ f ∈ (a.run d).flushes, f.reason = .idle) ↔
          d.consumer.isSome = true ∧ ∃ value, d.MasksQueued a value) ∧
        ∀ value, d.MasksQueued a value →
          (a.run d).device.tx.toList = [] ∧
            (a.run d).device.regs.ier = value &&& InterruptEnable.implemented := by
  intro born d
  refine ⟨fun a byte c hw hl hc => sends_of_bound hw hl hc, ?_, ?_, ?_⟩
  · intro a ha f hf hreason
    obtain ⟨c, hc, ⟨byte, hw, hl, hcalled⟩ | ⟨value, -, rfl⟩⟩ := call_cases ha hf
    · obtain ⟨rfl, hlength⟩ | ⟨rfl, -⟩ | ⟨rfl, -⟩ := Consumer.mem_called hcalled
      · have hbound : d.settings.binding.isSome = true := by simp [settings, hc]
        exact ⟨sends_iff.mpr ⟨a, byte, rfl, hw, hl⟩, rfl,
          raisedSince_bindsFull (Fifo.toList_reset _) ms hbound hlength⟩
      · cases hreason
      · cases hreason
    · cases hreason
  · intro threshold label ns e hbinds hempty hns a ha f hf
    have hbelow : (e.after ns).Below threshold := (below_of_binds hempty hbinds).after hns
    exact hbelow.call ha hf
  · intro a ha
    refine ⟨⟨?_, ?_⟩, fun value h => ⟨h.run.1, h.run.2.1⟩⟩
    · rintro ⟨f, hf, hreason⟩
      obtain ⟨c, hc, ⟨byte, -, -, hcalled⟩ | ⟨value, hmask, -⟩⟩ := call_cases ha hf
      · obtain ⟨rfl, -⟩ | ⟨rfl, -⟩ | ⟨rfl, -⟩ := Consumer.mem_called hcalled <;> cases hreason
      · exact ⟨by rw [hc]; rfl, value, hmask⟩
    · rintro ⟨hbound, value, hmask⟩
      obtain ⟨c, hc⟩ := Option.isSome_iff_exists.mp hbound
      refine ⟨c.call d.line d.tx.toList .idle, ?_, rfl⟩
      rw [hmask.run.2.2, hc]
      simp

/-- A consumer that takes single bytes is bound to sixteen: the next byte hands over those, because
the queue is full, and then itself. A consumer that waits for sixteen is bound to none: the
sixteenth byte reaches the threshold and does not find the queue full. And a byte that waits is
handed over as the transmitter interrupt is masked. -/
theorem called_at_sixteen :
    let info : LineInfo := { line := 0, ioBase := 0x3F8, irq := 4, baudBase := 115200 }
    let born : Device Unit := create info true
    let send (byte : UInt8) : Move Unit := .operate (.access (.output Offset.data byte))
    let a : Access := .output Offset.data 0x42
    let queued := List.replicate 16 (send 0x41) ++ [.operate (.bind 1 "out")]
    let e := Move.run born (.operate (.bind 16 "out"))
    let ns := List.replicate 15 (send 0x41)
    let unmasked := [.operate (.bind 16 "out"),
      .operate (.access (.output Offset.interruptEnable 2)), send 0x41]
    ((a.run (born.after queued)).flushes =
        [{ label := "out", line := 0, bytes := List.replicate 16 0x41, reason := .full },
          { label := "out", line := 0, bytes := [0x42], reason := .threshold }] ∧
      (a.run (born.after queued)).device.tx.toList.length < 1 ∧
      RaisedSince bindsFull sends born queued) ∧
    (∃ f, (a.run (e.after ns)).flushes = [f] ∧ f.reason = .threshold ∧ f.bytes.length = 16) ∧
      ∃ f ∈ ((Access.output Offset.interruptEnable 0).run (born.after unmasked)).flushes,
        f.reason = .idle := by
  intro info born send a queued e ns unmasked
  have hw : (born.after queued).dataWrite? a = some 0x42 := by decide +kernel
  have hl : (born.after queued).regs.loopback = false := by decide +kernel
  have hb : (born.after queued).settings.binding = some ("out", 1) := by decide +kernel
  have htx : (born.after queued).tx.toList = List.replicate 16 0x41 := by decide +kernel
  have hline : (born.after queued).line = 0 := by decide +kernel
  have hempty : born.tx.toList = [] := by decide +kernel
  have hbinds : born.binds (.operate (.bind 16 "out")) = true := by decide +kernel
  have hns : ∀ x ∈ e.moments ns, x.1.binds x.2 = false := by decide +kernel
  have hsixteen : ∃ f, (a.run (e.after ns)).flushes = [f] ∧ f.reason = .threshold :=
    ⟨{ label := "out", line := 0, bytes := List.replicate 15 0x41 ++ [0x42], reason := .threshold },
      by decide +kernel⟩
  have hmask : (born.after unmasked).settings.binding.isSome = true ∧
      (born.after unmasked).enableWrite? (.output Offset.interruptEnable 0) = some 0 ∧
      hasBit (born.after unmasked).regs.ier InterruptEnable.transmitterEmpty = true ∧
      hasBit 0 InterruptEnable.transmitterEmpty = false ∧
      (born.after unmasked).tx.toList ≠ [] := by decide +kernel
  clear_value queued ns unmasked
  obtain ⟨c, hc, hlabel, hthreshold⟩ := binding_eq_some_iff.mp hb
  refine ⟨?_, ?_, ?_⟩
  · obtain ⟨hsends, hfull, -⟩ := called_by_policy (σ := Unit) info true queued
    have hsent := hsends a 0x42 c hw hl hc
    have hcalls := hsent.flushes_eq
    rw [htx, hline, Consumer.called, if_pos (by rfl), if_pos hthreshold, Consumer.call,
      Consumer.call, hlabel] at hcalls
    refine ⟨hcalls, hthreshold ▸ hsent.below, ?_⟩
    exact (hfull a rfl _ (by rw [hcalls]; exact List.mem_cons_self) rfl).2.2
  · obtain ⟨f, hf, hreason⟩ := hsixteen
    obtain ⟨-, -, hexact, -⟩ := called_by_policy (σ := Unit) info true []
    have hmem : f ∈ (a.run (e.after ns)).flushes := by simp [hf]
    have hcall := hexact 16 "out" ns hbinds hempty hns a rfl f hmem
    exact ⟨f, hf, hreason, hcall.2 hreason⟩
  · obtain ⟨-, -, -, hidle⟩ := called_by_policy (σ := Unit) info true unmasked
    have hbound : (born.after unmasked).consumer.isSome = true := by
      simpa [settings] using hmask.1
    exact (hidle _ rfl).1.mpr ⟨hbound, 0, hmask.2⟩

end Device

end Uart16550
