import Mathlib.Data.List.Induction
import Uart16550.Proofs.LineErrors

/-!
# What is written is read back

Eight registers keep what the host writes to them. Four of them share offsets 0 and 1, and which of
them a write means depends on a bit that is itself written in the course of the run; one of them is
also written by every byte sent, and a write to another may flush the transmit queue on its way.
Each of them nevertheless holds a function of its own history and of nothing else: the byte written
to it last since creation or the last reset, in the part that the register keeps.

Every transition writes one register, and besides it at most the line status and the identification
(`Effect.put`, `bank_effect`). `Device.latest?` is the shape of history: what was noted last, going
back no further than to the last reset. A register whose every move either notes a byte that it then
holds, or resets it, or leaves it alone, holds what was noted last (`held_after`).
-/

namespace Uart16550

/-! ### Registers that keep what is written -/

namespace WriteRegister

/-- Whether a register answers writes at its offset while the divisor latch access bit is this. -/
def answers (divisorAccess : Bool) : WriteRegister → Bool
  | .transmitHold | .interruptEnable => !divisorAccess
  | .divisorLow | .divisorHigh => divisorAccess
  | .fifoControl | .lineControl | .modemControl | .scratch => true

/-- What a register keeps of a byte that is written to it: the low four bits, the low five bits,
nothing at all if the enable bit is clear, or the byte as it is. -/
def keeps (value : UInt8) : WriteRegister → UInt8
  | .interruptEnable => value &&& 0x0F
  | .modemControl => value &&& 0x1F
  | .fifoControl => if hasBit value FifoControl.enable then value else 0
  | .transmitHold | .lineControl | .scratch | .divisorLow | .divisorHigh => value

/-- What a register holds before anything is written to it. -/
def initially : WriteRegister → UInt8
  | .modemControl => ModemControl.out2
  | _ => 0

/-- What a register holds that was written last with this byte, or was not written. -/
def held (register : WriteRegister) (last : Option UInt8) : UInt8 :=
  last.elim register.initially fun value => register.keeps value

/-- A register is written at its offset while it answers there, and nowhere else. -/
theorem decode_eq_ok_iff {offset : UInt8} {divisorAccess : Bool} {register : WriteRegister} :
    WriteRegister.decode offset divisorAccess = .ok register ↔
      offset = register.offset ∧ register.answers divisorAccess = true := by
  constructor
  · intro h
    obtain rfl := WriteRegister.eq_offset_of_decode h
    refine ⟨rfl, ?_⟩
    cases register <;> cases divisorAccess <;> first | rfl | cases h
  · rintro ⟨rfl, hanswers⟩
    cases register <;> cases divisorAccess <;> first | rfl | cases hanswers

end WriteRegister

/-- The offset at which an access reads or writes. -/
def Access.offset? : Access → Option UInt8
  | .read offset | .input offset | .write offset _ | .output offset _ => some offset
  | .inject _ | .signalBreak | .flush _ | .reset | .detach => none

namespace RegisterBank

/-- What stands in a register that can be written. -/
def stored (r : RegisterBank) : WriteRegister → UInt8
  | .transmitHold => r.thr
  | .interruptEnable => r.ier
  | .fifoControl => r.fcr
  | .lineControl => r.lcr
  | .modemControl => r.mcr
  | .scratch => r.scr
  | .divisorLow => r.dll
  | .divisorHigh => r.dlm

/-- The bank with one register replaced. -/
def put (r : RegisterBank) (value : UInt8) : WriteRegister → RegisterBank
  | .transmitHold => { r with thr := value }
  | .interruptEnable => { r with ier := value }
  | .fifoControl => { r with fcr := value }
  | .lineControl => { r with lcr := value }
  | .modemControl => { r with mcr := value }
  | .scratch => { r with scr := value }
  | .divisorLow => { r with dll := value }
  | .divisorHigh => { r with dlm := value }

theorem stored_put (r : RegisterBank) (value : UInt8) (register other : WriteRegister) :
    (r.put value register).stored other = if register = other then value else r.stored other := by
  cases register <;> cases other <;> rfl

theorem rbr_put (r : RegisterBank) (value : UInt8) (register : WriteRegister) :
    (r.put value register).rbr = r.rbr := by
  cases register <;> rfl

end RegisterBank

variable {σ : Type}

namespace Device

/-! ### One register and the line status -/

theorem regs_receive (d : Device σ) (byte : UInt8) :
    ∃ lsr, (d.receive byte).regs = { d.regs with lsr := lsr } := by
  cases h : d.rx.push? byte <;> simp only [receive, h] <;> exact ⟨_, rfl⟩

/-- A data write stores its byte, in loopback too. -/
theorem regs_writeData (d : Device σ) (value : UInt8) :
    ∃ lsr, (d.writeData value).1.regs = { d.regs with thr := value, lsr := lsr } := by
  simp only [writeData]
  split
  · exact regs_receive (d.hold value) value
  · exact (d.sends_transmit value).exists_regs

/-- The byte that a read of the data register takes out. -/
def withdrawn? (d : Device σ) : Option UInt8 := (d.readWithdrawals.flatMap (·.bytes)).head?

theorem regs_readData (d : Device σ) :
    ∃ lsr, d.readData.2.regs = { d.regs with rbr := d.withdrawn?.getD d.regs.rbr, lsr := lsr } := by
  simp only [readData, withdrawn?, readWithdrawals]
  split_ifs
  · exact ⟨_, rfl⟩
  · cases h : d.rx.pop? <;> exact ⟨_, rfl⟩
  · exact ⟨_, rfl⟩

/-- A write of a register stores what the register keeps, and of the rest of the bank changes the
line status at most. -/
theorem regs_writeRegister (d : Device σ) (value : UInt8) (register : WriteRegister) :
    ∃ lsr, (d.writeRegister value register).1.regs =
      { d.regs.put (register.keeps value) register with lsr := lsr } := by
  cases register with
  | transmitHold => exact d.regs_writeData value
  | interruptEnable =>
    obtain ⟨lsr, hflush⟩ := (d.sends_flushIf
      (hasBit d.regs.ier InterruptEnable.transmitterEmpty &&
        !hasBit value InterruptEnable.transmitterEmpty && !d.tx.isEmpty) .idle).exists_regs
    exact ⟨lsr, by simp only [writeRegister, writeInterruptEnable, hflush]; rfl⟩
  | fifoControl =>
    simp only [writeRegister, writeFifoControl, WriteRegister.keeps]
    split_ifs <;> exact ⟨_, rfl⟩
  | _ => exact ⟨_, rfl⟩

/-- What an effect puts into the registers other than the line status and the identification. -/
def Effect.put (d : Device σ) : Effect → RegisterBank
  | .writes register value => d.regs.put (register.keeps value) register
  | .reads .receiveHold => { d.regs with rbr := d.withdrawn?.getD d.regs.rbr }
  | .resets => .powerOn
  | _ => d.regs

theorem regs_queue (d : Device σ) (bytes : List UInt8) :
    ∃ lsr, (d.queue bytes).regs = { d.regs with lsr := lsr } := by
  simp only [queue]
  split <;> exact ⟨_, rfl⟩

/-- The identification is brought up to date at the end of every effect. -/
theorem bank_refresh {d : Device σ} {r : RegisterBank} (h : ∃ lsr, d.regs = { r with lsr := lsr }) :
    ∃ iir lsr, d.refresh.regs = { r with iir := iir, lsr := lsr } := by
  obtain ⟨lsr, hregs⟩ := h
  have hrefresh : d.refresh.regs = { d.regs with iir := d.regs.ident } := rfl
  exact ⟨_, lsr, by rw [hrefresh, hregs]⟩

/-- **Every effect** changes the registers as it puts them, the line status and the identification
apart. -/
theorem bank_effect (d : Device σ) (e : Effect) :
    ∃ iir lsr, (e.run d).1.regs = { e.put d with iir := iir, lsr := lsr } := by
  cases e with
  | reads register =>
    cases register with
    | receiveHold => exact bank_refresh d.regs_readData
    | _ => exact ⟨_, _, rfl⟩
  | writes register value => exact bank_refresh (d.regs_writeRegister value register)
  | queues bytes => exact bank_refresh (d.regs_queue bytes)
  | flushes reason => exact bank_refresh (d.sends_flush reason).exists_regs
  | _ => exact ⟨_, _, rfl⟩

theorem bank_access (d : Device σ) (a : Access) :
    ∃ iir lsr, ((Move.operate (.access a)).run d).regs =
      { (a.effect d).put d with iir := iir, lsr := lsr } := by
  have hrun : (Move.operate (.access a)).run d = ((a.effect d).run d).1 := a.device_effect d
  rw [hrun]
  exact d.bank_effect (a.effect d)

/-- Whatever is not an access changes the identification at most. -/
theorem regs_of_not_access (d : Device σ) {m : Move σ} (h : ∀ a, m ≠ .operate (.access a)) :
    ∃ iir, (m.run d).regs = { d.regs with iir := iir } := by
  cases m with
  | operate op =>
    have hop : ∀ a, op ≠ .access a := fun a ha => h a (ha ▸ rfl)
    have hrun : (Move.operate op).run d = (op.run d).device := rfl
    rw [hrun]
    rcases d.operate_cases hop with ⟨⟨c, m, hd⟩, -⟩ | ⟨sink, rfl⟩ | ⟨hd, -⟩ | ⟨hd, -⟩
    · rw [hd]
      exact ⟨_, rfl⟩
    · exact ⟨_, rfl⟩
    · rw [hd]
      exact ⟨_, rfl⟩
    · rw [hd]
      exact ⟨_, rfl⟩
  | release => exact ⟨_, rfl⟩
  | _ => exact ⟨d.regs.iir, (d.run_keeps (by simp) (by simp)).1⟩

/-! ### What was noted last -/

/-- Whether a move is a reset. -/
def Move.isReset : Move σ → Bool
  | .operate (.access .reset) => true
  | _ => false

variable {α : Type}

/-- What was noted last in the course of a list of moves, going back to the last reset, or to the
beginning if there was none. -/
def latest? (note : Device σ → Move σ → Option α) (d : Device σ) (ms : List (Move σ)) : Option α :=
  ((d.moments ms).reverse.takeWhile fun x => !x.2.isReset).findSome? fun x => note x.1 x.2

/-- A move more resets everything, or is what was noted last, or leaves that as it was. -/
theorem latest?_concat (note : Device σ → Move σ → Option α) (d : Device σ) (ms : List (Move σ))
    (m : Move σ) :
    latest? note d (ms ++ [m]) =
      if m.isReset then none else (note (d.after ms) m).or (latest? note d ms) := by
  have hmoments : d.moments (ms ++ [m]) = d.moments ms ++ [(d.after ms, m)] :=
    moments_append d ms [m]
  rw [latest?, hmoments, List.reverse_concat, List.takeWhile_cons]
  cases hm : m.isReset with
  | true => simp
  | false => cases hn : note (d.after ms) m <;> simp [hn, latest?]

/-- **A register is its history** if every move resets it, puts into it what it notes, or leaves it
alone: it holds what was noted last. -/
theorem held_after (value : Device σ → UInt8) {note : Device σ → Move σ → Option α}
    {initial : UInt8} {keeps : α → UInt8}
    (step : ∀ d : Device σ, d.Reachable → ∀ m, value (Move.run d m) =
      if m.isReset then initial else (note d m).elim (value d) keeps)
    {d : Device σ} (hd : d.Reachable) (hinitial : value d = initial) (ms : List (Move σ)) :
    value (d.after ms) = (latest? note d ms).elim initial keeps := by
  -- From the end, because the last move decides what was noted last.
  induction ms using List.reverseRecOn with
  | nil => exact hinitial
  | append_singleton ms m ih =>
    have hrun : value (d.after (ms ++ [m])) = value (m.run (d.after ms)) := by
      rw [after_append]
      rfl
    rw [hrun, step (d.after ms) (hd.after ms) m, latest?_concat, ih]
    cases m.isReset with
    | true => rfl
    | false => cases note (d.after ms) m <;> rfl

/-! ### Bytes written and bytes taken out -/

/-- The byte that a move writes to a register: that of a write at the offset of the register, on an
initialized device, while the register answers there. -/
def written? (register : WriteRegister) (d : Device σ) : Move σ → Option UInt8
  | .operate (.access (.write offset value)) | .operate (.access (.output offset value)) =>
    if d.initialized = true ∧ offset = register.offset ∧
        register.answers d.regs.divisorAccess = true then
      some value
    else
      none
  | _ => none

/-- What a register holds after a list of moves, by what was written to it last. -/
def heldAfter (d : Device σ) (ms : List (Move σ)) (register : WriteRegister) : UInt8 :=
  register.held (latest? (written? register) d ms)

/-- The byte that a move takes out of the receive queue: a data read takes the oldest, unless there
is a break to be read first. -/
def taken? (d : Device σ) : Move σ → Option UInt8
  | .operate (.access a) =>
    if d.isDataRead a = true ∧ d.regs.lsr.breakInterrupt = false then d.rx.toList.head? else none
  | _ => none

/-- A byte is written by the accesses that come to a write of the register. -/
theorem written?_eq_some_iff {register : WriteRegister} {d : Device σ} {a : Access} {byte : UInt8} :
    written? register d (.operate (.access a)) = some byte ↔
      a.effect d = .writes register byte := by
  cases a with
  | write offset value | output offset value =>
    rw [Access.effect, writeEffect_eq_writes_iff, WriteRegister.decode_eq_ok_iff]
    simp [written?, and_assoc]
  | read offset | input offset =>
    simp only [written?, Access.effect, reduceCtorEq, false_iff]
    rcases d.readEffect_cases offset with h | h | ⟨_, h⟩ <;> simp [h]
  | inject bytes | signalBreak =>
    simp only [written?, Access.effect, reduceCtorEq, false_iff]
    split_ifs <;> simp
  | flush reason | reset | detach => simp [written?, Access.effect]

/-- On a reachable device, what a data read takes out is what it withdraws. -/
theorem taken?_eq_withdrawn? {d : Device σ} (hd : d.Reachable) {a : Access}
    (ha : d.isDataRead a = true) : d.taken? (.operate (.access a)) = d.withdrawn? := by
  obtain ⟨hi, -, -⟩ := run_dataRead ha
  have hflag : d.receiver.Flagged := (truthful_of_reachable hd).receives hi
  cases hb : d.regs.lsr.breakInterrupt with
  | true =>
    obtain ⟨-, -, hw⟩ := readData_of_nothing hflag (Or.inl hb)
    simp [taken?, withdrawn?, hb, hw]
  | false =>
    cases hq : d.rx.toList with
    | nil =>
      obtain ⟨-, -, hw⟩ := readData_of_nothing hflag (Or.inr hq)
      simp [taken?, withdrawn?, hq, hw]
    | cons byte rest =>
      obtain ⟨-, -, hw⟩ := readData_of_cons hflag hb hq
      simp [taken?, withdrawn?, ha, hb, hq, hw]

theorem isReset_access {d : Device σ} {a : Access} :
    (Move.operate (.access a) : Move σ).isReset = true ↔ a.effect d = .resets := by
  rw [effect_eq_resets_iff]
  cases a <;> simp [Move.isReset]

/-- Whatever is not an access resets nothing, writes nothing and takes out nothing. -/
theorem quiet_of_not_access (d : Device σ) {m : Move σ} (h : ∀ a, m ≠ .operate (.access a)) :
    m.isReset = false ∧ (∀ register, written? register d m = none) ∧ d.taken? m = none := by
  cases m with
  | operate op =>
    cases op with
    | access a => exact absurd rfl (h a)
    | _ => exact ⟨rfl, fun _ => rfl, rfl⟩
  | _ => exact ⟨rfl, fun _ => rfl, rfl⟩

/-! ### The step -/

/-- **What a move leaves in a register** is what a reset leaves there, or what the register keeps of
the byte written to it, or what was there before. -/
theorem stored_run (register : WriteRegister) (d : Device σ) (m : Move σ) :
    (m.run d).regs.stored register =
      if m.isReset then register.initially
      else (written? register d m).elim (d.regs.stored register) fun value =>
        register.keeps value := by
  by_cases hacc : ∃ a, m = .operate (.access a)
  · obtain ⟨a, rfl⟩ := hacc
    obtain ⟨iir, lsr, hbank⟩ := d.bank_access a
    have hstored : ((Move.operate (.access a)).run d).regs.stored register =
        ((a.effect d).put d).stored register := by
      rw [hbank]
      cases register <;> rfl
    rw [hstored]
    by_cases hreset : a.effect d = .resets
    · rw [if_pos (isReset_access.mpr hreset), hreset]
      cases register <;> rfl
    rw [if_neg fun h => hreset (isReset_access.mp h)]
    cases hw : written? register d (.operate (.access a)) with
    | some value =>
      rw [written?_eq_some_iff.mp hw, Effect.put, RegisterBank.stored_put, if_pos rfl]
      rfl
    | none =>
      cases he : a.effect d with
      | writes other value =>
        -- This is where a write means one of two registers at the same offset, and not this one.
        have hne : other ≠ register := by
          rintro rfl
          rw [written?_eq_some_iff.mpr he] at hw
          cases hw
        rw [Effect.put, RegisterBank.stored_put, if_neg hne]
        rfl
      | reads other => cases other <;> cases register <;> rfl
      | resets => exact absurd he hreset
      | _ => rfl
  · obtain ⟨iir, hregs⟩ := d.regs_of_not_access (not_exists.mp hacc)
    obtain ⟨hreset, hw, -⟩ := d.quiet_of_not_access (not_exists.mp hacc)
    rw [hreset, hw register, hregs]
    cases register <;> rfl

/-- The same of the receive buffer and the bytes that are taken out. -/
theorem rbr_run {d : Device σ} (hd : d.Reachable) (m : Move σ) :
    (m.run d).regs.rbr = if m.isReset then 0 else (d.taken? m).elim d.regs.rbr id := by
  by_cases hacc : ∃ a, m = .operate (.access a)
  · obtain ⟨a, rfl⟩ := hacc
    obtain ⟨iir, lsr, hbank⟩ := d.bank_access a
    rw [hbank]
    by_cases hreset : a.effect d = .resets
    · rw [if_pos (isReset_access.mpr hreset), hreset]
      rfl
    rw [if_neg fun h => hreset (isReset_access.mp h)]
    by_cases hread : d.isDataRead a = true
    · -- A reachable device is needed here: its flags tell whether a byte is queued.
      rw [taken?_eq_withdrawn? hd hread, isDataRead_iff.mp hread]
      cases hw : d.withdrawn? <;> simp [Effect.put, hw]
    · have htaken : d.taken? (.operate (.access a)) = none := by simp [taken?, hread]
      rw [htaken]
      cases he : a.effect d with
      | writes register value => exact RegisterBank.rbr_put ..
      | reads register =>
        cases register with
        | receiveHold => exact absurd (isDataRead_iff.mpr he) hread
        | _ => rfl
      | resets => exact absurd he hreset
      | _ => rfl
  · obtain ⟨iir, hregs⟩ := d.regs_of_not_access (not_exists.mp hacc)
    obtain ⟨hreset, -, htaken⟩ := d.quiet_of_not_access (not_exists.mp hacc)
    rw [hreset, htaken, hregs]
    rfl

/-! ### Reads and the divisor latch -/

/-- The device answers a read at `offset` with `byte`, whether the bus reports errors or not. -/
def ReadsAs (d : Device σ) (offset byte : UInt8) : Prop :=
  ((Access.read offset).run d).reply = .byte byte ∧ ((Access.input offset).run d).reply = .byte byte

theorem readsAs_of_decode {d : Device σ} (hi : d.initialized = true) {offset : UInt8}
    (register : ReadRegister) (h : ReadRegister.decode offset d.regs.divisorAccess = .ok register) :
    d.ReadsAs offset (d.readRegister register).1 := by
  have hread : d.read offset =
      (.ok (d.readRegister register).1, (d.readRegister register).2.refresh) := by
    rw [read, if_pos hi, h]
  constructor
  · simp only [Access.run, Outcome.ofResult, hread, Reply.ofExcept]
  · simp only [Access.run, input, hread]

/-- With the divisor latch access bit set, an access at offset 0 or 1 means the latch and nothing
else: it leaves both queues, the line status and the interrupt enable register as they were and
hands nothing to the consumer. -/
structure LatchOnly (d : Device σ) (a : Access) : Prop where
  rx_eq : (a.run d).device.rx = d.rx
  tx_eq : (a.run d).device.tx = d.tx
  lsr_eq : (a.run d).device.regs.lsr = d.regs.lsr
  ier_eq : (a.run d).device.regs.ier = d.regs.ier
  flushes_eq : (a.run d).flushes = []

/-- What an access comes to at offset 0 or 1 with the divisor latch access bit set. -/
theorem effect_of_latch {d : Device σ} (h : d.regs.divisorAccess = true) {a : Access}
    (ha : a.offset? = some 0 ∨ a.offset? = some 1) :
    a.effect d = .refused ∨ a.effect d = .reads .divisorLow ∨ a.effect d = .reads .divisorHigh ∨
      ∃ value, a.effect d = .writes .divisorLow value ∨ a.effect d = .writes .divisorHigh value := by
  cases hi : d.initialized with
  | false =>
    refine Or.inl ?_
    cases a <;> simp [Access.offset?] at ha <;> simp [Access.effect, readEffect, writeEffect, hi]
  | true =>
    refine Or.inr ?_
    cases a <;> simp only [Access.offset?, Option.some.injEq, reduceCtorEq, or_self] at ha <;>
      rcases ha with rfl | rfl <;>
      simp [Access.effect, readEffect, writeEffect, hi, h, ReadRegister.decode, WriteRegister.decode]

theorem latchOnly {d : Device σ} (h : d.regs.divisorAccess = true) {a : Access}
    (ha : a.offset? = some 0 ∨ a.offset? = some 1) : d.LatchOnly a := by
  have hdevice := a.device_effect d
  have hflushes := a.flushes_effect d
  obtain he | he | he | ⟨value, he | he⟩ := effect_of_latch h ha <;> rw [he] at hdevice hflushes <;>
    exact ⟨by rw [hdevice]; rfl, by rw [hdevice]; rfl, by rw [hdevice]; rfl, by rw [hdevice]; rfl,
      hflushes⟩

/-- **Whatever is written is read back.** After any run of a device, the scratch and the line
control register read as the byte written to them last since creation or the last reset, the modem
control register as the low five bits of it, and, each while the divisor latch access bit is as it
has to be, the interrupt enable register as the low four bits and the two halves of the divisor as
they were written; a snapshot shows the byte written last to the data slot, to the FIFO control
register and taken out of the receive queue. While the divisor latch access bit is set, which the
line control register tells, an access at offset 0 or 1 means the latch and nothing else. -/
theorem registers_read_back (info : LineInfo) (counting : Bool) (ms : List (Move σ)) :
    let born : Device σ := create info counting
    let d := born.after ms
    let held := born.heldAfter ms
    (d.initialized = true →
      d.ReadsAs 7 (held .scratch) ∧ d.ReadsAs 3 (held .lineControl) ∧
        d.ReadsAs 4 (held .modemControl) ∧
        (d.regs.divisorAccess = false → d.ReadsAs 1 (held .interruptEnable)) ∧
        (d.regs.divisorAccess = true →
          d.ReadsAs 0 (held .divisorLow) ∧ d.ReadsAs 1 (held .divisorHigh))) ∧
      (d.snapshot.regs.thr = held .transmitHold ∧ d.snapshot.regs.fcr = held .fifoControl ∧
        d.snapshot.regs.rbr = (latest? taken? born ms).getD 0) ∧
      d.regs.divisorAccess = hasBit (held .lineControl) LineControl.divisorAccess ∧
      (d.regs.divisorAccess = true → ∀ a : Access, a.offset? = some 0 ∨ a.offset? = some 1 →
        d.LatchOnly a) := by
  intro born d held
  have hborn : born.Reachable := ⟨info, counting, [], rfl⟩
  have hheld (register : WriteRegister) : d.regs.stored register = held register :=
    held_after (·.regs.stored register) (fun d _ => stored_run register d) hborn
      (by cases register <;> rfl) ms
  have hrbr : d.regs.rbr = (latest? taken? born ms).getD 0 := by
    have hlast : d.regs.rbr = (latest? taken? born ms).elim 0 id :=
      held_after (·.regs.rbr) (fun _ hd => rbr_run hd) hborn rfl ms
    rw [hlast]
    cases latest? taken? born ms <;> rfl
  have hlatch : d.regs.divisorAccess = hasBit (held .lineControl) LineControl.divisorAccess := by
    rw [← hheld .lineControl]
    rfl
  refine ⟨fun hi => ?_, ⟨hheld .transmitHold, hheld .fifoControl, hrbr⟩, hlatch,
    fun hset a ha => latchOnly hset ha⟩
  refine ⟨?_, ?_, ?_, fun hclear => ?_, fun hset => ⟨?_, ?_⟩⟩
  · rw [← hheld .scratch]
    exact readsAs_of_decode hi .scratch rfl
  · rw [← hheld .lineControl]
    exact readsAs_of_decode hi .lineControl rfl
  · rw [← hheld .modemControl]
    exact readsAs_of_decode hi .modemControl rfl
  · rw [← hheld .interruptEnable]
    exact readsAs_of_decode hi .interruptEnable (by rw [hclear]; rfl)
  · rw [← hheld .divisorLow]
    exact readsAs_of_decode hi .divisorLow (by rw [hset]; rfl)
  · rw [← hheld .divisorHigh]
    exact readsAs_of_decode hi .divisorHigh (by rw [hset]; rfl)

/-- A divisor is set, interrupts are asked for and masked again over a queued byte, a byte is taken
out, and all is read back: the byte `0xF0` written at offset 1 leaves no interrupt enabled, the one
written at offset 4 loses its high bits, and the divisor was not touched by any of it. -/
theorem divisor_behind_data :
    let info : LineInfo := { line := 0, ioBase := 0x3F8, irq := 4, baudBase := 115200 }
    let accesses : List Access := [.write 3 0x80, .write 0 0x0C, .output 1 0x01, .write 3 0x03,
      .write 1 0x02, .write 0 0x41, .write 1 0xF0, .write 4 0xEB, .write 2 0x06, .inject [0x55, 0x56],
      .read 0, .write 7 0x5A]
    let ms : List (Move Unit) := .list true :: accesses.map fun a => .operate (.access a)
    let latched := ms ++ [.operate (.access (.write 3 0x83))]
    let born : Device Unit := create info true
    let d := born.after ms
    let e := born.after latched
    d.ReadsAs 7 0x5A ∧ d.ReadsAs 1 0x00 ∧ d.ReadsAs 4 0x0B ∧ d.snapshot.regs.thr = 0x41 ∧
      d.snapshot.regs.fcr = 0 ∧ d.snapshot.regs.rbr = 0x55 ∧ e.ReadsAs 0 0x0C ∧ e.ReadsAs 1 0x01 ∧
      e.LatchOnly (.output 0 0xFF) := by
  intro info accesses ms latched born d e
  have hd : d.initialized = true ∧ d.regs.divisorAccess = false := by decide +kernel
  have he : e.initialized = true ∧ e.regs.divisorAccess = true := by decide +kernel
  have hheld : born.heldAfter ms .scratch = 0x5A ∧ born.heldAfter ms .interruptEnable = 0x00 ∧
      born.heldAfter ms .modemControl = 0x0B ∧ born.heldAfter ms .transmitHold = 0x41 ∧
      born.heldAfter ms .fifoControl = 0 ∧ latest? taken? born ms = some 0x55 := by decide +kernel
  have hlatched : born.heldAfter latched .divisorLow = 0x0C ∧
      born.heldAfter latched .divisorHigh = 0x01 := by decide +kernel
  clear_value latched ms
  obtain ⟨hscr, hier, hmcr, hthr, hfcr, hrbr⟩ := hheld
  obtain ⟨hdll, hdlm⟩ := hlatched
  obtain ⟨hreads, ⟨hsthr, hsfcr, hsrbr⟩, -, -⟩ := registers_read_back (σ := Unit) info true ms
  obtain ⟨hscratch, -, hmodem, henable, -⟩ := hreads hd.1
  obtain ⟨hreads', -, -, hlatch⟩ := registers_read_back (σ := Unit) info true latched
  obtain ⟨-, -, -, -, hdivisor⟩ := hreads' he.1
  obtain ⟨hlow, hhigh⟩ := hdivisor he.2
  refine ⟨?_, ?_, ?_, hsthr.trans hthr, hsfcr.trans hfcr, ?_, ?_, ?_, ?_⟩
  · rwa [hscr] at hscratch
  · rw [hier] at henable
    exact henable hd.2
  · rwa [hmcr] at hmodem
  · rwa [hrbr] at hsrbr
  · rwa [hdll] at hlow
  · rwa [hdlm] at hhigh
  · exact hlatch he.2 (.output 0 0xFF) (Or.inl rfl)

end Device

end Uart16550
