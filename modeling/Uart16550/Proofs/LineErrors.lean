import Mathlib.Data.List.Induction
import Uart16550.Proofs.Status
import Uart16550.Proofs.Transmission

/-!
# Overrun and break are history

Two flags of the line status record that something has happened and stay up until the host takes
note of it. The overrun flag is up exactly if a byte was lost to a full queue since the host last
read the line status or the identification, took out a received byte, or the device was reset; the
break flag exactly if a break came in since the last data read or reset. Nothing else touches
either.

`Device.RaisedSince` is this shape of history. A flag has it if every move raises it, lowers it or
leaves it alone (`raised_after_iff`), and `overrun_run` and `breakInterrupt_run` say of every move
which of the three it does. That breaks between two data reads cost the reader exactly one zero byte
is read off the second.
-/

namespace Uart16550

/-! ### Two more offsets -/

theorem ReadRegister.decode_eq_interruptIdent_iff {offset : UInt8} {divisorAccess : Bool} :
    ReadRegister.decode offset divisorAccess = .ok .interruptIdent ↔ offset = 2 := by
  refine ⟨ReadRegister.eq_offset_of_decode, ?_⟩
  rintro rfl
  rfl

theorem ReadRegister.decode_eq_lineStatus_iff {offset : UInt8} {divisorAccess : Bool} :
    ReadRegister.decode offset divisorAccess = .ok .lineStatus ↔ offset = Offset.lineStatus := by
  refine ⟨ReadRegister.eq_offset_of_decode, ?_⟩
  rintro rfl
  rfl

variable {σ : Type}

namespace Device

/-! ### Raised and not lowered since -/

/-- At some moment of the run it was raised, and at none since was it lowered. -/
def RaisedSince (raises lowers : Device σ → Move σ → Bool) (d : Device σ) (ms : List (Move σ)) :
    Prop :=
  ∃ before x since, d.moments ms = before ++ x :: since ∧ raises x.1 x.2 = true ∧
    ∀ y ∈ since, lowers y.1 y.2 = false

/-- One move more raises it, or does not lower what was up. -/
theorem raisedSince_concat {raises lowers : Device σ → Move σ → Bool} {d : Device σ}
    {ms : List (Move σ)} {m : Move σ} :
    RaisedSince raises lowers d (ms ++ [m]) ↔
      raises (d.after ms) m = true ∨
        RaisedSince raises lowers d ms ∧ lowers (d.after ms) m = false := by
  have hmoments : d.moments (ms ++ [m]) = d.moments ms ++ [(d.after ms, m)] := moments_append d ms [m]
  rw [RaisedSince, hmoments]
  constructor
  · rintro ⟨before, x, since, heq, hraised, hsince⟩
    rcases List.eq_nil_or_concat since with rfl | ⟨since, y, rfl⟩
    · obtain ⟨-, hlast⟩ := List.append_inj' heq rfl
      obtain rfl := List.singleton_inj.mp hlast
      exact Or.inl hraised
    · rw [List.concat_eq_append, ← List.cons_append, ← List.append_assoc] at heq
      obtain ⟨hinit, hlast⟩ := List.append_inj' heq rfl
      obtain rfl := List.singleton_inj.mp hlast
      refine Or.inr ⟨⟨before, x, since, hinit, hraised, fun z hz => ?_⟩, ?_⟩
      · exact hsince z (by simp [hz])
      · exact hsince (d.after ms, m) (by simp)
  · rintro (hraised | ⟨⟨before, x, since, heq, hraised, hsince⟩, hkept⟩)
    · exact ⟨d.moments ms, _, [], rfl, hraised, by simp⟩
    · refine ⟨before, x, since ++ [(d.after ms, m)], by simp [heq], hraised, fun y hy => ?_⟩
      rcases List.mem_append.mp hy with hy | hy
      · exact hsince y hy
      · rw [List.mem_singleton.mp hy]
        exact hkept

/-- **A flag is its history** if every move raises it, lowers it or leaves it as it was: it was
raised and not lowered since, or was up from the start and never lowered. -/
theorem raised_after_iff (flag : Device σ → Bool) {raises lowers : Device σ → Move σ → Bool}
    (step : ∀ d m, flag (Move.run d m) = (raises d m || flag d && !lowers d m)) (d : Device σ)
    (ms : List (Move σ)) :
    flag (d.after ms) = true ↔
      RaisedSince raises lowers d ms ∨
        flag d = true ∧ ∀ x ∈ d.moments ms, lowers x.1 x.2 = false := by
  induction ms using List.reverseRecOn with
  | nil => simp [RaisedSince, moments]
  | append_singleton ms m ih =>
    have hmoments : d.moments (ms ++ [m]) = d.moments ms ++ [(d.after ms, m)] :=
      moments_append d ms [m]
    have hrun : flag (d.after (ms ++ [m])) =
        (raises (d.after ms) m || flag (d.after ms) && !lowers (d.after ms) m) := by
      rw [after_append]
      exact step (d.after ms) m
    rw [hrun, Bool.or_eq_true, Bool.and_eq_true, ih, raisedSince_concat, hmoments]
    simp only [Bool.not_eq_true', List.forall_mem_append, List.forall_mem_singleton]
    tauto

/-- If it was raised at some moment of the run and lowered at none, then it is up. -/
theorem raisedSince_of_exists {raises lowers : Device σ → Move σ → Bool} {d : Device σ}
    {ms : List (Move σ)} (hraised : ∃ x ∈ d.moments ms, raises x.1 x.2 = true)
    (hkept : ∀ x ∈ d.moments ms, lowers x.1 x.2 = false) : RaisedSince raises lowers d ms := by
  obtain ⟨x, hx, hraised⟩ := hraised
  obtain ⟨before, since, heq⟩ := List.append_of_mem hx
  exact ⟨before, x, since, heq, hraised, fun y hy => hkept y (by simp [heq, hy])⟩

/-! ### What raises and what lowers the two flags -/

/-- Whether a byte written to the data slot would be lost: the receive queue is full in loopback,
or else the transmit queue is full and nobody is bound to it. -/
def losesData (d : Device σ) : Bool :=
  if d.regs.loopback then
    d.rx.toList.length == Fifo.capacity
  else
    d.tx.toList.length == Fifo.capacity && d.consumer.isNone

/-- The byte that a move loses to a full queue. -/
def lost (d : Device σ) : Move σ → List UInt8
  | .operate (.access a) =>
    match d.dataWrite? a with
    | some byte => if d.losesData then [byte] else []
    | none => []
  | _ => []

/-- Whether a move loses a byte to a full queue. -/
def losesByte (d : Device σ) (m : Move σ) : Bool := !(d.lost m).isEmpty

/-- Whether an access reads the line status: a read at offset 5 of an initialized device, whatever
the divisor latch access bit. -/
def isStatusRead (d : Device σ) : Access → Bool
  | .read offset | .input offset => d.initialized && offset == Offset.lineStatus
  | _ => false

/-- Whether an access takes out a received byte. -/
def takesByte (d : Device σ) (a : Access) : Bool := d.isDataRead a && !d.readWithdrawals.isEmpty

/-- Whether a move takes note of an overrun: a read of the line status or of the identification, a
data read that takes out a byte, or a reset. -/
def notesOverrun (d : Device σ) : Move σ → Bool
  | .operate (.access a) =>
    d.isStatusRead a || d.isIdentRead a || d.takesByte a || decide (a = .reset)
  | _ => false

/-- Whether a move is a break that the device reports to have come in. -/
def breaks (d : Device σ) : Move σ → Bool
  | .operate (.access .signalBreak) =>
    match d.signalBreak.1 with
    | .ok seen => seen
    | .error _ => false
  | _ => false

/-- Whether a move takes note of a break: a data read or a reset. -/
def notesBreak (d : Device σ) : Move σ → Bool
  | .operate (.access a) => d.isDataRead a || decide (a = .reset)
  | _ => false

/-! ### The two flags under a transition -/

/-- The overrun and the break flag. -/
def errors (d : Device σ) : Bool × Bool := (d.regs.lsr.overrun, d.regs.lsr.breakInterrupt)

theorem errors_flush (d : Device σ) (reason : FlushReason) :
    (d.flush reason).2.1.errors = d.errors := by
  rw [errors, regs_flush]
  rfl

/-- A flush on a condition leaves both flags alone. -/
theorem errors_flushIf (d : Device σ) (condition : Bool) (reason : FlushReason) :
    (if condition then (d.flush reason).2 else (d, [])).1.errors = d.errors := by
  split
  · exact d.errors_flush reason
  · rfl

theorem errors_transmit (d : Device σ) (byte : UInt8) :
    (d.transmit byte).1.errors =
      (d.regs.lsr.overrun || !d.findsRoom byte, d.regs.lsr.breakInterrupt) := by
  have hroom : (d.hold byte).makeRoom.1.errors = d.errors := errors_flushIf (d.hold byte) _ .full
  cases he : (d.hold byte).makeRoom.1.enqueue byte with
  | none =>
    have hbreak : (d.hold byte).makeRoom.1.regs.lsr.breakInterrupt = d.regs.lsr.breakInterrupt :=
      congrArg Prod.snd hroom
    rw [transmit_of_none he]
    simp [errors, record, findsRoom, he, hbreak]
  | some e =>
    have hqueued : e.errors = (d.hold byte).makeRoom.1.errors := by
      obtain ⟨queue, -, rfl⟩ := exists_of_enqueue he
      rfl
    have hreached : e.flushReached.1.errors = e.errors := errors_flushIf e _ .threshold
    rw [transmit_of_some he, hreached, hqueued, hroom]
    simp [errors, findsRoom, he]

theorem errors_receive (d : Device σ) (byte : UInt8) :
    (d.receive byte).errors =
      (d.regs.lsr.overrun || d.rx.toList.length == Fifo.capacity, d.regs.lsr.breakInterrupt) := by
  have hfull : d.rx.push? byte = none ↔ d.rx.toList.length = Fifo.capacity := Fifo.push?_eq_none_iff
  cases hp : d.rx.push? byte with
  | none =>
    have hlen := hfull.mp hp
    rw [hlen]
    simp [receive, hp, errors, record]
  | some q =>
    have hlen : d.rx.toList.length ≠ Fifo.capacity := fun hlen => by
      rw [hfull.mpr hlen] at hp
      cases hp
    rw [beq_eq_false_iff_ne.mpr hlen]
    simp [receive, hp, errors, record]

/-- Outside loopback a byte is lost if it finds no room. -/
theorem losesData_eq_not_findsRoom {d : Device σ} (h : d.regs.loopback = false) (byte : UInt8) :
    d.losesData = !d.findsRoom byte := by
  rw [Bool.eq_iff_iff, Bool.not_eq_true', findsRoom_eq_false_iff]
  simp [losesData, h]

theorem errors_writeData (d : Device σ) (byte : UInt8) :
    (d.writeData byte).1.errors =
      (d.regs.lsr.overrun || d.losesData, d.regs.lsr.breakInterrupt) := by
  cases hl : d.regs.loopback with
  | true =>
    simp only [writeData, hl, if_true, losesData]
    exact errors_receive (d.hold byte) byte
  | false =>
    rw [losesData_eq_not_findsRoom hl byte]
    simp only [writeData, hl, Bool.false_eq_true, if_false]
    exact d.errors_transmit byte

theorem errors_writeRegister (d : Device σ) {register : WriteRegister}
    (h : register ≠ .transmitHold) (value : UInt8) :
    (d.writeRegister value register).1.errors = d.errors := by
  cases register with
  | transmitHold => exact absurd rfl h
  | interruptEnable =>
    simp only [writeRegister, writeInterruptEnable]
    exact d.errors_flushIf _ .idle
  | fifoControl =>
    simp only [writeRegister, writeFifoControl]
    split_ifs <;> rfl
  | _ => rfl

/-- A data read with a break pending lowers the break flag alone; one that takes out a byte finds
the break flag down and lowers the other. -/
theorem errors_readData (d : Device σ) :
    d.readData.2.errors = (d.regs.lsr.overrun && d.readWithdrawals.isEmpty, false) := by
  by_cases hb : d.regs.lsr.breakInterrupt = true
  · simp [readData, readWithdrawals, errors, hb]
  · by_cases hr : d.regs.lsr.dataReady = true
    · cases hp : d.rx.pop? with
      | none => simp [readData, readWithdrawals, errors, hb, hr, hp]
      | some p => simp [readData, readWithdrawals, errors, hb, hr, hp, LineStatus.clearErrors]
    · simp [readData, readWithdrawals, errors, hb, hr]

theorem errors_queue (d : Device σ) (bytes : List UInt8) : (d.queue bytes).errors = d.errors := by
  simp only [queue]
  split <;> rfl

/-! ### The two flags under an effect -/

/-- Whether an effect loses a byte to a full queue. -/
def Effect.losesByte (d : Device σ) : Effect → Bool
  | .writes .transmitHold _ => d.losesData
  | _ => false

/-- Whether an effect takes note of an overrun. -/
def Effect.notesOverrun (d : Device σ) : Effect → Bool
  | .reads .interruptIdent | .reads .lineStatus | .resets => true
  | .reads .receiveHold => !d.readWithdrawals.isEmpty
  | _ => false

/-- Whether an effect takes note of a break. -/
def Effect.notesBreak : Effect → Bool
  | .reads .receiveHold | .resets => true
  | _ => false

/-- **Every effect** raises either flag, lowers it or leaves it as it was. -/
theorem errors_effect (d : Device σ) (e : Effect) :
    (e.run d).1.errors =
      (e.losesByte d || d.regs.lsr.overrun && !e.notesOverrun d,
        decide (e = .breaks) || d.regs.lsr.breakInterrupt && !e.notesBreak) := by
  cases e with
  | reads register =>
    cases register with
    | receiveHold =>
      have hread : ((Effect.reads .receiveHold).run d).1.errors = d.readData.2.errors := rfl
      rw [hread, errors_readData]
      simp [Effect.losesByte, Effect.notesOverrun, Effect.notesBreak]
    | _ =>
      simp [Effect.run, readRegister, errors, refresh, Effect.losesByte, Effect.notesOverrun,
        Effect.notesBreak]
  | writes register value =>
    have hwrite : ((Effect.writes register value).run d).1.errors =
        (d.writeRegister value register).1.errors := rfl
    by_cases hr : register = .transmitHold
    · subst hr
      rw [hwrite, writeRegister, errors_writeData]
      simp [Effect.losesByte, Effect.notesOverrun, Effect.notesBreak, Bool.or_comm]
    · rw [hwrite, d.errors_writeRegister hr]
      cases register with
      | transmitHold => exact absurd rfl hr
      | _ => simp [errors, Effect.losesByte, Effect.notesOverrun, Effect.notesBreak]
  | queues bytes =>
    have hqueue : ((Effect.queues bytes).run d).1.errors = (d.queue bytes).errors := rfl
    rw [hqueue, errors_queue]
    simp [errors, Effect.losesByte, Effect.notesOverrun, Effect.notesBreak]
  | flushes reason =>
    have hflush : ((Effect.flushes reason).run d).1.errors = (d.flush reason).2.1.errors := rfl
    rw [hflush, errors_flush]
    simp [errors, Effect.losesByte, Effect.notesOverrun, Effect.notesBreak]
  | resets =>
    have hreset : (Effect.resets.run d).1.errors = (false, false) := rfl
    rw [hreset]
    simp [Effect.losesByte, Effect.notesOverrun, Effect.notesBreak]
  | _ =>
    simp [Effect.run, errors, refresh, record, detach, Effect.losesByte, Effect.notesOverrun,
      Effect.notesBreak]

/-! ### Which accesses these are -/

theorem losesByte_access (d : Device σ) (a : Access) :
    d.losesByte (.operate (.access a)) = (a.effect d).losesByte d := by
  cases hw : d.dataWrite? a with
  | some byte =>
    rw [dataWrite?_eq_some_iff.mp hw]
    simp only [losesByte, lost, hw, Effect.losesByte]
    cases d.losesData <;> rfl
  | none =>
    simp only [losesByte, lost, hw]
    cases he : a.effect d with
    | writes register value =>
      cases register with
      | transmitHold =>
        rw [dataWrite?_eq_some_iff.mpr he] at hw
        cases hw
      | _ => rfl
    | _ => rfl

theorem isIdentRead_iff {d : Device σ} {a : Access} :
    d.isIdentRead a = true ↔ a.effect d = .reads .interruptIdent := by
  rw [Access.effect_eq_reads_iff]
  cases a <;> simp [isIdentRead, ReadRegister.decode_eq_interruptIdent_iff]

theorem isStatusRead_iff {d : Device σ} {a : Access} :
    d.isStatusRead a = true ↔ a.effect d = .reads .lineStatus := by
  rw [Access.effect_eq_reads_iff]
  cases a <;> simp [isStatusRead, ReadRegister.decode_eq_lineStatus_iff]

theorem effect_eq_resets_iff {d : Device σ} {a : Access} :
    a.effect d = .resets ↔ a = .reset := by
  cases a with
  | read offset | input offset =>
    simp only [Access.effect, reduceCtorEq, iff_false]
    rcases d.readEffect_cases offset with h | h | ⟨_, h⟩ <;> simp [h]
  | write offset value | output offset value =>
    simp only [Access.effect, reduceCtorEq, iff_false]
    rcases d.writeEffect_cases offset value with h | h | ⟨_, h⟩ <;> simp [h]
  | inject bytes | signalBreak =>
    simp only [Access.effect, reduceCtorEq, iff_false]
    split_ifs <;> simp
  | flush reason | reset | detach => simp [Access.effect]

theorem effect_eq_breaks_iff {d : Device σ} {a : Access} :
    a.effect d = .breaks ↔ d.breaks (.operate (.access a)) = true := by
  cases a with
  | read offset | input offset =>
    simp only [Access.effect, breaks, Bool.false_eq_true, iff_false]
    rcases d.readEffect_cases offset with h | h | ⟨_, h⟩ <;> simp [h]
  | write offset value | output offset value =>
    simp only [Access.effect, breaks, Bool.false_eq_true, iff_false]
    rcases d.writeEffect_cases offset value with h | h | ⟨_, h⟩ <;> simp [h]
  | inject bytes =>
    simp only [Access.effect, breaks, Bool.false_eq_true, iff_false]
    split_ifs <;> simp
  | signalBreak =>
    cases hi : d.initialized <;> cases hl : d.regs.loopback <;>
      simp [Access.effect, breaks, signalBreak, hi, hl]
  | flush reason | reset | detach => simp [Access.effect, breaks]

theorem notesOverrun_access (d : Device σ) (a : Access) :
    d.notesOverrun (.operate (.access a)) = (a.effect d).notesOverrun d := by
  rw [Bool.eq_iff_iff]
  simp only [notesOverrun, takesByte, Bool.or_eq_true, Bool.and_eq_true, decide_eq_true_iff,
    isStatusRead_iff, isIdentRead_iff, isDataRead_iff, ← effect_eq_resets_iff (d := d)]
  cases a.effect d with
  | reads register => cases register <;> simp [Effect.notesOverrun]
  | _ => simp [Effect.notesOverrun]

theorem notesBreak_access (d : Device σ) (a : Access) :
    d.notesBreak (.operate (.access a)) = (a.effect d).notesBreak := by
  rw [Bool.eq_iff_iff]
  simp only [notesBreak, Bool.or_eq_true, decide_eq_true_iff, isDataRead_iff,
    ← effect_eq_resets_iff (d := d)]
  cases a.effect d with
  | reads register => cases register <;> simp [Effect.notesBreak]
  | _ => simp [Effect.notesBreak]

/-! ### Every move -/

/-- **Every move** raises either flag, lowers it or leaves it as it was, and it is a break or a byte
lost that raises them. -/
theorem errors_run (d : Device σ) (m : Move σ) :
    (m.run d).errors =
      (d.losesByte m || d.regs.lsr.overrun && !d.notesOverrun m,
        d.breaks m || d.regs.lsr.breakInterrupt && !d.notesBreak m) := by
  by_cases hacc : ∃ a, m = .operate (.access a)
  · obtain ⟨a, rfl⟩ := hacc
    have hrun : (Move.operate (.access a)).run d = (a.run d).device := rfl
    have hbreaks : decide (a.effect d = .breaks) = d.breaks (.operate (.access a)) := by
      simp [effect_eq_breaks_iff]
    rw [hrun, a.device_effect, errors_effect, losesByte_access, notesOverrun_access,
      notesBreak_access, hbreaks]
  -- Whatever is not an access changes no flag, and is none of the moves in question.
  · have hsame : (m.run d).errors = d.errors := by
      by_cases hrel : m = .release
      · subst hrel
        rfl
      · obtain ⟨-, -, hlsr, -⟩ := d.run_quiet (not_exists.mp hacc) hrel
        simp only [errors, hlsr]
    rw [hsame]
    cases m with
    | operate op =>
      cases op with
      | access a => exact absurd ⟨a, rfl⟩ hacc
      | _ => simp [errors, losesByte, lost, notesOverrun, breaks, notesBreak]
    | _ => simp [errors, losesByte, lost, notesOverrun, breaks, notesBreak]

theorem overrun_run (d : Device σ) (m : Move σ) :
    (m.run d).regs.lsr.overrun = (d.losesByte m || d.regs.lsr.overrun && !d.notesOverrun m) :=
  congrArg Prod.fst (d.errors_run m)

theorem breakInterrupt_run (d : Device σ) (m : Move σ) :
    (m.run d).regs.lsr.breakInterrupt =
      (d.breaks m || d.regs.lsr.breakInterrupt && !d.notesBreak m) :=
  congrArg Prod.snd (d.errors_run m)

/-- Without a break in the meantime, a break flag that is down stays down. -/
theorem breakInterrupt_after_eq_false {d : Device σ} (h : d.regs.lsr.breakInterrupt = false)
    {ms : List (Move σ)} (hquiet : ∀ x ∈ d.moments ms, breaks x.1 x.2 = false) :
    (d.after ms).regs.lsr.breakInterrupt = false := by
  rw [← Bool.not_eq_true, raised_after_iff (·.regs.lsr.breakInterrupt) breakInterrupt_run d ms, h]
  rintro (⟨before, x, since, heq, hraised, -⟩ | ⟨hup, -⟩)
  · rw [hquiet x (by simp [heq])] at hraised
    cases hraised
  · cases hup

/-! ### A break is read once -/

/-- The data read takes note of a break and does nothing else, and up to the next break every data
read is about the queue. -/
structure ReadsBreak (d : Device σ) (a : Access) : Prop where
  reply_eq : (a.run d).reply = .byte 0
  withdrawals_eq : d.withdrawals (.operate (.access a)) = []
  rx_eq : (a.run d).device.rx = d.rx
  overrun_eq : (a.run d).device.regs.lsr.overrun = d.regs.lsr.overrun
  breakInterrupt_eq : (a.run d).device.regs.lsr.breakInterrupt = false
  next_eq (ms : List (Move σ)) {b : Access} {byte : UInt8} {rest : List UInt8} :
    (∀ x ∈ (a.run d).device.moments ms, breaks x.1 x.2 = false) →
    ((a.run d).device.after ms).isDataRead b = true →
    ((a.run d).device.after ms).rx.toList = byte :: rest →
    (b.run ((a.run d).device.after ms)).reply = .byte byte ∧
      (b.run ((a.run d).device.after ms)).device.rx.toList = rest

theorem readsBreak {d : Device σ} (hd : d.Reachable) {a : Access} (ha : d.isDataRead a = true)
    (hb : d.regs.lsr.breakInterrupt = true) : d.ReadsBreak a := by
  obtain ⟨-, hreply, hdevice⟩ := run_dataRead ha
  have hread : d.readData = (0, { d with regs.lsr.breakInterrupt := false }) := by
    rw [readData, if_pos hb]
  have hdown : (a.run d).device.regs.lsr.breakInterrupt = false := by
    rw [hdevice, hread]
    rfl
  constructor
  case reply_eq => rw [hreply, hread]
  case withdrawals_eq =>
    rw [withdrawals, isDataRead_iff.mp ha, Effect.withdrawals, if_pos rfl, readWithdrawals,
      if_pos hb]
  case rx_eq => rw [hdevice, hread]; rfl
  case overrun_eq => rw [hdevice, hread]; rfl
  case breakInterrupt_eq => exact hdown
  case next_eq =>
    intro ms b byte rest hquiet hread hqueue
    obtain ⟨hi, hreply, hdevice⟩ := run_dataRead hread
    have hreached : ((a.run d).device.after ms).Reachable :=
      (hd.after [.operate (.access a)]).after ms
    have hflag := (truthful_of_reachable hreached).receives hi
    obtain ⟨hbyte, hrest, -⟩ :=
      readData_of_cons hflag (breakInterrupt_after_eq_false hdown hquiet) hqueue
    rw [hreply, hdevice]
    exact ⟨congrArg _ hbyte, hrest⟩

/-- Whether an access is neither a read nor a data write, and neither a break nor a reset: a write of
any other register, an injection or a flush. -/
def isNeutral (d : Device σ) (a : Access) : Bool :=
  match a with
  | .write _ _ | .output _ _ => (d.dataWrite? a).isNone
  | .inject _ | .flush _ => true
  | _ => false

theorem errors_neutral {d : Device σ} {a : Access} (h : d.isNeutral a = true) :
    (a.run d).device.errors = d.errors := by
  have hrun : (a.run d).device = (Move.operate (.access a)).run d := rfl
  rw [hrun, errors_run]
  cases a with
  | write offset value | output offset value =>
    have hnone := Option.isNone_iff_eq_none.mp h
    simp [errors, losesByte, lost, hnone, notesOverrun, breaks, notesBreak, isStatusRead,
      isIdentRead, takesByte, isDataRead]
  | inject bytes | flush reason =>
    simp [errors, losesByte, lost, dataWrite?, notesOverrun, breaks, notesBreak, isStatusRead,
      isIdentRead, takesByte, isDataRead]
  | _ => cases h

/-- **Overrun and break are history.** After any run of a device, the overrun flag is up exactly if
a byte was lost to a full queue since the last read of the line status or the identification, data
read that took out a byte, or reset; and the break flag exactly if a break came in since the last
data read or reset. However many breaks come in between two data reads, the second returns a zero,
takes out nothing and leaves the overrun flag as it was, and those after it return what is queued.
Writes of other registers, injections and flushes leave both flags alone. -/
theorem errors_iff_history (info : LineInfo) (counting : Bool) (ms : List (Move σ)) :
    let born : Device σ := create info counting
    let d := born.after ms
    (d.regs.lsr.overrun = true ↔ RaisedSince losesByte notesOverrun born ms) ∧
      (d.regs.lsr.breakInterrupt = true ↔ RaisedSince breaks notesBreak born ms) ∧
      (∀ (ns : List (Move σ)) (a : Access), (∃ x ∈ d.moments ns, breaks x.1 x.2 = true) →
        (∀ x ∈ d.moments ns, notesBreak x.1 x.2 = false) → (d.after ns).isDataRead a = true →
        (d.after ns).ReadsBreak a) ∧
      ∀ a : Access, d.isNeutral a = true →
        (a.run d).device.regs.lsr.overrun = d.regs.lsr.overrun ∧
          (a.run d).device.regs.lsr.breakInterrupt = d.regs.lsr.breakInterrupt := by
  intro born d
  have hborn : born.regs.lsr.overrun = false ∧ born.regs.lsr.breakInterrupt = false := ⟨rfl, rfl⟩
  refine ⟨?_, ?_, fun ns a hbreak hunread ha => ?_, fun a ha => ?_⟩
  · rw [raised_after_iff (·.regs.lsr.overrun) overrun_run born ms, hborn.1]
    simp
  · rw [raised_after_iff (·.regs.lsr.breakInterrupt) breakInterrupt_run born ms, hborn.2]
    simp
  · have hreached : d.Reachable := ⟨info, counting, ms, rfl⟩
    refine readsBreak (hreached.after ns) ha ?_
    exact (raised_after_iff (·.regs.lsr.breakInterrupt) breakInterrupt_run d ns).mpr
      (Or.inl (raisedSince_of_exists hbreak hunread))
  · exact Prod.mk.inj (errors_neutral ha)

/-- Seventeen bytes looped back are one too many, and two breaks come in after them. The next data
read returns a zero and leaves the overrun standing; the one after it returns the first byte and
takes note of the overrun. -/
theorem two_breaks_behind_overrun :
    let info : LineInfo := { line := 0, ioBase := 0x3F8, irq := 4, baudBase := 115200 }
    let looped : List (Move Unit) := .operate (.access (.write Offset.modemControl 0x10)) ::
      List.replicate 17 (.operate (.access (.write Offset.data 0x41))) ++
      [.operate (.access (.write Offset.modemControl 0))]
    let broken : List (Move Unit) := List.replicate 2 (.operate (.access .signalBreak))
    let born : Device Unit := create info true
    let d := born.after looped
    let e := d.after broken
    let a : Access := .read Offset.data
    RaisedSince losesByte notesOverrun born looped ∧ d.regs.lsr.overrun = true ∧
      (a.run e).reply = .byte 0 ∧ (a.run e).device.regs.lsr.overrun = true ∧
      (a.run (a.run e).device).reply = .byte 0x41 ∧
      (a.run (a.run e).device).device.regs.lsr.overrun = false := by
  intro info looped broken born d e a
  have hup : d.regs.lsr.overrun = true ∧ e.regs.lsr.overrun = true := by decide +kernel
  have hraised : ∃ x ∈ d.moments broken, breaks x.1 x.2 = true := by decide +kernel
  have hunread : ∀ x ∈ d.moments broken, notesBreak x.1 x.2 = false := by decide +kernel
  have hdata : e.isDataRead a = true ∧ (a.run e).device.isDataRead a = true ∧
      (a.run e).device.rx.toList = 0x41 :: List.replicate 15 0x41 := by decide +kernel
  have hlast : (a.run (a.run e).device).device.regs.lsr.overrun = false := by decide +kernel
  clear_value looped broken
  obtain ⟨hoverrun, -, hbreak, -⟩ := errors_iff_history (σ := Unit) info true looped
  have hread : e.ReadsBreak a := hbreak broken a hraised hunread hdata.1
  obtain ⟨hnext, -⟩ := hread.next_eq [] (by simp [moments]) hdata.2.1 hdata.2.2
  exact ⟨hoverrun.mp hup.1, hup.1, hread.reply_eq, hread.overrun_eq.trans hup.2, hnext, hlast⟩

end Device

end Uart16550
