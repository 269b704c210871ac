import Uart16550.Proofs.Effect

/-!
# The data slot

Offset 0 is the data register as long as the divisor latch access bit is clear: a write there is a
byte for the transmitter, or for the receiver in loopback, and a read there takes out a received
byte. `Device.dataWrite?` and `Device.isDataRead` tell which accesses these are, from the offset and
the flags alone, and agree with what the accesses come to.

A register that an offset addresses, whatever the latch bit says, has that offset
(`WriteRegister.eq_offset_of_decode`, `ReadRegister.eq_offset_of_decode`).
-/

namespace Uart16550

variable {σ : Type}

/-! ### Offsets of registers -/

/-- The offset at which a register is written. -/
def WriteRegister.offset : WriteRegister → UInt8
  | .transmitHold | .divisorLow => Offset.data
  | .interruptEnable | .divisorHigh => Offset.interruptEnable
  | .fifoControl => Offset.fifoControl
  | .lineControl => 3
  | .modemControl => Offset.modemControl
  | .scratch => 7

/-- The offset at which a register is read. -/
def ReadRegister.offset : ReadRegister → UInt8
  | .receiveHold | .divisorLow => Offset.data
  | .interruptEnable | .divisorHigh => Offset.interruptEnable
  | .interruptIdent => 2
  | .lineControl => 3
  | .modemControl => Offset.modemControl
  | .lineStatus => Offset.lineStatus
  | .modemStatus => 6
  | .scratch => 7

theorem WriteRegister.eq_offset_of_decode {offset : UInt8} {divisorAccess : Bool}
    {register : WriteRegister} (h : WriteRegister.decode offset divisorAccess = .ok register) :
    offset = register.offset := by
  unfold WriteRegister.decode at h
  split at h <;> cases h
  all_goals
    refine UInt8.toNat_inj.mp ?_
    cases divisorAccess <;> assumption

theorem ReadRegister.eq_offset_of_decode {offset : UInt8} {divisorAccess : Bool}
    {register : ReadRegister} (h : ReadRegister.decode offset divisorAccess = .ok register) :
    offset = register.offset := by
  unfold ReadRegister.decode at h
  split at h <;> cases h
  all_goals
    refine UInt8.toNat_inj.mp ?_
    cases divisorAccess <;> assumption

theorem WriteRegister.decode_eq_transmitHold_iff {offset : UInt8} {divisorAccess : Bool} :
    WriteRegister.decode offset divisorAccess = .ok .transmitHold ↔
      offset = Offset.data ∧ divisorAccess = false := by
  constructor
  · intro h
    obtain rfl := WriteRegister.eq_offset_of_decode h
    cases divisorAccess <;> cases h
    exact ⟨rfl, rfl⟩
  · rintro ⟨rfl, rfl⟩
    rfl

theorem ReadRegister.decode_eq_receiveHold_iff {offset : UInt8} {divisorAccess : Bool} :
    ReadRegister.decode offset divisorAccess = .ok .receiveHold ↔
      offset = Offset.data ∧ divisorAccess = false := by
  constructor
  · intro h
    obtain rfl := ReadRegister.eq_offset_of_decode h
    cases divisorAccess <;> cases h
    exact ⟨rfl, rfl⟩
  · rintro ⟨rfl, rfl⟩
    rfl

namespace Device

/-- The byte that an access writes to the data slot: a write at offset 0 of an initialized device
whose divisor latch access bit is clear. -/
def dataWrite? (d : Device σ) : Access → Option UInt8
  | .write offset value | .output offset value =>
    if d.initialized = true ∧ offset = Offset.data ∧ d.regs.divisorAccess = false then
      some value
    else
      none
  | _ => none

/-- Whether an access reads the data slot: a read at offset 0 of an initialized device whose divisor
latch access bit is clear. -/
def isDataRead (d : Device σ) : Access → Bool
  | .read offset | .input offset =>
    d.initialized && offset == Offset.data && !d.regs.divisorAccess
  | _ => false

theorem writeEffect_eq_transmitHold_iff (d : Device σ) {offset value byte : UInt8} :
    d.writeEffect offset value = .writes .transmitHold byte ↔
      (d.initialized = true ∧ offset = Offset.data ∧ d.regs.divisorAccess = false) ∧
        value = byte := by
  rw [writeEffect_eq_writes_iff, WriteRegister.decode_eq_transmitHold_iff]
  simp only [and_assoc]

/-- A data write is an access that comes to a write of the holding register. -/
theorem dataWrite?_eq_some_iff {d : Device σ} {a : Access} {byte : UInt8} :
    d.dataWrite? a = some byte ↔ a.effect d = .writes .transmitHold byte := by
  cases a with
  | write offset value | output offset value =>
    rw [Access.effect, writeEffect_eq_transmitHold_iff]
    simp [dataWrite?]
  | read offset | input offset =>
    simp only [dataWrite?, Access.effect, reduceCtorEq, false_iff]
    rcases d.readEffect_cases offset with h | h | ⟨_, h⟩ <;> simp [h]
  | inject bytes | signalBreak =>
    simp only [dataWrite?, Access.effect, reduceCtorEq, false_iff]
    split_ifs <;> simp
  | flush reason | reset | detach => simp [dataWrite?, Access.effect]

/-- A data read is an access that comes to a read of the receive buffer. -/
theorem isDataRead_iff {d : Device σ} {a : Access} :
    d.isDataRead a = true ↔ a.effect d = .reads .receiveHold := by
  rw [Access.effect_eq_reads_iff]
  cases a <;> simp [isDataRead, ReadRegister.decode_eq_receiveHold_iff, and_assoc]

/-- A data read answers with the byte of the data register and leaves what a read of it leaves. -/
theorem run_dataRead {d : Device σ} {a : Access} (h : d.isDataRead a = true) :
    d.initialized = true ∧ (a.run d).reply = .byte d.readData.1 ∧
      (a.run d).device = d.readData.2.refresh := by
  have hread (hi : d.initialized = true) (hd : d.regs.divisorAccess = false) :
      d.read Offset.data = (.ok d.readData.1, d.readData.2.refresh) := by
    rw [read, if_pos hi, hd]
    rfl
  cases a with
  | read offset =>
    simp only [isDataRead, Bool.and_eq_true, beq_iff_eq, Bool.not_eq_true'] at h
    obtain ⟨⟨hi, rfl⟩, hd⟩ := h
    simp only [Access.run, hread hi hd]
    exact ⟨hi, rfl, rfl⟩
  | input offset =>
    simp only [isDataRead, Bool.and_eq_true, beq_iff_eq, Bool.not_eq_true'] at h
    obtain ⟨⟨hi, rfl⟩, hd⟩ := h
    simp only [Access.run, input, hread hi hd]
    exact ⟨hi, trivial, trivial⟩
  | _ => cases h

end Device

end Uart16550
