import Uart16550.LineInfo

/-!
# The table of lines

One slot per line, allocated when the first line is taken and given up with the last. A slot refers
to a device by its place in the list of all devices; it knows nothing else about it.
-/

namespace Uart16550

/-- What the table knows about a line. -/
inductive Slot where
  | free
  /-- The line belongs to the device at this place. -/
  | live (device : Nat)
  /-- The line's device is being torn down; the line stays taken until the host is done. -/
  | removing
  deriving DecidableEq, Repr

/-- The lines of a system. -/
structure LineTable where
  /-- One slot per line; not allocated while no line is taken. -/
  slots : Option (Vector Slot lineCount)
  /-- Whether devices added from now on count events. -/
  counting : Bool
  deriving DecidableEq, Repr

namespace LineTable

/-- A table without lines. -/
def empty (counting : Bool) : LineTable := { slots := none, counting }

/-- The slot of a line; a line beyond the table is free. -/
def slot (t : LineTable) (line : UInt8) : Slot :=
  match t.slots with
  | some slots => if h : line.toNat < lineCount then slots[line.toNat] else .free
  | none => .free

/-- Changes the slot of a line in an allocated table. -/
def setIn (slots : Vector Slot lineCount) (line : UInt8) (slot : Slot) : Vector Slot lineCount :=
  if h : line.toNat < lineCount then slots.set line.toNat slot else slots

/-- Changes the slot of a line, allocating the table on first use. -/
def put (t : LineTable) (line : UInt8) (slot : Slot) : LineTable :=
  { t with slots := some (setIn (t.slots.getD (Vector.replicate lineCount .free)) line slot) }

/-- Frees the slot of a line, and the whole table with the last one. -/
def vacate (t : LineTable) (line : UInt8) : LineTable :=
  match t.slots with
  | some slots =>
    let slots := setIn slots line .free
    { t with slots := if slots.toList.all (· == .free) then none else some slots }
  | none => t

/-- The device of a live line. -/
def get (t : LineTable) (line : UInt8) : Except Error Nat :=
  match LineInfo.ofLine line with
  | .error e => .error e
  | .ok _ =>
    match t.slot line with
    | .live device => .ok device
    | .free | .removing => .error (.notInitialized line)

/-- The live lines, in ascending order. -/
def lines (t : LineTable) : List UInt8 :=
  ((List.range lineCount).map UInt8.ofNat).filter fun line =>
    match t.slot line with
    | .live _ => true
    | .free | .removing => false

/-- Whether the table is allocated. -/
def isAllocated (t : LineTable) : Bool := t.slots.isSome

/-! ### The slots after a change -/

private theorem toNat_ne {line other : UInt8} (h : other ≠ line) : other.toNat ≠ line.toNat :=
  fun he => h (UInt8.toNat_inj.1 he)

theorem slot_put_self (t : LineTable) {line : UInt8} (h : line.toNat < lineCount) (x : Slot) :
    (t.put line x).slot line = x := by
  simp [put, slot, setIn, h]

theorem slot_put_ne (t : LineTable) {line other : UInt8} (h : other ≠ line) (x : Slot) :
    (t.put line x).slot other = t.slot other := by
  have hne := toNat_ne h
  by_cases ho : other.toNat < lineCount <;> by_cases hl : line.toNat < lineCount <;>
    cases hs : t.slots <;> simp [put, slot, setIn, ho, hl, hs, Vector.getElem_set_ne, Ne.symm hne]

theorem slot_vacate_self (t : LineTable) (line : UInt8) : (t.vacate line).slot line = .free := by
  cases hs : t.slots with
  | none => simp [vacate, slot, hs]
  | some slots =>
    by_cases hall : (setIn slots line .free).toList.all (· == .free)
    · simp only [vacate, hs, slot, if_pos hall]
    · simp only [vacate, hs, slot, if_neg hall]
      by_cases hl : line.toNat < lineCount <;> simp [setIn, hl]

/-- Giving up the table with its last line frees no line that was taken. -/
theorem slot_vacate_ne (t : LineTable) {line other : UInt8} (h : other ≠ line) :
    (t.vacate line).slot other = t.slot other := by
  have hne := toNat_ne h
  cases hs : t.slots with
  | none => simp [vacate, slot, hs]
  | some slots =>
    by_cases ho : other.toNat < lineCount
    · have hget : (setIn slots line .free)[other.toNat] = slots[other.toNat] := by
        by_cases hl : line.toNat < lineCount <;>
          simp [setIn, hl, Vector.getElem_set_ne, Ne.symm hne]
      simp only [vacate, hs, slot, ho, dite_true]
      by_cases hall : (setIn slots line .free).toList.all (· == .free)
      · rw [if_pos hall]
        have hmem : slots[other.toNat] ∈ (setIn slots line .free).toList := by
          rw [← hget]
          simp
        have := List.all_eq_true.1 hall _ hmem
        exact (by simpa using this : slots[other.toNat] = .free).symm
      · rw [if_neg hall]
        simp [hget]
    · simp only [vacate, hs, slot, ho, dite_false]
      split <;> rfl

end LineTable

end Uart16550
