/-!
# The sixteen-byte queue

Both data paths of the chip are backed by a first-in first-out queue of sixteen bytes, kept in a
ring of cells. `Fifo.toList` is the meaning of a queue: its bytes, oldest first. The ring itself
(where the oldest byte sits, and the stale bytes outside the occupied stretch) is kept as well,
because a reset only rewinds it; that it never shows is a statement about this representation,
not an assumption of it.

Each operation has one equation about `toList`, in `Uart16550.Fifo.Lemmas`.
-/

namespace Uart16550

/-- The depth of a queue, fixed by the hardware. -/
abbrev Fifo.capacity : Nat := 16

/-- A queue of at most `Fifo.capacity` bytes: the occupied cells are the `length` ones that
start at `head` and wrap around the end of `cells`. -/
structure Fifo where
  /-- The ring. Cells outside the occupied stretch keep whatever was stored there last. -/
  cells : Vector UInt8 Fifo.capacity
  /-- The cell of the oldest byte. -/
  head : Nat
  /-- The number of queued bytes. -/
  length : Nat
  head_lt : head < Fifo.capacity
  length_le : length ≤ Fifo.capacity
  deriving DecidableEq

namespace Fifo

/-- The empty queue over cleared cells. -/
def empty : Fifo where
  cells := Vector.replicate capacity 0
  head := 0
  length := 0
  head_lt := by decide
  length_le := by decide

instance : Inhabited Fifo := ⟨empty⟩

/-- The cell that lies `i` places behind the oldest byte, around the ring. -/
def slot (q : Fifo) (i : Nat) : Fin capacity :=
  ⟨(q.head + i) % capacity, Nat.mod_lt _ (by decide)⟩

/-- The queued bytes, oldest first. -/
def toList (q : Fifo) : List UInt8 :=
  (List.range q.length).map fun i => q.cells[q.slot i]

theorem getElem?_toList (q : Fifo) (i : Nat) :
    q.toList[i]? = if i < q.length then some q.cells[q.slot i] else none := by
  by_cases h : i < q.length <;> simp [toList, h]

/-- Whether nothing is queued. -/
def isEmpty (q : Fifo) : Bool := q.length == 0

/-- Whether no further byte fits. -/
def isFull (q : Fifo) : Bool := q.length == capacity

/-- Appends a byte; `none` when the queue is full. -/
def push? (q : Fifo) (byte : UInt8) : Option Fifo :=
  if h : q.length < capacity then
    some { q with
      cells := q.cells.set (q.slot q.length) byte
      length := q.length + 1
      length_le := h }
  else
    none

/-- Takes out the oldest byte; `none` when the queue is empty. The cell keeps its contents. -/
def pop? (q : Fifo) : Option (UInt8 × Fifo) :=
  if q.length = 0 then
    none
  else
    some (q.cells[q.slot 0],
      { q with
        head := (q.head + 1) % capacity
        length := q.length - 1
        head_lt := Nat.mod_lt _ (by decide)
        length_le := Nat.le_trans (Nat.sub_le _ _) q.length_le })

/-- Moves bytes out of the queue, oldest first, over the front of the buffer `out`, until the
buffer or the queue is exhausted: the number of bytes moved, the buffer and the queue afterwards. -/
def drainInto (q : Fifo) : (out : List UInt8) → Nat × List UInt8 × Fifo
  | [] => (0, [], q)
  | old :: out =>
    match q.pop? with
    | none => (0, old :: out, q)
    | some (byte, rest) =>
      let (moved, out', q') := rest.drainInto out
      (moved + 1, byte :: out', q')

/-- Discards everything queued by rewinding the ring; the cells keep their contents. -/
def reset (q : Fifo) : Fifo :=
  { q with head := 0, length := 0, head_lt := by decide, length_le := by decide }

/-- Appends bytes of a batch, first to last, until one does not fit: the number that did. -/
def pushAll (q : Fifo) : (batch : List UInt8) → Nat × Fifo
  | [] => (0, q)
  | byte :: batch =>
    match q.push? byte with
    | none => (0, q)
    | some q' =>
      let (accepted, q'') := q'.pushAll batch
      (accepted + 1, q'')

end Fifo

end Uart16550
