import Uart16550.Fifo.Lemmas
import Uart16550.Fifo.Run

/-!
# The ring is a bounded queue

The operations of a queue can be carried out in three ways: on a `Fifo`, whose type keeps its
numbers in bounds; on the plain list of the queued bytes, which knows nothing of a ring
(`Fifo.bounded`); and on the bare numbers of a ring, of which nothing is known, so that every access
to a cell or to a buffer is checked and may have no result (`Fifo.checked`). `Fifo.Mechanism` is
what the three have in common. A run over a mechanism may go back to any copy of the queue that was
kept on the way.

Two mechanisms of which one is a view of the other answer alike in every run (`Views.run`), and a
`Fifo` has both views: by its bytes (`views_bounded`) and by its numbers (`views_checked`).

## Main statements

* `Fifo.behaves_as_list`: every run over the ring is one over the list, and leaves no bounds.
* `Fifo.Bench.run_bounded`: the same of a bench, which keeps only the last copy.
-/

namespace Uart16550

namespace Fifo

variable {α β : Type}

/-! ### Mechanisms -/

/-- A way to carry out the operations of a queue. An operation that would reach beyond an array has
no result. -/
structure Mechanism (α : Type) where
  empty : α
  /-- Whether the byte was accepted. -/
  push : α → UInt8 → Option (Bool × α)
  /-- The byte taken out, if there was one. -/
  pop : α → Option (Option UInt8 × α)
  /-- The number of bytes moved and the whole buffer afterwards. -/
  drain : α → List UInt8 → Option (Nat × List UInt8 × α)
  reset : α → α

/-- A queue and the copies of it that were kept, newest first. -/
structure Shelf (α : Type) where
  queue : α
  copies : List α

/-- One step of a run. -/
inductive Move where
  | step (s : Step)
  /-- Goes back to the copy with so many newer ones, to the empty queue if there is none. -/
  | goBack (newer : Nat)
  deriving DecidableEq, Repr

namespace Mechanism

/-- Goes back to a copy. -/
def goBack (m : Mechanism α) (s : Shelf α) (newer : Nat) : Shelf α :=
  { s with queue := s.copies.getD newer m.empty }

/-- The effect of one step; a restored copy is the newest. -/
def move (m : Mechanism α) (s : Shelf α) : Move → Option (Answer × Shelf α)
  | .step (.push byte) =>
    (m.push s.queue byte).map fun (accepted, q) => (.pushed accepted, { s with queue := q })
  | .step .pop => (m.pop s.queue).map fun (byte, q) => (.popped byte, { s with queue := q })
  | .step (.drain out) =>
    (m.drain s.queue out).map fun (moved, out, q) => (.drained moved out, { s with queue := q })
  | .step .reset => some (.done, { s with queue := m.reset s.queue })
  | .step .save => some (.done, { s with copies := s.queue :: s.copies })
  | .step .restore => some (.done, m.goBack s 0)
  | .goBack newer => some (.done, m.goBack s newer)

/-- The answers of a run, each with the queue that was left behind. -/
def runFrom (m : Mechanism α) (s : Shelf α) : List Move → Option (List (Answer × α))
  | [] => some []
  | move :: moves =>
    (m.move s move).bind fun (answer, s) => (m.runFrom s moves).map ((answer, s.queue) :: ·)

/-- A run that starts with an empty queue and no copies. -/
def run (m : Mechanism α) (moves : List Move) : Option (List (Answer × α)) :=
  m.runFrom { queue := m.empty, copies := [] } moves

variable {m : Mechanism α} {s t : Shelf α} {move : Move}

theorem runFrom_of_none (h : m.move s move = none) (moves : List Move) :
    m.runFrom s (move :: moves) = none := by
  rw [runFrom, h, Option.bind_none]

theorem runFrom_of_some {answer : Answer} (h : m.move s move = some (answer, t))
    (moves : List Move) :
    m.runFrom s (move :: moves) = (m.runFrom t moves).map ((answer, t.queue) :: ·) := by
  rw [runFrom, h, Option.bind_some]

end Mechanism

/-! ### Views -/

/-- What the first mechanism does, seen through `view`, is what the second does. -/
structure Views (m : Mechanism α) (n : Mechanism β) (view : α → β) : Prop where
  empty : n.empty = view m.empty
  push (a : α) (byte : UInt8) : n.push (view a) byte = (m.push a byte).map (Prod.map id view)
  pop (a : α) : n.pop (view a) = (m.pop a).map (Prod.map id view)
  drain (a : α) (out : List UInt8) :
    n.drain (view a) out = (m.drain a out).map (Prod.map id (Prod.map id view))
  reset (a : α) : n.reset (view a) = view (m.reset a)

/-- A shelf with everything on it seen through `view`. -/
def Shelf.map (view : α → β) (s : Shelf α) : Shelf β :=
  { queue := view s.queue, copies := s.copies.map view }

namespace Views

variable {m : Mechanism α} {n : Mechanism β} {view : α → β}

theorem goBack (h : Views m n view) (s : Shelf α) (newer : Nat) :
    n.goBack (s.map view) newer = (m.goBack s newer).map view := by
  simp only [Mechanism.goBack, Shelf.map, h.empty, List.getD_eq_getElem?_getD, List.getElem?_map,
    Option.getD_map]

theorem move (h : Views m n view) (s : Shelf α) (move : Move) :
    n.move (s.map view) move = (m.move s move).map (Prod.map id (Shelf.map view)) := by
  cases move with
  | goBack newer => exact congrArg (fun t => some (Answer.done, t)) (h.goBack s newer)
  | step st =>
    cases st with
    | push byte =>
      simp only [Mechanism.move, Shelf.map, h.push, Option.map_map]
      rfl
    | pop =>
      simp only [Mechanism.move, Shelf.map, h.pop, Option.map_map]
      rfl
    | drain out =>
      simp only [Mechanism.move, Shelf.map, h.drain, Option.map_map]
      rfl
    | reset => simp only [Mechanism.move, Shelf.map, h.reset, Option.map_some, Prod.map, id]
    | save => rfl
    | restore => exact congrArg (fun t => some (Answer.done, t)) (h.goBack s 0)

theorem runFrom (h : Views m n view) (s : Shelf α) (moves : List Move) :
    n.runFrom (s.map view) moves = (m.runFrom s moves).map (List.map (Prod.map id view)) := by
  induction moves generalizing s with
  | nil => rfl
  | cons move moves ih =>
    have hview := h.move s move
    cases hmove : m.move s move with
    | none =>
      rw [hmove] at hview
      rw [Mechanism.runFrom_of_none hmove, Mechanism.runFrom_of_none hview, Option.map_none]
    | some r =>
      obtain ⟨answer, t⟩ := r
      rw [hmove] at hview
      rw [Mechanism.runFrom_of_some hmove, Mechanism.runFrom_of_some hview, ih t, Option.map_map,
        Option.map_map]
      rfl

/-- **A view answers alike in every run**, and what it is left with is what is seen. -/
theorem run (h : Views m n view) (moves : List Move) :
    n.run moves = (m.run moves).map (List.map (Prod.map id view)) := by
  rw [Mechanism.run, h.empty]
  exact h.runFrom { queue := m.empty, copies := [] } moves

end Views

/-! ### The ring and the list -/

/-- The operations of a `Fifo`. A refused byte leaves everything as it was. -/
def mechanism : Mechanism Fifo where
  empty := .empty
  push q byte := some (match q.push? byte with
    | some q' => (true, q')
    | none => (false, q))
  pop q := some (match q.pop? with
    | some (byte, q') => (some byte, q')
    | none => (none, q))
  drain q out := some (q.drainInto out)
  reset := Fifo.reset

/-- The operations of a list of at most `capacity` bytes, oldest first. -/
def bounded : Mechanism (List UInt8) where
  empty := []
  push bytes byte :=
    some (if bytes.length < capacity then (true, bytes ++ [byte]) else (false, bytes))
  pop bytes := some (bytes.head?, bytes.tail)
  drain bytes out :=
    some (min bytes.length out.length, bytes.take out.length ++ out.drop bytes.length,
      bytes.drop out.length)
  reset _ := []

theorem views_bounded : Views mechanism bounded toList where
  empty := toList_empty.symm
  push q byte := by
    simp only [mechanism, bounded, Option.map_some]
    cases h : q.push? byte with
    | none =>
      rw [if_neg (by rw [push?_eq_none_iff.mp h]; exact Nat.lt_irrefl _)]
      rfl
    | some q' =>
      have hlt : q.toList.length < capacity := by
        refine Nat.lt_of_le_of_ne q.length_toList_le fun hfull => ?_
        rw [push?_eq_none_iff.mpr hfull] at h
        cases h
      rw [if_pos hlt, ← toList_push? h]
      rfl
  pop q := by
    simp only [mechanism, bounded, Option.map_some]
    cases h : q.pop? with
    | none =>
      rw [pop?_eq_none_iff.mp h]
      simp [pop?_eq_none_iff.mp h]
    | some p =>
      obtain ⟨byte, q'⟩ := p
      rw [toList_pop? h]
      rfl
  drain q out := by
    obtain ⟨hmoved, hout, hrest⟩ := q.drainInto_eq out
    simp only [mechanism, bounded, Option.map_some, Prod.map, id, hmoved, hout, hrest]
  reset q := (toList_reset q).symm

/-! ### The bare ring -/

/-- The cells of a ring and its two numbers, with nothing known about either. -/
structure Bare where
  cells : List UInt8
  head : Nat
  length : Nat
  deriving DecidableEq, Repr

namespace Bare

/-- Stores a byte at a place of an array, unless the place is beyond it. -/
def store? (array : List UInt8) (i : Nat) (byte : UInt8) : Option (List UInt8) :=
  if i < array.length then some (array.set i byte) else none

theorem length_store? {array array' : List UInt8} {i : Nat} {byte : UInt8}
    (h : store? array i byte = some array') : array'.length = array.length := by
  unfold store? at h
  split at h
  · rw [← Option.some.inj h, List.length_set]
  · cases h

/-- Stores a byte behind the occupied cells. -/
def push (r : Bare) (byte : UInt8) : Option (Bool × Bare) :=
  if r.length = capacity then
    some (false, r)
  else
    (store? r.cells ((r.head + r.length) % capacity) byte).map fun cells =>
      (true, { r with cells, length := r.length + 1 })

/-- Loads the byte at the head. -/
def pop (r : Bare) : Option (Option UInt8 × Bare) :=
  if r.length = 0 then
    some (none, r)
  else
    r.cells[r.head]?.map fun byte =>
      (some byte, { r with head := (r.head + 1) % capacity, length := r.length - 1 })

/-- Moves bytes one by one to the next place of the buffer, while there is a place and a byte. -/
def drainFrom (r : Bare) (moved : Nat) (out : List UInt8) :
    Option (Nat × List UInt8 × Bare) :=
  if moved < out.length then
    match r.pop with
    | none => none
    | some (none, r) => some (moved, out, r)
    | some (some byte, r) =>
      match h : store? out moved byte with
      | none => none
      | some out' => r.drainFrom (moved + 1) out'
  else
    some (moved, out, r)
termination_by out.length - moved
decreasing_by
  rw [length_store? h]
  omega

/-- The cells and numbers of a queue. -/
def ofFifo (q : Fifo) : Bare := { cells := q.cells.toList, head := q.head, length := q.length }

end Bare

/-- The operations on a bare ring, every access checked. -/
def checked : Mechanism Bare where
  empty := { cells := List.replicate capacity 0, head := 0, length := 0 }
  push := Bare.push
  pop := Bare.pop
  drain r out := r.drainFrom 0 out
  reset r := { r with head := 0, length := 0 }

namespace Bare

theorem push_ofFifo (q : Fifo) (byte : UInt8) :
    (ofFifo q).push byte = (mechanism.push q byte).map (Prod.map id ofFifo) := by
  have hslot : (q.head + q.length) % capacity < capacity := Nat.mod_lt _ (by decide)
  by_cases hlt : q.length < capacity
  · simp [push, ofFifo, mechanism, push?, store?, slot, hlt, Nat.ne_of_lt hlt, hslot,
      Vector.toList_set]
  · have hfull : q.length = capacity := Nat.le_antisymm q.length_le (Nat.not_lt.mp hlt)
    simp [push, ofFifo, mechanism, push?, hfull]

theorem pop_ofFifo (q : Fifo) : (ofFifo q).pop = (mechanism.pop q).map (Prod.map id ofFifo) := by
  have hslot : q.slot 0 = ⟨q.head, q.head_lt⟩ := by
    simp [slot, Nat.mod_eq_of_lt q.head_lt]
  by_cases hz : q.length = 0
  · simp [pop, ofFifo, mechanism, pop?, hz]
  · simp [pop, ofFifo, mechanism, pop?, hz, hslot, q.head_lt]

/-- What was moved before stands in front of what is moved now. -/
theorem drainFrom_ofFifo (q : Fifo) (front out : List UInt8) :
    (ofFifo q).drainFrom front.length (front ++ out) =
      some (front.length + (q.drainInto out).1, front ++ (q.drainInto out).2.1,
        ofFifo (q.drainInto out).2.2) := by
  induction out generalizing q front with
  | nil =>
    rw [drainFrom]
    simp [drainInto]
  | cons old out ih =>
    rw [drainFrom, if_pos (by simp), pop_ofFifo]
    cases h : q.pop? with
    | none => simp [mechanism, drainInto, h]
    | some p =>
      obtain ⟨byte, q'⟩ := p
      have hstore : store? (front ++ old :: out) front.length byte =
          some ((front ++ [byte]) ++ out) := by
        simp [store?]
      have hrest := ih q' (front ++ [byte])
      simp only [List.length_append, List.length_singleton] at hrest
      simp only [mechanism, h, Option.map_some, Prod.map, id]
      split
      · next hnone =>
        rw [hstore] at hnone
        cases hnone
      · next out' hout =>
        obtain rfl := Option.some.inj (hstore.symm.trans hout)
        rw [hrest]
        simp only [drainInto, h]
        simp [Nat.add_assoc, Nat.add_comm]

end Bare

theorem views_checked : Views mechanism checked Bare.ofFifo where
  empty := by simp [mechanism, checked, Bare.ofFifo, empty]
  push := Bare.push_ofFifo
  pop := Bare.pop_ofFifo
  drain q out := by
    have h := Bare.drainFrom_ofFifo q [] out
    simp only [List.nil_append, List.length_nil, Nat.zero_add] at h
    exact h
  reset _ := rfl

/-! ### Runs over the ring -/

theorem exists_runFrom_mechanism (s : Shelf Fifo) (moves : List Move) :
    ∃ trace, mechanism.runFrom s moves = some trace := by
  induction moves generalizing s with
  | nil => exact ⟨[], rfl⟩
  | cons move moves ih =>
    have hmove : ∃ r, mechanism.move s move = some r := by
      cases move with
      | step st => cases st <;> exact ⟨_, rfl⟩
      | goBack newer => exact ⟨_, rfl⟩
    obtain ⟨⟨answer, t⟩, hr⟩ := hmove
    obtain ⟨trace, htrace⟩ := ih t
    exact ⟨_, by rw [Mechanism.runFrom_of_some hr, htrace, Option.map_some]⟩

/-- A bench is a shelf of which only the newest copy is used. -/
theorem Bench.runFrom_mechanism (b : Bench) (copies : List Fifo)
    (hsaved : copies.getD 0 .empty = b.saved) (steps : List Step) :
    mechanism.runFrom { queue := b.queue, copies } (steps.map .step) = some (b.run steps) := by
  induction steps generalizing b copies with
  | nil => rfl
  | cons st steps ih =>
    obtain ⟨copies', hmove, hsaved'⟩ : ∃ copies',
        mechanism.move { queue := b.queue, copies } (.step st) =
          some ((b.step st).1, { queue := (b.step st).2.queue, copies := copies' }) ∧
        copies'.getD 0 .empty = (b.step st).2.saved := by
      cases st with
      | push byte =>
        cases h : b.queue.push? byte <;>
          exact ⟨copies, by simp [Mechanism.move, mechanism, step, h],
            by simpa only [step, h] using hsaved⟩
      | pop =>
        cases h : b.queue.pop? <;>
          exact ⟨copies, by simp [Mechanism.move, mechanism, step, h],
            by simpa only [step, h] using hsaved⟩
      | drain out => exact ⟨copies, rfl, hsaved⟩
      | reset => exact ⟨copies, rfl, hsaved⟩
      | save => exact ⟨b.queue :: copies, rfl, rfl⟩
      | restore =>
        refine ⟨copies, ?_, hsaved⟩
        simp only [Mechanism.move, Mechanism.goBack, step, mechanism, hsaved]
    rw [List.map_cons, Mechanism.runFrom_of_some hmove, ih _ _ hsaved', Option.map_some]
    rfl

/-- **A bench answers like a list** of the queued bytes. -/
theorem Bench.run_bounded (steps : List Step) :
    bounded.run (steps.map .step) = some ((run {} steps).map (Prod.map id toList)) := by
  have hrun : mechanism.run (steps.map .step) = some (run {} steps) :=
    runFrom_mechanism {} [] rfl steps
  rw [views_bounded.run, hrun, Option.map_some]

/-- **The ring is a bounded queue.** Whatever is pushed, popped, drained into buffers of any length,
reset and restored from earlier copies, a queue answers like the list of its bytes, and so does a
bare ring, which never reaches beyond an array on the way. All along, its head lies in the ring, at
most `capacity` bytes are queued, and what it tells of their number is that of the list. -/
theorem behaves_as_list (moves : List Move) :
    ∃ trace, mechanism.run moves = some trace ∧
      bounded.run moves = some (trace.map (Prod.map id toList)) ∧
      checked.run moves = some (trace.map (Prod.map id Bare.ofFifo)) ∧
      ∀ answer q, (answer, q) ∈ trace →
        q.head < capacity ∧ q.length ≤ capacity ∧ q.length = q.toList.length ∧
          q.isEmpty = q.toList.isEmpty ∧ q.isFull = (q.toList.length == capacity) := by
  obtain ⟨trace, hrun⟩ : ∃ trace, mechanism.run moves = some trace :=
    exists_runFrom_mechanism { queue := .empty, copies := [] } moves
  refine ⟨trace, hrun, ?_, ?_, fun _ q _ =>
    ⟨q.head_lt, q.length_le, q.length_toList.symm, q.isEmpty_eq, q.isFull_eq⟩⟩
  · rw [views_bounded.run, hrun, Option.map_some]
  · rw [views_checked.run, hrun, Option.map_some]

/-- A drain goes once around the end of the ring, and the older of two copies is none the worse. -/
example :
    let fill : List Move := (List.range 12).map fun i => .step (.push (UInt8.ofNat i))
    let drain : Move := .step (.drain (List.replicate 11 0xEE))
    let moves := fill ++ [.step .save, drain, .step .save] ++ fill ++ [drain, .goBack 1, drain]
    (mechanism.run moves).map (fun trace => trace.getLast?.map fun r => (r.1, r.2.toList)) =
      some (some (.drained 11 [0, 1, 2, 3, 4, 5, 6, 7, 8, 9, 10], [11])) := by decide +kernel

end Fifo

end Uart16550
