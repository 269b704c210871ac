import Uart16550.Fifo.Basic

/-!
# Runs of queue operations

A queue under a sequence of operations, together with one saved copy that a later step goes back
to. `Fifo.Bench.step` answers each operation with what the operation itself returns.
-/

namespace Uart16550

namespace Fifo

/-- One operation on a queue under test. -/
inductive Step where
  | push (byte : UInt8)
  | pop
  /-- Drains over the given buffer. -/
  | drain (out : List UInt8)
  | reset
  /-- Keeps a copy of the queue. -/
  | save
  /-- Goes back to the last copy, the empty queue if none was kept. -/
  | restore
  deriving DecidableEq, Repr

/-- What an operation answers. -/
inductive Answer where
  | done
  /-- Whether the byte was accepted. -/
  | pushed (accepted : Bool)
  /-- The byte taken out, if there was one. -/
  | popped (byte : Option UInt8)
  /-- The number of bytes moved and the whole buffer afterwards. -/
  | drained (moved : Nat) (out : List UInt8)
  deriving DecidableEq, Repr

/-- A queue and the copy that `restore` goes back to. -/
structure Bench where
  queue : Fifo := empty
  saved : Fifo := empty
  deriving DecidableEq

namespace Bench

/-- The effect of one operation. A refused byte leaves the queue as it was. -/
def step (b : Bench) : Step → Answer × Bench
  | .push byte =>
    match b.queue.push? byte with
    | some q => (.pushed true, { b with queue := q })
    | none => (.pushed false, b)
  | .pop =>
    match b.queue.pop? with
    | some (byte, q) => (.popped (some byte), { b with queue := q })
    | none => (.popped none, b)
  | .drain out =>
    let (moved, out, q) := b.queue.drainInto out
    (.drained moved out, { b with queue := q })
  | .reset => (.done, { b with queue := b.queue.reset })
  | .save => (.done, { b with saved := b.queue })
  | .restore => (.done, { b with queue := b.saved })

/-- The answers of a sequence of operations, each with the queue it left behind. -/
def run (b : Bench) : List Step → List (Answer × Fifo)
  | [] => []
  | s :: steps =>
    let (answer, b') := b.step s
    (answer, b'.queue) :: b'.run steps

end Bench

end Fifo

end Uart16550
