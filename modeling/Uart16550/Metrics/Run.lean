import Uart16550.Metrics.Report

/-!
# Runs of counting

Counters under a sequence of events, resets and snapshots.
-/

namespace Uart16550

namespace Metrics

/-- One step on counters under test. -/
inductive Step where
  | record (event : Event)
  | reset
  /-- Takes a snapshot and keeps it. -/
  | snapshot
  /-- What was counted from the second kept snapshot to the first. -/
  | since (later earlier : Nat)
  | report
  deriving DecidableEq, Repr

/-- What a step answers. -/
inductive Answer where
  | done
  | snapshot (s : Snapshot)
  | text (report : String)
  /-- A snapshot was asked for that was never taken. -/
  | noSnapshot
  deriving DecidableEq, Repr

/-- Counters and the snapshots taken so far, oldest first. -/
structure Bench where
  metrics : Metrics
  snapshots : List Snapshot := []
  deriving DecidableEq, Repr

namespace Bench

/-- The effect of one step. -/
def step (b : Bench) : Step → Answer × Bench
  | .record event => (.done, { b with metrics := b.metrics.record event })
  | .reset => (.done, { b with metrics := b.metrics.reset })
  | .snapshot =>
    (.snapshot b.metrics.snapshot, { b with snapshots := b.snapshots ++ [b.metrics.snapshot] })
  | .since later earlier =>
    match b.snapshots[later]?, b.snapshots[earlier]? with
    | some l, some e => (.snapshot (l.since e), b)
    | _, _ => (.noSnapshot, b)
  | .report => (.text b.metrics.report, b)

/-- The answers of a sequence of steps, each with the counters it left behind. -/
def run (b : Bench) : List Step → List (Answer × Metrics)
  | [] => []
  | s :: steps =>
    let (answer, b') := b.step s
    (answer, b'.metrics) :: b'.run steps

end Bench

end Metrics

end Uart16550
