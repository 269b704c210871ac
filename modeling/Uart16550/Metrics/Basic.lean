import Uart16550.Flush

/-!
# Counters

What a device counts, in 64-bit words that wrap. A device made without counting keeps every counter
at zero (`Metrics.record`). The average flush size divides the bytes handed to consumers by the
number of all flushes.
-/

namespace Uart16550

/-- The counters of one device. -/
structure Metrics where
  /-- Whether anything is counted; fixed when the device is made. -/
  enabled : Bool
  /-- Bytes handed to a consumer. -/
  txBytes : UInt64
  /-- Bytes flushed while no consumer was bound. -/
  txDiscarded : UInt64
  /-- Bytes accepted on the receive side. -/
  rxBytes : UInt64
  thresholdFlushes : UInt64
  idleFlushes : UInt64
  fullFlushes : UInt64
  /-- Bytes lost to a full queue. -/
  overruns : UInt64
  /-- Register accesses that no register answers. -/
  protocolErrors : UInt64
  /-- Interrupts delivered to an end. -/
  interrupts : UInt64
  /-- Times the interrupt worker woke up with nothing pending. -/
  spuriousWakeups : UInt64
  deriving DecidableEq, Repr

namespace Metrics

/-- Something worth counting. -/
inductive Event where
  /-- A flush of `bytes` bytes; `delivered` tells whether a consumer was bound. -/
  | flush (reason : FlushReason) (bytes : Nat) (delivered : Bool)
  /-- Bytes accepted on the receive side. -/
  | received (bytes : Nat)
  | overrun
  | protocolError
  | interrupt
  | spuriousWakeup
  deriving DecidableEq, Repr

/-- All counters at zero. -/
def zero (enabled : Bool) : Metrics where
  enabled := enabled
  txBytes := 0
  txDiscarded := 0
  rxBytes := 0
  thresholdFlushes := 0
  idleFlushes := 0
  fullFlushes := 0
  overruns := 0
  protocolErrors := 0
  interrupts := 0
  spuriousWakeups := 0

/-- All counters back to zero; whether anything is counted stays as it was. -/
def reset (m : Metrics) : Metrics := zero m.enabled

/-- Counts one flush under its reason. -/
def countReason (m : Metrics) : FlushReason → Metrics
  | .threshold => { m with thresholdFlushes := m.thresholdFlushes + 1 }
  | .idle => { m with idleFlushes := m.idleFlushes + 1 }
  | .full => { m with fullFlushes := m.fullFlushes + 1 }

/-- Counts an event, whether or not counting is enabled. -/
def count (m : Metrics) : Event → Metrics
  | .flush reason bytes true =>
    { m.countReason reason with txBytes := m.txBytes + UInt64.ofNat bytes }
  | .flush reason bytes false =>
    { m.countReason reason with txDiscarded := m.txDiscarded + UInt64.ofNat bytes }
  | .received bytes => { m with rxBytes := m.rxBytes + UInt64.ofNat bytes }
  | .overrun => { m with overruns := m.overruns + 1 }
  | .protocolError => { m with protocolErrors := m.protocolErrors + 1 }
  | .interrupt => { m with interrupts := m.interrupts + 1 }
  | .spuriousWakeup => { m with spuriousWakeups := m.spuriousWakeups + 1 }

/-- Counts an event if counting is enabled. -/
def record (m : Metrics) (e : Event) : Metrics := if m.enabled then m.count e else m

/-- The number of flushes made for a reason. -/
def flushes (m : Metrics) : FlushReason → UInt64
  | .threshold => m.thresholdFlushes
  | .idle => m.idleFlushes
  | .full => m.fullFlushes

/-- The two sides of the average flush size: bytes handed to consumers, and flushes of any kind. -/
def averageRatio (m : Metrics) : UInt64 × UInt64 :=
  (m.txBytes, m.flushes .threshold + m.flushes .idle + m.flushes .full)

/-- The average flush size as a double, zero before the first flush. -/
def averageFlushSize (m : Metrics) : Float :=
  let (bytes, flushes) := m.averageRatio
  if flushes == 0 then 0 else bytes.toFloat / flushes.toFloat

/-- Four counters at one moment. -/
structure Snapshot where
  txBytes : UInt64
  rxBytes : UInt64
  overruns : UInt64
  interrupts : UInt64
  deriving DecidableEq, Repr

/-- The present values of the four counters of a snapshot. -/
def snapshot (m : Metrics) : Snapshot where
  txBytes := m.txBytes
  rxBytes := m.rxBytes
  overruns := m.overruns
  interrupts := m.interrupts

/-- Difference of two counters, zero where the later one is smaller. -/
def saturatingSub (later earlier : UInt64) : UInt64 :=
  if earlier ≤ later then later - earlier else 0

/-- What was counted from `earlier` to `later`. -/
def Snapshot.since (later earlier : Snapshot) : Snapshot where
  txBytes := saturatingSub later.txBytes earlier.txBytes
  rxBytes := saturatingSub later.rxBytes earlier.rxBytes
  overruns := saturatingSub later.overruns earlier.overruns
  interrupts := saturatingSub later.interrupts earlier.interrupts

end Metrics

end Uart16550
