import Uart16550.Metrics.Basic
import Uart16550.Decimal.Dyadic

/-!
# The counters as text

Eleven lines, each closed by a line feed. The average flush size has two decimals.
-/

namespace Uart16550

namespace Metrics

/-- The average flush size with two decimals. -/
def averageText (m : Metrics) : String :=
  (Dyadic.ofBits m.averageFlushSize.toBits).twoPlaces

/-- The lines of the report. -/
def reportLines (m : Metrics) : List String :=
  [ "UART Metrics:",
    s!"  Enabled:           {m.enabled}",
    s!"  TX Bytes:          {m.txBytes}",
    s!"  TX Discarded:      {m.txDiscarded}",
    s!"  RX Bytes:          {m.rxBytes}",
    s!"  Flushes:           {m.thresholdFlushes} threshold, {m.idleFlushes} idle, {m.fullFlushes} full",
    s!"  Avg Flush Size:    {m.averageText}",
    s!"  Overruns:          {m.overruns}",
    s!"  Protocol Errors:   {m.protocolErrors}",
    s!"  Interrupts:        {m.interrupts}",
    s!"  Spurious Wakeups:  {m.spuriousWakeups}" ]

/-- The counters as text. -/
def report (m : Metrics) : String :=
  String.join (m.reportLines.map (· ++ "\n"))

end Metrics

end Uart16550
