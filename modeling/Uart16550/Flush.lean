/-!
# Batches handed to a consumer

Bytes queued for transmission leave the chip in batches. A `Flush` is one batch as the consumer of
a line sees it.
-/

namespace Uart16550

/-- Why the transmit queue was emptied. -/
inductive FlushReason where
  /-- The occupancy reached the threshold of the consumer. -/
  | threshold
  /-- The host masked the transmitter interrupt with bytes still queued. -/
  | idle
  /-- The queue was full when another byte arrived. -/
  | full
  deriving DecidableEq, Repr

/-- One call of a consumer. -/
structure Flush where
  /-- The consumer that was called. -/
  label : String
  /-- The line of the device. -/
  line : UInt8
  /-- The bytes handed over, oldest first; there may be none. -/
  bytes : List UInt8
  reason : FlushReason
  deriving DecidableEq, Repr

end Uart16550
