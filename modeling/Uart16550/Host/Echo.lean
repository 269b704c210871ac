import Uart16550.Device.Registers
import Uart16550.Host.Basic

/-!
# The echo host

A minimal serial driver. Every byte that it receives on a line it writes back to the line's
transmitter; in loopback the bytes already went out once, so it prints them instead.

`Echo.deliver` is its interrupt handler, on the device that interrupted. The handler reads received
data until the line status reports none, which does not come about while offset 0 means the divisor
latch: `Echo.drain` has no result then.
-/

namespace Uart16550

namespace Echo

variable {σ : Type}

/-! ### The interrupt handler -/

/-- The line status and received data interrupts. -/
abbrev receiveInterrupts : UInt8 :=
  InterruptEnable.receivedData ||| InterruptEnable.lineStatus

/-- The same and the transmitter interrupt. -/
abbrev allInterrupts : UInt8 :=
  receiveInterrupts ||| InterruptEnable.transmitterEmpty

/-- Reads data for as long as the line status reports any, at most `reads` times; no result if it
still does then. -/
def drainWithin : (reads : Nat) → Device σ → Option (List UInt8 × Device σ)
  | reads, d =>
    let (status, d) := d.input Offset.lineStatus
    if hasBit status LineStatus.dataReadyBit then
      match reads with
      | 0 => none
      | reads + 1 =>
        let (byte, d) := d.input Offset.data
        (drainWithin reads d).map fun (bytes, d) => (byte :: bytes, d)
    else
      some ([], d)

/-- Reads data for as long as the line status reports any. Each read takes out a byte, or consumes
a break; a device that still reports data after that many reads will report it for ever. -/
def drain (d : Device σ) : Option (List UInt8 × Device σ) := drainWithin (d.rx.length + 1) d

/-- Writes bytes to the transmitter. -/
def transmitAll (d : Device σ) : List UInt8 → Device σ × List Flush
  | [] => (d, [])
  | byte :: bytes =>
    let (d, first) := d.output Offset.data byte
    let (d, rest) := transmitAll d bytes
    (d, first ++ rest)

/-- Writes received bytes back. What is still queued then goes out when the transmitter interrupt
is masked again: on that interrupt, or at once if the transmitter has no room. -/
def writeBack (d : Device σ) (bytes : List UInt8) : Device σ × List Flush :=
  let (d, written) := transmitAll d bytes
  let (d, unmasked) := d.output Offset.interruptEnable allInterrupts
  let (status, d) := d.input Offset.lineStatus
  if hasBit status LineStatus.holdingEmptyBit then
    (d, written ++ unmasked)
  else
    let (d, masked) := d.output Offset.interruptEnable receiveInterrupts
    (d, written ++ unmasked ++ masked)

/-- What batches print when their consumer is standard output. -/
def printed (flushes : List Flush) : List UInt8 := flushes.flatMap (·.bytes)

/-- The interrupt handler: what it prints, and the device afterwards. -/
def deliver (d : Device σ) (iir : UInt8) : Option (List UInt8 × Device σ) :=
  match Cause.ofIdent iir with
  | some .lineStatus =>
    let (status, d) := d.input Offset.lineStatus
    -- a break reads as a byte that nobody sent
    some ([], if hasBit status LineStatus.breakInterruptBit then (d.input Offset.data).2 else d)
  | some .receivedData =>
    (drain d).map fun (bytes, d) =>
      let (control, d) := d.input Offset.modemControl
      if hasBit control ModemControl.loop then
        (bytes, d)
      else
        let (d, flushes) := writeBack d bytes
        (printed flushes, d)
  | some .transmitterEmpty =>
    let (d, flushes) := d.output Offset.interruptEnable receiveInterrupts
    some (printed flushes, d)
  | none => some ([], d)

end Echo

/-! ### The registered lines -/

/-- What the echo host reaches under a line. -/
inductive EchoEntry where
  /-- The device at this place. -/
  | device (place : Nat)
  /-- A line that reads as zero everywhere and ignores writes. -/
  | silent
  deriving DecidableEq, Repr

/-- A host that knows at most one device per line. -/
structure EchoHost where
  entries : List (UInt8 × EchoEntry) := []
  deriving DecidableEq, Repr

namespace EchoHost

/-- What is registered under a line. -/
def find? (h : EchoHost) (line : UInt8) : Option EchoEntry := h.entries.lookup line

/-- Registers a line that is not registered yet. -/
def enter (h : EchoHost) (line : UInt8) (entry : EchoEntry) : Except Error Unit × EchoHost :=
  match h.find? line with
  | some _ => (.error (.registration s!"ttyS{line} already registered"), h)
  | none => (.ok (), { h with entries := h.entries ++ [(line, entry)] })

/-- Forgets a line. -/
def erase (h : EchoHost) (line : UInt8) : EchoHost :=
  { h with entries := h.entries.filter (·.1 != line) }

instance : Host EchoHost where
  register h info device := h.enter info.line (.device device)
  unregister h info := (.ok none, h.erase info.line)

end EchoHost

end Uart16550
