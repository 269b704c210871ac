import Uart16550.Host.Echo
import Uart16550.System.Removal

/-!
# A system under the echo host

The echo host as registrar and interrupt sink of a table. What it prints goes to standard output,
and so does what the devices transmit, because each is bound to a consumer that prints.

`EchoSystem.feed` offers bytes to line 0 once; `EchoSystem.serviceWithin` has the host handle what is
pending on a line.
-/

namespace Uart16550

/-- A system whose devices tell the echo host of their interrupts. -/
abbrev EchoSystem := System EchoHost Unit

namespace EchoSystem

/-- The consumer that prints to standard output. -/
def stdout : String := "stdout"

/-- The system before anything was added. -/
def empty (counting : Bool) : EchoSystem := System.empty {} counting

/-! ### Lines -/

/-- An operation on the device of a live line, with what it prints. -/
def perform (s : EchoSystem) (line : UInt8) (op : Operation Unit) :
    Reply × List UInt8 × EchoSystem :=
  match s.onLine line op with
  | .ok (reply, flushes, s) => (reply, Echo.printed flushes, s)
  | .error e => (.failed e, [], s)

/-- Adds a line, attaches the host and binds standard output. A line whose consumer is refused
stays added. -/
def addEcho (s : EchoSystem) (line : UInt8) (threshold : Nat) : Reply × EchoSystem :=
  match s.add line with
  | (.error e, s) => (.failed e, s)
  | (.ok _, s) =>
    let (_, _, s) := perform s line (.attach ())
    let (reply, _, s) := perform s line (.bind threshold stdout)
    (reply, s)

/-! ### Interrupts -/

/-- The device that is registered under a line. -/
def registered? (s : EchoSystem) (line : UInt8) : Option (Nat × Device Unit) :=
  match s.host.find? line with
  | some (.device place) => s.devices[place]?.map fun d => (place, d)
  | some .silent | none => none

/-- Has the echo host handle an interrupt of a line: what it prints, and the system afterwards. A
silent line gives it nothing to do. -/
def deliver (s : EchoSystem) (line iir : UInt8) : Option (List UInt8 × EchoSystem) :=
  match s.registered? line with
  | some (place, d) =>
    (Echo.deliver d iir).map fun (printed, d) => (printed, s.modify place fun _ => d)
  | none => some ([], s)

/-- Has the echo host read all received data of a line; no bytes if the line is not registered. -/
def drain (s : EchoSystem) (line : UInt8) : Option (Option (List UInt8) × EchoSystem) :=
  match s.host.find? line with
  | none => some (none, s)
  | some .silent => some (some [], s)
  | some (.device place) =>
    match s.devices[place]? with
    | some d => (Echo.drain d).map fun (bytes, d) => (some bytes, s.modify place fun _ => d)
    | none => some (some [], s)

/-- The device of a live line. -/
def liveDevice? (s : EchoSystem) (line : UInt8) : Option (Device Unit) :=
  (s.live? line).bind fun place => s.devices[place]?

/-- What a service round leaves behind. -/
structure Service where
  /-- The identifications that were handled, in order. -/
  handled : List UInt8
  printed : List UInt8
  system : EchoSystem

/-- Handles interrupts of a live line while any is pending, at most `rounds` of them. -/
def serviceWithin (s : EchoSystem) (line : UInt8) : (rounds : Nat) → Option Service
  | 0 => some { handled := [], printed := [], system := s }
  | rounds + 1 =>
    match s.liveDevice? line with
    | some d =>
      if Interrupt.isPending d.regs.iir then
        (s.deliver line d.regs.iir).bind fun (printed, s) =>
          (serviceWithin s line rounds).map fun rest =>
            { rest with
              handled := d.regs.iir :: rest.handled
              printed := printed ++ rest.printed }
      else
        some { handled := [], printed := [], system := s }
    | none => some { handled := [], printed := [], system := s }

/-- The longest service round. -/
abbrev serviceLimit : Nat := 8

/-! ### Feeding line 0 -/

/-- Writes bytes to the transmitter of line 0 until one is refused. -/
def writeAll (s : EchoSystem) : List UInt8 → Except Error Unit × List UInt8 × EchoSystem
  | [] => (.ok (), [], s)
  | byte :: bytes =>
    match s.onLine 0 (.access (.write Offset.data byte)) with
    | .error e => (.error e, [], s)
    | .ok (reply, flushes, s) =>
      match reply with
      | .failed e => (.error e, Echo.printed flushes, s)
      | _ =>
        let (result, printed, s) := writeAll s bytes
        (result, Echo.printed flushes ++ printed, s)

/-- Offers bytes to the receiver of line 0: those that were not accepted. -/
def offer (s : EchoSystem) (bytes : List UInt8) : Except Error (List UInt8) × EchoSystem :=
  match s.onLine 0 (.access (.inject bytes)) with
  | .error e => (.error e, s)
  | .ok (.count accepted, _, s) => (.ok (bytes.drop accepted), s)
  | .ok (.failed e, _, s) => (.error e, s)
  | .ok (_, _, s) => (.ok bytes, s)

/-- What feeding line 0 came to. -/
inductive Fed where
  | done
  | failed (e : Error)
  /-- These bytes have to wait until the host has read others. -/
  | waiting (rest : List UInt8)
  deriving DecidableEq, Repr

/-- Feeds bytes to line 0, in loopback through its transmitter, otherwise from the wire. -/
def feed (s : EchoSystem) (bytes : List UInt8) (loopback : Bool) :
    Fed × List UInt8 × EchoSystem :=
  if loopback then
    match s.writeAll bytes with
    | (.ok (), printed, s) => (.done, printed, s)
    | (.error e, printed, s) => (.failed e, printed, s)
  else if bytes.isEmpty then
    (.done, [], s)
  else
    match s.offer bytes with
    | (.ok [], s) => (.done, [], s)
    | (.ok rest, s) => (.waiting rest, [], s)
    | (.error e, s) => (.failed e, [], s)

end EchoSystem

end Uart16550
