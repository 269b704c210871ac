import Uart16550.EchoSystem.Basic

/-!
# Runs under the echo host

A system under the echo host, driven step by step without interrupt workers: interrupts are served
on request.
-/

namespace Uart16550

namespace EchoSystem

/-- One step of a run without interrupt workers. -/
inductive Step where
  /-- Adds a line, attaches the host and binds standard output. -/
  | add (line : UInt8) (threshold : Nat)
  | remove (line : UInt8)
  /-- Registers a silent line with the host, behind the back of the table. -/
  | register (line : UInt8)
  /-- An operation on the device of a live line. -/
  | onLine (line : UInt8) (a : Access)
  /-- Tells the host of an interrupt. -/
  | deliver (line iir : UInt8)
  /-- Has the host handle what is pending. -/
  | service (line : UInt8)
  | drain (line : UInt8)
  /-- Feeds line 0. What would have to wait is not started. -/
  | feed (bytes : List UInt8) (loopback : Bool)
  deriving DecidableEq, Repr

/-- The result of a step. -/
inductive Result where
  | reply (r : Reply)
  /-- The identifications that a service round handled. -/
  | handled (iirs : List UInt8)
  /-- The bytes read; none if the line is not registered. -/
  | drained (bytes : Option (List UInt8))
  /-- The bytes do not fit at once. -/
  | wouldBlock
  /-- The host would read the line for ever. -/
  | endless
  deriving DecidableEq, Repr

/-- What a step answers. -/
structure Answer where
  result : Result
  /-- What was printed during the step. -/
  printed : List UInt8 := []
  /-- What can be seen afterwards of the live device that the step was about. -/
  state : Option Device.Snapshot := none
  deriving DecidableEq, Repr

/-- The line that a step is about. -/
def Step.line : Step → UInt8
  | .add line _ | .remove line | .register line | .onLine line _ | .deliver line _
  | .service line | .drain line => line
  | .feed _ _ => 0

/-- The effect of a step: its result, what it prints, and the system afterwards. -/
def effect (s : EchoSystem) : Step → Result × List UInt8 × EchoSystem
  | .add line threshold =>
    let (reply, s) := s.addEcho line threshold
    (.reply reply, [], s)
  | .remove line =>
    let r := s.remove line
    (.reply (.ofExcept (fun _ => .done) r.result), [], r.system)
  | .register line =>
    match LineInfo.ofLine line with
    | .error e => (.reply (.failed e), [], s)
    | .ok info =>
      let (result, host) := s.host.enter info.line .silent
      (.reply (.ofExcept (fun _ => .done) result), [], { s with host := host })
  | .onLine line a =>
    let (reply, printed, s) := s.perform line (.access a)
    (.reply reply, printed, s)
  | .deliver line iir =>
    match s.deliver line iir with
    | some (printed, s) => (.reply .done, printed, s)
    | none => (.endless, [], s)
  | .service line =>
    match s.serviceWithin line serviceLimit with
    | some r => (.handled r.handled, r.printed, r.system)
    | none => (.endless, [], s)
  | .drain line =>
    match s.drain line with
    | some (bytes, s) => (.drained bytes, [], s)
    | none => (.endless, [], s)
  | .feed bytes loopback =>
    match s.feed bytes loopback with
    | (.done, printed, s) => (.reply .done, printed, s)
    | (.failed e, printed, s) => (.reply (.failed e), printed, s)
    | (.waiting _, _, _) => (.wouldBlock, [], s)

/-- One step. -/
def step (s : EchoSystem) (st : Step) : Answer × EchoSystem :=
  let (result, printed, s) := s.effect st
  ({ result, printed, state := (s.liveDevice? st.line).map (·.snapshot) }, s)

/-- The answers of a sequence of steps. -/
def run (s : EchoSystem) : List Step → List Answer
  | [] => []
  | st :: steps =>
    let (answer, s') := s.step st
    answer :: run s' steps

end EchoSystem

end Uart16550
