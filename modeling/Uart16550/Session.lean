import Uart16550.Device.Script
import Uart16550.Host.Recording
import Uart16550.System.Removal

/-!
# Sessions

A session is a system under a recording host, driven step by step: through the table by line
number, through the host by its listed devices, and through handles to devices, which go on working
after their line is gone. `Session.step` performs one step and everything that its interrupts bring
about; the answer holds the result, the calls of consumers and sinks on the way, and what can be
seen of the device that the step was about.
-/

namespace Uart16550

/-- A system under a recording host, as seen by somebody who holds handles to its devices. -/
structure Session where
  /-- Handle numbers are places in the list of devices. -/
  system : System RecordingHost ScriptedSink
  /-- The table itself was dropped. -/
  tableGone : Bool
  /-- The handles that were let go of. -/
  letGo : List Nat
  deriving DecidableEq

namespace Session

/-- A step that goes through the table. -/
inductive TableStep where
  | add (line : UInt8)
  | remove (line : UInt8)
  /-- An operation on the device of a live line. -/
  | onLine (line : UInt8) (op : Operation ScriptedSink)
  | lines
  | isAllocated
  | drop
  deriving DecidableEq, Repr

/-- A step of the host, or one that prepares it. -/
inductive HostStep where
  /-- The next registration is to be refused. -/
  | refuseRegister (text : String)
  /-- The next delisting is to be refused. -/
  | refuseUnregister (text : String)
  /-- A line is to be asked for at the end of the next delisting. -/
  | request (line : UInt8)
  /-- Asks for the devices that the host lists. -/
  | listed
  /-- A read from the device that the host listed first under a line. -/
  | input (line offset : UInt8)
  /-- A write to the device that the host listed first under a line. -/
  | output (line offset value : UInt8)
  deriving DecidableEq, Repr

/-- One step of a session. -/
inductive Step where
  | table (t : TableStep)
  | host (h : HostStep)
  /-- A device that belongs to no table. -/
  | create (info : LineInfo) (counting : Bool)
  /-- An operation on the device of a handle. -/
  | onHandle (handle : Nat) (op : Operation ScriptedSink)
  /-- Lets go of a handle. -/
  | letGo (handle : Nat)
  deriving DecidableEq, Repr

/-- The result of a step. -/
inductive Result where
  | reply (r : Reply)
  /-- The handle of a new device, or why there is none. -/
  | handle (r : Except Error Nat)
  | lines (lines : List UInt8)
  | listed (entries : List LineInfo)
  /-- How a removal went, and what came of the line that the host asked for. -/
  | removed (result : Except Error Unit) (readded : Option (UInt8 × Except Error Nat))
  /-- The table was dropped. -/
  | noTable
  /-- There is no such handle, or it was let go of. -/
  | noHandle
  /-- The host lists no device of that line. -/
  | notListed
  deriving DecidableEq

/-- What a step answers. -/
structure Answer where
  result : Result
  /-- Calls of consumers, in order. -/
  flushes : List Flush := []
  /-- Calls of interrupt sinks, in order. -/
  deliveries : List Delivery := []
  /-- What can be seen afterwards of the device that the step was about. -/
  state : Option Device.Snapshot := none
  deriving DecidableEq

/-- A session without devices. -/
def empty (counting : Bool) : Session :=
  { system := .empty {} counting, tableGone := false, letGo := [] }

/-- What can be seen of a device, unless its handle was let go of. -/
def view (s : Session) (device : Nat) : Option Device.Snapshot :=
  if device ∈ s.letGo then none else s.system.devices[device]?.map (·.snapshot)

/-- The device of a live line, while there is a table. -/
def live? (s : Session) (line : UInt8) : Option Nat :=
  if s.tableGone then none else s.system.live? line

/-- What can be seen of the device of a live line. -/
def viewLive (s : Session) (line : UInt8) : Option Device.Snapshot :=
  (s.live? line).bind s.view

/-- Changes the host. -/
def modifyHost (s : Session) (f : RecordingHost → RecordingHost) : Session :=
  { s with system.host := f s.system.host }

/-- An operation on the device at a place, until its worker is idle again. -/
def operate (s : Session) (device : Nat) (op : Operation ScriptedSink) : Answer × Session :=
  match s.system.devices[device]? with
  | some d =>
    let r := d.step op
    let s := { s with system := s.system.modify device fun _ => r.device }
    ({ result := .reply r.reply, flushes := r.flushes, deliveries := r.deliveries,
       state := s.view device }, s)
  | none => ({ result := .noHandle }, s)

/-- An operation on behalf of the host, on the device that it listed first under a line. What can
be seen is the device of the live line, which may be another. -/
def operateListed (s : Session) (line : UInt8) (op : Operation ScriptedSink) : Answer × Session :=
  match s.system.host.find? line with
  | some device =>
    let (answer, s') := s.operate device op
    ({ answer with state := (s.live? line).bind s'.view }, s')
  | none => ({ result := .notListed, state := s.viewLive line }, s)

/-- A step through the table. -/
def stepTable (s : Session) : TableStep → Answer × Session
  | .add line =>
    let before := s.viewLive line
    let (result, system) := s.system.add line
    let s := { s with system := system }
    let state := match result with
      | .ok device => s.view device
      | .error _ => before
    ({ result := .handle result, state := state }, s)
  | .remove line =>
    let device := s.live? line
    let r := s.system.remove line
    let s := { s with system := r.system }
    ({ result := .removed r.result r.readded, state := device.bind s.view }, s)
  | .onLine line op =>
    match s.system.table.get line with
    | .ok device => s.operate device op
    | .error e => ({ result := .reply (.failed e) }, s)
  | .lines => ({ result := .lines s.system.table.lines }, s)
  | .isAllocated => ({ result := .reply (.flag s.system.table.isAllocated) }, s)
  | .drop => ({ result := .reply .done }, { s with system := s.system.removeAll, tableGone := true })

/-- A step of the host. -/
def stepHost (s : Session) : HostStep → Answer × Session
  | .refuseRegister text =>
    ({ result := .reply .done }, s.modifyHost ({ · with refuseRegister := some text }))
  | .refuseUnregister text =>
    ({ result := .reply .done }, s.modifyHost ({ · with refuseUnregister := some text }))
  | .request line =>
    ({ result := .reply .done }, s.modifyHost ({ · with request := some line }))
  | .listed => ({ result := .listed (s.system.host.entries.map (·.1)) }, s)
  | .input line offset => s.operateListed line (.access (.input offset))
  | .output line offset value => s.operateListed line (.access (.output offset value))

/-- One step, and everything that its interrupts bring about. -/
def step (s : Session) : Step → Answer × Session
  | .table t => if s.tableGone then ({ result := .noTable }, s) else s.stepTable t
  | .host h => s.stepHost h
  | .create info counting =>
    let device := s.system.devices.length
    let s := { s with system.devices := s.system.devices ++ [Device.create info counting] }
    ({ result := .handle (.ok device), state := s.view device }, s)
  | .onHandle handle op =>
    if handle ∈ s.letGo then ({ result := .noHandle }, s) else s.operate handle op
  | .letGo handle =>
    if handle ∈ s.letGo ∨ s.system.devices.length ≤ handle then
      ({ result := .noHandle }, s)
    else
      ({ result := .reply .done }, { s with letGo := handle :: s.letGo })

/-- The answers of a sequence of steps. -/
def run (s : Session) : List Step → List Answer
  | [] => []
  | st :: steps =>
    let (answer, s') := s.step st
    answer :: s'.run steps

end Session

end Uart16550
