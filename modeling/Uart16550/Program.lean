import Uart16550.Config.CommandLine
import Uart16550.EchoSystem.Basic

/-!
# The program

Brings up lines under the echo host, feeds standard input to line 0 and prints what comes back.
`Program.start`, `Running.pump` and `Running.finish` are its three phases, free of input and
output; `Program.run` strings them together for an input that is known in advance.
-/

namespace Uart16550

/-- A program that has brought up its lines. -/
structure Running where
  config : Config
  /-- The places of the devices brought up, in order. -/
  devices : List Nat
  system : EchoSystem
  deriving DecidableEq

namespace Running

/-! ### Bringing lines up -/

/-- What is done to a new line: attach the host, bind standard output, ask for the interrupts of the
receiver, put line 0 into loopback if that was asked for, and start the worker. -/
def preparation (c : Config) (line : UInt8) : List (Operation Unit) :=
  [ .attach (),
    .bind c.threshold EchoSystem.stdout,
    .access (.write Offset.interruptEnable Echo.receiveInterrupts) ] ++
  (if c.loopback && line == 0 then
    [.access (.write Offset.modemControl (ModemControl.loop ||| ModemControl.out2))] else []) ++
  [.enableIrq]

/-- Operations on the device of a line, up to the first that fails. -/
def performAll (s : EchoSystem) (line : UInt8) :
    List (Operation Unit) → Except Error Unit × EchoSystem
  | [] => (.ok (), s)
  | op :: ops =>
    match s.perform line op with
    | (.failed e, _, s) => (.error e, s)
    | (_, _, s) => performAll s line ops

/-- Adds a line and prepares it: the place of its device. -/
def bringUp (s : EchoSystem) (c : Config) (line : UInt8) : Except Error Nat × EchoSystem :=
  match s.add line with
  | (.error e, s) => (.error e, s)
  | (.ok device, s) =>
    match performAll s line (preparation c line) with
    | (.ok (), s) => (.ok device, s)
    | (.error e, s) => (.error e, s)

/-- Brings up lines in order, up to the first that fails: the places of their devices. -/
def bringUpAll (s : EchoSystem) (c : Config) :
    List UInt8 → Except Error (List Nat) × EchoSystem
  | [] => (.ok [], s)
  | line :: lines =>
    match bringUp s c line with
    | (.error e, s) => (.error e, s)
    | (.ok device, s) =>
      match bringUpAll s c lines with
      | (.ok devices, s) => (.ok (device :: devices), s)
      | (.error e, s) => (.error e, s)

/-- The lines that a configuration asks for. -/
def linesOf (c : Config) : List UInt8 := (List.range c.lines.toNat).map UInt8.ofNat

/-- A program whose lines are all up. -/
def start (c : Config) : Except Error Running :=
  match bringUpAll (EchoSystem.empty (!c.noMetrics)) c (linesOf c) with
  | (.ok devices, system) => .ok { config := c, devices, system }
  | (.error e, _) => .error e

/-! ### Echoing -/

/-- Lets the worker of a line look at its device while it is armed, at most `looks` times, and the
host handle what it finds: what is printed, and the system afterwards. -/
def settleWithin (s : EchoSystem) (line : UInt8) : (looks : Nat) → List UInt8 × EchoSystem
  | 0 => ([], s)
  | looks + 1 =>
    match s.registered? line with
    | some (place, d) =>
      if d.isArmed then
        let (found, d) := d.capture
        let s := s.modify place fun _ => d
        match found with
        | .deliver iir _ =>
          match EchoSystem.deliver s line iir with
          | some (printed, s) =>
            let (more, s) := settleWithin (s.modify place (·.record .interrupt)) line looks
            (printed ++ more, s)
          | none => ([], s)
        | .stopped | .spurious | .unattended => settleWithin s line looks
      else
        ([], s)
    | none => ([], s)

/-- Feeds bytes to line 0 and has the host read them, over again for bytes that had to wait. -/
def pumpWithin (r : Running) (bytes : List UInt8) :
    (tries : Nat) → Except Error Unit × List UInt8 × Running
  | 0 => (.ok (), [], r)
  | tries + 1 =>
    match r.system.feed bytes r.config.loopback with
    | (.failed e, printed, system) => (.error e, printed, { r with system := system })
    | (.done, printed, system) =>
      let (echoed, system) := settleWithin system 0 EchoSystem.serviceLimit
      (.ok (), printed ++ echoed, { r with system := system })
    | (.waiting rest, printed, system) =>
      let (echoed, system) := settleWithin system 0 EchoSystem.serviceLimit
      let (result, more, r) := pumpWithin { r with system := system } rest tries
      (result, printed ++ echoed ++ more, r)

/-- The most that is read from standard input at a time. -/
abbrev sliceSize : Nat := Fifo.capacity

/-- One slice of standard input: an error if line 0 does not take it, and what is printed. -/
def pump (r : Running) (slice : List UInt8) : Except Error Unit × List UInt8 × Running :=
  r.pumpWithin slice (slice.length + 1)

/-! ### Ending -/

/-- Flushes a device and removes its line, whatever the host makes of it: what is printed on the
way. -/
def close (s : EchoSystem) (device : Nat) : List UInt8 × EchoSystem :=
  match s.devices[device]?, s.onDevice device (.access (.flush .idle)) with
  | some d, some (_, flushes, s) => (Echo.printed flushes, (s.remove d.line).system)
  | _, _ => ([], s)

/-- Closes devices in order. -/
def closeAll (s : EchoSystem) : List Nat → List UInt8 × EchoSystem
  | [] => ([], s)
  | device :: devices =>
    let (printed, s) := close s device
    let (more, s) := closeAll s devices
    (printed ++ more, s)

/-- The counters of the devices, each under the name of its line. -/
def reports (s : EchoSystem) (devices : List Nat) : String :=
  String.join <| (devices.filterMap fun device => s.devices[device]?).map fun d =>
    s!"ttyS{d.line}\n" ++ d.metrics.report

/-- Closes every line: what is still printed, counters included unless counting was switched
off. -/
def finish (r : Running) : List UInt8 × EchoSystem :=
  let (printed, s) := closeAll r.system r.devices
  let report := if r.config.noMetrics then "" else reports s r.devices
  (printed ++ report.toUTF8.toList, s)

end Running

namespace Program

/-! ### Start and end of the program -/

/-- The name and version that the program answers with. -/
def versionText : String := "vuart 0.2.0\n"

/-- What the program answers when asked for help. -/
def helpText : String :=
  String.join <| [
    "Virtual 16550A UART emulator with a stdio echo host",
    "",
    "Usage: vuart [OPTIONS]",
    "",
    "Options:",
    "  -l, --lines <LINES>          Number of lines to bring up (COM1..COM4) [default: 1]",
    "  -t, --threshold <THRESHOLD>  TX FIFO occupancy that triggers a flush to stdout (1-16) [default: 16]",
    "      --loopback               Put line 0 into internal loopback (MCR.LOOP)",
    "  -v, --verbose...             Increase verbosity (-v: info, -vv: debug, -vvv: trace)",
    "      --no-metrics             Disable metrics collection",
    "  -h, --help                   Print help",
    "  -V, --version                Print version"].map (· ++ "\n")

/-- The wording of a refused command line. -/
def refusalText : CommandLine.Refusal → String
  | .valueValidation => "error: invalid value\n"
  | .unknownArgument => "error: unexpected argument\n"
  | .argumentConflict => "error: an argument was given more than once\n"
  | .invalidValue => "error: a value is required\n"
  | .tooManyValues => "error: unexpected value\n"
  | .displayHelp => helpText
  | .displayVersion => versionText

/-- How the program ends. -/
structure Exit where
  code : UInt32
  stdout : List UInt8
  stderr : String
  /-- Help was asked for. -/
  help : Bool := false
  deriving DecidableEq, Repr

/-- A text on standard output and a code of success. -/
def Exit.success (text : String) : Exit := { code := 0, stdout := text.toUTF8.toList, stderr := "" }

/-- A text on the error output and a code of failure. -/
def Exit.failure (code : UInt32) (text : String) : Exit := { code, stdout := [], stderr := text }

/-- The end of a program that was not given a configuration. -/
def Exit.ofRefusal : CommandLine.Refusal → Exit
  | .displayHelp => { Exit.success helpText with help := true }
  | .displayVersion => .success versionText
  | r => .failure 2 (refusalText r)

/-- Reads the command line, checks the configuration and brings up its lines. -/
def start (args : List String) : Except Exit Running :=
  match CommandLine.parse args with
  | .error refusal => .error (.ofRefusal refusal)
  | .ok config =>
    match config.validate with
    | .error fault =>
      .error (.failure 2 ((Error.invalidConfiguration fault.message).message ++ "\n"))
    | .ok () =>
      match Running.start config with
      | .error e => .error (.failure 1 (e.message ++ "\n"))
      | .ok r => .ok r

/-- Cuts input into slices as they are read. -/
def slices : List UInt8 → List (List UInt8)
  | [] => []
  | byte :: bytes =>
    (byte :: bytes.take (Running.sliceSize - 1)) :: slices (bytes.drop (Running.sliceSize - 1))
termination_by bytes => bytes.length
decreasing_by
  simp only [List.length_drop, List.length_cons]
  omega

/-- Pumps slices of input until line 0 does not take one: what is printed. -/
def pumpAll (r : Running) : List (List UInt8) → List UInt8 × Running
  | [] => ([], r)
  | slice :: rest =>
    match r.pump slice with
    | (.error _, printed, r) => (printed, r)
    | (.ok (), printed, r) =>
      let (more, r) := pumpAll r rest
      (printed ++ more, r)

/-- A whole run of the program on an input that arrives in chunks. -/
def run (args : List String) (chunks : List (List UInt8)) : Exit :=
  match start args with
  | .error exit => exit
  | .ok r =>
    let (echoed, r) := pumpAll r (chunks.flatMap slices)
    { code := 0, stdout := echoed ++ r.finish.1, stderr := "" }

end Program

end Uart16550
