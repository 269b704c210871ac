import Uart16550.Program

/-!
# The command

Reads standard input in slices, prints what each one brings about, and ends as `Program` says.
-/

namespace Uart16550

namespace Command

/-- Prints bytes at once. -/
def printBytes (bytes : List UInt8) : IO Unit := do
  let out ← IO.getStdout
  out.write bytes.toByteArray
  out.flush

/-- Pumps standard input up to its end, or until line 0 no longer takes it. -/
partial def pumpStdin (input : IO.FS.Stream) (r : Running) : IO Running := do
  let slice ← input.read (USize.ofNat Running.sliceSize)
  if slice.isEmpty then
    return r
  let (result, printed, r) := r.pump slice.toList
  printBytes printed
  match result with
  | .ok () => pumpStdin input r
  | .error _ => return r

/-- Runs the program on the arguments after its name. -/
def run (args : List String) : IO UInt32 := do
  match Program.start args with
  | .error exit =>
    printBytes exit.stdout
    (← IO.getStderr).putStr exit.stderr
    return exit.code
  | .ok r =>
    let r ← pumpStdin (← IO.getStdin) r
    printBytes r.finish.1
    return 0

end Command

end Uart16550

/-- The program `vuart`. -/
def main (args : List String) : IO UInt32 :=
  Uart16550.Command.run args
