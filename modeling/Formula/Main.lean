/-
The program: standard input is read only where the request needs it.
-/
import Formula.CommandLine.Run

open Formula.CommandLine in
/-- Runs the program on its arguments. -/
def main (args : List String) : IO UInt32 := do
  let needsInput := (request args).any Request.readsInput
  let input ← if needsInput then (← IO.getStdin).readToEnd else pure ""
  let result := run args input
  IO.print result.out
  IO.eprint result.err
  return UInt32.ofNat result.exit
