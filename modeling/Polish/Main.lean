import Polish.CommandLine

/-!
# The program

Runs the command line on the arguments of the process and prints what it leaves behind.
-/

open Polish

/-- Prints the log and both texts, and exits with the status of the run. -/
def main (arguments : List String) : IO UInt32 := do
  let outcome := CommandLine.run arguments
  for record in outcome.log do
    IO.eprintln ("[" ++ record.level.name ++ "] " ++ record.message)
  IO.eprint outcome.stderr
  IO.print outcome.stdout
  return outcome.exitCode.toUInt32
