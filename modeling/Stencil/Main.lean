import Stencil.CommandLine.Outcome

/-!
# The program

Takes the arguments from the command line and the wish for debugging from the environment, and
writes the two outputs of the outcome.
-/

set_option autoImplicit false

open Stencil in
/-- Runs the program.  A fault that no outcome covers ends it with exit code 1. -/
def main (args : List String) : IO UInt32 := do
  let debug := ((← IO.getEnv "PRINTFMT_DEBUG").getD "").length ≠ 0
  match Outcome.ofArguments debug (args.map String.toList) with
  | .ok outcome =>
    (← IO.getStdout).putStr (String.ofList outcome.stdout)
    (← IO.getStderr).putStr (String.ofList outcome.stderr)
    return UInt32.ofNat outcome.exit
  | .error _ =>
    (← IO.getStderr).putStr "The template could not be formatted.\n"
    return 1
