import UnitText.Command.Run

/-!
# The program

Carries out its command line.
-/

/-- Prints what a command line gives, and returns its status. -/
def main (args : List String) : IO UInt32 := do
  match UnitText.Command.run (args.map UnitText.Chars.ofString) with
  | .ended status output errors =>
    (← IO.getStdout).putStr (UnitText.Chars.toString output)
    (← IO.getStderr).putStr (UnitText.Chars.toString errors)
    return UInt32.ofNat status
  | .usage status => return UInt32.ofNat status
  | .failed e output =>
    (← IO.getStdout).putStr (UnitText.Chars.toString output)
    (← IO.getStderr).putStrLn e.message
    return 1
