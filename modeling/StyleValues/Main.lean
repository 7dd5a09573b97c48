import StyleValues.Command.Outcome

/-! The program: one command, its text on standard output, its complaints on standard error. -/

open StyleValues in
def main (words : List String) : IO UInt32 := do
  let outcome := Outcome.ofWords words
  IO.print outcome.output
  IO.eprint outcome.complaint
  return outcome.exitCode.toUInt32
