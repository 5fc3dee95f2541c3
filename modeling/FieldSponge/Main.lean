import FieldSponge.CommandLine

/-! Prints the table that the arguments ask for, or says on the error stream why there is none. -/

open FieldSponge in
def main (arguments : List String) : IO UInt32 := do
  match CommandLine.run arguments with
  | .ok text =>
    IO.print text
    return 0
  | .error .usage =>
    IO.eprintln "usage: [-v] [--name=NAME] [--rounds=COUNT] [--width=COUNT]"
    return 1
  | .error (.invalid cause) =>
    IO.eprintln s!"Error: {cause.message}"
    return 1
