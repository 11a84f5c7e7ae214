import CircuitGrid.CommandLine.Run

/-!
# The program

Runs its command line on the files of the machine.
-/

open CircuitGrid

/-- The wording and the number of a failure. -/
def reasonOf : IO.Error → String × UInt32
  | .noFileOrDirectory _ code details | .inappropriateType _ code details
  | .invalidArgument _ code details | .permissionDenied _ code details =>
    (s!"{details} (os error {code})", code)
  | .userError _ => ("stream did not contain valid UTF-8", 0)
  | error => (toString error, 0)

/-- The files of the machine. A path that cannot be followed to its end leads to nothing: a part of
it is missing, no directory, too long, or a link to itself. -/
def machine : Host IO where
  read path := do
    try
      let file ← IO.FS.Handle.mk path .read
      return .text (← file.readToEnd)
    catch error =>
      let (reason, code) := reasonOf error
      return if [2, 20, 36, 40].contains code then .missing else .unreadable reason
  write path content := do
    try
      IO.FS.writeFile path content
      return none
    catch error => return some (reasonOf error).1

/-- Runs the command line. -/
def main (args : List String) : IO UInt32 := do
  let settings : Settings :=
    { dialect := ← IO.getEnv "QSPLIT_DIALECT", blocks := ← IO.getEnv "QSPLIT_PARTITIONS" }
  let outcome ← runCommandLine .machine machine settings args
  IO.print outcome.printed.results
  IO.eprint outcome.printed.remarks
  return UInt32.ofNat outcome.code
