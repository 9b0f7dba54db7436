import Tabscript.Command.Run

/-!
# The command line

`main` makes a run on the files of the machine.
-/

namespace Tabscript

/-- The cause of an error of the system. A path that leads to a directory and one that goes
through a file are told apart by their numbers, which some calls report negated. -/
def FileError.ofSystem : IO.Error → FileError
  | .noFileOrDirectory _ _ _ => .notFound
  | .inappropriateType _ number _ =>
    if number = 21 ∨ number = 0 - 21 then .isADirectory else .notADirectory
  | e => .other (toString e)

instance : Files IO where
  read path := do
    match ← (IO.FS.readBinFile path).toBaseIO with
    | .ok content => return .ok content
    | .error e => return .error (.ofSystem e)
  write path content := do
    match ← (IO.FS.writeBinFile path content).toBaseIO with
    | .ok () => return .ok ()
    | .error e => return .error (.ofSystem e)

end Tabscript

/-- Makes the run that the arguments and the variable `DEBUG` ask for. -/
def main (arguments : List String) : IO UInt32 := do
  let outcome ← Tabscript.run arguments (← IO.getEnv "DEBUG")
  IO.print outcome.output
  IO.eprint outcome.errors
  return outcome.status
