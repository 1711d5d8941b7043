/-
# The program

Reads the file that the arguments name and prints what `CommandLine.run` says.
-/
import ViperFrontend.CommandLine

namespace Viper

/-- Reads a source. -/
def readSource (path : String) : IO (Except ReadFailure Source) := do
  try
    let bytes ← IO.FS.readBinFile path
    return Source.ofBytes path bytes
  catch
    | .noFileOrDirectory .. => return .error .notFound
    | e => return .error (.other (toString e))

end Viper

open Viper in
/-- The command line. -/
def main (args : List String) : IO UInt32 := do
  match CommandLine.Options.ofArgs? args with
  | none =>
    IO.eprint CommandLine.usage
    return 2
  | some options =>
    let outcome := CommandLine.run options (← readSource options.path)
    IO.print outcome.stdout
    IO.eprint outcome.stderr
    return outcome.status
