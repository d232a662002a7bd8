import MiniScheme.Command.Execution

/-! # The command line

Reads the source file that the command line names and prints what the command reports. -/

namespace MiniScheme

/-- Reads a source file. -/
def readSource (file : String) : IO (Except FileError String) := do
  try
    return decodeSource (← IO.FS.readBinFile file)
  catch
    | .noFileOrDirectory .. => return .error .notFound
    | .inappropriateType .. => return .error .isDirectory
    | error => return .error (.other (toString error))

end MiniScheme

/-- Executes the command that the arguments denote. -/
def main (arguments : List String) : IO UInt32 := do
  match MiniScheme.Command.ofArguments? arguments with
  | none =>
      IO.eprint MiniScheme.Command.usage
      return 2
  | some command =>
      let report := command.execute (← MiniScheme.readSource command.file)
      IO.print report.output
      IO.eprint report.errors
      return report.exitCode.toUInt32
