import GameBoy.Runner.CommandLine

/-!
# The program

Reads the file, carries out the command and prints its report.
-/

namespace GameBoy
namespace Runner

/-- The cause of a failed read. -/
def ReadError.ofIOError : IO.Error → ReadError
  | .noFileOrDirectory .. => .notFound
  | .permissionDenied .. => .accessDenied
  | .inappropriateType _ code _ => if code = 20 then .notDirectory else .isDirectory
  | .invalidArgument _ code text | .resourceExhausted _ code text | .hardwareFault code text
  | .otherError code text => .other code.toNat text
  | error => .other 5 error.toString

/-- Read a file. -/
def readImage (path : String) : IO (Except ReadError ByteArray) := do
  try
    return .ok (← IO.FS.readBinFile path)
  catch error =>
    return .error (ReadError.ofIOError error)

/-- Print a report and give its exit code. -/
def printReport (report : Report) : IO UInt32 := do
  IO.print report.stdout
  IO.eprint report.stderr
  return report.exitCode.toUInt32

end Runner
end GameBoy

/-- Run the image named on the command line. -/
def main (arguments : List String) : IO UInt32 := do
  match GameBoy.Runner.Command.ofArguments arguments with
  | none => GameBoy.Runner.printReport .usage
  | some command =>
    let frames ← IO.getEnv GameBoy.Runner.framesVariable
    let contents ← GameBoy.Runner.readImage command.path
    GameBoy.Runner.printReport (command.report frames contents)
