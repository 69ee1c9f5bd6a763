import GameBoy.Runner.Budget
import GameBoy.Runner.Run

/-!
# Command line

The program runs one image file and prints what it sent through the serial port.  It succeeds only
if the image reports success.
-/

namespace GameBoy
namespace Runner

/-- Why a file could not be read. -/
inductive ReadError where
  | notFound
  | notDirectory
  | isDirectory
  | accessDenied
  /-- The path has a NUL character, which no file name can hold. -/
  | nulCharacter
  /-- Any other cause, with its system code and text. -/
  | other (code : Nat) (text : String)
deriving DecidableEq

/-- The wording of a read error. -/
def ReadError.message : ReadError → String
  | .notFound => "No such file or directory (os error 2)"
  | .notDirectory => "Not a directory (os error 20)"
  | .isDirectory => "Is a directory (os error 21)"
  | .accessDenied => "Permission denied (os error 13)"
  | .nulCharacter => "file name contained an unexpected NUL byte"
  | .other code text => text ++ s!" (os error {code})"

/-- Why a run from a file failed. -/
inductive FileRunError where
  | unreadable (path : String) (cause : ReadError)
  | run (error : RunError)
deriving DecidableEq

/-- The wording of a failure, followed by its causes. -/
def FileRunError.message : FileRunError → String
  | .unreadable path cause => "failed to read ROM '" ++ path ++ "': " ++ cause.message
  | .run error => error.message

/-- What reading gave, unless the path cannot name a file at all. -/
def checkPath (path : String) (contents : Except ReadError ByteArray) :
    Except ReadError ByteArray :=
  if '\x00' ∈ path.toList then .error .nulCharacter else contents

/-- Run what reading the file at `path` gave, with what is logged on the way. -/
def runFile (path : String) (contents : Except ReadError ByteArray) (budget : Nat) :
    Except FileRunError Outcome × List LogRecord :=
  match checkPath path contents with
  | .error cause => (.error (.unreadable path cause), [])
  | .ok image =>
    let start : LogRecord :=
      ⟨.info, "Running '" ++ path ++ "' for up to " ++ toString budget ++ " frames"⟩
    let (result, records) := run image budget
    (result.mapError .run, start :: records)

/-- What the program prints and returns. -/
structure Report where
  exitCode : UInt8
  stdout : String
  stderr : String
deriving DecidableEq

namespace Report

/-- What is printed when no image is named. -/
def usage : Report :=
  ⟨1, "", "No ROM path provided.\nUsage: dmgcore_run <rom> [frames]\n"⟩

/-- What is printed for a failure. -/
def ofError (message : String) : Report :=
  ⟨1, "", "error: " ++ message ++ "\n"⟩

/-- What is printed for a finished run: the serial text, ending in a line break. -/
def ofOutcome (outcome : Outcome) : Report :=
  let text := outcome.text
  { exitCode := if outcome.verdict = .passed then 0 else 1
    stdout := if text.toList.getLast? = some '\n' then text else text ++ "\n"
    stderr := "" }

end Report

/-- A command line that names an image. -/
structure Command where
  path : String
  frames : Option String

/-- Read the command line; arguments past the second do not count. -/
def Command.ofArguments : List String → Option Command
  | [] => none
  | [path] => some ⟨path, none⟩
  | path :: frames :: _ => some ⟨path, some frames⟩

/-- Carry out a command, given the environment variable and what reading the file gives.  The frame
count is checked before the file is. -/
def Command.report (command : Command) (environment : Option String)
    (contents : Except ReadError ByteArray) : Report :=
  match frameBudget command.frames environment with
  | .error error => .ofError error.message
  | .ok budget =>
    match (runFile command.path contents budget).1 with
    | .error error => .ofError error.message
    | .ok outcome => .ofOutcome outcome

end Runner
end GameBoy
