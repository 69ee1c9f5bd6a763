/-!
# Log records

What the emulator tells an observer about its own work, in order of severity.
-/

namespace GameBoy

/-- Severity of a log record. -/
inductive LogLevel where
  | error
  | warn
  | info
  | debug
  | trace
deriving DecidableEq

/-- The name of a level at the head of a log line. -/
def LogLevel.name : LogLevel → String
  | .error => "ERROR"
  | .warn => "WARN"
  | .info => "INFO"
  | .debug => "DEBUG"
  | .trace => "TRACE"

/-- One message with its severity. -/
structure LogRecord where
  level : LogLevel
  text : String
deriving DecidableEq

/-- The record as one line. -/
def LogRecord.line (record : LogRecord) : String :=
  record.level.name ++ " " ++ record.text

end GameBoy
