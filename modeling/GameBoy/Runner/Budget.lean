import GameBoy.Text.Decimal

/-!
# Frame budget

The number of frames a run may take comes from the command line, else from the environment, else
from a default.
-/

namespace GameBoy
namespace Runner

/-- Frames to run when nothing else is said, about half a minute. -/
def defaultFrames : Nat := 1800

/-- Name of the environment variable. -/
def framesVariable : String := "DMGCORE_FRAMES"

/-- A frame count that is no number. -/
inductive BudgetError where
  | argument (text : String) (cause : Decimal.ParseError)
  | environment (text : String) (cause : Decimal.ParseError)
deriving DecidableEq

/-- The wording of a budget error, with its cause. -/
def BudgetError.message : BudgetError → String
  | .argument text cause => "invalid frame count '" ++ text ++ "': " ++ cause.message
  | .environment text cause =>
    "invalid " ++ framesVariable ++ " value '" ++ text ++ "': " ++ cause.message

/-- The frame budget for a command line argument and the environment variable, if given. -/
def frameBudget (argument environment : Option String) : Except BudgetError Nat :=
  match argument, environment with
  | some text, _ => (Decimal.parse text).mapError (.argument text)
  | none, some text => (Decimal.parse text).mapError (.environment text)
  | none, none => .ok defaultFrames

end Runner
end GameBoy
