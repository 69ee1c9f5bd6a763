import GameBoy.Machine
import GameBoy.Runner.Verdict

/-!
# Running test programs

An image is run frame by frame until a verdict appears, at a software breakpoint or in the serial
output, or the frames run out.
-/

namespace GameBoy
namespace Runner

/-- How a run ended. -/
structure Outcome where
  verdict : Verdict
  /-- Frames begun, which is the whole budget without a verdict. -/
  frames : Nat
  /-- The serial output. -/
  serial : Array UInt8
  /-- T-cycles emulated. -/
  cycles : Nat
deriving DecidableEq

/-- The serial output as text. -/
def Outcome.text (outcome : Outcome) : String :=
  Utf8.decodeLossy outcome.serial.toList

/-- Why a run failed. -/
inductive RunError where
  /-- The image could not be loaded. -/
  | load (error : LoadError)
  /-- Emulation stopped in a frame, counted from one. -/
  | stopped (frame : Nat) (fault : Fault)
deriving DecidableEq

/-- The wording of a run error, followed by its causes.  A header error is its own cause again. -/
def RunError.message : RunError → String
  | .load (.header error) =>
    "failed to load cartridge: " ++ (LoadError.header error).message ++ ": " ++ error.message
  | .load error => "failed to load cartridge: " ++ error.message
  | .stopped frame fault => s!"emulation stopped in frame {frame}: " ++ fault.message

/-- The verdict visible after a frame: the registers count only at a breakpoint. -/
def verdictAfter (frameEnd : FrameEnd) (machine : Machine) : Option Verdict :=
  let held :=
    match frameEnd with
    | .breakpoint => Verdict.ofRegisters machine.cpu.regs
    | .completed => none
  held.or (Verdict.ofSerial machine.serialOutput.toList)

/-- Run frames until a verdict appears, after `frames` frames and `cycles` cycles already. -/
def runFrom (frames cycles : Nat) : Nat → Session Unit → Except RunError Outcome × Machine
  | 0, session =>
    (.ok ⟨.timeout, frames, session.machine.serialOutput, cycles⟩, session.machine)
  | left + 1, session =>
    match Session.runFrameUntilBreakpoint Renderer.null session with
    | .error fault session => (.error (.stopped (frames + 1) fault), session.machine)
    | .ok (frameEnd, spent) session =>
      match verdictAfter frameEnd session.machine with
      | some verdict =>
        (.ok ⟨verdict, frames + 1, session.machine.serialOutput, cycles + spent⟩, session.machine)
      | none => runFrom (frames + 1) (cycles + spent) left session

/-- What is logged at the end of a run. -/
def endNotice (outcome : Outcome) : LogRecord :=
  match outcome.verdict with
  | .timeout => ⟨.warn, "No verdict after " ++ toString outcome.frames ++ " frames"⟩
  | verdict =>
    ⟨.info, "Verdict " ++ verdict.name ++ " after " ++ toString outcome.frames ++ " frames"⟩

/-- Run a machine for at most `budget` frames, with what is logged on the way. -/
def runMachine (machine : Machine) (budget : Nat) : Except RunError Outcome × List LogRecord :=
  let (result, machine) := runFrom 0 0 budget ⟨machine, ()⟩
  let events := machine.bus.sink.logRecords.toList
  match result with
  | .ok outcome => (result, events ++ [endNotice outcome])
  | .error _ => (result, events)

/-- Run an image for at most `budget` frames, with what is logged on the way. -/
def run (image : ByteArray) (budget : Nat) : Except RunError Outcome × List LogRecord :=
  let notices := RomImage.notices image
  match Machine.ofImage image {} (.logging #[]) with
  | .error error => (.error (.load error), notices)
  | .ok machine =>
    let (result, records) := runMachine machine budget
    (result, notices ++ machine.bus.cartridge.notice :: records)

end Runner
end GameBoy
