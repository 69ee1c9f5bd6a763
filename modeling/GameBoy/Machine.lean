import GameBoy.Board.Access
import GameBoy.Cartridge.Image
import GameBoy.Cpu.Step

/-!
# Machine

A machine is a processor on a board, driven by one clock: after each step of the processor the rest
of the machine catches up by exactly the cycles that step took.  A session is a machine together
with the screen it draws on.
-/

namespace GameBoy

/-- A processor on a board. -/
abbrev Machine := System Board

namespace Machine

/-- T-cycles in one frame. -/
def cyclesPerFrame : Nat := 70224

/-- The opcode of `LD B,B`, which programs execute to hand control to their host. -/
def softwareBreakpoint : UInt8 := 0x40

/-- A machine at power-on. -/
def boot (cartridge : Cartridge) (config : Config) (sink : Sink) : Machine :=
  ⟨Cpu.boot config.bootState, Board.boot cartridge config sink⟩

/-- Load an image and power on. -/
def ofImage (image : ByteArray) (config : Config) (sink : Sink) : Except LoadError Machine := do
  let parsed ← RomImage.parse image
  match Cartridge.ofImage parsed with
  | .ok cartridge => pure (boot cartridge config sink)
  | .error error => throw (.header error)

/-- Press or release a button. -/
def setButton (button : Button) (pressed : Bool) (machine : Machine) : Machine :=
  { machine with bus := machine.bus.setButton button pressed }

/-- Everything sent through the serial port and kept. -/
def serialOutput (machine : Machine) : Array UInt8 :=
  machine.bus.serial.output

/-- The opcode that the next step will execute, or `none` when it will do something else. -/
def nextOpcode : Exec Board (Option UInt8) := do
  let cpu ← Exec.cpu
  if cpu.regs.halted || cpu.regs.stopped || cpu.locked.isSome then
    pure none
  else if cpu.regs.ime then
    let enable ← Exec.read Interrupt.enableAddress
    let request ← Exec.read Interrupt.requestAddress
    if (Interrupt.highestPriority enable request).isSome then
      pure none
    else
      some <$> Exec.read cpu.regs.pc
  else
    some <$> Exec.read cpu.regs.pc

end Machine

/-- A machine and the screen it draws on. -/
structure Session (σ : Type) where
  machine : Machine
  screen : σ

/-- Why a frame ended. -/
inductive FrameEnd where
  /-- The cycles of a frame have passed. -/
  | completed
  /-- A software breakpoint has just been executed. -/
  | breakpoint
deriving DecidableEq

namespace Session

variable {α σ : Type}

/-- Act on the processor and the board alone. -/
def act (action : Exec Board α) : EStateM Fault (Session σ) α := fun ⟨machine, screen⟩ =>
  match action machine with
  | .ok value machine => .ok value ⟨machine, screen⟩
  | .error fault machine => .error fault ⟨machine, screen⟩

/-- Let time pass for the board. -/
def tick (render : Renderer σ) (cycles : Nat) : EStateM Fault (Session σ) Unit :=
  fun ⟨⟨cpu, board⟩, screen⟩ =>
    let (board, screen) := board.tick render cycles screen
    .ok () ⟨⟨cpu, board⟩, screen⟩

/-- Advance the processor by one step and let the rest of the machine catch up. -/
def step (render : Renderer σ) : EStateM Fault (Session σ) Quantum := do
  let quantum ← act Cpu.step
  tick render quantum.cycles
  pure quantum

/-- Step until a frame's cycles have passed since `elapsed` was zero, and count them.  `fuel` bounds
the steps. -/
def runFrameFrom (render : Renderer σ) : Nat → Nat → EStateM Fault (Session σ) Nat
  | 0, elapsed => pure elapsed
  | fuel + 1, elapsed => do
    if elapsed < Machine.cyclesPerFrame then
      let quantum ← step render
      runFrameFrom render fuel (elapsed + quantum.cycles)
    else
      pure elapsed

/-- Run for one frame and count the cycles.  Every step takes at least one cycle, so a frame has no
more steps than cycles. -/
def runFrame (render : Renderer σ) : EStateM Fault (Session σ) Nat :=
  runFrameFrom render Machine.cyclesPerFrame 0

/-- Run for a number of frames and count the cycles. -/
def runFrames (render : Renderer σ) : Nat → EStateM Fault (Session σ) Nat
  | 0 => pure 0
  | frames + 1 => do
    let cycles ← runFrame render
    let rest ← runFrames render frames
    pure (cycles + rest)

/-- Step until a frame's cycles have passed since `elapsed` was zero or a software breakpoint has
been executed, and count the cycles.  `fuel` bounds the steps. -/
def runFrameUntilBreakpointFrom (render : Renderer σ) :
    Nat → Nat → EStateM Fault (Session σ) (FrameEnd × Nat)
  | 0, elapsed => pure (.completed, elapsed)
  | fuel + 1, elapsed => do
    if elapsed < Machine.cyclesPerFrame then
      let opcode ← act Machine.nextOpcode
      let quantum ← step render
      if opcode = some Machine.softwareBreakpoint then
        pure (.breakpoint, elapsed + quantum.cycles)
      else
        runFrameUntilBreakpointFrom render fuel (elapsed + quantum.cycles)
    else
      pure (.completed, elapsed)

/-- Run for one frame, but stop right after a software breakpoint; count the cycles. -/
def runFrameUntilBreakpoint (render : Renderer σ) : EStateM Fault (Session σ) (FrameEnd × Nat) :=
  runFrameUntilBreakpointFrom render Machine.cyclesPerFrame 0

end Session
end GameBoy
