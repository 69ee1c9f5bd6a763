import GameBoy.Cartridge.Basic
import GameBoy.Config
import GameBoy.Device.Joypad
import GameBoy.Device.Serial
import GameBoy.Device.Sound
import GameBoy.Device.Timer
import GameBoy.Event
import GameBoy.Ppu.Registers

/-!
# Board

The board is the machine without its processor: the cartridge, the memories, the devices and the
interrupt registers.  Whatever a device requests is collected into the request register at the end
of the operation that made it request.
-/

namespace GameBoy

/-- The machine without its processor. -/
structure Board where
  cartridge : Cartridge
  workRam : Bank 0x2000 := Bank.filled 0
  highRam : Bank 0x7F := Bank.filled 0
  ppu : Ppu := {}
  joypad : Joypad := {}
  serial : Serial := {}
  timer : Timer := {}
  sound : Sound := {}
  /-- The interrupt lines requested. -/
  requests : Interrupt.Lines := {}
  /-- The interrupt enable register, all eight bits. -/
  enables : UInt8 := 0
  bootRomDisable : UInt8 := 0
  /-- The last value written to trigger a transfer into object memory. -/
  dmaRegister : UInt8 := 0
  /-- Stall cycles of transfers, not yet collected by the processor. -/
  stall : Nat := 0
  /-- Refuse ROM writes that no controller takes. -/
  strictRomWrites : Bool := false
  sink : Sink := .discard

namespace Board

/-- Report an event. -/
def record (event : Event) (board : Board) : Board :=
  { board with sink := board.sink.record event }

/-- The boot ROM is switched off. -/
def bootRomDisabled (board : Board) : Bool :=
  board.bootRomDisable != 0

/-- The interrupt lines raised by devices and not yet collected. -/
def raised (board : Board) : Interrupt.Lines :=
  ((board.timer.raised.union board.ppu.raised).union board.serial.raised).union board.joypad.raised

/-- Report the byte of a completed transfer. -/
def reportSent (board : Board) : Board :=
  match board.serial.lastSent with
  | some byte => { board with serial := board.serial.takeSent }.record (.serialByte byte)
  | none => board

/-- Collect the lines raised by devices into the request register. -/
def collect (board : Board) : Board :=
  let raised := board.raised
  let collected :=
    { board with
      requests := board.requests.union raised
      timer := board.timer.acknowledge
      ppu := board.ppu.acknowledge
      serial := board.serial.acknowledge
      joypad := board.joypad.acknowledge }
  if raised.serial then collected.reportSent else collected

/-- Let time pass for the timer and the picture unit. -/
def tick {σ : Type} (render : Renderer σ) (cycles : Nat) (board : Board) (screen : σ) : Board × σ :=
  let timer := board.timer.tick cycles
  let (ppu, screen) := board.ppu.tick render cycles screen
  ({ board with timer, ppu }.collect, screen)

/-- Request interrupt lines from outside. -/
def request (lines : Interrupt.Lines) (board : Board) : Board :=
  { board with requests := board.requests.union lines }

/-- Press or release a button. -/
def setButton (button : Button) (pressed : Bool) (board : Board) : Board :=
  { board with joypad := board.joypad.setButton button pressed }.collect

/-- A board at power-on. -/
def boot (cartridge : Cartridge) (config : Config) (sink : Sink) : Board :=
  let board : Board :=
    { cartridge, sink
      serial := { capture := config.captureSerial }
      strictRomWrites := config.strictRomWrites }
  match config.bootState with
  | .zeroed => board
  | .postBoot =>
    { board with
      ppu := Ppu.postBoot
      timer := Timer.postBoot
      sound := Sound.postBoot
      serial := { board.serial with control := 0x7E }
      requests := { vblank := true }
      bootRomDisable := 0x01
      dmaRegister := 0xFF }

end Board
end GameBoy
