import GameBoy.Board.Basic
import GameBoy.Board.Port
import GameBoy.Bus
import GameBoy.Bus.Region

/-!
# Accesses to the board

An access is routed by the region of its address, and within the I/O region by the port.  Reads do
not change the board.  Whether a write is refused is decided before anything changes; a refused
access is reported and has no other effect.
-/

namespace GameBoy
namespace Board

/-- The byte behind an address outside the I/O region. -/
def memoryByte (board : Board) (address : UInt16) : UInt8 :=
  match Region.of address with
  | .romBank0 | .romBankN => board.cartridge.readRom address
  | .vram => board.ppu.readVram address
  | .externalRam => board.cartridge.readRam address
  | .workRam0 | .workRamN | .echo => board.workRam.read address.toNat
  | .oam => board.ppu.readOam address
  | .highRam => board.highRam.read (address - 0xFF80).toNat
  | .interruptEnable => board.enables
  | .unusable | .io => 0xFF

/-- The byte of an I/O register. -/
def portByte (board : Board) (address : UInt16) : Except MemoryError UInt8 :=
  match Port.of address with
  | .joypad => .ok board.joypad.read
  | .serial => .ok (board.serial.read address)
  | .timer => .ok (board.timer.read address)
  | .interruptRequest => .ok (0xE0 ||| board.requests.toByte)
  | .sound => .ok (board.sound.read address)
  | .picture => .ok (board.ppu.read address)
  | .oamDma => .ok board.dmaRegister
  | .bootRom => .ok board.bootRomDisable
  | .vramDma => .error (.vramDmaRead address)
  | .unmapped => .ok 0xFF

/-- The byte that a read of an address finds. -/
def peek (board : Board) (address : UInt16) : Except MemoryError UInt8 :=
  match Region.of address with
  | .io => board.portByte address
  | _ => .ok (board.memoryByte address)

/-- The first address a transfer into object memory copies from.  The upper end of the address space
stands for work RAM, so a transfer never reads I/O registers or object memory. -/
def dmaSource (value : UInt8) : UInt16 :=
  let source := value.toUInt16 <<< 8
  if source < 0xE000 then source else source - 0x2000

/-- Cycles for which a transfer into object memory stalls the processor. -/
def dmaStall : Nat := 640

/-- Copy 160 bytes into object memory at once. -/
def oamDma (board : Board) (value : UInt8) : Board :=
  let source := dmaSource value
  let oam : Bank 0xA0 :=
    { bytes := Vector.ofFn fun i => board.memoryByte (source + UInt16.ofNat i.val) }
  { board with
    dmaRegister := value
    ppu := { board.ppu with oam }
    stall := board.stall + dmaStall
    sink := board.sink.record (.oamDma source) }

/-- Write a register of the picture unit and report a change of display power. -/
def storePicture (board : Board) (address : UInt16) (value : UInt8) : Board :=
  let before := board.ppu.lcdEnabled
  let board := { board with ppu := board.ppu.write address value }
  let after := board.ppu.lcdEnabled
  if before != after then board.record (.lcdPower after) else board

/-- Write an I/O register. -/
def storePort (board : Board) (address : UInt16) (value : UInt8) : Board :=
  match Port.of address with
  | .joypad => { board with joypad := board.joypad.write value }
  | .serial => { board with serial := board.serial.write address value }
  | .timer => { board with timer := board.timer.write address value }
  | .interruptRequest => { board with requests := Interrupt.Lines.ofByte value }
  | .sound => { board with sound := board.sound.write address value }
  | .picture => board.storePicture address value
  | .oamDma => board.oamDma value
  | .bootRom => { board with bootRomDisable := value }
  | .vramDma | .unmapped => board

/-- Write into the ROM windows, which reaches the bank controller if there is one. -/
def storeRom (board : Board) (address : UInt16) (value : UInt8) : Board :=
  if board.cartridge.mapper.isPresent then
    let board := { board with cartridge := board.cartridge.writeControl address value }
    if 0x2000 ≤ address && address < 0x4000 then
      board.record (.romBankSelected board.cartridge.selectedRomBank)
    else board
  else board.record (.romWriteIgnored address value)

/-- The board after a write that is not refused. -/
def store (board : Board) (address : UInt16) (value : UInt8) : Board :=
  match Region.of address with
  | .romBank0 | .romBankN => board.storeRom address value
  | .vram => { board with ppu := board.ppu.writeVram address value }
  | .externalRam => { board with cartridge := board.cartridge.writeRam address value }
  | .workRam0 | .workRamN | .echo =>
    { board with workRam := board.workRam.write address.toNat value }
  | .oam => { board with ppu := board.ppu.writeOam address value }
  | .unusable => board
  | .io => (board.storePort address value).collect
  | .highRam => { board with highRam := board.highRam.write (address - 0xFF80).toNat value }
  | .interruptEnable => { board with enables := value }

/-- Why a write is refused, if it is. -/
def refusal (board : Board) (address : UInt16) (value : UInt8) : Option MemoryError :=
  match Region.of address with
  | .romBank0 | .romBankN =>
    if board.strictRomWrites && !board.cartridge.mapper.isPresent then
      some (.readOnly address value)
    else none
  | .unusable => some (.unusable address value)
  | _ => none

/-- Read a byte. -/
def read (address : UInt16) : Access Board UInt8 := fun board =>
  match board.peek address with
  | .ok value => .ok value board
  | .error error => .error error (board.record (.memoryFault error))

/-- Write a byte. -/
def write (address : UInt16) (value : UInt8) : Access Board Unit := fun board =>
  match board.refusal address value with
  | some error => .error error (board.record (.memoryFault error))
  | none => .ok () (board.store address value)

instance : Bus Board where
  read := read
  write := write
  takeStall board := (board.stall, { board with stall := 0 })
  report := record

end Board
end GameBoy
