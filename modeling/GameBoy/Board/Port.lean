/-!
# I/O ports

Every address of the I/O region belongs to one device or to none.
-/

namespace GameBoy

/-- The owner of an I/O address. -/
inductive Port where
  | joypad
  | serial
  | timer
  /-- The interrupt request register. -/
  | interruptRequest
  | sound
  /-- Registers of the picture unit. -/
  | picture
  /-- The trigger of transfers into object memory. -/
  | oamDma
  /-- The register that switches the boot ROM off. -/
  | bootRom
  /-- Registers of video-memory transfers, which this machine lacks. -/
  | vramDma
  | unmapped
deriving DecidableEq

/-- The owner of an address in the I/O region. -/
def Port.of (address : UInt16) : Port :=
  if address = 0xFF00 then .joypad
  else if address < 0xFF03 then .serial
  else if address < 0xFF04 then .unmapped
  else if address < 0xFF08 then .timer
  else if address = 0xFF0F then .interruptRequest
  else if address < 0xFF10 then .unmapped
  else if address < 0xFF40 then .sound
  else if address = 0xFF46 then .oamDma
  else if address < 0xFF4C then .picture
  else if address = 0xFF50 then .bootRom
  else if 0xFF51 ≤ address && address < 0xFF56 then .vramDma
  else .unmapped

end GameBoy
