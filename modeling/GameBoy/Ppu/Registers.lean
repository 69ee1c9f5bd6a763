import GameBoy.Ppu.Timing

/-!
# Picture registers

The twelve-address window of the LCD registers, without the transfer trigger in its middle.
-/

namespace GameBoy
namespace Ppu

/-- Address of LCD control. -/
def lcdcAddress : UInt16 := 0xFF40

/-- The register at an address as read. -/
def read (ppu : Ppu) (address : UInt16) : UInt8 :=
  if address = lcdcAddress then ppu.lcdc
  else if address = 0xFF41 then ppu.stat
  else if address = 0xFF42 then ppu.scy
  else if address = 0xFF43 then ppu.scx
  else if address = 0xFF44 then ppu.ly
  else if address = 0xFF45 then ppu.lyc
  else if address = 0xFF47 then ppu.bgp
  else if address = 0xFF48 then ppu.obp0
  else if address = 0xFF49 then ppu.obp1
  else if address = 0xFF4A then ppu.wy
  else if address = 0xFF4B then ppu.wx
  else 0xFF

/-- Write the line to compare with, comparing at once while the display is on. -/
def setLyc (ppu : Ppu) (value : UInt8) : Ppu :=
  let next := { ppu with lyc := value }
  if ppu.lcdEnabled then next.compareLine else next

/-- Write the register at an address; the current line cannot be written. -/
def write (ppu : Ppu) (address : UInt16) (value : UInt8) : Ppu :=
  if address = lcdcAddress then ppu.setLcdc value
  else if address = 0xFF41 then { ppu with statSelect := value &&& 0x78 }
  else if address = 0xFF42 then { ppu with scy := value }
  else if address = 0xFF43 then { ppu with scx := value }
  else if address = 0xFF45 then ppu.setLyc value
  else if address = 0xFF47 then { ppu with bgp := value }
  else if address = 0xFF48 then { ppu with obp0 := value }
  else if address = 0xFF49 then { ppu with obp1 := value }
  else if address = 0xFF4A then { ppu with wy := value }
  else if address = 0xFF4B then { ppu with wx := value }
  else ppu

end Ppu
end GameBoy
