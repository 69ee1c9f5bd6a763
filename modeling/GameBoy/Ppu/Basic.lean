import GameBoy.Bank
import GameBoy.Interrupt

/-!
# Picture unit

The picture unit walks through 154 lines of 456 cycles each.  A visible line passes through object
search, pixel transfer and the horizontal blank; the last ten lines are the vertical blank.  Pixels
are not made here: a line is handed out with everything needed to draw it.
-/

namespace GameBoy

/-- What the picture unit is doing. -/
inductive PpuMode where
  | hblank | vblank | oamSearch | pixelTransfer
deriving DecidableEq

namespace PpuMode

/-- The mode as the status register shows it. -/
def bits : PpuMode → UInt8
  | .hblank => 0
  | .vblank => 1
  | .oamSearch => 2
  | .pixelTransfer => 3

/-- The name of a mode. -/
def name : PpuMode → String
  | .hblank => "HBlank"
  | .vblank => "VBlank"
  | .oamSearch => "OamSearch"
  | .pixelTransfer => "PixelTransfer"

/-- Cycles spent in a mode before the next one, or before the next line of the vertical blank. -/
def duration : PpuMode → Nat
  | .hblank => 204
  | .vblank => 456
  | .oamSearch => 80
  | .pixelTransfer => 172

end PpuMode

/-- Everything needed to draw one line. -/
structure LineContext where
  line : UInt8
  vram : Bank 0x2000
  oam : Bank 0xA0
  lcdc : UInt8
  stat : UInt8
  scy : UInt8
  scx : UInt8
  bgp : UInt8
  obp0 : UInt8
  obp1 : UInt8
  wy : UInt8
  wx : UInt8

/-- A way to draw lines on a screen. -/
abbrev Renderer (σ : Type) := σ → LineContext → σ

/-- Draws nothing. -/
def Renderer.null : Renderer Unit := fun _ _ => ()

/-- The picture unit. -/
structure Ppu where
  vram : Bank 0x2000 := Bank.filled 0
  oam : Bank 0xA0 := Bank.filled 0
  /-- LCD control; its top bit is the display power. -/
  lcdc : UInt8 := 0
  /-- Which causes request the STAT interrupt. -/
  statSelect : UInt8 := 0
  scy : UInt8 := 0
  scx : UInt8 := 0
  /-- Current line. -/
  ly : UInt8 := 0
  /-- Line to compare with. -/
  lyc : UInt8 := 0
  bgp : UInt8 := 0
  obp0 : UInt8 := 0
  obp1 : UInt8 := 0
  wy : UInt8 := 0
  wx : UInt8 := 0
  mode : PpuMode := .hblank
  /-- Cycles spent in the current mode. -/
  dots : Nat := 0
  /-- The last comparison of the lines found them equal. -/
  coincidence : Bool := false
  /-- Vertical blanks entered since power-on. -/
  frames : Nat := 0
  /-- A vertical blank has not been signalled yet. -/
  vblankRequested : Bool := false
  /-- A selected STAT cause has not been signalled yet. -/
  statRequested : Bool := false

namespace Ppu

/-- First line of the vertical blank. -/
def vblankLine : UInt8 := 144

/-- Last line of the vertical blank. -/
def lastLine : UInt8 := 153

/-- The display is on. -/
def lcdEnabled (ppu : Ppu) : Bool :=
  ppu.lcdc &&& 0x80 != 0

/-- The status register as read: the mode shows as zero while the display is off. -/
def stat (ppu : Ppu) : UInt8 :=
  0x80 ||| ppu.statSelect ||| (if ppu.coincidence then 0x04 else 0) |||
    (if ppu.lcdEnabled then ppu.mode.bits else 0)

/-- Everything needed to draw the current line. -/
def lineContext (ppu : Ppu) : LineContext where
  line := ppu.ly
  vram := ppu.vram
  oam := ppu.oam
  lcdc := ppu.lcdc
  stat := ppu.stat
  scy := ppu.scy
  scx := ppu.scx
  bgp := ppu.bgp
  obp0 := ppu.obp0
  obp1 := ppu.obp1
  wy := ppu.wy
  wx := ppu.wx

/-- The byte of video memory at an address. -/
def readVram (ppu : Ppu) (address : UInt16) : UInt8 :=
  ppu.vram.read (address - 0x8000).toNat

/-- Replace the byte of video memory at an address. -/
def writeVram (ppu : Ppu) (address : UInt16) (value : UInt8) : Ppu :=
  { ppu with vram := ppu.vram.write (address - 0x8000).toNat value }

/-- The byte of object memory at an address. -/
def readOam (ppu : Ppu) (address : UInt16) : UInt8 :=
  ppu.oam.read (address - 0xFE00).toNat

/-- Replace the byte of object memory at an address. -/
def writeOam (ppu : Ppu) (address : UInt16) (value : UInt8) : Ppu :=
  { ppu with oam := ppu.oam.write (address - 0xFE00).toNat value }

/-- The interrupt lines raised and not yet collected. -/
def raised (ppu : Ppu) : Interrupt.Lines :=
  { vblank := ppu.vblankRequested, stat := ppu.statRequested }

/-- Forget the raised lines once they are collected. -/
def acknowledge (ppu : Ppu) : Ppu :=
  { ppu with vblankRequested := false, statRequested := false }

end Ppu
end GameBoy
