/-!
# Memory map

Every address belongs to exactly one region.
-/

namespace GameBoy

/-- A region of the address space, in address order. -/
inductive Region where
  /-- ROM that is normally the first bank. -/
  | romBank0
  /-- ROM in the switchable bank. -/
  | romBankN
  | vram
  /-- RAM on the cartridge. -/
  | externalRam
  | workRam0
  | workRamN
  /-- A second view of work RAM. -/
  | echo
  | oam
  | unusable
  | io
  | highRam
  | interruptEnable
deriving DecidableEq

namespace Region

/-- Every region in address order. -/
def all : List Region :=
  [.romBank0, .romBankN, .vram, .externalRam, .workRam0, .workRamN, .echo, .oam, .unusable, .io,
    .highRam, .interruptEnable]

/-- The name of a region. -/
def name : Region → String
  | .romBank0 => "RomBank0"
  | .romBankN => "RomBankN"
  | .vram => "Vram"
  | .externalRam => "ExternalRam"
  | .workRam0 => "WorkRam0"
  | .workRamN => "WorkRamN"
  | .echo => "Echo"
  | .oam => "Oam"
  | .unusable => "Unusable"
  | .io => "Io"
  | .highRam => "HighRam"
  | .interruptEnable => "InterruptEnable"

/-- The first address of a region. -/
def first : Region → UInt16
  | .romBank0 => 0x0000
  | .romBankN => 0x4000
  | .vram => 0x8000
  | .externalRam => 0xA000
  | .workRam0 => 0xC000
  | .workRamN => 0xD000
  | .echo => 0xE000
  | .oam => 0xFE00
  | .unusable => 0xFEA0
  | .io => 0xFF00
  | .highRam => 0xFF80
  | .interruptEnable => 0xFFFF

/-- The last address of a region. -/
def last : Region → UInt16
  | .romBank0 => 0x3FFF
  | .romBankN => 0x7FFF
  | .vram => 0x9FFF
  | .externalRam => 0xBFFF
  | .workRam0 => 0xCFFF
  | .workRamN => 0xDFFF
  | .echo => 0xFDFF
  | .oam => 0xFE9F
  | .unusable => 0xFEFF
  | .io => 0xFF7F
  | .highRam => 0xFFFE
  | .interruptEnable => 0xFFFF

/-- The region an address belongs to. -/
def of (address : UInt16) : Region :=
  if address < 0x4000 then .romBank0
  else if address < 0x8000 then .romBankN
  else if address < 0xA000 then .vram
  else if address < 0xC000 then .externalRam
  else if address < 0xD000 then .workRam0
  else if address < 0xE000 then .workRamN
  else if address < 0xFE00 then .echo
  else if address < 0xFEA0 then .oam
  else if address < 0xFF00 then .unusable
  else if address < 0xFF80 then .io
  else if address < 0xFFFF then .highRam
  else .interruptEnable

end Region
end GameBoy
