import GameBoy.Bank

/-!
# Sound registers

The register file of the sound unit and its wave memory, without synthesis.  Registers read back
through a mask of bits that are always set.  Power-off clears the registers and locks them; the wave
memory is independent of power.
-/

namespace GameBoy

/-- The sound registers. -/
structure Sound where
  /-- The registers below the power register, from the first address of the window. -/
  registers : Bank 0x16 := Bank.filled 0
  /-- Wave memory. -/
  wave : Bank 0x10 := Bank.filled 0
  powered : Bool := false
  /-- Status bits of the four channels. -/
  active : UInt8 := 0
deriving DecidableEq

namespace Sound

/-- First address of the sound window. -/
def base : UInt16 := 0xFF10

/-- Address of the power register. -/
def powerAddress : UInt16 := 0xFF26

/-- First address of wave memory. -/
def waveBase : UInt16 := 0xFF30

/-- The address is one of wave memory. -/
def isWave (address : UInt16) : Bool :=
  waveBase ≤ address && address < 0xFF40

/-- The address is one of a register below the power register. -/
def isRegister (address : UInt16) : Bool :=
  base ≤ address && address < powerAddress

/-- Bits that read as set, for each register below the power register. -/
def readMasks : Bank 0x16 where
  bytes := #v[0x80, 0x3F, 0x00, 0xFF, 0xBF, 0xFF, 0x3F, 0x00, 0xFF, 0xBF, 0x7F, 0xFF, 0x9F, 0xFF,
    0xBF, 0xFF, 0xFF, 0x00, 0x00, 0xBF, 0x00, 0x00]

/-- The status bit set when the register at an address triggers its channel. -/
def triggerBit (address : UInt16) : UInt8 :=
  if address = 0xFF14 then 0x01
  else if address = 0xFF19 then 0x02
  else if address = 0xFF1E then 0x04
  else if address = 0xFF23 then 0x08
  else 0

/-- The register or wave byte at an address as read. -/
def read (sound : Sound) (address : UInt16) : UInt8 :=
  if isWave address then sound.wave.read (address - waveBase).toNat
  else if address = powerAddress then
    0x70 ||| (if sound.powered then 0x80 else 0) ||| sound.active
  else if isRegister address then
    sound.registers.read (address - base).toNat ||| readMasks.read (address - base).toNat
  else 0xFF

/-- Switch the power; switching it off clears the registers and the status. -/
def setPower (sound : Sound) (on : Bool) : Sound :=
  if sound.powered && !on then
    { sound with registers := Bank.filled 0, active := 0, powered := false }
  else
    { sound with powered := on }

/-- Store a register; the top bit of a trigger register starts its channel. -/
def store (sound : Sound) (address : UInt16) (value : UInt8) : Sound :=
  { sound with
    registers := sound.registers.write (address - base).toNat value
    active :=
      if value &&& 0x80 != 0 then sound.active ||| triggerBit address else sound.active }

/-- Write the register or wave byte at an address. -/
def write (sound : Sound) (address : UInt16) (value : UInt8) : Sound :=
  if isWave address then
    { sound with wave := sound.wave.write (address - waveBase).toNat value }
  else if address = powerAddress then sound.setPower (value &&& 0x80 != 0)
  else if isRegister address && sound.powered then sound.store address value
  else sound

/-- The registers the boot ROM writes, in order. -/
def bootWrites : List (UInt16 × UInt8) :=
  [(0xFF26, 0x80), (0xFF10, 0x80), (0xFF11, 0xBF), (0xFF12, 0xF3), (0xFF13, 0xFF), (0xFF16, 0x3F),
    (0xFF17, 0x00), (0xFF18, 0xFF), (0xFF1A, 0x7F), (0xFF1B, 0xFF), (0xFF1C, 0x9F), (0xFF1D, 0xFF),
    (0xFF20, 0xFF), (0xFF21, 0x00), (0xFF22, 0x00), (0xFF24, 0x77), (0xFF25, 0xF3), (0xFF14, 0x3F),
    (0xFF19, 0x3F), (0xFF1E, 0x3F), (0xFF23, 0x3F)]

/-- The sound unit as the boot ROM leaves it, with only the first channel still playing. -/
def postBoot : Sound :=
  { bootWrites.foldl (fun sound (address, value) => sound.write address value) ({} : Sound) with
    active := 0x01 }

end Sound
end GameBoy
