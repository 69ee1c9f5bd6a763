/-!
# Configuration

The choices made before power-on.
-/

namespace GameBoy

/-- The state a machine starts from. -/
inductive BootState where
  /-- As the boot ROM leaves it when it hands over to the cartridge. -/
  | postBoot
  /-- Every register and latch clear. -/
  | zeroed
deriving DecidableEq

/-- The choices for one session. -/
structure Config where
  bootState : BootState := .postBoot
  /-- Refuse ROM writes on a cartridge without bank controller instead of dropping them. -/
  strictRomWrites : Bool := false
  /-- Keep every byte sent through the serial port. -/
  captureSerial : Bool := true

end GameBoy
