import GameBoy.Text.Hex

/-!
# Cartridge types

One header byte names the bank controller and the extras of a cartridge, and two more code its
amount of ROM and RAM.  A cartridge may be described that cannot be built.
-/

namespace GameBoy

/-- The bank controller on a cartridge. -/
inductive Controller where
  | none | mbc1 | mbc2 | mmm01 | mbc3 | mbc4 | mbc5
deriving DecidableEq

/-- The name of a controller in messages. -/
def Controller.name : Controller → String
  | .none => "None"
  | .mbc1 => "Mbc1"
  | .mbc2 => "Mbc2"
  | .mmm01 => "Mmm01"
  | .mbc3 => "Mbc3"
  | .mbc4 => "Mbc4"
  | .mbc5 => "Mbc5"

/-- Why a cartridge cannot be built. -/
inductive ConfigError where
  | unknownCartridgeType (code : UInt8)
  | unknownRomSize (code : UInt8)
  | unknownRamSize (code : UInt8)
  /-- The controller has no model. -/
  | unsupportedController (controller : Controller)
  /-- More RAM than can be mapped without a controller. -/
  | tooManyRamBanks (count : Nat)
  /-- RAM on a cartridge whose type has none. -/
  | unexpectedRam (count : Nat)
  /-- Fewer ROM banks than the address space shows at once. -/
  | romBankCount (count : Nat)
deriving DecidableEq

/-- The wording of a configuration error. -/
def ConfigError.message : ConfigError → String
  | .unknownCartridgeType code => "unknown cartridge type byte 0x" ++ Hex.byte code
  | .unknownRomSize code => "unknown ROM size code 0x" ++ Hex.byte code
  | .unknownRamSize code => "unknown RAM size code 0x" ++ Hex.byte code
  | .unsupportedController controller => "unsupported bank controller " ++ controller.name
  | .tooManyRamBanks count =>
    s!"cartridge without a bank controller cannot carry {count} RAM banks"
  | .unexpectedRam count =>
    s!"cartridge type declares no external RAM but {count} RAM banks were supplied"
  | .romBankCount count => s!"cartridge needs at least 2 ROM banks, got {count}"

/-- A cartridge type. -/
structure CartridgeKind where
  code : UInt8
  controller : Controller
  ram : Bool := false
  battery : Bool := false
  rtc : Bool := false
  rumble : Bool := false
deriving DecidableEq

namespace CartridgeKind

/-- A cartridge that is ROM and nothing else. -/
def romOnly : CartridgeKind :=
  { code := 0x00, controller := .none }

/-- The cartridge type with a given code. -/
def ofCode (code : UInt8) : Except ConfigError CartridgeKind :=
  match code.toNat with
  | 0x00 => .ok { code, controller := .none }
  | 0x01 => .ok { code, controller := .mbc1 }
  | 0x02 => .ok { code, controller := .mbc1, ram := true }
  | 0x03 => .ok { code, controller := .mbc1, ram := true, battery := true }
  | 0x05 => .ok { code, controller := .mbc2 }
  | 0x06 => .ok { code, controller := .mbc2, battery := true }
  | 0x08 => .ok { code, controller := .none, ram := true }
  | 0x09 => .ok { code, controller := .none, ram := true, battery := true }
  | 0x0B => .ok { code, controller := .mmm01 }
  | 0x0C => .ok { code, controller := .mmm01, ram := true }
  | 0x0D => .ok { code, controller := .mmm01, ram := true, battery := true }
  | 0x0F => .ok { code, controller := .mbc3, rtc := true, battery := true }
  | 0x10 => .ok { code, controller := .mbc3, rtc := true, ram := true, battery := true }
  | 0x11 => .ok { code, controller := .mbc3 }
  | 0x12 => .ok { code, controller := .mbc3, ram := true }
  | 0x13 => .ok { code, controller := .mbc3, ram := true, battery := true }
  | 0x15 => .ok { code, controller := .mbc4 }
  | 0x16 => .ok { code, controller := .mbc4, ram := true }
  | 0x17 => .ok { code, controller := .mbc4, ram := true, battery := true }
  | 0x19 => .ok { code, controller := .mbc5 }
  | 0x1A => .ok { code, controller := .mbc5, ram := true }
  | 0x1B => .ok { code, controller := .mbc5, ram := true, battery := true }
  | 0x1C => .ok { code, controller := .mbc5, rumble := true }
  | 0x1D => .ok { code, controller := .mbc5, rumble := true, ram := true }
  | 0x1E => .ok { code, controller := .mbc5, rumble := true, ram := true, battery := true }
  | _ => .error (.unknownCartridgeType code)

end CartridgeKind

/-- Number of 16 KiB ROM banks for a size code.  The first codes double the number each. -/
def romBankCount (code : UInt8) : Except ConfigError Nat :=
  if code ≤ 0x08 then .ok (2 <<< code.toNat)
  else if code = 0x52 then .ok 72
  else if code = 0x53 then .ok 80
  else if code = 0x54 then .ok 96
  else .error (.unknownRomSize code)

/-- Number of 8 KiB RAM banks for a size code; a smaller chip still takes up one bank. -/
def ramBankCount (code : UInt8) : Except ConfigError Nat :=
  match code.toNat with
  | 0 => .ok 0
  | 1 | 2 => .ok 1
  | 3 => .ok 4
  | 4 => .ok 16
  | 5 => .ok 8
  | _ => .error (.unknownRamSize code)

end GameBoy
