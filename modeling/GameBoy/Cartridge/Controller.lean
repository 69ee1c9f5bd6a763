import GameBoy.Cartridge.Kind

/-!
# Bank controllers

A controller is a few registers written through the ROM windows.  They select the ROM bank behind
each of the two windows and the RAM bank, if any, behind the RAM window.  Bank numbers are given as
selected; the cartridge reduces them to the banks it has.
-/

namespace GameBoy

/-- Registers of the first controller. -/
structure Mbc1 where
  ramEnabled : Bool := false
  /-- Low five bits of the ROM bank, never zero. -/
  low : UInt8 := 1
  /-- Two bits above them, or the RAM bank. -/
  high : UInt8 := 0
  /-- The upper bits also apply to the first window and to RAM. -/
  advanced : Bool := false
deriving DecidableEq

namespace Mbc1

/-- The ROM bank selected for the first or the second window. -/
def romBank (mbc : Mbc1) (second : Bool) : Nat :=
  let upper := mbc.high.toNat * 0x20
  if second then upper + mbc.low.toNat else if mbc.advanced then upper else 0

/-- The RAM bank selected, if RAM is enabled. -/
def ramBank (mbc : Mbc1) : Option Nat :=
  if mbc.ramEnabled then some (if mbc.advanced then mbc.high.toNat else 0) else none

/-- Write a register. -/
def write (mbc : Mbc1) (address : UInt16) (value : UInt8) : Mbc1 :=
  if address < 0x2000 then { mbc with ramEnabled := value &&& 0x0F == 0x0A }
  else if address < 0x4000 then { mbc with low := max (value &&& 0x1F) 1 }
  else if address < 0x6000 then { mbc with high := value &&& 0x03 }
  else { mbc with advanced := value &&& 0x01 != 0 }

end Mbc1

/-- Registers of the third controller, without its clock: where a clock register is selected nothing
is mapped. -/
structure Mbc3 where
  ramEnabled : Bool := false
  /-- ROM bank, never zero. -/
  bank : UInt8 := 1
  /-- RAM bank or clock register. -/
  select : UInt8 := 0
deriving DecidableEq

namespace Mbc3

/-- The ROM bank selected for the first or the second window. -/
def romBank (mbc : Mbc3) (second : Bool) : Nat :=
  if second then mbc.bank.toNat else 0

/-- The RAM bank selected, if RAM is enabled and no clock register is selected. -/
def ramBank (mbc : Mbc3) : Option Nat :=
  if mbc.ramEnabled && mbc.select ≤ 3 then some mbc.select.toNat else none

/-- Write a register; latching the clock has no effect. -/
def write (mbc : Mbc3) (address : UInt16) (value : UInt8) : Mbc3 :=
  if address < 0x2000 then { mbc with ramEnabled := value &&& 0x0F == 0x0A }
  else if address < 0x4000 then { mbc with bank := max (value &&& 0x7F) 1 }
  else if address < 0x6000 then { mbc with select := value &&& 0x0F }
  else mbc

end Mbc3

/-- Registers of the fifth controller. -/
structure Mbc5 where
  ramEnabled : Bool := false
  /-- Low byte of the ROM bank, which may be zero. -/
  low : UInt8 := 1
  /-- Ninth bit of the ROM bank. -/
  high : Bool := false
  select : UInt8 := 0
  /-- One bit of the RAM bank drives a motor instead. -/
  rumble : Bool := false
deriving DecidableEq

namespace Mbc5

/-- The ROM bank selected for the first or the second window. -/
def romBank (mbc : Mbc5) (second : Bool) : Nat :=
  if second then mbc.low.toNat + 0x100 * mbc.high.toNat else 0

/-- The RAM bank selected, if RAM is enabled. -/
def ramBank (mbc : Mbc5) : Option Nat :=
  if mbc.ramEnabled then some mbc.select.toNat else none

/-- Write a register; only one exact value enables RAM. -/
def write (mbc : Mbc5) (address : UInt16) (value : UInt8) : Mbc5 :=
  if address < 0x2000 then { mbc with ramEnabled := value == 0x0A }
  else if address < 0x3000 then { mbc with low := value }
  else if address < 0x4000 then { mbc with high := value &&& 0x01 != 0 }
  else if address < 0x6000 then
    { mbc with select := value &&& (if mbc.rumble then 0x07 else 0x0F) }
  else mbc

end Mbc5

/-- The controller of a cartridge with its registers. -/
inductive Mapper where
  | none
  | mbc1 (registers : Mbc1)
  | mbc3 (registers : Mbc3)
  | mbc5 (registers : Mbc5)
deriving DecidableEq

namespace Mapper

/-- The ROM bank selected for the first or the second window. -/
def romBank (mapper : Mapper) (second : Bool) : Nat :=
  match mapper with
  | .none => second.toNat
  | .mbc1 registers => registers.romBank second
  | .mbc3 registers => registers.romBank second
  | .mbc5 registers => registers.romBank second

/-- The RAM bank selected, if RAM is mapped. -/
def ramBank : Mapper → Option Nat
  | .none => some 0
  | .mbc1 registers => registers.ramBank
  | .mbc3 registers => registers.ramBank
  | .mbc5 registers => registers.ramBank

/-- Write a register, if there is a controller. -/
def write (mapper : Mapper) (address : UInt16) (value : UInt8) : Mapper :=
  match mapper with
  | .none => .none
  | .mbc1 registers => .mbc1 (registers.write address value)
  | .mbc3 registers => .mbc3 (registers.write address value)
  | .mbc5 registers => .mbc5 (registers.write address value)

/-- There is a controller that takes writes. -/
def isPresent : Mapper → Bool
  | .none => false
  | _ => true

/-- The controller of a cartridge type at power-on, if it has a model. -/
def ofKind (kind : CartridgeKind) : Option Mapper :=
  match kind.controller with
  | .none => some .none
  | .mbc1 => some (.mbc1 {})
  | .mbc3 => some (.mbc3 {})
  | .mbc5 => some (.mbc5 { rumble := kind.rumble })
  | .mbc2 | .mmm01 | .mbc4 => Option.none

end Mapper
end GameBoy
