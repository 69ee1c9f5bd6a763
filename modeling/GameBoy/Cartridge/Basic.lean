import GameBoy.Cartridge.Controller
import GameBoy.Cartridge.Header
import GameBoy.Log

/-!
# Cartridges

A cartridge is ROM banks, RAM banks and a controller.  An access first resolves to a bank and an
offset: the controller selects a bank, which counts modulo the banks present, and the address
supplies the offset.
-/

namespace GameBoy

/-- A cartridge. -/
structure Cartridge where
  kind : CartridgeKind
  rom : Array RomBank
  ram : Array RamBank
  mapper : Mapper
  /-- Both ROM windows have a bank of their own. -/
  two_le_rom : 2 ≤ rom.size

namespace Cartridge

/-- Build a cartridge from its ROM banks, its number of RAM banks and its type. -/
def build (rom : Array RomBank) (ramBanks : Nat) (kind : CartridgeKind) :
    Except ConfigError Cartridge :=
  if two_le_rom : 2 ≤ rom.size then
    match Mapper.ofKind kind with
    | none => .error (.unsupportedController kind.controller)
    | some mapper =>
      if !mapper.isPresent && ramBanks > 1 then .error (.tooManyRamBanks ramBanks)
      else if !mapper.isPresent && ramBanks > 0 && !kind.ram then .error (.unexpectedRam ramBanks)
      else .ok { kind, rom, ram := Array.replicate ramBanks (Bank.filled 0xFF), mapper, two_le_rom }
  else .error (.romBankCount rom.size)

/-- What is logged when a cartridge has been built. -/
def notice (cartridge : Cartridge) : LogRecord :=
  ⟨.debug, "GB cart: " ++ cartridge.kind.controller.name ++ " rom_banks=" ++
    toString cartridge.rom.size ++ " ram_banks=" ++ toString cartridge.ram.size⟩

/-- A cartridge of two ROM banks and nothing else. -/
def romOnly (bank0 bank1 : RomBank) : Cartridge where
  kind := .romOnly
  rom := #[bank0, bank1]
  ram := #[]
  mapper := .none
  two_le_rom := Nat.le_refl 2

/-- The bank and offset behind a ROM address. -/
def resolveRom (cartridge : Cartridge) (address : UInt16) : Nat × Nat :=
  let offset := address.toNat % 0x8000
  (cartridge.mapper.romBank (0x4000 ≤ offset) % cartridge.rom.size, offset % 0x4000)

/-- The bank and offset behind a RAM address, if RAM is fitted and mapped. -/
def resolveRam (cartridge : Cartridge) (address : UInt16) : Option (Nat × Nat) :=
  if cartridge.ram.isEmpty then none
  else
    cartridge.mapper.ramBank.map fun bank =>
      (bank % cartridge.ram.size, address.toNat % 0x2000)

/-- The ROM bank behind the second window. -/
def selectedRomBank (cartridge : Cartridge) : Nat :=
  (cartridge.resolveRom 0x4000).1

/-- Read a byte of ROM. -/
def readRom (cartridge : Cartridge) (address : UInt16) : UInt8 :=
  let (bank, offset) := cartridge.resolveRom address
  (cartridge.rom.getD bank (Bank.filled 0xFF)).read offset

/-- Read a byte of RAM; an open bus reads 0xFF. -/
def readRam (cartridge : Cartridge) (address : UInt16) : UInt8 :=
  match cartridge.resolveRam address with
  | none => 0xFF
  | some (bank, offset) => (cartridge.ram.getD bank (Bank.filled 0xFF)).read offset

/-- Write a byte of RAM; an open bus takes it without effect. -/
def writeRam (cartridge : Cartridge) (address : UInt16) (value : UInt8) : Cartridge :=
  match cartridge.resolveRam address with
  | none => cartridge
  | some (bank, offset) =>
    { cartridge with ram := cartridge.ram.modify bank (·.write offset value) }

/-- Write a register of the controller through the ROM windows. -/
def writeControl (cartridge : Cartridge) (address : UInt16) (value : UInt8) : Cartridge :=
  { cartridge with mapper := cartridge.mapper.write address value }

theorem resolveRom_lt (cartridge : Cartridge) (address : UInt16) :
    (cartridge.resolveRom address).1 < cartridge.rom.size :=
  Nat.mod_lt _ (Nat.lt_of_lt_of_le Nat.two_pos cartridge.two_le_rom)

theorem resolveRam_lt {cartridge : Cartridge} {address : UInt16} {bank offset : Nat}
    (resolved : cartridge.resolveRam address = some (bank, offset)) :
    bank < cartridge.ram.size := by
  unfold resolveRam at resolved
  split at resolved
  · simp at resolved
  · next nonempty =>
    simp only [Option.map_eq_some_iff, Prod.mk.injEq] at resolved
    obtain ⟨_, _, rfl, _⟩ := resolved
    exact Nat.mod_lt _ (Array.size_pos_iff.mpr (by simpa using nonempty))

end Cartridge
end GameBoy
