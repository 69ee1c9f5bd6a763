import GameBoy.Bank
import GameBoy.Cartridge.Kind
import GameBoy.Text.Blank
import GameBoy.Text.Utf8

/-!
# Cartridge headers

The header lies in the first ROM bank.  Of several unknown codes the first in address order is
reported, and a wrong checksum is noted without being an error.
-/

namespace GameBoy

/-- A 16 KiB bank of cartridge ROM. -/
abbrev RomBank := Bank 0x4000

/-- An 8 KiB bank of cartridge RAM. -/
abbrev RamBank := Bank 0x2000

/-- Where a cartridge was meant to be sold. -/
inductive Destination where
  | japan
  | overseas
deriving DecidableEq

/-- The header of a cartridge. -/
structure Header where
  title : String
  cgbFlag : UInt8
  kind : CartridgeKind
  romBanks : Nat
  ramBanks : Nat
  destination : Destination
  /-- The checksum stored in the header. -/
  checksum : UInt8
  /-- The checksum of the header's bytes. -/
  computedChecksum : UInt8
deriving DecidableEq

namespace Header

/-- Offset of the first byte past the header. -/
def endOffset : Nat := 0x150

/-- Offset of the title. -/
def titleOffset : Nat := 0x134

/-- Offset of the stored checksum. -/
def checksumOffset : Nat := 0x14D

/-- The header checksum: each byte from the title up to the stored checksum takes itself and one
away. -/
def checksumOf (bank : RomBank) : UInt8 :=
  (List.range (checksumOffset - titleOffset)).foldl
    (fun sum i => sum - bank.read (titleOffset + i) - 1) 0

/-- The title, up to the first zero byte and without blanks at its end. -/
def titleOf (bank : RomBank) : String :=
  let bytes := (List.range 16).map fun i => bank.read (titleOffset + i)
  String.ofList (trimBlanksRight (Utf8.chars (bytes.takeWhile (· != 0))))

/-- Read the header from the first ROM bank. -/
def parse (bank : RomBank) : Except ConfigError Header := do
  let kind ← CartridgeKind.ofCode (bank.read 0x147)
  let romBanks ← romBankCount (bank.read 0x148)
  let ramBanks ← ramBankCount (bank.read 0x149)
  pure
    { title := titleOf bank
      cgbFlag := bank.read 0x143
      kind, romBanks, ramBanks
      destination := if bank.read 0x14A = 0 then .japan else .overseas
      checksum := bank.read checksumOffset
      computedChecksum := checksumOf bank }

/-- The stored checksum is right. -/
def checksumValid (header : Header) : Bool :=
  header.checksum == header.computedChecksum

/-- The header in one line. -/
def summary (header : Header) : String :=
  "\"" ++ header.title ++ "\" type=0x" ++ Hex.byte header.kind.code ++
    " (" ++ header.kind.controller.name ++ ") rom=" ++ toString header.romBanks ++
    "x16K ram=" ++ toString header.ramBanks ++ "x8K"

end Header
end GameBoy
